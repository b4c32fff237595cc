import SchemaPlan.Schema.Load
import SchemaPlan.Proofs.Resolve.Outcome
import Mathlib.Data.List.Forall2

/-!
# The result sets of a procedure

A select statement of a body gives its rows to the caller unless it writes them to a table or
assigns to local variables. The result sets of a procedure that resolves are compared with the
select statements of its body: they answer these one by one and in order, except that a select with
a quoted name that only looks like a variable is taken for an assignment.
-/

namespace SchemaPlan

open SchemaPlan.Query SchemaPlan.Sql

/-! ## Selects without rows -/

/-- The name that is written in front of an item or after it. -/
def itemName? : SelectItem → Option Ident
  | .aliased _ label => some label
  | .unnamed (.binary (.ident name) "=" _) => some name
  | _ => none

/-- Whether an item assigns to a local variable: `@v = value`, where the name has no quotes. -/
def assignsLocal (item : SelectItem) : Bool :=
  (itemName? item).any fun name => name.quote.isNone && isVariable name.value

/-- Whether an item has a name that would be a variable without its quotes: `id AS [@id]`. -/
def hasQuotedSign (item : SelectItem) : Bool :=
  (itemName? item).any fun name => name.quote.isSome && isVariable name.value

/-- The select whose columns a body has: the first arm of its set operations. -/
def leadingSelect? : Body → Option Select
  | .select select => some select
  | .nested ⟨_, _, body, _⟩ => leadingSelect? body
  | .operation left _ _ => leadingSelect? left
  | .values _ _ => none
  | .other _ => none

/-- Whether the rows of a select go into a table or into local variables. -/
def keepsRows (select : Select) : Bool :=
  select.into.isSome || select.projection.any assignsLocal

/-- Whether the rows of a query go to the caller. -/
def givesRows (query : Query) : Bool :=
  (leadingSelect? query.body).all fun select => !keepsRows select

/-- Whether a query gives rows but has an item that only looks like an assignment. -/
def looksAssigning (query : Query) : Bool :=
  (leadingSelect? query.body).any fun select =>
    !keepsRows select && select.projection.any hasQuotedSign

/-- What counts as an assignment to a variable is one or has a quoted name. -/
theorem assignsVariable_eq (item : SelectItem) :
    assignsVariable item = (assignsLocal item || hasQuotedSign item) := by
  have hname : assignsVariable item = (itemName? item).any fun name => isVariable name.value := by
    unfold itemName?
    split
    · rfl
    · rfl
    · -- An item of any other form has no name, and is no assignment.
      rename_i haliased hequality
      unfold assignsVariable
      split
      · exact absurd rfl (haliased _ _)
      · exact absurd rfl (hequality _ _)
      · rfl
  rw [hname]
  unfold assignsLocal hasQuotedSign
  cases itemName? item with
  | none => rfl
  | some name =>
    simp only [Option.any_some]
    cases name.quote with
    | none => rw [Option.isNone_none, Option.isSome_none, Bool.true_and, Bool.false_and,
        Bool.or_false]
    | some quote => rw [Option.isNone_some, Option.isSome_some, Bool.true_and, Bool.false_and,
        Bool.false_or]

/-- The rows of a query that resolves are returned if no item of its leading select has a name like
that of a variable and no table takes them. -/
theorem returnsRows_of_body {r : Resolver} : ∀ (body : Body) {ctes : List CteShape}
    {resolved : ResolvedQuery}, r.body ctes body = .ok resolved →
    resolved.returnsRows = (leadingSelect? body).all fun select =>
      select.into.isNone && !select.projection.any assignsVariable
  | .select select, ctes, resolved, h => by
    obtain ⟨parts, rfl⟩ := Resolver.selectParts_of_body h
    rfl
  | .nested ⟨recursive, own, body, tail⟩, ctes, resolved, h => by
    -- What a query resolves to depends on its body only, whatever expressions it adds.
    rw [Resolver.body_nested] at h
    obtain ⟨inner, -, hbody⟩ := Resolver.query_eq_ok.mp h
    exact returnsRows_of_body body hbody
  | .operation left operator right, ctes, resolved, h => by
    obtain ⟨first, hfirst, rfl⟩ := Resolver.body_operation_eq_ok.mp h
    have hreturns := returnsRows_of_body left hfirst
    exact hreturns
  | .values explicitRow rows, ctes, resolved, h => by
    rw [Resolver.body_values] at h
    obtain rfl := Except.ok.inj h
    simp only [resolveRows, leadingSelect?, Option.all_none]
  | .other pieces, ctes, resolved, h => absurd h Resolver.body_other_ne_ok

/-- The rows of a query that resolves are returned if they go to the caller and the query does not
look like an assignment. -/
theorem returnsRows_of_query {r : Resolver} {query : Query} {resolved : ResolvedQuery}
    (h : r.query [] query = .ok resolved) :
    resolved.returnsRows = (givesRows query && !looksAssigning query) := by
  obtain ⟨inner, -, hbody⟩ := Resolver.query_eq_ok.mp h
  rw [returnsRows_of_body query.body hbody]
  unfold givesRows looksAssigning
  cases leadingSelect? query.body with
  | none => rfl
  | some select =>
    have hany : select.projection.any assignsVariable =
        (select.projection.any assignsLocal || select.projection.any hasQuotedSign) := by
      rw [Bool.eq_iff_iff, Bool.or_eq_true, List.any_eq_true, List.any_eq_true, List.any_eq_true]
      simp only [assignsVariable_eq, Bool.or_eq_true, and_or_left, exists_or]
    simp only [Option.all_some, Option.any_some, keepsRows, hany]
    cases select.into <;> cases select.projection.any assignsLocal <;> rfl

/-! ## The select statements of a body -/

/-- The select statements of the body that starts at a cursor, in order, each read as a query. -/
def statementQueries (body : Cursor) : List (Except Grammar.SyntaxError Query) :=
  ((body.statements body.pos).filter (·.kind == .select)).map fun statement =>
    Grammar.parseQuery (body.slice statement.start statement.stop)

/-- The select statements of a body are the queries of its selects. -/
theorem map_query_bodySelects (body : Cursor) :
    (Definition.bodySelects body).map (·.query) = statementQueries body := by
  simp only [Definition.bodySelects, statementQueries, List.map_map, Function.comp_def]

/-- Whatever a reading yields has the property `p`, together with the cursor where it ends. -/
def Ensures {α : Type} (reading : Reading α) (p : α → Cursor → Prop) : Prop :=
  ∀ start stop result, OptionT.run reading start = (some result, stop) → p result stop

/-- A step ensures what the step after it ensures. -/
theorem Ensures.bind {α β : Type} {first : Reading α} {next : α → Reading β}
    {p : β → Cursor → Prop} (h : ∀ value, Ensures (next value) p) : Ensures (first >>= next) p := by
  intro start stop result hrun
  rw [OptionT.run_bind] at hrun
  change (OptionT.run first start).1.elim (pure none) (fun value => OptionT.run (next value))
    (OptionT.run first start).2 = (some result, stop) at hrun
  cases hfirst : (OptionT.run first start).1 with
  -- A reading that fails has no result to say anything of.
  | none =>
    rw [hfirst] at hrun
    cases hrun
  | some value =>
    rw [hfirst] at hrun
    exact h value _ stop result hrun

theorem Ensures.ofCursor {α : Type} (f : Cursor → α) :
    Ensures (do return f (← get)) fun result stop => result = f stop := by
  intro start stop result hrun
  cases hrun
  rfl

theorem Ensures.ite {α : Type} {c : Prop} [Decidable c] {yes no : Reading α}
    {p : α → Cursor → Prop} (hyes : Ensures yes p) (hno : Ensures no p) :
    Ensures (if c then yes else no) p := by
  split
  · exact hyes
  · exact hno

/-- The selects of a procedure are the select statements of what follows its head. -/
theorem ensures_bodySelects :
    Ensures Definition.procedure fun definition body =>
      definition.selects = Definition.bodySelects body := by
  unfold Definition.procedure
  refine .bind fun _ => .bind fun isLong => ?_
  refine .ite (.bind fun _ => ?_) ?_
  -- With either spelling of the keyword, the last step reads the selects off the cursor.
  all_goals
    refine .bind fun _ => .bind fun name => .bind fun parameters => .bind fun _ => .bind fun _ =>
      .bind fun _ => ?_
    intro start stop definition hrun
    exact congrArg ProcedureDefinition.selects (Ensures.ofCursor _ start stop definition hrun)

/-! ## Result sets -/

/-- A result set has the columns, the row count and the aliases of the query that it answers. -/
def Answers (r : Resolver) (query : Query) (result : ResultSet) : Prop :=
  ∃ resolved, r.query [] query = .ok resolved ∧
    result = ⟨resolved.columns, resolved.isSingleRow, resolved.aliases⟩

/-- The result sets of selects answer the queries that give rows and do not look like assignments,
in order. -/
theorem buildResults_answers {r : Resolver} {procedure : String} {number : Nat}
    {selects : List BodySelect} {results : List ResultSet}
    (h : buildResults r procedure number selects = .ok results) :
    ∃ queries : List Query, selects.map (·.query) = queries.map .ok ∧
      List.Forall₂ (Answers r)
        (queries.filter fun query => givesRows query && !looksAssigning query) results := by
  induction selects generalizing number results with
  | nil =>
    obtain rfl := Except.ok.inj h
    exact ⟨[], rfl, .nil⟩
  | cons select rest ih =>
    unfold buildResults at h
    cases hquery : select.query with
    -- A select that cannot be read fails the procedure.
    | error failure =>
      rw [hquery] at h
      cases h
    | ok query =>
      rw [hquery] at h
      dsimp only at h
      cases hresult : r.resultSet? query with
      | error failure =>
        rw [hresult] at h
        cases h
      | ok result =>
        rw [hresult] at h
        obtain ⟨more, hmore, h⟩ := bind_eq_ok.mp h
        obtain rfl := Except.ok.inj h
        obtain ⟨queries, hqueries, hanswers⟩ := ih hmore
        refine ⟨query :: queries, by rw [List.map_cons, List.map_cons, hquery, hqueries], ?_⟩
        -- The query is left out of the results exactly if it is left out by the filter.
        cases result with
        | none =>
          obtain ⟨resolved, hresolved, hrows⟩ := Resolver.resultSet?_eq_none.mp hresult
          rw [returnsRows_of_query hresolved] at hrows
          rw [List.filter_cons, hrows]
          exact hanswers
        | some result =>
          obtain ⟨resolved, hresolved, hrows, hresult⟩ := Resolver.resultSet?_eq_some.mp hresult
          rw [returnsRows_of_query hresolved] at hrows
          rw [List.filter_cons, if_pos hrows]
          exact .cons ⟨resolved, hresolved, hresult⟩ hanswers

theorem givesRows_of_looksAssigning {query : Query} (h : looksAssigning query = true) :
    givesRows query = true := by
  unfold looksAssigning at h
  unfold givesRows
  cases hselect : leadingSelect? query.body with
  | none => rfl
  | some select =>
    rw [hselect] at h
    exact (Bool.and_eq_true_iff.mp h).1

/-- If the queries that look like assignments are left unanswered, then all that give rows are
answered only if there are no such queries. -/
theorem answers_givesRows_iff {r : Resolver} {queries : List Query} {results : List ResultSet}
    (h : List.Forall₂ (Answers r)
      (queries.filter fun query => givesRows query && !looksAssigning query) results) :
    List.Forall₂ (Answers r) (queries.filter givesRows) results ↔
      ∀ query ∈ queries, looksAssigning query = false := by
  have hfilter : (queries.filter fun query => givesRows query && !looksAssigning query) =
      (queries.filter givesRows).filter fun query => !looksAssigning query := by
    rw [List.filter_filter]
    exact List.filter_congr fun query _ => Bool.and_comm _ _
  rw [hfilter] at h
  constructor
  · intro hall query hquery
    -- There are as many answers as queries that give rows, so no query is left out.
    have hlength := h.length_eq.trans hall.length_eq.symm
    by_contra hlooks
    rw [Bool.not_eq_false] at hlooks
    have hmem : query ∈ queries.filter givesRows :=
      List.mem_filter.mpr ⟨hquery, givesRows_of_looksAssigning hlooks⟩
    have hnot := List.length_filter_eq_length_iff.mp hlength query hmem
    rw [hlooks] at hnot
    cases hnot
  · intro hnone
    rw [List.filter_eq_self.mpr] at h
    · exact h
    · intro query hquery
      rw [hnone query (List.mem_filter.mp hquery).1]
      rfl

/-- The result sets of a procedure that is read from a text and resolves answer, in order and one
by one, the select statements of its body that give rows, exactly if none of these is taken for an
assignment because of a quoted name. -/
theorem results_answer_body_iff {options : LoadOptions} {model : SchemaModel}
    {definition : ProcedureDefinition} {procedure : Procedure} {start body : Cursor}
    (hread : OptionT.run Definition.procedure start = (some definition, body))
    (hbuild : buildProcedure options model definition = .ok procedure) :
    ∃ queries : List Query, statementQueries body = queries.map .ok ∧
      (List.Forall₂ (Answers ⟨model.catalog, procedure.parameters⟩) (queries.filter givesRows)
          procedure.results ↔
        ∀ query ∈ queries, looksAssigning query = false) := by
  unfold buildProcedure at hbuild
  obtain ⟨results, hresults, hbuild⟩ := bind_eq_ok.mp hbuild
  obtain rfl := Except.ok.inj hbuild
  obtain ⟨queries, hqueries, hanswers⟩ := buildResults_answers hresults
  have hselects := ensures_bodySelects start body definition hread
  rw [hselects, map_query_bodySelects] at hqueries
  exact ⟨queries, hqueries, answers_givesRows_iff hanswers⟩

/-! ## Procedures of a text -/

/-- A test that succeeds on the definition in a text shows that the text is read. -/
theorem exists_read_of_any (text : String) (test : ProcedureDefinition → Cursor → Bool)
    (h : ((Cursor.ofText? text).any fun start =>
      (OptionT.run Definition.procedure start).1.any fun definition =>
        test definition (OptionT.run Definition.procedure start).2) = true) :
    ∃ start body definition, Cursor.ofText? text = some start ∧
      OptionT.run Definition.procedure start = (some definition, body) ∧
      test definition body = true := by
  obtain ⟨start, hstart, h⟩ := (Option.any_eq_true _ _).mp h
  obtain ⟨definition, hdefinition, h⟩ := (Option.any_eq_true _ _).mp h
  exact ⟨start, _, definition, hstart, Prod.ext hdefinition rfl, h⟩

/-- A test that succeeds on the procedure of a text shows that the text is read and resolved. -/
theorem exists_built_of_any (options : LoadOptions) (model : SchemaModel) (text : String)
    (test : Cursor → Procedure → Bool)
    (h : ((Cursor.ofText? text).any fun start =>
      (OptionT.run Definition.procedure start).1.any fun definition =>
        (buildProcedure options model definition).toOption.any
          (test (OptionT.run Definition.procedure start).2)) = true) :
    ∃ start body definition procedure, Cursor.ofText? text = some start ∧
      OptionT.run Definition.procedure start = (some definition, body) ∧
      buildProcedure options model definition = .ok procedure ∧ test body procedure = true := by
  obtain ⟨start, body, definition, hstart, hread, h⟩ := exists_read_of_any text
    (fun definition body => (buildProcedure options model definition).toOption.any (test body)) h
  obtain ⟨procedure, hprocedure, h⟩ := (Option.any_eq_true _ _).mp h
  exact ⟨start, body, definition, procedure, hstart, hread, toOption_eq_some hprocedure, h⟩

/-- A procedure that assigns to a variable and then selects two rows has one result set. -/
theorem results_answer_body_of_assignment_and_union :
    ∃ start body definition procedure,
      OptionT.run Definition.procedure start = (some definition, body) ∧
      buildProcedure {} { defaultSchema := "dbo" } definition = .ok procedure ∧
      procedure.results.length = 1 ∧
      ∃ queries : List Query, statementQueries body = queries.map .ok ∧
        (List.Forall₂ (Answers ⟨SchemaModel.catalog { defaultSchema := "dbo" }, procedure.parameters⟩)
            (queries.filter givesRows) procedure.results ↔
          ∀ query ∈ queries, looksAssigning query = false) := by
  obtain ⟨start, body, definition, procedure, -, hread, hbuild, hlength⟩ :=
    exists_built_of_any {} { defaultSchema := "dbo" }
      "create procedure p as select @a = 1; select 2 as [b] union all select 3"
      (fun _ procedure => procedure.results.length == 1) (by decide +kernel)
  exact ⟨start, body, definition, procedure, hread, hbuild, beq_iff_eq.mp hlength,
    results_answer_body_iff hread hbuild⟩

/-- Whether a body is a single select that gives rows while the procedure has no result set. -/
def losesRows (body : Cursor) (procedure : Procedure) : Bool :=
  procedure.results.isEmpty && match statementQueries body with
    | [.ok query] => givesRows query
    | _ => false

/-- The select of `SELECT 1 AS [@Id] FOR XML PATH` gives rows, but a procedure with this body has
no result set. -/
theorem no_results_of_quoted_name :
    ∃ start body definition procedure, ∃ queries : List Query,
      Cursor.ofText? "create procedure p as select 1 as [@Id] for xml path" = some start ∧
      OptionT.run Definition.procedure start = (some definition, body) ∧
      buildProcedure {} { defaultSchema := "dbo" } definition = .ok procedure ∧
      statementQueries body = queries.map .ok ∧
      ¬ List.Forall₂ (Answers ⟨SchemaModel.catalog { defaultSchema := "dbo" }, procedure.parameters⟩)
        (queries.filter givesRows) procedure.results := by
  obtain ⟨start, body, definition, procedure, hstart, hread, hbuild, hlost⟩ :=
    exists_built_of_any {} { defaultSchema := "dbo" }
      "create procedure p as select 1 as [@Id] for xml path" losesRows (by decide +kernel)
  obtain ⟨hempty, hgives⟩ := Bool.and_eq_true_iff.mp hlost
  split at hgives
  · rename_i query hquery
    refine ⟨start, body, definition, procedure, [query], hstart, hread, hbuild, hquery, ?_⟩
    intro hanswers
    have hlength := hanswers.length_eq
    rw [List.filter_cons, if_pos hgives, List.isEmpty_iff.mp hempty] at hlength
    cases hlength
  · cases hgives

end SchemaPlan
