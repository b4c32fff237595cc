import SchemaPlan.Proofs.Body.RowSource
import SchemaPlan.Proofs.Procedure.Loaded

/-!
# Selects behind an `INSERT`

A select that is a statement of a procedure's body is answered by a result set, if it gives rows. So
a select behind an `INSERT` gives a result set exactly if nothing that is open takes it for its own.
An `INSERT` with a query in parentheses does so, and the procedure loses a result set.
-/

namespace SchemaPlan

open SchemaPlan.Query SchemaPlan.Sql

/-- The tokens of the text that a cursor stands in. -/
def tokensIn (body : Cursor) : List Token := body.tokens.toList.map (·.token)

/-! ## Answers to single selects -/

/-- The select statement between two places can be read, and if it gives rows and does not look like
an assignment, then a result set answers it. -/
def HasAnswer (body : Cursor) (model : SchemaModel) (procedure : Procedure) (start stop : Nat) :
    Prop :=
  ∃ query, Grammar.parseQuery (body.slice start stop) = .ok query ∧
    (givesRows query = true → looksAssigning query = false →
      ∃ result ∈ procedure.results, Answers ⟨model.catalog, procedure.parameters⟩ query result)

section Bodies

variable {start body : Cursor} {definition : ProcedureDefinition}

/-- Every select statement of the body of a procedure that resolves has an answer. -/
theorem hasAnswer_of_mem_statements {options : LoadOptions} {model : SchemaModel}
    {procedure : Procedure} {first stop : Nat}
    (hread : OptionT.run Definition.procedure start = (some definition, body))
    (hbuild : buildProcedure options model definition = .ok procedure)
    (hmem : ⟨.select, first, stop⟩ ∈ body.statements body.pos) :
    HasAnswer body model procedure first stop := by
  unfold buildProcedure at hbuild
  obtain ⟨results, hresults, hbuild⟩ := bind_eq_ok.mp hbuild
  obtain rfl := Except.ok.inj hbuild
  obtain ⟨queries, hqueries, hanswers⟩ := buildResults_answers hresults
  rw [ensures_bodySelects start body definition hread, map_query_bodySelects] at hqueries
  -- The selects of the definition are the select statements of the body, so this one is among the
  -- queries.
  have hselect : Grammar.parseQuery (body.slice first stop) ∈ statementQueries body :=
    List.mem_map.mpr ⟨_, List.mem_filter.mpr ⟨hmem, rfl⟩, rfl⟩
  rw [hqueries] at hselect
  obtain ⟨query, hquery, hparse⟩ := List.mem_map.mp hselect
  refine ⟨query, hparse.symm, fun hgives hlooks => ?_⟩
  have hanswered : query ∈ queries.filter fun query => givesRows query && !looksAssigning query := by
    rw [List.mem_filter, hgives, hlooks]
    exact ⟨hquery, rfl⟩
  exact exists_mem_of_forall₂ hanswers.flip hanswered

/-- A select behind an `INSERT` is a statement of a procedure's body exactly if no word joins it, no
`MERGE` is open and no `INSERT` still waits for its rows, which one can do only behind a query in
parentheses; then it has an answer in every procedure that resolves. -/
theorem select_after_insert_iff {insert select first : Nat} {form : Body.RowForm}
    (hread : OptionT.run Definition.procedure start = (some definition, body))
    (h : Body.InsertThenSelect (tokensIn body) body.pos insert select first form) :
    ((∃ stop, ⟨.select, first, stop⟩ ∈ body.statements body.pos) ↔
      Body.isJoined (tokensIn body) body.pos select = false ∧
        ¬ Body.InMerge (tokensIn body) body.pos select ∧
        (form = .query → ¬ Body.InsertWaits (tokensIn body) body.pos select)) ∧
      ∀ stop, ⟨.select, first, stop⟩ ∈ body.statements body.pos →
        ∀ (options : LoadOptions) (model : SchemaModel) (procedure : Procedure),
          buildProcedure options model definition = .ok procedure →
            HasAnswer body model procedure first stop := by
  constructor
  · exact h.exists_mem_iff
  · intro stop hmem options model procedure hbuild
    exact hasAnswer_of_mem_statements hread hbuild hmem

end Bodies

/-! ## Two procedures -/

/-- Whether the text of a procedure has been read as these tokens, with its body from a place on. -/
def isReadAs (tokens : List Token) (pos : Nat) (body : Cursor) : Bool :=
  decide (tokensIn body = tokens ∧ body.pos = pos)

/-- `create procedure p as insert t (a) output inserted.a select 1 union select 2 select 3 as b`. -/
def unionRows : List Token :=
  [.word "create" .bare, .blank .space, .word "procedure" .bare, .blank .space, .word "p" .bare,
    .blank .space, .word "as" .bare, .blank .space, .word "insert" .bare, .blank .space,
    .word "t" .bare, .blank .space, .mark .openParen, .word "a" .bare, .mark .closeParen,
    .blank .space, .word "output" .bare, .blank .space, .word "inserted" .bare, .mark .period,
    .word "a" .bare, .blank .space, .word "select" .bare, .blank .space, .number "1" false,
    .blank .space, .word "union" .bare, .blank .space, .word "select" .bare, .blank .space,
    .number "2" false, .blank .space, .word "select" .bare, .blank .space, .number "3" false,
    .blank .space, .word "as" .bare, .blank .space, .word "b" .bare]

theorem insertThenSelect_unionRows : Body.InsertThenSelect unionRows 7 8 32 32 .select where
  order := by decide
  isInsert := by decide
  source := @Body.RowSource.select _ _ _ _ 22 (by decide) (by decide) (by decide)
  isSelect := by decide
  begins := .itself (by decide)
  noSemicolon := by decide
  noValues := by decide
  noInsert := by decide

/-- An `INSERT` takes both selects of a union, and the one behind it has an answer. -/
theorem select_after_insert_iff_of_union :
    ∃ start body definition procedure stop,
      OptionT.run Definition.procedure start = (some definition, body) ∧
      buildProcedure {} { defaultSchema := "dbo" } definition = .ok procedure ∧
      Body.InsertThenSelect (tokensIn body) body.pos 8 32 32 .select ∧
      ⟨.select, 32, stop⟩ ∈ body.statements body.pos ∧
      HasAnswer body { defaultSchema := "dbo" } procedure 32 stop ∧
      procedure.results.length = 1 := by
  obtain ⟨start, body, definition, procedure, -, hread, hbuild, htest⟩ :=
    exists_built_of_any {} { defaultSchema := "dbo" }
      "create procedure p as insert t (a) output inserted.a select 1 union select 2 select 3 as b"
      (fun body procedure => isReadAs unionRows 7 body && procedure.results.length == 1)
      (by decide +kernel)
  obtain ⟨hread', hlength⟩ := Bool.and_eq_true_iff.mp htest
  obtain ⟨htokens, hpos⟩ := of_decide_eq_true hread'
  have h : Body.InsertThenSelect (tokensIn body) body.pos 8 32 32 .select := by
    rw [htokens, hpos]
    exact insertThenSelect_unionRows
  obtain ⟨hown, hanswers⟩ := select_after_insert_iff hread h
  rw [htokens, hpos] at hown
  obtain ⟨stop, hmem⟩ := hown.mpr ⟨by decide +kernel, by decide +kernel, nofun⟩
  rw [← hpos] at hmem
  exact ⟨start, body, definition, procedure, stop, hread, hbuild, h, hmem,
    hanswers stop hmem _ _ procedure hbuild, beq_iff_eq.mp hlength⟩

/-- `create procedure p as insert into t (a) (select 1) select 2 as b`. -/
def nestedRows : List Token :=
  [.word "create" .bare, .blank .space, .word "procedure" .bare, .blank .space, .word "p" .bare,
    .blank .space, .word "as" .bare, .blank .space, .word "insert" .bare, .blank .space,
    .word "into" .bare, .blank .space, .word "t" .bare, .blank .space, .mark .openParen,
    .word "a" .bare, .mark .closeParen, .blank .space, .mark .openParen, .word "select" .bare,
    .blank .space, .number "1" false, .mark .closeParen, .blank .space, .word "select" .bare,
    .blank .space, .number "2" false, .blank .space, .word "as" .bare, .blank .space,
    .word "b" .bare]

theorem insertThenSelect_nestedRows : Body.InsertThenSelect nestedRows 7 8 24 24 .query where
  order := by decide
  isInsert := by decide
  source := @Body.RowSource.query _ _ _ _ 18 (by decide) (by decide) (by decide) rfl
    (by decide)
  isSelect := by decide
  begins := .itself (by decide)
  noSemicolon := by decide
  noValues := by decide
  noInsert := by decide

/-- The `INSERT` of `insert into t (a) (select 1) select 2 as b` has its rows, but it takes the second
select as well: that is no statement, and the procedure has no result set. -/
theorem no_result_of_nested_rows :
    ∃ start body definition procedure,
      Cursor.ofText? "create procedure p as insert into t (a) (select 1) select 2 as b" =
        some start ∧
      OptionT.run Definition.procedure start = (some definition, body) ∧
      buildProcedure {} { defaultSchema := "dbo" } definition = .ok procedure ∧
      Body.InsertThenSelect (tokensIn body) body.pos 8 24 24 .query ∧
      Body.isJoined (tokensIn body) body.pos 24 = false ∧
      (¬ ∃ stop, ⟨.select, 24, stop⟩ ∈ body.statements body.pos) ∧ procedure.results = [] := by
  obtain ⟨start, body, definition, procedure, hstart, hread, hbuild, htest⟩ :=
    exists_built_of_any {} { defaultSchema := "dbo" }
      "create procedure p as insert into t (a) (select 1) select 2 as b"
      (fun body procedure => isReadAs nestedRows 7 body && procedure.results.isEmpty)
      (by decide +kernel)
  obtain ⟨hread', hempty⟩ := Bool.and_eq_true_iff.mp htest
  obtain ⟨htokens, hpos⟩ := of_decide_eq_true hread'
  have hstatements : Body.statements nestedRows 7 = [⟨.insert, 8, 31⟩] := by decide +kernel
  refine ⟨start, body, definition, procedure, hstart, hread, hbuild, ?_, ?_, ?_,
    List.isEmpty_iff.mp hempty⟩
  · rw [htokens, hpos]
    exact insertThenSelect_nestedRows
  · rw [htokens, hpos]
    decide +kernel
  · rintro ⟨stop, hmem⟩
    have hmem : ⟨.select, 24, stop⟩ ∈ Body.statements (tokensIn body) body.pos := hmem
    rw [htokens, hpos, hstatements, List.mem_singleton] at hmem
    cases hmem

end SchemaPlan
