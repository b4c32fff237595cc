import Mathlib.Data.List.ReduceOption
import SchemaPlan.Proofs.Schema.Failures
import SchemaPlan.Proofs.Schema.Independence

/-!
# Procedures do not affect each other

A load first builds the types, the tables and the views, and only the names of the procedures have a
part in this. Then each procedure is resolved on its own: it becomes a procedure of the model, or a
failure that names it and the first of its selects that does not resolve.

* `hasOutcome_iff`: what a procedure comes to.
* `procedures_isolated`: what becomes of a load when one procedure is another or is left out.
-/

namespace SchemaPlan

open SchemaPlan.Sql

/-! ## Selects -/

/-- The result set of a select, if it gives one to the caller. -/
def BodySelect.resolve (select : BodySelect) (r : Resolver) :
    Except ResolveError (Option ResultSet) :=
  match select.query with
  | .ok query => r.resultSet? query
  | .error failure => .error (.malformedSelect failure.message)

/-- Selects all resolve, each to its result. -/
def ResolveTo (r : Resolver) (selects : List BodySelect) (results : List (Option ResultSet)) :
    Prop :=
  List.Forall₂ (fun select result => select.resolve r = .ok result) selects results

section Selects

variable {r : Resolver} {name : String}

theorem buildResults_cons {number : Nat} {select : BodySelect} {rest : List BodySelect} :
    buildResults r name number (select :: rest) =
      match select.resolve r with
      | .ok result => (buildResults r name (number + 1) rest).map (result.toList ++ ·)
      | .error cause => .error (.unresolvedProcedure name number cause) := by
  rw [buildResults]
  unfold BodySelect.resolve
  cases select.query with
  | error failure => rfl
  | ok query =>
    dsimp only
    cases r.resultSet? query with
    | error cause => rfl
    | ok result => cases buildResults r name (number + 1) rest <;> rfl

/-- Selects that resolve have their result sets in order, and those after them follow. -/
theorem buildResults_append {selects : List BodySelect} {results : List (Option ResultSet)}
    (h : ResolveTo r selects results) (number : Nat) (later : List BodySelect) :
    buildResults r name number (selects ++ later) =
      (buildResults r name (number + selects.length) later).map (results.reduceOption ++ ·) := by
  induction h generalizing number with
  | nil =>
    rw [List.nil_append, List.length_nil, Nat.add_zero]
    cases buildResults r name number later <;> rfl
  | @cons select result rest more hselect _ ih =>
    rw [List.cons_append, buildResults_cons, hselect, ih, List.length_cons,
      Nat.add_right_comm number 1, Nat.add_assoc number]
    cases buildResults r name (number + (rest.length + 1)) later with
    | error failure => rfl
    | ok last =>
      cases result with
      | none => rw [List.reduceOption_cons_of_none]; rfl
      | some resultSet => rw [List.reduceOption_cons_of_some]; rfl

/-- Selects all resolve, or there is a first one that does not. -/
theorem resolveTo_or_fails (r : Resolver) (selects : List BodySelect) :
    (∃ results, ResolveTo r selects results) ∨
      ∃ earlier select later results cause, selects = earlier ++ select :: later ∧
        ResolveTo r earlier results ∧ select.resolve r = .error cause := by
  induction selects with
  | nil => exact .inl ⟨[], .nil⟩
  | cons select rest ih =>
    cases hselect : select.resolve r with
    | error cause => exact .inr ⟨[], select, rest, [], cause, rfl, .nil, hselect⟩
    | ok result =>
      rcases ih with ⟨results, hresults⟩ | ⟨earlier, failing, later, results, cause, rfl, h, hcause⟩
      · exact .inl ⟨result :: results, .cons hselect hresults⟩
      · exact .inr ⟨select :: earlier, failing, later, result :: results, cause, rfl,
          .cons hselect h, hcause⟩

end Selects

/-! ## Procedures -/

/-- What a procedure comes to in a model: a procedure with the result sets of its selects, or a
failure that names the procedure and the first of its selects that does not resolve. -/
inductive HasOutcome (options : LoadOptions) (model : SchemaModel)
    (definition : ProcedureDefinition) : Except LoadError Procedure → Prop
  | resolved {results : List (Option ResultSet)} :
      ResolveTo ⟨model.catalog, definition.parameters.map (buildParameter model)⟩
        definition.selects results →
      HasOutcome options model definition (.ok
        { schema := definition.name.schema.getD model.defaultSchema
          name := methodName options.procedurePrefix definition.name.name
          declaredName := definition.name.name
          parameters := definition.parameters.map (buildParameter model)
          results := results.reduceOption })
  | failed {earlier later : List BodySelect} {select : BodySelect}
      {results : List (Option ResultSet)} {cause : ResolveError} :
      definition.selects = earlier ++ select :: later →
      ResolveTo ⟨model.catalog, definition.parameters.map (buildParameter model)⟩ earlier results →
      select.resolve ⟨model.catalog, definition.parameters.map (buildParameter model)⟩ =
        .error cause →
      HasOutcome options model definition (.error (.unresolvedProcedure
        (fullName (definition.name.schema.getD model.defaultSchema) definition.name.name)
        (earlier.length + 1) cause))

section Outcomes

variable {options : LoadOptions} {model : SchemaModel} {definition : ProcedureDefinition}

theorem HasOutcome.eq {outcome : Except LoadError Procedure}
    (h : HasOutcome options model definition outcome) :
    buildProcedure options model definition = outcome := by
  unfold buildProcedure
  dsimp only
  cases h with
  | resolved hresults =>
    rw [← List.append_nil definition.selects, buildResults_append hresults, buildResults]
    exact congrArg _ (congrArg _ (List.append_nil _))
  | failed hselects hearlier hcause =>
    rw [hselects, buildResults_append hearlier, buildResults_cons, hcause, Nat.add_comm 1]
    rfl

/-- A procedure comes to exactly one of the two. -/
theorem hasOutcome_iff {outcome : Except LoadError Procedure} :
    HasOutcome options model definition outcome ↔
      buildProcedure options model definition = outcome := by
  refine ⟨HasOutcome.eq, ?_⟩
  rintro rfl
  rcases resolveTo_or_fails ⟨model.catalog, definition.parameters.map (buildParameter model)⟩
    definition.selects with ⟨results, hresults⟩ | ⟨_, _, _, _, _, hselects, hearlier, hcause⟩
  · have h : HasOutcome options model definition _ := .resolved hresults
    rwa [← h.eq] at h
  · have h : HasOutcome options model definition _ := .failed hselects hearlier hcause
    rwa [← h.eq] at h

end Outcomes

/-! ## Loads -/

/-- The procedures among statements. -/
def proceduresAmong (statements : List Statement) : List ProcedureDefinition :=
  statements.filterMap fun
    | .procedure definition => some definition
    | _ => none

theorem proceduresAmong_append (statements more : List Statement) :
    proceduresAmong (statements ++ more) = proceduresAmong statements ++ proceduresAmong more :=
  List.filterMap_append

theorem mem_proceduresAmong {definition : ProcedureDefinition} {statements : List Statement} :
    definition ∈ proceduresAmong statements ↔ .procedure definition ∈ statements := by
  rw [proceduresAmong, List.mem_filterMap]
  constructor
  · rintro ⟨statement, hmem, h⟩
    cases statement <;> cases h
    exact hmem
  · exact fun hmem => ⟨_, hmem, rfl⟩

theorem proceduresAmong_around (before after : List Statement) (definition : ProcedureDefinition) :
    proceduresAmong (before ++ .procedure definition :: after) =
      proceduresAmong before ++ definition :: proceduresAmong after :=
  proceduresAmong_append _ _

/-- The model of definitions, without the procedures. -/
def Definitions.schemaModel (defs : Definitions) : Except LoadError SchemaModel := do
  defs.checkNames
  let tables ← buildTables defs
  let views ← buildViews defs tables
  return { tables with views }

section Loads

variable {options : LoadOptions} {statements : List Statement}

/-- A load builds the schema and then resolves the procedures against it. -/
theorem buildModel_eq :
    buildModel options statements =
      (Definitions.ofStatements options.defaultSchema statements).schemaModel.map
        (withProcedures options (proceduresAmong statements)) := by
  unfold buildModel Definitions.schemaModel
  dsimp only
  cases (Definitions.ofStatements options.defaultSchema statements).checkNames with
  | error failure => rfl
  | ok _ =>
    simp only [bind, Except.bind]
    cases buildTables (.ofStatements options.defaultSchema statements) with
    | error failure => rfl
    | ok tables =>
      dsimp only
      cases buildViews (.ofStatements options.defaultSchema statements) tables <;> rfl

theorem loads_iff {loaded : LoadedModel} :
    buildModel options statements = .ok loaded ↔
      ∃ schema, (Definitions.ofStatements options.defaultSchema statements).schemaModel = .ok schema ∧
        loaded = withProcedures options (proceduresAmong statements) schema := by
  rw [buildModel_eq]
  cases (Definitions.ofStatements options.defaultSchema statements).schemaModel <;>
    simp [Except.map, eq_comm]

theorem fails_iff {failure : LoadError} :
    buildModel options statements = .error failure ↔
      (Definitions.ofStatements options.defaultSchema statements).schemaModel = .error failure := by
  rw [buildModel_eq]
  cases (Definitions.ofStatements options.defaultSchema statements).schemaModel <;>
    simp [Except.map]

end Loads

section Procedures

variable (defs : Definitions) (procedures : List ProcedureDefinition)

theorem buildTables_procedures : buildTables { defs with procedures } = buildTables defs := by
  have hdefault : ({ defs with procedures } : Definitions).defaultSchema = defs.defaultSchema := rfl
  have hrelation : buildRelation { defs with procedures } = buildRelation defs := by
    funext aliases keyColumns definition
    exact buildRelation_congr hdefault (fun _ => rfl) (fun _ => rfl) definition
  have htable : buildTable { defs with procedures } = buildTable defs := by
    funext aliases definition
    unfold buildTable
    rw [hrelation]
    rfl
  unfold buildTables
  rw [aliasType_congr hdefault, hrelation, htable]
  rfl

theorem buildViews_procedures (model : SchemaModel) :
    buildViews { defs with procedures } model = buildViews defs model := by
  have hdefault : ({ defs with procedures } : Definitions).defaultSchema = defs.defaultSchema := rfl
  exact buildViews_congr hdefault rfl fun _ _ => buildView_congr_of_default hdefault _ _

/-- Of procedures only the names matter to the schema. -/
theorem schemaModel_procedures (h : procedures.map (·.name) = defs.procedures.map (·.name)) :
    ({ defs with procedures } : Definitions).schemaModel = defs.schemaModel := by
  have hdefault : ({ defs with procedures } : Definitions).defaultSchema = defs.defaultSchema := rfl
  have hnames : ({ defs with procedures } : Definitions).checkNames = defs.checkNames := by
    unfold Definitions.checkNames
    simp only [h, Definitions.requireDistinct_congr hdefault]
  unfold Definitions.schemaModel
  rw [hnames, buildTables_procedures]
  simp only [buildViews_procedures]

/-- A schema stays the same when procedures are left out. -/
theorem schemaModel_of_sublist {schema : SchemaModel} (h : procedures.Sublist defs.procedures)
    (hschema : defs.schemaModel = .ok schema) :
    ({ defs with procedures } : Definitions).schemaModel = .ok schema := by
  unfold Definitions.schemaModel at hschema ⊢
  obtain ⟨_, hnames, hschema⟩ := bind_eq_ok.mp hschema
  refine bind_eq_ok.mpr ⟨(), ?_, ?_⟩
  · rw [Definitions.checkNames_eq_ok] at hnames ⊢
    exact ⟨hnames.1.sublist (((h.map _).append_left _).map _), hnames.2⟩
  · rw [buildTables_procedures]
    simpa only [buildViews_procedures] using hschema

end Procedures

/-! ## Replacing a procedure -/

/-- The procedures and failures of a load are those of outcomes, each in their order. -/
structure LoadedModel.Records (loaded : LoadedModel)
    (outcomes : List (Except LoadError Procedure)) : Prop where
  procedures : loaded.model.procedures = outcomes.filterMap Except.toOption
  failures : loaded.failures = outcomes.filterMap fun
    | .ok _ => none
    | .error failure => some failure

/-- Models that are the same apart from their procedures. -/
structure SchemaModel.SameObjects (model other : SchemaModel) : Prop where
  defaultSchema : other.defaultSchema = model.defaultSchema
  tables : other.tables = model.tables
  views : other.views = model.views
  tableTypes : other.tableTypes = model.tableTypes
  aliasTypes : other.aliasTypes = model.aliasTypes
  relationships : other.relationships = model.relationships

theorem records_withProcedures (options : LoadOptions) (definitions : List ProcedureDefinition)
    (schema : SchemaModel) :
    (withProcedures options definitions schema).Records
      (definitions.map (buildProcedure options schema)) := by
  refine ⟨List.filterMap_congr fun outcome _ => ?_, rfl⟩
  cases outcome <;> rfl

/-- A procedure among statements is a procedure among their definitions. -/
theorem ofStatements_procedure (defaultSchema : String) (before after : List Statement)
    (definition : ProcedureDefinition) :
    Definitions.ofStatements defaultSchema (before ++ .procedure definition :: after) =
      { Definitions.ofStatements defaultSchema (before ++ after) with
        procedures := proceduresAmong before ++ definition :: proceduresAmong after } := by
  simp only [Definitions.ofStatements, List.filterMap_append, List.filterMap_cons]
  rfl

section Replacement

variable {options : LoadOptions} {before after : List Statement} {definition : ProcedureDefinition}

/-- The schema of statements is that with another procedure of the same name. -/
theorem schemaModel_replaced {other : ProcedureDefinition} (hname : other.name = definition.name)
    (defaultSchema : String) :
    (Definitions.ofStatements defaultSchema (before ++ .procedure other :: after)).schemaModel =
      (Definitions.ofStatements defaultSchema
        (before ++ .procedure definition :: after)).schemaModel := by
  rw [ofStatements_procedure, ofStatements_procedure]
  refine schemaModel_procedures { Definitions.ofStatements defaultSchema (before ++ after) with
    procedures := proceduresAmong before ++ definition :: proceduresAmong after } _ ?_
  rw [List.map_append, List.map_append, List.map_cons, List.map_cons, hname]

/-- The schema of statements is that without a procedure. -/
theorem schemaModel_without {defaultSchema : String} {schema : SchemaModel}
    (h : (Definitions.ofStatements defaultSchema
      (before ++ .procedure definition :: after)).schemaModel = .ok schema) :
    (Definitions.ofStatements defaultSchema (before ++ after)).schemaModel = .ok schema := by
  rw [ofStatements_procedure] at h
  refine schemaModel_of_sublist _ (proceduresAmong (before ++ after)) ?_ h
  rw [proceduresAmong_append]
  exact (List.sublist_cons_self _ _).append_left _

end Replacement

/-- A load fails for a name that repeats, a type, a column or a view, never for a procedure. -/
theorem buildModel_failsOnlyFor (options : LoadOptions) (statements : List Statement) :
    FailsOnlyFor (fun failure => failure.IsDuplicate ∨ failure.IsOfTables ∨ failure.IsOfViews)
      (buildModel options statements) := by
  intro failure h
  rcases (buildModel_eq_error rfl).mp h with hnames | ⟨-, htables | ⟨schema, -, hviews⟩⟩
  · exact .inl (checkNames_failsOnlyFor _ _ hnames)
  · exact .inr (.inl (buildTables_failsOnlyFor _ _ htables))
  · exact .inr (.inr (buildViews_failsOnlyFor _ _ _ hviews))

/-- Whether statements load, and with which types, tables, views and relationships, does not depend
on the parameters and the selects of a procedure, and neither does what becomes of the other
procedures, in their order. They all stay as they are when a procedure is left out. Each procedure
is one of the model or one failure, and no load fails for a procedure. -/
theorem procedures_isolated (options : LoadOptions) (before after : List Statement)
    (definition : ProcedureDefinition) :
    (∀ failure, buildModel options (before ++ .procedure definition :: after) = .error failure →
      (failure.IsDuplicate ∨ failure.IsOfTables ∨ failure.IsOfViews) ∧
      ∀ other : ProcedureDefinition, other.name = definition.name →
        buildModel options (before ++ .procedure other :: after) = .error failure) ∧
    ∀ loaded, buildModel options (before ++ .procedure definition :: after) = .ok loaded →
      ∃ first rest : List (Except LoadError Procedure),
        List.Forall₂ (HasOutcome options loaded.model) (proceduresAmong before) first ∧
        List.Forall₂ (HasOutcome options loaded.model) (proceduresAmong after) rest ∧
        (∃ own, HasOutcome options loaded.model definition own ∧
          loaded.Records (first ++ own :: rest)) ∧
        (∀ other : ProcedureDefinition, other.name = definition.name → ∃ reloaded own,
          buildModel options (before ++ .procedure other :: after) = .ok reloaded ∧
          loaded.model.SameObjects reloaded.model ∧
          HasOutcome options loaded.model other own ∧ reloaded.Records (first ++ own :: rest)) ∧
        ∃ reloaded, buildModel options (before ++ after) = .ok reloaded ∧
          loaded.model.SameObjects reloaded.model ∧ reloaded.Records (first ++ rest) := by
  constructor
  · intro failure h
    refine ⟨buildModel_failsOnlyFor _ _ failure h, fun other hname => ?_⟩
    rw [fails_iff] at h ⊢
    rw [schemaModel_replaced hname, h]
  intro loaded h
  obtain ⟨schema, hschema, rfl⟩ := loads_iff.mp h
  -- What becomes of a procedure depends on the schema only.
  have houtcome (other : ProcedureDefinition) : HasOutcome options
      (withProcedures options (proceduresAmong (before ++ .procedure definition :: after))
        schema).model other (buildProcedure options schema other) := hasOutcome_iff.mpr rfl
  have houtcomes (definitions : List ProcedureDefinition) : List.Forall₂ (HasOutcome options
      (withProcedures options (proceduresAmong (before ++ .procedure definition :: after))
        schema).model) definitions (definitions.map (buildProcedure options schema)) := by
    rw [List.forall₂_map_right_iff]
    exact List.forall₂_same.mpr fun other _ => houtcome other
  have hrecords (other : ProcedureDefinition) :
      (withProcedures options (proceduresAmong (before ++ .procedure other :: after)) schema).Records
        ((proceduresAmong before).map (buildProcedure options schema) ++
          buildProcedure options schema other ::
            (proceduresAmong after).map (buildProcedure options schema)) := by
    rw [proceduresAmong_around, ← List.map_cons, ← List.map_append]
    exact records_withProcedures options _ schema
  refine ⟨_, _, houtcomes _, houtcomes _, ⟨_, houtcome definition, hrecords definition⟩, ?_, ?_⟩
  · intro other hname
    refine ⟨_, _, loads_iff.mpr ⟨schema, ?_, rfl⟩, ⟨rfl, rfl, rfl, rfl, rfl, rfl⟩, houtcome other,
      hrecords other⟩
    rw [schemaModel_replaced hname, hschema]
  · refine ⟨_, loads_iff.mpr ⟨schema, schemaModel_without hschema, rfl⟩,
      ⟨rfl, rfl, rfl, rfl, rfl, rfl⟩, ?_⟩
    rw [proceduresAmong_append, ← List.map_append]
    exact records_withProcedures options _ schema

/-- One of two procedures selects a column that does not exist. Without it the model is the same, and
the failure that names its select is gone. -/
theorem procedures_isolated_from_failing_select :
    ∃ before definition after loaded reloaded first own rest,
      statementsOf? ["create table t (a int)", "create procedure p as select a, x from t",
          "create procedure q as select a from t"] =
        some (before ++ .procedure definition :: after) ∧
      definition.name.name = "p" ∧
      buildModel {} (before ++ .procedure definition :: after) = .ok loaded ∧
      loaded.failures = [.unresolvedProcedure "[dbo].[p]" 1 (.unresolvedColumn "x")] ∧
      loaded.Records (first ++ own :: rest) ∧
      buildModel {} (before ++ after) = .ok reloaded ∧ loaded.model.SameObjects reloaded.model ∧
      reloaded.Records (first ++ rest) := by
  obtain ⟨statements, loaded, hstatements, hloaded, htest⟩ :=
    exists_loaded_of_any ["create table t (a int)", "create procedure p as select a, x from t",
        "create procedure q as select a from t"]
      (fun statements loaded => (proceduresAmong statements).any (·.name.name == "p") &&
        loaded.failures == [.unresolvedProcedure "[dbo].[p]" 1 (.unresolvedColumn "x")])
      (by decide +kernel)
  rw [Bool.and_eq_true, List.any_eq_true] at htest
  obtain ⟨⟨definition, hmem, hname⟩, hfailures⟩ := htest
  obtain ⟨before, after, rfl⟩ := List.append_of_mem (mem_proceduresAmong.mp hmem)
  obtain ⟨first, rest, -, -, ⟨own, -, hrecords⟩, -, reloaded, hreloaded, hsame, hrest⟩ :=
    (procedures_isolated {} before after definition).2 loaded hloaded
  exact ⟨before, definition, after, loaded, reloaded, first, own, rest, hstatements,
    beq_iff_eq.mp hname, hloaded, beq_iff_eq.mp hfailures, hrecords, hreloaded, hsame, hrest⟩

end SchemaPlan
