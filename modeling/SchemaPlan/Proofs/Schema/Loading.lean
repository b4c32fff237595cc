import SchemaPlan.Proofs.Resolve.Outcome
import SchemaPlan.Schema.Load
import Mathlib.Data.List.Forall2

/-!
# Models that load

What is known once a model has loaded: the names of its objects are distinct, its tables and views
were built, and its procedures were resolved against both. Later modules take a load apart with
`buildModel_eq_ok` instead of unfolding it.
-/

namespace SchemaPlan

/-- Elements that are all built are built one by one. -/
theorem forall₂_of_mapM {ε α β : Type} {f : α → Except ε β} {xs : List α} {ys : List β}
    (h : xs.mapM f = .ok ys) : List.Forall₂ (fun x y => f x = .ok y) xs ys := by
  induction xs generalizing ys with
  | nil =>
    obtain rfl := Except.ok.inj h
    exact .nil
  | cons x rest ih =>
    rw [List.mapM_cons] at h
    obtain ⟨y, hy, h⟩ := bind_eq_ok.mp h
    obtain ⟨more, hmore, h⟩ := bind_eq_ok.mp h
    obtain rfl := Except.ok.inj h
    exact .cons hy (ih hmore)

/-- The types and tables of definitions are built one by one, and their foreign keys are indexed. -/
theorem buildTables_eq_ok {defs : Definitions} {schema : SchemaModel} :
    buildTables defs = .ok schema ↔
      ∃ aliasTypes tableTypes tables, defs.scalarTypes.mapM (aliasType defs) = .ok aliasTypes ∧
        defs.tableTypes.mapM (buildRelation defs aliasTypes []) = .ok tableTypes ∧
        defs.tables.mapM (buildTable defs aliasTypes) = .ok tables ∧
        schema =
          { defaultSchema := defs.defaultSchema, aliasTypes, tableTypes
            relationships := .ofList defs.foreignKeys
            tables := tables.map (withRelationships (.ofList defs.foreignKeys)) } := by
  unfold buildTables
  constructor
  · intro h
    obtain ⟨aliasTypes, haliasTypes, h⟩ := bind_eq_ok.mp h
    obtain ⟨tableTypes, htableTypes, h⟩ := bind_eq_ok.mp h
    obtain ⟨tables, htables, h⟩ := bind_eq_ok.mp h
    exact ⟨aliasTypes, tableTypes, tables, haliasTypes, htableTypes, htables,
      (Except.ok.inj h).symm⟩
  · rintro ⟨aliasTypes, tableTypes, tables, haliasTypes, htableTypes, htables, rfl⟩
    refine bind_eq_ok.mpr ⟨aliasTypes, haliasTypes, bind_eq_ok.mpr ⟨tableTypes, htableTypes, ?_⟩⟩
    exact bind_eq_ok.mpr ⟨tables, htables, rfl⟩

theorem buildTables_keeps {defs : Definitions} {schema : SchemaModel}
    (h : buildTables defs = .ok schema) :
    schema.defaultSchema = defs.defaultSchema ∧ schema.views = [] := by
  obtain ⟨_, _, _, -, -, -, rfl⟩ := buildTables_eq_ok.mp h
  exact ⟨rfl, rfl⟩

/-- The model of a schema whose tables and views are known, with the procedures that resolve and the
failures of the others. -/
def withProcedures (options : LoadOptions) (procedures : List ProcedureDefinition)
    (schema : SchemaModel) : LoadedModel :=
  let results := procedures.map (buildProcedure options schema)
  { model :=
      { schema with
        procedures := results.filterMap fun
          | .ok procedure => some procedure
          | .error _ => none }
    failures := results.filterMap fun
      | .ok _ => none
      | .error failure => some failure }

/-- A model loads if its names are distinct and its tables and views can be built. -/
theorem buildModel_eq_ok {options : LoadOptions} {statements : List Statement}
    {loaded : LoadedModel} :
    buildModel options statements = .ok loaded ↔
      ∃ schema views, (Definitions.ofStatements options.defaultSchema statements).checkNames = .ok () ∧
        buildTables (.ofStatements options.defaultSchema statements) = .ok schema ∧
        buildViews (.ofStatements options.defaultSchema statements) schema = .ok views ∧
        loaded = withProcedures options
          (Definitions.ofStatements options.defaultSchema statements).procedures
          { schema with views } := by
  unfold buildModel
  dsimp only
  rw [bind_eq_ok]
  constructor
  · rintro ⟨_, hnames, h⟩
    obtain ⟨schema, hschema, h⟩ := bind_eq_ok.mp h
    obtain ⟨views, hviews, h⟩ := bind_eq_ok.mp h
    exact ⟨schema, views, hnames, hschema, hviews, (Except.ok.inj h).symm⟩
  · rintro ⟨schema, views, hnames, hschema, hviews, rfl⟩
    refine ⟨(), hnames, ?_⟩
    rw [hschema]
    refine bind_eq_ok.mpr ⟨schema, rfl, ?_⟩
    exact bind_eq_ok.mpr ⟨views, hviews, rfl⟩

/-! ## Models of texts -/

/-- The statements of texts that can be read, each a script of its own. -/
def statementsOf? (texts : List String) : Option (List Statement) :=
  (statementsOfScripts (texts.map fun text => ("script.sql", text))).toOption.map fun placed =>
    placed.map (·.statement)

/-- A test that succeeds on the model of texts shows that these are read and load. -/
theorem exists_loaded_of_any (texts : List String) (test : List Statement → LoadedModel → Bool)
    (h : ((statementsOf? texts).any fun statements =>
      (buildModel {} statements).toOption.any (test statements)) = true) :
    ∃ statements loaded, statementsOf? texts = some statements ∧
      buildModel {} statements = .ok loaded ∧ test statements loaded = true := by
  obtain ⟨statements, hstatements, h⟩ := (Option.any_eq_true _ _).mp h
  obtain ⟨loaded, hloaded, htest⟩ := (Option.any_eq_true _ _).mp h
  exact ⟨statements, loaded, hstatements, toOption_eq_some hloaded, htest⟩

end SchemaPlan
