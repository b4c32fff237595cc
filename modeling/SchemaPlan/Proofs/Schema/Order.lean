import SchemaPlan.Proofs.Resolve.Sources
import SchemaPlan.Proofs.Schema.Rearranging

/-!
# Types and tables in any order

The statements that create types and tables and add constraints to tables may come in any order. In
every order a schema loads with the same types and tables, and the columns of the tables with the
same relationships. Only lists change their order; and a reference without columns is to the columns
of a primary key in the order, and in the letters, in which they are declared.
-/

namespace SchemaPlan

open SchemaPlan.Sql

/-! ## Statements -/

/-- Whether a statement has selects that are resolved against the types and tables. -/
def Statement.hasSelects : Statement → Bool
  | .view _ => true
  | .procedure _ => true
  | _ => false

section Statements

variable {statements reordered : List Statement}

theorem filterMap_eq_of_filter_hasSelects {α : Type}
    (h : reordered.filter (·.hasSelects) = statements.filter (·.hasSelects))
    {f : Statement → Option α} (hf : ∀ statement, statement.hasSelects = false → f statement = none) :
    reordered.filterMap f = statements.filterMap f := by
  have hkept (list : List Statement) :
      list.filterMap f = (list.filter (·.hasSelects)).filterMap f := by
    rw [List.filterMap_filter]
    refine List.filterMap_congr fun statement _ => ?_
    cases hselects : statement.hasSelects with
    | true => rfl
    | false => exact hf statement hselects
  rw [hkept, h, ← hkept]

theorem rearranges_ofStatements (defaultSchema : String) (hperm : reordered.Perm statements)
    (hselects : reordered.filter (·.hasSelects) = statements.filter (·.hasSelects)) :
    (Definitions.ofStatements defaultSchema reordered).Rearranges
      (.ofStatements defaultSchema statements) where
  defaultSchema := rfl
  tables := hperm.filterMap _
  tableTypes := hperm.filterMap _
  scalarTypes := hperm.filterMap _
  addedConstraints := hperm.filterMap _
  views := filterMap_eq_of_filter_hasSelects hselects fun statement h => by cases statement <;> trivial
  procedures := filterMap_eq_of_filter_hasSelects hselects fun statement h => by
    cases statement <;> trivial

theorem declaredKeys_perm (hperm : reordered.Perm statements) :
    (declaredKeys reordered).Perm (declaredKeys statements) :=
  (hperm.flatMap_right _).append (hperm.filterMap _)

end Statements

/-! ## References -/

namespace DeclaredKey

/-- A declared foreign key as definitions record it. -/
def record (defs : Definitions) (declared : DeclaredKey) : ForeignKey :=
  defs.foreignKey declared.owner declared.name declared.columns declared.reference

/-- What a declared foreign key refers to. -/
def target (defs : Definitions) (declared : DeclaredKey) : KeySide :=
  (declared.record defs).referenced

/-- Two ends of a reference are the same. Columns that it does not name may differ in their order and
in ASCII case. -/
structure SameTarget (declared : DeclaredKey) (side other : KeySide) : Prop where
  table : { other with columns := side.columns } = side
  named : declared.reference.columns ≠ [] → other.columns = side.columns
  columns : (other.columns.map Text.asciiLower).Perm (side.columns.map Text.asciiLower)

variable {defs other : Definitions}

theorem sameTarget (h : other.Rearranges defs) (declared : DeclaredKey) :
    declared.SameTarget (declared.target defs) (declared.target other) := by
  unfold target record Definitions.foreignKey
  dsimp only
  rw [Definitions.schemaOf_congr h.defaultSchema, Definitions.keyOf_congr h.defaultSchema]
  refine ⟨rfl, fun hnamed => ?_, ?_⟩
  · simp only [List.isEmpty_iff, hnamed, if_false]
  · dsimp only
    split
    · exact h.primaryKey _
    · exact List.Perm.refl _

theorem owner_record (h : other.Rearranges defs) (declared : DeclaredKey) :
    (declared.record other).owner = (declared.record defs).owner := by
  unfold record Definitions.foreignKey ForeignKey.owner
  dsimp only
  rw [Definitions.schemaOf_congr h.defaultSchema]

theorem isFrom_record (h : other.Rearranges defs) (declared : DeclaredKey)
    (schema table column : String) :
    (declared.record other).IsFrom schema table column ↔
      (declared.record defs).IsFrom schema table column := by
  unfold record Definitions.foreignKey ForeignKey.IsFrom ForeignKey.ownerKey
  dsimp only
  rw [Definitions.schemaOf_congr h.defaultSchema]

theorem isTo_record (h : other.Rearranges defs) (declared : DeclaredKey)
    (schema table column : String) :
    (declared.record other).IsTo schema table column ↔
      (declared.record defs).IsTo schema table column := by
  obtain ⟨htable, -, hcolumns⟩ := declared.sameTarget h
  have hlisted := any_sameText_perm hcolumns column
  rw [Bool.eq_iff_iff, any_sameText_iff, any_sameText_iff] at hlisted
  unfold ForeignKey.IsTo ForeignKey.referencedKey
  refine and_congr ?_ hlisted
  unfold target at htable
  rw [← htable]

end DeclaredKey

/-! ## Columns and tables -/

/-- A column of two loads whose foreign keys are declared alike. What it refers to is what the same
declared keys refer to in either load. -/
structure Column.Matches (declared : List DeclaredKey) (target retarget : DeclaredKey → KeySide)
    (column other : Column) : Prop where
  own : { other with parents := column.parents, children := column.children } = column
  isForeignKey : other.isForeignKey = column.isForeignKey
  parents : ∃ keys rekeyed : List DeclaredKey, keys.Sublist declared ∧ rekeyed.Perm keys ∧
    column.parents = keys.map target ∧ other.parents = rekeyed.map retarget
  children : other.children.Perm column.children

/-- A table of two loads, with columns that match one by one. -/
structure Relation.Matches (declared : List DeclaredKey) (target retarget : DeclaredKey → KeySide)
    (table other : Relation) : Prop where
  schema : other.schema = table.schema
  name : other.name = table.name
  columns : List.Forall₂ (Column.Matches declared target retarget) table.columns other.columns

section Tables

variable {defs other : Definitions} {declared redeclared : List DeclaredKey}

theorem parents_records (table : Relation) (column : String) :
    (RelationshipIndex.ofList (declared.map (·.record defs))).parents table.schema table.name column =
      (declared.filter fun key => (key.record defs).IsFrom table.schema table.name column).map
        (·.target defs) := by
  rw [RelationshipIndex.parents_ofList, List.filter_map, List.map_map]
  simp only [Function.comp_def, DeclaredKey.target]

theorem children_records (table : Relation) (column : String) :
    (RelationshipIndex.ofList (declared.map (·.record defs))).children table.schema table.name
        column =
      (declared.filter fun key => (key.record defs).IsTo table.schema table.name column).map
        fun key => (key.record defs).owner := by
  rw [RelationshipIndex.children_ofList, List.filter_map, List.map_map]
  simp only [Function.comp_def]

/-- The columns of a table match once they know their relationships. -/
theorem matches_withRelationships (h : other.Rearranges defs) (hperm : redeclared.Perm declared)
    (table : Relation) :
    Relation.Matches declared (·.target defs) (·.target other)
      (withRelationships (.ofList (declared.map (·.record defs))) table)
      (withRelationships (.ofList (redeclared.map (·.record other))) table) := by
  refine ⟨rfl, rfl, ?_⟩
  unfold withRelationships
  dsimp only
  rw [List.forall₂_map_left_iff, List.forall₂_map_right_iff]
  refine List.forall₂_same.mpr fun column _ => ?_
  have hfrom : (fun key : DeclaredKey => decide
      ((key.record other).IsFrom table.schema table.name column.name)) =
        fun key => decide ((key.record defs).IsFrom table.schema table.name column.name) :=
    funext fun key => decide_eq_decide.mpr (key.isFrom_record h _ _ _)
  have hto : (fun key : DeclaredKey => decide
      ((key.record other).IsTo table.schema table.name column.name)) =
        fun key => decide ((key.record defs).IsTo table.schema table.name column.name) :=
    funext fun key => decide_eq_decide.mpr (key.isTo_record h _ _ _)
  have howner : (fun key : DeclaredKey => (key.record other).owner) =
      fun key => (key.record defs).owner := funext fun key => key.owner_record h
  rw [parents_records, parents_records, children_records, children_records, hfrom, hto, howner]
  constructor
  · rfl
  · unfold Column.isForeignKey
    dsimp only
    rw [List.isEmpty_map, List.isEmpty_map, (hperm.filter _).isEmpty_eq]
  · exact ⟨_, _, List.filter_sublist, hperm.filter _, rfl, rfl⟩
  · exact (hperm.filter _).map _

end Tables

/-! ## Views -/

theorem map_toSource_withRelationships (index : RelationshipIndex) (table : Relation) :
    (withRelationships index table).columns.map Column.toSource =
      table.columns.map Column.toSource := by
  unfold withRelationships
  rw [List.map_map]
  rfl

/-- What the sources of a select show of a table does not depend on its relationships. -/
theorem map_toSource_objectColumns? {schema : SchemaModel} {tables : List Relation}
    {index : RelationshipIndex} (htables : schema.tables = tables.map (withRelationships index))
    (hviews : schema.views = []) (namespace' name : String) :
    (schema.objectColumns? namespace' name).map (·.map Column.toSource) =
      (findRelation? tables namespace' name).map (·.columns.map Column.toSource) := by
  unfold SchemaModel.objectColumns? SchemaModel.table? SchemaModel.view?
  rw [htables, hviews]
  unfold findRelation?
  rw [List.find?_map, List.find?_nil, Option.map_none, Option.or_none, Option.map_map,
    Option.map_map]
  exact Option.map_congr fun table _ => map_toSource_withRelationships index table

/-- Rearranged definitions have the same views. -/
theorem Definitions.Rearranges.buildViews {defs other : Definitions} (h : other.Rearranges defs)
    {schema reschema : SchemaModel} {tables retables : List Relation}
    {index reindex : RelationshipIndex} (hdefault : reschema.defaultSchema = schema.defaultSchema)
    (hviews : schema.views = []) (hreviews : reschema.views = [])
    (htables : schema.tables = tables.map (withRelationships index))
    (hretables : reschema.tables = retables.map (withRelationships reindex))
    (hperm : retables.Perm tables)
    (hnodup : (tables.map fun table => Definitions.objectKey table.schema table.name).Nodup) :
    SchemaPlan.buildViews other reschema = SchemaPlan.buildViews defs schema := by
  refine buildViews_congr h.defaultSchema h.views fun resolved definition => ?_
  rw [buildView_congr_of_default h.defaultSchema]
  have hsources : (⟨viewCatalog reschema resolved, []⟩ : Resolver).SameSources
      ⟨viewCatalog schema resolved, []⟩ := by
    refine Resolver.sameSources_of_catalogs hdefault fun namespace' name => ?_
    unfold viewCatalog
    dsimp only
    rw [Option.map_or, Option.map_or, map_toSource_objectColumns? htables hviews,
      map_toSource_objectColumns? hretables hreviews]
    unfold findRelation?
    rw [find?_sameObject_perm hperm hnodup]
  unfold buildView
  dsimp only
  rw [Resolver.columns_eq_of_sameSources hsources]

/-! ## Loads -/

/-- Models with the same types and tables, in any order. -/
structure SchemaModel.MatchesTables (declared : List DeclaredKey)
    (target retarget : DeclaredKey → KeySide) (model other : SchemaModel) : Prop where
  aliasTypes : other.aliasTypes.Perm model.aliasTypes
  tableTypes : other.tableTypes.Perm model.tableTypes
  tables : ∃ tables : List Relation, tables.Perm other.tables ∧
    List.Forall₂ (Relation.Matches declared target retarget) model.tables tables

section Loads

variable {options : LoadOptions} {statements reordered : List Statement}

/-- Statements that load do so in another order, with the same types and tables. -/
theorem exists_reloaded (hperm : reordered.Perm statements)
    (hselects : reordered.filter (·.hasSelects) = statements.filter (·.hasSelects))
    {loaded : LoadedModel} (h : buildModel options statements = .ok loaded) :
    ∃ reloaded, buildModel options reordered = .ok reloaded ∧
      loaded.model.MatchesTables (declaredKeys statements)
        (·.target (.ofStatements options.defaultSchema statements))
        (·.target (.ofStatements options.defaultSchema reordered)) reloaded.model := by
  have hrearranges := rearranges_ofStatements options.defaultSchema hperm hselects
  obtain ⟨schema, views, hnames, hschema, hviews, rfl⟩ := buildModel_eq_ok.mp h
  obtain ⟨reschema, tables, retables, hreschema, haliases, hshapes, htables, hretables, htablePerm,
    hnodup⟩ := hrearranges.buildTables hnames hschema
  obtain ⟨hdefault, hnone⟩ := buildTables_keeps hschema
  obtain ⟨hredefault, hrenone⟩ := buildTables_keeps hreschema
  have hreviews := hrearranges.buildViews
    (hredefault.trans (hrearranges.defaultSchema.trans hdefault.symm)) hnone hrenone htables
    hretables htablePerm hnodup
  refine ⟨_, buildModel_eq_ok.mpr ⟨reschema, views, hrearranges.checkNames hnames, hreschema,
    hreviews.trans hviews, rfl⟩, haliases, hshapes, ?_⟩
  -- The tables of the first load, with the relationships of the second.
  refine ⟨tables.map (withRelationships (.ofList
    (Definitions.ofStatements options.defaultSchema reordered).foreignKeys)), ?_, ?_⟩
  · change List.Perm _ reschema.tables
    rw [hretables]
    exact (htablePerm.map _).symm
  · change List.Forall₂ _ schema.tables _
    rw [htables, foreignKeys_eq, foreignKeys_eq, List.forall₂_map_left_iff,
      List.forall₂_map_right_iff]
    exact List.forall₂_same.mpr fun table _ =>
      matches_withRelationships hrearranges (declaredKeys_perm hperm) table

/-- Statements that create types and tables or alter tables may change places with all others: if
they load in one order, they do in every order, and the types and the tables are the same up to the
order of the lists. A table has the same columns, in their order, which refer to the same and are
referred to by the same. Only a reference without columns may list those of the primary key in
another order and in other letters. -/
theorem types_and_tables_in_any_order (options : LoadOptions) (hperm : reordered.Perm statements)
    (hselects : reordered.filter (·.hasSelects) = statements.filter (·.hasSelects)) :
    let defs := Definitions.ofStatements options.defaultSchema statements
    let redefs := Definitions.ofStatements options.defaultSchema reordered
    ((∃ loaded, buildModel options statements = .ok loaded) ↔
      ∃ reloaded, buildModel options reordered = .ok reloaded) ∧
    (∀ declared : DeclaredKey,
      declared.SameTarget (declared.target defs) (declared.target redefs)) ∧
    ∀ loaded reloaded, buildModel options statements = .ok loaded →
      buildModel options reordered = .ok reloaded →
      loaded.model.MatchesTables (declaredKeys statements) (·.target defs) (·.target redefs)
        reloaded.model := by
  intro defs redefs
  refine ⟨⟨?_, ?_⟩, ?_, ?_⟩
  · rintro ⟨loaded, hloaded⟩
    obtain ⟨reloaded, hreloaded, -⟩ := exists_reloaded hperm hselects hloaded
    exact ⟨reloaded, hreloaded⟩
  · rintro ⟨reloaded, hreloaded⟩
    obtain ⟨loaded, hloaded, -⟩ := exists_reloaded hperm.symm hselects.symm hreloaded
    exact ⟨loaded, hloaded⟩
  · exact fun declared =>
      declared.sameTarget (rearranges_ofStatements options.defaultSchema hperm hselects)
  · intro loaded reloaded hloaded hreloaded
    obtain ⟨reloaded', hreloaded', hmatches⟩ := exists_reloaded hperm hselects hloaded
    obtain rfl := Except.ok.inj (hreloaded.symm.trans hreloaded')
    exact hmatches

end Loads

/-- A key that is added before its table, which refers to a type that comes last: the statements load
in this order, and so they do in reverse. -/
theorem types_and_tables_in_reverse_order :
    ∃ statements loaded reloaded, statementsOf?
        ["alter table b add primary key (part)", "create table a (x int references b)",
          "create table b (id k, part int)", "create type k from int"] = some statements ∧
      buildModel {} statements = .ok loaded ∧ buildModel {} statements.reverse = .ok reloaded ∧
      loaded.model.MatchesTables (declaredKeys statements)
        (·.target (.ofStatements "dbo" statements))
        (·.target (.ofStatements "dbo" statements.reverse)) reloaded.model := by
  obtain ⟨statements, loaded, hstatements, hloaded, hnone⟩ :=
    exists_loaded_of_any
      ["alter table b add primary key (part)", "create table a (x int references b)",
        "create table b (id k, part int)", "create type k from int"]
      (fun statements _ => statements.all fun statement => !statement.hasSelects)
      (by decide +kernel)
  have hselects : statements.reverse.filter (·.hasSelects) = statements.filter (·.hasSelects) := by
    have hempty : statements.filter (·.hasSelects) = [] := by
      refine List.filter_eq_nil_iff.mpr fun statement hstatement => ?_
      simpa using List.all_eq_true.mp hnone statement hstatement
    rw [List.filter_reverse, hempty, List.reverse_nil]
  obtain ⟨hiff, -, hmatches⟩ := types_and_tables_in_any_order {}
    (List.reverse_perm statements) hselects
  obtain ⟨reloaded, hreloaded⟩ := hiff.mp ⟨loaded, hloaded⟩
  exact ⟨statements, loaded, reloaded, hstatements, hloaded, hreloaded,
    hmatches loaded reloaded hloaded hreloaded⟩

end SchemaPlan
