import SchemaPlan.Proofs.Schema.Loading

/-!
# Columns that hold no nulls

A column of a primary key and an identity column should hold no nulls unless the column says so
itself, and a column of a primary key should be known as one. Here the columns of a loaded model are
compared with their definitions, one by one. A column is as it should be unless one of two things
happens: its type is an alias type that allows nulls, or it belongs to a table type and only a
constraint of the type names it as a key.
-/

namespace SchemaPlan

open SchemaPlan.Sql

/-! ## Key columns -/

/-- The name of a column is among those listed. -/
def Lists (names : List String) (column : ColumnDefinition) : Prop :=
  ∃ name ∈ names, Text.sameText name column.name = true

/-- An object declares a column as its key, in the column itself or in a constraint. -/
def DeclaresKey (object : TableDefinition) (column : ColumnDefinition) : Prop :=
  column.isPrimaryKey = true ∨
    ∃ name columns, .primaryKey name columns ∈ object.constraints ∧ Lists columns column

/-- A constraint that is added to a table later declares a column as its key. -/
def Definitions.AddsKey (defs : Definitions) (table : TableDefinition) (column : ColumnDefinition) :
    Prop :=
  ∃ owner name columns, (owner, .primaryKey name columns) ∈ defs.addedConstraints ∧
    defs.keyOf owner = defs.keyOf table.name ∧ Lists columns column

/-- A column with a declared type and without a `NULL` of its own is required if it is an identity
column or part of the key. -/
def IsRequired (isKey : Prop) (definition : ColumnDefinition) : Prop :=
  definition.type.isSome = true ∧ definition.nullability ≠ some true ∧
    (definition.isIdentity = true ∨ isKey)

/-- A required column holds no nulls and is known as a part of the key if it is one. -/
def MeetsRequirement (isKey : Prop) (column : Column) : Prop :=
  column.isNullable = false ∧ (isKey → column.isPrimaryKey = true)

/-- Nothing but an alias type says whether the column holds nulls, and it says that it may. -/
def SchemaModel.LeftToAlias (model : SchemaModel) (definition : ColumnDefinition) : Prop :=
  definition.nullability = none ∧ ∃ declared type label, definition.type = some declared ∧
    resolveType? model.defaultSchema model.aliasTypes declared = some (type, some label) ∧
    label.isNullable = true

/-! ## Columns as they are built -/

section Build

variable {defs : Definitions} {aliases : List AliasType} {object : String}

/-- A column takes its name from its definition and its key flag from the object. Whether it holds
nulls is said by the definition, else by its alias type, else by what kind of column it is. -/
theorem buildColumn_eq_ok {definition : ColumnDefinition} {isKey : Bool} {column : Column}
    (h : buildColumn defs aliases object definition isKey = .ok column) :
    column.name = definition.name ∧ column.isPrimaryKey = isKey ∧
      ∀ declared, definition.type = some declared → ∃ type label,
        resolveType? defs.defaultSchema aliases declared = some (type, label) ∧
        column.isNullable = (definition.nullability.or (label.map (·.isNullable))).getD
          !(isKey || definition.isIdentity) := by
  unfold buildColumn at h
  cases htype : definition.type with
  | none =>
    rw [htype] at h
    obtain rfl := Except.ok.inj h
    refine ⟨rfl, rfl, ?_⟩
    rintro declared ⟨⟩
  | some declared =>
    rw [htype] at h
    dsimp only at h
    split at h
    · cases h
    · rename_i type label hresolve
      obtain rfl := Except.ok.inj h
      refine ⟨rfl, rfl, ?_⟩
      rintro _ ⟨⟩
      exact ⟨type, label, hresolve, rfl⟩

/-- The first column is built if none before it has its name, and the others are built behind it. -/
theorem buildColumns_cons_eq_ok {keyColumns seen : List String} {definition : ColumnDefinition}
    {rest : List ColumnDefinition} {columns : List Column}
    (h : buildColumns defs aliases object keyColumns seen (definition :: rest) = .ok columns) :
    (∀ name ∈ seen, Text.sameText name definition.name = false) ∧ ∃ column more,
      buildColumn defs aliases object definition
        (definition.isPrimaryKey || keyColumns.any (Text.sameText · definition.name)) = .ok column ∧
      buildColumns defs aliases object keyColumns (definition.name :: seen) rest = .ok more ∧
      columns = column :: more := by
  unfold buildColumns at h
  dsimp only at h
  split at h
  · cases h
  · rename_i hunseen
    obtain ⟨column, hcolumn, h⟩ := bind_eq_ok.mp h
    obtain ⟨more, hmore, h⟩ := bind_eq_ok.mp h
    obtain rfl := Except.ok.inj h
    refine ⟨fun name hname => ?_, column, more, hcolumn, hmore, rfl⟩
    exact Bool.eq_false_iff.mpr fun hsame => hunseen (List.any_eq_true.mpr ⟨name, hname, hsame⟩)

/-- The columns of an object are built from its definitions one by one. -/
theorem forall₂_of_buildColumns {keyColumns seen : List String} {definitions : List ColumnDefinition}
    {columns : List Column}
    (h : buildColumns defs aliases object keyColumns seen definitions = .ok columns) :
    List.Forall₂ (fun definition column => buildColumn defs aliases object definition
      (definition.isPrimaryKey || keyColumns.any (Text.sameText · definition.name)) = .ok column)
      definitions columns := by
  induction definitions generalizing seen columns with
  | nil =>
    obtain rfl := Except.ok.inj h
    exact .nil
  | cons definition rest ih =>
    obtain ⟨-, column, more, hcolumn, hmore, rfl⟩ := buildColumns_cons_eq_ok h
    exact .cons hcolumn (ih hmore)

/-- A required column that is known as a key meets its requirement unless its nullability is left to
an alias type that allows nulls. -/
theorem meetsRequirement_iff {isKey : Prop} {isKnown : Bool} {definition : ColumnDefinition}
    {column : Column} {model : SchemaModel} (hschema : model.defaultSchema = defs.defaultSchema)
    (haliases : model.aliasTypes = aliases)
    (hbuild : buildColumn defs aliases object definition isKnown = .ok column)
    (hrequired : IsRequired isKey definition) :
    MeetsRequirement isKey column ↔
      ¬ model.LeftToAlias definition ∧ (isKey → isKnown = true) := by
  obtain ⟨htype, hmarker, hkind⟩ := hrequired
  obtain ⟨declared, htype⟩ := Option.isSome_iff_exists.mp htype
  obtain ⟨-, hflag, hnullable⟩ := buildColumn_eq_ok hbuild
  obtain ⟨type, label, hresolve, hnullable⟩ := hnullable declared htype
  unfold MeetsRequirement SchemaModel.LeftToAlias
  rw [hflag, hschema, haliases]
  refine and_congr_left fun hknown => ?_
  -- The column counts as a key or identity column, so that only a marker or an alias decides.
  have hdefault : (!(isKnown || definition.isIdentity)) = false := by
    rcases hkind with hidentity | hkey
    · rw [hidentity, Bool.or_true]; rfl
    · rw [hknown hkey]; rfl
  rw [hnullable, hdefault]
  cases hmark : definition.nullability with
  | some marker =>
    cases marker with
    | true => exact absurd hmark hmarker
    | false => simp
  | none =>
    cases label with
    | none => simp [htype, hresolve]
    | some label => simp [htype, hresolve]

end Build

/-! ## Keys of tables -/

theorem any_sameText_iff {names : List String} {name : String} :
    names.any (Text.sameText · name) = true ↔ ∃ other ∈ names, Text.sameText other name = true :=
  List.any_eq_true

/-- A name that is listed stays listed when repetitions are dropped, or was listed before. -/
theorem any_withoutRepeats (seen : List String) {names : List String} {name : String}
    (h : names.any (Text.sameText · name) = true) :
    (Definitions.withoutRepeats seen names).any (Text.sameText · name) = true ∨
      seen.any (Text.sameText · name) = true := by
  induction names generalizing seen with
  | nil => cases h
  | cons first rest ih =>
    rw [List.any_cons, Bool.or_eq_true] at h
    unfold Definitions.withoutRepeats
    split
    · rename_i hseen
      rcases h with hfirst | hrest
      · -- The name that repeats is the one in question, in other letters.
        right
        obtain ⟨other, hother, hsame⟩ := any_sameText_iff.mp hseen
        refine any_sameText_iff.mpr ⟨other, hother, ?_⟩
        rw [Text.sameText_iff] at hsame hfirst ⊢
        exact hsame.trans hfirst
      · exact ih seen hrest
    · rw [List.any_cons, Bool.or_eq_true]
      rcases h with hfirst | hrest
      · exact Or.inl (Or.inl hfirst)
      · rcases ih (first :: seen) hrest with hkept | hseen
        · exact Or.inl (Or.inr hkept)
        · rw [List.any_cons, Bool.or_eq_true] at hseen
          rcases hseen with hfirst | hseen
          · exact Or.inl (Or.inl hfirst)
          · exact Or.inr hseen

/-- The primary key of a table has the columns of every declaration for it. -/
theorem any_primaryKey_of_declared {defs : Definitions} {owner : QualifiedName}
    {columns : List String} {name key : String} (hdeclared : (owner, columns) ∈ defs.keyDeclarations)
    (howner : defs.keyOf owner = key) (hname : columns.any (Text.sameText · name) = true) :
    (defs.primaryKey key).any (Text.sameText · name) = true := by
  have hall : (((defs.keyDeclarations.filter fun declared => defs.keyOf declared.1 == key).map
      (·.2)).flatten).any (Text.sameText · name) = true := by
    obtain ⟨listed, hlisted, hsame⟩ := any_sameText_iff.mp hname
    refine any_sameText_iff.mpr ⟨listed, List.mem_flatten.mpr ⟨columns, ?_, hlisted⟩, hsame⟩
    exact List.mem_map.mpr ⟨(owner, columns),
      List.mem_filter.mpr ⟨hdeclared, by simpa using howner⟩, rfl⟩
  rcases any_withoutRepeats [] hall with hkept | hnone
  · exact hkept
  · cases hnone

/-- Every column of the primary key of a table is known as one. -/
theorem isKnown_of_isKey {defs : Definitions} {table : TableDefinition} {column : ColumnDefinition}
    (htable : table ∈ defs.tables) (hkey : DeclaresKey table column ∨ defs.AddsKey table column) :
    (column.isPrimaryKey ||
      (defs.primaryKey (defs.keyOf table.name)).any (Text.sameText · column.name)) = true := by
  rw [Bool.or_eq_true]
  rcases hkey with (hinline | ⟨name, columns, hconstraint, hlists⟩) |
    ⟨owner, name, columns, hadded, howner, hlists⟩
  · exact Or.inl hinline
  · -- A constraint of the table is part of what the table declares.
    have hdeclared : (table.name, Definitions.ownKeyColumns table) ∈ defs.keyDeclarations :=
      List.mem_append_left _ (List.mem_map.mpr ⟨table, htable, rfl⟩)
    refine Or.inr (any_primaryKey_of_declared hdeclared rfl ?_)
    obtain ⟨listed, hlisted, hsame⟩ := hlists
    refine any_sameText_iff.mpr ⟨listed, List.mem_append_right _ ?_, hsame⟩
    exact List.mem_flatten.mpr ⟨columns, List.mem_filterMap.mpr ⟨_, hconstraint, rfl⟩, hlisted⟩
  · have hdeclared : (owner, columns) ∈ defs.keyDeclarations :=
      List.mem_append_right _ (List.mem_filterMap.mpr ⟨_, hadded, rfl⟩)
    exact Or.inr (any_primaryKey_of_declared hdeclared howner (any_sameText_iff.mpr hlists))

/-! ## Loaded models -/

/-- The columns of a loaded object stand for those of its definition, one by one. -/
def Columnwise (related : TableDefinition → ColumnDefinition → Column → Prop)
    (definition : TableDefinition) (object : Relation) : Prop :=
  object.name = definition.name.name ∧ List.Forall₂
    (fun column built => built.name = column.name ∧ related definition column built)
    definition.columns object.columns

/-- An object is built column by column, and each is known as a key if it is declared or listed as
one. -/
theorem columnwise_of_buildRelation {defs : Definitions} {aliases : List AliasType}
    {keyColumns : List String} {definition : TableDefinition} {object : Relation}
    (h : buildRelation defs aliases keyColumns definition = .ok object) :
    Columnwise (fun _ column built => buildColumn defs aliases (defs.fullNameOf definition.name)
      column (column.isPrimaryKey || keyColumns.any (Text.sameText · column.name)) = .ok built)
      definition object := by
  unfold buildRelation at h
  obtain ⟨columns, hcolumns, h⟩ := bind_eq_ok.mp h
  obtain rfl := Except.ok.inj h
  refine ⟨rfl, (forall₂_of_buildColumns hcolumns).imp ?_⟩
  intro column built hbuilt
  exact ⟨(buildColumn_eq_ok hbuilt).1, hbuilt⟩

/-- Columns keep everything else when they learn of their relationships. -/
theorem Columnwise.withRelationships {related : TableDefinition → ColumnDefinition → Column → Prop}
    {definition : TableDefinition} {table : Relation} {index : RelationshipIndex}
    (h : Columnwise related definition table)
    (hkeep : ∀ column built parents children, related definition column built →
      related definition column { built with parents, children }) :
    Columnwise related definition (withRelationships index table) := by
  obtain ⟨hname, hcolumns⟩ := h
  refine ⟨hname, ?_⟩
  unfold SchemaPlan.withRelationships
  rw [List.forall₂_map_right_iff]
  refine hcolumns.imp ?_
  rintro column built ⟨hbuilt, hrelated⟩
  exact ⟨hbuilt, hkeep _ _ _ _ hrelated⟩

/-- In a loaded model a column that is required, because it is an identity column or part of a
primary key, holds no nulls and is known as a part of the key exactly unless an alias type that
allows nulls decides, or the column belongs to a table type and is declared as a key in a constraint
only. -/
theorem required_columns_iff {options : LoadOptions} {statements : List Statement}
    {loaded : LoadedModel} (h : buildModel options statements = .ok loaded) :
    let defs := Definitions.ofStatements options.defaultSchema statements
    List.Forall₂ (Columnwise fun table column built =>
        let isKey := DeclaresKey table column ∨ defs.AddsKey table column
        IsRequired isKey column →
          (MeetsRequirement isKey built ↔ ¬ loaded.model.LeftToAlias column))
      defs.tables loaded.model.tables ∧
    List.Forall₂ (Columnwise fun shape column built =>
        let isKey := DeclaresKey shape column
        IsRequired isKey column →
          (MeetsRequirement isKey built ↔
            ¬ loaded.model.LeftToAlias column ∧ (isKey → column.isPrimaryKey = true)))
      defs.tableTypes loaded.model.tableTypes := by
  intro defs
  obtain ⟨schema, views, -, hschema, -, hloaded⟩ := buildModel_eq_ok.mp h
  unfold buildTables at hschema
  obtain ⟨aliases, haliases, hschema⟩ := bind_eq_ok.mp hschema
  obtain ⟨shapes, hshapes, hschema⟩ := bind_eq_ok.mp hschema
  obtain ⟨tables, htables, hschema⟩ := bind_eq_ok.mp hschema
  obtain rfl := Except.ok.inj hschema
  have hdefault : loaded.model.defaultSchema = defs.defaultSchema := by rw [hloaded]; rfl
  have haliases : loaded.model.aliasTypes = aliases := by rw [hloaded]; rfl
  constructor
  · have hmodel : loaded.model.tables =
        tables.map (withRelationships (RelationshipIndex.ofList defs.foreignKeys)) := by
      rw [hloaded]; rfl
    rw [hmodel, List.forall₂_map_right_iff]
    refine ((List.forall₂_and_left _ _).mpr
      ⟨fun table hmem => hmem, forall₂_of_mapM htables⟩).imp ?_
    rintro definition table ⟨hmem, hbuilt⟩
    have hcolumns := columnwise_of_buildRelation hbuilt
    refine Columnwise.withRelationships ⟨hcolumns.1, hcolumns.2.imp ?_⟩ ?_
    · rintro column built ⟨hname, hbuild⟩
      refine ⟨hname, ?_⟩
      intro hrequired
      rw [meetsRequirement_iff hdefault haliases hbuild hrequired]
      -- Every key of a table is known, wherever it is declared.
      exact and_iff_left fun hkey => isKnown_of_isKey hmem hkey
    · intro column built parents children hrelated
      exact hrelated
  · have hmodel : loaded.model.tableTypes = shapes := by rw [hloaded]; rfl
    rw [hmodel]
    refine (forall₂_of_mapM hshapes).imp ?_
    intro definition shape hbuilt
    have hcolumns := columnwise_of_buildRelation hbuilt
    refine ⟨hcolumns.1, hcolumns.2.imp ?_⟩
    rintro column built ⟨hname, hbuild⟩
    refine ⟨hname, ?_⟩
    intro hrequired
    rw [meetsRequirement_iff hdefault haliases hbuild hrequired, List.any_nil, Bool.or_false]

/-- An identity column, and a key that is added to its table later, are required. -/
theorem required_columns_of_added_key :
    ∃ statements loaded, statementsOf? ["create table t (id int identity, code int)",
        "alter table t add constraint pk primary key (code)"] = some statements ∧
      buildModel {} statements = .ok loaded ∧ loaded.model.tables.length = 1 ∧
      let defs := Definitions.ofStatements ({} : LoadOptions).defaultSchema statements
      List.Forall₂ (Columnwise fun table column built =>
          let isKey := DeclaresKey table column ∨ defs.AddsKey table column
          IsRequired isKey column →
            (MeetsRequirement isKey built ↔ ¬ loaded.model.LeftToAlias column))
        defs.tables loaded.model.tables ∧
      List.Forall₂ (Columnwise fun shape column built =>
          let isKey := DeclaresKey shape column
          IsRequired isKey column →
            (MeetsRequirement isKey built ↔
              ¬ loaded.model.LeftToAlias column ∧ (isKey → column.isPrimaryKey = true)))
        defs.tableTypes loaded.model.tableTypes := by
  obtain ⟨statements, loaded, hstatements, hloaded, hlength⟩ :=
    exists_loaded_of_any ["create table t (id int identity, code int)",
        "alter table t add constraint pk primary key (code)"]
      (fun _ loaded => loaded.model.tables.length == 1) (by decide +kernel)
  exact ⟨statements, loaded, hstatements, hloaded, beq_iff_eq.mp hlength,
    required_columns_iff hloaded⟩

/-! ## Key columns that may hold nulls -/

/-- An object has a single column, which is declared as its key, with a type and without a marker,
and is nullable all the same. -/
def hasNullableKey (definition : TableDefinition) (object : Relation) : Bool :=
  match definition.columns, object.columns with
  | [column], [built] =>
    column.type.isSome && column.nullability.isNone && built.isNullable &&
      (column.isPrimaryKey || (definition.constraints.filterMap
        Definitions.primaryKeyColumns?).any (·.any (Text.sameText · column.name)))
  | _, _ => false

/-- The single column of an object is required by its definition and does not meet the
requirement. -/
def FailsRequirement (isKey : TableDefinition → ColumnDefinition → Prop)
    (definition : TableDefinition) (object : Relation) : Prop :=
  ∃ column built, definition.columns = [column] ∧ object.columns = [built] ∧
    IsRequired (isKey definition column) column ∧
    ¬ MeetsRequirement (isKey definition column) built

theorem failsRequirement_of_hasNullableKey {isKey : TableDefinition → ColumnDefinition → Prop}
    {definition : TableDefinition} {object : Relation}
    (hdeclared : ∀ column, DeclaresKey definition column → isKey definition column)
    (h : hasNullableKey definition object = true) : FailsRequirement isKey definition object := by
  unfold hasNullableKey at h
  split at h
  · rename_i column built hcolumn hbuilt
    simp only [Bool.and_eq_true, Bool.or_eq_true] at h
    obtain ⟨⟨⟨htype, hmarker⟩, hnullable⟩, hkey⟩ := h
    refine ⟨column, built, hcolumn, hbuilt, ⟨htype, ?_, Or.inr (hdeclared column ?_)⟩, ?_⟩
    · rw [Option.isNone_iff_eq_none.mp hmarker]
      simp
    · rcases hkey with hinline | hlisted
      · exact Or.inl hinline
      · -- The columns of a primary key come from a constraint that is one.
        obtain ⟨columns, hcolumns, hname⟩ := List.any_eq_true.mp hlisted
        obtain ⟨constraint, hconstraint, hsome⟩ := List.mem_filterMap.mp hcolumns
        cases constraint with
        | primaryKey name listed =>
          obtain rfl := Option.some.inj hsome
          exact Or.inr ⟨name, listed, hconstraint, any_sameText_iff.mp hname⟩
        | foreignKey => cases hsome
        | other => cases hsome
    · rintro ⟨hrequired, -⟩
      rw [hnullable] at hrequired
      cases hrequired
  · cases h

/-- Whether there is one definition and one object, and these have a nullable key. -/
def onlyHasNullableKey : List TableDefinition → List Relation → Bool
  | [definition], [object] => hasNullableKey definition object
  | _, _ => false

theorem exists_of_onlyHasNullableKey {definitions : List TableDefinition}
    {objects : List Relation} (h : onlyHasNullableKey definitions objects = true) :
    ∃ definition object, definitions = [definition] ∧ objects = [object] ∧
      hasNullableKey definition object = true := by
  unfold onlyHasNullableKey at h
  split at h
  · exact ⟨_, _, rfl, rfl, h⟩
  · cases h

/-- A key column whose type is an alias that allows nulls, and a column of a table type that a
constraint names as the key, are nullable. -/
theorem nullable_key_columns :
    ∃ statements loaded, statementsOf? ["create type code from int",
        "create table t (id code primary key)",
        "create type s as table (id int, primary key (id))"] = some statements ∧
      buildModel {} statements = .ok loaded ∧
      let defs := Definitions.ofStatements "dbo" statements
      (∃ table object, defs.tables = [table] ∧ loaded.model.tables = [object] ∧
        FailsRequirement (fun table column => DeclaresKey table column ∨ defs.AddsKey table column)
          table object) ∧
      ∃ shape object, defs.tableTypes = [shape] ∧ loaded.model.tableTypes = [object] ∧
        FailsRequirement DeclaresKey shape object := by
  obtain ⟨statements, loaded, hstatements, hloaded, htest⟩ :=
    exists_loaded_of_any ["create type code from int", "create table t (id code primary key)",
        "create type s as table (id int, primary key (id))"]
      (fun statements loaded =>
        let defs := Definitions.ofStatements "dbo" statements
        onlyHasNullableKey defs.tables loaded.model.tables &&
          onlyHasNullableKey defs.tableTypes loaded.model.tableTypes) (by decide +kernel)
  obtain ⟨htable, hshape⟩ := Bool.and_eq_true_iff.mp htest
  refine ⟨statements, loaded, hstatements, hloaded, ?_, ?_⟩
  · obtain ⟨table, object, hdefinition, hobject, htable⟩ := exists_of_onlyHasNullableKey htable
    exact ⟨table, object, hdefinition, hobject,
      failsRequirement_of_hasNullableKey (fun column => Or.inl) htable⟩
  · obtain ⟨shape, object, hdefinition, hobject, hshape⟩ := exists_of_onlyHasNullableKey hshape
    exact ⟨shape, object, hdefinition, hobject,
      failsRequirement_of_hasNullableKey (fun column => id) hshape⟩

end SchemaPlan
