import SchemaPlan.Proofs.Schema.Keys

/-!
# Relationships of columns

A foreign key is known on both of its ends. The columns that own it list what it refers to, and the
columns that it refers to list who owns it; both lists are what a scan of all foreign keys finds,
in the order in which these are declared. A foreign key that names no columns refers to the primary
key of its target, wherever that is declared.

* `KeyGroups.get_ofList`: a group holds the foreign keys of its table, in order.
* `withoutRepeats_isReduced`: the columns of a primary key are those that are declared, each once.
* `relationships_eq_scan`: the relationships of a loaded model.
-/

namespace SchemaPlan

open SchemaPlan.Sql

/-! ## Groups and scans -/

namespace KeyGroups

theorem get_add (groups : KeyGroups) (table other : String) (key : ForeignKey) :
    (KeyGroups.add table key groups).get other =
      groups.get other ++ if table = other then [key] else [] := by
  induction groups with
  | nil =>
    by_cases h : table = other
    · simp [KeyGroups.add, KeyGroups.get, h]
    · simp [KeyGroups.add, KeyGroups.get, h, List.lookup_cons, beq_false_of_ne (Ne.symm h)]
  | cons group rest ih =>
    obtain ⟨name, keys⟩ := group
    unfold KeyGroups.get at ih ⊢
    unfold KeyGroups.add
    by_cases hname : name = table
    · subst hname
      rw [if_pos rfl, List.lookup_cons, List.lookup_cons]
      by_cases hother : name = other
      · simp [hother]
      · simp [hother, beq_false_of_ne (Ne.symm hother)]
    · rw [if_neg hname, List.lookup_cons, List.lookup_cons]
      cases hother : other == name with
      | true =>
        -- The new key belongs to another table than the first group.
        have hne : table ≠ other := fun h => hname (h.trans (eq_of_beq hother)).symm
        simp [hne]
      | false => exact ih

/-- A group holds the foreign keys of its table in the order of all keys. -/
theorem get_ofList (tableOf : ForeignKey → String) (keys : List ForeignKey) (table : String) :
    (KeyGroups.ofList tableOf keys).get table = keys.filter fun key => tableOf key = table := by
  have hfold (groups : KeyGroups) :
      (keys.foldl (fun groups key => KeyGroups.add (tableOf key) key groups) groups).get table =
        groups.get table ++ keys.filter fun key => tableOf key = table := by
    induction keys generalizing groups with
    | nil => simp
    | cons key rest ih =>
      rw [List.foldl_cons, ih, get_add, List.append_assoc, List.filter_cons]
      by_cases hkey : tableOf key = table <;> simp [hkey]
  exact hfold []

end KeyGroups

namespace ForeignKey

/-- The key makes a column of a table refer to something: it belongs to the table and lists the
column. -/
def IsFrom (key : ForeignKey) (schema table column : String) : Prop :=
  key.ownerKey = tableKey schema table ∧ ∃ name ∈ key.columns, Text.sameText name column = true

/-- The key refers to a column of a table. -/
def IsTo (key : ForeignKey) (schema table column : String) : Prop :=
  key.referencedKey = tableKey schema table ∧
    ∃ name ∈ key.referenced.columns, Text.sameText name column = true

instance (schema table column : String) :
    DecidablePred fun key : ForeignKey => key.IsFrom schema table column :=
  fun key => inferInstanceAs (Decidable (key.ownerKey = tableKey schema table ∧
    ∃ name ∈ key.columns, Text.sameText name column = true))

instance (schema table column : String) :
    DecidablePred fun key : ForeignKey => key.IsTo schema table column :=
  fun key => inferInstanceAs (Decidable (key.referencedKey = tableKey schema table ∧
    ∃ name ∈ key.referenced.columns, Text.sameText name column = true))

end ForeignKey

namespace RelationshipIndex

/-- Looking a column up in a group finds what a scan of all keys finds. -/
theorem filter_get_ofList (tableOf : ForeignKey → String) (columnsOf : ForeignKey → List String)
    (keys : List ForeignKey) (table column : String) :
    (((KeyGroups.ofList tableOf keys).get table).filter fun key => listsColumn (columnsOf key) column) =
      keys.filter fun key =>
        tableOf key = table ∧ ∃ name ∈ columnsOf key, Text.sameText name column = true := by
  rw [KeyGroups.get_ofList, List.filter_filter]
  refine List.filter_congr fun key _ => ?_
  rw [Bool.eq_iff_iff, Bool.and_eq_true, decide_eq_true_iff, decide_eq_true_iff, listsColumn,
    List.any_eq_true]
  exact and_comm

theorem parents_ofList (keys : List ForeignKey) (schema table column : String) :
    (ofList keys).parents schema table column =
      (keys.filter fun key => key.IsFrom schema table column).map (·.referenced) :=
  congrArg (List.map _) (filter_get_ofList ForeignKey.ownerKey (·.columns) keys _ column)

theorem children_ofList (keys : List ForeignKey) (schema table column : String) :
    (ofList keys).children schema table column =
      (keys.filter fun key => key.IsTo schema table column).map ForeignKey.owner :=
  congrArg (List.map _)
    (filter_get_ofList ForeignKey.referencedKey (·.referenced.columns) keys _ column)

end RelationshipIndex

/-! ## Declared keys -/

/-- A foreign key as it is declared. -/
structure DeclaredKey where
  owner : QualifiedName
  name : Option String
  columns : List String
  reference : ColumnReference

namespace ConstraintDefinition

/-- The foreign key that a constraint of a table declares. -/
def declaredKey? (owner : QualifiedName) : ConstraintDefinition → Option DeclaredKey
  | .foreignKey name columns reference => some ⟨owner, name, columns, reference⟩
  | .primaryKey _ _ => none
  | .other _ => none

/-- The columns of the primary key that a constraint declares. -/
def keyColumns : ConstraintDefinition → List String
  | .primaryKey _ columns => columns
  | .foreignKey _ _ _ => []
  | .other _ => []

end ConstraintDefinition

namespace TableDefinition

/-- The foreign keys that a table declares, those of its columns first. -/
def declaredKeys (table : TableDefinition) : List DeclaredKey :=
  (table.columns.filterMap fun column =>
    column.references.map fun reference => ⟨table.name, none, [column.name], reference⟩) ++
    table.constraints.filterMap (ConstraintDefinition.declaredKey? table.name)

/-- The columns that a table declares to be its primary key, in themselves or in a constraint. -/
def keyColumns (table : TableDefinition) : List String :=
  (table.columns.filter (·.isPrimaryKey)).map (·.name) ++
    table.constraints.flatMap ConstraintDefinition.keyColumns

end TableDefinition

/-- The foreign keys that statements declare: those of tables, then those that are added later. -/
def declaredKeys (statements : List Statement) : List DeclaredKey :=
  (statements.flatMap fun
    | .table table => table.declaredKeys
    | _ => []) ++
  statements.filterMap fun
    | .addConstraint owner constraint => constraint.declaredKey? owner
    | _ => none

/-- The columns that statements declare to be the primary key of the object with a key: in a table,
or in a constraint that is added later. -/
def declaredKeyColumns (defaultSchema : String) (statements : List Statement) (object : String) :
    List String :=
  let isMeant (name : QualifiedName) : Bool :=
    Definitions.objectKey (name.schema.getD defaultSchema) name.name == object
  (statements.flatMap fun
    | .table table => if isMeant table.name then table.keyColumns else []
    | _ => []) ++
  statements.flatMap fun
    | .addConstraint owner constraint => if isMeant owner then constraint.keyColumns else []
    | _ => []

/-- All of the declared names in their order, each once without regard to ASCII case. -/
structure IsReduced (declared names : List String) : Prop where
  sublist : names.Sublist declared
  distinct : names.Pairwise fun name other => Text.sameText name other = false
  covers : ∀ name ∈ declared, ∃ kept ∈ names, Text.sameText kept name = true

/-- A foreign key as a schema records it: the names of both tables are made whole, and a reference
without columns is to the primary key of its target. -/
structure DeclaredKey.IsRecordedAs (defaultSchema : String) (statements : List Statement)
    (declared : DeclaredKey) (key : ForeignKey) : Prop where
  name : key.name = declared.name
  owner : key.owner = ⟨none, some (declared.owner.schema.getD defaultSchema), declared.owner.name,
    declared.columns⟩
  target : ∃ columns, key.referenced = ⟨declared.reference.table.database,
    some (declared.reference.table.schema.getD defaultSchema), declared.reference.table.name, columns⟩
  columns : declared.reference.columns ≠ [] →
    key.referenced.columns = declared.reference.columns
  primaryKey : declared.reference.columns = [] →
    IsReduced (declaredKeyColumns defaultSchema statements
      (Definitions.objectKey (declared.reference.table.schema.getD defaultSchema)
        declared.reference.table.name)) key.referenced.columns

/-! ## Columns of primary keys -/

theorem withoutRepeats_sublist (seen names : List String) :
    (Definitions.withoutRepeats seen names).Sublist names := by
  induction names generalizing seen with
  | nil => exact List.Sublist.refl _
  | cons name rest ih =>
    unfold Definitions.withoutRepeats
    split
    · exact (ih seen).cons name
    · exact (ih (name :: seen)).cons_cons name

theorem sameText_eq_false_of_mem_withoutRepeats {seen names : List String} {name other : String}
    (hname : name ∈ Definitions.withoutRepeats seen names) (hother : other ∈ seen) :
    Text.sameText other name = false := by
  induction names generalizing seen with
  | nil => cases hname
  | cons first rest ih =>
    unfold Definitions.withoutRepeats at hname
    split at hname
    · exact ih hname hother
    · rename_i hnew
      rcases List.mem_cons.mp hname with rfl | hname
      · rw [List.any_eq_true] at hnew
        exact Bool.eq_false_iff.mpr fun hsame => hnew ⟨other, hother, hsame⟩
      · exact ih hname (List.mem_cons_of_mem _ hother)

theorem pairwise_withoutRepeats (seen names : List String) :
    (Definitions.withoutRepeats seen names).Pairwise
      fun name other => Text.sameText name other = false := by
  induction names generalizing seen with
  | nil => exact List.Pairwise.nil
  | cons name rest ih =>
    unfold Definitions.withoutRepeats
    split
    · exact ih seen
    · refine List.pairwise_cons.mpr ⟨?_, ih (name :: seen)⟩
      intro other hother
      exact sameText_eq_false_of_mem_withoutRepeats hother List.mem_cons_self

theorem withoutRepeats_isReduced (names : List String) :
    IsReduced names (Definitions.withoutRepeats [] names) where
  sublist := withoutRepeats_sublist [] names
  distinct := pairwise_withoutRepeats [] names
  covers name hname := by
    have hlisted : names.any (Text.sameText · name) = true :=
      any_sameText_iff.mpr ⟨name, hname, (Text.sameText_iff name name).mpr rfl⟩
    rcases any_withoutRepeats [] hlisted with hkept | hnone
    · exact any_sameText_iff.mp hkept
    · cases hnone

/-! ## What definitions collect -/

section Collect

variable (defaultSchema : String) (statements : List Statement)

theorem flatten_map_tables {α : Type} (own : TableDefinition → List α) :
    ((Definitions.ofStatements defaultSchema statements).tables.map own).flatten =
      statements.flatMap fun
        | .table table => own table
        | _ => [] := by
  induction statements with
  | nil => rfl
  | cons statement rest ih =>
    cases statement <;> simpa [Definitions.ofStatements] using ih

theorem filterMap_addedConstraints {α : Type}
    (added? : QualifiedName × ConstraintDefinition → Option α) :
    (Definitions.ofStatements defaultSchema statements).addedConstraints.filterMap added? =
      statements.filterMap fun
        | .addConstraint owner constraint => added? (owner, constraint)
        | _ => none := by
  unfold Definitions.ofStatements
  rw [List.filterMap_filterMap]
  congr 1
  funext statement
  cases statement <;> rfl

theorem constraintKey?_eq (defs : Definitions) (owner : QualifiedName)
    (constraint : ConstraintDefinition) :
    defs.constraintKey? owner constraint = (constraint.declaredKey? owner).map fun declared =>
      defs.foreignKey declared.owner declared.name declared.columns declared.reference := by
  cases constraint <;> rfl

theorem ownForeignKeys_eq (defs : Definitions) (table : TableDefinition) :
    defs.ownForeignKeys table = table.declaredKeys.map fun declared =>
      defs.foreignKey declared.owner declared.name declared.columns declared.reference := by
  unfold Definitions.ownForeignKeys TableDefinition.declaredKeys
  rw [List.map_append, List.map_filterMap, List.map_filterMap]
  congr 1
  · congr 1
    funext column
    rw [Option.map_map]
    rfl
  · congr 1
    funext constraint
    exact constraintKey?_eq defs table.name constraint

/-- The foreign keys of a schema are those that its statements declare, in order. -/
theorem foreignKeys_eq :
    let defs := Definitions.ofStatements defaultSchema statements
    defs.foreignKeys = (declaredKeys statements).map fun declared =>
      defs.foreignKey declared.owner declared.name declared.columns declared.reference := by
  intro defs
  unfold Definitions.foreignKeys declaredKeys
  rw [flatten_map_tables, filterMap_addedConstraints, List.map_append, List.map_flatMap,
    List.map_filterMap]
  congr 1
  · congr 1
    funext statement
    cases statement with
    | table table => exact ownForeignKeys_eq defs table
    | _ => rfl
  · congr 1
    funext statement
    cases statement with
    | addConstraint owner constraint => exact constraintKey?_eq defs owner constraint
    | _ => rfl

theorem ownKeyColumns_eq (table : TableDefinition) :
    Definitions.ownKeyColumns table = table.keyColumns := by
  unfold Definitions.ownKeyColumns TableDefinition.keyColumns
  congr 1
  induction table.constraints with
  | nil => rfl
  | cons constraint rest ih =>
    rw [List.flatMap_cons, ← ih]
    cases constraint <;> rfl

/-- The primary key of an object has the columns that statements declare for it. -/
theorem primaryKey_eq (object : String) :
    (Definitions.ofStatements defaultSchema statements).primaryKey object =
      Definitions.withoutRepeats [] (declaredKeyColumns defaultSchema statements object) := by
  have hfilter (declarations : List (QualifiedName × List String))
      (isMeant : QualifiedName × List String → Bool) :
      ((declarations.filter isMeant).map (·.2)).flatten =
        declarations.flatMap fun declaration =>
          if isMeant declaration then declaration.2 else [] := by
    induction declarations with
    | nil => rfl
    | cons declaration rest ih =>
      rw [List.filter_cons, List.flatMap_cons]
      split <;> simp [ih]
  unfold Definitions.primaryKey declaredKeyColumns
  dsimp only
  rw [hfilter]
  unfold Definitions.keyDeclarations
  rw [filterMap_addedConstraints, List.flatMap_append, List.flatMap_map, List.flatMap_def,
    flatten_map_tables, List.filterMap_eq_flatMap_toList, List.flatMap_assoc]
  -- The keys within tables come first and the added ones behind them, as in `declaredKeyColumns`.
  refine congrArg (Definitions.withoutRepeats []) (congrArg₂ (· ++ ·) ?_ ?_)
  · refine List.flatMap_congr fun statement _ => ?_
    cases statement with
    | table table =>
      dsimp only
      rw [ownKeyColumns_eq]
      rfl
    | _ => rfl
  · refine List.flatMap_congr fun statement _ => ?_
    cases statement with
    | addConstraint owner constraint =>
      cases constraint with
      | primaryKey name columns => exact List.append_nil _
      | foreignKey => exact (ite_self []).symm
      | other => exact (ite_self []).symm
    | _ => rfl

/-- A foreign key is recorded as it is declared. -/
theorem isRecordedAs_foreignKey (declared : DeclaredKey) :
    let defs := Definitions.ofStatements defaultSchema statements
    declared.IsRecordedAs defaultSchema statements
      (defs.foreignKey declared.owner declared.name declared.columns declared.reference) := by
  intro defs
  refine ⟨rfl, rfl, ⟨_, rfl⟩, ?_, ?_⟩
  · intro hcolumns
    exact if_neg (by simpa using hcolumns)
  · intro hcolumns
    have hkey : (defs.foreignKey declared.owner declared.name declared.columns
        declared.reference).referenced.columns =
          defs.primaryKey (defs.keyOf declared.reference.table) := if_pos (by simp [hcolumns])
    rw [hkey, primaryKey_eq]
    exact withoutRepeats_isReduced _

end Collect

/-! ## Loaded models -/

/-- In a loaded model the foreign keys are those that the statements declare, in order, and a
reference without columns is to the primary key of its target. Looking a column up finds what a scan
of all foreign keys finds: what the keys refer to that list the column in its own table, and who
owns the keys that refer to it. These are the relationships that the columns of tables have, and a
column is part of a foreign key if it refers to something. -/
theorem relationships_eq_scan {options : LoadOptions} {statements : List Statement}
    {loaded : LoadedModel} (h : buildModel options statements = .ok loaded) :
    let index := loaded.model.relationships
    let parents (schema table column : String) : List KeySide :=
      (index.foreignKeys.filter fun key => key.IsFrom schema table column).map (·.referenced)
    let children (schema table column : String) : List KeySide :=
      (index.foreignKeys.filter fun key => key.IsTo schema table column).map ForeignKey.owner
    List.Forall₂ (DeclaredKey.IsRecordedAs options.defaultSchema statements)
      (declaredKeys statements) index.foreignKeys ∧
    (∀ schema table column, index.parents schema table column = parents schema table column ∧
      index.children schema table column = children schema table column) ∧
    ∀ table ∈ loaded.model.tables, ∀ column ∈ table.columns,
      column.parents = parents table.schema table.name column.name ∧
      column.children = children table.schema table.name column.name ∧
      (column.isForeignKey = true ↔ column.parents ≠ []) := by
  intro index parents children
  obtain ⟨schema, views, -, hschema, -, hloaded⟩ := buildModel_eq_ok.mp h
  unfold buildTables at hschema
  obtain ⟨aliases, -, hschema⟩ := bind_eq_ok.mp hschema
  obtain ⟨shapes, -, hschema⟩ := bind_eq_ok.mp hschema
  obtain ⟨tables, -, hschema⟩ := bind_eq_ok.mp hschema
  obtain rfl := Except.ok.inj hschema
  -- The index is that of the declared keys; building the tables and views leaves it alone.
  have hindex : index = RelationshipIndex.ofList
      (Definitions.ofStatements options.defaultSchema statements).foreignKeys := by
    show loaded.model.relationships = _
    rw [hloaded]
    rfl
  have hscan (schema table column : String) :
      index.parents schema table column = parents schema table column ∧
      index.children schema table column = children schema table column := by
    show index.parents schema table column = (index.foreignKeys.filter _).map _ ∧
      index.children schema table column = (index.foreignKeys.filter _).map _
    rw [hindex]
    exact ⟨RelationshipIndex.parents_ofList _ schema table column,
      RelationshipIndex.children_ofList _ schema table column⟩
  refine ⟨?_, hscan, ?_⟩
  · rw [hindex]
    show List.Forall₂ _ _ (Definitions.foreignKeys _)
    rw [foreignKeys_eq, List.forall₂_map_right_iff, List.forall₂_same]
    intro declared _
    exact isRecordedAs_foreignKey options.defaultSchema statements declared
  · -- Columns get their relationships from this index after all tables are built.
    have htables : loaded.model.tables = tables.map (withRelationships index) := by
      rw [hindex, hloaded]
      rfl
    rw [htables]
    intro table htable column hcolumn
    obtain ⟨bare, -, rfl⟩ := List.mem_map.mp htable
    obtain ⟨built, -, rfl⟩ := List.mem_map.mp hcolumn
    refine ⟨(hscan _ _ _).1, (hscan _ _ _).2, ?_⟩
    simp [Column.isForeignKey]

/-- A column of a composite key refers to the primary key of a table that is declared later, and to
which the key is added last of all. -/
theorem relationships_of_later_table :
    ∃ statements loaded, statementsOf?
        ["create table a (x int, y int, foreign key (x, y) references b)",
          "create table b (id int, part int)",
          "alter table b add primary key (id, part)"] = some statements ∧
      buildModel {} statements = .ok loaded ∧
      ∃ table ∈ loaded.model.tables, ∃ column ∈ table.columns,
        column.parents = [⟨none, some "dbo", "b", ["id", "part"]⟩] ∧
        column.parents = (loaded.model.relationships.foreignKeys.filter fun key =>
          key.IsFrom table.schema table.name column.name).map (·.referenced) ∧
        column.children = (loaded.model.relationships.foreignKeys.filter fun key =>
          key.IsTo table.schema table.name column.name).map ForeignKey.owner ∧
        column.isForeignKey = true := by
  obtain ⟨statements, loaded, hstatements, hloaded, htest⟩ :=
    exists_loaded_of_any
      ["create table a (x int, y int, foreign key (x, y) references b)",
        "create table b (id int, part int)",
        "alter table b add primary key (id, part)"]
      (fun _ loaded => loaded.model.tables.any fun table => table.columns.any fun column =>
        column.parents == [⟨none, some "dbo", "b", ["id", "part"]⟩]) (by decide +kernel)
  obtain ⟨table, htable, htest⟩ := List.any_eq_true.mp htest
  obtain ⟨column, hcolumn, htest⟩ := List.any_eq_true.mp htest
  have hparents := beq_iff_eq.mp htest
  obtain ⟨-, -, hcolumns⟩ := relationships_eq_scan hloaded
  obtain ⟨hscan, hchildren, hforeign⟩ := hcolumns table htable column hcolumn
  refine ⟨statements, loaded, hstatements, hloaded, table, htable, column, hcolumn, hparents, hscan,
    hchildren, hforeign.mpr ?_⟩
  rw [hparents]
  exact List.cons_ne_nil _ _

end SchemaPlan
