import SchemaPlan.Proofs.Schema.Failures
import SchemaPlan.Proofs.Schema.Relationships
import SchemaPlan.Proofs.Text.Outline

/-!
# Identity of objects

An object has a schema and a name, and two keys: one for repeated names, primary keys and views, and
one for relationships. The same schema and name without regard to ASCII case always give the same
keys. The other way round a key forgets where the schema ends and what surrounds its parts, and it
knows no case at all, also beyond ASCII. Names are the same exactly if a key and the outlines of
schema and name are. So a load that has no names of one key and different outlines tells its objects
apart: it fails for a name that repeats exactly if two objects are the same, and a foreign key
belongs to the tables that it names.
-/

namespace SchemaPlan

open SchemaPlan.Sql

/-! ## Names of objects -/

/-- The schema and the name of an object. -/
structure ObjectName where
  schema : String
  name : String
deriving Repr, DecidableEq

namespace ObjectName

variable {object other : ObjectName}

/-- The same schema and name without regard to ASCII case. -/
def IsSame (object other : ObjectName) : Prop :=
  sameObject object.schema object.name other.schema other.name = true

instance : DecidableRel IsSame := fun object other =>
  inferInstanceAs (Decidable (sameObject object.schema object.name other.schema other.name = true))

/-- The key for repeated names, primary keys and views. -/
def objectKey (object : ObjectName) : String := Definitions.objectKey object.schema object.name

/-- The key for relationships. -/
def tableKey (object : ObjectName) : String := SchemaPlan.tableKey object.schema object.name

/-- The outlines of the schema and of the name. -/
def outline (object : ObjectName) : List (Option Char) × List (Option Char) :=
  (Text.outline object.schema, Text.outline object.name)

/-- Schema and name with a dot between. -/
def chars (object : ObjectName) : List Char := object.schema.toList ++ '.' :: object.name.toList

theorem objectKey_eq (object : ObjectName) :
    object.objectKey = String.ofList (Text.lowerAfter [] object.chars) := by
  simp [objectKey, Definitions.objectKey, Text.lower, chars]

theorem tableKey_eq (object : ObjectName) :
    object.tableKey = String.ofList (Text.lowerAfter [] (Text.keyChars object.chars)) := by
  rw [tableKey, SchemaPlan.tableKey, Text.identifierKey_eq, Text.lower, String.toList_ofList]
  simp [chars]

theorem isSame_iff :
    object.IsSame other ↔
      object.schema.toList.map Char.toLower = other.schema.toList.map Char.toLower ∧
      object.name.toList.map Char.toLower = other.name.toList.map Char.toLower := by
  unfold IsSame sameObject Text.sameText
  rw [Bool.and_eq_true, Text.sameLetters_iff, Text.sameLetters_iff]

/-! ## Keys of the same names -/

theorem IsSame.outline_eq (h : object.IsSame other) : object.outline = other.outline := by
  have hmarks {text text' : String}
      (h : text.toList.map Char.toLower = text'.toList.map Char.toLower) :
      Text.outline text = Text.outline text' := by
    unfold Text.outline
    rw [← List.forall₂_eq_eq_eq, List.forall₂_map_left_iff, List.forall₂_map_right_iff]
    exact (Text.forall₂_toLower_iff.mpr h).imp fun _ _ => Text.mark_eq_of_toLower_eq
  obtain ⟨hschema, hname⟩ := isSame_iff.mp h
  exact Prod.ext (hmarks hschema) (hmarks hname)

theorem IsSame.map_toLower_chars (h : object.IsSame other) :
    object.chars.map Char.toLower = other.chars.map Char.toLower := by
  obtain ⟨hschema, hname⟩ := isSame_iff.mp h
  simp [chars, hschema, hname]

theorem IsSame.tableKey_eq (h : object.IsSame other) : object.tableKey = other.tableKey := by
  have hkeys : (Text.keyChars object.chars).map Char.toLower =
      (Text.keyChars other.chars).map Char.toLower :=
    Text.forall₂_toLower_iff.mp (Text.forall₂_keyChars (fun _ _ => Text.mark_eq_of_toLower_eq) rfl
      (Text.forall₂_toLower_iff.mpr h.map_toLower_chars))
  rw [ObjectName.tableKey_eq, ObjectName.tableKey_eq]
  refine congrArg String.ofList ?_
  rw [← Text.lowerAfter_map_toLower, hkeys, Text.lowerAfter_map_toLower]

/-! ## Names of the same keys -/

theorem sameOutline_chars (h : object.outline = other.outline) :
    Text.SameOutline object.chars other.chars := by
  obtain ⟨hschema, hname⟩ := Prod.ext_iff.mp h
  exact List.rel_append (Text.sameOutline_of_outline_eq hschema)
    (.cons rfl (Text.sameOutline_of_outline_eq hname))

/-- The outline tells where the schema ends. -/
theorem isSame_of_chars (houtline : object.outline = other.outline)
    (h : object.chars.map Char.toLower = other.chars.map Char.toLower) : object.IsSame other := by
  have hlength := (Text.sameOutline_of_outline_eq (Prod.ext_iff.mp houtline).1).length_eq
  unfold chars at h
  rw [List.map_append, List.map_append] at h
  obtain ⟨hschema, hname⟩ := List.append_inj h (by simpa using hlength)
  exact isSame_iff.mpr ⟨hschema, (List.cons.inj hname).2⟩

/-- Names are the same exactly if their keys and their outlines are. -/
theorem isSame_iff_objectKey :
    object.IsSame other ↔ object.objectKey = other.objectKey ∧ object.outline = other.outline := by
  refine ⟨fun h => ⟨objectKey_eq_of_sameObject h, h.outline_eq⟩, fun ⟨hkey, houtline⟩ => ?_⟩
  rw [objectKey_eq, objectKey_eq, String.ofList_inj] at hkey
  exact isSame_of_chars houtline
    (Text.map_toLower_eq_of_lowerAfter_eq (sameOutline_chars houtline) hkey)

/-- Names are the same exactly if their keys for relationships and their outlines are. -/
theorem isSame_iff_tableKey :
    object.IsSame other ↔ object.tableKey = other.tableKey ∧ object.outline = other.outline := by
  refine ⟨fun h => ⟨h.tableKey_eq, h.outline_eq⟩, fun ⟨hkey, houtline⟩ => ?_⟩
  rw [tableKey_eq, tableKey_eq, String.ofList_inj] at hkey
  have hmark := sameOutline_chars houtline
  refine isSame_of_chars houtline (Text.map_toLower_eq_of_keyChars hmark ?_)
  exact Text.map_toLower_eq_of_lowerAfter_eq (Text.forall₂_keyChars (fun _ _ => id) rfl hmark) hkey

/-- No name has a key in common with one of `others` whose outline is another. -/
def TellsApart (key : ObjectName → String) (names others : List ObjectName) : Prop :=
  ∀ object ∈ names, ∀ other ∈ others, key object = key other → object.outline = other.outline

instance (key : ObjectName → String) (names others : List ObjectName) :
    Decidable (TellsApart key names others) :=
  inferInstanceAs (Decidable (∀ object ∈ names, ∀ other ∈ others,
    key object = key other → object.outline = other.outline))

end ObjectName

/-! ## Repeated names -/

namespace Definitions

/-- The object that a name stands for. -/
def objectOf (defs : Definitions) (name : QualifiedName) : ObjectName :=
  ⟨defs.schemaOf name, name.name⟩

/-- The tables, views and procedures, which share their names. -/
def objects (defs : Definitions) : List ObjectName :=
  (defs.tables.map (·.name) ++ defs.views.map (·.name) ++ defs.procedures.map (·.name)).map
    defs.objectOf

/-- The table types and scalar types, which share their names. -/
def types (defs : Definitions) : List ObjectName :=
  (defs.tableTypes.map (·.name) ++ defs.scalarTypes.map (·.name)).map defs.objectOf

end Definitions

/-- Names that their keys tell apart have different keys if none of them are the same. -/
theorem nodup_objectKeys_iff {names : List ObjectName}
    (h : ObjectName.TellsApart ObjectName.objectKey names names) :
    (names.map ObjectName.objectKey).Nodup ↔
      names.Pairwise fun object other => ¬ object.IsSame other := by
  rw [List.Nodup, List.pairwise_map]
  refine List.Pairwise.iff_of_mem fun {object other} hobject hother => ?_
  rw [ObjectName.isSame_iff_objectKey, not_and_or, Ne]
  exact ⟨Or.inl, fun hdiffer => hdiffer.elim id fun houtline hkey =>
    houtline (h object hobject other hother hkey)⟩

/-- A load fails for a name that repeats if the names of its definitions are not accepted. -/
theorem exists_duplicateObject_iff {options : LoadOptions} {statements : List Statement}
    {defs : Definitions}
    (hdefs : Definitions.ofStatements options.defaultSchema statements = defs) :
    (∃ object, buildModel options statements = .error (.duplicateObject object)) ↔
      defs.checkNames ≠ .ok () := by
  constructor
  · rintro ⟨object, h⟩ hnames
    rcases (buildModel_eq_error hdefs).mp h with hfailed | ⟨-, htables | ⟨schema, -, hviews⟩⟩
    · rw [hnames] at hfailed
      cases hfailed
    · rcases buildTables_failsOnlyFor defs _ htables with ⟨_, _, _, h⟩ | ⟨_, _, h⟩ <;> cases h
    · rcases buildViews_failsOnlyFor defs schema _ hviews with ⟨_, h⟩ | ⟨_, _, h⟩ <;> cases h
  · intro hnames
    cases hfailed : defs.checkNames with
    | ok _ => exact absurd hfailed hnames
    | error failure =>
      obtain ⟨object, rfl⟩ := checkNames_failsOnlyFor defs failure hfailed
      exact ⟨object, (buildModel_eq_error hdefs).mpr (.inl hfailed)⟩

/-- If keys tell the names of definitions apart, a load fails for a name that repeats exactly if two
tables, views or procedures are the same, or two types. -/
theorem exists_duplicateObject_iff_of_tellsApart {options : LoadOptions}
    {statements : List Statement} {defs : Definitions}
    (hdefs : Definitions.ofStatements options.defaultSchema statements = defs)
    (hobjects : ObjectName.TellsApart ObjectName.objectKey defs.objects defs.objects)
    (htypes : ObjectName.TellsApart ObjectName.objectKey defs.types defs.types) :
    (∃ object, buildModel options statements = .error (.duplicateObject object)) ↔
      ¬ (defs.objects.Pairwise fun object other => ¬ object.IsSame other) ∨
      ¬ defs.types.Pairwise fun object other => ¬ object.IsSame other := by
  have hkeys (names : List QualifiedName) :
      names.map defs.keyOf = (names.map defs.objectOf).map ObjectName.objectKey := by
    rw [List.map_map]
    rfl
  rw [exists_duplicateObject_iff hdefs, Ne, Definitions.checkNames_eq_ok, hkeys, hkeys,
    not_and_or]
  exact or_congr (not_congr (nodup_objectKeys_iff hobjects)) (not_congr (nodup_objectKeys_iff htypes))

/-! ## Ends of foreign keys -/

/-- The table that a foreign key belongs to. -/
def ForeignKey.ownerName (key : ForeignKey) : ObjectName := ⟨key.schema, key.table⟩

/-- The table that a foreign key refers to. -/
def ForeignKey.referencedName (key : ForeignKey) : ObjectName :=
  ⟨key.referenced.schema.getD "", key.referenced.table⟩

/-- The schema and the name of a table, a view or a table type. -/
def Relation.objectName (object : Relation) : ObjectName := ⟨object.schema, object.name⟩

/-- Among names of one outline, keys for relationships find the same tables. -/
theorem tableKey_eq_iff {object other : ObjectName}
    (h : object.tableKey = other.tableKey → object.outline = other.outline) :
    object.tableKey = other.tableKey ↔ object.IsSame other := by
  rw [ObjectName.isSame_iff_tableKey]
  exact ⟨fun hkey => ⟨hkey, h hkey⟩, And.left⟩

/-- What the foreign keys of a table make one of its columns refer to. -/
def parentsOf (keys : List ForeignKey) (table : ObjectName) (column : String) : List KeySide :=
  (keys.filter fun key => key.ownerName.IsSame table ∧
    ∃ name ∈ key.columns, Text.sameText name column = true).map (·.referenced)

/-- The owners of the foreign keys that refer to a column of a table. -/
def childrenOf (keys : List ForeignKey) (table : ObjectName) (column : String) : List KeySide :=
  (keys.filter fun key => key.referencedName.IsSame table ∧
    ∃ name ∈ key.referenced.columns, Text.sameText name column = true).map ForeignKey.owner

theorem isFrom_iff {key : ForeignKey} {table : ObjectName} {column : String} :
    key.IsFrom table.schema table.name column ↔ key.ownerName.tableKey = table.tableKey ∧
      ∃ name ∈ key.columns, Text.sameText name column = true :=
  Iff.rfl

theorem isTo_iff {key : ForeignKey} {table : ObjectName} {column : String} :
    key.IsTo table.schema table.name column ↔ key.referencedName.tableKey = table.tableKey ∧
      ∃ name ∈ key.referenced.columns, Text.sameText name column = true :=
  Iff.rfl

theorem parents_ofList_of_tellsApart {keys : List ForeignKey} {table : ObjectName} (column : String)
    (h : ObjectName.TellsApart ObjectName.tableKey (keys.map ForeignKey.ownerName) [table]) :
    (RelationshipIndex.ofList keys).parents table.schema table.name column =
      parentsOf keys table column := by
  rw [RelationshipIndex.parents_ofList, parentsOf]
  refine congrArg (List.map _) (List.filter_congr fun key hkey => ?_)
  rw [decide_eq_decide, isFrom_iff,
    tableKey_eq_iff (h _ (List.mem_map_of_mem hkey) table List.mem_cons_self)]

theorem children_ofList_of_tellsApart {keys : List ForeignKey} {table : ObjectName}
    (column : String)
    (h : ObjectName.TellsApart ObjectName.tableKey (keys.map ForeignKey.referencedName) [table]) :
    (RelationshipIndex.ofList keys).children table.schema table.name column =
      childrenOf keys table column := by
  rw [RelationshipIndex.children_ofList, childrenOf]
  refine congrArg (List.map _) (List.filter_congr fun key hkey => ?_)
  rw [decide_eq_decide, isTo_iff,
    tableKey_eq_iff (h _ (List.mem_map_of_mem hkey) table List.mem_cons_self)]

/-- The columns of the tables of a loaded model have the relationships that an index of the foreign
keys gives. -/
theorem exists_tables_of_loaded {options : LoadOptions} {statements : List Statement}
    {loaded : LoadedModel} (h : buildModel options statements = .ok loaded) :
    ∃ tables : List Relation, loaded.model.tables = tables.map
      (withRelationships (.ofList loaded.model.relationships.foreignKeys)) := by
  obtain ⟨schema, views, -, hschema, -, rfl⟩ := buildModel_eq_ok.mp h
  obtain ⟨aliases, shapes, tables, -, -, -, rfl⟩ := buildTables_eq_ok.mp hschema
  exact ⟨tables, rfl⟩

/-- If keys tell a table of a loaded model apart from the ends of foreign keys, its columns have the
relationships of the foreign keys that name it. -/
theorem relationships_of_tellsApart {options : LoadOptions} {statements : List Statement}
    {loaded : LoadedModel} (h : buildModel options statements = .ok loaded) {table : Relation}
    (htable : table ∈ loaded.model.tables)
    (howners : ObjectName.TellsApart ObjectName.tableKey
      (loaded.model.relationships.foreignKeys.map ForeignKey.ownerName) [table.objectName])
    (hreferenced : ObjectName.TellsApart ObjectName.tableKey
      (loaded.model.relationships.foreignKeys.map ForeignKey.referencedName) [table.objectName]) :
    ∀ column ∈ table.columns,
      column.parents =
        parentsOf loaded.model.relationships.foreignKeys table.objectName column.name ∧
      column.children =
        childrenOf loaded.model.relationships.foreignKeys table.objectName column.name := by
  obtain ⟨tables, htables⟩ := exists_tables_of_loaded h
  rw [htables] at htable
  obtain ⟨bare, -, rfl⟩ := List.mem_map.mp htable
  intro column hcolumn
  obtain ⟨built, -, rfl⟩ := List.mem_map.mp hcolumn
  have hparents := parents_ofList_of_tellsApart built.name howners
  have hchildren := children_ofList_of_tellsApart built.name hreferenced
  exact ⟨hparents, hchildren⟩

/-! ## Objects of a load -/

/-- Schema and name are the same without regard to ASCII case exactly if the keys are, of either
kind, and the outlines. So, as far as no two names have one key and different outlines, a load fails
for a name that repeats exactly if two tables, views or procedures or two types are the same, and the
columns of a table have the relationships of the foreign keys that name the table. -/
theorem keys_identify_objects (options : LoadOptions) (statements : List Statement) :
    (∀ object other : ObjectName,
      (object.IsSame other ↔
        object.objectKey = other.objectKey ∧ object.outline = other.outline) ∧
      (object.IsSame other ↔
        object.tableKey = other.tableKey ∧ object.outline = other.outline)) ∧
    let defs := Definitions.ofStatements options.defaultSchema statements
    (ObjectName.TellsApart ObjectName.objectKey defs.objects defs.objects →
      ObjectName.TellsApart ObjectName.objectKey defs.types defs.types →
      ((∃ object, buildModel options statements = .error (.duplicateObject object)) ↔
        ¬ (defs.objects.Pairwise fun object other => ¬ object.IsSame other) ∨
        ¬ defs.types.Pairwise fun object other => ¬ object.IsSame other)) ∧
    ∀ loaded, buildModel options statements = .ok loaded →
      let keys := loaded.model.relationships.foreignKeys
      ∀ table ∈ loaded.model.tables,
        ObjectName.TellsApart ObjectName.tableKey (keys.map ForeignKey.ownerName)
          [table.objectName] →
        ObjectName.TellsApart ObjectName.tableKey (keys.map ForeignKey.referencedName)
          [table.objectName] →
        ∀ column ∈ table.columns,
          column.parents = parentsOf keys table.objectName column.name ∧
          column.children = childrenOf keys table.objectName column.name := by
  refine ⟨fun object other =>
    ⟨ObjectName.isSame_iff_objectKey, ObjectName.isSame_iff_tableKey⟩, ?_⟩
  intro defs
  refine ⟨exists_duplicateObject_iff_of_tellsApart rfl, ?_⟩
  intro loaded hloaded keys table htable howners hreferenced
  exact relationships_of_tellsApart hloaded htable howners hreferenced

/-- Quoted names with blanks, dots and letters beyond ASCII: a table and a procedure of the same name
in other letters, and a table that a foreign key names in other letters. -/
theorem keys_identify_quoted_names :
    (∃ statements object, statementsOf?
        ["create table [x y].[ä.b] (id int)",
          "create procedure [X Y].[ä.B] as select 1 as a"] = some statements ∧
      buildModel {} statements = .error (.duplicateObject object)) ∧
    ∃ statements loaded, statementsOf?
        ["create table [x y].[ä.b] (id int primary key)",
          "create table t (r int references [X Y].[ä.B](id))"] = some statements ∧
      buildModel {} statements = .ok loaded ∧
      ∃ table ∈ loaded.model.tables, table.objectName = ⟨"x y", "ä.b"⟩ ∧
        ∃ column ∈ table.columns, column.children = [⟨none, some "dbo", "t", ["r"]⟩] ∧
          column.children = childrenOf loaded.model.relationships.foreignKeys table.objectName
            column.name := by
  constructor
  · -- The condition that the keys tell the names apart is decided, and the general theorem is used
    -- on it.
    have htest : ((statementsOf?
        ["create table [x y].[ä.b] (id int)",
          "create procedure [X Y].[ä.B] as select 1 as a"]).any fun statements =>
        let defs := Definitions.ofStatements "dbo" statements
        decide (ObjectName.TellsApart ObjectName.objectKey defs.objects defs.objects ∧
          ObjectName.TellsApart ObjectName.objectKey defs.types defs.types ∧
          ¬ defs.objects.Pairwise fun object other => ¬ object.IsSame other)) = true := by
      decide +kernel
    obtain ⟨statements, hstatements, htest⟩ := (Option.any_eq_true _ _).mp htest
    obtain ⟨hobjects, htypes, hrepeats⟩ := of_decide_eq_true htest
    obtain ⟨object, hobject⟩ :=
      ((keys_identify_objects {} statements).2.1 hobjects htypes).mpr (.inl hrepeats)
    exact ⟨statements, object, hstatements, hobject⟩
  · obtain ⟨statements, loaded, hstatements, hloaded, htest⟩ :=
      exists_loaded_of_any
        ["create table [x y].[ä.b] (id int primary key)",
          "create table t (r int references [X Y].[ä.B](id))"]
        (fun _ loaded => loaded.model.tables.any fun table =>
          table.objectName == ⟨"x y", "ä.b"⟩ &&
          decide (ObjectName.TellsApart ObjectName.tableKey
            (loaded.model.relationships.foreignKeys.map ForeignKey.ownerName)
            [table.objectName]) &&
          decide (ObjectName.TellsApart ObjectName.tableKey
            (loaded.model.relationships.foreignKeys.map ForeignKey.referencedName)
            [table.objectName]) &&
          table.columns.any fun column => column.children == [⟨none, some "dbo", "t", ["r"]⟩])
        (by decide +kernel)
    obtain ⟨table, htable, htest⟩ := List.any_eq_true.mp htest
    simp only [Bool.and_eq_true, decide_eq_true_eq, beq_iff_eq] at htest
    obtain ⟨⟨⟨hname, howners⟩, hreferenced⟩, hcolumn⟩ := htest
    obtain ⟨column, hcolumn, hchildren⟩ := List.any_eq_true.mp hcolumn
    obtain ⟨-, hscan⟩ := (keys_identify_objects {} statements).2.2 loaded hloaded table htable
      howners hreferenced column hcolumn
    exact ⟨statements, loaded, hstatements, hloaded, table, htable, hname, column, hcolumn,
      beq_iff_eq.mp hchildren, hscan⟩

/-- Names that are not the same with one key: a dot within the schema or within the name, a letter
beyond ASCII in both of its cases, and blanks about a name, which only relationships ignore. Two
tables of the first pair do not load. -/
theorem keys_confuse_objects :
    (∀ pair ∈ [((⟨"a.b", "c"⟩, ⟨"a", "b.c"⟩) : ObjectName × ObjectName),
        (⟨"dbo", "É"⟩, ⟨"dbo", "é"⟩)],
      ¬ pair.1.IsSame pair.2 ∧ pair.1.objectKey = pair.2.objectKey ∧
        pair.1.tableKey = pair.2.tableKey) ∧
    (let blanks : ObjectName := ⟨"dbo", " a "⟩
      let plain : ObjectName := ⟨"dbo", "a"⟩
      ¬ blanks.IsSame plain ∧ blanks.objectKey ≠ plain.objectKey ∧
        blanks.tableKey = plain.tableKey) ∧
    ∃ statements, statementsOf?
        ["create table [a.b].c (id int)", "create table a.[b.c] (id int)"] = some statements ∧
      (Definitions.ofStatements "dbo" statements).objects = [⟨"a.b", "c"⟩, ⟨"a", "b.c"⟩] ∧
      buildModel {} statements = .error (.duplicateObject "[a].[b.c]") := by
  refine ⟨by decide +kernel, by decide +kernel, ?_⟩
  have htest : ((statementsOf?
      ["create table [a.b].c (id int)", "create table a.[b.c] (id int)"]).any fun statements =>
      decide ((Definitions.ofStatements "dbo" statements).objects =
          [⟨"a.b", "c"⟩, ⟨"a", "b.c"⟩] ∧
        (Definitions.ofStatements "dbo" statements).checkNames =
          .error (.duplicateObject "[a].[b.c]"))) = true := by
    decide +kernel
  obtain ⟨statements, hstatements, htest⟩ := (Option.any_eq_true _ _).mp htest
  obtain ⟨hobjects, hnames⟩ := of_decide_eq_true htest
  exact ⟨statements, hstatements, hobjects, (buildModel_eq_error rfl).mpr (.inl hnames)⟩

end SchemaPlan
