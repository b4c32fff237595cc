import SchemaPlan.Proofs.Schema.Independence
import SchemaPlan.Proofs.Schema.Names
import SchemaPlan.Proofs.Schema.Relationships
import Mathlib.Data.List.Nodup
import Mathlib.Data.List.Perm.Basic

/-!
# Definitions in another order

Types, tables and added constraints are collected before anything is built of them. So in another
order they have the same names, their columns have the same types, and a primary key has the same
columns, though these may change their order and, where a column is listed twice, their letters.

* `withoutRepeats_perm`: names without repetitions, in another order.
* `Definitions.Rearranges.buildTables`: the types and tables of rearranged definitions.
-/

namespace SchemaPlan

open SchemaPlan.Sql

/-! ## Lists in another order -/

section Lists

variable {ε α β : Type}

theorem mapM_of_forall₂ {f : α → Except ε β} {xs : List α} {ys : List β}
    (h : List.Forall₂ (fun x y => f x = .ok y) xs ys) : xs.mapM f = .ok ys := by
  induction h with
  | nil => rfl
  | cons hfirst _ ih =>
    rw [List.mapM_cons, hfirst, ih]
    rfl

/-- What is built of elements one by one is built of them in any order. -/
theorem exists_mapM_of_perm {f : α → Except ε β} {xs reordered : List α} {ys : List β}
    (hperm : reordered.Perm xs) (h : xs.mapM f = .ok ys) :
    ∃ built, reordered.mapM f = .ok built ∧ built.Perm ys := by
  obtain ⟨built, hbuilt, hys⟩ := List.perm_comp_forall₂ hperm (forall₂_of_mapM h)
  exact ⟨built, mapM_of_forall₂ hbuilt, hys⟩

/-- What is found is the same in any order if there is only one to find. -/
theorem find?_perm {p : α → Bool} {xs reordered : List α} (hperm : reordered.Perm xs)
    (hunique : ∀ x ∈ xs, ∀ y ∈ xs, p x = true → p y = true → x = y) :
    reordered.find? p = xs.find? p := by
  cases hfound : xs.find? p with
  | none =>
    rw [List.find?_eq_none] at hfound ⊢
    exact fun x hx => hfound x (hperm.mem_iff.mp hx)
  | some x =>
    have hx := List.mem_of_find?_eq_some hfound
    have hpx := List.find?_some hfound
    cases hagain : reordered.find? p with
    | none => exact absurd hpx (List.find?_eq_none.mp hagain x (hperm.mem_iff.mpr hx))
    | some y =>
      have hy := hperm.mem_iff.mp (List.mem_of_find?_eq_some hagain)
      rw [hunique y hy x hx (List.find?_some hagain) hpx]

/-- What is built of elements has their keys. -/
theorem map_key_of_mapM {f : α → Except ε β} {xs : List α} {ys : List β} {key : β → String}
    {keyOf : α → String} (h : xs.mapM f = .ok ys) (hkey : ∀ x y, f x = .ok y → key y = keyOf x) :
    ys.map key = xs.map keyOf := by
  have hall := forall₂_of_mapM h
  induction hall with
  | nil => rfl
  | cons hfirst hrest ih =>
    rw [List.map_cons, List.map_cons, hkey _ _ hfirst, ih (mapM_of_forall₂ hrest)]

end Lists

/-! ## Names up to ASCII case -/

section Names

variable {names renamed : List String}

theorem any_sameText_eq_contains (name : String) :
    names.any (Text.sameText · name) =
      (names.map Text.asciiLower).contains (Text.asciiLower name) := by
  rw [Bool.eq_iff_iff, any_sameText_iff, List.contains_iff_mem, List.mem_map]
  simp only [Text.sameText_iff]

/-- Names that are the same up to their order and ASCII case list the same names. -/
theorem any_sameText_perm
    (h : (renamed.map Text.asciiLower).Perm (names.map Text.asciiLower)) (name : String) :
    renamed.any (Text.sameText · name) = names.any (Text.sameText · name) := by
  rw [any_sameText_eq_contains, any_sameText_eq_contains]
  exact h.contains_eq

theorem mem_lower_withoutRepeats {text : String} :
    text ∈ (Definitions.withoutRepeats [] names).map Text.asciiLower ↔
      text ∈ names.map Text.asciiLower := by
  obtain ⟨hsublist, -, hcovers⟩ := withoutRepeats_isReduced names
  constructor
  · exact fun h => (hsublist.map _).subset h
  · intro h
    obtain ⟨name, hname, rfl⟩ := List.mem_map.mp h
    obtain ⟨kept, hkept, hsame⟩ := hcovers name hname
    exact List.mem_map.mpr ⟨kept, hkept, (Text.sameText_iff _ _).mp hsame⟩

theorem nodup_lower_withoutRepeats (names : List String) :
    ((Definitions.withoutRepeats [] names).map Text.asciiLower).Nodup := by
  rw [List.Nodup, List.pairwise_map]
  refine (withoutRepeats_isReduced names).distinct.imp ?_
  intro name other hdistinct hsame
  rw [(Text.sameText_iff name other).mpr hsame] at hdistinct
  cases hdistinct

/-- Names in another order without their repetitions are the same up to their order and ASCII
case. -/
theorem withoutRepeats_perm (h : renamed.Perm names) :
    ((Definitions.withoutRepeats [] renamed).map Text.asciiLower).Perm
      ((Definitions.withoutRepeats [] names).map Text.asciiLower) := by
  refine (List.perm_ext_iff_of_nodup (nodup_lower_withoutRepeats _)
    (nodup_lower_withoutRepeats _)).mpr fun text => ?_
  rw [mem_lower_withoutRepeats, mem_lower_withoutRepeats]
  exact (h.map _).mem_iff

end Names

/-! ## Rearranged definitions -/

/-- The same definitions, with the types, the tables and the added constraints in another order. -/
structure Definitions.Rearranges (other defs : Definitions) : Prop where
  defaultSchema : other.defaultSchema = defs.defaultSchema
  tables : other.tables.Perm defs.tables
  tableTypes : other.tableTypes.Perm defs.tableTypes
  scalarTypes : other.scalarTypes.Perm defs.scalarTypes
  addedConstraints : other.addedConstraints.Perm defs.addedConstraints
  views : other.views = defs.views
  procedures : other.procedures = defs.procedures

namespace Definitions.Rearranges

variable {other defs : Definitions}

theorem checkNames (h : other.Rearranges defs) (hnames : defs.checkNames = .ok ()) :
    other.checkNames = .ok () := by
  rw [Definitions.checkNames_eq_ok] at hnames ⊢
  rw [Definitions.keyOf_congr h.defaultSchema, h.views, h.procedures]
  constructor
  · have hperm := ((h.tables.map (·.name)).append_right (defs.views.map (·.name))).append_right
      (defs.procedures.map (·.name))
    exact (hperm.map _).nodup_iff.mpr hnames.1
  · have hperm := (h.tableTypes.map (·.name)).append (h.scalarTypes.map (·.name))
    exact (hperm.map _).nodup_iff.mpr hnames.2

/-! ### Keys -/

theorem keyDeclarations (h : other.Rearranges defs) :
    other.keyDeclarations.Perm defs.keyDeclarations :=
  (h.tables.map _).append (h.addedConstraints.filterMap _)

/-- A primary key keeps its columns, up to their order and ASCII case. -/
theorem primaryKey (h : other.Rearranges defs) (key : String) :
    ((other.primaryKey key).map Text.asciiLower).Perm
      ((defs.primaryKey key).map Text.asciiLower) := by
  unfold Definitions.primaryKey
  rw [Definitions.keyOf_congr h.defaultSchema]
  exact withoutRepeats_perm (((h.keyDeclarations.filter _).map _).flatten)

/-! ### Types -/

theorem map_objectKey_of_aliasTypes {aliases : List AliasType}
    (haliases : defs.scalarTypes.mapM (aliasType defs) = .ok aliases) :
    aliases.map (fun label => Definitions.objectKey label.schema label.name) =
      defs.scalarTypes.map fun scalar => defs.keyOf scalar.name := by
  refine map_key_of_mapM haliases fun scalar label hlabel => ?_
  unfold aliasType at hlabel
  dsimp only at hlabel
  split at hlabel
  · obtain rfl := Except.ok.inj hlabel
    rfl
  · cases hlabel

theorem nodup_aliasKeys (hnames : defs.checkNames = .ok ()) {aliases : List AliasType}
    (haliases : defs.scalarTypes.mapM (aliasType defs) = .ok aliases) :
    (aliases.map fun label => Definitions.objectKey label.schema label.name).Nodup := by
  have hnodup := (Definitions.checkNames_eq_ok.mp hnames).2
  rw [List.map_append, List.map_map, List.map_map] at hnodup
  rw [map_objectKey_of_aliasTypes haliases]
  exact (List.nodup_append.mp hnodup).2.1

end Definitions.Rearranges

/-! ### Lookups -/

/-- What has distinct keys is found alike in any order. -/
theorem find?_sameObject_perm {α : Type} {schemaOf nameOf : α → String} {xs reordered : List α}
    (hperm : reordered.Perm xs)
    (hnodup : (xs.map fun x => Definitions.objectKey (schemaOf x) (nameOf x)).Nodup)
    (schema name : String) :
    (reordered.find? fun x => sameObject (schemaOf x) (nameOf x) schema name) =
      xs.find? fun x => sameObject (schemaOf x) (nameOf x) schema name := by
  refine find?_perm hperm ?_
  intro x hx y hy hsame hsame'
  exact List.inj_on_of_nodup_map hnodup hx hy
    ((objectKey_eq_of_sameObject hsame).trans (objectKey_eq_of_sameObject hsame').symm)

theorem resolveType?_perm {aliases realiases : List AliasType} (hperm : realiases.Perm aliases)
    (hnodup : (aliases.map fun label => Definitions.objectKey label.schema label.name).Nodup)
    (defaultSchema : String) (declared : DeclaredType) :
    resolveType? defaultSchema realiases declared = resolveType? defaultSchema aliases declared := by
  unfold resolveType?
  dsimp only
  rw [find?_sameObject_perm hperm hnodup]

/-! ## Types and tables -/

namespace Definitions.Rearranges

variable {other defs : Definitions}

theorem nodup_tableKeys (hnames : defs.checkNames = .ok ()) {aliases : List AliasType}
    {tables : List Relation} (htables : defs.tables.mapM (buildTable defs aliases) = .ok tables) :
    (tables.map fun table => Definitions.objectKey table.schema table.name).Nodup := by
  have hnodup := (Definitions.checkNames_eq_ok.mp hnames).1
  rw [List.map_append, List.map_append, List.map_map] at hnodup
  have hkeys : (tables.map fun table => Definitions.objectKey table.schema table.name) =
      defs.tables.map fun table => defs.keyOf table.name := by
    refine map_key_of_mapM htables fun definition table htable => ?_
    unfold buildTable buildRelation at htable
    obtain ⟨columns, -, htable⟩ := bind_eq_ok.mp htable
    obtain rfl := Except.ok.inj htable
    rfl
  rw [hkeys]
  exact (List.nodup_append.mp (List.nodup_append.mp hnodup).1).1

theorem buildTable_eq (h : other.Rearranges defs) {aliases realiases : List AliasType}
    (hresolve : ∀ declared, resolveType? defs.defaultSchema realiases declared =
      resolveType? defs.defaultSchema aliases declared) :
    buildTable other realiases = buildTable defs aliases := by
  funext definition
  unfold buildTable
  rw [Definitions.keyOf_congr h.defaultSchema]
  exact buildRelation_congr h.defaultSchema hresolve (any_sameText_perm (h.primaryKey _)) definition

/-- Rearranged definitions have the same types and tables, in another order, and apart from the
relationships of the tables. -/
theorem buildTables (h : other.Rearranges defs) (hnames : defs.checkNames = .ok ())
    {schema : SchemaModel} (hschema : SchemaPlan.buildTables defs = .ok schema) :
    ∃ (reschema : SchemaModel) (tables retables : List Relation), SchemaPlan.buildTables other = .ok reschema ∧
      reschema.aliasTypes.Perm schema.aliasTypes ∧ reschema.tableTypes.Perm schema.tableTypes ∧
      schema.tables = tables.map (withRelationships (.ofList defs.foreignKeys)) ∧
      reschema.tables = retables.map (withRelationships (.ofList other.foreignKeys)) ∧
      retables.Perm tables ∧
      (tables.map fun table => Definitions.objectKey table.schema table.name).Nodup := by
  obtain ⟨aliases, shapes, tables, haliases, hshapes, htables, rfl⟩ := buildTables_eq_ok.mp hschema
  obtain ⟨realiases, hrealiases, haliasPerm⟩ := exists_mapM_of_perm h.scalarTypes haliases
  have hresolve : ∀ declared, resolveType? defs.defaultSchema realiases declared =
      resolveType? defs.defaultSchema aliases declared :=
    resolveType?_perm haliasPerm (nodup_aliasKeys hnames haliases) defs.defaultSchema
  obtain ⟨reshapes, hreshapes, hshapePerm⟩ := exists_mapM_of_perm h.tableTypes hshapes
  obtain ⟨retables, hretables, htablePerm⟩ := exists_mapM_of_perm h.tables htables
  rw [← aliasType_congr h.defaultSchema] at hrealiases
  rw [← buildTable_eq h hresolve] at hretables
  have hshape : buildRelation other realiases [] = buildRelation defs aliases [] := by
    funext definition
    exact buildRelation_congr h.defaultSchema hresolve (fun _ => rfl) definition
  rw [← hshape] at hreshapes
  exact ⟨_, tables, retables, buildTables_eq_ok.mpr
    ⟨realiases, reshapes, retables, hrealiases, hreshapes, hretables, rfl⟩, haliasPerm, hshapePerm,
    rfl, rfl, htablePerm, nodup_tableKeys hnames htables⟩

end Definitions.Rearranges

end SchemaPlan
