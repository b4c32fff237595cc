import SchemaPlan.Proofs.Query.Names
import SchemaPlan.Proofs.Resolve.Nullability

/-!
# What a qualifier designates

A qualifier should stand for the source that is exposed under it or, where there is none, for the
only source that holds an object of that name. An exposed name is always found. Otherwise the first
source whose name ends in the qualifier is taken, even if there are several objects of that name or
this source holds none: in `SELECT a.id FROM a x JOIN a y ON ..` the qualifier stands for `x`.

* `qualifier_designates_iff`: exactly when a qualifier that resolves is used for the source that it
  designates.
-/

namespace SchemaPlan

open SchemaPlan.Sql SchemaPlan.Query

/-! ## Scopes -/

/-- The scope of a select: its sources and the names under which these are exposed. -/
def Resolver.scope (r : Resolver) (ctes : List CteShape) (sources : List JoinedSource) :
    Except ResolveError Scope := do
  let tree ← JoinTree.ofSources sources
  let names ← SourceNames.ofTree tree
  let found ← r.sources ctes (forcedNames tree) sources
  return ⟨found, names⟩

/-- The sources of a select make a scope, from the leaves of a join tree. -/
structure Resolver.HasScope (r : Resolver) (ctes : List CteShape) (sources : List JoinedSource)
    (scope : Scope) (tree : Option JoinTree) (tables : List LeafTable) : Prop where
  resolves : r.scope ctes sources = .ok scope
  ofSources : JoinTree.ofSources sources = .ok tree
  leafTables : ((tree.map JoinTree.leaves).getD []).mapM (r.leafTable ctes) = .ok tables

/-- No two leaves are exposed under one name. -/
def UniquelyExposed (tables : List LeafTable) : Prop :=
  ∀ (i j : Nat) (first second : LeafTable) (qualifier : String), tables[i]? = some first →
    tables[j]? = some second → first.isExposedAs qualifier = true →
    second.isExposedAs qualifier = true → i = j

namespace Resolver

variable {r : Resolver} {ctes : List CteShape} {sources : List JoinedSource} {scope : Scope}
  {tree : Option JoinTree} {tables : List LeafTable}

/-- A scope shows the leaves of its join tree, no two of which are exposed under one name. -/
theorem exists_shows_of_scope (h : r.scope ctes sources = .ok scope) :
    ∃ tree tables, r.HasScope ctes sources scope tree tables ∧
      Shows scope (forcedNames tree) tables ∧ UniquelyExposed tables := by
  have hscope := h
  obtain ⟨tree, htree, h⟩ := bind_eq_ok.mp h
  obtain ⟨names, hnames, h⟩ := bind_eq_ok.mp h
  obtain ⟨found, hfound, h⟩ := bind_eq_ok.mp h
  obtain rfl := Except.ok.inj h
  cases tree with
  | some whole =>
    obtain ⟨tables, htables, hsources⟩ := sources_eq_map htree hfound
    have hleaves := map_leaf_of_mapM htables
    refine ⟨some whole, tables, ⟨hscope, htree, htables⟩, shows_of_ofTree hnames hleaves hsources, ?_⟩
    intro i j first second qualifier hi hj hfirst hsecond
    exact SourceNames.uniqueNames_of_ofTree hnames i j _
      ((isExposedAs_iff hleaves hi qualifier).mp hfirst)
      ((isExposedAs_iff hleaves hj qualifier).mp hsecond)
  | none =>
    -- Without sources there are no leaves, and the scope shows none.
    have hnil := Resolver.sources_eq_nil_of_ofSources htree
    rw [hnil, Resolver.sources] at hfound
    refine ⟨none, [], ⟨hscope, htree, rfl⟩, ⟨(Except.ok.inj hfound).symm, fun qualifier => ?_⟩, ?_⟩
    · rw [← Except.ok.inj hnames]
      rfl
    · intro i j first second qualifier hi
      cases hi

theorem HasScope.shows (h : r.HasScope ctes sources scope tree tables) :
    Shows scope (forcedNames tree) tables ∧ UniquelyExposed tables := by
  obtain ⟨tree', tables', h', hshows⟩ := exists_shows_of_scope h.resolves
  obtain rfl := Except.ok.inj (h.ofSources.symm.trans h'.ofSources)
  obtain rfl := Except.ok.inj (h.leafTables.symm.trans h'.leafTables)
  exact hshows

end Resolver

section Lookup

variable {scope : Scope} {forced : List String} {tables : List LeafTable}

/-- A result column is a column of a leaf, or cannot be traced any further than to the leaf. -/
def LeafTable.Gives (forced : List String) (table : LeafTable) (result : ResultColumn) : Prop :=
  ∃ name, (∃ columns, table.columns = some columns ∧ ∃ own ∈ columns,
      result = tracedColumn name (table.source forced) own) ∨
    table.columns = none ∧
      result = untracedColumn name (.unknownSource (some (table.source forced).identifier))

/-- A qualified reference gives a column of the leaf that its qualifier names. -/
theorem gives_of_reference (h : Shows scope forced tables) {qualifier column shown : String}
    {label : Option String} {result : ResultColumn}
    (hresult : scope.reference (some qualifier) column label shown = .ok result) :
    ∃ i table, leafNamed? tables qualifier = some i ∧ tables[i]? = some table ∧
      table.Gives forced result := by
  obtain ⟨found, hfound, hresult⟩ := bind_eq_ok.mp hresult
  obtain ⟨source, hsource, hfound⟩ := bind_eq_ok.mp hfound
  obtain ⟨i, table, hleaf, htable, rfl⟩ := sourceNamed_eq_ok h hsource
  refine ⟨i, table, hleaf, htable, label.getD column, ?_⟩
  split at hfound
  · rename_i hunknown
    obtain rfl := Except.ok.inj hfound
    exact Or.inr ⟨Option.isNone_iff_eq_none.mp hunknown, (Except.ok.inj hresult).symm⟩
  · split at hfound
    · rename_i own hown
      obtain rfl := Except.ok.inj hfound
      obtain ⟨columns, hcolumns, hown⟩ := Option.bind_eq_some_iff.mp hown
      exact Or.inl ⟨columns, hcolumns, own, List.mem_of_find?_eq_some hown,
        (Except.ok.inj hresult).symm⟩
    · cases hfound

/-- A star gives columns of the leaf that its qualifier names. -/
theorem gives_of_expandStar (h : Shows scope forced tables) {qualifier : String}
    {results : List ResultColumn} (hresults : scope.expandStar (some qualifier) = .ok results) :
    ∃ i table, leafNamed? tables qualifier = some i ∧ tables[i]? = some table ∧
      ∀ result ∈ results, table.Gives forced result := by
  obtain ⟨source, hsource, hresults⟩ := bind_eq_ok.mp hresults
  obtain ⟨i, table, hleaf, htable, rfl⟩ := sourceNamed_eq_ok h hsource
  refine ⟨i, table, hleaf, htable, fun result hresult => ?_⟩
  unfold Scope.allColumns at hresults
  split at hresults
  · cases hresults
  · rename_i columns hcolumns
    obtain rfl := Except.ok.inj hresults
    rw [List.append_nil] at hresult
    obtain ⟨own, hown, rfl⟩ := List.mem_map.mp hresult
    exact ⟨own.name, Or.inl ⟨columns, hcolumns, own, hown, rfl⟩⟩

end Lookup

/-! ## Qualified items -/

/-- An item with a qualifier, and the text that this is read as. That of a reference is the value
of the name, that of a star is found in the text of the star. -/
inductive ReadsQualifier : SelectItem → Ident → String → Prop where
  | unnamed {expr : Expr} {parts : List Ident} {qualifier column : Ident}
      (hexpr : Scope.unnested (Scope.aliasedValue expr none).1 = .compound parts)
      (hparts : Scope.lastTwo? parts = some (qualifier, column)) :
      ReadsQualifier (.unnamed expr) qualifier qualifier.value
  | aliased {expr : Expr} {label : Ident} {parts : List Ident} {qualifier column : Ident}
      (hexpr : Scope.unnested (Scope.aliasedValue expr (some label.value)).1 = .compound parts)
      (hparts : Scope.lastTwo? parts = some (qualifier, column)) :
      ReadsQualifier (.aliased expr label) qualifier qualifier.value
  | star {parts : List Ident} {qualifier : Ident} (hparts : parts.getLast? = some qualifier) :
      ReadsQualifier (.qualifiedWildcard parts) qualifier (starName parts)

/-- An item is a star with a qualifier. -/
def IsQualifiedStar (item : SelectItem) : Prop := ∃ parts, item = .qualifiedWildcard parts

/-- The qualifier is read as the value of its name, unless it is that of a star and has a period or
is not kept by its quotes. -/
theorem ReadsQualifier.eq_value_iff {item : SelectItem} {qualifier : Ident} {read : String}
    (h : ReadsQualifier item qualifier read) (hspelled : qualifier.IsSpelled) :
    read = qualifier.value ↔
      (IsQualifiedStar item → '.' ∉ qualifier.value.toList ∧ qualifier.KeepsValue) := by
  cases h with
  | unnamed hexpr hparts =>
    refine iff_of_true rfl ?_
    rintro ⟨parts, h⟩
    cases h
  | aliased hexpr hparts =>
    refine iff_of_true rfl ?_
    rintro ⟨parts, h⟩
    cases h
  | star hparts =>
    rw [starName_eq_iff hparts hspelled]
    exact ⟨fun h _ => h, fun h => h ⟨_, rfl⟩⟩

section Items

variable {scope : Scope} {forced : List String} {tables : List LeafTable}

/-- A projected name of several parts is looked up by its last two. -/
theorem projected_compound {expr : Expr} {label : Option String} {parts : List Ident}
    {qualifier column : Ident} (scope : Scope) (ordinal : Nat)
    (hexpr : Scope.unnested (Scope.aliasedValue expr label).1 = .compound parts)
    (hparts : Scope.lastTwo? parts = some (qualifier, column)) :
    scope.projected expr label ordinal =
      scope.reference (some qualifier.value) column.value (Scope.aliasedValue expr label).2
        (Text.joinWith "." (nameValues parts)) := by
  unfold Scope.projected
  dsimp only
  rw [hexpr]
  dsimp only
  rw [hparts]

/-- A star is expanded by the qualifier that is read for it. -/
theorem item_qualifiedWildcard (scope : Scope) (ordinal : Nat) (parts : List Ident) :
    scope.item ordinal (.qualifiedWildcard parts) =
      scope.sourceNamed (starName parts) (starName parts ++ ".*") >>= fun source =>
        Scope.allColumns (starName parts ++ ".*") [source] := rfl

/-- A projected name that resolves gives a column of the leaf that its qualifier names. -/
theorem gives_of_projected (h : Shows scope forced tables) {expr : Expr} {label : Option String}
    {parts : List Ident} {qualifier column : Ident} {ordinal : Nat} {results : List ResultColumn}
    (hexpr : Scope.unnested (Scope.aliasedValue expr label).1 = .compound parts)
    (hparts : Scope.lastTwo? parts = some (qualifier, column))
    (hresults : (scope.projected expr label ordinal >>= fun result => pure [result]) = .ok results) :
    ∃ i table, leafNamed? tables qualifier.value = some i ∧ tables[i]? = some table ∧
      ∀ result ∈ results, table.Gives forced result := by
  obtain ⟨result, hresult, hresults⟩ := bind_eq_ok.mp hresults
  obtain rfl := Except.ok.inj hresults
  rw [projected_compound scope ordinal hexpr hparts] at hresult
  obtain ⟨i, table, hleaf, htable, hgives⟩ := gives_of_reference h hresult
  exact ⟨i, table, hleaf, htable, List.forall_mem_singleton.mpr hgives⟩

/-- A qualified item that resolves gives columns of the leaf that its qualifier names. -/
theorem gives_of_item (h : Shows scope forced tables) {item : SelectItem} {qualifier : Ident}
    {read : String} (hread : ReadsQualifier item qualifier read) {ordinal : Nat}
    {results : List ResultColumn} (hresults : scope.item ordinal item = .ok results) :
    ∃ i table, leafNamed? tables read = some i ∧ tables[i]? = some table ∧
      ∀ result ∈ results, table.Gives forced result := by
  cases hread with
  | unnamed hexpr hparts => exact gives_of_projected h hexpr hparts hresults
  | aliased hexpr hparts => exact gives_of_projected h hexpr hparts hresults
  | star hparts => exact gives_of_expandStar h hresults

/-- A qualified item fails if its qualifier names no leaf. -/
theorem item_of_leafNamed_eq_none (h : Shows scope forced tables) {item : SelectItem}
    {qualifier : Ident} {read : String} (hread : ReadsQualifier item qualifier read)
    (hnone : leafNamed? tables read = none) (ordinal : Nat) :
    ∃ shown, scope.item ordinal item = .error (.unknownQualifier read shown) := by
  have hsource (shown : String) :
      scope.sourceNamed read shown = .error (.unknownQualifier read shown) := by
    rw [sourceNamed_eq h, hnone]
    rfl
  have hprojected {expr : Expr} {label : Option String} {parts : List Ident} {column : Ident}
      (hexpr : Scope.unnested (Scope.aliasedValue expr label).1 = .compound parts)
      (hparts : Scope.lastTwo? parts = some (qualifier, column))
      (hvalue : qualifier.value = read) :
      ∃ shown, (scope.projected expr label ordinal >>= fun result => pure [result]) =
        .error (.unknownQualifier read shown) := by
    subst hvalue
    refine ⟨Text.joinWith "." (nameValues parts), ?_⟩
    rw [projected_compound scope ordinal hexpr hparts, Scope.reference, Scope.lookup, hsource]
    rfl
  cases hread with
  | unnamed hexpr hparts => exact hprojected hexpr hparts rfl
  | aliased hexpr hparts => exact hprojected hexpr hparts rfl
  | @star parts _ hparts =>
    refine ⟨starName parts ++ ".*", ?_⟩
    rw [item_qualifiedWildcard, hsource]
    rfl

end Items

/-! ## Designation -/

/-- Whether a leaf holds an object of a name. -/
def LeafTable.isNamed (name : String) (table : LeafTable) : Bool :=
  match table.leaf with
  | .source object _ => Text.sameText object.name name
  | .derived _ _ _ => false
  | .function function _ => Text.sameText (lastSegment function) name

section Designation

variable (tables : List LeafTable) (qualifier : String)

/-- The leaf with the number `i`, and no other, holds an object of the name. -/
def OnlyNamed (i : Nat) : Prop :=
  ∀ j, (∃ table, tables[j]? = some table ∧ table.isNamed qualifier = true) ↔ j = i

/-- A qualifier designates the leaf that is exposed under it or, if there is none, the only one that
holds an object of that name. -/
def Designates (i : Nat) : Prop :=
  (∃ table, tables[i]? = some table ∧ table.isExposedAs qualifier = true) ∨
    (∀ table ∈ tables, table.isExposedAs qualifier = false) ∧ OnlyNamed tables qualifier i

variable {tables qualifier}

/-- The leaf that a qualifier names is the one that it designates exactly if some leaf is exposed
under it, or the first leaf whose name ends in it is the only one that holds an object of that
name. -/
theorem designates_leafNamed_iff {i : Nat} (h : leafNamed? tables qualifier = some i) :
    Designates tables qualifier i ↔
      (∃ table ∈ tables, table.isExposedAs qualifier = true) ∨
        ∃ j, tables.findIdx? (LeafTable.endsIn qualifier) = some j ∧
          OnlyNamed tables qualifier j := by
  rw [leafNamed?, Option.or_eq_some_iff] at h
  rcases h with h | ⟨hnone, h⟩
  · obtain ⟨hi, hexposed, -⟩ := List.findIdx?_eq_some_iff_getElem.mp h
    exact iff_of_true (Or.inl ⟨tables[i], List.getElem?_eq_getElem hi, hexposed⟩)
      (Or.inl ⟨tables[i], List.getElem_mem hi, hexposed⟩)
  · have hnone := List.findIdx?_eq_none_iff.mp hnone
    constructor
    · rintro (⟨table, htable, hexposed⟩ | ⟨-, hnamed⟩)
      · rw [hnone table (List.mem_of_getElem? htable)] at hexposed
        cases hexposed
      · exact Or.inr ⟨i, h, hnamed⟩
    · rintro (⟨table, htable, hexposed⟩ | ⟨j, hj, hnamed⟩)
      · rw [hnone table htable] at hexposed
        cases hexposed
      · rw [h] at hj
        obtain rfl := Option.some.inj hj
        exact Or.inr ⟨hnone, hnamed⟩

end Designation

/-- A qualified item of a select that resolves gives columns of one leaf. It is the leaf that the
qualifier, as it is read, designates exactly if some leaf is exposed under the qualifier or the
first leaf whose name ends in it is the only one that holds an object of that name. If no leaf is
exposed under the qualifier and the name of none ends in it, the item fails. -/
theorem qualifier_designates_iff {r : Resolver} {ctes : List CteShape}
    {sources : List JoinedSource} {scope : Scope} (h : r.scope ctes sources = .ok scope) :
    ∃ tree tables, r.HasScope ctes sources scope tree tables ∧
      ∀ (item : SelectItem) (qualifier : Ident) (read : String) (ordinal : Nat),
        ReadsQualifier item qualifier read → qualifier.IsSpelled →
        (read = qualifier.value ↔
          (IsQualifiedStar item → '.' ∉ qualifier.value.toList ∧ qualifier.KeepsValue)) ∧
        (∀ results, scope.item ordinal item = .ok results →
          ∃ i table, tables[i]? = some table ∧
            (∀ result ∈ results, table.Gives (forcedNames tree) result) ∧
            (Designates tables read i ↔
              (∃ table ∈ tables, table.isExposedAs read = true) ∨
                ∃ j, tables.findIdx? (LeafTable.endsIn read) = some j ∧
                  OnlyNamed tables read j)) ∧
        ((∀ table ∈ tables, table.isExposedAs read = false ∧ table.endsIn read = false) →
          ∃ shown, scope.item ordinal item = .error (.unknownQualifier read shown)) := by
  obtain ⟨tree, tables, hscope, hshows, -⟩ := Resolver.exists_shows_of_scope h
  refine ⟨tree, tables, hscope, fun item qualifier read ordinal hread hspelled => ?_⟩
  refine ⟨hread.eq_value_iff hspelled, fun results hresults => ?_, fun hnone => ?_⟩
  · obtain ⟨i, table, hleaf, htable, hgives⟩ := gives_of_item hshows hread hresults
    exact ⟨i, table, htable, hgives, designates_leafNamed_iff hleaf⟩
  · apply item_of_leafNamed_eq_none hshows hread
    rw [leafNamed?, Option.or_eq_none_iff]
    exact ⟨List.findIdx?_eq_none_iff.mpr fun table htable => (hnone table htable).1,
      List.findIdx?_eq_none_iff.mpr fun table htable => (hnone table htable).2⟩

/-! ## Selects from two tables -/

/-- Whether a text is a select from `a (id)` and `b (id, v)` with an item for which a test succeeds
in the scope of the select and with the leaves of its sources. -/
def selectsItem (text : String) (test : List LeafTable → Scope → SelectItem → Bool) : Bool :=
  (Grammar.parseQuery text).toOption.any fun query =>
    match query.body with
    | .select select =>
      (twoTables.scope [] select.sources).toOption.any fun scope =>
        (JoinTree.ofSources select.sources).toOption.any fun tree =>
          (((tree.map JoinTree.leaves).getD []).mapM (twoTables.leafTable [])).toOption.any
            fun tables => select.projection.any (test tables scope)
    | _ => false

/-- The select of a text, its scope, its leaves and the item that was tested. -/
theorem exists_item_of_selectsItem (text : String)
    (test : List LeafTable → Scope → SelectItem → Bool) (h : selectsItem text test = true) :
    ∃ query select scope tree tables, Grammar.parseQuery text = .ok query ∧
      query.body = .select select ∧ twoTables.HasScope [] select.sources scope tree tables ∧
      ∃ item ∈ select.projection, test tables scope item = true := by
  obtain ⟨query, hquery, h⟩ := (Option.any_eq_true _ _).mp h
  split at h
  · rename_i select hselect
    obtain ⟨scope, hscope, h⟩ := (Option.any_eq_true _ _).mp h
    obtain ⟨tree, htree, h⟩ := (Option.any_eq_true _ _).mp h
    obtain ⟨tables, htables, h⟩ := (Option.any_eq_true _ _).mp h
    obtain ⟨item, hitem, htest⟩ := List.any_eq_true.mp h
    exact ⟨query, select, scope, tree, tables, toOption_eq_some hquery, hselect,
      ⟨toOption_eq_some hscope, toOption_eq_some htree, toOption_eq_some htables⟩, item, hitem,
      htest⟩
  · cases h

/-- Whether an item is a reference to a column with a qualifier, both without quotes. -/
def isReferenceTo (qualifier column : String) : SelectItem → Bool
  | .unnamed (.compound [first, second]) => first == ⟨qualifier, none⟩ && second == ⟨column, none⟩
  | _ => false

theorem readsQualifier_of_isReferenceTo {qualifier column : String} {item : SelectItem}
    (h : isReferenceTo qualifier column item = true) :
    ReadsQualifier item ⟨qualifier, none⟩ qualifier := by
  unfold isReferenceTo at h
  split at h
  · obtain ⟨hfirst, hsecond⟩ := Bool.and_eq_true_iff.mp h
    obtain rfl := eq_of_beq hfirst
    exact .unnamed rfl rfl
  · cases h

/-- In `SELECT b.id FROM b x JOIN a b ON ..` the qualifier designates the table `a`, which is exposed
under it, and this is used. -/
theorem qualifier_designates_exposed :
    ∃ query select scope tree tables item, Grammar.parseQuery
        "select b.id from b x join a b on x.id = b.id" = .ok query ∧
      query.body = .select select ∧ twoTables.HasScope [] select.sources scope tree tables ∧
      item ∈ select.projection ∧ ReadsQualifier item ⟨"b", none⟩ "b" ∧
      ∃ results, scope.item 1 item = .ok results ∧ ∃ i table, tables[i]? = some table ∧
        (∀ result ∈ results, table.Gives (forcedNames tree) result) ∧ Designates tables "b" i := by
  obtain ⟨query, select, scope, tree, tables, hquery, hselect, hscope, item, hitem, htest⟩ :=
    exists_item_of_selectsItem "select b.id from b x join a b on x.id = b.id"
      (fun tables scope item => isReferenceTo "b" "id" item &&
        (scope.item 1 item).toOption.isSome && tables.any (·.isExposedAs "b")) (by decide +kernel)
  obtain ⟨htest, hexposed⟩ := Bool.and_eq_true_iff.mp htest
  obtain ⟨hreference, hresults⟩ := Bool.and_eq_true_iff.mp htest
  obtain ⟨results, hresults⟩ := Option.isSome_iff_exists.mp hresults
  have hresults := toOption_eq_some hresults
  have hread := readsQualifier_of_isReferenceTo hreference
  obtain ⟨tree', tables', hscope', hitems⟩ := qualifier_designates_iff hscope.resolves
  obtain rfl : tree = tree' := Except.ok.inj (hscope.ofSources.symm.trans hscope'.ofSources)
  obtain rfl : tables = tables' := Except.ok.inj (hscope.leafTables.symm.trans hscope'.leafTables)
  obtain ⟨i, table, htable, hgives, hiff⟩ :=
    (hitems item ⟨"b", none⟩ "b" 1 hread (show "b" ≠ "" by decide)).2.1 results hresults
  exact ⟨query, select, scope, tree, tables, item, hquery, hselect, hscope, hitem,
    hread, results, hresults, i, table, htable, hgives,
    hiff.mpr (Or.inl (List.any_eq_true.mp hexposed))⟩

/-- In `SELECT a.id FROM a x JOIN a y ON ..` the qualifier designates no source, as none is exposed
under it and both hold an object of that name. Yet the item resolves. -/
theorem qualifier_of_two_objects :
    ∃ query select scope tree tables item, Grammar.parseQuery
        "select a.id from a x join a y on x.id = y.id" = .ok query ∧
      query.body = .select select ∧ twoTables.HasScope [] select.sources scope tree tables ∧
      item ∈ select.projection ∧ ReadsQualifier item ⟨"a", none⟩ "a" ∧
      (∃ results, scope.item 1 item = .ok results) ∧ ∀ i, ¬ Designates tables "a" i := by
  obtain ⟨query, select, scope, tree, tables, hquery, hselect, hscope, item, hitem, htest⟩ :=
    exists_item_of_selectsItem "select a.id from a x join a y on x.id = y.id"
      (fun tables scope item => isReferenceTo "a" "id" item &&
        (scope.item 1 item).toOption.isSome && !tables.any (·.isExposedAs "a") &&
        tables[0]?.any (·.isNamed "a") && tables[1]?.any (·.isNamed "a")) (by decide +kernel)
  obtain ⟨htest, hsecond⟩ := Bool.and_eq_true_iff.mp htest
  obtain ⟨htest, hfirst⟩ := Bool.and_eq_true_iff.mp htest
  obtain ⟨htest, hexposed⟩ := Bool.and_eq_true_iff.mp htest
  obtain ⟨hreference, hresults⟩ := Bool.and_eq_true_iff.mp htest
  obtain ⟨results, hresults⟩ := Option.isSome_iff_exists.mp hresults
  refine ⟨query, select, scope, tree, tables, item, hquery, hselect, hscope, hitem,
    readsQualifier_of_isReferenceTo hreference, ⟨results, toOption_eq_some hresults⟩, ?_⟩
  rintro i (⟨table, htable, hexposed'⟩ | ⟨-, hnamed⟩)
  · rw [Bool.not_eq_true', List.any_eq_false] at hexposed
    exact hexposed table (List.mem_of_getElem? htable) hexposed'
  · -- The only leaf that holds the object would be the first as well as the second.
    have hzero := (hnamed 0).mp ((Option.any_eq_true _ _).mp hfirst)
    have hone := (hnamed 1).mp ((Option.any_eq_true _ _).mp hsecond)
    omega

end SchemaPlan
