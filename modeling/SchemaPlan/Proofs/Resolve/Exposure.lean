import SchemaPlan.Proofs.Join.Sources
import SchemaPlan.Proofs.Resolve.Aliases
import SchemaPlan.Proofs.Resolve.Qualifiers

/-!
# The names of the sources of a select

Leaves are named in one pass from left to right. `SourceNames.Records` says what is known of the
leaves that the pass has seen: which name stands for which of them, and which aliases they have. A
leaf keeps this up unless its name has occurred before (`Records.add`), and so the pass either
records all leaves or stops at the first name that repeats an earlier one (`addAll_outcome`).

* `sources_named_exactly`: when names resolve, what they stand for then, and which leaf and
  which source of the scope each place belongs to.
-/

namespace SchemaPlan

open SchemaPlan.Sql SchemaPlan.Query

/-! ## Names of leaves -/

/-- The names, in lower case, under which leaves are exposed. -/
def exposedKeys (leaves : List Leaf) : List String :=
  (leaves.filterMap Leaf.exposedName?).map Text.lower

/-- The alias of a named leaf, with the name of the object behind it. -/
def Leaf.aliasEntry? : Leaf → Option (String × String)
  | .source object label => label.map fun name => (name, object.dotted)
  | .derived _ _ _ => none
  | .function _ _ => none

/-- A name is the first one that repeats, without regard to case, the name of an earlier leaf. -/
def IsFirstRepeat (leaves : List Leaf) (name : String) : Prop :=
  ∃ before leaf after, leaves = before ++ leaf :: after ∧ leaf.exposedName? = some name ∧
    (exposedKeys before).Nodup ∧ Text.lower name ∈ exposedKeys before

theorem mem_exposedKeys {leaves : List Leaf} {key : String} :
    key ∈ exposedKeys leaves ↔
      ∃ (i : Nat) (leaf : Leaf) (own : String), leaves[i]? = some leaf ∧
        leaf.exposedName? = some own ∧ Text.lower own = key := by
  simp only [exposedKeys, List.mem_map, List.mem_filterMap]
  constructor
  · rintro ⟨own, ⟨leaf, hleaf, hown⟩, hkey⟩
    obtain ⟨i, hi⟩ := List.mem_iff_getElem?.mp hleaf
    exact ⟨i, leaf, own, hi, hown, hkey⟩
  · rintro ⟨i, leaf, own, hleaf, hown, hkey⟩
    exact ⟨own, ⟨leaf, List.mem_of_getElem? hleaf, hown⟩, hkey⟩

theorem exposedKeys_append (before after : List Leaf) :
    exposedKeys (before ++ after) = exposedKeys before ++ exposedKeys after := by
  simp [exposedKeys]

theorem exposedKeys_singleton (leaf : Leaf) :
    exposedKeys [leaf] = (leaf.exposedName?.map Text.lower).toList := by
  cases hname : leaf.exposedName? <;> simp [exposedKeys, hname]

/-- A repeated name keeps the names of the leaves from being distinct. -/
theorem IsFirstRepeat.not_nodup {leaves : List Leaf} {name : String}
    (h : IsFirstRepeat leaves name) : ¬ (exposedKeys leaves).Nodup := by
  obtain ⟨before, leaf, after, rfl, hname, -, hmem⟩ := h
  intro hnodup
  rw [exposedKeys_append, List.nodup_append] at hnodup
  have hkey : Text.lower name ∈ exposedKeys (leaf :: after) :=
    mem_exposedKeys.mpr ⟨0, leaf, name, rfl, hname, rfl⟩
  exact hnodup.2.2 _ hmem _ hkey rfl

/-- A leaf with an alias is exposed under it. -/
theorem Leaf.exposedName?_of_aliasEntry? {leaf : Leaf} {label base : String}
    (h : leaf.aliasEntry? = some (label, base)) : leaf.exposedName? = some label := by
  cases leaf with
  | source object own =>
    obtain ⟨name, rfl, hentry⟩ := Option.map_eq_some_iff.mp h
    rw [← (Prod.mk.inj hentry).1]
    rfl
  | derived own columns query => cases h
  | function name own => cases h

/-! ## Maps -/

/-- A new key adds one entry and keeps the others. -/
theorem SortedMap.perm_insert {map : SortedMap} {key : String} (hnew : key ∉ map.map (·.1))
    (value : String) : (map.insert key value).Perm ((key, value) :: map) := by
  induction map with
  | nil => exact .refl _
  | cons first rest ih =>
    rw [List.map_cons, List.mem_cons, not_or] at hnew
    unfold SortedMap.insert
    rw [if_neg hnew.1]
    split
    · exact .refl _
    · -- The entry goes behind the first one.
      exact ((ih hnew.2).cons first).trans (List.Perm.swap _ _ _)

/-! ## The pass over the leaves -/

/-- Names record leaves: each name stands for the place of the leaf that is exposed under it, and the
aliases are those of the named leaves, in order, each with the name of its object. -/
structure SourceNames.Records (names : SourceNames) (leaves : List Leaf) : Prop where
  index?_iff : ∀ name i, names.index? name = some i ↔
    ∃ leaf own, leaves[i]? = some leaf ∧ leaf.exposedName? = some own ∧
      Text.lower own = Text.lower name
  aliases : names.aliases.Perm (leaves.filterMap Leaf.aliasEntry?)
  isSorted : names.aliases.IsSorted

namespace SourceNames

theorem records_nil : SourceNames.Records {} [] where
  index?_iff name i := by simp [index?]
  aliases := .refl _
  isSorted := List.Pairwise.nil

variable {names : SourceNames} {before : List Leaf}

/-- A name is taken if an earlier leaf is exposed under it. -/
theorem Records.isSome_index?_iff (h : names.Records before) {name : String} :
    (names.index? name).isSome = true ↔ Text.lower name ∈ exposedKeys before := by
  rw [Option.isSome_iff_exists, mem_exposedKeys]
  exact exists_congr fun i => h.index?_iff name i

/-- Exactly the places of exposed leaves are those of names. -/
theorem Records.exists_index?_iff (h : names.Records before) {i : Nat} :
    (∃ name, names.index? name = some i) ↔
      ∃ leaf, before[i]? = some leaf ∧ leaf.exposedName?.isSome = true := by
  simp only [h.index?_iff, Option.isSome_iff_exists]
  constructor
  · rintro ⟨-, leaf, own, hleaf, hown, -⟩
    exact ⟨leaf, hleaf, own, hown⟩
  · rintro ⟨leaf, hleaf, own, hown⟩
    exact ⟨own, leaf, own, hleaf, hown, rfl⟩

/-- The alias of a leaf whose name is free is not among the aliases so far. -/
theorem Records.not_mem_aliases (h : names.Records before) {label : String}
    (hfree : Text.lower label ∉ exposedKeys before) : label ∉ names.aliases.map (·.1) := by
  intro hmem
  obtain ⟨⟨_, base⟩, hentry, rfl⟩ := List.mem_map.mp hmem
  obtain ⟨leaf, hleaf, halias⟩ := List.mem_filterMap.mp (h.aliases.mem_iff.mp hentry)
  obtain ⟨i, hi⟩ := List.mem_iff_getElem?.mp hleaf
  apply hfree
  exact mem_exposedKeys.mpr ⟨i, leaf, _, hi, Leaf.exposedName?_of_aliasEntry? halias, rfl⟩

/-- A leaf without a name is passed over. Another one is refused if its name is taken, or else adds
its name and its alias. -/
theorem add_eq (names : SourceNames) (leaf : Leaf) (index : Nat) :
    names.add leaf index = match leaf.exposedName? with
      | none => .ok names
      | some name =>
        if (names.index? name).isSome then .error (.aliasCollision name)
        else .ok
          { aliases := match leaf.aliasEntry? with
              | some (label, base) => names.aliases.insert label base
              | none => names.aliases
            exposed := (Text.lower name, index) :: names.exposed } := by
  rcases leaf with ⟨object, _ | label⟩ | ⟨_ | label, columns, query⟩ | ⟨name, _ | label⟩ <;> rfl

/-- A leaf whose name is taken is refused. -/
theorem Records.add_eq_error (h : names.Records before) {leaf : Leaf} {name : String}
    (hname : leaf.exposedName? = some name) (htaken : Text.lower name ∈ exposedKeys before)
    (index : Nat) : names.add leaf index = .error (.aliasCollision name) := by
  rw [add_eq, hname]
  exact if_pos (h.isSome_index?_iff.mpr htaken)

/-- A leaf that is not refused adds its alias, if it has one. -/
theorem aliases_add {added : SourceNames} {leaf : Leaf} {index : Nat}
    (h : names.add leaf index = .ok added) :
    added.aliases = match leaf.aliasEntry? with
      | some (label, base) => names.aliases.insert label base
      | none => names.aliases := by
  rw [add_eq] at h
  cases hname : leaf.exposedName? with
  | none =>
    rw [hname] at h
    obtain rfl := Except.ok.inj h
    cases hentry : leaf.aliasEntry? with
    | none => rfl
    | some entry =>
      -- A leaf with an alias has a name.
      rw [Leaf.exposedName?_of_aliasEntry? hentry] at hname
      cases hname
  | some name =>
    rw [hname] at h
    dsimp only at h
    split at h
    · cases h
    · obtain rfl := Except.ok.inj h
      rfl

/-- A leaf is not refused if it has no name, or one that is free. -/
theorem Records.exists_add_eq_ok (h : names.Records before) {leaf : Leaf}
    (hfree : ∀ name, leaf.exposedName? = some name → Text.lower name ∉ exposedKeys before)
    (index : Nat) : ∃ added, names.add leaf index = .ok added := by
  rw [add_eq]
  cases hname : leaf.exposedName? with
  | none => exact ⟨names, rfl⟩
  | some name => exact ⟨_, if_neg fun htaken => hfree name hname (h.isSome_index?_iff.mp htaken)⟩

/-- A leaf is recorded behind the earlier ones if it has no name, or one that is free. -/
theorem Records.add {added : SourceNames} (h : names.Records before) {leaf : Leaf}
    (hfree : ∀ name, leaf.exposedName? = some name → Text.lower name ∉ exposedKeys before)
    (hadded : names.add leaf before.length = .ok added) : added.Records (before ++ [leaf]) := by
  refine ⟨?_, ?_, isSorted_add hadded h.isSorted⟩
  · intro name i
    rw [index?_add hadded, h.index?_iff]
    constructor
    · rintro (⟨old, own, hold, hown, hsame⟩ | ⟨own, hown, hsame, rfl⟩)
      · have hi := (List.getElem?_eq_some_iff.mp hold).1
        exact ⟨old, own, by rw [List.getElem?_append_left hi, hold], hown, hsame⟩
      · exact ⟨leaf, own, by simp, hown, hsame⟩
    · rintro ⟨found, own, hfound, hown, hsame⟩
      -- The place is one of the earlier leaves, or that of the new one.
      rcases Nat.lt_or_ge i before.length with hi | hi
      · rw [List.getElem?_append_left hi] at hfound
        exact Or.inl ⟨found, own, hfound, hown, hsame⟩
      · rw [List.getElem?_append_right hi, List.getElem?_singleton] at hfound
        split at hfound
        · obtain rfl := Option.some.inj hfound
          exact Or.inr ⟨own, hown, hsame, by omega⟩
        · cases hfound
  · rw [List.filterMap_append, aliases_add hadded]
    cases hentry : leaf.aliasEntry? with
    | none => simpa [hentry] using h.aliases
    | some entry =>
      obtain ⟨label, base⟩ := entry
      have hnew := h.not_mem_aliases (hfree label (Leaf.exposedName?_of_aliasEntry? hentry))
      have hperm := (SortedMap.perm_insert hnew base).trans (h.aliases.cons (label, base))
      simpa [hentry] using hperm.trans (List.perm_append_singleton _ _).symm

/-- What naming leaves comes to. -/
def NamingOutcome (leaves : List Leaf) : Except ResolveError SourceNames → Prop
  | .ok names => (exposedKeys leaves).Nodup ∧ names.Records leaves
  | .error failure => ∃ name, failure = .aliasCollision name ∧ IsFirstRepeat leaves name

/-- The pass records all leaves, or it stops at the first name that repeats an earlier one. -/
theorem addAll_outcome {leaves : List Leaf} (h : names.Records before)
    (hnodup : (exposedKeys before).Nodup) :
    NamingOutcome (before ++ leaves) (names.addAll before.length leaves) := by
  induction leaves generalizing names before with
  | nil =>
    rw [List.append_nil]
    exact ⟨hnodup, h⟩
  | cons leaf rest ih =>
    unfold addAll
    -- The next leaf takes a new name, or it is the first one to repeat a name.
    by_cases hfree : ∀ name, leaf.exposedName? = some name → Text.lower name ∉ exposedKeys before
    · obtain ⟨added, hadded⟩ := h.exists_add_eq_ok hfree before.length
      have hdistinct : (exposedKeys (before ++ [leaf])).Nodup := by
        rw [exposedKeys_append, exposedKeys_singleton, List.nodup_append]
        refine ⟨hnodup, ?_, ?_⟩
        · cases leaf.exposedName? <;> simp
        · intro key hkey other hother
          obtain ⟨name, hname, rfl⟩ := Option.map_eq_some_iff.mp (Option.mem_toList.mp hother)
          exact fun hsame => hfree name hname (hsame ▸ hkey)
      have hrest := ih (h.add hfree hadded) hdistinct
      rw [List.append_assoc, List.length_append] at hrest
      rw [hadded]
      exact hrest
    · push Not at hfree
      obtain ⟨name, hname, htaken⟩ := hfree
      rw [h.add_eq_error hname htaken]
      exact ⟨name, rfl, before, leaf, rest, rfl, hname, hnodup, htaken⟩

/-- The names of a tree record its leaves, or the first name that is repeated is reported. -/
theorem ofTree_outcome (tree : Option JoinTree) :
    NamingOutcome ((tree.map JoinTree.leaves).getD []) (ofTree tree) :=
  addAll_outcome records_nil List.nodup_nil

end SourceNames

/-! ## The scope of a select -/

/-- The sources of a scope are those of the leaves of its tree, place by place. -/
theorem Resolver.HasScope.sources_eq {r : Resolver} {ctes : List CteShape}
    {sources : List JoinedSource} {scope : Scope} {tree : Option JoinTree} {tables : List LeafTable}
    (h : r.HasScope ctes sources scope tree tables) :
    scope.sources = tables.map (LeafTable.source (forcedNames tree)) ∧
      tables.map (·.leaf) = (tree.map JoinTree.leaves).getD [] :=
  ⟨h.shows.1.sources, map_leaf_of_mapM h.leafTables⟩

/-- The names of a scope are those of its tree. -/
theorem Resolver.HasScope.ofTree_eq {r : Resolver} {ctes : List CteShape}
    {sources : List JoinedSource} {scope : Scope} {tree : Option JoinTree} {tables : List LeafTable}
    (h : r.HasScope ctes sources scope tree tables) :
    SourceNames.ofTree tree = .ok scope.names := by
  obtain ⟨tree', htree', hscope⟩ := bind_eq_ok.mp h.resolves
  obtain rfl := Except.ok.inj (h.ofSources.symm.trans htree')
  obtain ⟨names, hnames, hscope⟩ := bind_eq_ok.mp hscope
  obtain ⟨found, -, hscope⟩ := bind_eq_ok.mp hscope
  obtain rfl := Except.ok.inj hscope
  exact hnames

/-- The names of the leaves of a tree resolve exactly if they are distinct in lower case; if not, the
first one that repeats an earlier one is reported. What resolves stands for the leaves by their
places, and lists each alias of a named leaf once. The tree of a FROM clause has a leaf for each
single source, in order, and the scope of the select a source for each leaf, so that every place
that a name stands for is one of a source. -/
theorem sources_named_exactly :
    (∀ tree : Option JoinTree, let leaves := (tree.map JoinTree.leaves).getD []
      ((∃ names, SourceNames.ofTree tree = .ok names) ↔ (exposedKeys leaves).Nodup) ∧
      (¬ (exposedKeys leaves).Nodup → ∃ name, IsFirstRepeat leaves name ∧
        SourceNames.ofTree tree = .error (.aliasCollision name)) ∧
      ∀ names, SourceNames.ofTree tree = .ok names → names.Records leaves ∧
        ∀ i, (∃ name, names.index? name = some i) ↔
          ∃ leaf, leaves[i]? = some leaf ∧ leaf.exposedName?.isSome = true) ∧
    ∀ (sources : List JoinedSource) (tree : Option JoinTree),
      JoinTree.ofSources sources = .ok tree →
      let leaves := (tree.map JoinTree.leaves).getD []
      List.Forall₂ ReadAs (singleSources sources) leaves ∧
      ∀ (r : Resolver) (ctes : List CteShape) (scope : Scope),
        r.scope ctes sources = .ok scope →
        SourceNames.ofTree tree = .ok scope.names ∧
        (∃ tables : List LeafTable, scope.sources = tables.map (LeafTable.source (forcedNames tree)) ∧
          tables.map (·.leaf) = leaves) ∧
        ∀ name i, scope.names.index? name = some i → i < scope.sources.length := by
  constructor
  · intro tree leaves
    have houtcome := SourceNames.ofTree_outcome tree
    cases hnames : SourceNames.ofTree tree with
    | ok names =>
      rw [hnames] at houtcome
      obtain ⟨hnodup, hrecords⟩ := houtcome
      refine ⟨iff_of_true ⟨names, rfl⟩ hnodup, fun hrepeated => absurd hnodup hrepeated, ?_⟩
      intro names' hsame
      obtain rfl := Except.ok.inj hsame
      exact ⟨hrecords, fun i => hrecords.exists_index?_iff⟩
    | error failure =>
      rw [hnames] at houtcome
      obtain ⟨name, rfl, hrepeat⟩ := houtcome
      refine ⟨iff_of_false ?_ hrepeat.not_nodup, fun _ => ⟨name, hrepeat, rfl⟩, ?_⟩
      · rintro ⟨names, h⟩
        cases h
      · intro names h
        cases h
  · intro sources tree htree leaves
    refine ⟨readAs_ofSources htree, fun r ctes scope h => ?_⟩
    obtain ⟨tree', tables, hscope, -⟩ := Resolver.exists_shows_of_scope h
    obtain rfl := Except.ok.inj (htree.symm.trans hscope.ofSources)
    obtain ⟨hsources, hleaves⟩ := hscope.sources_eq
    refine ⟨hscope.ofTree_eq, ⟨tables, hsources, hleaves⟩, ?_⟩
    intro name i hindex
    have houtcome := SourceNames.ofTree_outcome tree
    rw [hscope.ofTree_eq] at houtcome
    -- The place is that of a leaf, and each leaf has its source.
    obtain ⟨leaf, own, hleaf, -⟩ := (houtcome.2.index?_iff name i).mp hindex
    have hi := (List.getElem?_eq_some_iff.mp hleaf).1
    rw [hsources, List.length_map, ← List.length_map (·.leaf), hleaves]
    exact hi

/-- In `FROM dbo.a X, (b JOIN a y ON ..) CROSS JOIN (SELECT ..) D, f(1)` there are five sources. The last
one has no name, and two of the others are tables with an alias. -/
theorem sources_named_in_nested_joins :
    ∃ query select scope tree tables, Grammar.parseQuery
        "select 1 as c from dbo.a X, (b join a y on b.id = y.id) cross join (select 1 as i) D, f(1)" =
          .ok query ∧
      query.body = .select select ∧ twoTables.HasScope [] select.sources scope tree tables ∧
      scope.names.Records ((tree.map JoinTree.leaves).getD []) ∧
      List.Forall₂ ReadAs (singleSources select.sources) ((tree.map JoinTree.leaves).getD []) ∧
      (∃ name, scope.names.index? name = some 3) ∧ (¬ ∃ name, scope.names.index? name = some 4) ∧
      scope.names.aliases = [("X", "dbo.a"), ("y", "a")] := by
  obtain ⟨query, select, scope, tree, tables, hquery, hselect, hscope, item, -, htest⟩ :=
    exists_item_of_selectsItem
      "select 1 as c from dbo.a X, (b join a y on b.id = y.id) cross join (select 1 as i) D, f(1)"
      (fun tables scope _ => tables.length == 5 && scope.names.index? "d" == some 3 &&
        scope.names.aliases == [("X", "dbo.a"), ("y", "a")] &&
        (tables[4]?).all fun table => table.leaf.exposedName?.isNone) (by decide +kernel)
  obtain ⟨htest, hunnamed⟩ := Bool.and_eq_true_iff.mp htest
  obtain ⟨htest, haliases⟩ := Bool.and_eq_true_iff.mp htest
  obtain ⟨-, hindex⟩ := Bool.and_eq_true_iff.mp htest
  have htree := (sources_named_exactly.1 tree).2.2 scope.names hscope.ofTree_eq
  have hsources := sources_named_exactly.2 select.sources tree hscope.ofSources
  refine ⟨query, select, scope, tree, tables, hquery, hselect, hscope, htree.1, hsources.1,
    ⟨"d", eq_of_beq hindex⟩, ?_, eq_of_beq haliases⟩
  rw [htree.2, ← hscope.sources_eq.2, List.getElem?_map]
  rintro ⟨leaf, hleaf, hnamed⟩
  obtain ⟨table, htable, rfl⟩ := Option.map_eq_some_iff.mp hleaf
  rw [htable, Option.all_some] at hunnamed
  simp [Option.isNone_iff_eq_none.mp hunnamed] at hnamed

end SchemaPlan
