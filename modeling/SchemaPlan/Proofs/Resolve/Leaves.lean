import SchemaPlan.Proofs.Join.Forcing
import SchemaPlan.Proofs.Resolve.Outcome

/-!
# Leaves, names and sources

A select identifies a leaf of its join tree in three ways: by its number in the tree, by the name
under which it is exposed, and by the place of its source in the scope. They agree: a name stands
for the number of the leaf that exposes it (`index?_ofTree`), no two leaves share one, and the
sources of the scope are those of the leaves, in order and each with the leaf's own columns
(`sources_eq_map`).
-/

namespace SchemaPlan

open SchemaPlan.Query

/-! ## Names -/

namespace SourceNames

/-- A leaf adds its name, in lower case, and leaves the others as they were. -/
theorem index?_add {names added : SourceNames} {leaf : Leaf} {index : Nat}
    (h : names.add leaf index = .ok added) (name : String) (i : Nat) :
    added.index? name = some i ↔ names.index? name = some i ∨
      ∃ own, leaf.exposedName? = some own ∧ Text.lower own = Text.lower name ∧ index = i := by
  unfold add at h
  cases hown : leaf.exposedName? with
  -- A leaf without a name adds none.
  | none =>
    rw [hown] at h
    obtain rfl := Except.ok.inj h
    constructor
    · exact Or.inl
    · rintro (h | ⟨own, hsome, -⟩)
      · exact h
      · cases hsome
  | some own =>
    rw [hown] at h
    dsimp only at h
    split at h
    · cases h
    · rename_i hfree
      have hfree : names.index? own = none := by
        cases hindex : names.index? own with
        | none => rfl
        | some taken =>
          rw [hindex] at hfree
          exact absurd rfl hfree
      -- The name was free, so it stands for the new leaf and for no other.
      have hexposed : added.exposed = (Text.lower own, index) :: names.exposed := by
        split at h <;> exact (Except.ok.inj h) ▸ rfl
      unfold index? at hfree ⊢
      rw [hexposed, List.lookup_cons]
      by_cases hsame : Text.lower own = Text.lower name
      · rw [← hsame, beq_self_eq_true, hfree]
        constructor
        · intro hindex
          exact Or.inr ⟨own, rfl, rfl, Option.some.inj hindex⟩
        · rintro (hnone | ⟨-, -, -, rfl⟩)
          · cases hnone
          · rfl
      · rw [beq_false_of_ne (Ne.symm hsame)]
        constructor
        · exact Or.inl
        · rintro (h | ⟨own', hsome, hsame', -⟩)
          · exact h
          · obtain rfl := Option.some.inj hsome
            exact absurd hsame' hsame

/-- The names of leaves stand for their numbers, the first of which is `start`. -/
theorem index?_addAll {names added : SourceNames} {leaves : List Leaf} {start : Nat}
    (h : names.addAll start leaves = .ok added) (name : String) (i : Nat) :
    added.index? name = some i ↔ names.index? name = some i ∨
      ∃ j leaf own, leaves[j]? = some leaf ∧ leaf.exposedName? = some own ∧
        Text.lower own = Text.lower name ∧ start + j = i := by
  induction leaves generalizing names start with
  | nil =>
    obtain rfl := Except.ok.inj h
    constructor
    · exact Or.inl
    · rintro (h | ⟨j, leaf, own, hleaf, -⟩)
      · exact h
      · cases hleaf
  | cons first rest ih =>
    unfold addAll at h
    obtain ⟨more, hmore, h⟩ := bind_eq_ok.mp h
    -- The first leaf has the number `start`, and the others count on from the next.
    rw [ih h, index?_add hmore, or_assoc]
    refine or_congr_right ?_
    constructor
    · rintro (⟨own, hown, hsame, hstart⟩ | ⟨j, leaf, own, hleaf, hown, hsame, hj⟩)
      · exact ⟨0, first, own, rfl, hown, hsame, hstart⟩
      · exact ⟨j + 1, leaf, own, hleaf, hown, hsame, by omega⟩
    · rintro ⟨j, leaf, own, hleaf, hown, hsame, hj⟩
      cases j with
      | zero =>
        obtain rfl := Option.some.inj hleaf
        exact Or.inl ⟨own, hown, hsame, hj⟩
      | succ j => exact Or.inr ⟨j, leaf, own, hleaf, hown, hsame, by omega⟩

/-- A name stands for the leaf that exposes it. -/
theorem index?_ofTree {tree : JoinTree} {names : SourceNames}
    (h : ofTree (some tree) = .ok names) (name : String) (i : Nat) :
    names.index? name = some i ↔ tree.Exposes i (Text.lower name) := by
  rw [index?_addAll h]
  constructor
  · rintro (hnone | ⟨j, leaf, own, hleaf, hown, hsame, rfl⟩)
    · cases hnone
    · rw [Nat.zero_add]
      exact ⟨leaf, own, hleaf, hown, hsame⟩
  · rintro ⟨leaf, own, hleaf, hown, hsame⟩
    exact Or.inr ⟨i, leaf, own, hleaf, hown, hsame, Nat.zero_add i⟩

/-- The leaves of a tree whose names resolve have different names. -/
theorem uniqueNames_of_ofTree {tree : JoinTree} {names : SourceNames}
    (h : ofTree (some tree) = .ok names) : tree.UniqueNames := by
  intro i j key hi hj
  obtain ⟨leaf, own, hleaf, hown, rfl⟩ := hi
  -- A name stands for one number only, and both leaves have this name.
  have hindex := (index?_ofTree h own i).mpr ⟨leaf, own, hleaf, hown, rfl⟩
  rw [(index?_ofTree h own j).mpr hj] at hindex
  exact (Option.some.inj hindex).symm

end SourceNames

/-! ## Sources -/

/-- A leaf with its own columns, as far as they are known. -/
structure LeafTable where
  leaf : Leaf
  columns : Option (List SourceColumn)

/-- The source that a leaf is in the scope. -/
def LeafTable.source (forced : List String) (table : LeafTable) : ScopeSource :=
  leafSource forced table.leaf table.columns

/-- The columns that a leaf has of its own: those of the object or the common table expression that
it names, those of the query in its parentheses, or the names that are listed for it. -/
def Resolver.leafColumns (r : Resolver) (ctes : List CteShape) :
    Leaf → Except ResolveError (Option (List SourceColumn))
  | .source object _ => .ok (r.sourceColumns? ctes object)
  | .derived _ names query =>
    if yieldsRows query.body then do
      let resolved ← r.query ctes query
      return some (renamed names (resolved.columns.map ResultColumn.toSource))
    else
      let columns := names.map fun name => SourceColumn.mk name .unknown true
      .ok (if names.isEmpty then none else some columns)
  | .function _ _ => .ok none

/-- A leaf with its own columns. -/
def Resolver.leafTable (r : Resolver) (ctes : List CteShape) (leaf : Leaf) :
    Except ResolveError LeafTable := do
  return ⟨leaf, ← r.leafColumns ctes leaf⟩

theorem mapM_append_eq_ok {ε α β : Type} {f : α → Except ε β} {first second : List α}
    {firsts seconds : List β} (hfirst : first.mapM f = .ok firsts)
    (hsecond : second.mapM f = .ok seconds) :
    (first ++ second).mapM f = .ok (firsts ++ seconds) := by
  rw [List.mapM_append, hfirst, hsecond]
  rfl

section Sources

variable {r : Resolver} {ctes : List CteShape} {forced : List String}

/-- A single leaf has the source that its columns make. -/
theorem mapM_leafTable_singleton {leaf : Leaf} {columns : Option (List SourceColumn)}
    (h : r.leafColumns ctes leaf = .ok columns) :
    [leaf].mapM (r.leafTable ctes) = .ok [⟨leaf, columns⟩] := by
  rw [List.mapM_cons, List.mapM_nil, Resolver.leafTable, h]
  rfl

mutual

/-- The sources of a factor are those of the leaves of its tree. -/
theorem factor_eq_map : ∀ (factor : Factor) {tree : JoinTree} {found : List ScopeSource},
    JoinTree.ofFactor factor = .ok tree → r.factor ctes forced factor = .ok found →
    ∃ tables, tree.leaves.mapM (r.leafTable ctes) = .ok tables ∧
      found = tables.map (LeafTable.source forced)
  | .table name arguments marker label tail, tree, found, htree, hfound => by
    rw [JoinTree.ofFactor] at htree
    rw [Resolver.factor] at hfound
    obtain ⟨leaf, hleaf, hfound⟩ := bind_eq_ok.mp hfound
    rw [hleaf] at htree
    obtain rfl := Except.ok.inj htree
    obtain rfl := Except.ok.inj hfound
    cases leaf with
    | source object label =>
      exact ⟨[⟨_, r.sourceColumns? ctes object⟩], mapM_leafTable_singleton rfl, rfl⟩
    | function name label => exact ⟨[⟨_, none⟩], mapM_leafTable_singleton rfl, rfl⟩
    | derived label columns query =>
      -- A name never stands for a query in parentheses.
      unfold namedLeaf at hleaf
      dsimp only at hleaf
      split at hleaf
      · cases hleaf
      · split at hleaf <;> cases hleaf
  | .derived lateral query label, tree, found, htree, hfound => by
    rw [JoinTree.ofFactor] at htree
    rw [Resolver.factor] at hfound
    dsimp only at htree hfound
    generalize (label.map fun a => a.columns.map aliasColumnName).getD [] = names at htree hfound
    obtain rfl := Except.ok.inj htree
    split at hfound
    · -- The query resolves for the scope as it does for the leaf's own columns.
      rename_i hrows
      obtain ⟨resolved, hresolved, hfound⟩ := bind_eq_ok.mp hfound
      obtain rfl := Except.ok.inj hfound
      refine ⟨[⟨_, some _⟩], mapM_leafTable_singleton ?_, rfl⟩
      rw [Resolver.leafColumns, if_pos hrows, hresolved]
      rfl
    · rename_i hrows
      obtain rfl := Except.ok.inj hfound
      have hcolumns : r.leafColumns ctes (.derived (label.map (·.name.value)) names query) =
          .ok (if names.isEmpty then none
            else some (names.map fun name => SourceColumn.mk name .unknown true)) := by
        rw [Resolver.leafColumns, if_neg hrows]
      exact ⟨_, mapM_leafTable_singleton hcolumns, rfl⟩
  | .joined ⟨relation, joins⟩ label, tree, found, htree, hfound => by
    rw [JoinTree.ofFactor] at htree
    rw [Resolver.factor] at hfound
    obtain ⟨first, hfirst, hfound⟩ := bind_eq_ok.mp hfound
    obtain ⟨more, hmore, hfound⟩ := bind_eq_ok.mp hfound
    obtain rfl := Except.ok.inj hfound
    exact joinedSource_eq_map ⟨relation, joins⟩ htree hfirst hmore
  | .special pieces label, tree, found, htree, hfound => by
    rw [JoinTree.ofFactor] at htree
    rw [Resolver.factor] at hfound
    obtain rfl := Except.ok.inj htree
    obtain rfl := Except.ok.inj hfound
    exact ⟨_, mapM_leafTable_singleton rfl, rfl⟩

/-- The sources of joined sources are those of the leaves of their tree. -/
theorem joinedSource_eq_map : ∀ (source : JoinedSource) {tree : JoinTree}
    {first more : List ScopeSource}, JoinTree.ofSource source = .ok tree →
    r.factor ctes forced source.relation = .ok first →
    r.joined ctes forced source.joins = .ok more →
    ∃ tables, tree.leaves.mapM (r.leafTable ctes) = .ok tables ∧
      first ++ more = tables.map (LeafTable.source forced)
  | ⟨relation, joins⟩, tree, first, more, htree, hfirst, hmore => by
    rw [JoinTree.ofSource] at htree
    obtain ⟨start, hstart, htree⟩ := bind_eq_ok.mp htree
    obtain ⟨firsts, hfirsts, rfl⟩ := factor_eq_map relation hstart hfirst
    obtain ⟨others, hothers, rfl⟩ := joined_eq_map joins hfirsts htree hmore
    exact ⟨firsts ++ others, hothers, List.map_append.symm⟩

/-- Joins add the sources of the leaves that they add to a tree. -/
theorem joined_eq_map : ∀ (joins : List Join) {tree whole : JoinTree} {tables : List LeafTable}
    {found : List ScopeSource}, tree.leaves.mapM (r.leafTable ctes) = .ok tables →
    JoinTree.withJoins tree joins = .ok whole → r.joined ctes forced joins = .ok found →
    ∃ more, whole.leaves.mapM (r.leafTable ctes) = .ok (tables ++ more) ∧
      found = more.map (LeafTable.source forced)
  | [], tree, whole, tables, found, htables, hwhole, hfound => by
    rw [JoinTree.withJoins] at hwhole
    rw [Resolver.joined] at hfound
    obtain rfl := Except.ok.inj hwhole
    obtain rfl := Except.ok.inj hfound
    exact ⟨[], by rw [List.append_nil]; exact htables, rfl⟩
  | ⟨isGlobal, operator, relation, condition⟩ :: rest, tree, whole, tables, found, htables, hwhole,
      hfound => by
    rw [JoinTree.withJoins] at hwhole
    rw [Resolver.joined] at hfound
    obtain ⟨right, hright, hwhole⟩ := bind_eq_ok.mp hwhole
    obtain ⟨first, hfirst, hfound⟩ := bind_eq_ok.mp hfound
    obtain ⟨more, hmore, hfound⟩ := bind_eq_ok.mp hfound
    obtain rfl := Except.ok.inj hfound
    obtain ⟨firsts, hfirsts, rfl⟩ := factor_eq_map relation hright hfirst
    -- The tree so far becomes the left side, so the leaves of the right side follow its own.
    have hjoin : (JoinTree.join (joinKind isGlobal operator (isNaturalJoin condition)) tree right
        (joinReferences operator relation condition)).leaves.mapM (r.leafTable ctes) =
          .ok (tables ++ firsts) := mapM_append_eq_ok htables hfirsts
    obtain ⟨others, hothers, rfl⟩ := joined_eq_map rest hjoin hwhole hmore
    rw [List.append_assoc] at hothers
    exact ⟨firsts ++ others, hothers, List.map_append.symm⟩

end

/-- Sources after a comma add those of the leaves that they add to a tree. -/
theorem more_sources_eq_map {sources : List JoinedSource} {tree whole : JoinTree}
    {tables : List LeafTable} {found : List ScopeSource}
    (htables : tree.leaves.mapM (r.leafTable ctes) = .ok tables)
    (hwhole : JoinTree.withSources tree sources = .ok whole)
    (hfound : r.sources ctes forced sources = .ok found) :
    ∃ more, whole.leaves.mapM (r.leafTable ctes) = .ok (tables ++ more) ∧
      found = more.map (LeafTable.source forced) := by
  induction sources generalizing tree tables found with
  | nil =>
    rw [JoinTree.withSources] at hwhole
    rw [Resolver.sources] at hfound
    obtain rfl := Except.ok.inj hwhole
    obtain rfl := Except.ok.inj hfound
    exact ⟨[], by rw [List.append_nil]; exact htables, rfl⟩
  | cons source rest ih =>
    obtain ⟨relation, joins⟩ := source
    rw [JoinTree.withSources] at hwhole
    rw [Resolver.sources] at hfound
    obtain ⟨next, hnext, hwhole⟩ := bind_eq_ok.mp hwhole
    obtain ⟨first, hfirst, hfound⟩ := bind_eq_ok.mp hfound
    obtain ⟨joined, hjoined, hfound⟩ := bind_eq_ok.mp hfound
    obtain ⟨more, hmore, hfound⟩ := bind_eq_ok.mp hfound
    obtain rfl := Except.ok.inj hfound
    obtain ⟨firsts, hfirsts, hsource⟩ := joinedSource_eq_map ⟨relation, joins⟩ hnext hfirst hjoined
    -- A comma is a cross join.
    have hjoin : (JoinTree.join .cross tree next []).leaves.mapM (r.leafTable ctes) =
        .ok (tables ++ firsts) := mapM_append_eq_ok htables hfirsts
    obtain ⟨others, hothers, rfl⟩ := ih hjoin hwhole hmore
    rw [List.append_assoc] at hothers
    exact ⟨firsts ++ others, hothers, by rw [hsource, List.map_append]⟩

/-- The sources of a select are those of the leaves of its tree. -/
theorem sources_eq_map {sources : List JoinedSource} {tree : JoinTree} {found : List ScopeSource}
    (htree : JoinTree.ofSources sources = .ok (some tree))
    (hfound : r.sources ctes forced sources = .ok found) :
    ∃ tables, tree.leaves.mapM (r.leafTable ctes) = .ok tables ∧
      found = tables.map (LeafTable.source forced) := by
  cases sources with
  | nil => cases htree
  | cons source rest =>
    obtain ⟨relation, joins⟩ := source
    rw [JoinTree.ofSources] at htree
    rw [Resolver.sources] at hfound
    obtain ⟨start, hstart, htree⟩ := bind_eq_ok.mp htree
    obtain ⟨whole, hwhole, htree⟩ := bind_eq_ok.mp htree
    obtain rfl := Option.some.inj (Except.ok.inj htree)
    obtain ⟨first, hfirst, hfound⟩ := bind_eq_ok.mp hfound
    obtain ⟨joined, hjoined, hfound⟩ := bind_eq_ok.mp hfound
    obtain ⟨more, hmore, hfound⟩ := bind_eq_ok.mp hfound
    obtain rfl := Except.ok.inj hfound
    obtain ⟨firsts, hfirsts, hsource⟩ := joinedSource_eq_map ⟨relation, joins⟩ hstart hfirst hjoined
    obtain ⟨others, hothers, rfl⟩ := more_sources_eq_map hfirsts hwhole hmore
    exact ⟨firsts ++ others, hothers, by rw [hsource, List.map_append]⟩

end Sources

end SchemaPlan
