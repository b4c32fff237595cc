import SchemaPlan.Proofs.Join.Forcing
import Mathlib.Data.List.Nodup
import Mathlib.Data.Set.Card

/-!
# The forced leaves as a least set

What forcing should come to, said by rules alone: a leaf on an optional side is forced, and the
right side of an inner join or a `CROSS APPLY` is forced if the condition names left leaves, all of
which are forced. A set of leaves that meets both rules is closed, and the forced leaves are the
least closed set (`forced_isLeast_closed`). So the one pass from left to right misses nothing that
a repeated one would find, however joins are nested and chained.
-/

namespace SchemaPlan

open SchemaPlan.Query

namespace JoinTree

/-! ## Closed sets -/

/-- A set of leaves, by number, that is closed under what makes a leaf optional. -/
structure IsClosed (tree : JoinTree) (leaves : Set Nat) : Prop where
  /-- A leaf on the optional side of a join above it. -/
  optional : ∀ i, tree.OnOptionalSide i → i ∈ leaves
  /-- The right side of a join whose condition names left leaves, and only such that are members.
  Names of other leaves do not count. -/
  follows : ∀ start kind left right references,
    tree.Part start (.join kind left right references) → kind = .inner ∨ kind = .crossApply →
    (∃ j, left.NamedBy references j) → (∀ j, left.NamedBy references j → start + j ∈ leaves) →
    ∀ j < right.leaves.length, start + left.leaves.length + j ∈ leaves

theorem followsReferences_iff {kind : JoinKind} :
    kind.followsReferences = true ↔ kind = .inner ∨ kind = .crossApply := by
  cases kind <;> decide

/-- The leaves that may lack are the least closed set. -/
theorem mayLack_isLeast_closed (tree : JoinTree) :
    IsLeast {leaves | tree.IsClosed leaves} {i | tree.MayLack i} := by
  constructor
  · refine ⟨fun i hside => .optional hside, ?_⟩
    intro start kind left right references hpart hkind hnamed hall j hj
    exact .follows hpart (followsReferences_iff.mpr hkind) (by omega) (by omega) hnamed hall
  · intro leaves hclosed i hlacks
    induction hlacks with
    | optional hside => exact hclosed.optional _ hside
    | @follows start kind left right references i hpart hkind hge hlt hnamed _ ih =>
      have hmem := hclosed.follows _ _ _ _ _ hpart (followsReferences_iff.mp hkind) hnamed ih
        (i - (start + left.leaves.length)) (by omega)
      rwa [Nat.add_sub_cancel' hge] at hmem

/-! ## Forced leaves -/

/-- The leaf with a number is exposed under a forced name. -/
def Forces (tree : JoinTree) (i : Nat) : Prop :=
  ∃ leaf, tree.leaves[i]? = some leaf ∧ ∃ name, leaf.exposedName? = some name ∧
    isForced (forcedNames (some tree)) name = true

theorem forces_iff {tree : JoinTree} {i : Nat} :
    tree.Forces i ↔ ∃ key ∈ forcedNames (some tree), tree.Exposes i key := by
  constructor
  · rintro ⟨leaf, hleaf, name, hname, hforced⟩
    exact ⟨Text.lower name, List.contains_iff_mem.mp hforced, leaf, name, hleaf, hname, rfl⟩
  · rintro ⟨key, hkey, leaf, name, hleaf, hname, rfl⟩
    exact ⟨leaf, hleaf, name, hname, List.contains_iff_mem.mpr hkey⟩

/-- Every leaf is exposed under a name. -/
def AllExposed (tree : JoinTree) : Prop := ∀ leaf ∈ tree.leaves, leaf.exposedName?.isSome = true

theorem AllExposed.exists_exposes {tree : JoinTree} (h : tree.AllExposed) {i : Nat}
    (hi : i < tree.leaves.length) : ∃ key, tree.Exposes i key := by
  obtain ⟨name, hname⟩ := Option.isSome_iff_exists.mp (h _ (List.getElem_mem hi))
  exact ⟨Text.lower name, _, name, List.getElem?_eq_getElem hi, hname, rfl⟩

theorem MayLack.lt {tree : JoinTree} {i : Nat} (h : tree.MayLack i) : i < tree.leaves.length := by
  cases h with
  | optional hside => exact hside.lt
  | follows hpart _ _ hlt =>
    have hle := hpart.leaves_le
    rw [length_leaves_join] at hle
    omega

/-- Exposed names that are all different belong to one leaf each. -/
theorem uniqueNames_of_nodup {tree : JoinTree} (h : tree.exposedNames.Nodup) :
    tree.UniqueNames := by
  have hpairs := List.pairwise_filterMap.mp (List.pairwise_map.mp h)
  have hlt : ∀ i j key, tree.Exposes i key → tree.Exposes j key → ¬ i < j := by
    rintro i j key ⟨leaf, name, hleaf, hname, rfl⟩ ⟨leaf', name', hleaf', hname', hsame⟩ hij
    obtain ⟨hi, rfl⟩ := List.getElem?_eq_some_iff.mp hleaf
    obtain ⟨hj, rfl⟩ := List.getElem?_eq_some_iff.mp hleaf'
    exact List.pairwise_iff_getElem.mp hpairs i j hi hj hij name hname name' hname' hsame.symm
  intro i j key hi hj
  have hij := hlt i j key hi hj
  have hji := hlt j i key hj hi
  omega

theorem forces_iff_mayLack {tree : JoinTree} (hexposed : tree.AllExposed)
    (hunique : tree.UniqueNames) {i : Nat} : tree.Forces i ↔ tree.MayLack i := by
  rw [forces_iff]
  constructor
  · rintro ⟨key, hkey, hexposes⟩
    exact (mem_force_iff_mayLack hunique hexposes).mp hkey
  · intro hlacks
    obtain ⟨key, hexposes⟩ := hexposed.exists_exposes hlacks.lt
    exact ⟨key, (mem_force_iff_mayLack hunique hexposes).mpr hlacks, hexposes⟩

/-! ## How many there are -/

theorem nodup_insertNew {names : List String} (h : names.Nodup) (name : String) :
    (insertNew name names).Nodup := by
  unfold insertNew
  split
  · exact h
  · rename_i hnew
    rw [List.contains_iff_mem] at hnew
    exact List.nodup_append.mpr ⟨h, List.nodup_singleton name, by
      rintro a ha _ hb rfl
      exact hnew (List.mem_singleton.mp hb ▸ ha)⟩

/-- No name is forced twice. -/
theorem nodup_force {tree : JoinTree} {isOptional : Bool} {forced : List String}
    (h : forced.Nodup) : (tree.force isOptional forced).Nodup := by
  induction tree generalizing isOptional forced with
  | leaf source =>
    unfold force
    split
    · exact nodup_insertNew h _
    · exact h
  | join kind left right references ihl ihr => exact ihr (ihl h)

/-- There are as many forced names as forced leaves. -/
theorem length_forcedNames {tree : JoinTree} (hunique : tree.UniqueNames) :
    (forcedNames (some tree)).length = {i | tree.Forces i}.ncard := by
  have hnodup : (forcedNames (some tree)).Nodup := nodup_force List.nodup_nil
  rw [← List.toFinset_card_of_nodup hnodup, ← Set.ncard_coe_finset]
  -- Each forced name belongs to one leaf, and that leaf has no other name.
  have hleaf : ∀ key ∈ forcedNames (some tree), ∃ i, tree.Exposes i key := fun key hkey =>
    (mem_or_exposes_of_mem_force hkey).resolve_left List.not_mem_nil
  refine Set.ncard_congr (fun key hkey => (hleaf key (List.mem_toFinset.mp hkey)).choose) ?_ ?_ ?_
  · intro key hkey
    have hkey := List.mem_toFinset.mp hkey
    exact forces_iff.mpr ⟨key, hkey, (hleaf key hkey).choose_spec⟩
  · intro key other hkey hother hsame
    obtain ⟨leaf, name, hleaf', hname, rfl⟩ := (hleaf key (List.mem_toFinset.mp hkey)).choose_spec
    obtain ⟨leaf', name', hleaf'', hname', rfl⟩ :=
      (hleaf other (List.mem_toFinset.mp hother)).choose_spec
    rw [← hsame, hleaf'] at hleaf''
    obtain rfl := Option.some.inj hleaf''
    rw [hname] at hname'
    rw [Option.some.inj hname']
  · intro i hforces
    obtain ⟨key, hkey, hexposes⟩ := forces_iff.mp hforces
    refine ⟨key, List.mem_toFinset.mpr hkey, ?_⟩
    exact hunique _ _ key (hleaf key hkey).choose_spec hexposes

/-! ## The least closed set -/

/-- If every leaf is exposed under a name and no two share one in lower case, then the forced leaves
are the least closed set, and there are as many forced names as leaves in it. -/
theorem forced_isLeast_closed {tree : JoinTree} (hexposed : tree.AllExposed)
    (hdistinct : tree.exposedNames.Nodup) :
    IsLeast {leaves | tree.IsClosed leaves} {i | tree.Forces i} ∧
      (forcedNames (some tree)).length = {i | tree.Forces i}.ncard := by
  have hunique := uniqueNames_of_nodup hdistinct
  refine ⟨?_, length_forcedNames hunique⟩
  have hsame : {i | tree.Forces i} = {i | tree.MayLack i} :=
    Set.ext fun i => forces_iff_mayLack hexposed hunique
  rw [hsame]
  exact mayLack_isLeast_closed tree

/-- In `a LEFT JOIN b ON .. JOIN c ON c.x = b.x CROSS APPLY f(c.x)` the forced leaves are the three
after `a`: each is forced by the one before it, and none by a name that is not on its left. -/
theorem forced_of_chained_joins :
    let leaf := fun name => JoinTree.leaf (.source (.unqualified name) none)
    let tree := JoinTree.join .crossApply
      (.join .inner (.join .leftOuter (leaf "a") (leaf "B") ["a", "b"]) (leaf "c") ["c", "b"])
      (leaf "f") ["c", "z"]
    tree.AllExposed ∧ tree.exposedNames.Nodup ∧
      IsLeast {leaves | tree.IsClosed leaves} {i | tree.Forces i} ∧
      {i | tree.Forces i}.ncard = 3 ∧ ¬ tree.Forces 0 := by
  intro leaf tree
  have hexposed : tree.AllExposed := by
    intro source hsource
    revert source hsource
    decide
  have hdistinct : tree.exposedNames.Nodup := by decide +kernel
  obtain ⟨hleast, hcount⟩ := forced_isLeast_closed hexposed hdistinct
  refine ⟨hexposed, hdistinct, hleast, ?_, ?_⟩
  · rw [← hcount]
    decide +kernel
  · rintro ⟨source, hsource, name, hname, hforced⟩
    obtain rfl := Option.some.inj hsource
    obtain rfl := Option.some.inj hname
    revert hforced
    decide +kernel

end JoinTree

end SchemaPlan
