import SchemaPlan.Join.Nullability
import SchemaPlan.Proofs.Join.Rows
import Mathlib.Data.List.Basic

/-!
# Forced names

Which sources of a join tree are forced, said without a traversal. A leaf may lack from a row of
the result if it is on an optional side, or if it is joined to leaves that may all lack. A leaf with
a name of its own is forced exactly if it may lack (`mem_force_iff_mayLack`).

Forcing identifies leaves by their names in lower case, so both directions need that no two leaves
of the tree share a name.
-/

namespace SchemaPlan

open SchemaPlan.Query

namespace JoinTree

/-! ## Forced names -/

/-- A leaf on an optional side has its name forced. -/
theorem force_leaf_true {source : Leaf} {name : String} {forced : List String}
    (hname : source.exposedName? = some name) :
    (JoinTree.leaf source).force true forced = insertNew (Text.lower name) forced := by
  simp only [force, hname]

/-- The sides of a join are forced one after the other. The condition is judged by what the left
side leaves forced. -/
theorem force_join (kind : JoinKind) (left right : JoinTree) (references : List String)
    (isOptional : Bool) (forced : List String) :
    (JoinTree.join kind left right references).force isOptional forced =
      right.force
        (isOptional || kind.optionalSides.2 || (kind.followsReferences &&
          left.namesOnlyForced references (left.force (isOptional || kind.optionalSides.1) forced)))
        (left.force (isOptional || kind.optionalSides.1) forced) := rfl

theorem mem_insertNew {name other : String} {names : List String} :
    name ∈ insertNew other names ↔ name = other ∨ name ∈ names := by
  unfold insertNew
  split
  · rename_i hmem
    rw [List.contains_iff_mem] at hmem
    constructor
    · exact Or.inr
    · rintro (rfl | h)
      · exact hmem
      · exact h
  · rw [List.mem_append, List.mem_singleton]
    exact or_comm

/-- Forcing adds names and removes none. -/
theorem mem_force_of_mem {tree : JoinTree} {isOptional : Bool} {forced : List String}
    {name : String} (h : name ∈ forced) : name ∈ tree.force isOptional forced := by
  induction tree generalizing isOptional forced with
  | leaf source =>
    unfold force
    split
    · exact mem_insertNew.mpr (Or.inr h)
    · exact h
  -- What the left side keeps is kept by the right side, too.
  | join kind left right references ihl ihr => exact ihr (ihl h)

/-- On an optional side the names of all leaves are forced. -/
theorem mem_force_true {tree : JoinTree} {forced : List String} {i : Nat} {source : Leaf}
    {name : String} (hleaf : tree.leaves[i]? = some source)
    (hname : source.exposedName? = some name) : Text.lower name ∈ tree.force true forced := by
  induction tree generalizing forced i with
  | leaf only =>
    obtain rfl : only = source := by
      rw [leaves, List.getElem?_singleton] at hleaf
      split at hleaf
      · exact Option.some.inj hleaf
      · cases hleaf
    rw [force_leaf_true hname]
    exact mem_insertNew.mpr (Or.inl rfl)
  | join kind left right references ihl ihr =>
    -- Both sides are forced, the right one from what the left one leaves.
    rw [force_join, Bool.true_or, Bool.true_or, Bool.true_or]
    have hi := (List.getElem?_eq_some_iff.mp hleaf).1
    rcases left_or_right_of_lt hi with hlt | ⟨j, -, rfl⟩
    · rw [getElem?_leaves_left hlt] at hleaf
      exact mem_force_of_mem (ihl hleaf)
    · rw [getElem?_leaves_right] at hleaf
      exact ihr hleaf

/-- The name of a leaf on an optional side is forced. -/
theorem mem_force_of_onOptionalSide {tree : JoinTree} {isOptional : Bool} {forced : List String}
    {i : Nat} {source : Leaf} {name : String} (hside : tree.OnOptionalSide i)
    (hleaf : tree.leaves[i]? = some source) (hname : source.exposedName? = some name) :
    Text.lower name ∈ tree.force isOptional forced := by
  induction tree generalizing isOptional forced i with
  | leaf only => exact absurd hside (not_onOptionalSide_leaf only i)
  | join kind left right references ihl ihr =>
    rw [force_join]
    rcases left_or_right_of_lt hside.lt with hlt | ⟨j, hj, rfl⟩
    · rw [getElem?_leaves_left hlt] at hleaf
      -- It is enough that the left side forces the name: the right side takes none away.
      apply mem_force_of_mem
      rcases (onOptionalSide_join_left hlt).mp hside with hopt | hside
      · rw [hopt, Bool.or_true]
        exact mem_force_true hleaf hname
      · exact ihl hside hleaf
    · rw [getElem?_leaves_right] at hleaf
      rcases (onOptionalSide_join_right hj).mp hside with hopt | hside
      · rw [hopt, Bool.or_true, Bool.true_or]
        exact mem_force_true hleaf hname
      · exact ihr hside hleaf

/-! ## Leaves by name -/

/-- The leaf with a number has a name that is `key` in lower case. -/
def Exposes (tree : JoinTree) (i : Nat) (key : String) : Prop :=
  ∃ source name, tree.leaves[i]? = some source ∧ source.exposedName? = some name ∧
    Text.lower name = key

/-- No two leaves of a tree have the same name. -/
def UniqueNames (tree : JoinTree) : Prop :=
  ∀ i j key, tree.Exposes i key → tree.Exposes j key → i = j

theorem Exposes.lt {tree : JoinTree} {i : Nat} {key : String} (h : tree.Exposes i key) :
    i < tree.leaves.length := by
  obtain ⟨source, name, hleaf, -, -⟩ := h
  exact (List.getElem?_eq_some_iff.mp hleaf).1

/-- The leaves of a part have the names that they have in the tree. -/
theorem Part.exposes_iff {tree part : JoinTree} {start j : Nat} {key : String}
    (h : tree.Part start part) (hj : j < part.leaves.length) :
    tree.Exposes (start + j) key ↔ part.Exposes j key := by
  unfold Exposes
  rw [h.leaves_get hj]

theorem UniqueNames.part {tree part : JoinTree} {start : Nat} (hunique : tree.UniqueNames)
    (hpart : tree.Part start part) : part.UniqueNames := by
  intro i j key hi hj
  have hij := hunique _ _ key ((hpart.exposes_iff hi.lt).mpr hi) ((hpart.exposes_iff hj.lt).mpr hj)
  omega

section Join

variable {kind : JoinKind} {left right : JoinTree} {references : List String} {i j : Nat}
  {key : String}

theorem exposes_join_left (hi : i < left.leaves.length) :
    (JoinTree.join kind left right references).Exposes i key ↔ left.Exposes i key := by
  have hpart : (JoinTree.join kind left right references).Part 0 left := .left .whole
  have h : (JoinTree.join kind left right references).Exposes (0 + i) key ↔ left.Exposes i key :=
    hpart.exposes_iff hi
  rw [Nat.zero_add] at h
  exact h

theorem exposes_join_right (hj : j < right.leaves.length) :
    (JoinTree.join kind left right references).Exposes (left.leaves.length + j) key ↔
      right.Exposes j key := by
  have hpart : (JoinTree.join kind left right references).Part (left.leaves.length + 0) right :=
    .right .whole
  exact hpart.exposes_iff hj

theorem UniqueNames.leftSide (h : (JoinTree.join kind left right references).UniqueNames) :
    left.UniqueNames := h.part (.left .whole)

theorem UniqueNames.rightSide (h : (JoinTree.join kind left right references).UniqueNames) :
    right.UniqueNames := h.part (.right .whole)

/-- No name is found on both sides of a join. -/
theorem UniqueNames.disjoint (h : (JoinTree.join kind left right references).UniqueNames)
    (hleft : left.Exposes i key) : ¬ right.Exposes j key := by
  intro hright
  have hi := hleft.lt
  have hij := h _ _ key ((exposes_join_left hi).mpr hleft) ((exposes_join_right hright.lt).mpr hright)
  omega

end Join

/-- The exposed names of a tree are those of its leaves. -/
theorem mem_exposedNames {tree : JoinTree} {key : String} :
    key ∈ tree.exposedNames ↔ ∃ i, tree.Exposes i key := by
  unfold exposedNames Exposes
  constructor
  · intro h
    obtain ⟨name, hname, rfl⟩ := List.mem_map.mp h
    obtain ⟨source, hsource, hexposed⟩ := List.mem_filterMap.mp hname
    obtain ⟨i, hi⟩ := List.mem_iff_getElem?.mp hsource
    exact ⟨i, source, name, hi, hexposed, rfl⟩
  · rintro ⟨i, source, name, hi, hexposed, rfl⟩
    have hsource : source ∈ tree.leaves := List.mem_iff_getElem?.mpr ⟨i, hi⟩
    exact List.mem_map.mpr ⟨name, List.mem_filterMap.mpr ⟨source, hsource, hexposed⟩, rfl⟩

/-! ## Leaves that may lack -/

/-- A condition names a leaf. -/
def NamedBy (tree : JoinTree) (references : List String) (i : Nat) : Prop :=
  ∃ key ∈ references, tree.Exposes i key

/-- The leaf with a number may be lacking from a row. -/
inductive MayLack (tree : JoinTree) : Nat → Prop where
  | optional {i : Nat} : tree.OnOptionalSide i → MayLack tree i
  /-- The right side of an inner join or a `CROSS APPLY` follows the left leaves that the condition
  names: if there are some and all of them may lack, then so may every leaf on the right. -/
  | follows {start : Nat} {kind : JoinKind} {left right : JoinTree} {references : List String}
      {i : Nat} :
      tree.Part start (.join kind left right references) →
      kind.followsReferences = true →
      start + left.leaves.length ≤ i →
      i < start + left.leaves.length + right.leaves.length →
      (∃ j, left.NamedBy references j) →
      (∀ j, left.NamedBy references j → MayLack tree (start + j)) →
      MayLack tree i

/-- What a condition has to name for the right side to be forced. -/
theorem namesOnlyForced_iff {left : JoinTree} {references forced : List String} :
    left.namesOnlyForced references forced = true ↔
      (∃ i, left.NamedBy references i) ∧
        ∀ i key, left.Exposes i key → key ∈ references → key ∈ forced := by
  unfold namesOnlyForced NamedBy
  rw [Bool.and_eq_true, Bool.not_eq_true', List.isEmpty_eq_false_iff_exists_mem, List.all_eq_true]
  simp only [List.mem_filter, mem_exposedNames, List.contains_iff_mem]
  constructor
  · rintro ⟨⟨key, ⟨i, hexposes⟩, hkey⟩, hall⟩
    exact ⟨⟨i, key, hkey, hexposes⟩, fun i key hexposes hkey => hall key ⟨⟨i, hexposes⟩, hkey⟩⟩
  · rintro ⟨⟨i, key, hkey, hexposes⟩, hall⟩
    exact ⟨⟨key, ⟨i, hexposes⟩, hkey⟩, fun key ⟨⟨i, hexposes⟩, hkey⟩ => hall i key hexposes hkey⟩

/-! ## Forced names are those that may lack -/

/-- A tree forces no names but those of its leaves. -/
theorem mem_or_exposes_of_mem_force {tree : JoinTree} {isOptional : Bool} {forced : List String}
    {key : String} (h : key ∈ tree.force isOptional forced) :
    key ∈ forced ∨ ∃ i, tree.Exposes i key := by
  induction tree generalizing isOptional forced with
  | leaf source =>
    unfold force at h
    split at h
    · rename_i name hname
      rcases mem_insertNew.mp h with rfl | h
      · exact Or.inr ⟨0, source, name, rfl, hname, rfl⟩
      · exact Or.inl h
    · exact Or.inl h
  | join kind left right references ihl ihr =>
    rw [force_join] at h
    rcases ihr h with h | ⟨j, hexposes⟩
    · rcases ihl h with h | ⟨i, hexposes⟩
      · exact Or.inl h
      · exact Or.inr ⟨i, (exposes_join_left hexposes.lt).mpr hexposes⟩
    · exact Or.inr ⟨_, (exposes_join_right hexposes.lt).mpr hexposes⟩

/-- A name of the left side is forced by a join only if the left side forces it. -/
theorem mem_force_left {kind : JoinKind} {left right : JoinTree} {references : List String}
    (hunique : (JoinTree.join kind left right references).UniqueNames) {isOptional : Bool}
    {forced : List String} {i : Nat} {key : String} (hexposes : left.Exposes i key)
    (h : key ∈ right.force isOptional forced) : key ∈ forced := by
  rcases mem_or_exposes_of_mem_force h with h | ⟨j, hright⟩
  · exact h
  · exact absurd hright (hunique.disjoint hexposes)

/-- Soundness, for the part of a tree that starts at a leaf. It is forced as a whole only where all
of its leaves may lack, and what was forced before are names of other leaves. -/
theorem mayLack_of_mem_force {tree part : JoinTree} {start : Nat} (hpart : tree.Part start part)
    (hunique : part.UniqueNames) {isOptional : Bool} {forced : List String}
    (hoptional : isOptional = true → ∀ j < part.leaves.length, tree.MayLack (start + j))
    (hbefore : ∀ key ∈ forced, ∀ j, ¬ part.Exposes j key) {j : Nat} {key : String}
    (hexposes : part.Exposes j key) (h : key ∈ part.force isOptional forced) :
    tree.MayLack (start + j) := by
  -- The induction carries what the traversal carries: the flag and the names forced so far.
  induction part generalizing start isOptional forced j key with
  | leaf source =>
    cases isOptional with
    | true => exact hoptional rfl j hexposes.lt
    -- A leaf that is not optional adds no name, so the name was there before.
    | false => exact absurd hexposes (hbefore key h j)
  | join kind left right references ihl ihr =>
    rw [length_leaves_join] at hoptional
    rw [force_join] at h
    -- What the left side forces may lack: it is judged by the flag of the join and its own side.
    have hforcedLeft {i : Nat} {key : String} (hexposes : left.Exposes i key)
        (h : key ∈ left.force (isOptional || kind.optionalSides.1) forced) :
        tree.MayLack (start + i) := by
      refine ihl hpart.leftSide hunique.leftSide ?_ ?_ hexposes h
      · intro hflag i hi
        rcases (Bool.or_eq_true _ _).mp hflag with hflag | hside
        · exact hoptional hflag i (by omega)
        · refine .optional ⟨start, kind, left, right, references, hpart, Or.inl ⟨hside, ?_, ?_⟩⟩
          · omega
          · omega
      · intro key hkey i hexposes
        exact hbefore key hkey i ((exposes_join_left hexposes.lt).mpr hexposes)
    rcases left_or_right_of_lt hexposes.lt with hlt | ⟨i, hi, rfl⟩
    · have hexposes := (exposes_join_left hlt).mp hexposes
      exact hforcedLeft hexposes (mem_force_left hunique hexposes h)
    · rw [← Nat.add_assoc]
      refine ihr hpart.rightSide hunique.rightSide ?_ ?_ ((exposes_join_right hi).mp hexposes) h
      · intro hflag i hi
        -- The right side is forced by the flag, by the kind of the join or by its condition.
        rcases (Bool.or_eq_true _ _).mp hflag with hflag | hchained
        · rcases (Bool.or_eq_true _ _).mp hflag with hflag | hside
          · rw [Nat.add_assoc]
            exact hoptional hflag _ (by omega)
          · refine .optional ⟨start, kind, left, right, references, hpart, Or.inr ⟨hside, ?_, ?_⟩⟩
            · omega
            · omega
        · obtain ⟨hfollows, hnames⟩ := (Bool.and_eq_true _ _).mp hchained
          obtain ⟨hnamed, hall⟩ := namesOnlyForced_iff.mp hnames
          refine .follows hpart hfollows (by omega) (by omega) hnamed ?_
          rintro i ⟨key, hkey, hexposes⟩
          exact hforcedLeft hexposes (hall i key hexposes hkey)
      · intro key hkey i hexposes
        rcases mem_or_exposes_of_mem_force hkey with hkey | ⟨i', hleftExposes⟩
        · exact hbefore key hkey _ ((exposes_join_right hexposes.lt).mpr hexposes)
        -- What the left side added are names of left leaves.
        · exact hunique.disjoint hleftExposes hexposes

/-- Forcing a tree comes to forcing a part of it at some point. From then on no name of the part is
added, and no name is taken away. -/
theorem exists_force_part {tree part : JoinTree} {start : Nat} (hpart : tree.Part start part)
    (hunique : tree.UniqueNames) (isOptional : Bool) (forced : List String) :
    ∃ partOptional partForced,
      (∀ j key, part.Exposes j key → key ∈ tree.force isOptional forced →
        key ∈ part.force partOptional partForced) ∧
      ∀ key ∈ part.force partOptional partForced, key ∈ tree.force isOptional forced := by
  induction hpart generalizing isOptional forced with
  | whole => exact ⟨isOptional, forced, fun _ _ _ h => h, fun _ h => h⟩
  | @left kind left right part references start hpart ih =>
    obtain ⟨partOptional, partForced, hin, hout⟩ :=
      ih hunique.leftSide (isOptional || kind.optionalSides.1) forced
    refine ⟨partOptional, partForced, fun j key hexposes h => ?_, fun key h => ?_⟩
    · -- The right side is forced after the part and adds no name that the part has.
      rw [force_join] at h
      have hleft := (hpart.exposes_iff hexposes.lt).mpr hexposes
      exact hin j key hexposes (mem_force_left hunique hleft h)
    · rw [force_join]
      exact mem_force_of_mem (hout key h)
  -- The right side is forced last, so the join adds nothing to it.
  | right hpart ih => exact ih hunique.rightSide _ _

/-- Completeness: the name of a leaf that may lack is forced. -/
theorem mem_force_of_mayLack {tree : JoinTree} (hunique : tree.UniqueNames) {i : Nat}
    (h : tree.MayLack i) {key : String} (hexposes : tree.Exposes i key) :
    key ∈ tree.force false [] := by
  induction h generalizing key with
  | optional hside =>
    obtain ⟨source, name, hleaf, hname, rfl⟩ := hexposes
    exact mem_force_of_onOptionalSide hside hleaf hname
  | @follows start kind left right references i hpart hfollows hge hlt hnamed _ ih =>
    obtain ⟨joinOptional, joinForced, hin, hout⟩ := exists_force_part hpart hunique false []
    have hjoin : (JoinTree.join kind left right references).UniqueNames := hunique.part hpart
    -- By the time the condition is judged, all left leaves that it names are forced.
    have hall : ∀ j key, left.Exposes j key → key ∈ references →
        key ∈ left.force (joinOptional || kind.optionalSides.1) joinForced := by
      intro j key hexposes hkey
      have hinJoin : (JoinTree.join kind left right references).Exposes j key :=
        (exposes_join_left hexposes.lt).mpr hexposes
      have hforced : key ∈ tree.force false [] :=
        ih j ⟨key, hkey, hexposes⟩ ((hpart.exposes_iff hinJoin.lt).mpr hinJoin)
      have hmem := hin j key hinJoin hforced
      rw [force_join] at hmem
      exact mem_force_left hjoin hexposes hmem
    have hnames := namesOnlyForced_iff.mpr ⟨hnamed, hall⟩
    -- Hence the right side is forced as a whole, and the leaf is one of its leaves.
    apply hout
    rw [force_join, hfollows, hnames, Bool.and_self, Bool.or_true]
    obtain ⟨j, rfl⟩ : ∃ j, i = start + (left.leaves.length + j) :=
      ⟨i - (start + left.leaves.length), by omega⟩
    have hj : j < right.leaves.length := by omega
    have hinJoin := (hpart.exposes_iff (by rw [length_leaves_join]; omega)).mp hexposes
    obtain ⟨source, name, hleaf, hname, rfl⟩ := (exposes_join_right hj).mp hinJoin
    exact mem_force_true hleaf hname

/-- A leaf with a name is forced exactly if it may lack. -/
theorem mem_force_iff_mayLack {tree : JoinTree} (hunique : tree.UniqueNames) {i : Nat}
    {key : String} (hexposes : tree.Exposes i key) :
    key ∈ tree.force false [] ↔ tree.MayLack i := by
  constructor
  · intro h
    -- At the root nothing is optional and nothing forced.
    have hlacks := mayLack_of_mem_force .whole hunique (fun hfalse => by cases hfalse)
      (fun _ hnil => by cases hnil) hexposes h
    rw [Nat.zero_add] at hlacks
    exact hlacks
  · intro h
    exact mem_force_of_mayLack hunique h hexposes

end JoinTree

end SchemaPlan
