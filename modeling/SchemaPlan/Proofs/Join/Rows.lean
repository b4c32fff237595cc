import SchemaPlan.Join.Tree

/-!
# The rows of a join tree

What a join tree yields when its leaves hold rows. A row of the result says for each leaf which row
it contributes, or that the leaf is absent: a row of an outer join or an `OUTER APPLY` that finds no
partner is padded by marking every leaf of the missing side absent.

The right side of an `APPLY` is evaluated once for each left row, so the rows of a leaf may depend
on the row that the sides around it are applied to.

`OnOptionalSide` is the matching notion on trees alone: some join above the leaf has it on a side
that may be missing.
-/

namespace SchemaPlan

/-! ## Evaluation -/

/-- A row of joined sources: for each leaf, from left to right, the row that it contributes, or
nothing if it is absent. -/
abbrev JoinedRow (Row : Type) := List (Option Row)

/-- What the leaves of a tree hold and which rows its joins match. Leaves are numbered from left to
right. A join goes by the number of the first leaf of its right side, which it shares with no other
join. -/
structure JoinData (Row : Type) where
  /-- The rows of a leaf, for the row that the sides around it are applied to. -/
  rows : Nat → JoinedRow Row → List Row
  /-- Whether the condition of a join holds, given the row that the sides around it are applied to, a
  left row and a right row. -/
  holds : Nat → JoinedRow Row → JoinedRow Row → JoinedRow Row → Bool

/-- A row in which none of the leaves of a side is present. -/
def absentRow {Row : Type} (side : JoinTree) : JoinedRow Row :=
  List.replicate side.leaves.length none

/-- The partners that were found in a side, or an absent row if there are none. -/
def orAbsent {Row : Type} (side : JoinTree) (found : List (JoinedRow Row)) : List (JoinedRow Row) :=
  if found.isEmpty then [absentRow side] else found

namespace JoinTree

variable {Row : Type}

/-- The rows of a tree whose first leaf has the number `start`, applied to the row `outer`. -/
def rows (data : JoinData Row) (start : Nat) (outer : JoinedRow Row) :
    JoinTree → List (JoinedRow Row)
  | .leaf _ => (data.rows start outer).map fun row => [some row]
  | .join kind left right _ =>
    let middle := start + left.leaves.length
    let lefts := left.rows data start outer
    let rights := right.rows data middle outer
    -- Only the right side of an `APPLY` is given the left row as well.
    let applied := fun l => right.rows data middle (outer ++ l)
    let holds := data.holds middle outer
    match kind with
    | .inner => lefts.flatMap fun l => (rights.filter fun r => holds l r).map (l ++ ·)
    | .cross => lefts.flatMap fun l => rights.map (l ++ ·)
    | .leftOuter =>
      lefts.flatMap fun l => (orAbsent right (rights.filter fun r => holds l r)).map (l ++ ·)
    | .rightOuter =>
      rights.flatMap fun r => (orAbsent left (lefts.filter fun l => holds l r)).map (· ++ r)
    | .fullOuter =>
      (lefts.flatMap fun l => (orAbsent right (rights.filter fun r => holds l r)).map (l ++ ·)) ++
        (rights.filter fun r => !lefts.any fun l => holds l r).map (absentRow left ++ ·)
    | .crossApply => lefts.flatMap fun l => (applied l).map (l ++ ·)
    | .outerApply => lefts.flatMap fun l => (orAbsent right (applied l)).map (l ++ ·)

/-! ## Optional sides -/

/-- A part of a tree, with the number of its first leaf. -/
inductive Part : JoinTree → Nat → JoinTree → Prop where
  | whole {tree : JoinTree} : Part tree 0 tree
  | left {kind : JoinKind} {left right part : JoinTree} {references : List String} {start : Nat} :
      Part left start part → Part (.join kind left right references) start part
  | right {kind : JoinKind} {left right part : JoinTree} {references : List String} {start : Nat} :
      Part right start part →
      Part (.join kind left right references) (left.leaves.length + start) part

/-- The leaf with a number lies on a side of some join above it that may be absent. -/
def OnOptionalSide (tree : JoinTree) (i : Nat) : Prop :=
  ∃ start kind left right references, tree.Part start (.join kind left right references) ∧
    ((kind.optionalSides.1 = true ∧ start ≤ i ∧ i < start + left.leaves.length) ∨
      (kind.optionalSides.2 = true ∧ start + left.leaves.length ≤ i ∧
        i < start + left.leaves.length + right.leaves.length))

theorem length_leaves_join (kind : JoinKind) (left right : JoinTree) (references : List String) :
    (JoinTree.join kind left right references).leaves.length =
      left.leaves.length + right.leaves.length := by
  rw [leaves, List.length_append]

/-- A leaf of a join is on its left side, or on its right side and numbered after the left ones. -/
theorem left_or_right_of_lt {kind : JoinKind} {left right : JoinTree} {references : List String}
    {i : Nat} (hi : i < (JoinTree.join kind left right references).leaves.length) :
    i < left.leaves.length ∨ ∃ j < right.leaves.length, i = left.leaves.length + j := by
  rw [length_leaves_join] at hi
  by_cases hlt : i < left.leaves.length
  · exact Or.inl hlt
  · exact Or.inr ⟨i - left.leaves.length, by omega, by omega⟩

theorem getElem?_leaves_left {kind : JoinKind} {left right : JoinTree} {references : List String}
    {i : Nat} (hi : i < left.leaves.length) :
    (JoinTree.join kind left right references).leaves[i]? = left.leaves[i]? := by
  rw [leaves, List.getElem?_append_left hi]

theorem getElem?_leaves_right (kind : JoinKind) (left right : JoinTree) (references : List String)
    (j : Nat) : (JoinTree.join kind left right references).leaves[left.leaves.length + j]? =
      right.leaves[j]? := by
  rw [leaves, List.getElem?_append_right (Nat.le_add_right _ _), Nat.add_sub_cancel_left]

/-- A part of a tree has its leaves among those of the tree. -/
theorem Part.leaves_le {tree part : JoinTree} {start : Nat} (h : tree.Part start part) :
    start + part.leaves.length ≤ tree.leaves.length := by
  induction h with
  | whole => omega
  | left _ ih =>
    rw [length_leaves_join]
    omega
  | right _ ih =>
    rw [length_leaves_join]
    omega

/-- The leaves of a part are those of the tree from its first one on. -/
theorem Part.leaves_get {tree part : JoinTree} {start : Nat} (h : tree.Part start part)
    {i : Nat} (hi : i < part.leaves.length) :
    tree.leaves[start + i]? = part.leaves[i]? := by
  induction h with
  | whole => rw [Nat.zero_add]
  | left h ih =>
    have hle := h.leaves_le
    rw [getElem?_leaves_left (by omega)]
    exact ih hi
  | right h ih =>
    -- The number counts the left leaves as well, which the right side does not know of.
    rw [Nat.add_assoc, getElem?_leaves_right]
    exact ih hi

theorem Part.trans {tree part inner : JoinTree} {start offset : Nat} (h : tree.Part start part)
    (hinner : part.Part offset inner) : tree.Part (start + offset) inner := by
  induction h with
  | whole =>
    rw [Nat.zero_add]
    exact hinner
  | left _ ih => exact .left (ih hinner)
  | right _ ih =>
    rw [Nat.add_assoc]
    exact .right (ih hinner)

theorem Part.leftSide {tree left right : JoinTree} {start : Nat} {kind : JoinKind}
    {references : List String} (h : tree.Part start (.join kind left right references)) :
    tree.Part start left :=
  h.trans (.left .whole)

theorem Part.rightSide {tree left right : JoinTree} {start : Nat} {kind : JoinKind}
    {references : List String} (h : tree.Part start (.join kind left right references)) :
    tree.Part (start + left.leaves.length) right :=
  h.trans (.right .whole)

/-- What is on an optional side is a leaf of the tree. -/
theorem OnOptionalSide.lt {tree : JoinTree} {i : Nat} (h : tree.OnOptionalSide i) :
    i < tree.leaves.length := by
  obtain ⟨start, kind, left, right, references, hpart, hside⟩ := h
  have hle := hpart.leaves_le
  rw [length_leaves_join] at hle
  rcases hside with ⟨-, -, hlt⟩ | ⟨-, -, hlt⟩ <;> omega

theorem not_onOptionalSide_leaf (source : Leaf) (i : Nat) :
    ¬ (JoinTree.leaf source).OnOptionalSide i := by
  rintro ⟨start, kind, left, right, references, hpart, -⟩
  cases hpart

/-- A leaf on the left of a join is on an optional side if the left side is optional, or if it is on
an optional side within the left side. -/
theorem onOptionalSide_join_left {kind : JoinKind} {left right : JoinTree}
    {references : List String} {i : Nat} (hi : i < left.leaves.length) :
    (JoinTree.join kind left right references).OnOptionalSide i ↔
      kind.optionalSides.1 = true ∨ left.OnOptionalSide i := by
  constructor
  · rintro ⟨start, kind', left', right', references', hpart, hside⟩
    cases hpart with
    | whole =>
      rcases hside with ⟨hopt, -, -⟩ | ⟨-, hge, -⟩
      · exact Or.inl hopt
      · omega
    | left hpart => exact Or.inr ⟨_, _, _, _, _, hpart, hside⟩
    | right hpart =>
      -- The numbers of the right side start after `i`.
      rcases hside with ⟨-, hge, -⟩ | ⟨-, hge, -⟩ <;> omega
  · rintro (hopt | ⟨start, kind', left', right', references', hpart, hside⟩)
    · exact ⟨0, kind, left, right, references, .whole, Or.inl ⟨hopt, by omega, by omega⟩⟩
    · exact ⟨_, _, _, _, _, .left hpart, hside⟩

/-- A leaf on the right of a join is on an optional side if the right side is optional, or if it is
on an optional side within the right side. -/
theorem onOptionalSide_join_right {kind : JoinKind} {left right : JoinTree}
    {references : List String} {i : Nat} (hi : i < right.leaves.length) :
    (JoinTree.join kind left right references).OnOptionalSide (left.leaves.length + i) ↔
      kind.optionalSides.2 = true ∨ right.OnOptionalSide i := by
  constructor
  · rintro ⟨start, kind', left', right', references', hpart, hside⟩
    cases hpart with
    | whole =>
      rcases hside with ⟨-, -, hlt⟩ | ⟨hopt, -, -⟩
      · omega
      · exact Or.inl hopt
    | left hpart =>
      -- The numbers of the left side end before that of the leaf.
      have hle := hpart.leaves_le
      rw [length_leaves_join] at hle
      rcases hside with ⟨-, -, hlt⟩ | ⟨-, -, hlt⟩ <;> omega
    | right hpart =>
      refine Or.inr ⟨_, _, _, _, _, hpart, ?_⟩
      rcases hside with ⟨hopt, hge, hlt⟩ | ⟨hopt, hge, hlt⟩
      · exact Or.inl ⟨hopt, by omega, by omega⟩
      · exact Or.inr ⟨hopt, by omega, by omega⟩
  · rintro (hopt | ⟨start, kind', left', right', references', hpart, hside⟩)
    · exact ⟨0, kind, left, right, references, .whole, Or.inr ⟨hopt, by omega, by omega⟩⟩
    · refine ⟨_, _, _, _, _, .right hpart, ?_⟩
      rcases hside with ⟨hopt, hge, hlt⟩ | ⟨hopt, hge, hlt⟩
      · exact Or.inl ⟨hopt, by omega, by omega⟩
      · exact Or.inr ⟨hopt, by omega, by omega⟩

end JoinTree

end SchemaPlan
