import SchemaPlan.Proofs.Join.Forcing

/-!
# Forced names and the rows that lack a source

Forcing is compared with the rows of a join tree. A source that is not forced is present in every
row, whatever the leaves hold and whichever conditions the joins have. Conversely no leaf on an
optional side can be relied on: some rows and conditions leave it out.

The first half rests on `mem_rows_join`, which says all that a row of a join can be, and on
`mem_force_of_onOptionalSide`. The second half evaluates a tree in which one side is empty and every
other leaf has a row.
-/

namespace SchemaPlan

open SchemaPlan.Query

namespace JoinTree

attribute [grind =] rows

/-! ## Rows of a join -/

section Rows

variable {Row : Type} {data : JoinData Row} {start : Nat} {outer : JoinedRow Row}

/-- The partners in a side are rows that were found, or the absent row. -/
theorem mem_orAbsent {side : JoinTree} {found : List (JoinedRow Row)} {row : JoinedRow Row}
    (h : row ∈ orAbsent side found) : row ∈ found ∨ row = absentRow side := by
  unfold orAbsent at h
  split at h
  · exact Or.inr (List.mem_singleton.mp h)
  · exact Or.inl h

theorem mem_orAbsent_of_mem {side : JoinTree} {found : List (JoinedRow Row)}
    {row : JoinedRow Row} (h : row ∈ found) : row ∈ orAbsent side found := by
  unfold orAbsent
  split
  · rename_i hempty
    rw [List.isEmpty_iff.mp hempty] at h
    cases h
  · exact h

/-- A row of a join is a left row followed by a right row, each of which is a row of its side or,
if the side is optional, the absent row. -/
theorem mem_rows_join {kind : JoinKind} {left right : JoinTree} {references : List String}
    {row : JoinedRow Row}
    (h : row ∈ (JoinTree.join kind left right references).rows data start outer) :
    ∃ l r, row = l ++ r ∧
      (l ∈ left.rows data start outer ∨
        (kind.optionalSides.1 = true ∧ l = absentRow left)) ∧
      ((∃ applied, r ∈ right.rows data (start + left.leaves.length) applied) ∨
        (kind.optionalSides.2 = true ∧ r = absentRow right)) := by
  cases kind with
  | inner =>
    simp only [rows, List.mem_flatMap, List.mem_map, List.mem_filter] at h
    obtain ⟨l, hl, r, ⟨hr, -⟩, rfl⟩ := h
    exact ⟨l, r, rfl, Or.inl hl, Or.inl ⟨outer, hr⟩⟩
  | cross =>
    simp only [rows, List.mem_flatMap, List.mem_map] at h
    obtain ⟨l, hl, r, hr, rfl⟩ := h
    exact ⟨l, r, rfl, Or.inl hl, Or.inl ⟨outer, hr⟩⟩
  | leftOuter =>
    simp only [rows, List.mem_flatMap, List.mem_map] at h
    obtain ⟨l, hl, r, hr, rfl⟩ := h
    rcases mem_orAbsent hr with hr | hr
    · exact ⟨l, r, rfl, Or.inl hl, Or.inl ⟨outer, (List.mem_filter.mp hr).1⟩⟩
    · exact ⟨l, r, rfl, Or.inl hl, Or.inr ⟨rfl, hr⟩⟩
  | rightOuter =>
    simp only [rows, List.mem_flatMap, List.mem_map] at h
    obtain ⟨r, hr, l, hl, rfl⟩ := h
    rcases mem_orAbsent hl with hl | hl
    · exact ⟨l, r, rfl, Or.inl (List.mem_filter.mp hl).1, Or.inl ⟨outer, hr⟩⟩
    · exact ⟨l, r, rfl, Or.inr ⟨rfl, hl⟩, Or.inl ⟨outer, hr⟩⟩
  | fullOuter =>
    simp only [rows, List.mem_append, List.mem_flatMap, List.mem_map] at h
    rcases h with ⟨l, hl, r, hr, rfl⟩ | ⟨r, hr, rfl⟩
    · rcases mem_orAbsent hr with hr | hr
      · exact ⟨l, r, rfl, Or.inl hl, Or.inl ⟨outer, (List.mem_filter.mp hr).1⟩⟩
      · exact ⟨l, r, rfl, Or.inl hl, Or.inr ⟨rfl, hr⟩⟩
    -- A right row without a partner.
    · exact ⟨absentRow left, r, rfl, Or.inr ⟨rfl, rfl⟩,
        Or.inl ⟨outer, (List.mem_filter.mp hr).1⟩⟩
  | crossApply =>
    -- The right row is one of those that the right side has for this left row.
    simp only [rows, List.mem_flatMap, List.mem_map] at h
    obtain ⟨l, hl, r, hr, rfl⟩ := h
    exact ⟨l, r, rfl, Or.inl hl, Or.inl ⟨outer ++ l, hr⟩⟩
  | outerApply =>
    simp only [rows, List.mem_flatMap, List.mem_map] at h
    obtain ⟨l, hl, r, hr, rfl⟩ := h
    rcases mem_orAbsent hr with hr | hr
    · exact ⟨l, r, rfl, Or.inl hl, Or.inl ⟨outer ++ l, hr⟩⟩
    · exact ⟨l, r, rfl, Or.inl hl, Or.inr ⟨rfl, hr⟩⟩

theorem length_of_mem_rows {tree : JoinTree} {row : JoinedRow Row}
    (h : row ∈ tree.rows data start outer) : row.length = tree.leaves.length := by
  induction tree generalizing start outer row with
  | leaf source =>
    simp only [rows, List.mem_map] at h
    obtain ⟨value, -, rfl⟩ := h
    rfl
  | join kind left right references ihl ihr =>
    obtain ⟨l, r, rfl, hl, hr⟩ := mem_rows_join h
    -- The absent row of a side is as long as its rows.
    have hleft : l.length = left.leaves.length := by
      rcases hl with hl | ⟨-, rfl⟩
      · exact ihl hl
      · exact List.length_replicate
    have hright : r.length = right.leaves.length := by
      rcases hr with ⟨applied, hr⟩ | ⟨-, rfl⟩
      · exact ihr hr
      · exact List.length_replicate
    rw [List.length_append, length_leaves_join, hleft, hright]

/-- A leaf that is on no optional side is present in every row. -/
theorem present_of_not_onOptionalSide {tree : JoinTree} {row : JoinedRow Row}
    (h : row ∈ tree.rows data start outer) {i : Nat} (hi : i < tree.leaves.length)
    (hside : ¬ tree.OnOptionalSide i) : ∃ value, row[i]? = some (some value) := by
  induction tree generalizing start outer row i with
  | leaf source =>
    simp only [rows, List.mem_map] at h
    obtain ⟨value, -, rfl⟩ := h
    obtain rfl : i = 0 := by
      rw [leaves, List.length_singleton] at hi
      omega
    exact ⟨value, rfl⟩
  | join kind left right references ihl ihr =>
    obtain ⟨l, r, rfl, hl, hr⟩ := mem_rows_join h
    have hlength : l.length = left.leaves.length := by
      rcases hl with hl | ⟨-, rfl⟩
      · exact length_of_mem_rows hl
      · exact List.length_replicate
    rcases left_or_right_of_lt hi with hlt | ⟨j, hj, rfl⟩
    · rw [onOptionalSide_join_left hlt, not_or] at hside
      -- The left side is not optional, so it contributes one of its rows.
      rcases hl with hl | ⟨hopt, -⟩
      · rw [List.getElem?_append_left (by omega)]
        exact ihl hl hlt hside.2
      · exact absurd hopt hside.1
    · rw [onOptionalSide_join_right hj, not_or] at hside
      rcases hr with ⟨applied, hr⟩ | ⟨hopt, -⟩
      · rw [List.getElem?_append_right (by omega), hlength, Nat.add_sub_cancel_left]
        exact ihr hr hj hside.2
      · exact absurd hopt hside.1

/-- If the left side is optional and empty, each right row is padded. -/
theorem absentRow_append_mem_rows {kind : JoinKind} {left right : JoinTree}
    {references : List String} {r : JoinedRow Row}
    (hopt : kind.optionalSides.1 = true) (hleft : left.rows data start outer = [])
    (hr : r ∈ right.rows data (start + left.leaves.length) outer) :
    absentRow left ++ r ∈ (JoinTree.join kind left right references).rows data start outer := by
  cases kind with
  | rightOuter =>
    refine List.mem_flatMap.mpr ⟨r, hr, List.mem_map.mpr ⟨absentRow left, ?_, rfl⟩⟩
    simp only [hleft, List.filter_nil, orAbsent, List.isEmpty_nil, if_true, List.mem_singleton]
  | fullOuter =>
    refine List.mem_append.mpr (Or.inr (List.mem_map.mpr ⟨r, ?_, rfl⟩))
    simp only [hleft, List.any_nil, Bool.not_false, List.filter_true]
    exact hr
  -- The other kinds keep their left side.
  | inner => cases hopt
  | cross => cases hopt
  | leftOuter => cases hopt
  | crossApply => cases hopt
  | outerApply => cases hopt

/-- If the right side is optional and empty, each left row is padded. -/
theorem append_absentRow_mem_rows {kind : JoinKind} {left right : JoinTree}
    {references : List String} {l : JoinedRow Row}
    (hopt : kind.optionalSides.2 = true) (hl : l ∈ left.rows data start outer)
    (hright : ∀ applied, right.rows data (start + left.leaves.length) applied = []) :
    l ++ absentRow right ∈ (JoinTree.join kind left right references).rows data start outer := by
  have habsent : absentRow right ∈ orAbsent right ([] : List (JoinedRow Row)) :=
    List.mem_singleton.mpr rfl
  cases kind with
  | leftOuter =>
    refine List.mem_flatMap.mpr ⟨l, hl, List.mem_map.mpr ⟨absentRow right, ?_, rfl⟩⟩
    rw [hright, List.filter_nil]
    exact habsent
  | fullOuter =>
    refine List.mem_append.mpr (Or.inl ?_)
    refine List.mem_flatMap.mpr ⟨l, hl, List.mem_map.mpr ⟨absentRow right, ?_, rfl⟩⟩
    rw [hright, List.filter_nil]
    exact habsent
  | outerApply =>
    refine List.mem_flatMap.mpr ⟨l, hl, List.mem_map.mpr ⟨absentRow right, ?_, rfl⟩⟩
    show absentRow right ∈ orAbsent right (right.rows data _ (outer ++ l))
    rw [hright]
    exact habsent
  -- The other kinds keep their right side.
  | inner => cases hopt
  | cross => cases hopt
  | rightOuter => cases hopt
  | crossApply => cases hopt

end Rows

/-! ## Rows that lack a leaf -/

section Lacking

variable {Row : Type} [Inhabited Row]

/-- Every condition holds and every leaf has one row, apart from the leaves from `first` up to
`last`, which have none. -/
def emptyBetween (first last : Nat) : JoinData Row where
  rows i _ := if first ≤ i ∧ i < last then [] else [default]
  holds _ _ _ _ := true

/-- A tree all of whose leaves are empty has no rows. -/
theorem rows_emptyBetween_eq_nil {tree : JoinTree} {first last start : Nat}
    {outer : JoinedRow Row} (hfirst : first ≤ start) (hlast : start + tree.leaves.length ≤ last) :
    tree.rows (emptyBetween first last) start outer = [] := by
  induction tree generalizing start outer with
  | leaf source =>
    have hempty : first ≤ start ∧ start < last := ⟨hfirst, hlast⟩
    simp [rows, emptyBetween, hempty]
  | join kind left right references ihl ihr =>
    rw [length_leaves_join] at hlast
    have hleft : left.rows (emptyBetween first last) start outer = [] := ihl hfirst (by omega)
    have hright : right.rows (emptyBetween first last) (start + left.leaves.length) outer = [] :=
      ihr (by omega) (by omega)
    cases kind <;> simp [rows, hleft, hright]

/-- A left and a right row join, whatever the kind of the join. An applied right side has its own
row for each left row, so it is asked for one with a property `p`. -/
theorem exists_mem_rows_join (kind : JoinKind) (references : List String) {left right : JoinTree}
    {first last start : Nat} {outer l : JoinedRow Row} {p : JoinedRow Row → Prop}
    (hl : l ∈ left.rows (emptyBetween first last) start outer)
    (hr : ∀ applied, ∃ r ∈ right.rows (emptyBetween first last) (start + left.leaves.length) applied,
      p r) :
    ∃ r, p r ∧
      l ++ r ∈ (JoinTree.join kind left right references).rows (emptyBetween first last) start
        outer := by
  -- An applied right side joins `s`, its row for `l`. Any other right side joins `r`.
  obtain ⟨r, hr₁, hp⟩ := hr outer
  obtain ⟨s, hs, hps⟩ := hr (outer ++ l)
  have hfilter {rows : List (JoinedRow Row)} {row : JoinedRow Row} (h : row ∈ rows) :
      row ∈ rows.filter fun _ => true := List.mem_filter.mpr ⟨h, rfl⟩
  cases kind with
  | inner => exact ⟨r, hp, List.mem_flatMap.mpr ⟨l, hl, List.mem_map.mpr ⟨r, hfilter hr₁, rfl⟩⟩⟩
  | cross => exact ⟨r, hp, List.mem_flatMap.mpr ⟨l, hl, List.mem_map.mpr ⟨r, hr₁, rfl⟩⟩⟩
  | leftOuter =>
    refine ⟨r, hp, List.mem_flatMap.mpr ⟨l, hl, List.mem_map.mpr ⟨r, ?_, rfl⟩⟩⟩
    exact mem_orAbsent_of_mem (hfilter hr₁)
  | rightOuter =>
    refine ⟨r, hp, List.mem_flatMap.mpr ⟨r, hr₁, List.mem_map.mpr ⟨l, ?_, rfl⟩⟩⟩
    exact mem_orAbsent_of_mem (hfilter hl)
  | fullOuter =>
    refine ⟨r, hp, List.mem_append.mpr (Or.inl ?_)⟩
    refine List.mem_flatMap.mpr ⟨l, hl, List.mem_map.mpr ⟨r, ?_, rfl⟩⟩
    exact mem_orAbsent_of_mem (hfilter hr₁)
  | crossApply => exact ⟨s, hps, List.mem_flatMap.mpr ⟨l, hl, List.mem_map.mpr ⟨s, hs, rfl⟩⟩⟩
  | outerApply =>
    refine ⟨s, hps, List.mem_flatMap.mpr ⟨l, hl, List.mem_map.mpr ⟨s, ?_, rfl⟩⟩⟩
    exact mem_orAbsent_of_mem hs

/-- A tree none of whose leaves is empty has a row. -/
theorem exists_mem_rows_emptyBetween (tree : JoinTree) {first last start : Nat}
    (outer : JoinedRow Row) (h : start + tree.leaves.length ≤ first ∨ last ≤ start) :
    ∃ row, row ∈ tree.rows (emptyBetween first last) start outer := by
  induction tree generalizing start outer with
  | leaf source =>
    have hsome : ¬ (first ≤ start ∧ start < last) := by
      rw [leaves, List.length_singleton] at h
      omega
    exact ⟨[some default], by simp [rows, emptyBetween, hsome]⟩
  | join kind left right references ihl ihr =>
    rw [length_leaves_join] at h
    have hleft : start + left.leaves.length ≤ first ∨ last ≤ start := by omega
    have hright : start + left.leaves.length + right.leaves.length ≤ first ∨
        last ≤ start + left.leaves.length := by omega
    obtain ⟨l, hl⟩ := ihl outer hleft
    have hr : ∀ applied : JoinedRow Row, ∃ r ∈ right.rows (emptyBetween first last)
        (start + left.leaves.length) applied, True := by
      intro applied
      obtain ⟨r, hr⟩ := ihr applied hright
      exact ⟨r, hr, trivial⟩
    obtain ⟨r, -, hrow⟩ := exists_mem_rows_join kind references hl hr
    exact ⟨l ++ r, hrow⟩

/-- A leaf on an optional side is absent from some row of a tree in which a run of leaves is empty.
The run lies within the tree, so that it can be placed anywhere in a larger one. -/
theorem exists_row_lacking (Row : Type) [Inhabited Row] {tree : JoinTree} {i : Nat}
    (hside : tree.OnOptionalSide i) (start : Nat) :
    ∃ first last, start ≤ first ∧ last ≤ start + tree.leaves.length ∧
      ∀ outer : JoinedRow Row, ∃ row ∈ tree.rows (emptyBetween first last) start outer,
        row[i]? = some none := by
  -- Which side lacks the leaf decides which leaves are empty; `outer` stays free for lateral sides.
  induction tree generalizing i start with
  | leaf source => exact absurd hside (not_onOptionalSide_leaf source i)
  | join kind left right references ihl ihr =>
    rw [length_leaves_join]
    rcases left_or_right_of_lt hside.lt with hlt | ⟨j, hj, rfl⟩
    · rcases (onOptionalSide_join_left hlt).mp hside with hopt | hside
      · -- The left side is optional: it is left empty.
        refine ⟨start, start + left.leaves.length, Nat.le_refl _, by omega, fun outer => ?_⟩
        obtain ⟨r, hr⟩ := exists_mem_rows_emptyBetween right outer
          (Or.inr (Nat.le_refl (start + left.leaves.length)))
        refine ⟨_, absentRow_append_mem_rows hopt
          (rows_emptyBetween_eq_nil (Nat.le_refl _) (Nat.le_refl _)) hr, ?_⟩
        rw [List.getElem?_append_left (by rw [absentRow, List.length_replicate]; exact hlt)]
        exact List.getElem?_replicate_of_lt hlt
      · -- The run lies within the left side, so the right side has a row to join.
        obtain ⟨first, last, hfirst, hlast, hrows⟩ := ihl hside start
        refine ⟨first, last, hfirst, by omega, fun outer => ?_⟩
        obtain ⟨l, hl, hnone⟩ := hrows outer
        have hr : ∀ applied : JoinedRow Row, ∃ r ∈ right.rows (emptyBetween first last)
            (start + left.leaves.length) applied, True := by
          intro applied
          obtain ⟨r, hr⟩ := exists_mem_rows_emptyBetween right applied (Or.inr hlast)
          exact ⟨r, hr, trivial⟩
        obtain ⟨r, -, hrow⟩ := exists_mem_rows_join kind references hl hr
        refine ⟨l ++ r, hrow, ?_⟩
        rw [List.getElem?_append_left (by rw [length_of_mem_rows hl]; exact hlt)]
        exact hnone
    · -- In every case a left row stands in front, and the leaf is looked up in what follows it.
      have hskip {l r : JoinedRow Row} (hl : l.length = left.leaves.length) :
          (l ++ r)[left.leaves.length + j]? = r[j]? := by
        rw [List.getElem?_append_right (by omega), hl, Nat.add_sub_cancel_left]
      rcases (onOptionalSide_join_right hj).mp hside with hopt | hside
      · -- The right side is optional: it is left empty.
        refine ⟨start + left.leaves.length, start + left.leaves.length + right.leaves.length,
          by omega, by omega, fun outer => ?_⟩
        obtain ⟨l, hl⟩ := exists_mem_rows_emptyBetween left outer
          (Or.inl (Nat.le_refl (start + left.leaves.length)))
        refine ⟨_, append_absentRow_mem_rows hopt hl fun applied =>
          rows_emptyBetween_eq_nil (Nat.le_refl _) (Nat.le_refl _), ?_⟩
        rw [hskip (length_of_mem_rows hl)]
        exact List.getElem?_replicate_of_lt hj
      · -- The run lies within the right side, so the left side has a row in front.
        obtain ⟨first, last, hfirst, hlast, hrows⟩ := ihr hside (start + left.leaves.length)
        refine ⟨first, last, by omega, by omega, fun outer => ?_⟩
        obtain ⟨l, hl⟩ := exists_mem_rows_emptyBetween left outer (Or.inl hfirst)
        obtain ⟨r, hnone, hrow⟩ := exists_mem_rows_join kind references hl hrows
        refine ⟨l ++ r, hrow, ?_⟩
        rw [hskip (length_of_mem_rows hl)]
        exact hnone

end Lacking

/-! ## Both directions -/

/-- Forcing is sound, and optional sides are tight. For every tree:
- whatever its leaves hold and whichever conditions its joins have, a source with an exposed name
  that is not forced is present in every row;
- a leaf on an optional side is absent from some row for some rows and conditions. -/
theorem present_of_unforced_and_absent_of_optional (tree : JoinTree) :
    (∀ (Row : Type) (data : JoinData Row) (i : Nat) (source : Leaf) (name : String),
      tree.leaves[i]? = some source → source.exposedName? = some name →
      isForced (forcedNames (some tree)) name = false →
      ∀ row ∈ tree.rows data 0 [], ∃ value, row[i]? = some (some value)) ∧
    (∀ (Row : Type) [Inhabited Row] (i : Nat), tree.OnOptionalSide i →
      ∃ data : JoinData Row, ∃ row ∈ tree.rows data 0 [], row[i]? = some none) := by
  constructor
  · intro Row data i source name hleaf hname hunforced row hrow
    have hi : i < tree.leaves.length := (List.getElem?_eq_some_iff.mp hleaf).1
    apply present_of_not_onOptionalSide hrow hi
    -- On an optional side the leaf would be forced.
    intro hside
    have hmem : Text.lower name ∈ tree.force false [] :=
      mem_force_of_onOptionalSide hside hleaf hname
    have hforced : isForced (forcedNames (some tree)) name = true :=
      List.contains_iff_mem.mpr hmem
    rw [hunforced] at hforced
    cases hforced
  · intro Row _ i hside
    obtain ⟨first, last, -, -, hrows⟩ := exists_row_lacking Row hside 0
    exact ⟨emptyBetween first last, hrows []⟩

/-- In `a LEFT JOIN b ON .. JOIN c ON c.x = a.x` every row has `c`, and some row lacks `b`. -/
theorem present_and_absent_in_joined_to_required :
    let a := JoinTree.leaf (.source (.unqualified "a") none)
    let b := JoinTree.leaf (.source (.unqualified "B") none)
    let c := JoinTree.leaf (.source (.unqualified "c") none)
    let tree := JoinTree.join .inner (.join .leftOuter a b ["a", "b"]) c ["c", "a"]
    let data : JoinData Nat := ⟨fun i _ => [i, 7], fun i _ _ _ => i == 2⟩
    (∀ row ∈ tree.rows data 0 [], ∃ value, row[2]? = some (some value)) ∧
    (∃ data : JoinData Nat, ∃ row ∈ tree.rows data 0 [], row[1]? = some none) := by
  intro a b c tree data
  obtain ⟨hpresent, habsent⟩ := present_of_unforced_and_absent_of_optional tree
  refine ⟨hpresent Nat data 2 (.source (.unqualified "c") none) "c" rfl rfl (by decide +kernel), ?_⟩
  apply habsent Nat 1
  exact ⟨0, .leftOuter, a, b, ["a", "b"], .left .whole, Or.inr ⟨rfl, by decide, by decide⟩⟩

end JoinTree

end SchemaPlan
