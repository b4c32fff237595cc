import SchemaPlan.Proofs.Body.Closing
import SchemaPlan.Proofs.Definition.Bodies
import SchemaPlan.Proofs.Definition.Position

/-!
# Where a body is divided

A body is divided at the commas that stand in no group of their own, up to the parenthesis that closes
it. Whether a comma counts is told from a counter of open groups, which is lowered at each parenthesis
that closes one; it is never lowered below zero, because the body ends before that.

* `Arrives`, `endsOrArrives`: the counter and the elements found so far, behind any tokens that do
  not end the body.
* `Body.Balanced.exists_runs`: tokens with their parentheses in pairs are runs with commas between them.
* `bodyElements_exact`: a body is divided exactly if its parenthesis is closed, and into these runs.
-/

namespace SchemaPlan.Sql.Body

/-- Tokens with their parentheses in pairs are runs without a comma of their own, with commas between
them. -/
theorem Balanced.exists_runs {tokens : List Token} (h : Balanced tokens) :
    ∃ runs last, tokens = [.mark .comma].intercalate (runs ++ [last]) ∧
      ∀ run ∈ runs ++ [last], Flat run := by
  rcases h.flat_or_comma with hflat | ⟨first, rest, rfl, hfirst, hrest⟩
  · exact ⟨[], tokens, by simp, by simpa using hflat⟩
  · obtain ⟨runs, last, rfl, hruns⟩ := hrest.exists_runs
    refine ⟨first :: runs, last, ?_, List.forall_mem_cons.mpr ⟨hfirst, hruns⟩⟩
    obtain ⟨second, more, hmore⟩ : ∃ second more, runs ++ [last] = second :: more :=
      List.exists_cons_of_ne_nil (by simp)
    rw [List.cons_append, hmore, List.intercalate_cons_cons]
    simp
termination_by tokens.length
decreasing_by
  subst_vars
  rw [List.length_append, List.length_cons]
  omega

end SchemaPlan.Sql.Body

namespace SchemaPlan.Definition

open SchemaPlan.Sql SchemaPlan.Sql.Reading SchemaPlan.Sql.Body

section Division

variable {pos start depth : Nat} {tokens passed later inner more : List Token} {c d : Cursor}
  {texts : List String}

/-! ## The counter -/

/-- Groups that tokens open, and groups that they close. -/
def opens (tokens : List Token) : Nat := tokens.count (.mark .openParen)

@[inherit_doc opens]
def closes (tokens : List Token) : Nat := tokens.count (.mark .closeParen)

/-- Where the division stands once it has moved over `passed` from `pos`: it has found the elements
`found`, the open element starts at `start'`, and the counter is `depth'`. -/
def Arrives (pos start depth : Nat) (passed : List Token) (found : List (Nat × Nat))
    (start' depth' : Nat) : Prop :=
  ∀ later, elementRanges pos start depth (passed ++ later) =
    (elementRanges (pos + passed.length) start' depth' later).map fun body => (found ++ body.1, body.2)

/-- What a first token does not change, it leaves for the tokens behind it. -/
theorem Arrives.cons {token : Token} {start₁ depth₁ start₂ depth₂ : Nat}
    {found found₁ : List (Nat × Nat)}
    (htoken : ∀ later, elementRanges pos start depth (token :: later) =
      (elementRanges (pos + 1) start₁ depth₁ later).map fun body => (found₁ ++ body.1, body.2))
    (h : Arrives (pos + 1) start₁ depth₁ passed found start₂ depth₂) :
    Arrives pos start depth (token :: passed) (found₁ ++ found) start₂ depth₂ := by
  intro later
  rw [List.cons_append, htoken, h, Option.map_map, List.length_cons, Nat.add_assoc, Nat.add_comm 1]
  congr 1
  funext body
  simp

/-- Either the body ends among tokens, or the division moves over them: then they close no more groups
than are open, and the counter is what is left open. -/
def EndsOrArrives (pos start depth : Nat) (passed : List Token) : Prop :=
  ClosesTo (fun _ => True) (depth + 1) passed ∨
    closes passed ≤ depth + opens passed ∧
      ∃ found start', Arrives pos start depth passed found start' (depth + opens passed - closes passed)

/-- A first token that does not end the body, and behind which the counter is right, leaves the rest to
the tokens behind it. -/
theorem EndsOrArrives.cons {token : Token} {start₁ depth₁ : Nat} {found : List (Nat × Nat)}
    (htoken : ∀ later, elementRanges pos start depth (token :: later) =
      (elementRanges (pos + 1) start₁ depth₁ later).map fun body => (found ++ body.1, body.2))
    (hcount : depth₁ + closes [token] = depth + opens [token])
    (hended : ClosesTo (fun _ => True) (depth₁ + 1) passed →
      ClosesTo (fun _ => True) (depth + 1) (token :: passed))
    (h : EndsOrArrives (pos + 1) start₁ depth₁ passed) :
    EndsOrArrives pos start depth (token :: passed) := by
  have hopens : opens (token :: passed) = opens [token] + opens passed := by
    rw [opens, opens, opens, ← List.count_append, List.singleton_append]
  have hcloses : closes (token :: passed) = closes [token] + closes passed := by
    rw [closes, closes, closes, ← List.count_append, List.singleton_append]
  rcases h with hrest | ⟨hle, found', start', hrest⟩
  · exact .inl (hended hrest)
  · refine .inr ⟨by omega, found ++ found', start', ?_⟩
    have hdepth : depth + opens (token :: passed) - closes (token :: passed) =
        depth₁ + opens passed - closes passed := by omega
    rw [hdepth]
    exact hrest.cons htoken

theorem endsOrArrives (passed : List Token) (pos start depth : Nat) :
    EndsOrArrives pos start depth passed := by
  induction passed generalizing pos start depth with
  | nil => exact .inr ⟨Nat.zero_le _, [], start, fun later => by simp [opens, closes]⟩
  | cons token rest ih =>
    -- Only a comma outside all groups has found an element.
    have hplain {depth₁ : Nat} {later : List Token} :
        elementRanges (pos + 1) start depth₁ later =
          (elementRanges (pos + 1) start depth₁ later).map fun body => ([] ++ body.1, body.2) := by
      simp
    by_cases hopen : token = .mark .openParen
    · subst hopen
      exact (ih (pos + 1) start (depth + 1)).cons (fun later => hplain) rfl .open
    by_cases hclose : token = .mark .closeParen
    · subst hclose
      cases depth with
      | zero => exact .inl (ClosesTo.close trivial)
      | succ depth => exact (ih (pos + 1) start depth).cons (fun later => hplain) rfl .close
    have hcount : depth + closes [token] = depth + opens [token] := by
      simp [opens, closes, hopen, hclose]
    by_cases hcomma : token = .mark .comma ∧ depth = 0
    · obtain ⟨rfl, rfl⟩ := hcomma
      have hcut (later : List Token) : elementRanges pos start 0 (.mark .comma :: later) =
          (elementRanges (pos + 1) (pos + 1) 0 later).map
            fun body => ([(start, pos)] ++ body.1, body.2) := rfl
      exact (ih (pos + 1) (pos + 1) 0).cons hcut hcount (.cons hopen hclose)
    · have hpassed (later : List Token) : elementRanges pos start depth (token :: later) =
          elementRanges (pos + 1) start depth later :=
        elementRanges_token hopen hclose fun hmark hdepth => hcomma ⟨hmark, hdepth⟩
      exact (ih (pos + 1) start depth).cons (fun later => (hpassed later).trans hplain) hcount
        (.cons hopen hclose)

/-- The body ends behind the parenthesis that closes it, and only such a body has an end. -/
theorem elementRanges_eq_none (h : ¬ Ended tokens) : elementRanges pos start 0 tokens = none := by
  rcases endsOrArrives tokens pos start 0 with hended | ⟨-, found, start', harrives⟩
  · exact absurd (ended_iff.mpr hended) h
  · have hall := harrives []
    rwa [List.append_nil] at hall

theorem stop_of_balanced {ranges : List (Nat × Nat)} {stop : Nat} (hinner : Balanced inner)
    (h : elementRanges pos start 0 (inner ++ .mark .closeParen :: more) = some (ranges, stop)) :
    stop = pos + inner.length + 1 := by
  have hbalanced : Balanced (inner ++ []) := by rwa [List.append_nil]
  rcases endsOrArrives inner pos start 0 with hended | ⟨-, found, start', harrives⟩
  · exact absurd (ended_iff.mpr hended) (not_ended_of_balanced hbalanced)
  · have hzero : 0 + opens inner - closes inner = 0 := by
      rw [opens, closes, hinner.count_eq]
      omega
    rw [harrives, hzero, elementRanges, if_pos rfl, Option.map_some] at h
    exact (Prod.mk.inj (Option.some.inj h)).2.symm

/-! ## The elements -/

theorem dropEmptyLast_append (texts : List String) (last : String) :
    dropEmptyLast (texts ++ [last]) = texts ++ if last = "" then [] else [last] := by
  induction texts with
  | nil => rfl
  | cons text rest ih =>
    rw [List.cons_append, dropEmptyLast, ih, List.cons_append]
    simp

/-- Runs with commas between them and the parenthesis that closes the body are its elements. -/
theorem runsText_of_flat {runs : List (List Token)} {last : List Token}
    (h : ∀ run ∈ runs ++ [last], Flat run) (more : List Token) :
    RunsText (runs ++ [last])
      ([.mark .comma].intercalate (runs ++ [last]) ++ .mark .closeParen :: more) := by
  induction runs with
  | nil => simpa using RunsText.last (h last (by simp))
  | cons run runs ih =>
    obtain ⟨hrun, hruns⟩ := List.forall_mem_cons.mp h
    obtain ⟨second, rest, hrest⟩ : ∃ second rest, runs ++ [last] = second :: rest :=
      List.exists_cons_of_ne_nil (by simp)
    have htail := RunsText.cons hrun (ih hruns)
    rw [hrest] at htail
    rw [List.cons_append, hrest, List.intercalate_cons_cons]
    simpa using htail

/-- Only a body whose parenthesis is closed is divided. -/
theorem ended_of_gives_bodyElements (hrest : c.rest = .mark .openParen :: tokens)
    (h : Gives bodyElements c texts d) : Ended tokens := by
  obtain ⟨-, ranges, stop, hranges, -⟩ := gives_bodyElements.mp h
  rw [Cursor.rest_advance, hrest, List.tail_cons] at hranges
  refine Classical.byContradiction fun hended => ?_
  rw [elementRanges_eq_none hended] at hranges
  cases hranges

/-- The cursor is left behind the parenthesis that closes the body. -/
theorem eq_of_gives_bodyElements (hinner : Balanced inner)
    (hrest : c.rest = .mark .openParen :: (inner ++ .mark .closeParen :: more))
    (h : Gives bodyElements c texts d) : d = { c with pos := c.pos + inner.length + 2 } := by
  obtain ⟨-, ranges, stop, hranges, -, rfl⟩ := gives_bodyElements.mp h
  rw [Cursor.rest_advance, hrest, List.tail_cons] at hranges
  obtain rfl := stop_of_balanced hinner hranges
  have hleft := congrArg List.length hrest
  simp only [← Cursor.left_eq, Cursor.left, List.length_cons, List.length_append] at hleft
  rw [Cursor.advance_of_lt (Cursor.pos_lt_of_rest hrest), Cursor.moveTo, Nat.min_eq_left (by dsimp; omega)]
  congr 1
  dsimp
  omega

/-- A body whose parenthesis is closed is divided into its runs. -/
theorem exists_gives_bodyElements (hinner : Balanced inner)
    (hrest : c.rest = .mark .openParen :: (inner ++ .mark .closeParen :: more)) :
    ∃ runs last, inner = [.mark .comma].intercalate (runs ++ [last]) ∧
      (∀ run ∈ runs ++ [last], Flat run) ∧
      Gives bodyElements c (runs.map textOf ++ if textOf last = "" then [] else [textOf last])
        { c with pos := c.pos + inner.length + 2 } := by
  obtain ⟨runs, last, hruns, hflat⟩ := hinner.exists_runs
  refine ⟨runs, last, hruns, hflat, ?_⟩
  have hbody := runsText_of_flat hflat more
  rw [← hruns] at hbody
  obtain ⟨d, hd⟩ := gives_bodyElements_of_runs hbody hrest
  rw [List.map_append, List.map_singleton, dropEmptyLast_append] at hd
  rwa [← eq_of_gives_bodyElements hinner hrest hd]

/-- A body is divided exactly if its parenthesis is closed. Then it is cut at its commas into runs
without commas of their own, whose texts are its elements; only an empty last one is dropped, and the
cursor is left behind the parenthesis. In front of the end of the body no more groups are closed than
opened, and the counter is the number of those that are open. -/
theorem bodyElements_exact (hrest : c.rest = .mark .openParen :: tokens) :
    ((∃ texts d, Gives bodyElements c texts d) ↔
      ∃ inner more, tokens = inner ++ .mark .closeParen :: more ∧ Balanced inner) ∧
    (∀ inner more, tokens = inner ++ .mark .closeParen :: more → Balanced inner →
      ∃ runs last, inner = [.mark .comma].intercalate (runs ++ [last]) ∧
        (∀ run ∈ runs ++ [last], Flat run) ∧
        Gives bodyElements c (runs.map textOf ++ if textOf last = "" then [] else [textOf last])
          { c with pos := c.pos + inner.length + 2 }) ∧
    ∀ passed later, tokens = passed ++ later → ¬ Ended passed →
      closes passed ≤ opens passed ∧ ∃ found start,
        Arrives (c.pos + 1) (c.pos + 1) 0 passed found start (opens passed - closes passed) := by
  refine ⟨⟨?_, ?_⟩, ?_, ?_⟩
  · rintro ⟨texts, d, h⟩
    exact ended_of_gives_bodyElements hrest h
  · rintro ⟨inner, more, rfl, hinner⟩
    obtain ⟨runs, last, -, -, h⟩ := exists_gives_bodyElements hinner hrest
    exact ⟨_, _, h⟩
  · rintro inner more rfl hinner
    exact exists_gives_bodyElements hinner hrest
  · rintro passed later - hended
    -- As long as the parenthesis is not closed, the scan arrives with what is still open.
    rcases endsOrArrives passed (c.pos + 1) (c.pos + 1) 0 with h | ⟨hle, found, start, h⟩
    · exact absurd (ended_iff.mpr h) hended
    · rw [Nat.zero_add] at hle h
      exact ⟨hle, found, start, h⟩

/-- The comma inside a group does not cut, and nothing stands behind the last one. -/
theorem bodyElements_exact_of_group :
    let inner : List Token := [.word "a" .bare, .mark .comma, .mark .openParen, .word "b" .bare,
      .mark .comma, .word "c" .bare, .mark .closeParen, .mark .comma]
    ∃ c, Cursor.ofText? "(a,(b,c),)" = some c ∧
      c.rest = .mark .openParen :: (inner ++ [.mark .closeParen]) ∧ Balanced inner ∧
      ∃ texts d, Gives bodyElements c texts d := by
  intro inner
  obtain ⟨c, hc, htest⟩ := exists_cursor_of_any "(a,(b,c),)"
    (fun c => decide (c.rest = .mark .openParen :: (inner ++ [.mark .closeParen]))) (by decide +kernel)
  have hgroup : Balanced [.word "b" .bare, .mark .comma, .word "c" .bare] :=
    .token nofun nofun (.token nofun nofun (.token nofun nofun .nil))
  have hinner : Balanced inner :=
    .token nofun nofun (.token nofun nofun (.group hgroup (.token nofun nofun .nil)))
  have hrest := of_decide_eq_true htest
  exact ⟨c, hc, hrest, hinner, (bodyElements_exact hrest).1.mpr ⟨inner, [], rfl, hinner⟩⟩

example : run? bodyElements "(a,(b,c),)" = some ["a", "(b,c)"] := by decide +kernel

end Division

end SchemaPlan.Definition
