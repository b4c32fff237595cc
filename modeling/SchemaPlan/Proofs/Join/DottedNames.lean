import SchemaPlan.Join.Qualifiers
import SchemaPlan.Proofs.Body.Nesting

/-!
# Dotted names in a condition

A condition is searched for dotted names token by token, and the state between two tokens holds no more
than the words of the name that is being read. What is found nevertheless depends on the names alone:
on those that are no part of a longer one, whatever dangling periods, parentheses and other words stand
between them.

* `DottedName`, `NamePlace.IsMaximal`: a dotted name, and one that cannot be made longer.
* `NamesFrom`: the names of tokens one after another, as a reader from left to right meets them.
* `NamesFrom.mem_iff`: these are the maximal names, and no others.
* `qualifiersOf_eq_eraseDups`: the qualifiers of tokens are those of their maximal names.
-/

namespace SchemaPlan

open SchemaPlan.Sql

/-! ## Names and their places -/

/-- The words of a dotted name and its tokens: a single period between neighbours and nothing else. -/
inductive DottedName : List String → List Token → Prop where
  | word {text : String} {quote : Quote} : DottedName [text] [.word text quote]
  | cons {text : String} {quote : Quote} {words : List String} {name : List Token} :
      DottedName words name → DottedName (text :: words) (.word text quote :: .mark .period :: name)

/-- Tokens that make a name behind them longer. -/
def LeadsInto (tokens : List Token) : Prop :=
  ∃ front text quote, tokens = front ++ [.word text quote, .mark .period]

/-- Tokens that make a name in front of them longer. -/
def GoesFurther (tokens : List Token) : Prop :=
  ∃ text quote rest, tokens = .mark .period :: .word text quote :: rest

/-- Where a dotted name starts among tokens, and its words. -/
structure NamePlace where
  start : Nat
  words : List String
deriving Repr, DecidableEq

namespace NamePlace

/-- A dotted name of the tokens that is no part of a longer one. -/
def IsMaximal (place : NamePlace) (tokens : List Token) : Prop :=
  ∃ before name after, tokens = before ++ (name ++ after) ∧ place.start = before.length ∧
    DottedName place.words name ∧ ¬ LeadsInto before ∧ ¬ GoesFurther after

/-- The open parentheses where the name stands. One that closes none does not count. -/
def depth (place : NamePlace) (tokens : List Token) : Nat :=
  (tokens.take place.start).foldl Body.nextDepth 0

/-- The word before the last, in lower case; a single word has none. -/
def key? (place : NamePlace) : Option String := place.words.dropLast.getLast?.map Text.lower

end NamePlace

/-! ## Reading names from left to right -/

section Names

variable {words words' : List String} {name name' before after after' rest : List Token}
  {token : Token}

theorem DottedName.exists_head (h : DottedName words name) :
    ∃ text quote rest, name = .word text quote :: rest := by
  cases h with
  | word => exact ⟨_, _, _, rfl⟩
  | cons => exact ⟨_, _, _, rfl⟩

theorem DottedName.exists_last (h : DottedName words name) :
    ∃ front text quote, name = front ++ [.word text quote] := by
  induction h with
  | word => exact ⟨[], _, _, rfl⟩
  | cons _ ih =>
    obtain ⟨front, text, quote, rfl⟩ := ih
    exact ⟨_ :: _ :: front, text, quote, rfl⟩

/-- At a word a name starts, and it can be taken so far that nothing behind it makes it longer. -/
theorem exists_dottedName (text : String) (quote : Quote) (rest : List Token) :
    ∃ words name after, .word text quote :: rest = name ++ after ∧ DottedName words name ∧
      ¬ GoesFurther after := by
  by_cases hgoes : GoesFurther rest
  · obtain ⟨next, quote', more, rfl⟩ := hgoes
    obtain ⟨words, name, after, hname, hdotted, hafter⟩ := exists_dottedName next quote' more
    refine ⟨text :: words, .word text quote :: .mark .period :: name, after, ?_, .cons hdotted, hafter⟩
    rw [hname]
    rfl
  · exact ⟨[text], [.word text quote], rest, rfl, .word, hgoes⟩
termination_by rest.length

/-- Two names that start at one place are the same if nothing behind them makes them longer. -/
theorem DottedName.eq_of_append (h : DottedName words name) (h' : DottedName words' name')
    (hafter : ¬ GoesFurther after) (hafter' : ¬ GoesFurther after')
    (heq : name ++ after = name' ++ after') :
    words = words' ∧ name = name' := by
  induction h generalizing words' name' with
  -- One name ends where the other goes on: it would not be maximal.
  | word =>
    cases h' with
    | word =>
      obtain ⟨hword, -⟩ := List.cons.inj heq
      cases hword
      exact ⟨rfl, rfl⟩
    | cons hdotted =>
      obtain ⟨text, quote, rest, rfl⟩ := hdotted.exists_head
      exact absurd ⟨text, quote, _, (List.cons.inj heq).2⟩ hafter
  | cons hdotted ih =>
    cases h' with
    | word =>
      obtain ⟨text, quote, rest, rfl⟩ := hdotted.exists_head
      exact absurd ⟨text, quote, _, (List.cons.inj heq).2.symm⟩ hafter'
    | cons hdotted' =>
      obtain ⟨hword, hrest⟩ := List.cons.inj heq
      cases hword
      obtain ⟨rfl, rfl⟩ := ih hdotted' (List.cons.inj hrest).2
      exact ⟨rfl, rfl⟩

/-- A name that starts behind the start of another one, and that nothing in front makes longer, starts
behind its end. -/
theorem DottedName.exists_between (h : DottedName words name) {more : List Token} {text : String}
    {quote : Quote} (hne : after ≠ []) (hleads : ¬ LeadsInto (before ++ after))
    (heq : name ++ rest = after ++ .word text quote :: more) : ∃ between, after = name ++ between := by
  induction h generalizing before after with
  | word =>
    obtain ⟨first, tail, rfl⟩ := List.exists_cons_of_ne_nil hne
    obtain ⟨rfl, -⟩ := List.cons.inj heq
    exact ⟨tail, rfl⟩
  | @cons head quote' words name hdotted ih =>
    -- The name does not start at the period, nor at the word behind it.
    match after, hne, heq with
    | [_], _, heq => cases (List.cons.inj (List.cons.inj heq).2).1
    | [_, _], _, heq =>
      obtain ⟨rfl, htail⟩ := List.cons.inj heq
      obtain ⟨rfl, -⟩ := List.cons.inj htail
      exact absurd ⟨before, head, quote', rfl⟩ hleads
    | _ :: _ :: third :: tail, _, heq =>
      obtain ⟨rfl, htail⟩ := List.cons.inj heq
      obtain ⟨rfl, htail⟩ := List.cons.inj htail
      have hleads' : ¬ LeadsInto ((before ++ [.word head quote', .mark .period]) ++ third :: tail) := by
        rwa [List.append_assoc]
      obtain ⟨between, hbetween⟩ := ih (List.cons_ne_nil _ _) hleads' (List.cons.inj htail).2
      exact ⟨between, by rw [hbetween]; rfl⟩

/-- No name goes across a place between tokens. -/
structure CutsNoName (before rest : List Token) : Prop where
  leads : LeadsInto before → ∀ text quote more, rest ≠ .word text quote :: more
  goes : (∃ front text quote, before = front ++ [.word text quote]) → ¬ GoesFurther rest

theorem CutsNoName.nil (rest : List Token) : CutsNoName [] rest where
  leads := by
    rintro ⟨front, text, quote, h⟩
    exact absurd h.symm (by simp)
  goes := by
    rintro ⟨front, text, quote, h⟩
    exact absurd h.symm (by simp)

theorem DottedName.cutsNoName (hdotted : DottedName words name) (hafter : ¬ GoesFurther after) :
    CutsNoName (before ++ name) after where
  leads := by
    rintro ⟨front, text, quote, h⟩
    obtain ⟨init, last, quote', rfl⟩ := hdotted.exists_last
    have hlast := congrArg List.getLast? h
    simp at hlast
  goes _ := hafter

theorem CutsNoName.snoc (h : CutsNoName before (token :: rest)) (hword : token.isWord = false) :
    CutsNoName (before ++ [token]) rest where
  leads := by
    rintro ⟨front, text, quote, heq⟩ next quote' more rfl
    have hsplit : before ++ [token] = (front ++ [.word text quote]) ++ [.mark .period] := by
      rw [heq, List.append_assoc]
      rfl
    obtain ⟨rfl, htoken⟩ := List.append_inj' hsplit rfl
    obtain rfl := (List.cons.inj htoken).1
    exact h.goes ⟨front, text, quote, rfl⟩ ⟨next, quote', more, rfl⟩
  goes := by
    rintro ⟨front, text, quote, heq⟩
    obtain ⟨-, htoken⟩ := List.append_inj' heq rfl
    obtain rfl := (List.cons.inj htoken).1
    cases hword

/-- The names of tokens that start at a position, one after another. Each is taken as far as it goes,
and a token that is no word is passed over. -/
inductive NamesFrom : Nat → List Token → List NamePlace → Prop where
  | nil {start : Nat} : NamesFrom start [] []
  | name {start : Nat} {words : List String} {name after : List Token} {places : List NamePlace} :
      DottedName words name → ¬ GoesFurther after → NamesFrom (start + name.length) after places →
      NamesFrom start (name ++ after) (⟨start, words⟩ :: places)
  | token {start : Nat} {token : Token} {rest : List Token} {places : List NamePlace} :
      token.isWord = false → NamesFrom (start + 1) rest places →
      NamesFrom start (token :: rest) places

variable {start : Nat} {places : List NamePlace} {place : NamePlace}

theorem exists_namesFrom (start : Nat) (tokens : List Token) : ∃ places, NamesFrom start tokens places := by
  match tokens with
  | [] => exact ⟨[], .nil⟩
  | token :: rest =>
    by_cases hword : token.isWord = true
    · obtain ⟨text, quote, rfl⟩ : ∃ text quote, token = .word text quote := by
        cases token with
        | word text quote => exact ⟨text, quote, rfl⟩
        | _ => cases hword
      obtain ⟨words, name, after, hname, hdotted, hafter⟩ := exists_dottedName text quote rest
      have hshorter : after.length ≤ rest.length := by
        obtain ⟨_, _, more, rfl⟩ := hdotted.exists_head
        have hrest : rest = more ++ after := (List.cons.inj hname).2
        rw [hrest, List.length_append]
        exact Nat.le_add_left _ _
      obtain ⟨places, hplaces⟩ := exists_namesFrom (start + name.length) after
      exact ⟨_, hname ▸ NamesFrom.name hdotted hafter hplaces⟩
    · obtain ⟨places, hplaces⟩ := exists_namesFrom (start + 1) rest
      exact ⟨places, .token (Bool.eq_false_iff.mpr hword) hplaces⟩
termination_by tokens.length

theorem NamesFrom.le_start (h : NamesFrom start rest places) :
    ∀ place ∈ places, start ≤ place.start := by
  induction h with
  | nil => exact nofun
  | name _ _ _ ih =>
    rintro place (_ | ⟨_, hplace⟩)
    · exact Nat.le_refl _
    · exact Nat.le_trans (Nat.le_add_right _ _) (ih place hplace)
  | token _ _ ih => exact fun place hplace => Nat.le_trans (Nat.le_succ _) (ih place hplace)

/-- The names stand in the order of their places, none of them twice. -/
theorem NamesFrom.pairwise (h : NamesFrom start rest places) :
    places.Pairwise fun first second => first.start < second.start := by
  induction h with
  | nil => exact .nil
  | name hdotted _ hrest ih =>
    refine .cons (fun place hplace => ?_) ih
    have hstart := hrest.le_start place hplace
    obtain ⟨_, _, _, rfl⟩ := hdotted.exists_head
    rw [List.length_cons] at hstart
    dsimp only
    omega
  | token _ _ ih => exact ih

/-- A maximal name that starts where another one is taken is that name, or starts behind it. -/
theorem NamePlace.IsMaximal.eq_or_le (h : place.IsMaximal (before ++ (name ++ after)))
    (hdotted : DottedName words name) (hafter : ¬ GoesFurther after)
    (hstart : before.length ≤ place.start) :
    place = ⟨before.length, words⟩ ∨ before.length + name.length ≤ place.start := by
  obtain ⟨before', name', after', heq, hplace, hdotted', hleads, hgoes⟩ := h
  rw [hplace] at hstart
  obtain ⟨passed, rfl, hrest⟩ : ∃ passed, before' = before ++ passed ∧
      name ++ after = passed ++ (name' ++ after') := by
    rcases List.append_eq_append_iff.mp heq with ⟨passed, rfl, hrest⟩ | ⟨passed, rfl, hrest⟩
    · exact ⟨passed, rfl, hrest⟩
    · rw [List.length_append] at hstart
      obtain rfl : passed = [] := List.eq_nil_of_length_eq_zero (by omega)
      exact ⟨[], by simp, by simpa using hrest.symm⟩
  -- Starting in the same place they are the same name; starting later, the other one cannot begin
  -- within this name, as it would not be maximal to the left.
  by_cases hpassed : passed = []
  · obtain rfl := hpassed
    obtain ⟨hwords, -⟩ := hdotted.eq_of_append hdotted' hafter hgoes hrest
    refine .inl ?_
    rw [List.append_nil] at hplace
    cases place
    simp_all
  · obtain ⟨text, quote, more, rfl⟩ := hdotted'.exists_head
    obtain ⟨between, rfl⟩ := hdotted.exists_between hpassed hleads hrest
    refine .inr ?_
    rw [hplace, List.length_append, List.length_append]
    omega

/-- The names that are met from left to right are the maximal ones. -/
theorem NamesFrom.mem_iff (h : NamesFrom start rest places) (hbefore : before.length = start)
    (hcut : CutsNoName before rest) :
    place ∈ places ↔ place.IsMaximal (before ++ rest) ∧ start ≤ place.start := by
  induction h generalizing before with
  | nil =>
    refine ⟨nofun, ?_⟩
    rintro ⟨⟨before', name, after, heq, hplace, hdotted, -, -⟩, hstart⟩
    have hlength := congrArg List.length heq
    obtain ⟨_, _, _, rfl⟩ := hdotted.exists_head
    simp only [List.append_nil, List.length_append, List.length_cons] at hlength
    omega
  | @name start words name after places hdotted hafter hrest ih =>
    have hlength : (before ++ name).length = start + name.length := by
      rw [List.length_append, hbefore]
    have hmem := ih hlength (hdotted.cutsNoName hafter)
    rw [List.append_assoc] at hmem
    rw [List.mem_cons, hmem]
    constructor
    · rintro (rfl | ⟨hmaximal, hstart⟩)
      · refine ⟨⟨before, name, after, rfl, hbefore.symm, hdotted, fun hleads => ?_, hafter⟩,
          Nat.le_refl _⟩
        obtain ⟨text, quote, more, rfl⟩ := hdotted.exists_head
        exact hcut.leads hleads _ _ _ rfl
      · exact ⟨hmaximal, by omega⟩
    · rintro ⟨hmaximal, hstart⟩
      rcases hmaximal.eq_or_le hdotted hafter (by omega) with rfl | hle
      · exact .inl (by rw [hbefore])
      · exact .inr ⟨hmaximal, by omega⟩
  | @token start token rest places hword hrest ih =>
    have hlength : (before ++ [token]).length = start + 1 := by
      rw [List.length_append, hbefore, List.length_singleton]
    rw [ih hlength (hcut.snoc hword), List.append_assoc, List.singleton_append]
    refine and_congr_right fun hmaximal => ⟨fun hstart => by omega, fun hstart => ?_⟩
    -- No name starts at the token itself.
    refine Nat.lt_of_le_of_ne hstart fun hsame => ?_
    obtain ⟨before', name, after, heq, hplace, hdotted, -, -⟩ := hmaximal
    obtain ⟨-, htail⟩ := List.append_inj heq (by omega)
    obtain ⟨text, quote, more, rfl⟩ := hdotted.exists_head
    obtain ⟨rfl, -⟩ := List.cons.inj htail
    cases hword

end Names

/-! ## The search -/

namespace QualifierScan

variable {minDepth : Nat} {s : QualifierScan} {token : Token} {tokens rest name : List Token}
  {words keys : List String}

/-- Where no name is being read, a token that is no word only counts for the parentheses. -/
theorem step_token (hrun : s.run = []) (hperiod : s.afterPeriod = false) (hword : token.isWord = false) :
    s.step minDepth token = { s with depth := Body.nextDepth s.depth token } := by
  obtain ⟨run, afterPeriod, depth, found⟩ := s
  obtain rfl : run = [] := hrun
  obtain rfl : afterPeriod = false := hperiod
  cases token with
  | word => cases hword
  | mark m => cases m <;> rfl
  | _ => rfl

/-- A token that does not go on with the name ends it. -/
theorem step_ended (hperiod : s.afterPeriod = false) (htoken : token ≠ .mark .period) :
    s.step minDepth token = (s.endRun minDepth).step minDepth token := by
  cases token with
  | word => simp [step, hperiod, endRun]
  | mark m => cases m <;> first | rfl | exact absurd rfl htoken
  | _ => rfl

/-- A period behind the name does not count if no word follows. -/
theorem step_dangling (hword : token.isWord = false) :
    { s with afterPeriod := true }.step minDepth token = (s.endRun minDepth).step minDepth token := by
  cases token with
  | word => cases hword
  | mark m => cases m <;> first | rfl | simp [step, endRun]
  | _ => rfl

/-- What follows a name and does not go on with it finds the name ended. -/
theorem foldl_ended (hperiod : s.afterPeriod = false) (hrest : ¬ GoesFurther rest) :
    (rest.foldl (step minDepth) s).endRun minDepth =
      (rest.foldl (step minDepth) (s.endRun minDepth)).endRun minDepth := by
  match rest with
  | [] => rfl
  | token :: rest =>
    by_cases htoken : token = .mark .period
    · subst htoken
      by_cases hrun : s.run = []
      · have hstep : s.step minDepth (.mark .period) = s.endRun minDepth := by simp [step, hrun]
        rw [List.foldl_cons, List.foldl_cons, hstep]
        rfl
      · have hstep : s.step minDepth (.mark .period) = { s with afterPeriod := true } := by
          simp [step, hrun, hperiod]
        rw [List.foldl_cons, List.foldl_cons, hstep]
        match rest with
        | [] => rfl
        -- The period stays open for a name, and none comes: the next token ends the run.
        | token :: rest =>
          have hword : token.isWord = false := by
            cases token with
            | word text quote => exact absurd ⟨text, quote, rest, rfl⟩ hrest
            | _ => rfl
          rw [List.foldl_cons, List.foldl_cons, step_dangling hword]
          rfl
    · rw [List.foldl_cons, List.foldl_cons, step_ended hperiod htoken]

/-- A name behind a period goes on with the name that is being read. -/
theorem foldl_behind_period (h : DottedName words name) (hperiod : s.afterPeriod = true) :
    name.foldl (step minDepth) s = { s with run := words.reverse ++ s.run, afterPeriod := false } := by
  induction h generalizing s with
  | word => simp [step, hperiod]
  | @cons text quote words name _ ih =>
    have hword : s.step minDepth (.word text quote) =
        { s with run := text :: s.run, afterPeriod := false } := by simp [step, hperiod]
    have hmark : { s with run := text :: s.run, afterPeriod := false }.step minDepth (.mark .period) =
        { s with run := text :: s.run, afterPeriod := true } := rfl
    rw [List.foldl_cons, List.foldl_cons, hword, hmark, ih rfl, List.reverse_cons, List.append_assoc]
    rfl

/-- A name is read with all its words. -/
theorem foldl_name (h : DottedName words name) (hrun : s.run = []) (hperiod : s.afterPeriod = false) :
    name.foldl (step minDepth) s = { s with run := words.reverse } := by
  -- A first word is read like one behind a period.
  have hfirst : name.foldl (step minDepth) s =
      name.foldl (step minDepth) { s with afterPeriod := true } := by
    obtain ⟨text, quote, rest, rfl⟩ := h.exists_head
    rw [List.foldl_cons, List.foldl_cons]
    congr 1
    simp [step, hperiod, endRun, hrun]
  rw [hfirst, foldl_behind_period h rfl, hrun, List.append_nil, ← hperiod]

/-- A name that ends adds its qualifier to those found, if it lies deep enough. -/
theorem found_endRun (hfound : s.found = keys.eraseDups) :
    (s.endRun minDepth).found = (keys ++
      if minDepth ≤ s.depth then (s.run.tail.head?.map Text.lower).toList else []).eraseDups := by
  unfold endRun
  match hrun : s.run with
  | [] => simpa using hfound
  | [_] => simpa using hfound
  | _ :: qualifier :: _ =>
    dsimp only [List.tail_cons, List.head?_cons, Option.map_some, Option.toList_some]
    by_cases hdepth : minDepth ≤ s.depth
    · rw [if_pos hdepth, List.eraseDups_append, ← hfound]
      by_cases hmem : Text.lower qualifier ∈ keys
      · have hknown : Text.lower qualifier ∈ s.found := by rwa [hfound, List.mem_eraseDups]
        simp [hdepth, hknown, List.removeAll, hmem]
      · have hnew : Text.lower qualifier ∉ s.found := by rwa [hfound, List.mem_eraseDups]
        simp [hdepth, hnew, List.removeAll, hmem, List.eraseDups_cons]
    · simpa [hdepth] using hfound

end QualifierScan

/-- The qualifiers of names that lie within at least `minDepth` parentheses, in order. -/
def keysOf (minDepth : Nat) (tokens : List Token) (places : List NamePlace) : List String :=
  (places.filter fun place => minDepth ≤ place.depth tokens).filterMap NamePlace.key?

section Search

variable {minDepth : Nat} {s : QualifierScan} {tokens before rest name : List Token}
  {words keys : List String} {start : Nat} {places : List NamePlace}

theorem DottedName.foldl_nextDepth (h : DottedName words name) (depth : Nat) :
    name.foldl Body.nextDepth depth = depth := by
  induction h with
  | word => rfl
  | cons _ ih => exact ih

/-- The search finds the qualifiers of the names that it meets from left to right. -/
theorem NamesFrom.found_eq (h : NamesFrom start rest places) (hbefore : before.length = start)
    (hrun : s.run = []) (hperiod : s.afterPeriod = false)
    (hdepth : s.depth = before.foldl Body.nextDepth 0) (hfound : s.found = keys.eraseDups) :
    ((rest.foldl (QualifierScan.step minDepth) s).endRun minDepth).found =
      (keys ++ keysOf minDepth (before ++ rest) places).eraseDups := by
  induction h generalizing s before keys with
  | nil =>
    rw [List.foldl_nil, QualifierScan.found_endRun hfound, hrun]
    simp [keysOf]
  | @name start words name after places hdotted hafter _ ih =>
    have hlength : (before ++ name).length = start + name.length := by
      rw [List.length_append, hbefore]
    have hdepth' : s.depth = (before ++ name).foldl Body.nextDepth 0 := by
      rw [List.foldl_append, hdotted.foldl_nextDepth, hdepth]
    -- The state behind the name, whose words it holds.
    let named : QualifierScan := { s with run := words.reverse }
    have hnamed : name.foldl (QualifierScan.step minDepth) s = named :=
      QualifierScan.foldl_name hdotted hrun hperiod
    have hended : (named.endRun minDepth).found = _ := QualifierScan.found_endRun hfound
    have hplace : (⟨start, words⟩ : NamePlace).depth (before ++ (name ++ after)) = s.depth := by
      rw [NamePlace.depth, ← hbefore, List.take_left, hdepth]
    have hkey : named.run.tail.head?.map Text.lower = (⟨start, words⟩ : NamePlace).key? := by
      rw [NamePlace.key?, List.tail_reverse, List.head?_reverse]
    rw [List.foldl_append, hnamed, QualifierScan.foldl_ended (s := named) hperiod hafter,
      ih (s := named.endRun minDepth) hlength rfl rfl hdepth' hended, hkey, List.append_assoc,
      List.append_assoc, keysOf, keysOf, List.filter_cons, hplace]
    congr 2
    by_cases hdeep : minDepth ≤ s.depth
    · rw [if_pos hdeep, if_pos (decide_eq_true hdeep), List.filterMap_cons]
      cases (⟨start, words⟩ : NamePlace).key? <;> rfl
    · rw [if_neg hdeep, if_neg (by simpa using hdeep), List.nil_append]
  | @token start token rest places hword _ ih =>
    have hlength : (before ++ [token]).length = start + 1 := by
      rw [List.length_append, hbefore, List.length_singleton]
    have hdepth' : Body.nextDepth s.depth token = (before ++ [token]).foldl Body.nextDepth 0 := by
      rw [List.foldl_append, ← hdepth]
      rfl
    rw [List.foldl_cons, QualifierScan.step_token hrun hperiod hword,
      ih (s := { s with depth := Body.nextDepth s.depth token }) hlength hrun hperiod hdepth' hfound,
      List.append_assoc]
    rfl

theorem nodup_eraseDups {α : Type} [BEq α] [LawfulBEq α] (list : List α) : list.eraseDups.Nodup := by
  match list with
  | [] => exact .nil
  | first :: rest =>
    have hshorter : (rest.filter fun other => !other == first).length ≤ rest.length :=
      List.length_filter_le _ _
    rw [List.eraseDups_cons]
    refine List.nodup_cons.mpr ⟨fun hmem => ?_, nodup_eraseDups _⟩
    have hfilter := (List.mem_filter.mp (List.mem_eraseDups.mp hmem)).2
    simp at hfilter
termination_by list.length

/-- The qualifiers of tokens are, without repetition and in the order in which they first occur, the
words before the last, in lower case, of exactly the maximal dotted names of at least two words that
lie within at least `minDepth` parentheses. -/
theorem qualifiersOf_eq_eraseDups (minDepth : Nat) (tokens : List Token) :
    (qualifiersOf minDepth tokens).Nodup ∧
      ∃ places : List NamePlace,
        (∀ place, place ∈ places ↔ place.IsMaximal tokens) ∧
        places.Pairwise (fun first second => first.start < second.start) ∧
        qualifiersOf minDepth tokens = (keysOf minDepth tokens places).eraseDups := by
  obtain ⟨places, hplaces⟩ := exists_namesFrom 0 tokens
  have hstart : ([] : List Token).length = 0 := rfl
  have hkeys : qualifiersOf minDepth tokens = (keysOf minDepth tokens places).eraseDups :=
    hplaces.found_eq (s := {}) hstart rfl rfl rfl List.eraseDups_nil.symm
  refine ⟨hkeys ▸ nodup_eraseDups _, places, fun place => ?_, hplaces.pairwise, hkeys⟩
  exact (hplaces.mem_iff hstart (.nil tokens)).trans (and_iff_left (Nat.zero_le _))

end Search

end SchemaPlan
