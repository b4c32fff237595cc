import SchemaPlan.Sql.Body
import Mathlib.Data.List.Forall2

/-!
# Two readings side by side

What a token does to the statements does not depend on where it stands. Two readings that have come
to the same statements up to their places still have after the same token at related places, and
after the same word if what follows it begins a list of common table expressions in both or in
neither. Statements that were finished before, in the first of the two, stay as they are.

* `startsCte_eq`: what the tokens behind a `WITH` are looked through for.
* `Mirrors.step`: every step keeps two states alike.
-/

namespace SchemaPlan.Sql.Body

/-! ## What follows a word -/

/-- The tokens behind the columns of a common table expression, if it has any. -/
def afterColumns (tokens : List Token) : List Token :=
  match tokens with
  | .mark .openParen :: inner => afterClosing 1 inner
  | _ => tokens

theorem afterColumns_cons {token : Token} (h : token ≠ .mark .openParen) (rest : List Token) :
    afterColumns (token :: rest) = token :: rest := by
  unfold afterColumns
  split
  · rename_i htokens
    cases htokens
    exact absurd rfl h
  · rfl

/-- Whether tokens begin with `AS (`. -/
def beginsQuery : List Token → Bool
  | token :: .mark .openParen :: _ => token.isBareWord "AS"
  | _ => false

theorem beginsQuery_cons (token : Token) (rest : List Token) :
    beginsQuery (token :: rest) =
      (decide (rest.head? = some (.mark .openParen)) && token.isBareWord "AS") := by
  unfold beginsQuery
  split
  · rename_i htokens
    cases htokens
    rfl
  · rename_i hother
    rw [decide_eq_false, Bool.false_and]
    intro hhead
    obtain ⟨tail, rfl⟩ := List.head?_eq_some_iff.mp hhead
    exact hother token tail rfl

/-- A list of common table expressions begins with a name, perhaps columns, and a query. -/
theorem startsCte_eq (rest : List Token) :
    startsCte rest = match rest.filter (!·.isBlank) with
      | .word _ _ :: after => beginsQuery (afterColumns after)
      | _ => false := by
  unfold startsCte
  generalize rest.filter (!·.isBlank) = words
  cases words with
  | nil => rfl
  | cons first after =>
    cases first with
    | word text quote => rfl
    | _ => rfl

/-- A step looks at what follows a word only for a list of common table expressions. -/
theorem step_congr {s : State} {pos : Nat} {token : Token} {rest rest' : List Token}
    (h : token.isWord = true → s.depth = 0 → startsCte rest = startsCte rest') :
    step s pos token rest = step s pos token rest' := by
  unfold step
  split
  · rfl
  · split
    · rename_i hdepth
      unfold visitWord
      rw [h rfl hdepth]
    · rfl
  all_goals rfl

/-! ## Two readings -/

/-- Statements of one kind at related places. -/
def SameStatement (related : Nat → Nat → Prop) (a b : BodyStatement) : Prop :=
  a.kind = b.kind ∧ related a.start b.start ∧ related a.stop b.stop

/-- Open statements that differ only in where they start, at related places. -/
def SameOpen (related : Nat → Nat → Prop) (a b : OpenStatement) : Prop :=
  a.kind = b.kind ∧ a.hasSource = b.hasSource ∧ a.hasSet = b.hasSet ∧ related a.start b.start

/-- The first state is like the second one up to places; it has the statements of `base` besides.
Nothing is said of the depths. -/
structure Mirrors (related : Nat → Nat → Prop) (base : List BodyStatement) (s t : State) :
    Prop where
  finished : ∃ own, s.finished = own ++ base ∧
    List.Forall₂ (SameStatement related) own t.finished
  current : Option.Rel (SameOpen related) s.current t.current
  caseDepth : s.caseDepth = t.caseDepth
  previous : s.previous = t.previous

section Mirroring

variable {related : Nat → Nat → Prop} {base : List BodyStatement} {s t : State} {pos pos' : Nat}

/-- An open statement absorbs a word wherever it started. -/
theorem absorb?_same {a b : OpenStatement} (h : SameOpen related a b) (word : String)
    (previous : Option String) :
    Option.Rel (SameOpen related) (a.absorb? word previous) (b.absorb? word previous) := by
  obtain ⟨kind, start, hasSource, hasSet⟩ := a
  obtain ⟨_, start', _, _⟩ := b
  obtain ⟨rfl, rfl, rfl, hstart⟩ := h
  unfold OpenStatement.absorb?
  -- A word that is joined to the statement is taken whatever its kind.
  split
  · exact .some ⟨rfl, rfl, rfl, hstart⟩
  -- Otherwise the kind decides, with what the statement has got so far; its place is not looked at.
  cases kind with
  | merge => exact .some ⟨rfl, rfl, rfl, hstart⟩
  | cte =>
    dsimp only
    split
    · exact .some ⟨rfl, rfl, rfl, hstart⟩
    · exact .none
  | insert =>
    dsimp only
    split
    · exact .some ⟨rfl, rfl, rfl, hstart⟩
    · exact .none
  | update =>
    dsimp only
    split
    · exact .some ⟨rfl, rfl, rfl, hstart⟩
    · exact .none
  | _ => exact .none

theorem Mirrors.close (h : Mirrors related base s t) (hpos : related pos pos') :
    Mirrors related base (s.close pos) (t.close pos') := by
  obtain ⟨finished, current, depth, caseDepth, previous⟩ := s
  obtain ⟨finished', current', depth', _, _⟩ := t
  obtain ⟨⟨own, hfinished, hown⟩, hcurrent, hcase, hprevious⟩ := h
  dsimp only at hfinished hown hcurrent hcase hprevious
  cases hcurrent with
  | none => exact ⟨⟨own, hfinished, hown⟩, .none, hcase, hprevious⟩
  | some hsame =>
    obtain ⟨hkind, -, -, hstart⟩ := hsame
    refine ⟨⟨⟨_, _, pos⟩ :: own, ?_, .cons ⟨hkind, hstart, hpos⟩ hown⟩, .none, hcase, hprevious⟩
    exact congrArg (List.cons _) hfinished

theorem Mirrors.open (h : Mirrors related base s t) {opened opened' : OpenStatement}
    (hopened : SameOpen related opened opened') :
    Mirrors related base { s with current := some opened } { t with current := some opened' } :=
  ⟨h.finished, .some hopened, h.caseDepth, h.previous⟩

theorem Mirrors.ensureOpen (h : Mirrors related base s t) (hpos : related pos pos') :
    Mirrors related base (s.ensureOpen pos) (t.ensureOpen pos') := by
  obtain ⟨finished, current, depth, caseDepth, previous⟩ := s
  obtain ⟨finished', current', depth', _, _⟩ := t
  have hcurrent : Option.Rel (SameOpen related) current current' := h.current
  cases hcurrent with
  | none => exact h.open ⟨rfl, rfl, rfl, hpos⟩
  | some hsame => exact h

theorem Mirrors.visitWord (h : Mirrors related base s t) (hpos : related pos pos')
    {rest rest' : List Token} (hrest : startsCte rest = startsCte rest') (word : String) :
    Mirrors related base (visitWord s word pos rest) (visitWord t word pos' rest') := by
  obtain ⟨finished, current, depth, caseDepth, previous⟩ := s
  obtain ⟨finished', current', depth', _, _⟩ := t
  obtain rfl := h.caseDepth
  obtain rfl := h.previous
  have hcurrent : Option.Rel (SameOpen related) current current' := h.current
  unfold Body.visitWord
  dsimp only
  -- In turn: `CASE`, a word in a block, `VALUES`, a word that starts nothing, a starting word.
  rw [hrest]
  split
  · exact Mirrors.ensureOpen ⟨h.finished, h.current, rfl, rfl⟩ hpos
  split
  · split
    · exact ⟨h.finished, h.current, rfl, rfl⟩
    · exact h
  split
  · refine ⟨h.finished, ?_, rfl, rfl⟩
    cases hcurrent with
    | none => exact .none
    | some hsame => exact .some ⟨hsame.1, rfl, hsame.2.2.1, hsame.2.2.2⟩
  split
  · exact h.ensureOpen hpos
  -- Both readings have an open statement that absorbs the word, or neither has.
  cases hcurrent with
  | none => exact (h.close hpos).open ⟨rfl, rfl, rfl, hpos⟩
  | @some opened opened' hsame =>
    have habsorb := absorb?_same hsame word previous
    dsimp only [Option.bind_some]
    cases ha : opened.absorb? word previous with
    | none =>
      cases hb : opened'.absorb? word previous with
      | none => exact (h.close hpos).open ⟨rfl, rfl, rfl, hpos⟩
      | some _ => rw [ha, hb] at habsorb; cases habsorb
    | some _ =>
      cases hb : opened'.absorb? word previous with
      | none => rw [ha, hb] at habsorb; cases habsorb
      | some _ =>
        rw [ha, hb] at habsorb
        cases habsorb with
        | some habsorbed => exact h.open habsorbed

/-- Two readings that are alike, both in parentheses or both outside, are alike after a token. -/
theorem Mirrors.step (h : Mirrors related base s t) (hpos : related pos pos')
    (hdepth : s.depth = 0 ↔ t.depth = 0) {token : Token} {rest rest' : List Token}
    (hrest : token.isWord = true → s.depth = 0 → startsCte rest = startsCte rest') :
    Mirrors related base (step s pos token rest) (step t pos' token rest') := by
  -- What any token but a word, a semicolon and a closing parenthesis does to both readings.
  have hopened : Mirrors related base (if s.depth = 0 then s.ensureOpen pos else s)
      (if t.depth = 0 then t.ensureOpen pos' else t) := by
    by_cases hzero : s.depth = 0
    · rw [if_pos hzero, if_pos (hdepth.mp hzero)]
      exact h.ensureOpen hpos
    · rw [if_neg hzero, if_neg (mt hdepth.mpr hzero)]
      exact h
  unfold Body.step
  split
  · exact h
  · rename_i text
    by_cases hzero : s.depth = 0
    · rw [if_pos hzero, if_pos (hdepth.mp hzero)]
      have hvisited := h.visitWord hpos (hrest rfl hzero) (Text.asciiUpper text)
      exact ⟨hvisited.finished, hvisited.current, hvisited.caseDepth, rfl⟩
    · rw [if_neg hzero, if_neg (mt hdepth.mpr hzero)]
      exact ⟨h.finished, h.current, h.caseDepth, rfl⟩
  · by_cases hzero : s.depth = 0
    · rw [if_pos hzero, if_pos (hdepth.mp hzero)]
      have hclosed := h.close hpos
      exact ⟨hclosed.finished, hclosed.current, hclosed.caseDepth, rfl⟩
    · rw [if_neg hzero, if_neg (mt hdepth.mpr hzero)]
      exact ⟨h.finished, h.current, h.caseDepth, rfl⟩
  · exact ⟨hopened.finished, hopened.current, hopened.caseDepth, rfl⟩
  · exact ⟨h.finished, h.current, h.caseDepth, rfl⟩
  · exact ⟨hopened.finished, hopened.current, hopened.caseDepth, rfl⟩

end Mirroring

end SchemaPlan.Sql.Body
