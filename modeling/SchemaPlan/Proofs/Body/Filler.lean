import SchemaPlan.Proofs.Body.Grammar

/-!
# Reading the inside of a statement

What one token does to the state within an open statement, and from it what a stretch of tokens in
pairs does: nothing but to change the word before. So filler leaves a statement as it was.
-/

namespace SchemaPlan.Sql.Body

/-! ## Reading tokens -/

/-- Tokens that `after` follows lead from one state to another. -/
def Reads (s : State) (pos : Nat) (tokens after : List Token) (s' : State) : Prop :=
  run s pos (tokens ++ after) = run s' (pos + tokens.length) after

namespace Reads

variable {s s' s'' : State} {pos : Nat} {after : List Token}

theorem nil : Reads s pos [] after s := rfl

theorem cons {token : Token} {rest : List Token} (hstep : step s pos token (rest ++ after) = s')
    (hrest : Reads s' (pos + 1) rest after s'') : Reads s pos (token :: rest) after s'' := by
  unfold Reads at *
  rw [List.cons_append, run, hstep, hrest, List.length_cons]
  congr 1
  omega

theorem append {first second : List Token} (hfirst : Reads s pos first (second ++ after) s')
    (hsecond : Reads s' (pos + first.length) second after s'') :
    Reads s pos (first ++ second) after s'' := by
  unfold Reads at *
  rw [List.append_assoc, hfirst, hsecond, List.length_append]
  congr 1
  omega

end Reads

/-- Tokens that `after` follows lead from a state to one with a property. -/
def Leads (s : State) (pos : Nat) (tokens after : List Token) (post : State → Prop) : Prop :=
  ∃ s', post s' ∧ Reads s pos tokens after s'

namespace Leads

variable {s s' : State} {pos : Nat} {after : List Token} {post : State → Prop}

theorem nil (h : post s) : Leads s pos [] after post := ⟨s, h, .nil⟩

theorem cons {token : Token} {rest : List Token} (hstep : step s pos token (rest ++ after) = s')
    (hrest : Leads s' (pos + 1) rest after post) : Leads s pos (token :: rest) after post := by
  obtain ⟨last, hlast, hreads⟩ := hrest
  exact ⟨last, hlast, .cons hstep hreads⟩

theorem imp {tokens : List Token} {post' : State → Prop} (h : Leads s pos tokens after post)
    (himp : ∀ s, post s → post' s) : Leads s pos tokens after post' := by
  obtain ⟨last, hlast, hreads⟩ := h
  exact ⟨last, himp last hlast, hreads⟩

theorem append {first second : List Token} {middle : State → Prop}
    (hfirst : Leads s pos first (second ++ after) middle)
    (hsecond : ∀ s', middle s' → Leads s' (pos + first.length) second after post) :
    Leads s pos (first ++ second) after post := by
  obtain ⟨s', hmiddle, hreads⟩ := hfirst
  obtain ⟨last, hlast, hreads'⟩ := hsecond s' hmiddle
  exact ⟨last, hlast, .append hreads hreads'⟩

end Leads

/-! ## Single tokens -/

/-- The state within an open statement, outside parentheses. -/
def within (finished : List BodyStatement) (opened : OpenStatement) (caseDepth : Nat)
    (previous : Option String) : State :=
  { finished, current := some opened, caseDepth, previous }

/-- The kind of statement that a word starts, given what follows it. -/
def starterOf? (word : String) (rest : List Token) : Option StatementKind :=
  if word = "WITH" then (if startsCte rest then some .cte else none) else starterKind? word

section Visits

variable {s : State} {word : String} {pos : Nat} {rest : List Token}

/-- Outside `CASE` blocks a word that is neither `CASE` nor `VALUES` belongs to the open statement
if it starts none, or if the open one absorbs it. -/
theorem visitWord_outside (hblock : s.caseDepth = 0) (hcase : word ≠ "CASE")
    (hvalues : word ≠ "VALUES") :
    visitWord s word pos rest =
      match starterOf? word rest with
      | none => s.ensureOpen pos
      | some kind =>
        match s.current.bind (·.absorb? word s.previous) with
        | some opened => { s with current := some opened }
        | none => { s.close pos with current := some { kind, start := pos } } := by
  unfold visitWord
  rw [if_neg hcase, if_neg (by omega), if_neg hvalues]
  rfl

theorem visitWord_inCase (hblock : 0 < s.caseDepth) (hcase : word ≠ "CASE") (hend : word ≠ "END") :
    visitWord s word pos rest = s := by
  unfold visitWord
  rw [if_neg hcase, if_pos hblock, if_neg hend]

theorem visitWord_end (hblock : 0 < s.caseDepth) :
    visitWord s "END" pos rest = { s with caseDepth := s.caseDepth - 1 } := by
  unfold visitWord
  rw [if_neg (by decide), if_pos hblock, if_pos rfl]

theorem visitWord_values (hblock : s.caseDepth = 0) :
    visitWord s "VALUES" pos rest =
      { s with current := s.current.map fun opened => { opened with hasSource := true } } := by
  unfold visitWord
  rw [if_neg (by decide), if_neg (by omega), if_pos rfl]

end Visits

section Steps

variable {finished : List BodyStatement} {opened : OpenStatement} {caseDepth pos : Nat}
  {previous : Option String} {token : Token} {rest : List Token} {word : String}

theorem step_blank {s : State} (h : token.isBlank = true) : step s pos token rest = s := by
  cases token with
  | blank gap => rfl
  | _ => cases h

/-- An unquoted word outside parentheses is visited. -/
theorem step_word {s : State} (hdepth : s.depth = 0) (h : token.bareWord? = some word) :
    step s pos token rest = { visitWord s word pos rest with previous := some word } := by
  unfold Token.bareWord? at h
  split at h
  · obtain rfl := Option.some.inj h
    simp only [step, hdepth, if_true]
  · cases h

theorem nextWord_of_bareWord? (h : token.bareWord? = some word) :
    nextWord previous token = some word := by
  unfold nextWord
  cases token with
  | blank gap => cases h
  | _ => exact h

/-- Any other token within a statement, apart from parentheses and semicolons, changes the word
before only. -/
theorem step_plain (hplain : token.isPlain = true) (hword : token.bareWord? = none) :
    step (within finished opened caseDepth previous) pos token rest =
      within finished opened caseDepth (nextWord previous token) := by
  unfold nextWord
  rw [hword]
  unfold step
  split
  · rfl
  · cases hword
  · cases hplain
  · cases hplain
  · cases hplain
  · rename_i hblank _ _ _ _
    have hnot : token.isBlank = false := by
      cases token with
      | blank gap => exact (hblank gap rfl).elim
      | _ => rfl
    rw [hnot]
    rfl

/-- Within a `CASE` block only the words of blocks count. -/
theorem step_inCase (hplain : token.isPlain = true) (hcase : token.bareWord? ≠ some "CASE")
    (hend : token.bareWord? ≠ some "END") :
    step (within finished opened (caseDepth + 1) previous) pos token rest =
      within finished opened (caseDepth + 1) (nextWord previous token) := by
  cases hword : token.bareWord? with
  | none => exact step_plain hplain hword
  | some word =>
    rw [hword] at hcase hend
    rw [step_word rfl hword, nextWord_of_bareWord? hword, visitWord_inCase (Nat.succ_pos _)
      (fun h => hcase (congrArg some h)) (fun h => hend (congrArg some h))]
    rfl

theorem step_case (h : token.bareWord? = some "CASE") :
    step (within finished opened caseDepth previous) pos token rest =
      within finished opened (caseDepth + 1) (some "CASE") := by
  rw [step_word rfl h]
  rfl

theorem step_end (h : token.bareWord? = some "END") :
    step (within finished opened (caseDepth + 1) previous) pos token rest =
      within finished opened caseDepth (some "END") := by
  rw [step_word rfl h, visitWord_end (Nat.succ_pos _)]
  rfl

theorem starterOf?_eq_none (h : StartsNothing token rest) (hword : token.bareWord? = some word) :
    starterOf? word rest = none := by
  unfold starterOf?
  split
  · rename_i hwith
    rw [h.noCte (hwith ▸ hword)]
    rfl
  · exact h.noStarter word hword

/-- A word that starts nothing belongs to the statement that is open. -/
theorem step_startsNothing (hplain : token.isPlain = true) (hcase : token.bareWord? ≠ some "CASE")
    (h : StartsNothing token rest) :
    step (within finished opened 0 previous) pos token rest =
      within finished opened 0 (nextWord previous token) := by
  cases hword : token.bareWord? with
  | none => exact step_plain hplain hword
  | some word =>
    have hvalues := h.noValues
    rw [hword] at hcase hvalues
    rw [step_word rfl hword, nextWord_of_bareWord? hword, visitWord_outside rfl
      (fun h => hcase (congrArg some h)) (fun h => hvalues (congrArg some h)),
      starterOf?_eq_none h hword]
    rfl

theorem step_values (h : token.bareWord? = some "VALUES") :
    step (within finished opened 0 previous) pos token rest =
      within finished { opened with hasSource := true } 0 (some "VALUES") := by
  rw [step_word rfl h, visitWord_values rfl]
  rfl

theorem isPlain_of_bareWord? (h : token.bareWord? = some word) : token.isPlain = true := by
  cases token with
  | word text quote => rfl
  | _ => cases h

theorem startsNothing_of_isMere (h : isMere token = true) :
    token.isPlain = true ∧ token.bareWord? ≠ some "CASE" ∧ StartsNothing token rest := by
  unfold isMere at h
  split at h
  · rename_i word hword
    simp only [Bool.and_eq_true, Option.isNone_iff_eq_none, Bool.not_eq_true',
      List.contains_eq_mem, decide_eq_false_iff_not] at h
    obtain ⟨hstarter, hmere⟩ := h
    have hne {other : String} (hother : other ∈ markers) : token.bareWord? ≠ some other := by
      rw [hword]
      intro h
      exact hmere (Option.some.inj h ▸ hother)
    have hstarts (word' : String) (hword' : token.bareWord? = some word') :
        starterKind? word' = none := by
      rw [← Option.some.inj (hword.symm.trans hword'), hstarter]
    exact ⟨isPlain_of_bareWord? hword, hne (by simp [markers]), hstarts, hne (by simp [markers]),
      fun hwith => absurd hwith (hne (by simp [markers]))⟩
  · rename_i hword
    refine ⟨h, ?_, ?_, ?_, ?_⟩ <;> simp [hword]

/-- A token that means nothing changes the word before only. -/
theorem step_mere (h : isMere token = true) :
    step (within finished opened 0 previous) pos token rest =
      within finished opened 0 (nextWord previous token) := by
  obtain ⟨hplain, hcase, hnothing⟩ := startsNothing_of_isMere h
  exact step_startsNothing hplain hcase hnothing

theorem isMere_of_bareWord? (hword : token.bareWord? = some word) :
    isMere token = ((starterKind? word).isNone && !markers.contains word) := by
  unfold isMere
  rw [hword]

theorem step_mere_word (hword : token.bareWord? = some word)
    (h : ((starterKind? word).isNone && !markers.contains word) = true) :
    step (within finished opened 0 previous) pos token rest =
      within finished opened 0 (some word) := by
  rw [step_mere ((isMere_of_bareWord? hword).trans h), nextWord_of_bareWord? hword]

/-- `CASE` and `VALUES` start no statement, and `WITH` does not do so on its own. -/
theorem ne_of_starterKind? {kind : StatementKind} (h : starterKind? word = some kind) :
    word ≠ "CASE" ∧ word ≠ "VALUES" ∧ word ≠ "WITH" := by
  refine ⟨?_, ?_, ?_⟩ <;> rintro rfl <;> cases h

theorem starterOf?_of_starterKind? {kind : StatementKind} (h : starterKind? word = some kind) :
    starterOf? word rest = some kind := by
  unfold starterOf?
  rw [if_neg (ne_of_starterKind? h).2.2, h]

/-- A word that starts a statement belongs to the open one if that absorbs it. -/
theorem step_absorb {kind : StatementKind} {absorbing : OpenStatement}
    (hword : token.bareWord? = some word) (hkind : starterKind? word = some kind)
    (h : opened.absorb? word previous = some absorbing) :
    step (within finished opened 0 previous) pos token rest =
      within finished absorbing 0 (some word) := by
  obtain ⟨hcase, hvalues, -⟩ := ne_of_starterKind? hkind
  have habsorb : (within finished opened 0 previous).current.bind
      (·.absorb? word (within finished opened 0 previous).previous) = some absorbing := h
  rw [step_word rfl hword, visitWord_outside rfl hcase hvalues, starterOf?_of_starterKind? hkind,
    habsorb]
  rfl

end Steps

/-! ## Stretches -/

@[simp] theorem lastWord_append (previous : Option String) (first second : List Token) :
    lastWord previous (first ++ second) = lastWord (lastWord previous first) second := by
  induction first generalizing previous with
  | nil => rfl
  | cons token rest ih => exact ih _

theorem lastWord_eq_or (previous : Option String) (tokens : List Token) :
    lastWord previous tokens = lastWord none tokens ∨ lastWord previous tokens = previous := by
  induction tokens with
  | nil => exact Or.inr rfl
  | cons token rest ih =>
    simp only [lastWord, nextWord]
    split
    · exact ih
    · exact Or.inl rfl

section Stretches

variable {finished : List BodyStatement} {opened : OpenStatement} {caseDepth pos : Nat}
  {previous : Option String} {after : List Token}

theorem reads_blanks {s : State} {tokens : List Token} (h : IsBlank tokens) :
    Reads s pos tokens after s := by
  induction tokens generalizing pos with
  | nil => exact .nil
  | cons token rest ih =>
    obtain ⟨hfirst, hrest⟩ := List.forall_mem_cons.mp h
    exact .cons (step_blank hfirst) (ih hrest)

/-- Inside parentheses nothing changes but the word before. -/
theorem reads_balanced {tokens : List Token} (h : Balanced tokens) (current : Option OpenStatement)
    (depth : Nat) : ∃ last, Reads ⟨finished, current, depth + 1, caseDepth, previous⟩ pos tokens after
      ⟨finished, current, depth + 1, caseDepth, last⟩ := by
  induction h generalizing pos previous after depth with
  | nil => exact ⟨previous, .nil⟩
  | @token token rest hopen hclose _ ih =>
    have hstep : ∃ next, step ⟨finished, current, depth + 1, caseDepth, previous⟩ pos token
        (rest ++ after) = ⟨finished, current, depth + 1, caseDepth, next⟩ := by
      unfold step
      split
      · exact ⟨previous, rfl⟩
      · exact ⟨none, rfl⟩
      · exact ⟨none, rfl⟩
      · exact absurd rfl hopen
      · exact absurd rfl hclose
      · exact ⟨none, rfl⟩
    -- A single token leaves the depth alone; groups are the other case.
    obtain ⟨next, hstep⟩ := hstep
    obtain ⟨last, hrest⟩ := ih depth
    exact ⟨last, .cons hstep hrest⟩
  | @group inner rest _ _ ihinner ihrest =>
    obtain ⟨_, hinner⟩ := ihinner (depth + 1)
    obtain ⟨last, hrest⟩ := ihrest depth
    exact ⟨last, .cons rfl (.append hinner (.cons rfl hrest))⟩

/-- A group in parentheses changes nothing in the statement that it is part of. -/
theorem reads_group {inner rest : List Token} {s : State} (hinner : Balanced inner)
    (hrest : Reads (within finished opened caseDepth none) (pos + 1 + inner.length + 1) rest after s) :
    Reads (within finished opened caseDepth previous) pos
      (.mark .openParen :: (inner ++ .mark .closeParen :: rest)) after s := by
  obtain ⟨last, hreads⟩ := reads_balanced hinner (some opened) 0
  exact .cons rfl (.append hreads (.cons rfl hrest))

/-- The inside of a `CASE` block changes nothing but the word before. -/
theorem reads_caseInner {tokens : List Token} (h : CaseInner tokens) :
    Reads (within finished opened (caseDepth + 1) previous) pos tokens after
      (within finished opened (caseDepth + 1) (lastWord previous tokens)) := by
  induction h generalizing caseDepth pos previous after with
  | nil => exact .nil
  | token hplain hcase hend _ ih => exact .cons (step_inCase hplain hcase hend) ih
  | group hinner _ ih =>
    rw [lastWord, lastWord_append, lastWord]
    exact reads_group hinner ih
  | block hfirst _ hlast _ ihinner ihrest =>
    rw [lastWord, lastWord_append, lastWord, nextWord_of_bareWord? hfirst,
      nextWord_of_bareWord? hlast]
    exact .cons (step_case hfirst) (.append ihinner (.cons (step_end hlast) ihrest))

/-- A stretch is read over, while the open statement keeps what its single tokens keep of it. -/
theorem reads_stretch {single : Token → List Token → Prop} {keeps : OpenStatement → Prop}
    (hsingle : ∀ {token rest opened pos previous}, token.isPlain = true →
      token.bareWord? ≠ some "CASE" → single token rest → keeps opened →
      ∃ opened', keeps opened' ∧ step (within finished opened 0 previous) pos token rest =
        within finished opened' 0 (nextWord previous token))
    {tokens : List Token} (h : Stretch single after tokens) (hopened : keeps opened) :
    ∃ opened', keeps opened' ∧ Reads (within finished opened 0 previous) pos tokens after
      (within finished opened' 0 (lastWord previous tokens)) := by
  induction h generalizing opened pos previous with
  | nil => exact ⟨opened, hopened, .nil⟩
  | token hplain hcase hone _ ih =>
    obtain ⟨next, hnext, hstep⟩ := hsingle hplain hcase hone hopened
    obtain ⟨opened', hopened', hrest⟩ := ih hnext
    exact ⟨opened', hopened', .cons hstep hrest⟩
  -- A group in parentheses and a `CASE` block are read over as a whole; the word before is their
  -- last.
  | group hinner _ ih =>
    obtain ⟨opened', hopened', hrest⟩ := ih hopened
    rw [lastWord, lastWord_append, lastWord]
    exact ⟨opened', hopened', reads_group hinner hrest⟩
  | block hfirst hinner hlast _ ih =>
    obtain ⟨opened', hopened', hrest⟩ := ih hopened
    refine ⟨opened', hopened', ?_⟩
    rw [lastWord, lastWord_append, lastWord, nextWord_of_bareWord? hfirst,
      nextWord_of_bareWord? hlast]
    exact .cons (step_case hfirst)
      (.append (reads_caseInner hinner) (.cons (step_end hlast) hrest))

end Stretches

/-- A place within a statement, outside parentheses and blocks, where the next starting word is not
joined to the statement by the word before. -/
def Calm (finished : List BodyStatement) (opened : OpenStatement) (s : State) : Prop :=
  ∃ previous : Option String, previous.any isJoiner = false ∧ s = within finished opened 0 previous

theorem leads_filler {finished : List BodyStatement} {opened : OpenStatement} {pos : Nat}
    {tokens after : List Token} {s : State} (h : Filler after tokens) (hs : Calm finished opened s) :
    Leads s pos tokens after (Calm finished opened) := by
  obtain ⟨previous, hprevious, rfl⟩ := hs
  -- What filler keeps of the open statement is all of it.
  have hstretch : ∃ opened', opened' = opened ∧
      Reads (within finished opened 0 previous) pos tokens after
        (within finished opened' 0 (lastWord previous tokens)) :=
    reads_stretch (fun hplain hcase hone hopened =>
      ⟨_, hopened, step_startsNothing hplain hcase hone⟩) h.stretch rfl
  obtain ⟨_, rfl, hreads⟩ := hstretch
  refine ⟨_, ⟨lastWord previous tokens, ?_, rfl⟩, hreads⟩
  rcases lastWord_eq_or previous tokens with hlast | hlast
  · rw [hlast, h.ending]
  · rw [hlast, hprevious]

end SchemaPlan.Sql.Body
