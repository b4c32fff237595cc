import SchemaPlan.Proofs.Body.Filler

/-!
# Where the tokens of a body stand

A place in a body stands so deep in parentheses and, where it stands in none, in so many `CASE`
blocks. Both are counted over the tokens alone, and so is the word before a place; the state that is
reached there agrees with the counts. What a token does to the statements is told once, for all that
follows from it.

* `Located.step`: every step keeps the agreement between the state and the tokens read.
* `effect_step`: a token is passed over, opens a statement, belongs to the open one, or ends it.
* `exists_state_at`: what every step keeps holds of the state at any place.
-/

namespace SchemaPlan.Sql.Body

/-! ## Parentheses and blocks -/

/-- The open parentheses after a token. One that closes none does not count. -/
def nextDepth (depth : Nat) : Token → Nat
  | .mark .openParen => depth + 1
  | .mark .closeParen => depth - 1
  | _ => depth

/-- The open `CASE` blocks after a token outside parentheses. -/
def nextBlocks (blocks : Nat) (token : Token) : Nat :=
  if token.bareWord? = some "CASE" then blocks + 1
  else if token.bareWord? = some "END" then blocks - 1
  else blocks

/-- The parentheses and the `CASE` blocks that are open at a place. -/
structure Nesting where
  depth : Nat := 0
  blocks : Nat := 0
deriving Repr, DecidableEq, Inhabited

/-- What is open after a token. Words in parentheses neither open nor end a block. -/
def Nesting.next (n : Nesting) (token : Token) : Nesting where
  depth := nextDepth n.depth token
  blocks := if n.depth = 0 then nextBlocks n.blocks token else n.blocks

/-- What is open after tokens. -/
def nestingOf (tokens : List Token) : Nesting := tokens.foldl Nesting.next {}

/-- The tokens from `start` up to `stop`. -/
def between (tokens : List Token) (start stop : Nat) : List Token := (tokens.take stop).drop start

/-- What is open at a place, for tokens that are read from `start` on. -/
def nestingAt (tokens : List Token) (start pos : Nat) : Nesting :=
  nestingOf (between tokens start pos)

/-- What is open in a state. -/
def State.nesting (s : State) : Nesting := ⟨s.depth, s.caseDepth⟩

section Between

variable {tokens : List Token} {start pos : Nat} {token : Token}

@[simp] theorem between_self (tokens : List Token) (start : Nat) : between tokens start start = [] :=
  List.drop_eq_nil_of_le (List.length_take_le start tokens)

theorem between_succ (hstart : start ≤ pos) (htoken : tokens[pos]? = some token) :
    between tokens start (pos + 1) = between tokens start pos ++ [token] := by
  obtain ⟨hlt, -⟩ := List.getElem?_eq_some_iff.mp htoken
  have htake : start ≤ (tokens.take pos).length := by
    rw [List.length_take]
    omega
  unfold between
  rw [List.take_add_one, htoken, List.drop_append_of_le_length htake]
  rfl

theorem nestingAt_self (tokens : List Token) (start : Nat) : nestingAt tokens start start = {} := by
  rw [nestingAt, between_self]
  rfl

theorem nestingAt_succ (hstart : start ≤ pos) (htoken : tokens[pos]? = some token) :
    nestingAt tokens start (pos + 1) = (nestingAt tokens start pos).next token := by
  rw [nestingAt, between_succ hstart htoken, nestingOf, List.foldl_append]
  rfl

theorem lastWord_between_succ (hstart : start ≤ pos) (htoken : tokens[pos]? = some token) :
    lastWord none (between tokens start (pos + 1)) =
      nextWord (lastWord none (between tokens start pos)) token := by
  rw [between_succ hstart htoken, lastWord_append]
  rfl

end Between

/-! ## Tokens and words -/

/-- The kinds of tokens that a step tells apart. -/
inductive Role : Token → Prop where
  | blank (gap : Blank) : Role (.blank gap)
  | word {token : Token} {word : String} : token.bareWord? = some word → Role token
  | semicolon : Role (.mark .semicolon)
  | openParen : Role (.mark .openParen)
  | closeParen : Role (.mark .closeParen)
  | plain {token : Token} :
      token.isBlank = false → token.bareWord? = none → token.isPlain = true → Role token

theorem role (token : Token) : Role token := by
  cases token with
  | blank gap => exact .blank gap
  | word text quote =>
    cases quote with
    | bare => exact .word rfl
    | _ => exact .plain rfl rfl rfl
  | mark m =>
    cases m with
    | semicolon => exact .semicolon
    | openParen => exact .openParen
    | closeParen => exact .closeParen
    | _ => exact .plain rfl rfl rfl
  | _ => exact .plain rfl rfl rfl

section Steps

variable {s : State} {pos : Nat} {token : Token} {rest : List Token} {word : String}

theorem nextDepth_of_ne {depth : Nat} (hopen : token ≠ .mark .openParen)
    (hclose : token ≠ .mark .closeParen) : nextDepth depth token = depth := by
  unfold nextDepth
  split
  · exact absurd rfl hopen
  · exact absurd rfl hclose
  · rfl

theorem nextDepth_of_isPlain {depth : Nat} (h : token.isPlain = true) :
    nextDepth depth token = depth := by
  refine nextDepth_of_ne ?_ ?_ <;> rintro rfl <;> cases h

theorem not_isBlank_of_bareWord? (h : token.bareWord? = some word) : token.isBlank = false := by
  cases token with
  | blank gap => cases h
  | _ => rfl

/-- In parentheses a word means nothing. -/
theorem step_word_inside (hdepth : s.depth ≠ 0) (h : token.bareWord? = some word) :
    step s pos token rest = { s with previous := none } := by
  unfold Token.bareWord? at h
  split at h
  · exact if_neg hdepth
  · cases h

/-- A token that is no word, blank, semicolon or parenthesis belongs to some statement. -/
theorem step_other (hblank : token.isBlank = false) (hword : token.bareWord? = none)
    (hplain : token.isPlain = true) :
    step s pos token rest =
      { (if s.depth = 0 then s.ensureOpen pos else s) with previous := none } := by
  unfold step
  split
  · cases hblank
  · cases hword
  · cases hplain
  · cases hplain
  · cases hplain
  · rfl

@[simp] theorem nesting_ensureOpen (s : State) (pos : Nat) :
    (s.ensureOpen pos).nesting = s.nesting := by
  unfold State.ensureOpen
  split <;> rfl

@[simp] theorem nesting_close (s : State) (pos : Nat) : (s.close pos).nesting = s.nesting := by
  unfold State.close
  split <;> rfl

theorem nesting_visitWord (s : State) (pos : Nat) (rest : List Token)
    (h : token.bareWord? = some word) :
    (visitWord s word pos rest).nesting = ⟨s.depth, nextBlocks s.caseDepth token⟩ := by
  unfold nextBlocks visitWord
  simp only [h, Option.some.injEq]
  split
  · rw [nesting_ensureOpen]
    rfl
  split
  · split <;> rfl
  -- Outside blocks an `END` ends none.
  · have hend : (if word = "END" then s.caseDepth - 1 else s.caseDepth) = s.caseDepth := by
      split <;> omega
    rw [hend]
    split
    · rfl
    split
    · rw [nesting_ensureOpen]
      rfl
    split
    · rfl
    · exact nesting_close s pos

/-- A step counts parentheses and blocks as they are counted over the tokens. -/
theorem nesting_step (s : State) (pos : Nat) (token : Token) (rest : List Token) :
    (step s pos token rest).nesting = s.nesting.next token := by
  have hopened : (if s.depth = 0 then s.ensureOpen pos else s).nesting = s.nesting := by
    split
    · exact nesting_ensureOpen s pos
    · rfl
  -- What is neither a parenthesis nor a word counts for nothing.
  have hnext (hdepth : nextDepth s.depth token = s.depth) (hword : token.bareWord? = none) :
      s.nesting.next token = s.nesting := by
    have hblocks : nextBlocks s.caseDepth token = s.caseDepth := by
      rw [nextBlocks, hword]
      rfl
    simp only [Nesting.next, State.nesting, hdepth, hblocks, ite_self]
  cases role token with
  | blank gap => exact (hnext rfl rfl).symm
  | semicolon =>
    rw [hnext rfl rfl]
    unfold step
    dsimp only
    split
    · exact nesting_close s pos
    · rfl
  | openParen =>
    have hcase : (if s.depth = 0 then s.ensureOpen pos else s).caseDepth = s.caseDepth :=
      congrArg Nesting.blocks hopened
    have hdepth : (if s.depth = 0 then s.ensureOpen pos else s).depth = s.depth :=
      congrArg Nesting.depth hopened
    simp only [step, State.nesting, Nesting.next, nextDepth, nextBlocks, Token.bareWord?, hcase,
      hdepth, reduceCtorEq, if_false, ite_self]
  | closeParen =>
    simp only [step, State.nesting, Nesting.next, nextDepth, nextBlocks, Token.bareWord?,
      reduceCtorEq, if_false, ite_self]
  | plain hblank hword hplain =>
    rw [step_other hblank hword hplain, hnext (nextDepth_of_isPlain hplain) hword]
    exact hopened
  | word hword =>
    have hdepth : nextDepth s.depth token = s.depth :=
      nextDepth_of_isPlain (isPlain_of_bareWord? hword)
    -- Only outside parentheses do words open and close blocks.
    by_cases hzero : s.depth = 0
    · rw [step_word hzero hword]
      rw [hzero] at hdepth
      refine (nesting_visitWord s pos rest hword).trans ?_
      simp only [Nesting.next, State.nesting, hzero, hdepth, if_true]
    · rw [step_word_inside hzero hword]
      simp only [Nesting.next, State.nesting, hdepth, hzero, if_false]

/-- Outside parentheses a step takes note of the word as it is told from the tokens. -/
theorem previous_step (h : nextDepth s.depth token = 0) :
    (step s pos token rest).previous =
      if s.depth = 0 then nextWord s.previous token else none := by
  cases role token with
  | blank gap => exact (if_pos h).symm
  | semicolon =>
    have hdepth : s.depth = 0 := h
    simp only [step, hdepth, if_true]
    rfl
  | openParen => cases h
  | closeParen => exact (ite_self none).symm
  | plain hblank hword hplain =>
    rw [step_other hblank hword hplain, nextWord, hblank, hword]
    exact (ite_self none).symm
  | word hword =>
    rw [nextDepth_of_isPlain (isPlain_of_bareWord? hword)] at h
    rw [step_word h hword, if_pos h, nextWord_of_bareWord? hword]

end Steps

/-! ## What a token does to the statements -/

/-- Tokens that belong to no statement where none is open, apart from blanks and semicolons. -/
inductive IsStray (blocks : Nat) : Token → Prop where
  | closeParen : IsStray blocks (.mark .closeParen)
  | values {token : Token} : token.bareWord? = some "VALUES" → IsStray blocks token
  | inBlock {token : Token} {word : String} :
      token.bareWord? = some word → word ≠ "CASE" → 0 < blocks → IsStray blocks token

/-- A token that opens a statement where none is open. -/
structure Opens (blocks : Nat) (token : Token) : Prop where
  notBlank : token.isBlank = false
  notSemicolon : token ≠ .mark .semicolon
  notStray : ¬ IsStray blocks token

/-- What a token at `pos` does to the statements. -/
inductive Effect (s : State) (pos : Nat) (token : Token) (s' : State) : Prop where
  /-- It belongs to no statement. -/
  | passes :
      s.current = none → s'.current = none → s'.finished = s.finished →
      token.isBlank = true ∨ token = .mark .semicolon ∨ IsStray s.caseDepth token →
      Effect s pos token s'
  /-- It is the first one of a statement. -/
  | opens {opened : OpenStatement} :
      s.current = none → s'.current = some opened → opened.start = pos →
      s'.finished = s.finished → Opens s.caseDepth token → Effect s pos token s'
  /-- It belongs to the open statement. -/
  | keeps {opened opened' : OpenStatement} :
      s.current = some opened → s'.current = some opened' → opened'.start = opened.start →
      s'.finished = s.finished → (token = .mark .semicolon → s.depth ≠ 0) → Effect s pos token s'
  /-- It ends the open statement and is the first one of the next. -/
  | follows {opened next : OpenStatement} :
      s.current = some opened → s'.current = some next → next.start = pos →
      s'.finished = ⟨opened.kind, opened.start, pos⟩ :: s.finished →
      s.depth = 0 → Opens s.caseDepth token → Effect s pos token s'
  /-- It is a semicolon and ends the open statement. -/
  | ends {opened : OpenStatement} :
      s.current = some opened → s'.current = none →
      s'.finished = ⟨opened.kind, opened.start, pos⟩ :: s.finished →
      s.depth = 0 → token = .mark .semicolon → Effect s pos token s'

section Effects

variable {s t t' : State} {pos : Nat} {token : Token} {word : String} {rest : List Token}

/-- Only the statements count, not the depths and the word before. -/
theorem Effect.congr (h : Effect s pos token t) (hfinished : t'.finished = t.finished)
    (hcurrent : t'.current = t.current) : Effect s pos token t' := by
  cases h with
  | passes hnone hnone' hsame hcause =>
    exact .passes hnone (hcurrent.trans hnone') (hfinished.trans hsame) hcause
  | opens hnone hopened hstart hsame hopens =>
    exact .opens hnone (hcurrent.trans hopened) hstart (hfinished.trans hsame) hopens
  | keeps hopened hopened' hstart hsame hsemicolon =>
    exact .keeps hopened (hcurrent.trans hopened') hstart (hfinished.trans hsame) hsemicolon
  | follows hopened hnext hstart hcons hdepth hopens =>
    exact .follows hopened (hcurrent.trans hnext) hstart (hfinished.trans hcons) hdepth hopens
  | ends hopened hnone hcons hdepth hsemicolon =>
    exact .ends hopened (hcurrent.trans hnone) (hfinished.trans hcons) hdepth hsemicolon

theorem effect_ensureOpen (hfinished : t.finished = s.finished) (hcurrent : t.current = s.current)
    (hopens : Opens s.caseDepth token) : Effect s pos token (t.ensureOpen pos) := by
  unfold State.ensureOpen
  split
  · rename_i opened hopened
    exact .keeps (hcurrent.symm.trans hopened) hopened rfl hfinished
      fun h => absurd h hopens.notSemicolon
  · rename_i hnone
    exact .opens (hcurrent.symm.trans hnone) rfl rfl hfinished hopens

/-- A token that opens nothing belongs to the statement that is open, or to none. -/
theorem effect_of_isStray (hfinished : t.finished = s.finished) (hcurrent : t.current = s.current)
    (hstray : IsStray s.caseDepth token) : Effect s pos token t := by
  cases hopened : s.current with
  | none => exact .passes hopened (hcurrent.trans hopened) hfinished (.inr (.inr hstray))
  | some opened =>
    refine .keeps hopened (hcurrent.trans hopened) rfl hfinished ?_
    rintro rfl
    cases hstray with
    | values h => cases h
    | inBlock h => cases h

theorem opens_of_bareWord? (h : token.bareWord? = some word) (hvalues : word ≠ "VALUES")
    {blocks : Nat} (hblock : word = "CASE" ∨ blocks = 0) : Opens blocks token := by
  refine ⟨not_isBlank_of_bareWord? h, ?_, ?_⟩
  · rintro rfl
    cases h
  · rintro (_ | h' | ⟨h', hcase, hpos⟩)
    · cases h
    · exact hvalues (Option.some.inj (h.symm.trans h'))
    · obtain rfl := Option.some.inj (h.symm.trans h')
      rcases hblock with hcase' | hzero
      · exact hcase hcase'
      · omega

theorem start_absorb? {opened opened' : OpenStatement} {previous : Option String}
    (h : opened.absorb? word previous = some opened') : opened'.start = opened.start := by
  unfold OpenStatement.absorb? at h
  repeat' split at h
  all_goals cases h
  all_goals rfl

theorem effect_visitWord (h : token.bareWord? = some word) (hdepth : s.depth = 0) :
    Effect s pos token (visitWord s word pos rest) := by
  unfold visitWord
  -- `CASE` opens a statement where none is open.
  split
  · rename_i hcase
    subst hcase
    exact effect_ensureOpen rfl rfl (opens_of_bareWord? h (by decide) (.inl rfl))
  rename_i hcase
  split
  · -- Within a block a word belongs to no statement of its own.
    rename_i hblock
    have hstray : IsStray s.caseDepth token := .inBlock h hcase hblock
    split
    · exact effect_of_isStray rfl rfl hstray
    · exact effect_of_isStray rfl rfl hstray
  rename_i hblock
  split
  · rename_i hvalues
    -- `VALUES` is left over where no statement is open.
    subst hvalues
    cases hopened : s.current with
    | none => exact .passes hopened rfl rfl (.inr (.inr (.values h)))
    | some opened =>
      refine .keeps hopened rfl rfl rfl ?_
      rintro rfl
      cases h
  rename_i hvalues
  have hopens : Opens s.caseDepth token :=
    opens_of_bareWord? h hvalues (.inr (Nat.eq_zero_of_not_pos hblock))
  dsimp only
  split
  · exact effect_ensureOpen rfl rfl hopens
  split
  · -- The open statement takes the word.
    rename_i opened' habsorb
    obtain ⟨opened, hopened, habsorb⟩ := Option.bind_eq_some_iff.mp habsorb
    exact .keeps hopened rfl (start_absorb? habsorb) rfl fun h => absurd h hopens.notSemicolon
  · unfold State.close
    split
    · rename_i opened hopened
      exact .follows hopened rfl rfl rfl hdepth hopens
    · rename_i hnone
      exact .opens hnone rfl rfl rfl hopens

/-- A step does one thing to the statements, if a statement is open wherever a parenthesis is. -/
theorem effect_step (hopened : s.current = none → s.depth = 0) :
    Effect s pos token (step s pos token rest) := by
  -- In parentheses a statement is open, and it goes on.
  have hinside (hdepth : s.depth ≠ 0) {t : State} (hfinished : t.finished = s.finished)
      (hcurrent : t.current = s.current) : Effect s pos token t := by
    cases hsome : s.current with
    | none => exact absurd (hopened hsome) hdepth
    | some opened => exact .keeps hsome (hcurrent.trans hsome) rfl hfinished fun _ => hdepth
  have hopens (h : Opens s.caseDepth token) :
      Effect s pos token (if s.depth = 0 then s.ensureOpen pos else s) := by
    split
    · exact effect_ensureOpen rfl rfl h
    · rename_i hdepth
      exact hinside hdepth rfl rfl
  cases role token with
  | blank gap =>
    cases hsome : s.current with
    | none => exact .passes hsome hsome rfl (.inl rfl)
    | some opened => exact .keeps hsome hsome rfl rfl nofun
  | semicolon =>
    unfold step
    dsimp only
    split
    · rename_i hdepth
      unfold State.close
      split
      · rename_i opened hsome
        exact .ends hsome rfl rfl hdepth rfl
      · rename_i hnone
        exact .passes hnone hnone rfl (.inr (.inl rfl))
    · rename_i hdepth
      exact hinside hdepth rfl rfl
  | openParen => exact (hopens ⟨rfl, nofun, by rintro (_ | h | h) <;> cases h⟩).congr rfl rfl
  | closeParen => exact effect_of_isStray rfl rfl .closeParen
  | plain hblank hword hplain =>
    rw [step_other hblank hword hplain]
    refine (hopens ⟨hblank, ?_, ?_⟩).congr rfl rfl
    · rintro rfl
      cases hplain
    · rintro (_ | h | h)
      · cases hplain
      · rw [hword] at h
        cases h
      · rw [hword] at h
        cases h
  | word hword =>
    by_cases hdepth : s.depth = 0
    · rw [step_word hdepth hword]
      exact (effect_visitWord hword hdepth).congr rfl rfl
    · rw [step_word_inside hdepth hword]
      exact hinside hdepth rfl rfl

end Effects

/-! ## States and places -/

/-- The state agrees with the tokens from `start` up to `pos`, and a statement is open wherever a
parenthesis is. -/
structure Located (tokens : List Token) (start pos : Nat) (s : State) : Prop where
  nesting : s.nesting = nestingAt tokens start pos
  opened : s.current = none → s.depth = 0
  previous : s.depth = 0 → s.previous = lastWord none (between tokens start pos)

section Places

variable {tokens : List Token} {start pos : Nat} {s : State} {token : Token}

theorem located_start (tokens : List Token) (start : Nat) : Located tokens start start {} where
  nesting := (nestingAt_self tokens start).symm
  opened := fun _ => rfl
  previous := fun _ => by
    rw [between_self]
    rfl

theorem Located.depth (h : Located tokens start pos s) :
    s.depth = (nestingAt tokens start pos).depth := congrArg Nesting.depth h.nesting

theorem Located.blocks (h : Located tokens start pos s) :
    s.caseDepth = (nestingAt tokens start pos).blocks := congrArg Nesting.blocks h.nesting

theorem depth_step (s : State) (pos : Nat) (token : Token) (rest : List Token) :
    (step s pos token rest).depth = nextDepth s.depth token :=
  congrArg Nesting.depth (nesting_step s pos token rest)

theorem Located.step (h : Located tokens start pos s) (hstart : start ≤ pos)
    (htoken : tokens[pos]? = some token) (rest : List Token) :
    Located tokens start (pos + 1) (step s pos token rest) where
  nesting := by rw [nesting_step, h.nesting, nestingAt_succ hstart htoken]
  opened hnone := by
    have heffect : Effect s pos token (Body.step s pos token rest) := effect_step h.opened
    rw [depth_step]
    -- Where nothing is open after the token, it has opened no parenthesis.
    cases heffect with
    | passes hbefore _ _ hcause =>
      rw [h.opened hbefore]
      rcases hcause with hblank | rfl | hstray
      · cases token with
        | blank gap => rfl
        | _ => cases hblank
      · rfl
      · cases hstray with
        | closeParen => rfl
        | values hword => exact nextDepth_of_isPlain (isPlain_of_bareWord? hword)
        | inBlock hword => exact nextDepth_of_isPlain (isPlain_of_bareWord? hword)
    | opens _ hsome => rw [hnone] at hsome; cases hsome
    | keeps _ hsome => rw [hnone] at hsome; cases hsome
    | follows _ hsome => rw [hnone] at hsome; cases hsome
    | ends _ _ _ hdepth hsemicolon =>
      subst hsemicolon
      exact hdepth
  previous hzero := by
    rw [depth_step] at hzero
    rw [previous_step hzero, lastWord_between_succ hstart htoken]
    split
    · rename_i hdepth
      rw [h.previous hdepth]
    · -- The token closes the last parenthesis, which is no word.
      rename_i hdepth
      cases role token with
      | closeParen => rfl
      | blank gap => exact absurd hzero hdepth
      | semicolon => exact absurd hzero hdepth
      | openParen => cases hzero
      | plain _ _ hplain =>
        rw [nextDepth_of_isPlain hplain] at hzero
        exact absurd hzero hdepth
      | word hword =>
        rw [nextDepth_of_isPlain (isPlain_of_bareWord? hword)] at hzero
        exact absurd hzero hdepth

/-- What holds at the start and is kept by every step up to a place holds of the state there. -/
theorem exists_state_at (property : Nat → State → Prop) {stop : Nat} (hstart : start ≤ stop)
    (hstop : stop ≤ tokens.length) (hinitial : property start {})
    (hstep : ∀ pos s token, start ≤ pos → pos < stop → tokens[pos]? = some token →
      property pos s → property (pos + 1) (step s pos token (tokens.drop (pos + 1)))) :
    ∃ s, property stop s ∧
      run {} start (tokens.drop start) = run s stop (tokens.drop stop) := by
  induction hstart with
  | refl => exact ⟨{}, hinitial, rfl⟩
  | @step pos hpos ih =>
    obtain ⟨s, hs, hrun⟩ := ih (Nat.le_of_succ_le hstop) fun pos' s token hle hlt =>
      hstep pos' s token hle (Nat.lt_succ_of_lt hlt)
    have htoken : tokens[pos]? = some tokens[pos] := List.getElem?_eq_getElem hstop
    refine ⟨_, hstep pos s _ hpos (Nat.lt_succ_self pos) htoken hs, hrun.trans ?_⟩
    rw [List.drop_eq_getElem_cons hstop]
    rfl

end Places

end SchemaPlan.Sql.Body
