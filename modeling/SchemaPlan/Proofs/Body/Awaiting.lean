import SchemaPlan.Proofs.Body.Names
import SchemaPlan.Proofs.Body.Tiling

/-!
# What the open statement waits for

A list of common table expressions waits for its statement, an `INSERT` for the source of its rows
and a `MERGE` for a semicolon. Where no semicolon has been met, this is told from the tokens: from
the last starting word and from whether `VALUES` stands behind it.

* `awaits_of_starter`, `Awaits.values`, `Awaits.later`: what a token changes of it.
* `Reached.step`: so every step keeps the agreement between the tokens and the open statement.
-/

namespace SchemaPlan.Sql.Body

/-! ## Starting words -/

section Words

variable (tokens : List Token) (start : Nat)

/-- The unquoted word at a place outside parentheses and `CASE` blocks, in capitals. -/
def outerWord? (pos : Nat) : Option String :=
  if nestingAt tokens start pos = {} then tokens[pos]?.bind Token.bareWord? else none

/-- Whether the word directly before a place joins a starting word there to the open statement. -/
def isJoined (pos : Nat) : Bool := (lastWord none (between tokens start pos)).any isJoiner

/-- The kind of statement that the word at a place starts, unless it is joined to the open one. -/
def starter? (pos : Nat) : Option StatementKind :=
  if isJoined tokens start pos then none
  else (outerWord? tokens start pos).bind (starterOf? · (tokens.drop (pos + 1)))

/-- The last starting word before a place, and its kind. -/
def lastStarter? : Nat → Option (Nat × StatementKind)
  | 0 => none
  | pos + 1 =>
    if pos < start then none
    else match starter? tokens start pos with
      | some kind => some (pos, kind)
      | none => lastStarter? pos

/-- Whether a list of common table expressions waits for its statement. -/
def listWaits (pos : Nat) : Bool := (lastStarter? tokens start pos).any (·.2 == .cte)

/-- Whether `VALUES` stands between two places. -/
def HasValues (first pos : Nat) : Prop :=
  ∃ p < pos, first < p ∧ outerWord? tokens start p = some "VALUES"

/-- An `INSERT` waits for its rows: behind it there is neither a starting word nor `VALUES`. -/
def InsertWaits (pos : Nat) : Prop :=
  ∃ insert, lastStarter? tokens start pos = some (insert, .insert) ∧
    ¬ HasValues tokens start insert pos

/-- A `MERGE` has started. Nothing but a semicolon ends it. -/
def InMerge (pos : Nat) : Prop := ∃ p < pos, start ≤ p ∧ starter? tokens start p = some .merge

instance (pos : Nat) : Decidable (InMerge tokens start pos) :=
  inferInstanceAs (Decidable (∃ p < pos, _))

end Words

section Places

variable {tokens : List Token} {start pos first : Nat} {kind : StatementKind} {word : String}

theorem lastStarter?_succ (hstart : start ≤ pos) :
    lastStarter? tokens start (pos + 1) =
      match starter? tokens start pos with
      | some kind => some (pos, kind)
      | none => lastStarter? tokens start pos := if_neg (Nat.not_lt.mpr hstart)

theorem lastStarter?_of_starter (hstart : start ≤ pos) (h : starter? tokens start pos = some kind) :
    lastStarter? tokens start (pos + 1) = some (pos, kind) := by
  rw [lastStarter?_succ hstart, h]

theorem lastStarter?_of_none (hstart : start ≤ pos) (h : starter? tokens start pos = none) :
    lastStarter? tokens start (pos + 1) = lastStarter? tokens start pos := by
  rw [lastStarter?_succ hstart, h]

/-- The last starting word is one, and none stands behind it. -/
theorem of_lastStarter? (h : lastStarter? tokens start pos = some (first, kind)) :
    start ≤ first ∧ first < pos ∧ starter? tokens start first = some kind ∧
      ∀ p, first < p → p < pos → starter? tokens start p = none := by
  induction pos with
  | zero => cases h
  | succ pos ih =>
    rw [lastStarter?] at h
    split at h
    · cases h
    rename_i hstart
    -- The word directly before is the last one, or it starts nothing and the last one is further back.
    split at h
    · rename_i hstarter
      cases h
      exact ⟨Nat.not_lt.mp hstart, Nat.lt_succ_self _, hstarter, fun p _ _ => by omega⟩
    · rename_i hnone
      obtain ⟨hle, hlt, hstarter, hbehind⟩ := ih h
      refine ⟨hle, Nat.lt_succ_of_lt hlt, hstarter, fun p hp hp' => ?_⟩
      rcases Nat.lt_or_eq_of_le (Nat.lt_succ_iff.mp hp') with hp' | rfl
      · exact hbehind p hp hp'
      · exact hnone

theorem inMerge_succ : InMerge tokens start (pos + 1) ↔
    InMerge tokens start pos ∨ start ≤ pos ∧ starter? tokens start pos = some .merge :=
  Nat.exists_lt_succ_right

theorem InMerge.later (h : InMerge tokens start pos) : InMerge tokens start (pos + 1) :=
  inMerge_succ.mpr (.inl h)

theorem not_inMerge_succ (h : ¬ InMerge tokens start pos)
    (hstarter : starter? tokens start pos ≠ some .merge) : ¬ InMerge tokens start (pos + 1) :=
  fun hlater => (inMerge_succ.mp hlater).elim h fun hmerge => hstarter hmerge.2

theorem hasValues_succ : HasValues tokens start first (pos + 1) ↔
    HasValues tokens start first pos ∨
      first < pos ∧ outerWord? tokens start pos = some "VALUES" :=
  Nat.exists_lt_succ_right

/-- `VALUES` and `CASE` start nothing. -/
theorem ne_of_starterOf? {rest : List Token} (h : starterOf? word rest = some kind) :
    word ≠ "CASE" ∧ word ≠ "VALUES" := by
  constructor <;> rintro rfl <;> cases h

theorem exists_token_of_outerWord? (h : outerWord? tokens start pos = some word) :
    ∃ token, tokens[pos]? = some token := by
  unfold outerWord? at h
  split at h
  · obtain ⟨token, htoken, -⟩ := Option.bind_eq_some_iff.mp h
    exact ⟨token, htoken⟩
  · cases h

theorem exists_outerWord?_of_starter? (h : starter? tokens start pos = some kind) :
    ∃ word, outerWord? tokens start pos = some word ∧
      starterOf? word (tokens.drop (pos + 1)) = some kind := by
  unfold starter? at h
  split at h
  · cases h
  · exact Option.bind_eq_some_iff.mp h

theorem starter?_of_values (h : outerWord? tokens start pos = some "VALUES") :
    starter? tokens start pos = none := by
  rw [starter?, h]
  exact ite_self none

end Places

/-! ## What is awaited -/

/-- A statement that waits for nothing: a select behind it belongs to it only if a word joins it. -/
def IsSupplied (opened : OpenStatement) : Prop :=
  match opened.kind with
  | .merge => False
  | .cte => False
  | .insert => opened.hasSource = true
  | _ => True

/-- What the statement that is open at a place waits for. -/
inductive Awaits (tokens : List Token) (start pos : Nat) : Option OpenStatement → Prop where
  | semicolon {opened : OpenStatement} :
      InMerge tokens start pos → opened.kind = .merge → Awaits tokens start pos (some opened)
  | statement {first : Nat} :
      ¬ InMerge tokens start pos → lastStarter? tokens start pos = some (first, .cte) →
      Awaits tokens start pos (some { kind := .cte, start := first })
  | rows {opened : OpenStatement} :
      ¬ InMerge tokens start pos → InsertWaits tokens start pos → opened.kind = .insert →
      opened.hasSource = false → Awaits tokens start pos (some opened)
  | nothing {current : Option OpenStatement} :
      ¬ InMerge tokens start pos → listWaits tokens start pos = false →
      ¬ InsertWaits tokens start pos → (∀ opened ∈ current, IsSupplied opened) →
      Awaits tokens start pos current

section Awaited

variable {tokens rest : List Token} {start pos first : Nat} {kind : StatementKind} {word : String}
  {opened next : OpenStatement} {current : Option OpenStatement} {previous : Option String}

/-- A statement that waits for nothing takes no select. -/
theorem IsSupplied.absorb?_select (h : IsSupplied opened) :
    opened.absorb? "SELECT" none = none := by
  obtain ⟨kind, start, hasSource, hasSet⟩ := opened
  cases kind with
  | merge => exact h.elim
  | cte => exact h.elim
  | insert =>
    obtain rfl : hasSource = true := h
    rfl
  | _ => rfl

theorem absorb?_merge (h : opened.kind = .merge) : opened.absorb? word previous = some opened := by
  unfold OpenStatement.absorb?
  rw [h]
  exact ite_self _

/-- The statement that is open behind a starting word: either it has the kind of the word, or the
word has supplied it with something. -/
inductive StartedBy (kind : StatementKind) (pos : Nat) (next : OpenStatement) : Prop where
  | itself {first : Nat} :
      next = { kind, start := first } → (kind = .cte → first = pos) → StartedBy kind pos next
  | part : IsSupplied next → kind ∉ [.merge, .cte, .insert] → StartedBy kind pos next

/-- A list of common table expressions becomes the statement that it waits for. -/
theorem startedBy_list (hkind : starterOf? word rest = some kind) :
    StartedBy kind pos
      ((OpenStatement.absorb? { kind := .cte, start := first } word none).getD
        { kind, start := pos }) := by
  rw [OpenStatement.absorb?, if_neg (by exact Bool.false_ne_true)]
  dsimp only
  split
  · rename_i hmem
    have hne : word ≠ "WITH" := by
      rintro rfl
      cases hmem
    rw [starterOf?, if_neg hne] at hkind
    rw [hkind]
    exact .itself rfl fun hcte => absurd hcte (ne_cte_of_starterKind? hkind)
  · exact .itself rfl fun _ => rfl

/-- An `INSERT` takes a select or a call for the source of its rows, and an `UPDATE` takes its `SET`.
Any other statement that waits for nothing, and an `INSERT` otherwise, leaves a starting word to the
next statement. -/
theorem startedBy_other (hkind : starterOf? word rest = some kind) (hmerge : opened.kind ≠ .merge)
    (hlist : opened.kind ≠ .cte) :
    StartedBy kind pos ((opened.absorb? word none).getD { kind, start := pos }) := by
  have hpart {next : OpenStatement} {kind' : StatementKind} (hword : starterKind? word = some kind')
      (hsupplied : IsSupplied next) (hmem : kind' ∉ [.merge, .cte, .insert]) :
      StartedBy kind pos next := by
    rw [starterOf?_of_starterKind? hword] at hkind
    exact .part hsupplied (Option.some.inj hkind ▸ hmem)
  have hitself : StartedBy kind pos { kind, start := pos } := .itself rfl fun _ => rfl
  -- Of the statements that are left, an `INSERT` and an `UPDATE` take words, and only certain ones.
  obtain ⟨kind', first, hasSource, hasSet⟩ := opened
  rw [OpenStatement.absorb?, if_neg (by exact Bool.false_ne_true)]
  dsimp only
  cases kind' with
  | merge => exact absurd rfl hmerge
  | cte => exact absurd rfl hlist
  | insert =>
    dsimp only
    split
    · rename_i hmem
      have hword := List.contains_iff_mem.mp (Bool.and_eq_true_iff.mp hmem).1
      simp only [List.mem_cons, List.not_mem_nil, or_false] at hword
      rcases hword with rfl | rfl | rfl
      · exact hpart rfl rfl (by decide)
      · exact hpart rfl rfl (by decide)
      · exact hpart rfl rfl (by decide)
    · exact hitself
  | update =>
    dsimp only
    split
    · rename_i hset
      obtain rfl := of_decide_eq_true (Bool.and_eq_true_iff.mp hset).1
      exact hpart rfl trivial (by decide)
    · exact hitself
  | _ => exact hitself

/-- What is awaited behind a starting word. -/
theorem awaits_of_starter (hstart : start ≤ pos) (hmerge : ¬ InMerge tokens start pos)
    (hstarter : starter? tokens start pos = some kind) (h : StartedBy kind pos next) :
    Awaits tokens start (pos + 1) (some next) := by
  have hlast : lastStarter? tokens start (pos + 1) = some (pos, kind) :=
    lastStarter?_of_starter hstart hstarter
  have hlater (hkind : kind ≠ .merge) : ¬ InMerge tokens start (pos + 1) :=
    not_inMerge_succ hmerge fun h => hkind (Option.some.inj (hstarter.symm.trans h))
  have hnothing (hmem : kind ∉ [.merge, .cte, .insert]) (hsupplied : IsSupplied next) :
      Awaits tokens start (pos + 1) (some next) := by
    simp only [List.mem_cons, List.not_mem_nil, or_false, not_or] at hmem
    obtain ⟨hmerge, hcte, hinsert⟩ := hmem
    refine .nothing (hlater hmerge) ?_ ?_ ?_
    · rw [listWaits, hlast]
      exact beq_eq_false_iff_ne.mpr hcte
    · rintro ⟨insert, hlast', -⟩
      rw [hlast] at hlast'
      cases hlast'
      exact hinsert rfl
    · rintro _ ⟨⟩
      exact hsupplied
  cases h with
  | part hsupplied hmem => exact hnothing hmem hsupplied
  | @itself first hnext hfirst =>
    subst hnext
    -- Three kinds of statements wait for something when they start.
    cases kind with
    | merge => exact .semicolon (inMerge_succ.mpr (.inr ⟨hstart, hstarter⟩)) rfl
    | cte =>
      obtain rfl := hfirst rfl
      exact .statement (hlater nofun) hlast
    | insert =>
      refine .rows (hlater nofun) ⟨pos, hlast, ?_⟩ rfl rfl
      rintro ⟨p, hlt, hgt, -⟩
      omega
    | _ => exact hnothing (by decide) trivial

/-- A starting word gives the open statement what it waits for, or starts the next one. -/
theorem Awaits.starter (h : Awaits tokens start pos current) (hstart : start ≤ pos)
    (hstarter : starter? tokens start pos = some kind) (hkind : starterOf? word rest = some kind) :
    Awaits tokens start (pos + 1)
      (some ((current.bind (·.absorb? word none)).getD { kind, start := pos })) := by
  cases h with
  -- A `MERGE` takes every word up to its semicolon.
  | semicolon hmerge hopened =>
    rw [Option.bind_some, absorb?_merge hopened, Option.getD_some]
    exact .semicolon hmerge.later hopened
  | statement hmerge => exact awaits_of_starter hstart hmerge hstarter (startedBy_list hkind)
  -- An `INSERT` that waits for rows takes the word only where it is a source of rows.
  | rows hmerge _ hopened =>
    refine awaits_of_starter hstart hmerge hstarter (startedBy_other hkind ?_ ?_) <;>
      rw [hopened] <;> exact nofun
  | nothing hmerge _ _ hsupplied =>
    cases current with
    | none => exact awaits_of_starter hstart hmerge hstarter (.itself rfl fun _ => rfl)
    | some opened =>
      have hopened : IsSupplied opened := hsupplied opened rfl
      refine awaits_of_starter hstart hmerge hstarter (startedBy_other hkind ?_ ?_) <;>
        intro hkind' <;> rw [IsSupplied, hkind'] at hopened <;> exact hopened

/-- `VALUES` gives an `INSERT` its rows. -/
theorem Awaits.values (h : Awaits tokens start pos current) (hstart : start ≤ pos)
    (hvalues : outerWord? tokens start pos = some "VALUES")
    (hlist : listWaits tokens start pos = false) :
    Awaits tokens start (pos + 1)
      (current.map fun opened => { opened with hasSource := true }) := by
  have hnone : starter? tokens start pos = none := starter?_of_values hvalues
  have hlast : lastStarter? tokens start (pos + 1) = lastStarter? tokens start pos :=
    lastStarter?_of_none hstart hnone
  have hlater (hmerge : ¬ InMerge tokens start pos) : ¬ InMerge tokens start (pos + 1) :=
    not_inMerge_succ hmerge (by rw [hnone]; exact nofun)
  have hlist' : listWaits tokens start (pos + 1) = false := by rw [listWaits, hlast]; exact hlist
  -- Whichever `INSERT` was last, this `VALUES` stands behind it.
  have hno : ¬ InsertWaits tokens start (pos + 1) := by
    rintro ⟨insert, hinsert, hwaits⟩
    rw [hlast] at hinsert
    exact hwaits (hasValues_succ.mpr (.inr ⟨(of_lastStarter? hinsert).2.1, hvalues⟩))
  cases h with
  | semicolon hmerge hopened => exact .semicolon hmerge.later hopened
  | statement _ hlast' =>
    rw [listWaits, hlast'] at hlist
    cases hlist
  | @rows opened hmerge _ hopened =>
    refine .nothing (hlater hmerge) hlist' hno ?_
    rintro _ ⟨⟩
    rw [IsSupplied]
    dsimp only
    rw [hopened]
  | nothing hmerge _ _ hsupplied =>
    refine .nothing (hlater hmerge) hlist' hno ?_
    intro opened' hopened'
    obtain ⟨opened, hopened, rfl⟩ := Option.map_eq_some_iff.mp hopened'
    have hsupplied := hsupplied opened hopened
    obtain ⟨kind, first, hasSource, hasSet⟩ := opened
    cases kind with
    | merge => exact hsupplied
    | cte => exact hsupplied
    | insert => rfl
    | _ => trivial

/-- Any other token changes nothing, but it can open a statement that waits for nothing. -/
theorem Awaits.later (h : Awaits tokens start pos current) (hstart : start ≤ pos)
    (hnone : starter? tokens start pos = none)
    (hvalues : outerWord? tokens start pos ≠ some "VALUES") {current' : Option OpenStatement}
    (hcurrent : current' = current ∨
      current = none ∧ current' = some { kind := .other, start := pos }) :
    Awaits tokens start (pos + 1) current' := by
  have hlast : lastStarter? tokens start (pos + 1) = lastStarter? tokens start pos :=
    lastStarter?_of_none hstart hnone
  have hlater (hmerge : ¬ InMerge tokens start pos) : ¬ InMerge tokens start (pos + 1) :=
    not_inMerge_succ hmerge (by rw [hnone]; exact nofun)
  -- The token is no `VALUES`, so an `INSERT` waits behind it exactly if it waited before.
  have hwaits : InsertWaits tokens start (pos + 1) ↔ InsertWaits tokens start pos := by
    unfold InsertWaits
    rw [hlast]
    refine exists_congr fun insert => and_congr_right fun _ => not_congr ?_
    exact hasValues_succ.trans (or_iff_left fun h => hvalues h.2)
  have hnothing (hmerge : ¬ InMerge tokens start pos) (hlist : listWaits tokens start pos = false)
      (hno : ¬ InsertWaits tokens start pos) (hsupplied : ∀ opened ∈ current', IsSupplied opened) :
      Awaits tokens start (pos + 1) current' :=
    .nothing (hlater hmerge) (by rw [listWaits, hlast]; exact hlist) (fun h => hno (hwaits.mp h))
      hsupplied
  -- Either the open statement stays as it is, or none was open and one of kind `other` opens here.
  rcases hcurrent with rfl | ⟨rfl, rfl⟩
  · cases h with
    | semicolon hmerge hopened => exact .semicolon hmerge.later hopened
    | statement hmerge hlist => exact .statement (hlater hmerge) (hlast.trans hlist)
    | rows hmerge hinsert hopened hsource =>
      exact .rows (hlater hmerge) (hwaits.mpr hinsert) hopened hsource
    | nothing hmerge hlist hno hsupplied => exact hnothing hmerge hlist hno hsupplied
  · cases h with
    | nothing hmerge hlist hno _ =>
      refine hnothing hmerge hlist hno ?_
      rintro _ ⟨⟩
      trivial

theorem Awaits.of_inMerge (h : Awaits tokens start pos current) (hmerge : InMerge tokens start pos) :
    ∃ opened, current = some opened ∧ opened.kind = .merge := by
  cases h with
  | semicolon _ hopened => exact ⟨_, rfl, hopened⟩
  | statement hno => exact absurd hmerge hno
  | rows hno => exact absurd hmerge hno
  | nothing hno => exact absurd hmerge hno

theorem Awaits.of_insertWaits (h : Awaits tokens start pos current)
    (hmerge : ¬ InMerge tokens start pos) (hwaits : InsertWaits tokens start pos) :
    ∃ opened, current = some opened ∧ opened.kind = .insert ∧ opened.hasSource = false := by
  cases h with
  | semicolon hopen => exact absurd hopen hmerge
  | statement _ hlist =>
    obtain ⟨insert, hinsert, -⟩ := hwaits
    rw [hinsert] at hlist
    cases hlist
  | rows _ _ hopened hsource => exact ⟨_, rfl, hopened, hsource⟩
  | nothing _ _ hno => exact absurd hwaits hno

end Awaited

/-! ## The open statement after a token -/

section Steps

variable {tokens rest : List Token} {start pos : Nat} {s : State} {token : Token} {word : String}
  {kind : StatementKind}

/-- A starting word that no word joins belongs to the open statement if that takes it, or starts the
next one. -/
theorem current_step_starter (hdepth : s.depth = 0) (hblock : s.caseDepth = 0)
    (hword : token.bareWord? = some word) (hkind : starterOf? word rest = some kind)
    (hprevious : s.previous.any isJoiner = false) :
    (step s pos token rest).current =
      some ((s.current.bind (·.absorb? word none)).getD { kind, start := pos }) := by
  obtain ⟨hcase, hvalues⟩ := ne_of_starterOf? hkind
  have habsorb : s.current.bind (·.absorb? word s.previous) =
      s.current.bind (·.absorb? word none) :=
    Option.bind_congr fun opened _ => absorb?_of_not_joined hprevious
  rw [step_word hdepth hword, visitWord_outside hblock hcase hvalues, hkind, habsorb]
  dsimp only
  cases s.current.bind (·.absorb? word none) with
  | none => rfl
  | some opened => rfl

/-- A starting word belongs to the open statement that takes it. -/
theorem current_step_absorb {opened opened' : OpenStatement} (hdepth : s.depth = 0)
    (hblock : s.caseDepth = 0) (hword : token.bareWord? = some word)
    (hkind : starterOf? word rest = some kind) (hopened : s.current = some opened)
    (habsorb : opened.absorb? word s.previous = some opened') :
    (step s pos token rest).current = some opened' := by
  obtain ⟨hcase, hvalues⟩ := ne_of_starterOf? hkind
  rw [step_word hdepth hword, visitWord_outside hblock hcase hvalues, hkind, hopened,
    Option.bind_some, habsorb]

/-- `VALUES` gives rows to the open statement. -/
theorem current_step_values (hdepth : s.depth = 0) (hblock : s.caseDepth = 0)
    (hword : token.bareWord? = some "VALUES") :
    (step s pos token rest).current =
      s.current.map fun opened => { opened with hasSource := true } := by
  rw [step_word hdepth hword, visitWord_values hblock]

theorem current_ensureOpen (s : State) (pos : Nat) :
    (s.ensureOpen pos).current = s.current ∨
      s.current = none ∧ (s.ensureOpen pos).current = some { kind := .other, start := pos } := by
  unfold State.ensureOpen
  split
  · exact .inl rfl
  · rename_i hnone
    exact .inr ⟨hnone, rfl⟩

/-- A token that starts nothing belongs to the open statement, or opens one that waits for nothing.
A starting word that is joined to the open statement starts nothing. -/
theorem current_step_other (hsemicolon : token = .mark .semicolon → s.depth ≠ 0)
    (hvalues : s.depth = 0 → s.caseDepth = 0 → token.bareWord? ≠ some "VALUES")
    (hjoined : ∀ word kind, s.depth = 0 → s.caseDepth = 0 → token.bareWord? = some word →
      starterOf? word rest = some kind →
      ∃ opened joiner, s.current = some opened ∧ s.previous = some joiner ∧ isJoiner joiner = true) :
    (step s pos token rest).current = s.current ∨ s.current = none ∧
      (step s pos token rest).current = some { kind := .other, start := pos } := by
  -- A token outside parentheses opens a statement if none is open.
  have hopen : (if s.depth = 0 then s.ensureOpen pos else s).current = s.current ∨
      s.current = none ∧ (if s.depth = 0 then s.ensureOpen pos else s).current =
        some { kind := .other, start := pos } := by
    split
    · exact current_ensureOpen s pos
    · exact .inl rfl
  cases role token with
  | blank gap => exact .inl rfl
  | semicolon =>
    unfold step
    dsimp only
    rw [if_neg (hsemicolon rfl)]
    exact .inl rfl
  | openParen => exact hopen
  | closeParen => exact .inl rfl
  | plain hblank hword hplain =>
    rw [step_other hblank hword hplain]
    exact hopen
  | @word _ word hword =>
    -- Only words outside parentheses are looked at, and of these the starting words that are joined
    -- to the open statement, which takes them.
    by_cases hdepth : s.depth = 0
    · rw [step_word hdepth hword]
      dsimp only
      by_cases hcase : word = "CASE"
      · subst hcase
        exact current_ensureOpen { s with caseDepth := s.caseDepth + 1 } pos
      by_cases hblock : s.caseDepth = 0
      · cases hkind : starterOf? word rest with
        | none =>
          have hne : word ≠ "VALUES" := by
            rintro rfl
            exact hvalues hdepth hblock hword
          rw [visitWord_outside hblock hcase hne, hkind]
          exact current_ensureOpen s pos
        | some kind =>
          obtain ⟨opened, joiner, hopened, hprevious, hjoiner⟩ :=
            hjoined word kind hdepth hblock hword hkind
          have habsorb : opened.absorb? word s.previous = some opened := by
            rw [hprevious]
            exact absorb?_of_isJoiner hjoiner word
          have hstep : (step s pos token rest).current = some opened :=
            current_step_absorb hdepth hblock hword hkind hopened habsorb
          rw [step_word hdepth hword] at hstep
          exact .inl (hstep.trans hopened.symm)
      · refine .inl ?_
        unfold visitWord
        rw [if_neg hcase, if_pos (Nat.pos_of_ne_zero hblock)]
        split <;> rfl
    · rw [step_word_inside hdepth hword]
      exact .inl rfl

end Steps

/-! ## Reaching a place -/

/-- The state at a place that no semicolon has been met before: it agrees with the tokens in what is
awaited, and where no statement is open neither is a block, and no word joins what follows. -/
structure Reached (tokens : List Token) (start pos : Nat) (s : State) : Prop where
  located : Located tokens start pos s
  attached : s.current = none → s.caseDepth = 0 ∧ s.previous.any isJoiner = false
  awaits : Awaits tokens start pos s.current

section Places

variable {tokens : List Token} {start pos : Nat} {s : State} {token : Token} {word : String}
  {kind : StatementKind}

theorem reached_start (tokens : List Token) (start : Nat) : Reached tokens start start {} where
  located := located_start tokens start
  attached _ := ⟨rfl, rfl⟩
  awaits := by
    have hnone : lastStarter? tokens start start = none := by
      cases start with
      | zero => rfl
      | succ n => exact if_pos (Nat.lt_succ_self n)
    refine .nothing ?_ ?_ ?_ nofun
    · rintro ⟨p, hlt, hle, -⟩
      omega
    · rw [listWaits, hnone]
      rfl
    · rintro ⟨insert, hinsert, -⟩
      rw [hnone] at hinsert
      cases hinsert

theorem Located.outerWord?_eq_some (h : Located tokens start pos s)
    (htoken : tokens[pos]? = some token) : outerWord? tokens start pos = some word ↔
      s.depth = 0 ∧ s.caseDepth = 0 ∧ token.bareWord? = some word := by
  have hnesting : nestingAt tokens start pos = {} ↔ s.depth = 0 ∧ s.caseDepth = 0 := by
    rw [← h.nesting, State.nesting, Nesting.mk.injEq]
  rw [outerWord?, htoken, Option.bind_some, ← and_assoc, ← hnesting]
  by_cases hzero : nestingAt tokens start pos = {}
  · rw [if_pos hzero]
    exact ⟨fun hword => ⟨hzero, hword⟩, And.right⟩
  · rw [if_neg hzero]
    constructor
    · intro hword
      cases hword
    · intro hword
      exact absurd hword.1 hzero

theorem Located.isJoined (h : Located tokens start pos s) (hdepth : s.depth = 0) :
    isJoined tokens start pos = s.previous.any isJoiner := by
  rw [Body.isJoined, h.previous hdepth]

theorem Located.of_starter? (h : Located tokens start pos s) (htoken : tokens[pos]? = some token)
    (hstarter : starter? tokens start pos = some kind) :
    ∃ word, s.depth = 0 ∧ s.caseDepth = 0 ∧ token.bareWord? = some word ∧
      starterOf? word (tokens.drop (pos + 1)) = some kind ∧ s.previous.any isJoiner = false := by
  unfold starter? at hstarter
  split at hstarter
  · cases hstarter
  rename_i hjoined
  obtain ⟨word, hword, hkind⟩ := Option.bind_eq_some_iff.mp hstarter
  obtain ⟨hdepth, hblock, hword⟩ := (h.outerWord?_eq_some htoken).mp hword
  rw [h.isJoined hdepth, Bool.not_eq_true] at hjoined
  exact ⟨word, hdepth, hblock, hword, hkind, hjoined⟩

/-- A word joins a starting word that starts nothing. -/
theorem Located.any_isJoiner (h : Located tokens start pos s) (htoken : tokens[pos]? = some token)
    (hnone : starter? tokens start pos = none) (hdepth : s.depth = 0) (hblock : s.caseDepth = 0)
    (hword : token.bareWord? = some word)
    (hkind : starterOf? word (tokens.drop (pos + 1)) = some kind) :
    s.previous.any isJoiner = true := by
  rw [← h.isJoined hdepth]
  by_contra hfree
  rw [starter?, if_neg hfree, (h.outerWord?_eq_some htoken).mpr ⟨hdepth, hblock, hword⟩,
    Option.bind_some, hkind] at hnone
  cases hnone

/-- A starting word that is none for the open statement is joined to it. -/
theorem Reached.joined (h : Reached tokens start pos s) (htoken : tokens[pos]? = some token)
    (hnone : starter? tokens start pos = none) (hdepth : s.depth = 0) (hblock : s.caseDepth = 0)
    (hword : token.bareWord? = some word)
    (hkind : starterOf? word (tokens.drop (pos + 1)) = some kind) :
    ∃ opened joiner, s.current = some opened ∧ s.previous = some joiner ∧
      isJoiner joiner = true := by
  have hjoined := h.located.any_isJoiner htoken hnone hdepth hblock hword hkind
  obtain ⟨joiner, hprevious, hjoiner⟩ := (Option.any_eq_true _ _).mp hjoined
  -- Without an open statement no word joins what follows.
  cases hopened : s.current with
  | none =>
    rw [(h.attached hopened).2] at hjoined
    cases hjoined
  | some opened => exact ⟨opened, joiner, rfl, hprevious, hjoiner⟩

/-- What is open and awaited after a token agrees with the tokens again. -/
theorem Reached.step (h : Reached tokens start pos s) (hstart : start ≤ pos)
    (htoken : tokens[pos]? = some token) (hsemicolon : ¬ IsSeparator tokens start pos)
    (hlist : outerWord? tokens start pos = some "VALUES" → listWaits tokens start pos = false) :
    Reached tokens start (pos + 1) (step s pos token (tokens.drop (pos + 1))) where
  located := h.located.step hstart htoken _
  attached hnone := by
    have hno (hdepth : s.depth = 0) : token ≠ .mark .semicolon := by
      rintro rfl
      exact hsemicolon ⟨htoken, h.located.depth ▸ hdepth⟩
    have heffect : Effect s pos token (Body.step s pos token (tokens.drop (pos + 1))) :=
      effect_step h.located.opened
    -- Without a semicolon the statements are open from the first one on.
    cases heffect with
    | passes hbefore _ _ hcause =>
      have hattached := h.attached hbefore
      have hdepth : s.depth = 0 := h.located.opened hbefore
      rcases hcause with hblank | heq | hstray
      · rw [step_blank hblank]
        exact hattached
      · exact absurd heq (hno hdepth)
      · cases hstray with
        | closeParen => exact ⟨hattached.1, rfl⟩
        | values hword =>
          rw [step_word hdepth hword, visitWord_values hattached.1]
          exact ⟨hattached.1, rfl⟩
        | inBlock _ _ hblock => exact absurd hattached.1 (Nat.ne_of_gt hblock)
    | opens _ hsome => rw [hnone] at hsome; cases hsome
    | keeps _ hsome => rw [hnone] at hsome; cases hsome
    | follows _ hsome => rw [hnone] at hsome; cases hsome
    | ends _ _ _ hdepth heq => exact absurd heq (hno hdepth)
  awaits := by
    -- A token that starts something, `VALUES`, or any other: one lemma for each.
    cases hstarter : starter? tokens start pos with
    | some kind =>
      obtain ⟨word, hdepth, hblock, hword, hkind, hprevious⟩ := h.located.of_starter? htoken hstarter
      rw [current_step_starter hdepth hblock hword hkind hprevious]
      exact h.awaits.starter hstart hstarter hkind
    | none =>
      by_cases hvalues : outerWord? tokens start pos = some "VALUES"
      · obtain ⟨hdepth, hblock, hword⟩ := (h.located.outerWord?_eq_some htoken).mp hvalues
        rw [current_step_values hdepth hblock hword]
        exact h.awaits.values hstart hvalues (hlist hvalues)
      · refine h.awaits.later hstart hstarter hvalues (current_step_other ?_ ?_ ?_)
        · rintro rfl hdepth
          exact hsemicolon ⟨htoken, h.located.depth ▸ hdepth⟩
        · intro hdepth hblock hword
          exact hvalues ((h.located.outerWord?_eq_some htoken).mpr ⟨hdepth, hblock, hword⟩)
        · intro word kind hdepth hblock hword hkind
          exact h.joined htoken hstarter hdepth hblock hword hkind

end Places

end SchemaPlan.Sql.Body
