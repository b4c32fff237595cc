import SchemaPlan.Proofs.Body.RowSource
import SchemaPlan.Proofs.Body.Semicolons
import Mathlib.Order.WellFounded

/-!
# Starting words in clauses

`FETCH` behind `OFFSET .. ROWS` and the permissions of a `GRANT` are clause words of their statements,
but they are met as words that start one. A select statement and a `GRANT` take no starting word that
none joins. So such a statement is found as a whole exactly if it has no such clause word, and it is cut
at the first one otherwise.

* `mem_statements_of_freshAt`: the statements behind a semicolon are statements of the whole body.
* `Opening.exists_open`: a statement stays open up to the next starting word or semicolon.
* `Opening.exists_mem_iff`: when a statement is found as a whole.
* `Opening.cut_at`: what is found if it is not.
-/

namespace SchemaPlan.Sql.Body

/-! ## Places where reading begins anew -/

/-- The start of a body, and the place behind a semicolon outside parentheses and `CASE` blocks. -/
inductive FreshAt (tokens : List Token) (start : Nat) : Nat → Prop where
  | start : FreshAt tokens start start
  | semicolon {pos : Nat} : start ≤ pos → tokens[pos]? = some (.mark .semicolon) →
      nestingAt tokens start pos = {} → FreshAt tokens start (pos + 1)

section Fresh

variable {tokens : List Token} {start base : Nat} {statement : BodyStatement}

theorem FreshAt.le (h : FreshAt tokens start base) : start ≤ base := by
  cases h with
  | start => exact Nat.le_refl start
  | semicolon hstart => exact Nat.le_succ_of_le hstart

/-- Statements at the same places are those that are shifted by nothing. -/
theorem eq_of_sameStatement {found found' : List BodyStatement}
    (h : List.Forall₂ (SameStatement Eq) found found') : found = found' :=
  (@eq_map_shift 0 found found' h).trans (List.map_id found')

/-- Behind a semicolon a body is read as from its start. -/
theorem mem_statements_of_freshAt (h : FreshAt tokens start base)
    (hmem : statement ∈ statements tokens base) : statement ∈ statements tokens start := by
  cases h with
  | start => exact hmem
  | @semicolon pos hstart htoken hnesting =>
    obtain ⟨hlt, hget⟩ := List.getElem?_eq_some_iff.mp htoken
    obtain ⟨s, hs, hrun⟩ := exists_state_at (Located tokens start) hstart (Nat.le_of_lt hlt)
      (located_start tokens start) fun _ _ _ hstart _ htoken h => h.step hstart htoken _
    rw [List.drop_eq_getElem_cons hlt, hget] at hrun
    have hclosed : s.nesting = {} := hs.nesting.trans hnesting
    have hdepth : (step s pos (.mark .semicolon) (tokens.drop (pos + 1))).depth = ({} : State).depth :=
      (depth_step s pos _ _).trans (congrArg Nesting.depth hclosed)
    -- Behind the semicolon the state differs from a fresh one in what is finished only, and a run
    -- adds to that the same on both sides.
    have hmirrors : Mirrors Eq (s.close pos).finished
        ((run (step s pos (.mark .semicolon) (tokens.drop (pos + 1))) (pos + 1)
          (tokens.drop (pos + 1))).close tokens.length)
        ((run {} (pos + 1) (tokens.drop (pos + 1))).close tokens.length) :=
      (run_mirrors (mirrors_semicolon Eq hclosed) hdepth fun _ => rfl).close rfl
    obtain ⟨own, hfinished, hown⟩ := hmirrors.finished
    obtain rfl := eq_of_sameStatement hown
    rw [statements, hrun]
    exact List.mem_reverse.mpr (hfinished ▸ List.mem_append_left _ (List.mem_reverse.mp hmem))

/-- No two statements start at one place. -/
theorem Tiles.eq_of_start {found : List BodyStatement} {pos : Nat} (h : Tiles tokens start found pos)
    {first second : BodyStatement} (hfirst : first ∈ found) (hsecond : second ∈ found)
    (hstart : first.start = second.start) : first = second := by
  induction h with
  | nil => cases hfirst
  | pass _ _ ih => exact ih hfirst hsecond
  | statement htiles _ _ _ ih =>
    have hbefore {other : BodyStatement} (hother : other ∈ _) : other.start < _ :=
      (htiles.within.2 other hother).2.1.trans_le (htiles.within.2 other hother).2.2
    rcases List.mem_cons.mp hfirst with rfl | hfirst <;> rcases List.mem_cons.mp hsecond with rfl | hsecond
    · rfl
    · exact absurd hstart.symm (Nat.ne_of_lt (hbefore hsecond))
    · exact absurd hstart (Nat.ne_of_lt (hbefore hfirst))
    · exact ih hfirst hsecond

end Fresh

/-! ## Statements that go on -/

/-- The statement is open, or it was finished at a place or behind it. -/
def Outlasts (place : Nat) (kind : StatementKind) (first : Nat) (s : State) : Prop :=
  (∃ opened, s.current = some opened ∧ opened.kind = kind ∧ opened.start = first) ∨
    ∃ stop, place ≤ stop ∧ ⟨kind, first, stop⟩ ∈ s.finished

section Outlasts

variable {tokens rest : List Token} {start place first pos : Nat} {kind : StatementKind} {s t : State}

theorem Outlasts.moves (h : Outlasts place kind first s) (hkind : kind ≠ .cte) (hpos : place ≤ pos)
    (hmoves : Moves pos s t) : Outlasts place kind first t := by
  rcases h with ⟨opened, hcurrent, rfl, rfl⟩ | ⟨stop, hstop, hmem⟩
  · cases hmoves with
    | keeps hsame hopened => exact .inl ⟨opened, hopened.trans hcurrent, rfl, rfl⟩
    | opens hnone => rw [hcurrent] at hnone; cases hnone
    | changes hopened hopened' hsame hstart hkeep =>
      obtain rfl := Option.some.inj (hcurrent.symm.trans hopened)
      exact .inl ⟨_, hopened', hkeep hkind, hstart⟩
    | finishes hopened hcons =>
      obtain rfl := Option.some.inj (hcurrent.symm.trans hopened)
      exact .inr ⟨pos, hpos, hcons ▸ List.mem_cons_self⟩
  · exact .inr ⟨stop, hstop, hmoves.suffix.subset hmem⟩

theorem Outlasts.run (h : Outlasts place kind first s) (hkind : kind ≠ .cte) (hpos : place ≤ pos)
    (rest : List Token) : Outlasts place kind first (Body.run s pos rest) := by
  induction rest generalizing s pos with
  | nil => exact h
  | cons token rest ih =>
    exact ih (h.moves hkind hpos (moves_step s pos token rest)) (Nat.le_succ_of_le hpos)

/-- A statement that is open at a place stops there or behind it. -/
theorem exists_stop_ge (hrun : run {} start (tokens.drop start) = run s place rest)
    (hplace : place ≤ tokens.length) {opened : OpenStatement} (hopened : s.current = some opened)
    (hkind : opened.kind ≠ .cte) :
    ∃ stop, place ≤ stop ∧ ⟨opened.kind, opened.start, stop⟩ ∈ statements tokens start := by
  have hopen : Outlasts place opened.kind opened.start s := .inl ⟨opened, hopened, rfl, rfl⟩
  rcases hopen.run hkind (Nat.le_refl place) rest with ⟨last, hlast, hsame, hstart⟩ | ⟨stop, hle, hmem⟩
  · refine ⟨tokens.length, hplace, ?_⟩
    rw [statements, hrun, State.close, hlast, ← hsame, ← hstart]
    exact List.mem_reverse.mpr List.mem_cons_self
  · refine ⟨stop, hle, ?_⟩
    rw [statements, hrun]
    exact List.mem_reverse.mpr ((moves_close _ _).suffix.subset hmem)

end Outlasts

/-! ## Clause words -/

section Shapes

variable (tokens : List Token) (start : Nat)

/-- The last token before a place that is no blank. -/
def tokenBefore? (pos : Nat) : Option Token :=
  (between tokens start pos).reverse.find? fun token => !token.isBlank

/-- The words that start a statement on permissions. -/
def permissionStarters : List String := ["GRANT", "DENY", "REVOKE"]

/-- A word of a clause, in a statement of a kind, that is met as a starting word. -/
inductive ClauseWord : StatementKind → Nat → Prop where
  /-- `FETCH` behind the `ROW` or `ROWS` of an `OFFSET`. -/
  | fetch {pos : Nat} {before : Token} {word : String} :
      outerWord? tokens start pos = some "FETCH" → tokenBefore? tokens start pos = some before →
      before.bareWord? = some word → word ∈ ["ROW", "ROWS"] → ClauseWord .select pos
  /-- The first permission, and those behind a comma. -/
  | permission {pos : Nat} {before : Token} {word : String} :
      outerWord? tokens start pos = some word →
      word ∈ ["SELECT", "INSERT", "UPDATE", "DELETE", "EXECUTE", "EXEC"] →
      tokenBefore? tokens start pos = some before →
      (before = .mark .comma ∨ ∃ opener ∈ permissionStarters, before.bareWord? = some opener) →
      ClauseWord .other pos
  /-- The `GRANT` of `REVOKE GRANT OPTION FOR` and of `WITH GRANT OPTION`. -/
  | grantOption {pos : Nat} {before : Token} {word : String} :
      outerWord? tokens start pos = some "GRANT" → tokenBefore? tokens start pos = some before →
      before.bareWord? = some word → word ∈ ["REVOKE", "WITH"] → ClauseWord .other pos

/-- What starts at a place: a select, with a list of common table expressions before it or without
one, or a statement on permissions. -/
inductive Begins (head : Nat) : StatementKind → Nat → Prop where
  | select {first : Nat} : outerWord? tokens start head = some "SELECT" →
      ¬ InsertWaits tokens start head → SelectStart tokens start head first → Begins head .select first
  | permissions {word : String} : outerWord? tokens start head = some word →
      word ∈ permissionStarters → Begins head .other head

/-- A select statement or a statement on permissions whose first word, behind any list of common table
expressions, is `head`. What is open before does not take it. -/
structure Opening (head first : Nat) (kind : StatementKind) : Prop where
  le_head : start ≤ head
  begins : Begins tokens start head kind first
  notJoined : isJoined tokens start head = false
  notInMerge : ¬ InMerge tokens start head
  noSemicolon : ∀ pos < head, start ≤ pos → ¬ IsSeparator tokens start pos
  /-- No `VALUES` stands between a list of common table expressions and its statement. -/
  noValues : ∀ pos < head, outerWord? tokens start pos = some "VALUES" →
    listWaits tokens start pos = false

/-- The statement goes on to `last`: no semicolon stands behind its first word, and whatever is met as
a starting word is one of its clause words. -/
structure GoesOn (head last : Nat) (kind : StatementKind) : Prop where
  le_last : head ≤ last
  within : last < tokens.length
  noSemicolon : ∀ pos, head < pos → pos ≤ last → ¬ IsSeparator tokens start pos
  clauseWords : ∀ pos, head < pos → pos ≤ last → (starter? tokens start pos).isSome = true →
    ClauseWord tokens start kind pos

end Shapes

section Words

variable {tokens : List Token} {start pos : Nat} {kind : StatementKind} {word : String}
  {opened : OpenStatement}

theorem lastWord_eq_find? (tokens : List Token) : lastWord none tokens =
    (tokens.reverse.find? fun token => !token.isBlank).bind Token.bareWord? := by
  induction tokens using List.reverseRecOn with
  | nil => rfl
  | append_singleton tokens token ih =>
    rw [lastWord_append, ih, List.reverse_append, List.reverse_singleton, List.singleton_append,
      List.find?_cons]
    cases hblank : token.isBlank with
    | true => simp [lastWord, nextWord, hblank]
    | false => simp [lastWord, nextWord, hblank]

theorem isJoined_eq (h : tokenBefore? tokens start pos = some before) :
    isJoined tokens start pos = before.bareWord?.any isJoiner := by
  rw [isJoined, lastWord_eq_find?, ← tokenBefore?, h, Option.bind_some]

theorem starter?_of_word {before : Token} (hword : outerWord? tokens start pos = some word)
    (hkind : starterKind? word = some kind) (hbefore : tokenBefore? tokens start pos = some before)
    (hjoiner : before.bareWord?.any isJoiner = false) : starter? tokens start pos = some kind := by
  rw [starter?, isJoined_eq hbefore, hjoiner, hword]
  exact starterOf?_of_starterKind? hkind

/-- A clause word is met as the start of a statement, and a `SELECT` as that of a select. -/
theorem ClauseWord.exists_starter (h : ClauseWord tokens start kind pos) :
    ∃ kind', starter? tokens start pos = some kind' ∧ kind' ≠ .cte ∧
      (outerWord? tokens start pos = some "SELECT" → kind' = .select) := by
  -- None of the words that these clauses are met behind joins the next one to its statement.
  have hjoiner {before : Token} {word : String} (hbefore : before.bareWord? = some word)
      (hmem : word ∈ ["ROW", "ROWS", "REVOKE", "WITH", "GRANT", "DENY"]) :
      before.bareWord?.any isJoiner = false := by
    have hnone : ∀ word ∈ ["ROW", "ROWS", "REVOKE", "WITH", "GRANT", "DENY"],
        isJoiner word = false := by decide
    rw [hbefore, Option.any_some, hnone word hmem]
  cases h with
  | fetch hword hbefore hrow hmem =>
    have hmem := List.mem_append_left ["REVOKE", "WITH", "GRANT", "DENY"] hmem
    refine ⟨.other, starter?_of_word hword rfl hbefore (hjoiner hrow hmem), nofun, ?_⟩
    rw [hword]
    exact nofun
  | grantOption hword hbefore hrow hmem =>
    have hmem := List.mem_append_right ["ROW", "ROWS"] (List.mem_append_left ["GRANT", "DENY"] hmem)
    refine ⟨.other, starter?_of_word hword rfl hbefore (hjoiner hrow hmem), nofun, ?_⟩
    rw [hword]
    exact nofun
  | @permission _ before word hword hmem hbefore hopener =>
    have hfree : before.bareWord?.any isJoiner = false := by
      rcases hopener with rfl | ⟨opener, hopener, hgrant⟩
      · rfl
      · have hsubset : permissionStarters ⊆ ["ROW", "ROWS", "REVOKE", "WITH", "GRANT", "DENY"] := by
          decide
        exact hjoiner hgrant (hsubset hopener)
    -- Of the six permissions only `SELECT` starts a select; all others start a statement of their
    -- own kind.
    obtain ⟨kind', hkind, hne, hselect⟩ : ∃ kind', starterKind? word = some kind' ∧ kind' ≠ .cte ∧
        (word = "SELECT" → kind' = .select) := by
      simp only [List.mem_cons, List.not_mem_nil, or_false] at hmem
      rcases hmem with rfl | rfl | rfl | rfl | rfl | rfl
      · exact ⟨_, rfl, nofun, fun _ => rfl⟩
      all_goals exact ⟨_, rfl, nofun, nofun⟩
    refine ⟨kind', starter?_of_word hword hkind hbefore hfree, hne, fun h => hselect ?_⟩
    rw [hword] at h
    exact Option.some.inj h

theorem absorb?_permissions (hkind : opened.kind ≠ .merge) (hword : word ∈ permissionStarters) :
    opened.absorb? word none = none := by
  obtain ⟨kind, first, hasSource, hasSet⟩ := opened
  simp only [permissionStarters, List.mem_cons, List.not_mem_nil, or_false] at hword
  cases kind with
  | merge => exact absurd rfl hkind
  | _ => rcases hword with rfl | rfl | rfl <;> rfl

end Words

/-! ## From the first word on -/

section Openings

variable {tokens : List Token} {start head first last pos : Nat} {kind : StatementKind} {s : State}
  {token : Token}

theorem Awaits.ne_merge {current : Option OpenStatement} {opened : OpenStatement}
    (h : Awaits tokens start pos current) (hmerge : ¬ InMerge tokens start pos)
    (hopened : current = some opened) : opened.kind ≠ .merge := by
  cases h with
  | semicolon hopen => exact absurd hopen hmerge
  | statement => cases hopened; exact nofun
  | rows _ _ hinsert => cases hopened; rw [hinsert]; exact nofun
  | nothing _ _ _ hsupplied =>
    intro hkind
    have h := hsupplied opened hopened
    rw [IsSupplied, hkind] at h
    exact h

/-- The first word opens the statement. -/
theorem Opening.current_step (h : Opening tokens start head first kind)
    (hs : Reached tokens start head s) (htoken : tokens[head]? = some token) :
    (step s head token (tokens.drop (head + 1))).current = some { kind, start := first } := by
  have hopens {word : String} {kind' : StatementKind} (hword : outerWord? tokens start head = some word)
      (hkind : starterKind? word = some kind') : (step s head token (tokens.drop (head + 1))).current =
        some ((s.current.bind (·.absorb? word none)).getD { kind := kind', start := head }) := by
    obtain ⟨hdepth, hblock, hbare⟩ := (hs.located.outerWord?_eq_some htoken).mp hword
    exact current_step_starter hdepth hblock hbare (starterOf?_of_starterKind? hkind)
      (hs.located.isJoined hdepth ▸ h.notJoined)
  -- A `SELECT` may belong to the list of common table expressions before it, a permission stands
  -- alone.
  cases h.begins with
  | select hword hwaits hselect =>
    rw [hopens hword rfl, hselect.getD_absorb? h.notInMerge hwaits hs.awaits]
  | @permissions word hword hmem =>
    have hkind : starterKind? word = some .other := by
      simp only [permissionStarters, List.mem_cons, List.not_mem_nil, or_false] at hmem
      rcases hmem with rfl | rfl | rfl <;> rfl
    -- Only a `MERGE` would take the word, and none is open.
    have habsorb : s.current.bind (·.absorb? word none) = none := by
      cases hopened : s.current with
      | none => rfl
      | some opened => exact absorb?_permissions (hs.awaits.ne_merge h.notInMerge hopened) hmem
    rw [hopens hword hkind, habsorb]
    rfl

theorem Opening.first_le (h : Opening tokens start head first kind) : first ≤ head := by
  cases h.begins with
  | permissions => exact Nat.le_refl head
  | select _ _ hselect =>
    cases hselect with
    | itself => exact Nat.le_refl head
    | list hlast => exact Nat.le_of_lt (of_lastStarter? hlast).2.1

theorem Opening.kind_ne (h : Opening tokens start head first kind) : kind = .select ∨ kind = .other := by
  cases h.begins with
  | select => exact .inl rfl
  | permissions => exact .inr rfl

/-! ## Behind the first word -/

/-- Neither a semicolon nor a starting word stands between two places. -/
def IsClear (tokens : List Token) (start head pos : Nat) : Prop :=
  ∀ p, head < p → p < pos → ¬ IsSeparator tokens start p ∧ starter? tokens start p = none

/-- A statement that is open stays open over what starts nothing. -/
theorem current_step_kept (hs : Located tokens start pos s) (htoken : tokens[pos]? = some token)
    (hsemicolon : ¬ IsSeparator tokens start pos) (hnone : starter? tokens start pos = none)
    {opened : OpenStatement} (hopened : s.current = some opened) :
    ∃ next, (step s pos token (tokens.drop (pos + 1))).current = some next ∧
      next.kind = opened.kind ∧ next.start = opened.start := by
  -- `VALUES` gives rows to the open statement; whatever else starts nothing leaves it alone.
  by_cases hvalues : outerWord? tokens start pos = some "VALUES"
  · obtain ⟨hdepth, hblock, hword⟩ := (hs.outerWord?_eq_some htoken).mp hvalues
    rw [current_step_values hdepth hblock hword, hopened]
    exact ⟨_, rfl, rfl, rfl⟩
  · have hsame : (step s pos token (tokens.drop (pos + 1))).current = s.current ∨ s.current = none ∧
        (step s pos token (tokens.drop (pos + 1))).current = some { kind := .other, start := pos } := by
      refine current_step_other ?_ ?_ ?_
      · rintro rfl hdepth
        exact hsemicolon ⟨htoken, hs.depth ▸ hdepth⟩
      · intro hdepth hblock hword
        exact hvalues ((hs.outerWord?_eq_some htoken).mpr ⟨hdepth, hblock, hword⟩)
      · intro word kind hdepth hblock hword hkind
        obtain ⟨joiner, hprevious, hjoiner⟩ := (Option.any_eq_true _ _).mp
          (hs.any_isJoiner htoken hnone hdepth hblock hword hkind)
        exact ⟨opened, joiner, hopened, hprevious, hjoiner⟩
    rcases hsame with hsame | ⟨hno, -⟩
    · exact ⟨opened, hsame.trans hopened, rfl, rfl⟩
    · rw [hopened] at hno
      cases hno

/-- On the way through a body: what is awaited agrees with the tokens up to the first word of the
statement, and behind it the statement is open. -/
structure Carries (tokens : List Token) (start head first : Nat) (kind : StatementKind) (pos : Nat)
    (s : State) : Prop where
  located : Located tokens start pos s
  reached : pos ≤ head → Reached tokens start pos s
  carried : head < pos → ∃ opened, s.current = some opened ∧ opened.kind = kind ∧ opened.start = first

/-- Up to the next starting word or semicolon every token belongs to the statement. -/
theorem Carries.step (h : Carries tokens start head first kind pos s)
    (hopening : Opening tokens start head first kind) (hstart : start ≤ pos)
    (htoken : tokens[pos]? = some token)
    (hclear : head < pos → ¬ IsSeparator tokens start pos ∧ starter? tokens start pos = none) :
    Carries tokens start head first kind (pos + 1) (step s pos token (tokens.drop (pos + 1))) where
  located := h.located.step hstart htoken _
  reached hpos := (h.reached (Nat.le_of_succ_le hpos)).step hstart htoken
    (hopening.noSemicolon pos hpos hstart) (hopening.noValues pos hpos)
  carried hpos := by
    rcases Nat.lt_or_eq_of_le (Nat.lt_succ_iff.mp hpos) with hlt | rfl
    · obtain ⟨opened, hopened, rfl, rfl⟩ := h.carried hlt
      obtain ⟨hsemicolon, hnone⟩ := hclear hlt
      exact current_step_kept h.located htoken hsemicolon hnone hopened
    · exact ⟨_, hopening.current_step (h.reached (Nat.le_refl head)) htoken, rfl, rfl⟩

namespace Opening

/-- The statement is open at the next starting word or semicolon. -/
theorem exists_open (h : Opening tokens start head first kind) (hpos : head < pos)
    (hlength : pos ≤ tokens.length) (hclear : IsClear tokens start head pos) :
    ∃ s opened, Located tokens start pos s ∧ s.current = some opened ∧ opened.kind = kind ∧
      opened.start = first ∧ run {} start (tokens.drop start) = run s pos (tokens.drop pos) := by
  have hinitial : Carries tokens start head first kind start {} :=
    ⟨located_start tokens start, fun _ => reached_start tokens start,
      fun hlt => absurd h.le_head (Nat.not_le.mpr hlt)⟩
  obtain ⟨s, hs, hrun⟩ := exists_state_at (Carries tokens start head first kind)
    (h.le_head.trans (Nat.le_of_lt hpos)) hlength hinitial
    fun p _ _ hstart hlt htoken hs => hs.step h hstart htoken fun hhead => hclear p hhead hlt
  obtain ⟨opened, hopened, hkind, hfirst⟩ := hs.carried hpos
  exact ⟨s, opened, hs.located, hopened, hkind, hfirst, hrun⟩

/-- The statement covers what it is open over. -/
theorem exists_stop_gt (h : Opening tokens start head first kind) (hle : head ≤ last)
    (hlast : last < tokens.length) (hclear : IsClear tokens start head (last + 1)) :
    ∃ stop, last < stop ∧ ⟨kind, first, stop⟩ ∈ statements tokens start := by
  obtain ⟨s, opened, -, hopened, rfl, rfl, hrun⟩ :=
    h.exists_open (Nat.lt_succ_of_le hle) hlast hclear
  have hkind : opened.kind ≠ .cte := by
    rcases h.kind_ne with hkind | hkind <;> rw [hkind] <;> exact nofun
  exact exists_stop_ge hrun hlast hopened hkind

/-- The next starting word ends the statement and starts another one. -/
theorem cut_at (h : Opening tokens start head first kind) (hpos : head < pos)
    (hclear : IsClear tokens start head pos) {kind' : StatementKind}
    (hstarter : starter? tokens start pos = some kind') (hkind' : kind' ≠ .cte) :
    ⟨kind, first, pos⟩ ∈ statements tokens start ∧
      ∃ stop, ⟨kind', pos, stop⟩ ∈ statements tokens start := by
  obtain ⟨_, houter, -⟩ := exists_outerWord?_of_starter? hstarter
  obtain ⟨token, htoken⟩ := exists_token_of_outerWord? houter
  obtain ⟨hlt, hget⟩ := List.getElem?_eq_some_iff.mp htoken
  obtain ⟨s, opened, hs, hopened, hkind, hfirst, hrun⟩ :=
    h.exists_open hpos (Nat.le_of_lt hlt) hclear
  obtain ⟨word, hdepth, hblock, hword, hstarts, hprevious⟩ := hs.of_starter? htoken hstarter
  -- The statement takes no starting word, so the word starts one of its own.
  have hcomplete : IsComplete opened := by
    rw [IsComplete, hkind]
    rcases h.kind_ne with rfl | rfl <;> trivial
  have hnext : (step s pos token (tokens.drop (pos + 1))).current =
      some { kind := kind', start := pos } := by
    rw [current_step_starter hdepth hblock hword hstarts hprevious, hopened, Option.bind_some,
      absorb?_eq_none word hcomplete rfl]
    rfl
  have hfinished : ⟨kind, first, pos⟩ ∈ (step s pos token (tokens.drop (pos + 1))).finished := by
    have heffect : Effect s pos token (step s pos token (tokens.drop (pos + 1))) :=
      effect_step hs.opened
    cases heffect with
    | passes hnone => rw [hopened] at hnone; cases hnone
    | opens hnone => rw [hopened] at hnone; cases hnone
    | ends _ hnone => rw [hnext] at hnone; cases hnone
    | keeps hopened' hnext' hstart =>
      obtain rfl := Option.some.inj (hopened.symm.trans hopened')
      obtain rfl := Option.some.inj (hnext.symm.trans hnext')
      have hle := h.first_le
      rw [← hfirst, ← hstart] at hle
      exact absurd hpos (Nat.not_lt.mpr hle)
    | follows hopened' _ _ hcons =>
      obtain rfl := Option.some.inj (hopened.symm.trans hopened')
      rw [hcons, hkind, hfirst]
      exact List.mem_cons_self
  rw [List.drop_eq_getElem_cons hlt, hget] at hrun
  have hrun' : run {} start (tokens.drop start) =
      run (step s pos token (tokens.drop (pos + 1))) (pos + 1) (tokens.drop (pos + 1)) := hrun
  refine ⟨?_, exists_mem_statements hrun' hnext hkind'⟩
  rw [statements, hrun', List.mem_reverse]
  exact (moves_close _ _).suffix.subset ((finished_suffix_run _ _ _).subset hfinished)

end Opening

/-! ## Statements with clause words -/

section Whole

variable {base : Nat} {kind' : StatementKind}

/-- Up to the first clause word a statement is clear. -/
theorem GoesOn.isClear (h : GoesOn tokens base head last kind) (hpos : pos ≤ last + 1)
    (hnone : ∀ p, head < p → p < pos → ¬ ClauseWord tokens base kind p) :
    IsClear tokens base head pos := by
  intro p hhead hlt
  have hle : p ≤ last := by omega
  refine ⟨h.noSemicolon p hhead hle, ?_⟩
  by_contra hstarter
  exact hnone p hhead hlt (h.clauseWords p hhead hle (Option.isSome_iff_ne_none.mpr hstarter))

/-- At its first clause word a statement ends, and the word starts another one. -/
theorem cut_at_clauseWord (hfresh : FreshAt tokens start base)
    (h : Opening tokens base head first kind) (hgoes : GoesOn tokens base head last kind)
    (hpos : head < pos) (hle : pos ≤ last) (hword : ClauseWord tokens base kind pos)
    (hnone : ∀ p, head < p → p < pos → ¬ ClauseWord tokens base kind p) :
    ⟨kind, first, pos⟩ ∈ statements tokens start ∧ ∃ kind' stop,
      ⟨kind', pos, stop⟩ ∈ statements tokens start ∧
      (outerWord? tokens base pos = some "SELECT" → kind' = .select) := by
  obtain ⟨kind', hstarter, hne, hselect⟩ := hword.exists_starter
  obtain ⟨hcut, stop, hnext⟩ :=
    h.cut_at hpos (hgoes.isClear (Nat.le_succ_of_le hle) hnone) hstarter hne
  exact ⟨mem_statements_of_freshAt hfresh hcut, kind', stop, mem_statements_of_freshAt hfresh hnext,
    hselect⟩

/-- A statement is found as a whole exactly if it has no clause word that is met as a starting word. -/
theorem exists_whole_iff (hfresh : FreshAt tokens start base)
    (h : Opening tokens base head first kind) (hgoes : GoesOn tokens base head last kind) :
    (∃ stop, last < stop ∧ ⟨kind, first, stop⟩ ∈ statements tokens start) ↔
      ∀ pos, head < pos → pos ≤ last → ¬ ClauseWord tokens base kind pos := by
  constructor
  · rintro ⟨stop, hstop, hmem⟩ pos hpos hle hword
    -- At the first clause word another statement with the same start ends.
    obtain ⟨cut, ⟨hcut, hcut', hclause⟩, hleast⟩ := Nat.lt_wfRel.wf.has_min
      {p | head < p ∧ p ≤ last ∧ ClauseWord tokens base kind p} ⟨pos, hpos, hle, hword⟩
    obtain ⟨hmem', -⟩ := cut_at_clauseWord hfresh h hgoes hcut hcut' hclause fun p hp hlt hclause =>
      hleast p ⟨hp, (Nat.le_of_lt hlt).trans hcut', hclause⟩ hlt
    have hlength : start ≤ tokens.length :=
      hfresh.le.trans (h.le_head.trans (hgoes.le_last.trans (Nat.le_of_lt hgoes.within)))
    have hsame := (tiles_statements hlength).eq_of_start (List.mem_reverse.mpr hmem)
      (List.mem_reverse.mpr hmem') rfl
    cases hsame
    exact absurd hstop (Nat.not_lt.mpr hcut')
  · intro hnone
    obtain ⟨stop, hstop, hmem⟩ := h.exists_stop_gt hgoes.le_last hgoes.within
      (hgoes.isClear (Nat.le_refl _) fun p hp hlt => hnone p hp (Nat.lt_succ_iff.mp hlt))
    exact ⟨stop, hstop, mem_statements_of_freshAt hfresh hmem⟩

end Whole

end Openings

end SchemaPlan.Sql.Body
