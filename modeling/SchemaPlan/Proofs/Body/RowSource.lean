import SchemaPlan.Proofs.Body.Awaiting

/-!
# The source of the rows of an `INSERT`

The rows of an `INSERT` come from `VALUES`, from a query or from a procedure. A select behind such a
statement is one of its own, unless a word joins it or a `MERGE` is open, or the `INSERT` still waits
for its rows. It does so behind a query in parentheses, for what stands there is not read: then it
takes the next select as well.

* `exists_mem_statements`: a statement that is open at a place is found.
* `start_ne_of_absorbed`: no statement starts at a word that the open one takes.
* `InsertThenSelect.exists_mem_iff`: when a select behind an `INSERT` is a statement.
-/

namespace SchemaPlan.Sql.Body

/-! ## An `INSERT` and a select behind it -/

/-- The forms in which rows are given to an `INSERT`. -/
inductive RowForm where
  | values
  | defaultValues
  /-- A select, perhaps with further ones joined by set operators. -/
  | select
  | exec
  /-- A query in parentheses. -/
  | query
deriving Repr, DecidableEq, Inhabited

/-- Whether a query follows, behind any number of parentheses. -/
def selectFollows (rest : List Token) : Bool :=
  (rest.find? fun token => !token.isBlank && token != .mark .openParen).any (·.isBareWord "SELECT")

section Shapes

variable (tokens : List Token) (start : Nat)

/-- The source of the rows stands behind the `INSERT` and before `stop`. A list of columns, an
`OUTPUT` clause and anything else can stand before it. -/
inductive RowSource (insert stop : Nat) : RowForm → Prop where
  | values {pos : Nat} : insert < pos → pos < stop →
      outerWord? tokens start pos = some "VALUES" → RowSource insert stop .values
  | defaultValues {default pos : Nat} : insert < default → default < pos → pos < stop →
      outerWord? tokens start default = some "DEFAULT" → IsBlank (between tokens (default + 1) pos) →
      outerWord? tokens start pos = some "VALUES" → RowSource insert stop .defaultValues
  | select {pos : Nat} : insert < pos → pos < stop →
      starter? tokens start pos = some .select → RowSource insert stop .select
  | exec {pos : Nat} : insert < pos → pos < stop →
      starter? tokens start pos = some .exec → RowSource insert stop .exec
  | query {pos : Nat} : insert < pos → pos < stop → nestingAt tokens start pos = {} →
      tokens[pos]? = some (.mark .openParen) → selectFollows (tokens.drop (pos + 1)) = true →
      RowSource insert stop .query

/-- Where a select statement starts: at its `SELECT`, or at the list of common table expressions that
waits for it. -/
inductive SelectStart (select : Nat) : Nat → Prop where
  | itself : listWaits tokens start select = false → SelectStart select select
  | list {first : Nat} : lastStarter? tokens start select = some (first, .cte) →
      isJoined tokens start select = false → SelectStart select first

/-- Without a semicolon before it, a select that starts at `first` follows an `INSERT` whose rows are
given in some form. No other `INSERT` stands between them. -/
structure InsertThenSelect (insert select first : Nat) (form : RowForm) : Prop where
  order : start ≤ insert ∧ insert < select
  isInsert : outerWord? tokens start insert = some "INSERT"
  source : RowSource tokens start insert select form
  isSelect : outerWord? tokens start select = some "SELECT"
  begins : SelectStart tokens start select first
  noSemicolon : ∀ pos < select, start ≤ pos → ¬ IsSeparator tokens start pos
  /-- No `VALUES` stands between a list of common table expressions and its statement. -/
  noValues : ∀ pos < select, outerWord? tokens start pos = some "VALUES" →
    listWaits tokens start pos = false
  noInsert : ∀ pos < select, insert < pos → starter? tokens start pos ≠ some .insert

end Shapes

section Statements

variable {tokens rest : List Token} {start pos place : Nat} {s t : State} {token : Token}
  {word : String} {kind : StatementKind} {opened : OpenStatement}

/-! ## Statements that are found -/

/-- A statement that is open at a place is found, with the kind that it has there. -/
theorem exists_mem_statements (hrun : run {} start (tokens.drop start) = run s pos rest)
    (hopened : s.current = some opened) (hkind : opened.kind ≠ .cte) :
    ∃ stop, ⟨opened.kind, opened.start, stop⟩ ∈ statements tokens start := by
  have hkeeps : Keeps s.finished opened.kind opened.start s := .inl ⟨opened, hopened, rfl, rfl, rfl⟩
  obtain ⟨stop, hsuffix⟩ := (hkeeps.run hkind rest).close tokens.length
  rw [statements, hrun]
  exact ⟨stop, List.mem_reverse.mpr (hsuffix.subset List.mem_cons_self)⟩

/-- No statement that has been seen starts at a place. -/
structure Avoids (place : Nat) (s : State) : Prop where
  finished : ∀ statement ∈ s.finished, statement.start ≠ place
  current : ∀ opened ∈ s.current, opened.start ≠ place

theorem Avoids.close (h : Avoids place s) (pos : Nat) :
    ∀ statement ∈ (s.close pos).finished, statement.start ≠ place := by
  unfold State.close
  split
  · rename_i opened hopened
    exact List.forall_mem_cons.mpr ⟨h.current opened hopened, h.finished⟩
  · exact h.finished

/-- A token starts a statement at no other place than its own. -/
theorem Avoids.effect (h : Avoids place s) (heffect : Effect s pos token t)
    (hnew : pos = place → ∀ opened ∈ t.current, opened.start ≠ place) : Avoids place t := by
  -- A statement that starts at this token avoids the place by assumption if the token stands there,
  -- and by its own place otherwise.
  have hstarts {next : OpenStatement} (hnext : t.current = some next) (hstart : next.start = pos) :
      ∀ opened ∈ t.current, opened.start ≠ place := by
    by_cases hpos : pos = place
    · exact hnew hpos
    · intro opened hopened
      obtain rfl := Option.some.inj (hnext.symm.trans hopened)
      rwa [hstart]
  have hends {opened : OpenStatement} (hopened : s.current = some opened)
      (hcons : t.finished = ⟨opened.kind, opened.start, pos⟩ :: s.finished) :
      ∀ statement ∈ t.finished, statement.start ≠ place := by
    rw [hcons]
    exact List.forall_mem_cons.mpr ⟨h.current opened hopened, h.finished⟩
  cases heffect with
  | passes _ hnone hsame => exact ⟨hsame ▸ h.finished, hnone ▸ nofun⟩
  | opens _ hnext hstart hsame => exact ⟨hsame ▸ h.finished, hstarts hnext hstart⟩
  | keeps hopened hopened' hstart hsame =>
    refine ⟨hsame ▸ h.finished, fun opened hmem => ?_⟩
    obtain rfl := Option.some.inj (hopened'.symm.trans hmem)
    exact hstart ▸ h.current _ hopened
  | follows hopened hnext hstart hcons => exact ⟨hends hopened hcons, hstarts hnext hstart⟩
  | ends hopened hnone hcons => exact ⟨hends hopened hcons, hnone ▸ nofun⟩

/-- On the way through a body no statement has started at a place; up to that place, what is awaited
agrees with the tokens. -/
structure Bypasses (tokens : List Token) (start place pos : Nat) (s : State) : Prop where
  located : Located tokens start pos s
  reached : pos ≤ place → Reached tokens start pos s
  avoids : Avoids place s

section Place

variable (hsemicolon : ∀ pos < place, start ≤ pos → ¬ IsSeparator tokens start pos)
  (hvalues : ∀ pos < place, outerWord? tokens start pos = some "VALUES" →
    listWaits tokens start pos = false)
include hsemicolon hvalues

/-- A place before which no semicolon stands is reached. -/
theorem exists_reached (hplace : start ≤ place) (hlength : place ≤ tokens.length) :
    ∃ s, Reached tokens start place s ∧
      run {} start (tokens.drop start) = run s place (tokens.drop place) :=
  exists_state_at (Reached tokens start) hplace hlength (reached_start tokens start)
    fun pos _ _ hstart hpos htoken h =>
      h.step hstart htoken (hsemicolon pos hpos hstart) (hvalues pos hpos)

section Taken

variable (hword : outerWord? tokens start place = some word)
  (hkind : starterOf? word (tokens.drop (place + 1)) = some kind)
  (habsorb : ∀ s, Reached tokens start place s → ∃ opened opened', s.current = some opened ∧
    opened.absorb? word s.previous = some opened')
include hword hkind habsorb

/-- Every token is passed without a statement that starts at the word that is taken. -/
theorem Bypasses.step (h : Bypasses tokens start place pos s) (hstart : start ≤ pos)
    (htoken : tokens[pos]? = some token) :
    Bypasses tokens start place (pos + 1) (step s pos token (tokens.drop (pos + 1))) where
  located := h.located.step hstart htoken _
  reached hpos := (h.reached (Nat.le_of_succ_le hpos)).step hstart htoken
    (hsemicolon pos hpos hstart) (hvalues pos hpos)
  avoids := by
    refine h.avoids.effect (effect_step h.located.opened) ?_
    -- At the place itself the statement that goes on has started before.
    rintro rfl next hnext
    obtain ⟨opened, opened', hopened, htaken⟩ := habsorb s (h.reached (Nat.le_refl pos))
    obtain ⟨hdepth, hblock, hword⟩ := (h.located.outerWord?_eq_some htoken).mp hword
    rw [current_step_absorb hdepth hblock hword hkind hopened htaken] at hnext
    obtain rfl := Option.some.inj hnext
    rw [start_absorb? htaken]
    exact h.avoids.current opened hopened

/-- No statement starts at a word that the open statement takes. -/
theorem start_ne_of_absorbed (hplace : start ≤ place) :
    ∀ statement ∈ statements tokens start, statement.start ≠ place := by
  have hinitial : Bypasses tokens start place start {} :=
    ⟨located_start tokens start, fun _ => reached_start tokens start, nofun, nofun⟩
  obtain ⟨_, htoken⟩ := exists_token_of_outerWord? hword
  obtain ⟨hlt, -⟩ := List.getElem?_eq_some_iff.mp htoken
  obtain ⟨s, hs, hrun⟩ := exists_state_at (Bypasses tokens start place)
    (hplace.trans (Nat.le_of_lt hlt)) (Nat.le_refl tokens.length) hinitial
    fun _ _ _ hstart _ htoken h =>
      h.step hsemicolon hvalues hword hkind habsorb hstart htoken
  rw [List.drop_length] at hrun
  intro statement hmem
  rw [statements, hrun] at hmem
  exact hs.avoids.close tokens.length statement (List.mem_reverse.mp hmem)

end Taken

end Place

end Statements

/-! ## The select behind an `INSERT` -/

section Selects

variable {tokens : List Token} {start insert select first : Nat} {form : RowForm}

theorem absorb?_rows {opened : OpenStatement} (hkind : opened.kind = .insert)
    (hsource : opened.hasSource = false) (previous : Option String) :
    ∃ opened', opened.absorb? "SELECT" previous = some opened' := by
  unfold OpenStatement.absorb?
  rw [hkind, hsource]
  split
  · exact ⟨opened, rfl⟩
  · exact ⟨_, rfl⟩

/-- What is open before the select does not take it, but a list of common table expressions that
waits for it becomes a select. -/
theorem SelectStart.getD_absorb? (h : SelectStart tokens start select first)
    (hmerge : ¬ InMerge tokens start select) (hwaits : ¬ InsertWaits tokens start select)
    {current : Option OpenStatement} (hawaits : Awaits tokens start select current) :
    (current.bind (·.absorb? "SELECT" none)).getD { kind := .select, start := select } =
      { kind := .select, start := first } := by
  cases hawaits with
  | semicolon hopen => exact absurd hopen hmerge
  | rows _ hopen => exact absurd hopen hwaits
  -- A list of common table expressions waits for its statement, and that is this select.
  | statement _ hlist =>
    cases h with
    | itself hnone => rw [listWaits, hlist] at hnone; cases hnone
    | list hlist' =>
      rw [hlist] at hlist'
      cases hlist'
      rfl
  | nothing _ hnone _ hsupplied =>
    cases h with
    | list hlist => rw [listWaits, hlist] at hnone; cases hnone
    | itself =>
      cases current with
      | none => rfl
      | some opened => rw [Option.bind_some, (hsupplied opened rfl).absorb?_select]; rfl

namespace InsertThenSelect

/-- Only behind a query in parentheses does an `INSERT` still wait for its rows. -/
theorem form_of_insertWaits (h : InsertThenSelect tokens start insert select first form)
    (hwaits : InsertWaits tokens start select) : form = .query := by
  obtain ⟨other, hlast, hvalues⟩ := hwaits
  obtain ⟨-, hlt, hother, hbehind⟩ := of_lastStarter? hlast
  -- No `INSERT` stands behind this one, so the one that waits is this one or stands before it.
  have hle : other ≤ insert := by
    by_contra hafter
    exact h.noInsert other hlt (Nat.not_le.mp hafter) hother
  cases h.source with
  | values hgt hlt hword => exact absurd ⟨_, hlt, hle.trans_lt hgt, hword⟩ hvalues
  | defaultValues hgt hgt' hlt _ _ hword =>
    exact absurd ⟨_, hlt, hle.trans_lt (hgt.trans hgt'), hword⟩ hvalues
  | select hgt hlt hstarter =>
    rw [hbehind _ (hle.trans_lt hgt) hlt] at hstarter
    cases hstarter
  | exec hgt hlt hstarter =>
    rw [hbehind _ (hle.trans_lt hgt) hlt] at hstarter
    cases hstarter
  | query => rfl

theorem le_select (h : InsertThenSelect tokens start insert select first form) : start ≤ select :=
  h.order.1.trans (Nat.le_of_lt h.order.2)

/-- The select is a statement if nothing that is open takes it. -/
theorem exists_statement (h : InsertThenSelect tokens start insert select first form)
    (hjoined : isJoined tokens start select = false) (hmerge : ¬ InMerge tokens start select)
    (hwaits : ¬ InsertWaits tokens start select) :
    ∃ stop, ⟨.select, first, stop⟩ ∈ statements tokens start := by
  obtain ⟨token, htoken⟩ := exists_token_of_outerWord? h.isSelect
  obtain ⟨hlt, hget⟩ := List.getElem?_eq_some_iff.mp htoken
  obtain ⟨s, hs, hrun⟩ := exists_reached h.noSemicolon h.noValues h.le_select (Nat.le_of_lt hlt)
  obtain ⟨hdepth, hblock, hword⟩ := (hs.located.outerWord?_eq_some htoken).mp h.isSelect
  -- What is open behind the select is told from what was awaited before it.
  have hstep : (step s select token (tokens.drop (select + 1))).current =
      some ((s.current.bind (·.absorb? "SELECT" none)).getD { kind := .select, start := select }) :=
    current_step_starter hdepth hblock hword (starterOf?_of_starterKind? rfl)
      (hs.located.isJoined hdepth ▸ hjoined)
  rw [h.begins.getD_absorb? hmerge hwaits hs.awaits] at hstep
  rw [List.drop_eq_getElem_cons hlt, hget] at hrun
  have hnext : run {} start (tokens.drop start) =
      run (step s select token (tokens.drop (select + 1))) (select + 1) (tokens.drop (select + 1)) :=
    hrun
  exact exists_mem_statements hnext hstep nofun

/-- No statement starts with the select if what is open takes it. -/
theorem not_taken (h : InsertThenSelect tokens start insert select first form)
    {statement : BodyStatement} (hmem : statement ∈ statements tokens start)
    (hstart : statement.start = select) :
    isJoined tokens start select = false ∧ ¬ InMerge tokens start select ∧
      ¬ InsertWaits tokens start select := by
  obtain ⟨token, htoken⟩ := exists_token_of_outerWord? h.isSelect
  have hkind : starterOf? "SELECT" (tokens.drop (select + 1)) = some .select :=
    starterOf?_of_starterKind? rfl
  have hfree (habsorb : ∀ s, Reached tokens start select s → ∃ opened opened',
      s.current = some opened ∧ opened.absorb? "SELECT" s.previous = some opened') : False :=
    start_ne_of_absorbed h.noSemicolon h.noValues h.isSelect hkind habsorb h.le_select statement
      hmem hstart
  -- A `MERGE` takes every word, a joining word gives the select to what is open, and an `INSERT` that
  -- waits takes it for its rows.
  have hmerge : ¬ InMerge tokens start select := fun hopen => hfree fun s hs => by
    obtain ⟨opened, hopened, hmerge⟩ := hs.awaits.of_inMerge hopen
    exact ⟨opened, opened, hopened, absorb?_merge hmerge⟩
  refine ⟨?_, hmerge, fun hwaits => hfree fun s hs => ?_⟩
  · by_contra hjoined
    refine hfree fun s hs => ?_
    obtain ⟨hdepth, hblock, hword⟩ := (hs.located.outerWord?_eq_some htoken).mp h.isSelect
    obtain ⟨opened, joiner, hopened, hprevious, hjoiner⟩ :=
      hs.joined htoken (if_pos (Bool.not_eq_false _ ▸ hjoined)) hdepth hblock hword hkind
    rw [hprevious]
    exact ⟨opened, opened, hopened, absorb?_of_isJoiner hjoiner _⟩
  · obtain ⟨opened, hopened, hinsert, hsource⟩ := hs.awaits.of_insertWaits hmerge hwaits
    obtain ⟨opened', habsorb⟩ := absorb?_rows hinsert hsource s.previous
    exact ⟨opened, opened', hopened, habsorb⟩

/-- No list of common table expressions starts a statement while a `MERGE` is open. -/
theorem not_inMerge_of_list (h : InsertThenSelect tokens start insert select first form)
    (hlist : lastStarter? tokens start select = some (first, .cte)) {statement : BodyStatement}
    (hmem : statement ∈ statements tokens start) (hstart : statement.start = first) :
    ¬ InMerge tokens start select := by
  rintro ⟨merge, hlt, hle, hmerge⟩
  obtain ⟨hfirst, hselect, hstarter, hbehind⟩ := of_lastStarter? hlist
  -- The `MERGE` stands before the list, for nothing starts between the list and its select.
  have hbefore : InMerge tokens start first := by
    refine ⟨merge, ?_, hle, hmerge⟩
    rcases Nat.lt_trichotomy merge first with hbefore | rfl | hafter
    · exact hbefore
    · rw [hmerge] at hstarter
      cases hstarter
    · rw [hbehind merge hafter hlt] at hmerge
      cases hmerge
  obtain ⟨word, hword, hkind⟩ := exists_outerWord?_of_starter? hstarter
  refine start_ne_of_absorbed (fun pos hpos => h.noSemicolon pos (hpos.trans hselect))
    (fun pos hpos => h.noValues pos (hpos.trans hselect)) hword hkind (fun s hs => ?_) hfirst
    statement hmem hstart
  obtain ⟨opened, hopened, hmerge⟩ := hs.awaits.of_inMerge hbefore
  exact ⟨opened, opened, hopened, absorb?_merge hmerge⟩

/-- A select behind an `INSERT` is a statement exactly if no word joins it, no `MERGE` is open, and
no `INSERT` still waits for its rows, which one can do only behind a query in parentheses. -/
theorem exists_mem_iff (h : InsertThenSelect tokens start insert select first form) :
    (∃ stop, ⟨.select, first, stop⟩ ∈ statements tokens start) ↔
      isJoined tokens start select = false ∧ ¬ InMerge tokens start select ∧
        (form = .query → ¬ InsertWaits tokens start select) := by
  constructor
  · rintro ⟨stop, hmem⟩
    cases h.begins with
    | itself =>
      obtain ⟨hjoined, hmerge, hwaits⟩ := h.not_taken hmem rfl
      exact ⟨hjoined, hmerge, fun _ => hwaits⟩
    | list hlist hjoined =>
      refine ⟨hjoined, h.not_inMerge_of_list hlist hmem rfl, fun _ ⟨other, hother, _⟩ => ?_⟩
      rw [hother] at hlist
      cases hlist
  · rintro ⟨hjoined, hmerge, hquery⟩
    exact h.exists_statement hjoined hmerge fun hwaits =>
      hquery (h.form_of_insertWaits hwaits) hwaits

end InsertThenSelect

end Selects

end SchemaPlan.Sql.Body
