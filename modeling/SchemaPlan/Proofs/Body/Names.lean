import SchemaPlan.Proofs.Body.Splitting

/-!
# Names that start a statement

The name of a common table expression is read like every other word. Where it can start a statement,
the statement that it belongs to is cut at it, or takes its kind from it, and nothing that follows
mends that: a finished statement stays, and an open one keeps its kind. So a row of statements is
recovered exactly if no such name occurs in it.
-/

namespace SchemaPlan.Sql.Body

/-! ## What stays -/

/-- What a token does to the statements: it leaves them alone, opens one, changes what is known about
the open one without another kind for a known one, or finishes it. -/
inductive Moves (pos : Nat) (s s' : State) : Prop where
  | keeps : s'.finished = s.finished → s'.current = s.current → Moves pos s s'
  | opens : s.current = none → s'.finished = s.finished → Moves pos s s'
  | changes {opened opened' : OpenStatement} :
      s.current = some opened → s'.current = some opened' → s'.finished = s.finished →
      opened'.start = opened.start → (opened.kind ≠ .cte → opened'.kind = opened.kind) →
      Moves pos s s'
  | finishes {opened : OpenStatement} :
      s.current = some opened → s'.finished = ⟨opened.kind, opened.start, pos⟩ :: s.finished →
      Moves pos s s'

section Steps

variable {s t : State} {pos : Nat}

/-- Only the statements count, not the depths and the word before. -/
theorem Moves.congr (h : Moves pos s t) {t' : State} (hfinished : t'.finished = t.finished)
    (hcurrent : t'.current = t.current) : Moves pos s t' := by
  cases h with
  | keeps hsame hopened => exact .keeps (hfinished.trans hsame) (hcurrent.trans hopened)
  | opens hnone hsame => exact .opens hnone (hfinished.trans hsame)
  | changes hopened hopened' hsame hstart hkind =>
    exact .changes hopened (hcurrent.trans hopened') (hfinished.trans hsame) hstart hkind
  | finishes hopened hcons => exact .finishes hopened (hfinished.trans hcons)

theorem moves_ensureOpen (hfinished : t.finished = s.finished) (hcurrent : t.current = s.current) :
    Moves pos s (t.ensureOpen pos) := by
  unfold State.ensureOpen
  split
  · exact .keeps hfinished hcurrent
  · rename_i hnone
    exact .opens (hcurrent.symm.trans hnone) hfinished

theorem moves_close (s : State) (pos : Nat) : Moves pos s (s.close pos) := by
  unfold State.close
  split
  · rename_i hopened
    exact .finishes hopened rfl
  · exact .keeps rfl rfl

/-- A statement of a known kind does not change it for another word. -/
theorem absorb?_keeps {opened opened' : OpenStatement} {word : String} {previous : Option String}
    (h : opened.absorb? word previous = some opened') :
    opened'.start = opened.start ∧ (opened.kind ≠ .cte → opened'.kind = opened.kind) := by
  unfold OpenStatement.absorb? at h
  -- A joined word and any word of a `MERGE` leave the statement as it is. After these come the list
  -- of expressions, which alone takes another kind, the `INSERT`, the `UPDATE` and all others.
  split at h
  · cases h
    exact ⟨rfl, fun _ => rfl⟩
  split at h
  · cases h
    exact ⟨rfl, fun _ => rfl⟩
  · rename_i hcte
    split at h
    · cases h
      exact ⟨rfl, fun hne => absurd hcte hne⟩
    · cases h
  · split at h
    · cases h
      exact ⟨rfl, fun _ => rfl⟩
    · cases h
  · split at h
    · cases h
      exact ⟨rfl, fun _ => rfl⟩
    · cases h
  · cases h

theorem moves_visitWord (s : State) (word : String) (pos : Nat) (rest : List Token) :
    Moves pos s (visitWord s word pos rest) := by
  unfold visitWord
  -- In turn: `CASE`, a word in a block, `VALUES`, a word that starts nothing, a starting word that
  -- the open statement takes or that finishes it.
  split
  · exact moves_ensureOpen rfl rfl
  split
  · split
    · exact .keeps rfl rfl
    · exact .keeps rfl rfl
  split
  · cases hcurrent : s.current with
    | none => exact .keeps rfl hcurrent.symm
    | some opened => exact .changes hcurrent rfl rfl rfl fun _ => rfl
  dsimp only
  split
  · exact moves_ensureOpen rfl rfl
  split
  · rename_i opened' habsorb
    obtain ⟨opened, hcurrent, habsorb⟩ := Option.bind_eq_some_iff.mp habsorb
    obtain ⟨hstart, hkind⟩ := absorb?_keeps habsorb
    exact .changes hcurrent rfl rfl hstart hkind
  · unfold State.close
    split
    · rename_i hcurrent
      exact .finishes hcurrent rfl
    · rename_i hcurrent
      exact .opens hcurrent rfl

theorem moves_step (s : State) (pos : Nat) (token : Token) (rest : List Token) :
    Moves pos s (step s pos token rest) := by
  have hopen : Moves pos s (if s.depth = 0 then s.ensureOpen pos else s) := by
    split
    · exact moves_ensureOpen rfl rfl
    · exact .keeps rfl rfl
  unfold step
  split
  · exact .keeps rfl rfl
  · split
    · exact (moves_visitWord s _ pos rest).congr rfl rfl
    · exact .keeps rfl rfl
  · split
    · exact (moves_close s pos).congr rfl rfl
    · exact .keeps rfl rfl
  · exact hopen.congr rfl rfl
  · exact .keeps rfl rfl
  · exact hopen.congr rfl rfl

/-- A finished statement stays. -/
theorem Moves.suffix (h : Moves pos s t) : s.finished <:+ t.finished := by
  cases h with
  | keeps hsame => exact hsame ▸ List.suffix_rfl
  | opens _ hsame => exact hsame ▸ List.suffix_rfl
  | changes _ _ hsame => exact hsame ▸ List.suffix_rfl
  | finishes _ hcons => exact hcons ▸ List.suffix_cons _ _

end Steps

theorem finished_suffix_run (s : State) (pos : Nat) (tokens : List Token) :
    s.finished <:+ (run s pos tokens).finished := by
  induction tokens generalizing s pos with
  | nil => exact List.suffix_rfl
  | cons token rest ih => exact (moves_step s pos token rest).suffix.trans (ih _ _)

/-- A statement that starts at a position is open with its kind, or finished with it. -/
def Keeps (finished : List BodyStatement) (kind : StatementKind) (start : Nat) (s : State) : Prop :=
  (∃ opened, s.current = some opened ∧ opened.kind = kind ∧ opened.start = start ∧
    s.finished = finished) ∨ ∃ stop, ⟨kind, start, stop⟩ :: finished <:+ s.finished

section Kinds

variable {finished : List BodyStatement} {kind : StatementKind} {start pos : Nat} {s t : State}

theorem Keeps.moves (h : Keeps finished kind start s) (hkind : kind ≠ .cte) (hmoves : Moves pos s t) :
    Keeps finished kind start t := by
  rcases h with ⟨opened, hcurrent, rfl, rfl, rfl⟩ | ⟨stop, hsuffix⟩
  · cases hmoves with
    | keeps hsame hopened => exact Or.inl ⟨opened, hopened.trans hcurrent, rfl, rfl, hsame⟩
    | opens hnone => rw [hcurrent] at hnone; cases hnone
    | changes hopened hopened' hsame hstart hkeep =>
      obtain rfl := Option.some.inj (hcurrent.symm.trans hopened)
      exact Or.inl ⟨_, hopened', hkeep hkind, hstart, hsame⟩
    | finishes hopened hcons =>
      obtain rfl := Option.some.inj (hcurrent.symm.trans hopened)
      exact Or.inr ⟨pos, hcons ▸ List.suffix_rfl⟩
  · exact Or.inr ⟨stop, hsuffix.trans hmoves.suffix⟩

theorem Keeps.run (h : Keeps finished kind start s) (hkind : kind ≠ .cte) (tokens : List Token) :
    Keeps finished kind start (Body.run s pos tokens) := by
  induction tokens generalizing s pos with
  | nil => exact h
  | cons token rest ih => exact ih (h.moves hkind (moves_step s pos token rest))

/-- At the end of the body the statement is finished with its kind. -/
theorem Keeps.close (h : Keeps finished kind start s) (pos : Nat) :
    ∃ stop, ⟨kind, start, stop⟩ :: finished <:+ (s.close pos).finished := by
  rcases h with ⟨opened, hcurrent, rfl, rfl, rfl⟩ | ⟨stop, hsuffix⟩
  · have hclose : (s.close pos).finished = ⟨opened.kind, opened.start, pos⟩ :: s.finished := by
      simp only [State.close, hcurrent]
    exact ⟨pos, hclose ▸ List.suffix_rfl⟩
  · exact ⟨stop, hsuffix.trans (moves_close s pos).suffix⟩

end Kinds

/-! ## Statements with such a name -/

section Strays

variable {finished : List BodyStatement} {opened : OpenStatement} {pos start : Nat}
  {previous : Option String} {token : Token} {word : String} {kind kind' : StatementKind}
  {rest after : List Token}

theorem exists_starter_of_not_isMere (h : isUnmarked token = true) (hmere : isMere token = false) :
    ∃ word kind, token.bareWord? = some word ∧ starterKind? word = some kind := by
  obtain ⟨hword, hmarker⟩ := Bool.and_eq_true_iff.mp h
  unfold isMere at hmere
  split at hmere
  · rename_i word hbare
    rw [hbare] at hmarker
    have hmarker : (!markers.contains word) = true := hmarker
    rw [hmarker, Bool.and_true, Option.isNone_eq_false_iff] at hmere
    obtain ⟨kind, hkind⟩ := Option.isSome_iff_exists.mp hmere
    exact ⟨word, kind, hbare, hkind⟩
  · cases token with
    | word text quote => cases hmere
    | _ => cases hword

theorem ne_cte_of_starterKind? (h : starterKind? word = some kind) : kind ≠ .cte := by
  rintro rfl
  unfold starterKind? at h
  split at h
  case h_10 =>
    split at h
    · cases h
    · split at h <;> cases h
  all_goals cases h

/-- A starting word that the open statement does not absorb finishes it. -/
theorem step_finishes (hword : token.bareWord? = some word) (hkind : starterKind? word = some kind)
    (h : opened.absorb? word previous = none) :
    step (within finished opened 0 previous) pos token rest =
      within (⟨opened.kind, opened.start, pos⟩ :: finished) { kind, start := pos } 0 (some word) := by
  obtain ⟨hcase, hvalues, -⟩ := ne_of_starterKind? hkind
  have habsorb : (within finished opened 0 previous).current.bind
      (·.absorb? word (within finished opened 0 previous).previous) = none := h
  rw [step_word rfl hword, visitWord_outside rfl hcase hvalues, starterOf?_of_starterKind? hkind,
    habsorb]
  rfl

/-- A list of common table expressions that absorbs a word becomes a statement of its kind. -/
theorem eq_of_absorb?_cte {opened' : OpenStatement} (hkind : starterKind? word = some kind)
    (h : OpenStatement.absorb? { kind := .cte, start } word previous = some opened')
    (hprevious : previous.any isJoiner = false) : opened' = { kind, start } := by
  rw [absorb?_of_not_joined hprevious, OpenStatement.absorb?, if_neg (by exact Bool.false_ne_true)]
    at h
  dsimp only at h
  split at h
  · cases h
    rw [hkind]
    rfl
  · cases h

/-- A query or a change does not absorb the word that starts another one of its kind. -/
theorem absorb?_own (hword : starterKind? word = some kind)
    (hkind : kind ∈ [.select, .insert, .update, .delete]) (hprevious : previous.any isJoiner = false) :
    OpenStatement.absorb? { kind, start } word previous = none := by
  rw [absorb?_of_not_joined hprevious]
  rcases word_of_starterKind? hword hkind with
    ⟨rfl, rfl⟩ | ⟨rfl, rfl⟩ | ⟨rfl, rfl⟩ | ⟨rfl, rfl⟩ <;> rfl

/-- What comes out for a statement of a kind that starts at a position is of another kind, or it
stops within the tokens. -/
def Strays (s : State) (pos : Nat) (tokens after : List Token) (kind : StatementKind) : Prop :=
  ∀ stop, ∃ found : BodyStatement, (found.kind = kind → found.stop < pos + tokens.length) ∧
    found :: (s.close pos).finished <:+ ((run s pos (tokens ++ after)).close stop).finished

/-- A list of common table expressions that has become a statement by its name stays one of that
kind, or it is finished by the word that should have made it a statement. -/
theorem exists_found_of_absorbed {filler tail : List Token} {next : Nat} (hrest : CteRest rest)
    (hfiller : Filler (token :: (tail ++ after)) filler) (hword : token.bareWord? = some word)
    (hkind : starterKind? word = some kind) (hmem : kind ∈ [.select, .insert, .update, .delete])
    (hknown : kind' ≠ .cte) (stop : Nat) :
    ∃ found : BodyStatement,
      (found.kind = kind → found.stop < next + (rest ++ (filler ++ token :: tail)).length) ∧
      found :: finished <:+ ((run (within finished { kind := kind', start := pos } 0 previous) next
        (rest ++ (filler ++ (token :: tail ++ after)))).close stop).finished := by
  have hcalm : Leads (within finished { kind := kind', start := pos } 0 previous) next
      (rest ++ filler) (token :: tail ++ after) (Calm finished { kind := kind', start := pos }) :=
    (leads_cteRest hrest).append fun _ h => leads_filler hfiller h
  obtain ⟨_, ⟨last, hlast, rfl⟩, hreads⟩ := hcalm
  unfold Reads at hreads
  rw [← List.append_assoc rest filler (token :: tail ++ after), hreads]
  -- If the name gave the statement the right kind, the word behind the expressions starts another
  -- one of that kind and so ends this one too early. If not, no word changes its kind any more.
  by_cases hsame : kind' = kind
  · subst hsame
    have hown : OpenStatement.absorb? { kind := kind', start := pos } word last = none :=
      absorb?_own hkind hmem hlast
    refine ⟨⟨kind', pos, next + (rest ++ filler).length⟩, ?_, ?_⟩
    · intro _
      simp only [List.length_cons, List.length_append]
      omega
    · rw [List.cons_append, run, step_finishes hword hkind hown]
      exact (finished_suffix_run (within _ _ 0 _) _ _).trans (moves_close _ _).suffix
  · have hkeeps : Keeps finished kind' pos (within finished { kind := kind', start := pos } 0 last) :=
      Or.inl ⟨_, rfl, rfl, rfl, rfl⟩
    obtain ⟨found, hfound⟩ := (hkeeps.run hknown (token :: tail ++ after)).close stop
    exact ⟨_, fun h => absurd h hsame, hfound⟩

/-- A statement is not recovered if the name of its first common table expression starts one. -/
theorem strays_of_starter {s : State} {with' name : Token} {nameWord : String}
    {blanks filler tail : List Token} (hs : Ready s) (hwith : with'.bareWord? = some "WITH")
    (hblanks : IsBlank blanks) (hname : name.bareWord? = some nameWord)
    (hstarts : starterKind? nameWord = some kind') (hrest : CteRest rest)
    (hfiller : Filler (token :: (tail ++ after)) filler) (hword : token.bareWord? = some word)
    (hkind : starterKind? word = some kind) (hmem : kind ∈ [.select, .insert, .update, .delete]) :
    Strays s pos (with' :: (blanks ++ name :: rest) ++ (filler ++ token :: tail)) after kind := by
  intro stop
  have hisWord : name.isWord = true := by
    obtain ⟨text, rfl, -⟩ := exists_word_of_bareWord? hname
    rfl
  have hopen : Leads s pos (with' :: blanks) (name :: rest ++ (filler ++ (token :: tail ++ after)))
      fun s' => s' = within (s.close pos).finished { kind := .cte, start := pos } 0 (some "WITH") :=
    leads_with hs hwith hblanks hisWord hrest
  obtain ⟨_, rfl, hreads⟩ := hopen
  have htokens : with' :: (blanks ++ name :: rest) ++ (filler ++ token :: tail) ++ after =
      with' :: blanks ++ (name :: rest ++ (filler ++ (token :: tail ++ after))) := by simp
  have hrun {next : State} (hstep : step (within (s.close pos).finished
      { kind := .cte, start := pos } 0 (some "WITH")) (pos + (with' :: blanks).length) name
        (rest ++ (filler ++ (token :: tail ++ after))) = next) :
      run s pos (with' :: (blanks ++ name :: rest) ++ (filler ++ token :: tail) ++ after) =
        run next (pos + (with' :: blanks).length + 1)
          (rest ++ (filler ++ (token :: tail ++ after))) := by
    rw [htokens, hreads, ← hstep]
    rfl
  cases habsorb : OpenStatement.absorb? { kind := .cte, start := pos } nameWord (some "WITH") with
  | none =>
    -- The name finishes the list of expressions, which has no kind of its own.
    have hcte : StatementKind.cte ≠ kind := by
      rintro rfl
      exact absurd hmem (by decide)
    rw [hrun (step_finishes hname hstarts habsorb)]
    exact ⟨⟨.cte, pos, _⟩, fun h => absurd h hcte,
      (finished_suffix_run (within _ _ 0 _) _ _).trans (moves_close _ _).suffix⟩
  | some opened =>
    -- The name takes the place of the word that starts the query or change.
    obtain rfl := eq_of_absorb?_cte hstarts habsorb rfl
    rw [hrun (step_absorb hname hstarts habsorb)]
    obtain ⟨found, hfound, hsuffix⟩ := exists_found_of_absorbed hrest hfiller hword hkind hmem
      (ne_cte_of_starterKind? hstarts) stop
    refine ⟨found, fun h => Nat.lt_of_lt_of_le (hfound h) ?_, hsuffix⟩
    simp only [List.length_cons, List.length_append]
    omega

end Strays

/-- A statement has a plain name, or it is not recovered. -/
theorem form_isPlainName_or_strays {after tokens : List Token} {kind : StatementKind}
    (h : Form isUnmarked after kind tokens) :
    Form isPlainName after kind tokens ∨
      ∀ {s : State} {pos : Nat}, Ready s → Strays s pos tokens after kind := by
  cases h with
  | starter hword hkind htail => exact Or.inl (.starter hword hkind htail)
  | merge hword hstretch => exact Or.inl (.merge hword hstretch)
  | cte hhead hfiller hword hkind hmem htail =>
    cases hhead with
    | @intro with' name blanks rest hwith hblanks hname hrest =>
      cases hmere : isMere name with
      | true =>
        have hplain : isPlainName name = true :=
          Bool.and_eq_true_iff.mpr ⟨(Bool.and_eq_true_iff.mp hname).1, hmere⟩
        exact Or.inl (.cte (.intro hwith hblanks hplain hrest) hfiller hword hkind hmem htail)
      | false =>
        obtain ⟨nameWord, kind', hnameWord, hstarts⟩ := exists_starter_of_not_isMere hname hmere
        exact Or.inr fun hs => strays_of_starter hs hwith hblanks hnameWord hstarts hrest hfiller
          hword hkind hmem

/-- A row of statements that is recovered has plain names only. -/
theorem layout_isPlainName {parts : List Part} {s : State} {pos : Nat} (hs : Ready s)
    (h : Layout isUnmarked parts)
    (hrun : ((run s pos (tokensOf parts)).close (pos + (tokensOf parts).length)).finished =
      (statementsOf pos parts).reverse ++ (s.close pos).finished) : Layout isPlainName parts := by
  -- By induction over the row: each statement that is recovered leaves a state in which the next
  -- one starts.
  induction h generalizing s pos with
  | nil => exact .nil
  | @cons part rest hform hgap hmerge _ ih =>
    rw [statementsOf, List.reverse_cons, List.append_assoc, List.singleton_append] at hrun
    rcases form_isPlainName_or_strays hform with hplain | hstrays
    · obtain ⟨s', hready, hnext, hfinished⟩ := exists_run_part hs hplain hgap hmerge
      rw [hnext, length_tokensOf_cons, ← hfinished] at hrun
      exact .cons hplain hgap hmerge (ih hready hrun)
    · -- What comes out for the statement is not what was put in.
      have htokens : tokensOf (part :: rest) = part.tokens ++ (part.gap ++ tokensOf rest) := by
        simp [tokensOf]
      obtain ⟨found, hfound, more, hmore⟩ := hstrays hs (pos + (tokensOf (part :: rest)).length)
      rw [← htokens, hrun] at hmore
      obtain ⟨-, hcons⟩ := List.append_inj' hmore rfl
      obtain ⟨rfl, -⟩ := List.cons.inj hcons
      have hstop := hfound rfl
      dsimp only at hstop
      omega

/-- In a row of statements behind a gap, in which no common table expression has the name of an
unquoted marker, the statements are found with their kinds and ranges, whatever stands before them,
exactly if none has an unquoted word that starts statements for its name. -/
theorem statements_eq_iff {before lead : List Token} {parts : List Part} (hlead : IsGap lead)
    (hlayout : Layout isUnmarked parts) :
    statements (before ++ (lead ++ tokensOf parts)) before.length =
        statementsOf (before.length + lead.length) parts ↔
      Layout isPlainName parts := by
  rw [statements_eq_run hlead, List.reverse_eq_iff]
  constructor
  · intro hrun
    refine layout_isPlainName ready_start hlayout (hrun.trans ?_)
    exact (List.append_nil _).symm
  · intro hplain
    exact (run_layout ready_start hplain).trans (List.append_nil _)

/-! ## Fixed statements -/

/-- Tokens that mean nothing are filler, unless the last word joins the next statement. -/
theorem filler_of_isMere {tokens after : List Token} (h : ∀ token ∈ tokens, isMere token = true)
    (hending : (lastWord none tokens).any isJoiner = false) : Filler after tokens := by
  refine ⟨?_, hending⟩
  clear hending
  induction tokens with
  | nil => exact .nil
  | cons token rest ih =>
    obtain ⟨hfirst, hrest⟩ := List.forall_mem_cons.mp h
    obtain ⟨hplain, hcase, hnothing⟩ := startsNothing_of_isMere hfirst
    exact .token hplain hcase hnothing (ih hrest)

/-- `insert t select 1`. -/
def insertion : Part where
  kind := .insert
  tokens := .word "insert" .bare :: ([.blank .space, .word "t" .bare, .blank .space] ++
    .word "select" .bare :: [.blank .space, .number "1" false])
  gap := [.blank .space]

/-- `with name as (select 1)`. -/
def cteNamed (name : String) : List Token :=
  .word "with" .bare :: ([.blank .space] ++ .word name .bare :: ([.blank .space] ++
    ([] ++ .word "as" .bare :: ([.blank .space] ++ .mark .openParen ::
      ([.word "select" .bare, .blank .space, .number "1" false] ++ [.mark .closeParen])))))

/-- `with name as (select 1) select 1`. -/
def selectionWith (name : String) : Part where
  kind := .select
  tokens := cteNamed name ++ ([.blank .space] ++
    .word "select" .bare :: [.blank .space, .number "1" false])
  gap := []

theorem layout_insertion {isName : Token → Bool} {rest : List Part} (h : Layout isName rest) :
    Layout isName (insertion :: rest) := by
  refine .cons ?_ (List.forall_mem_singleton.mpr (Or.inl rfl)) (fun h => by cases h) h
  refine .starter (by decide +kernel : _ = some "INSERT") rfl (.insert (.select ?_ ?_ (.single ?_)))
  · exact filler_of_isMere (by decide +kernel) (by decide +kernel)
  · decide +kernel
  · exact filler_of_isMere (by decide +kernel) rfl

theorem layout_selectionWith {isName : Token → Bool} {name : String}
    (hname : isName (.word name .bare) = true) : Layout isName [selectionWith name] := by
  have hspace : IsBlank [.blank .space] := List.forall_mem_singleton.mpr rfl
  have hquery : Balanced [.word "select" .bare, .blank .space, .number "1" false] :=
    .token (by simp) (by simp) (.token (by simp) (by simp) (.token (by simp) (by simp) .nil))
  have hhead : CteHead isName (cteNamed name) :=
    .intro (by decide +kernel) hspace hname
      (.intro hspace .absent (by decide +kernel) hspace hquery)
  refine .cons ?_ (List.forall_mem_nil _) (fun h => by cases h) .nil
  refine .cte hhead ?_ (by decide +kernel : _ = some "SELECT") rfl (.head _)
    (.select (.single ?_))
  · exact filler_of_isMere (by decide +kernel) rfl
  · exact filler_of_isMere (by decide +kernel) rfl

/-- `insert t select 1 with a as (select 1) select 1` has two statements. -/
theorem statements_eq_iff_of_insertion :
    (statements (tokensOf [insertion, selectionWith "a"]) 0 =
        statementsOf 0 [insertion, selectionWith "a"] ↔
      Layout isPlainName [insertion, selectionWith "a"]) ∧
    statements (tokensOf [insertion, selectionWith "a"]) 0 =
      [⟨.insert, 0, 8⟩, ⟨.select, 8, 23⟩] := by
  have hunmarked : isUnmarked (.word "a" .bare) = true := by decide +kernel
  have hplain : isPlainName (.word "a" .bare) = true := by decide +kernel
  have hiff : statements ([] ++ ([] ++ tokensOf [insertion, selectionWith "a"])) 0 =
      statementsOf 0 [insertion, selectionWith "a"] ↔
        Layout isPlainName [insertion, selectionWith "a"] :=
    statements_eq_iff (List.forall_mem_nil _) (layout_insertion (layout_selectionWith hunmarked))
  exact ⟨hiff, (hiff.mpr (layout_insertion (layout_selectionWith hplain))).trans rfl⟩

/-- The name of a common table expression is taken for the start of a statement where it can be one:
`with throw as (select 1) select 1` falls apart. -/
theorem not_statements_eq_of_any_name :
    ¬ ∀ {before lead : List Token} {parts : List Part}, IsGap lead → Layout Token.isWord parts →
      statements (before ++ (lead ++ tokensOf parts)) before.length =
        statementsOf (before.length + lead.length) parts := by
  intro h
  have hfalse : statements ([] ++ ([] ++ tokensOf [selectionWith "throw"])) 0 =
      statementsOf 0 [selectionWith "throw"] :=
    h (List.forall_mem_nil _) (layout_selectionWith rfl)
  revert hfalse
  decide +kernel

end SchemaPlan.Sql.Body
