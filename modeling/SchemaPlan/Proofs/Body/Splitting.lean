import SchemaPlan.Proofs.Body.Filler
import SchemaPlan.Proofs.Text.Case

/-!
# Cutting a body into its statements

Statements that follow the grammar of `Layout` are found again: each with its kind, from its first
token to the semicolon behind it or to the next statement. At the end of a statement no word but one
that starts another statement means anything to it; that is the state which its tokens lead to, and
which the next statement starts from.
-/

namespace SchemaPlan.Sql.Body

/-! ## Statements -/

/-- No starting word belongs to a statement any more, unless the word before joins it. -/
def IsComplete (opened : OpenStatement) : Prop :=
  match opened.kind with
  | .merge => False
  | .cte => False
  | .insert => opened.hasSource = true
  | .update => opened.hasSet = true
  | _ => True

theorem isJoiner_of_starterKind? {word : String} {kind : StatementKind}
    (h : starterKind? word = some kind) : isJoiner word = false := by
  rw [Bool.eq_false_iff]
  intro hjoiner
  simp only [isJoiner, List.contains_eq_mem, List.mem_cons, List.not_mem_nil, or_false,
    decide_eq_true_eq] at hjoiner
  rcases hjoiner with rfl | rfl | rfl | rfl | rfl <;> cases h

/-- A word before that joins nothing does not count. -/
theorem absorb?_of_not_joined {opened : OpenStatement} {word : String} {previous : Option String}
    (h : previous.any isJoiner = false) :
    opened.absorb? word previous = opened.absorb? word none := by
  unfold OpenStatement.absorb?
  rw [if_neg (by exact Bool.eq_false_iff.mp h)]
  rfl

theorem absorb?_eq_none {opened : OpenStatement} {previous : Option String} (word : String)
    (hcomplete : IsComplete opened) (hprevious : previous.any isJoiner = false) :
    opened.absorb? word previous = none := by
  obtain ⟨kind, start, hasSource, hasSet⟩ := opened
  rw [absorb?_of_not_joined hprevious, OpenStatement.absorb?, if_neg (by exact Bool.false_ne_true)]
  cases kind with
  | merge => exact hcomplete.elim
  | cte => exact hcomplete.elim
  | insert =>
    obtain rfl : hasSource = true := hcomplete
    simp
  | update =>
    obtain rfl : hasSet = true := hcomplete
    simp
  | _ => rfl

/-- A state in which the next starting word starts a statement of its own. -/
structure Ready (s : State) : Prop where
  depth : s.depth = 0
  caseDepth : s.caseDepth = 0
  complete : ∀ opened, s.current = some opened →
    IsComplete opened ∧ s.previous.any isJoiner = false

section Statements

variable {finished : List BodyStatement} {opened : OpenStatement} {pos start : Nat}
  {previous : Option String} {after : List Token}

/-- A word that is not absorbed ends the open statement and starts its own. -/
theorem step_start {s : State} (hs : Ready s) {token : Token} {word : String} {rest : List Token}
    {kind : StatementKind} (hword : token.bareWord? = some word) (hcase : word ≠ "CASE")
    (hvalues : word ≠ "VALUES") (hkind : starterOf? word rest = some kind) :
    step s pos token rest = within (s.close pos).finished { kind, start := pos } 0 (some word) := by
  obtain ⟨finished, current, depth, caseDepth, previous⟩ := s
  obtain ⟨rfl, rfl, hcomplete⟩ := hs
  rw [step_word rfl hword, visitWord_outside rfl hcase hvalues, hkind]
  cases current with
  | none => rfl
  | some opened =>
    -- What is open is complete, so it does not take the word.
    obtain ⟨hopened, hprevious⟩ := hcomplete opened rfl
    have habsorb : (some opened).bind (·.absorb? word previous) = none :=
      absorb?_eq_none word hopened hprevious
    dsimp only
    rw [habsorb]
    rfl

/-- After a set operator the next select joins the statement that is open. -/
theorem leads_setOperator {tokens : List Token} (h : SetOperator tokens) :
    Leads (within finished opened 0 previous) pos tokens after fun s =>
      ∃ word, isJoiner word = true ∧ s = within finished opened 0 (some word) := by
  cases h with
  | @word token word blanks hword hmem hblanks =>
    simp only [List.mem_cons, List.not_mem_nil, or_false] at hmem
    refine ⟨_, ⟨word, ?_, rfl⟩, .cons (step_mere_word hword ?_) (reads_blanks hblanks)⟩
    all_goals rcases hmem with rfl | rfl | rfl <;> decide
  | unionAll hunion hbetween hall hblanks =>
    refine ⟨_, ⟨"ALL", rfl, rfl⟩, .cons (step_mere_word hunion (by decide)) ?_⟩
    refine .append (reads_blanks hbetween) ?_
    exact .cons (step_mere_word hall (by decide)) (reads_blanks hblanks)

theorem absorb?_of_isJoiner {word : String} (h : isJoiner word = true) (starter : String) :
    opened.absorb? starter (some word) = some opened := by
  unfold OpenStatement.absorb?
  rw [if_pos (by exact h)]

/-- The selects after set operators belong to the statement that is open. -/
theorem leads_selectTail {tokens : List Token} {s : State} (h : SelectTail after tokens)
    (hs : Calm finished opened s) : Leads s pos tokens after (Calm finished opened) := by
  induction h generalizing pos s with
  | single hfiller => exact leads_filler hfiller hs
  | joined hfiller hoperator hselect _ ih =>
    refine .append (leads_filler hfiller hs) ?_
    rintro _ ⟨previous, -, rfl⟩
    refine .append (leads_setOperator hoperator) ?_
    rintro _ ⟨joiner, hjoiner, rfl⟩
    -- The operator stands directly before the next select and joins it.
    refine .cons (step_absorb hselect rfl (absorb?_of_isJoiner hjoiner _)) ?_
    exact ih ⟨_, rfl, rfl⟩

/-- The open statement has its kind, starts where it did and is complete; the next starting word is
not joined to it. -/
def Finishes (finished : List BodyStatement) (kind : StatementKind) (start : Nat) (s : State) : Prop :=
  ∃ opened, opened.kind = kind ∧ opened.start = start ∧ IsComplete opened ∧ Calm finished opened s

theorem absorb?_source {word : String} (hword : word ∈ ["SELECT", "EXEC", "EXECUTE"])
    (hprevious : previous.any isJoiner = false) :
    OpenStatement.absorb? { kind := .insert, start } word previous =
      some { kind := .insert, start, hasSource := true } := by
  rw [absorb?_of_not_joined hprevious]
  simp only [List.mem_cons, List.not_mem_nil, or_false] at hword
  rcases hword with rfl | rfl | rfl <;> rfl

/-- An `INSERT` is complete with the source of its rows. -/
theorem leads_insertTail {tokens : List Token} {s : State} (h : InsertTail after tokens)
    (hs : Calm finished { kind := .insert, start } s) :
    Leads s pos tokens after (Finishes finished .insert start) := by
  let complete : OpenStatement := { kind := .insert, start, hasSource := true }
  have hcomplete (s' : State) (h : Calm finished complete s') :
      Finishes finished .insert start s' := ⟨complete, rfl, rfl, rfl, h⟩
  -- The three sources of rows: after the filler in front, the word that gives them leaves the
  -- statement complete, and what is behind keeps it so.
  cases h with
  | values hfiller hword hrest =>
    refine .append (leads_filler hfiller hs) ?_
    rintro _ ⟨previous, -, rfl⟩
    refine .cons (step_values hword) ?_
    exact (leads_filler hrest ⟨_, rfl, rfl⟩).imp hcomplete
  | select hfiller hword hrest =>
    refine .append (leads_filler hfiller hs) ?_
    rintro _ ⟨previous, hprevious, rfl⟩
    refine .cons (step_absorb hword rfl (absorb?_source (by simp) hprevious)) ?_
    exact (leads_selectTail hrest ⟨_, rfl, rfl⟩).imp hcomplete
  | exec hfiller hword hmem hrest =>
    refine .append (leads_filler hfiller hs) ?_
    rintro _ ⟨previous, hprevious, rfl⟩
    have hsource : OpenStatement.absorb? { kind := .insert, start } _ previous = some complete :=
      absorb?_source (List.mem_cons_of_mem "SELECT" hmem) hprevious
    have hkind {word : String} (h : word ∈ ["EXEC", "EXECUTE"]) :
        starterKind? word = some .exec := by
      simp only [List.mem_cons, List.not_mem_nil, or_false] at h
      rcases h with rfl | rfl <;> rfl
    refine .cons (step_absorb hword (hkind hmem) hsource) ?_
    exact (leads_filler hrest ⟨some _, isJoiner_of_starterKind? (hkind hmem), rfl⟩).imp hcomplete

/-- A statement of any kind is complete after what follows the word that starts it. -/
theorem leads_tail {kind : StatementKind} {tokens : List Token} {s : State}
    (h : Tail after kind tokens) (hs : Calm finished { kind, start } s) :
    Leads s pos tokens after (Finishes finished kind start) := by
  cases h with
  | select hselect =>
    exact (leads_selectTail hselect hs).imp fun s' h =>
      ⟨{ kind := .select, start }, rfl, rfl, trivial, h⟩
  | insert hinsert => exact leads_insertTail hinsert hs
  | update hfiller hset hrest =>
    refine .append (leads_filler hfiller hs) ?_
    rintro _ ⟨previous, hprevious, rfl⟩
    -- No word joins two statements here, so the first `SET` is that of the update.
    have habsorb : OpenStatement.absorb? { kind := .update, start } "SET" previous =
        some { kind := .update, start, hasSet := true } := absorb?_of_not_joined hprevious
    refine .cons (step_absorb hset rfl habsorb) ?_
    exact (leads_filler hrest ⟨_, rfl, rfl⟩).imp fun s' h =>
      ⟨{ kind := .update, start, hasSet := true }, rfl, rfl, rfl, h⟩
  | other hkind hfiller =>
    refine (leads_filler hfiller hs).imp fun s' h => ⟨_, rfl, rfl, ?_, h⟩
    simp only [List.mem_cons, List.not_mem_nil, or_false, not_or] at hkind
    cases kind <;> trivial

end Statements

/-! ## Common table expressions -/

theorem filter_blanks {tokens : List Token} (h : IsBlank tokens) :
    tokens.filter (!·.isBlank) = [] := by
  rw [List.filter_eq_nil_iff]
  intro token htoken
  simp [h token htoken]

theorem filter_word (text : String) (quote : Quote) (rest : List Token) :
    (Token.word text quote :: rest).filter (!·.isBlank) =
      .word text quote :: rest.filter (!·.isBlank) := rfl

theorem filter_mark (mark : Mark) (rest : List Token) :
    (Token.mark mark :: rest).filter (!·.isBlank) = .mark mark :: rest.filter (!·.isBlank) := rfl

theorem Balanced.filter {tokens : List Token} (h : Balanced tokens) :
    Balanced (tokens.filter (!·.isBlank)) := by
  induction h with
  | nil => exact .nil
  | token hopen hclose _ ih =>
    rw [List.filter_cons]
    split
    · exact .token hopen hclose ih
    · exact ih
  | group _ _ ihinner ihrest =>
    rw [filter_mark, List.filter_append, filter_mark]
    exact .group ihinner ihrest

/-- What follows the parenthesis that closes the innermost one is looked for behind balanced
tokens. -/
theorem afterClosing_balanced {tokens : List Token} (h : Balanced tokens) (depth : Nat)
    (rest : List Token) : afterClosing (depth + 1) (tokens ++ rest) = afterClosing (depth + 1) rest := by
  induction h generalizing depth rest with
  | nil => rfl
  | @token token tokens hopen hclose _ ih =>
    have hskip : afterClosing (depth + 1) (token :: (tokens ++ rest)) =
        afterClosing (depth + 1) (tokens ++ rest) := by
      rw [afterClosing]
      · exact hopen
      · exact hclose
    rw [List.cons_append, hskip, ih]
  | group _ _ ihinner ihrest =>
    rw [List.cons_append, afterClosing, List.append_assoc, ihinner, List.cons_append, afterClosing,
      if_neg (by omega)]
    exact ihrest depth rest

theorem exists_word_of_bareWord? {token : Token} {word : String}
    (h : token.bareWord? = some word) :
    ∃ text, token = .word text .bare ∧ Text.asciiUpper text = word := by
  unfold Token.bareWord? at h
  split at h
  · exact ⟨_, rfl, Option.some.inj h⟩
  · cases h

theorem isBareWord_of_bareWord? {token : Token} {word : String} (h : token.bareWord? = some word)
    (hword : Text.asciiUpper word = word) : token.isBareWord word = true := by
  obtain ⟨text, rfl, htext⟩ := exists_word_of_bareWord? h
  exact Text.sameText_of_asciiUpper_eq (htext.trans hword.symm)

/-- What follows the `WITH` of a list of common table expressions is recognised. -/
theorem startsCte_of_cteRest {name : Token} {blanks rest : List Token} (hblanks : IsBlank blanks)
    (hname : name.isWord = true) (h : CteRest rest) (after : List Token) :
    startsCte (blanks ++ (name :: rest ++ after)) = true := by
  obtain ⟨text, quote, rfl⟩ : ∃ text quote, name = .word text quote := by
    cases name with
    | word text quote => exact ⟨text, quote, rfl⟩
    | _ => cases hname
  cases h with
  | @intro as' first columns second inner hfirst hcolumns has hsecond _ =>
    obtain ⟨asText, rfl, -⟩ := exists_word_of_bareWord? has
    have hbare := isBareWord_of_bareWord? has rfl
    unfold startsCte
    -- Behind the name stands `AS`, or a list of columns in parentheses that is skipped first.
    cases hcolumns with
    | absent =>
      simp only [List.cons_append, List.append_assoc, List.nil_append, List.filter_append,
        filter_blanks hblanks, filter_blanks hfirst, filter_blanks hsecond, filter_word, filter_mark]
      exact hbare
    | @listed columns behind hlisted hbehind =>
      have hclosing (rest : List Token) :
          afterClosing 1 (columns.filter (!·.isBlank) ++ .mark .closeParen :: rest) = rest := by
        rw [afterClosing_balanced hlisted.filter]
        rfl
      simp only [List.cons_append, List.append_assoc, List.nil_append, List.filter_append,
        filter_blanks hblanks, filter_blanks hfirst, filter_blanks hsecond, filter_blanks hbehind,
        filter_word, filter_mark, hclosing]
      exact hbare

section Heads

variable {finished : List BodyStatement} {opened : OpenStatement} {pos : Nat}
  {previous : Option String} {after rest : List Token}

theorem of_isPlainName {token : Token} (h : isPlainName token = true) :
    token.isWord = true ∧ isMere token = true := Bool.and_eq_true_iff.mp h

/-- `WITH` opens a statement whose kind is not known. -/
theorem leads_with {s : State} {with' name : Token} {blanks : List Token} (hs : Ready s)
    (hwith : with'.bareWord? = some "WITH") (hblanks : IsBlank blanks) (hname : name.isWord = true)
    (hrest : CteRest rest) :
    Leads s pos (with' :: blanks) (name :: rest ++ after) fun s' =>
      s' = within (s.close pos).finished { kind := .cte, start := pos } 0 (some "WITH") := by
  have hopens : starterOf? "WITH" (blanks ++ (name :: rest ++ after)) = some .cte := by
    unfold starterOf?
    rw [if_pos rfl, startsCte_of_cteRest hblanks hname hrest after, if_pos rfl]
  exact .cons (step_start hs hwith (by decide) (by decide) hopens) ⟨_, rfl, reads_blanks hblanks⟩

theorem leads_cteColumns {columns : List Token} (h : CteColumns columns) :
    Leads (within finished opened 0 previous) pos columns after fun s =>
      ∃ previous', s = within finished opened 0 previous' := by
  cases h with
  | absent => exact .nil ⟨previous, rfl⟩
  | listed hinner hblanks =>
    exact ⟨_, ⟨none, rfl⟩, reads_group hinner (reads_blanks hblanks)⟩

/-- The columns and the query of a common table expression belong to the open statement. -/
theorem leads_cteRest (h : CteRest rest) :
    Leads (within finished opened 0 previous) pos rest after (Calm finished opened) := by
  cases h with
  | intro hfirst hcolumns has hsecond hinner =>
    refine .append ⟨_, rfl, reads_blanks hfirst⟩ ?_
    rintro _ rfl
    refine .append (leads_cteColumns hcolumns) ?_
    rintro _ ⟨previous, rfl⟩
    refine .cons (step_mere_word has (by decide)) (.append ⟨_, rfl, reads_blanks hsecond⟩ ?_)
    rintro _ rfl
    exact ⟨_, ⟨none, rfl, rfl⟩, reads_group hinner .nil⟩

/-- After a plain name, columns and a query a list of common table expressions is open. -/
theorem leads_cteHead {s : State} {head : List Token} (hs : Ready s)
    (h : CteHead isPlainName head) :
    Leads s pos head after (Calm (s.close pos).finished { kind := .cte, start := pos }) := by
  cases h with
  | @intro with' name blanks rest hwith hblanks hname hrest =>
    obtain ⟨hword, hmere⟩ := of_isPlainName hname
    refine (leads_with hs hwith hblanks hword hrest).append ?_
    rintro _ rfl
    exact .cons (step_mere hmere) (leads_cteRest hrest)

end Heads

/-! ## Statements in a row -/

/-- Queries and changes are started by one word each. -/
theorem word_of_starterKind? {word : String} {kind : StatementKind}
    (hword : starterKind? word = some kind) (hkind : kind ∈ [.select, .insert, .update, .delete]) :
    (word = "SELECT" ∧ kind = .select) ∨ (word = "INSERT" ∧ kind = .insert) ∨
      (word = "UPDATE" ∧ kind = .update) ∨ (word = "DELETE" ∧ kind = .delete) := by
  -- The other starting words start statements of other kinds.
  unfold starterKind? at hword
  split at hword
  case h_10 =>
    split at hword
    · cases hword
      exact absurd hkind (by decide)
    · split at hword
      · cases hword
        exact absurd hkind (by decide)
      · cases hword
  all_goals
    cases hword
    first
      | decide
      | exact absurd hkind (by decide)

/-- The statement that a starting word of a query or a change opens after common table expressions. -/
theorem absorb?_cte {word : String} {kind : StatementKind} {start : Nat} {previous : Option String}
    (hword : starterKind? word = some kind) (hkind : kind ∈ [.select, .insert, .update, .delete])
    (hprevious : previous.any isJoiner = false) :
    OpenStatement.absorb? { kind := .cte, start } word previous = some { kind, start } := by
  rw [absorb?_of_not_joined hprevious]
  rcases word_of_starterKind? hword hkind with
    ⟨rfl, rfl⟩ | ⟨rfl, rfl⟩ | ⟨rfl, rfl⟩ | ⟨rfl, rfl⟩ <;> rfl

/-- A statement of a kind is open, and unless it is a `MERGE` the next starting word ends it. -/
def Stands (finished : List BodyStatement) (kind : StatementKind) (start : Nat) (s : State) : Prop :=
  ∃ opened previous, opened.kind = kind ∧ opened.start = start ∧
    s = within finished opened 0 previous ∧
    (kind = .merge ∨ IsComplete opened ∧ previous.any isJoiner = false)

theorem Finishes.stands {finished : List BodyStatement} {kind : StatementKind} {start : Nat}
    {s : State} (h : Finishes finished kind start s) : Stands finished kind start s := by
  obtain ⟨opened, hkind, hstart, hcomplete, previous, hprevious, rfl⟩ := h
  exact ⟨opened, previous, hkind, hstart, rfl, Or.inr ⟨hcomplete, hprevious⟩⟩

section Rows

variable {s : State} {pos : Nat} {after : List Token}

/-- A `MERGE` stays open over every word. -/
theorem step_merge {finished : List BodyStatement} {opened : OpenStatement}
    {previous : Option String} {token : Token} {rest : List Token} (hplain : token.isPlain = true)
    (hcase : token.bareWord? ≠ some "CASE") (hmerge : opened.kind = .merge) :
    ∃ next : OpenStatement, next.kind = .merge ∧ next.start = opened.start ∧
      step (within finished opened 0 previous) pos token rest =
        within finished next 0 (nextWord previous token) := by
  cases hword : token.bareWord? with
  | none => exact ⟨opened, hmerge, rfl, step_plain hplain hword⟩
  | some word =>
    -- `VALUES` is noted, every other word is taken by the rule for `MERGE`.
    by_cases hvalues : word = "VALUES"
    · subst hvalues
      rw [nextWord_of_bareWord? hword]
      exact ⟨{ opened with hasSource := true }, hmerge, rfl, step_values hword⟩
    · have habsorb : (within finished opened 0 previous).current.bind
          (·.absorb? word (within finished opened 0 previous).previous) = some opened := by
        show opened.absorb? word previous = some opened
        unfold OpenStatement.absorb?
        rw [hmerge, ite_self]
      refine ⟨opened, hmerge, rfl, ?_⟩
      rw [step_word rfl hword, nextWord_of_bareWord? hword,
        visitWord_outside rfl (fun h => hcase (hword.trans (congrArg some h))) hvalues, habsorb]
      cases starterOf? word rest with
      | none => rfl
      | some kind => rfl

/-- Nothing ends a `MERGE` but a semicolon. -/
theorem leads_merge {finished : List BodyStatement} {start : Nat} {previous : Option String}
    {tokens : List Token} (h : Stretch (fun _ _ => True) after tokens) :
    Leads (within finished { kind := .merge, start } 0 previous) pos tokens after
      (Stands finished .merge start) := by
  have hstretch : ∃ opened : OpenStatement, (opened.kind = .merge ∧ opened.start = start) ∧
      Reads (within finished { kind := .merge, start } 0 previous) pos tokens after
        (within finished opened 0 (lastWord previous tokens)) := by
    refine reads_stretch (fun hplain hcase _ hopened => ?_) h ⟨rfl, rfl⟩
    obtain ⟨next, hkind, hstart, hstep⟩ := step_merge hplain hcase hopened.1
    exact ⟨next, ⟨hkind, hstart.trans hopened.2⟩, hstep⟩
  obtain ⟨opened, ⟨hkind, hstart⟩, hreads⟩ := hstretch
  exact ⟨_, ⟨opened, _, hkind, hstart, rfl, Or.inl rfl⟩, hreads⟩

/-- A statement ends what was open before and is open behind its tokens. -/
theorem leads_form {tokens : List Token} {kind : StatementKind} (hs : Ready s)
    (h : Form isPlainName after kind tokens) :
    Leads s pos tokens after (Stands (s.close pos).finished kind pos) := by
  have hstart {token : Token} {word : String} {kind : StatementKind} {rest : List Token}
      (hword : token.bareWord? = some word) (hkind : starterKind? word = some kind) :
      step s pos token rest =
        within (s.close pos).finished { kind, start := pos } 0 (some word) :=
    step_start hs hword (ne_of_starterKind? hkind).1 (ne_of_starterKind? hkind).2.1
      (starterOf?_of_starterKind? hkind)
  cases h with
  | starter hword hkind htail =>
    refine .cons (hstart hword hkind) ?_
    exact (leads_tail htail ⟨some _, isJoiner_of_starterKind? hkind, rfl⟩).imp fun _ => Finishes.stands
  | cte hhead hfiller hword hkind hmem htail =>
    refine .append (leads_cteHead hs hhead) fun _ hcalm => ?_
    refine .append (leads_filler hfiller hcalm) ?_
    rintro _ ⟨previous, hprevious, rfl⟩
    -- The word behind the expressions gives the open statement its kind; it starts no other one.
    refine .cons (step_absorb hword hkind (absorb?_cte hkind hmem hprevious)) ?_
    exact (leads_tail htail ⟨some _, isJoiner_of_starterKind? hkind, rfl⟩).imp fun _ => Finishes.stands
  | merge hword hstretch => exact .cons (hstart hword rfl) (leads_merge hstretch)

/-- Where no statement is open, blanks and semicolons mean nothing. -/
theorem reads_gap {finished : List BodyStatement} {gap : List Token} (h : IsGap gap) :
    Reads { finished } pos gap after { finished } := by
  induction gap generalizing pos with
  | nil => exact .nil
  | cons token rest ih =>
    obtain ⟨hfirst, hrest⟩ := List.forall_mem_cons.mp h
    rcases hfirst with hblank | rfl
    · exact .cons (step_blank hblank) (ih hrest)
    · exact .cons rfl (ih hrest)

/-- A statement ends at the first semicolon behind it, or else where the next one starts. -/
theorem leads_gap {finished : List BodyStatement} {kind : StatementKind} {start : Nat}
    {gap : List Token} (hgap : IsGap gap) (hmerge : kind = .merge → .mark .semicolon ∈ gap)
    (hs : Stands finished kind start s) :
    Leads s pos gap after fun s' => Ready s' ∧ (s'.close (pos + gap.length)).finished =
      ⟨kind, start, pos + (gap.takeWhile (!·.isMark .semicolon)).length⟩ :: finished := by
  obtain ⟨opened, previous, rfl, rfl, rfl, hstands⟩ := hs
  -- Blanks are passed over until the first semicolon; without one the state at the end is ready
  -- because a `MERGE` has one.
  induction gap generalizing pos with
  | nil =>
    have hready : Ready (within finished opened 0 previous) := by
      refine ⟨rfl, rfl, ?_⟩
      rintro _ ⟨⟩
      exact hstands.resolve_left fun h => by cases hmerge h
    exact .nil ⟨hready, rfl⟩
  | cons token rest ih =>
    obtain ⟨hfirst, hrest⟩ := List.forall_mem_cons.mp hgap
    rcases hfirst with hblank | rfl
    · obtain ⟨text, rfl⟩ : ∃ text, token = .blank text := by
        cases token with
        | blank text => exact ⟨text, rfl⟩
        | _ => cases hblank
      have hmem (h : opened.kind = .merge) : .mark .semicolon ∈ rest :=
        (List.mem_cons.mp (hmerge h)).resolve_left (by simp)
      refine .cons rfl ((ih hrest hmem).imp ?_)
      rintro s' ⟨hready, hfinished⟩
      refine ⟨hready, ?_⟩
      rw [List.length_cons, List.takeWhile_cons_of_pos rfl, List.length_cons,
        show pos + (rest.length + 1) = pos + 1 + rest.length by omega, hfinished]
      congr 2
      omega
    · -- Behind the first semicolon nothing is open, so the rest of the gap means nothing.
      refine .cons rfl ⟨{ finished := ⟨opened.kind, opened.start, pos⟩ :: finished }, ⟨?_, rfl⟩, ?_⟩
      · exact ⟨rfl, rfl, fun _ h => by cases h⟩
      · exact reads_gap hrest

/-- A statement and the gap behind it lead to a state in which the next one starts. -/
theorem exists_run_part {part : Part} {rest : List Part} (hs : Ready s)
    (hform : Form isPlainName (part.gap ++ tokensOf rest) part.kind part.tokens)
    (hgap : IsGap part.gap) (hmerge : part.kind = .merge → .mark .semicolon ∈ part.gap) :
    let next := pos + part.tokens.length + part.gap.length
    ∃ s', Ready s' ∧ run s pos (tokensOf (part :: rest)) = run s' next (tokensOf rest) ∧
      (s'.close next).finished = ⟨part.kind, pos, pos + part.tokens.length +
        (part.gap.takeWhile (!·.isMark .semicolon)).length⟩ :: (s.close pos).finished := by
  intro next
  have hleads : Leads s pos (part.tokens ++ part.gap) (tokensOf rest) fun s' =>
      Ready s' ∧ (s'.close next).finished = ⟨part.kind, pos, pos + part.tokens.length +
        (part.gap.takeWhile (!·.isMark .semicolon)).length⟩ :: (s.close pos).finished :=
    (leads_form hs hform).append fun s' hstands => leads_gap hgap hmerge hstands
  obtain ⟨s', ⟨hready, hfinished⟩, hreads⟩ := hleads
  have hnext : pos + (part.tokens ++ part.gap).length = next := by
    rw [List.length_append, ← Nat.add_assoc]
  exact ⟨s', hready, hnext ▸ hreads, hfinished⟩

theorem length_tokensOf_cons (part : Part) (rest : List Part) :
    pos + (tokensOf (part :: rest)).length =
      pos + part.tokens.length + part.gap.length + (tokensOf rest).length := by
  simp only [tokensOf, List.flatMap_cons, List.length_append]
  omega

/-- A row of statements is cut into the statements that it is made of. -/
theorem run_layout {parts : List Part} (hs : Ready s) (h : Layout isPlainName parts) :
    ((run s pos (tokensOf parts)).close (pos + (tokensOf parts).length)).finished =
      (statementsOf pos parts).reverse ++ (s.close pos).finished := by
  induction h generalizing s pos with
  | nil => rfl
  | cons hform hgap hmerge _ ih =>
    -- The next statement finds a state in which it starts, as the first one did.
    obtain ⟨s', hready, hrun, hfinished⟩ := exists_run_part hs hform hgap hmerge
    rw [hrun, length_tokensOf_cons, ih hready, hfinished, statementsOf, List.reverse_cons,
      List.append_assoc]
    rfl

/-- A gap before the first statement changes nothing but where that starts. -/
theorem statements_eq_run {before lead : List Token} (hlead : IsGap lead) (tokens : List Token) :
    statements (before ++ (lead ++ tokens)) before.length =
      ((run {} (before.length + lead.length) tokens).close
        (before.length + lead.length + tokens.length)).finished.reverse := by
  have hgap : run {} before.length (lead ++ tokens) =
      run {} (before.length + lead.length) tokens := reads_gap hlead
  unfold statements
  rw [List.drop_left, hgap, List.length_append, List.length_append, ← Nat.add_assoc]

theorem ready_start : Ready {} := ⟨rfl, rfl, fun _ h => by cases h⟩

end Rows

end SchemaPlan.Sql.Body
