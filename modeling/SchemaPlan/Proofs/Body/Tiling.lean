import SchemaPlan.Proofs.Body.Nesting
import Mathlib.Data.List.Chain

/-!
# How the statements of a body cover its tokens

The statements of a body follow one another without overlapping. Each starts at a token that can
open one and goes on to the next statement, to a semicolon or to the end. What is left out is told
from the tokens: blanks and semicolons between statements, and words and parentheses that open
nothing where no statement is open.

* `Tiles`: statements and tokens that are passed over, in a row.
* `Covers.step`: every step keeps what has been read in this form.
* `tiles_statements`: so the statements of every body, balanced or not, cover all of it but that.
-/

namespace SchemaPlan.Sql

/-- Whether a token belongs to a statement. -/
def BodyStatement.holds (statement : BodyStatement) (pos : Nat) : Bool :=
  decide (statement.start ≤ pos) && decide (pos < statement.stop)

namespace Body

/-! ## Places in a body -/

/-- A semicolon outside parentheses. -/
def IsSeparator (tokens : List Token) (start pos : Nat) : Prop :=
  tokens[pos]? = some (.mark .semicolon) ∧ (nestingAt tokens start pos).depth = 0

instance (tokens : List Token) (start pos : Nat) : Decidable (IsSeparator tokens start pos) :=
  inferInstanceAs (Decidable (_ ∧ _))

/-- A place in a `CASE` block that a semicolon has cut off. -/
def IsCutOff (tokens : List Token) (start pos : Nat) : Prop :=
  ∃ cut, start ≤ cut ∧ cut < pos ∧ IsSeparator tokens start cut ∧
    ∀ p, cut ≤ p → p ≤ pos → 0 < (nestingAt tokens start p).blocks

/-- A token that opens no statement: a parenthesis that closes none, the unquoted word `VALUES`, or
an unquoted word of a `CASE` block that a semicolon has cut off. -/
inductive IsLoose (tokens : List Token) (start pos : Nat) : Prop where
  | closeParen :
      tokens[pos]? = some (.mark .closeParen) → (nestingAt tokens start pos).depth = 0 →
      IsLoose tokens start pos
  | values {token : Token} :
      tokens[pos]? = some token → token.bareWord? = some "VALUES" → IsLoose tokens start pos
  | cutOff {token : Token} {word : String} :
      tokens[pos]? = some token → token.bareWord? = some word → word ≠ "CASE" →
      IsCutOff tokens start pos → IsLoose tokens start pos

/-- Whether a statement is open where a token is met: it has started before and not yet stopped. -/
def IsOpen (found : List BodyStatement) (pos : Nat) : Prop :=
  ∃ statement ∈ found, statement.start < pos ∧ pos ≤ statement.stop

/-- A token that belongs to no statement although it is no blank. -/
def IsLeftOut (tokens : List Token) (start : Nat) (found : List BodyStatement) (pos : Nat) : Prop :=
  IsSeparator tokens start pos ∨ ¬ IsOpen found pos ∧ IsLoose tokens start pos

/-- The statements are in order and cover the tokens from `start` on, up to those left out. -/
structure Tiling (tokens : List Token) (start : Nat) (found : List BodyStatement) : Prop where
  within : ∀ statement ∈ found,
    start ≤ statement.start ∧ statement.start < statement.stop ∧ statement.stop ≤ tokens.length
  starts : ∀ statement ∈ found, ∃ token, tokens[statement.start]? = some token ∧
    token.isBlank = false ∧ (nestingAt tokens start statement.start).depth = 0
  stops : found.IsChain fun statement next => statement.stop = next.start ∨
    statement.stop < next.start ∧ IsSeparator tokens start statement.stop
  last : ∀ statement ∈ found.getLast?,
    statement.stop = tokens.length ∨ IsSeparator tokens start statement.stop
  covers : ∀ pos token, start ≤ pos → tokens[pos]? = some token → token.isBlank = false →
    ¬ IsLeftOut tokens start found pos → found.countP (·.holds pos) = 1
  leavesOut : ∀ pos, IsLeftOut tokens start found pos → found.countP (·.holds pos) = 0

/-! ## Statements and passed tokens in a row -/

/-- A token that can be the first one of a statement. -/
def CanStart (tokens : List Token) (start pos : Nat) : Prop :=
  ∃ token, tokens[pos]? = some token ∧ (nestingAt tokens start pos).depth = 0 ∧
    Opens (nestingAt tokens start pos).blocks token

/-- A token that no statement takes: a semicolon, or what opens nothing where no statement is open. -/
def IsPassed (tokens : List Token) (start : Nat) (found : List BodyStatement) (pos : Nat) : Prop :=
  IsSeparator tokens start pos ∨ (∀ statement ∈ found, statement.stop < pos) ∧
    ((∃ gap, tokens[pos]? = some (.blank gap)) ∨ IsLoose tokens start pos)

/-- The tokens from `start` up to a place are the statements, the last one first, with passed tokens
between them. -/
inductive Tiles (tokens : List Token) (start : Nat) : List BodyStatement → Nat → Prop where
  | nil : Tiles tokens start [] start
  | pass {found : List BodyStatement} {pos : Nat} :
      Tiles tokens start found pos → IsPassed tokens start found pos →
      Tiles tokens start found (pos + 1)
  | statement {found : List BodyStatement} {kind : StatementKind} {pos stop : Nat} :
      Tiles tokens start found pos → CanStart tokens start pos → pos < stop →
      (∀ p, pos ≤ p → p < stop → ¬ IsSeparator tokens start p) →
      Tiles tokens start (⟨kind, pos, stop⟩ :: found) stop

namespace Tiles

variable {tokens : List Token} {start pos : Nat} {found : List BodyStatement}

theorem within (h : Tiles tokens start found pos) : start ≤ pos ∧ ∀ statement ∈ found,
    start ≤ statement.start ∧ statement.start < statement.stop ∧ statement.stop ≤ pos := by
  induction h with
  | nil => exact ⟨Nat.le_refl start, nofun⟩
  | pass _ _ ih =>
    refine ⟨Nat.le_succ_of_le ih.1, fun statement hmem => ?_⟩
    obtain ⟨hstart, hlt, hstop⟩ := ih.2 statement hmem
    exact ⟨hstart, hlt, Nat.le_succ_of_le hstop⟩
  | statement _ _ hlt _ ih =>
    refine ⟨ih.1.trans (Nat.le_of_lt hlt), List.forall_mem_cons.mpr ⟨⟨ih.1, hlt, Nat.le_refl _⟩, ?_⟩⟩
    intro statement hmem
    obtain ⟨hstart, hlt', hstop⟩ := ih.2 statement hmem
    exact ⟨hstart, hlt', hstop.trans (Nat.le_of_lt hlt)⟩

theorem canStart (h : Tiles tokens start found pos) :
    ∀ statement ∈ found, CanStart tokens start statement.start := by
  induction h with
  | nil => exact nofun
  | pass _ _ ih => exact ih
  | statement _ hstarts _ _ ih => exact List.forall_mem_cons.mpr ⟨hstarts, ih⟩

/-- No statement goes on over a semicolon. -/
theorem not_isSeparator (h : Tiles tokens start found pos) : ∀ statement ∈ found,
    ∀ p, statement.start ≤ p → p < statement.stop → ¬ IsSeparator tokens start p := by
  induction h with
  | nil => exact nofun
  | pass _ _ ih => exact ih
  | statement _ _ _ hnone ih => exact List.forall_mem_cons.mpr ⟨hnone, ih⟩

/-- A statement stops at the place reached or at a semicolon, and so does each one before the next. -/
theorem stops (h : Tiles tokens start found pos) :
    (∀ statement ∈ found.head?, statement.stop = pos ∨ IsSeparator tokens start statement.stop) ∧
      found.IsChain fun next statement => statement.stop = next.start ∨
        statement.stop < next.start ∧ IsSeparator tokens start statement.stop := by
  induction h with
  | nil => exact ⟨nofun, .nil⟩
  | @pass found pos _ hpassed ih =>
    refine ⟨fun statement hhead => ?_, ih.2⟩
    rcases ih.1 statement hhead with hstop | hseparator
    · -- Directly behind a statement only a semicolon is passed over.
      subst hstop
      rcases hpassed with hseparator | ⟨hbefore, -⟩
      · exact .inr hseparator
      · exact absurd (hbefore statement (List.mem_of_mem_head? hhead)) (Nat.lt_irrefl _)
    · exact .inr hseparator
  | @statement found kind pos stop htiles _ _ _ ih =>
    refine ⟨fun statement hhead => .inl ?_, List.isChain_cons.mpr ⟨fun statement hhead => ?_, ih.2⟩⟩
    · cases hhead
      rfl
    · -- The statement before stops where this one starts, or earlier and then at a semicolon.
      obtain ⟨-, -, hle⟩ := htiles.within.2 statement (List.mem_of_mem_head? hhead)
      rcases Nat.lt_or_eq_of_le hle with hlt | heq
      · exact .inr ⟨hlt, (ih.1 statement hhead).resolve_left (Nat.ne_of_lt hlt)⟩
      · exact .inl heq

theorem not_holds_of_stop_le {statement : BodyStatement} {p : Nat} (h : statement.stop ≤ p) :
    statement.holds p = false := by
  rw [BodyStatement.holds, decide_eq_false (Nat.not_lt.mpr h), Bool.and_false]

theorem not_holds_of_lt_start {statement : BodyStatement} {p : Nat} (h : p < statement.start) :
    statement.holds p = false := by
  rw [BodyStatement.holds, decide_eq_false (Nat.not_le.mpr h), Bool.false_and]

theorem countP_eq_zero {p : Nat} (h : Tiles tokens start found pos) (hp : pos ≤ p) :
    found.countP (·.holds p) = 0 :=
  List.countP_eq_zero.mpr fun statement hmem => by
    rw [not_holds_of_stop_le ((h.within.2 statement hmem).2.2.trans hp)]
    exact Bool.false_ne_true

/-- A token that has been read belongs to one statement, or it was passed over. -/
theorem covers {p : Nat} (h : Tiles tokens start found pos) (hstart : start ≤ p) (hp : p < pos) :
    found.countP (·.holds p) = 1 ∨ (∃ gap, tokens[p]? = some (.blank gap)) ∨
      IsLeftOut tokens start found p := by
  induction h with
  | nil => omega
  | @pass found pos htiles hpassed ih =>
    rcases Nat.lt_succ_iff_lt_or_eq.mp hp with hlt | rfl
    · exact ih hlt
    · right
      rcases hpassed with hseparator | ⟨hbefore, hblank | hloose⟩
      · exact .inr (.inl hseparator)
      · exact .inl hblank
      · refine .inr (.inr ⟨?_, hloose⟩)
        rintro ⟨statement, hmem, -, hle⟩
        exact absurd (hbefore statement hmem) (Nat.not_lt.mpr hle)
  | @statement found kind pos stop htiles _ hlt _ ih =>
    -- A token before the last statement is covered as before; one within it is held by it alone.
    rcases Nat.lt_or_ge p pos with hbefore | hafter
    · rw [List.countP_cons_of_neg (by rw [not_holds_of_lt_start hbefore]; exact Bool.false_ne_true)]
      rcases ih hbefore with hone | hblank | hseparator | ⟨hclosed, hloose⟩
      · exact .inl hone
      · exact .inr (.inl hblank)
      · exact .inr (.inr (.inl hseparator))
      · refine .inr (.inr (.inr ⟨?_, hloose⟩))
        rintro ⟨statement, hmem, hopen, hle⟩
        rcases List.mem_cons.mp hmem with rfl | hmem
        · exact absurd hopen (Nat.not_lt.mpr (Nat.le_of_lt hbefore))
        · exact hclosed ⟨statement, hmem, hopen, hle⟩
    · have hholds : BodyStatement.holds ⟨kind, pos, stop⟩ p = true :=
        Bool.and_eq_true_iff.mpr ⟨decide_eq_true hafter, decide_eq_true hp⟩
      rw [List.countP_cons, htiles.countP_eq_zero hafter, if_pos hholds]
      exact .inl rfl

/-- A loose token opens no statement. -/
theorem not_canStart_of_isLoose {p : Nat} (h : IsLoose tokens start p) :
    ¬ CanStart tokens start p := by
  rintro ⟨token, htoken, -, hopens⟩
  have hsame {token' : Token} (h : tokens[p]? = some token') : token = token' :=
    Option.some.inj (htoken.symm.trans h)
  cases h with
  | closeParen hclose =>
    obtain rfl := hsame hclose
    exact hopens.notStray .closeParen
  | values hvalues hword =>
    obtain rfl := hsame hvalues
    exact hopens.notStray (.values hword)
  | cutOff hinside hword hcase hcut =>
    obtain rfl := hsame hinside
    obtain ⟨cut, -, hlt, -, hblocks⟩ := hcut
    exact hopens.notStray (.inBlock hword hcase (hblocks p (Nat.le_of_lt hlt) (Nat.le_refl p)))

/-- What is left out belongs to no statement. -/
theorem leavesOut {p : Nat} (h : Tiles tokens start found pos)
    (hleft : IsLeftOut tokens start found p) : found.countP (·.holds p) = 0 := by
  refine List.countP_eq_zero.mpr fun statement hmem hholds => ?_
  obtain ⟨hstart, hstop⟩ := Bool.and_eq_true_iff.mp hholds
  have hstart := of_decide_eq_true hstart
  have hstop := of_decide_eq_true hstop
  rcases hleft with hseparator | ⟨hclosed, hloose⟩
  · exact h.not_isSeparator statement hmem p hstart hstop hseparator
  · rcases Nat.lt_or_eq_of_le hstart with hlt | heq
    · exact hclosed ⟨statement, hmem, hlt, Nat.le_of_lt hstop⟩
    · exact not_canStart_of_isLoose hloose (heq ▸ h.canStart statement hmem)

/-- Statements that reach the end of the tokens are a tiling of them. -/
theorem tiling (h : Tiles tokens start found tokens.length) :
    Tiling tokens start found.reverse where
  within statement hmem := h.within.2 statement (List.mem_reverse.mp hmem)
  starts statement hmem := by
    obtain ⟨token, htoken, hdepth, hopens⟩ := h.canStart statement (List.mem_reverse.mp hmem)
    exact ⟨token, htoken, hopens.notBlank, hdepth⟩
  stops := List.isChain_reverse.mpr h.stops.2
  last := by
    rw [List.getLast?_reverse]
    exact h.stops.1
  -- The list is turned round, which changes no count and no membership.
  covers p token hstart htoken hblank hleft := by
    obtain ⟨hlt, -⟩ := List.getElem?_eq_some_iff.mp htoken
    have hleft' : ¬ IsLeftOut tokens start found p := by
      simpa only [IsLeftOut, IsOpen, List.mem_reverse] using hleft
    rw [List.countP_reverse]
    rcases h.covers hstart hlt with hone | ⟨gap, hgap⟩ | hout
    · exact hone
    · rw [htoken] at hgap
      cases hgap
      cases hblank
    · exact absurd hout hleft'
  leavesOut p hleft := by
    rw [List.countP_reverse]
    exact h.leavesOut (by simpa only [IsLeftOut, IsOpen, List.mem_reverse] using hleft)

end Tiles

/-! ## Reading a body -/

/-- What has been read up to a place is tiled, up to the statement that is open. -/
inductive Covers (tokens : List Token) (start pos : Nat) (s : State) : Prop where
  | closed :
      s.current = none → Tiles tokens start s.finished pos →
      (∀ statement ∈ s.finished, statement.stop < pos) →
      (0 < (nestingAt tokens start pos).blocks → IsCutOff tokens start pos) →
      Covers tokens start pos s
  | opened {opened : OpenStatement} :
      s.current = some opened → Tiles tokens start s.finished opened.start →
      CanStart tokens start opened.start → opened.start < pos →
      (∀ p, opened.start ≤ p → p < pos → ¬ IsSeparator tokens start p) →
      Covers tokens start pos s

section Reading

variable {tokens : List Token} {start pos : Nat} {s : State} {token : Token}

theorem covers_start (tokens : List Token) (start : Nat) : Covers tokens start start {} := by
  refine .closed rfl .nil nofun fun h => ?_
  rw [nestingAt_self] at h
  cases h

theorem blocks_next (hstart : start ≤ pos) (htoken : tokens[pos]? = some token) :
    (nestingAt tokens start (pos + 1)).blocks = (nestingAt tokens start pos).blocks ∨
      (nestingAt tokens start (pos + 1)).blocks =
        nextBlocks (nestingAt tokens start pos).blocks token := by
  rw [nestingAt_succ hstart htoken]
  unfold Nesting.next
  dsimp only
  split
  · exact .inr rfl
  · exact .inl rfl

theorem nextBlocks_le {blocks : Nat} (h : token.bareWord? ≠ some "CASE") :
    nextBlocks blocks token ≤ blocks := by
  unfold nextBlocks
  rw [if_neg h]
  split <;> omega

/-- A block that is cut off stays so over every token that opens no statement. -/
theorem isCutOff_succ (hstart : start ≤ pos) (htoken : tokens[pos]? = some token)
    (hcase : token.bareWord? ≠ some "CASE")
    (hcut : 0 < (nestingAt tokens start pos).blocks →
      IsCutOff tokens start pos ∨ IsSeparator tokens start pos)
    (hblocks : 0 < (nestingAt tokens start (pos + 1)).blocks) :
    IsCutOff tokens start (pos + 1) := by
  have hbefore : 0 < (nestingAt tokens start pos).blocks := by
    rcases blocks_next hstart htoken with hsame | hnext
    · exact hsame ▸ hblocks
    · exact Nat.lt_of_lt_of_le (hnext ▸ hblocks) (nextBlocks_le hcase)
  -- Cut off before, or cut off by this very semicolon: the block was open, and no `END` has closed
  -- it.
  rcases hcut hbefore with ⟨cut, hle, hlt, hseparator, hinside⟩ | hseparator
  · refine ⟨cut, hle, Nat.lt_succ_of_lt hlt, hseparator, fun p hcut hp => ?_⟩
    rcases Nat.le_succ_iff.mp hp with hp | rfl
    · exact hinside p hcut hp
    · exact hblocks
  · refine ⟨pos, hstart, Nat.lt_succ_self pos, hseparator, fun p hcut hp => ?_⟩
    rcases Nat.le_succ_iff.mp hp with hp | rfl
    · obtain rfl := Nat.le_antisymm hp hcut
      exact hbefore
    · exact hblocks

theorem isLoose_of_isStray {blocks : Nat} (htoken : tokens[pos]? = some token)
    (hdepth : (nestingAt tokens start pos).depth = 0)
    (hcut : 0 < blocks → IsCutOff tokens start pos) (h : IsStray blocks token) :
    IsLoose tokens start pos ∧ token.bareWord? ≠ some "CASE" := by
  cases h with
  | closeParen => exact ⟨.closeParen htoken hdepth, nofun⟩
  | values hword => exact ⟨.values htoken hword, by rw [hword]; decide⟩
  | inBlock hword hcase hblock =>
    exact ⟨.cutOff htoken hword hcase (hcut hblock), fun h =>
      hcase (Option.some.inj (hword.symm.trans h))⟩

/-- The open statement takes a token that is no semicolon outside parentheses. -/
theorem not_isSeparator_succ {first : Nat} (hnone : ¬ IsSeparator tokens start pos)
    (h : ∀ p, first ≤ p → p < pos → ¬ IsSeparator tokens start p) :
    ∀ p, first ≤ p → p < pos + 1 → ¬ IsSeparator tokens start p := by
  intro p hp hlt
  rcases Nat.lt_succ_iff_lt_or_eq.mp hlt with hlt | rfl
  · exact h p hp hlt
  · exact hnone

/-- A token that can start a statement is all that there is of it so far. -/
theorem canStart_and_alone (htoken : tokens[pos]? = some token)
    (hdepth : (nestingAt tokens start pos).depth = 0)
    (h : Opens (nestingAt tokens start pos).blocks token) :
    CanStart tokens start pos ∧ ∀ p, pos ≤ p → p < pos + 1 → ¬ IsSeparator tokens start p := by
  refine ⟨⟨token, htoken, hdepth, h⟩, not_isSeparator_succ ?_ fun p hle hlt => by omega⟩
  rintro ⟨hsemicolon, -⟩
  exact h.notSemicolon (Option.some.inj (htoken.symm.trans hsemicolon))

/-- Every step keeps what has been read tiled. -/
theorem Covers.step (h : Covers tokens start pos s) (hs : Located tokens start pos s)
    (hstart : start ≤ pos) (htoken : tokens[pos]? = some token) (rest : List Token) :
    Covers tokens start (pos + 1) (step s pos token rest) := by
  have heffect : Effect s pos token (Body.step s pos token rest) := effect_step hs.opened
  -- Whether a statement is open, and what the step does to it: of the ten pairs five cannot be.
  cases h with
  | closed hnone htiles hbefore hcut =>
    have hdepth : (nestingAt tokens start pos).depth = 0 := hs.depth ▸ hs.opened hnone
    cases heffect with
    | passes _ hnone' hsame hcause =>
      have hpassed : IsPassed tokens start s.finished pos ∧ token.bareWord? ≠ some "CASE" := by
        rcases hcause with hblank | rfl | hstray
        · cases token with
          | blank gap => exact ⟨.inr ⟨hbefore, .inl ⟨gap, htoken⟩⟩, nofun⟩
          | _ => cases hblank
        · exact ⟨.inl ⟨htoken, hdepth⟩, nofun⟩
        · obtain ⟨hloose, hcase⟩ := isLoose_of_isStray htoken hdepth hcut (hs.blocks ▸ hstray)
          exact ⟨.inr ⟨hbefore, .inr hloose⟩, hcase⟩
      refine .closed hnone' (hsame ▸ htiles.pass hpassed.1) ?_ ?_
      · rw [hsame]
        exact fun statement hmem => Nat.lt_succ_of_lt (hbefore statement hmem)
      · exact isCutOff_succ hstart htoken hpassed.2 fun h => .inl (hcut h)
    | @opens opened _ hopened hpos hsame hopens =>
      obtain ⟨hstarts, halone⟩ := canStart_and_alone htoken hdepth (hs.blocks ▸ hopens)
      subst hpos
      exact .opened hopened (hsame ▸ htiles) hstarts (Nat.lt_succ_self _) halone
    | keeps hsome => rw [hnone] at hsome; cases hsome
    | follows hsome => rw [hnone] at hsome; cases hsome
    | ends hsome => rw [hnone] at hsome; cases hsome
  | @opened opened hsome htiles hstarts hlt hinside =>
    have hfinished : Tiles tokens start (⟨opened.kind, opened.start, pos⟩ :: s.finished) pos :=
      htiles.statement hstarts hlt hinside
    cases heffect with
    | passes hnone => rw [hsome] at hnone; cases hnone
    | opens hnone => rw [hsome] at hnone; cases hnone
    | keeps hsome' hopened' hpos hsame hsemicolon =>
      obtain rfl := Option.some.inj (hsome.symm.trans hsome')
      refine .opened hopened' ?_ ?_ ?_ ?_
      · rw [hsame, hpos]
        exact htiles
      · rw [hpos]
        exact hstarts
      · rw [hpos]
        exact Nat.lt_succ_of_lt hlt
      · rw [hpos]
        refine not_isSeparator_succ ?_ hinside
        rintro ⟨hseparator, hdepth⟩
        refine hsemicolon (Option.some.inj (htoken.symm.trans hseparator)) ?_
        rw [hs.depth, hdepth]
    | @follows opened' next hsome' hnext hpos hcons hdepth hopens =>
      obtain rfl := Option.some.inj (hsome.symm.trans hsome')
      obtain ⟨hstarts', halone⟩ :=
        canStart_and_alone htoken (hs.depth ▸ hdepth) (hs.blocks ▸ hopens)
      subst hpos
      exact .opened hnext (hcons ▸ hfinished) hstarts' (Nat.lt_succ_self _) halone
    | ends hsome' hnone hcons hdepth hsemicolon =>
      obtain rfl := Option.some.inj (hsome.symm.trans hsome')
      subst hsemicolon
      have hseparator : IsSeparator tokens start pos := ⟨htoken, hs.depth ▸ hdepth⟩
      refine .closed hnone (hcons ▸ hfinished.pass (.inl hseparator)) ?_ ?_
      · rw [hcons]
        exact fun statement hmem => Nat.lt_succ_of_le (hfinished.within.2 statement hmem).2.2
      · exact isCutOff_succ hstart htoken nofun fun _ => .inr hseparator

/-- With the statement that is open at the end, all tokens are tiled. -/
theorem Covers.tiles (h : Covers tokens start pos s) :
    Tiles tokens start (s.close pos).finished pos := by
  unfold State.close
  cases h with
  | closed hnone htiles =>
    rw [hnone]
    exact htiles
  | opened hsome htiles hstarts hlt hinside =>
    rw [hsome]
    exact htiles.statement hstarts hlt hinside

/-- The statements of a body, the last one first, tile its tokens. -/
theorem tiles_statements (hstart : start ≤ tokens.length) :
    Tiles tokens start (statements tokens start).reverse tokens.length := by
  obtain ⟨s, ⟨-, hcovers⟩, hrun⟩ := exists_state_at
    (fun pos s => Located tokens start pos s ∧ Covers tokens start pos s) hstart (Nat.le_refl _)
    ⟨located_start tokens start, covers_start tokens start⟩
    fun pos s token hpos _ htoken ⟨hs, hcovers⟩ =>
      ⟨hs.step hpos htoken _, hcovers.step hs hpos htoken _⟩
  rw [List.drop_length] at hrun
  rw [statements, hrun, List.reverse_reverse]
  exact hcovers.tiles

/-- Every body is tiled by its statements, whether its parentheses and blocks are in pairs or not:
they are in order, each starts outside parentheses at a token that is no blank and goes on to the
next one, to a semicolon or to the end, and every token that is no blank belongs to exactly one of
them, unless it is a semicolon or opens nothing where no statement is open. -/
theorem statements_tile (tokens : List Token) (start : Nat) :
    Tiling tokens start (statements tokens start) := by
  rcases Nat.lt_or_ge tokens.length start with hlt | hle
  · -- Beyond the last token there is nothing to cover.
    have hnone : statements tokens start = [] := by
      rw [statements, List.drop_eq_nil_of_le (Nat.le_of_lt hlt)]
      rfl
    rw [hnone]
    refine ⟨nofun, nofun, .nil, nofun, fun pos token hpos htoken => ?_, fun _ _ => rfl⟩
    obtain ⟨hlength, -⟩ := List.getElem?_eq_some_iff.mp htoken
    omega
  · rw [← List.reverse_reverse (statements tokens start)]
    exact (tiles_statements hle).tiling

end Reading

end Body

end SchemaPlan.Sql
