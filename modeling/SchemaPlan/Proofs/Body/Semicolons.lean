import SchemaPlan.Proofs.Body.Mirroring
import SchemaPlan.Proofs.Body.Nesting
import SchemaPlan.Proofs.Body.Splitting

/-!
# Bodies that a semicolon joins

A semicolon outside parentheses and `CASE` blocks forgets all that has been read before it, apart
from the finished statements, and nothing in front of it looks beyond it. So the statements of two
bodies with a semicolon between them are those of the first one, followed by those of the second one
further on.

* `run_append_semicolon`: the tokens before a semicolon are read as if they were the whole body.
* `run_mirrors`: tokens are read in the same way wherever they stand.
-/

namespace SchemaPlan.Sql

/-- A statement so many tokens further on. -/
def BodyStatement.shift (statement : BodyStatement) (offset : Nat) : BodyStatement :=
  ⟨statement.kind, statement.start + offset, statement.stop + offset⟩

namespace Body

/-! ## Looking ahead to a semicolon -/

section Ahead

variable {tokens after : List Token} {depth : Nat}

theorem foldl_nextDepth_filter (tokens : List Token) (depth : Nat) :
    (tokens.filter (!·.isBlank)).foldl nextDepth depth = tokens.foldl nextDepth depth := by
  induction tokens generalizing depth with
  | nil => rfl
  | cons token rest ih =>
    cases token with
    | blank gap => exact ih depth
    | _ => exact ih _

/-- The parenthesis that closes the open ones is found among tokens that close them. -/
theorem afterClosing_append (hdepth : 0 < depth) (h : tokens.foldl nextDepth depth = 0) :
    afterClosing depth (tokens ++ after) = afterClosing depth tokens ++ after := by
  induction tokens generalizing depth with
  | nil => exact absurd h (Nat.ne_of_gt hdepth)
  | cons token rest ih =>
    rw [List.foldl_cons] at h
    rw [List.cons_append]
    unfold afterClosing
    split
    · exact ih (Nat.succ_pos depth) h
    · split
      · rfl
      · exact ih (by omega) h
    · rename_i hopen hclose
      rw [nextDepth_of_ne hopen hclose] at h
      exact ih hdepth h

/-- No query begins with a semicolon, and no `AS (` goes on beyond one. -/
theorem beginsQuery_append_semicolon (tokens after : List Token) :
    beginsQuery (tokens ++ .mark .semicolon :: after) = beginsQuery tokens := by
  cases tokens with
  | nil =>
    rw [List.nil_append, beginsQuery_cons, show Token.isBareWord "AS" (.mark .semicolon) = false
      from rfl, Bool.and_false]
    rfl
  | cons token rest =>
    rw [List.cons_append, beginsQuery_cons, beginsQuery_cons]
    cases rest with
    | nil => rfl
    | cons second rest => rfl

/-- Nothing before a semicolon looks beyond it, if all parentheses are closed there. -/
theorem startsCte_append_semicolon (h : tokens.foldl nextDepth 0 = 0) :
    startsCte (tokens ++ .mark .semicolon :: after) = startsCte tokens := by
  rw [startsCte_eq, startsCte_eq, List.filter_append, filter_mark]
  rw [← foldl_nextDepth_filter] at h
  generalize tokens.filter (!·.isBlank) = words at h
  cases words with
  | nil => rfl
  | cons first rest =>
    cases first with
    | word text quote =>
      -- Columns in parentheses end before the semicolon, since the parentheses are closed there.
      have hcolumns : afterColumns (rest ++ .mark .semicolon :: after.filter (!·.isBlank)) =
          afterColumns rest ++ .mark .semicolon :: after.filter (!·.isBlank) := by
        cases rest with
        | nil => rfl
        | cons second inner =>
          by_cases hparen : second = .mark .openParen
          · subst hparen
            exact afterClosing_append Nat.one_pos h
          · rw [List.cons_append, afterColumns_cons hparen, afterColumns_cons hparen]
            rfl
      dsimp only [List.cons_append]
      rw [hcolumns, beginsQuery_append_semicolon]
    | _ => rfl

end Ahead

/-! ## Reading up to a semicolon and on from it -/

section Reading

variable {s t : State} {pos pos' : Nat} {tokens after : List Token}

theorem depth_foldl_next (tokens : List Token) (n : Nesting) :
    (tokens.foldl Nesting.next n).depth = tokens.foldl nextDepth n.depth := by
  induction tokens generalizing n with
  | nil => rfl
  | cons token rest ih => exact ih (n.next token)

theorem nesting_run (s : State) (pos : Nat) (tokens : List Token) :
    (run s pos tokens).nesting = tokens.foldl Nesting.next s.nesting := by
  induction tokens generalizing s pos with
  | nil => rfl
  | cons token rest ih => rw [run, ih, nesting_step, List.foldl_cons]

/-- The tokens before a semicolon are read as if nothing followed, if all parentheses are closed
there. -/
theorem run_append_semicolon (h : tokens.foldl nextDepth s.depth = 0) :
    run s pos (tokens ++ .mark .semicolon :: after) =
      run (step (run s pos tokens) (pos + tokens.length) (.mark .semicolon) after)
        (pos + tokens.length + 1) after := by
  induction tokens generalizing s pos with
  | nil => rfl
  | cons token rest ih =>
    rw [List.foldl_cons, ← depth_step s pos token rest] at h
    have hstep : step s pos token (rest ++ .mark .semicolon :: after) = step s pos token rest := by
      refine step_congr fun hword hdepth => startsCte_append_semicolon ?_
      rw [depth_step, hdepth] at h
      cases token with
      | word text quote => exact h
      | _ => cases hword
    rw [List.cons_append, run, hstep, ih h, run, List.length_cons, Nat.add_right_comm, Nat.add_assoc]

/-- Tokens are read in the same way from two states that are alike, wherever they stand. -/
theorem run_mirrors {related : Nat → Nat → Prop} {base : List BodyStatement}
    (h : Mirrors related base s t) (hdepth : s.depth = t.depth)
    (hpos : ∀ offset, related (pos + offset) (pos' + offset)) :
    Mirrors related base (run s pos tokens) (run t pos' tokens) := by
  induction tokens generalizing s t pos pos' with
  | nil => exact h
  | cons token rest ih =>
    refine ih (h.step (hpos 0) (by rw [hdepth]) fun _ _ => rfl) ?_ fun offset => ?_
    · rw [depth_step, depth_step, hdepth]
    · rw [Nat.add_assoc, Nat.add_assoc]
      exact hpos (1 + offset)

/-- A semicolon outside parentheses and blocks leaves nothing of a state but the statements. -/
theorem mirrors_semicolon (related : Nat → Nat → Prop) (h : s.nesting = {}) :
    Mirrors related (s.close pos).finished (step s pos (.mark .semicolon) after) {} := by
  have hdepth : s.depth = 0 := congrArg Nesting.depth h
  have hclose : (s.close pos).current = none := by
    unfold State.close
    split
    · rfl
    · assumption
  have hstep : step s pos (.mark .semicolon) after = { s.close pos with previous := none } :=
    if_pos hdepth
  rw [hstep]
  refine ⟨⟨[], rfl, .nil⟩, ?_, ?_, rfl⟩
  · dsimp only
    rw [hclose]
    exact .none
  · exact (congrArg Nesting.blocks (nesting_close s pos)).trans (congrArg Nesting.blocks h)

theorem eq_map_shift {offset : Nat} {moved found : List BodyStatement}
    (h : List.Forall₂ (SameStatement fun p p' => p = p' + offset) moved found) :
    moved = found.map (·.shift offset) := by
  induction h with
  | nil => rfl
  | @cons a b _ _ hsame _ ih =>
    obtain ⟨kind, start, stop⟩ := a
    obtain ⟨rfl, rfl, rfl⟩ := hsame
    rw [ih]
    rfl

/-- Behind a semicolon that cuts nothing off, tokens are read as from their beginning, only further
on. -/
theorem finished_after_semicolon (h : s.nesting = {}) :
    ((run (step s pos (.mark .semicolon) tokens) (pos + 1) tokens).close
        (tokens.length + (pos + 1))).finished.reverse =
      (s.close pos).finished.reverse ++ (statements tokens 0).map (·.shift (pos + 1)) := by
  have hdepth : (step s pos (.mark .semicolon) tokens).depth = ({} : State).depth :=
    (depth_step s pos _ tokens).trans (congrArg Nesting.depth h)
  have hrun : Mirrors (fun p p' => p = p' + (pos + 1)) (s.close pos).finished
      (run (step s pos (.mark .semicolon) tokens) (pos + 1) tokens) (run {} 0 tokens) :=
    run_mirrors (mirrors_semicolon _ h) hdepth fun offset => by omega
  have hclose : Mirrors (fun p p' => p = p' + (pos + 1)) (s.close pos).finished
      ((run (step s pos (.mark .semicolon) tokens) (pos + 1) tokens).close
        (tokens.length + (pos + 1)))
      ((run {} 0 tokens).close tokens.length) := hrun.close rfl
  obtain ⟨own, hfinished, hown⟩ := hclose.finished
  rw [hfinished, List.reverse_append, eq_map_shift hown, statements, List.drop_zero,
    List.map_reverse]

/-- If all parentheses and `CASE` blocks are closed before a semicolon, the statements around it are
those before it, followed by those behind it. -/
theorem statements_append_semicolon {first : List Token} {start : Nat} (hstart : start ≤ first.length)
    (hclosed : nestingAt first start first.length = {}) (second : List Token) :
    statements (first ++ .mark .semicolon :: second) start =
      statements first start ++ (statements second 0).map (·.shift (first.length + 1)) := by
  rw [nestingAt, between, List.take_length, nestingOf] at hclosed
  have hdepth : (first.drop start).foldl nextDepth ({} : State).depth = 0 :=
    (depth_foldl_next _ {}).symm.trans (congrArg Nesting.depth hclosed)
  have hnesting : (run {} start (first.drop start)).nesting = {} :=
    (nesting_run {} start _).trans hclosed
  have hlength : start + (first.drop start).length = first.length := by
    rw [List.length_drop, Nat.add_sub_cancel' hstart]
  have htotal : (first ++ .mark .semicolon :: second).length =
      second.length + (first.length + 1) := by
    rw [List.length_append, List.length_cons]
    omega
  rw [statements, List.drop_append_of_le_length hstart, run_append_semicolon hdepth, hlength,
    htotal, finished_after_semicolon hnesting]
  rfl

/-- `insert t select 1 union all`. -/
def unfinished : List Token :=
  [.word "insert" .bare, .word "t" .bare, .word "select" .bare, .number "1" false,
    .word "union" .bare, .word "all" .bare]

/-- An `INSERT` that waits for another select takes none from behind a semicolon:
`insert t select 1 union all; select 2` has two statements. -/
theorem statements_append_semicolon_of_unfinished :
    statements (unfinished ++ .mark .semicolon :: [.word "select" .bare, .number "2" false]) 0 =
        statements unfinished 0 ++
          (statements [.word "select" .bare, .number "2" false] 0).map (·.shift 7) ∧
      statements (unfinished ++ .mark .semicolon :: [.word "select" .bare, .number "2" false]) 0 =
        [⟨.insert, 0, 6⟩, ⟨.select, 7, 9⟩] :=
  ⟨statements_append_semicolon (by decide) (by decide +kernel) _, by decide +kernel⟩

end Reading

end Body

end SchemaPlan.Sql
