import SchemaPlan.Proofs.Body.ClauseWords
import SchemaPlan.Proofs.Procedure.InsertThenSelect

/-!
# Clause words in the body of a procedure

A select with `OFFSET .. FETCH` and a `GRANT` of `SELECT` are cut in a procedure's body at the words
that are met as starting words. What is cut off at a `SELECT` is read as a query, and the procedure
does not resolve if it is none.
-/

namespace SchemaPlan

open SchemaPlan.Sql

section Bodies

variable {start body : Cursor} {definition : ProcedureDefinition} {base head first last : Nat}
  {kind : StatementKind}

/-- A select statement or a statement on permissions of a procedure's body is found as a whole exactly
if it has none of the clause words that are met as starting words. Otherwise it ends at the first one,
which starts another statement; and if that is a select that cannot be read, the procedure does not
resolve. -/
theorem statement_whole_iff (hread : OptionT.run Definition.procedure start = (some definition, body))
    (hfresh : Body.FreshAt (tokensIn body) body.pos base)
    (h : Body.Opening (tokensIn body) base head first kind)
    (hgoes : Body.GoesOn (tokensIn body) base head last kind) :
    ((∃ stop, last < stop ∧ ⟨kind, first, stop⟩ ∈ body.statements body.pos) ↔
      ∀ pos, head < pos → pos ≤ last → ¬ Body.ClauseWord (tokensIn body) base kind pos) ∧
    ∀ pos, head < pos → pos ≤ last → Body.ClauseWord (tokensIn body) base kind pos →
      (∀ p, head < p → p < pos → ¬ Body.ClauseWord (tokensIn body) base kind p) →
      ⟨kind, first, pos⟩ ∈ body.statements body.pos ∧
        ∃ kind' stop, ⟨kind', pos, stop⟩ ∈ body.statements body.pos ∧
          (Body.outerWord? (tokensIn body) base pos = some "SELECT" → kind' = .select ∧
            ∀ failure, Grammar.parseQuery (body.slice pos stop) = .error failure →
              ∀ (options : LoadOptions) (model : SchemaModel) (procedure : Procedure),
                buildProcedure options model definition ≠ .ok procedure) := by
  refine ⟨Body.exists_whole_iff hfresh h hgoes, fun pos hpos hle hword hnone => ?_⟩
  obtain ⟨hcut, kind', stop, hnext, hselect⟩ :=
    Body.cut_at_clauseWord hfresh h hgoes hpos hle hword hnone
  refine ⟨hcut, kind', stop, hnext, fun houter => ⟨hselect houter, ?_⟩⟩
  obtain rfl := hselect houter
  intro failure hfailure options model procedure hbuild
  obtain ⟨query, hquery, -⟩ := hasAnswer_of_mem_statements hread hbuild hnext
  rw [hquery] at hfailure
  cases hfailure

end Bodies

/-! ## Two procedures -/

/-- `create procedure p as grant select, update on t to u`. -/
def grantedSelect : List Token :=
  [.word "create" .bare, .blank .space, .word "procedure" .bare, .blank .space, .word "p" .bare,
    .blank .space, .word "as" .bare, .blank .space, .word "grant" .bare, .blank .space,
    .word "select" .bare, .mark .comma, .blank .space, .word "update" .bare, .blank .space,
    .word "on" .bare, .blank .space, .word "t" .bare, .blank .space, .word "to" .bare, .blank .space,
    .word "u" .bare]

theorem opening_grantedSelect : Body.Opening grantedSelect 7 8 8 .other where
  le_head := by decide
  begins := @Body.Begins.permissions _ _ _ "GRANT" (by decide) (by decide)
  notJoined := by decide
  notInMerge := by decide
  noSemicolon := by decide
  noValues := by decide

theorem clauseWord_grantedSelect : Body.ClauseWord grantedSelect 7 .other 10 :=
  @Body.ClauseWord.permission _ _ _ (.word "grant" .bare) "SELECT" (by decide) (by decide)
    (by decide) (.inr ⟨"GRANT", by decide, rfl⟩)

theorem goesOn_grantedSelect : Body.GoesOn grantedSelect 7 8 21 .other where
  le_last := by decide
  within := by decide
  noSemicolon pos _ hle := by
    have hnone : ∀ pos < 22, ¬ Body.IsSeparator grantedSelect 7 pos := by decide
    exact hnone pos (Nat.lt_succ_of_le hle)
  clauseWords pos hpos hle hstarter := by
    have hwords : ∀ pos < 22, 8 < pos → (Body.starter? grantedSelect 7 pos).isSome = true →
        pos = 10 ∨ pos = 13 := by decide
    rcases hwords pos (Nat.lt_succ_of_le hle) hpos hstarter with rfl | rfl
    · exact clauseWord_grantedSelect
    · exact @Body.ClauseWord.permission _ _ _ (.mark .comma) "UPDATE" (by decide) (by decide)
        (by decide) (.inl rfl)

/-- A `GRANT` ends at its first permission, and a select starts there. -/
theorem statement_whole_iff_of_grantedSelect :
    ∃ start body definition stop,
      OptionT.run Definition.procedure start = (some definition, body) ∧
      Body.FreshAt (tokensIn body) body.pos 7 ∧ Body.Opening (tokensIn body) 7 8 8 .other ∧
      Body.GoesOn (tokensIn body) 7 8 21 .other ∧
      (¬ ∃ stop, 21 < stop ∧ ⟨.other, 8, stop⟩ ∈ body.statements body.pos) ∧
      ⟨.other, 8, 10⟩ ∈ body.statements body.pos ∧
      ⟨.select, 10, stop⟩ ∈ body.statements body.pos := by
  obtain ⟨start, body, definition, -, hread, htest⟩ :=
    exists_read_of_any "create procedure p as grant select, update on t to u"
      (fun _ body => isReadAs grantedSelect 7 body) (by decide +kernel)
  obtain ⟨htokens, hpos⟩ := of_decide_eq_true htest
  have hfresh : Body.FreshAt (tokensIn body) body.pos 7 := hpos ▸ .start
  have hopening : Body.Opening (tokensIn body) 7 8 8 .other := htokens ▸ opening_grantedSelect
  have hgoes : Body.GoesOn (tokensIn body) 7 8 21 .other := htokens ▸ goesOn_grantedSelect
  have hword : Body.ClauseWord (tokensIn body) 7 .other 10 := htokens ▸ clauseWord_grantedSelect
  obtain ⟨hwhole, hcut⟩ := statement_whole_iff hread hfresh hopening hgoes
  -- Between the first word and the `SELECT` there is only a blank.
  have hnone : ∀ p, 8 < p → p < 10 → ¬ Body.ClauseWord (tokensIn body) 7 .other p := by
    rw [htokens]
    intro p hp hlt hclause
    obtain rfl : p = 9 := by omega
    obtain ⟨kind, hstarter, -⟩ := hclause.exists_starter
    have hblank : Body.starter? grantedSelect 7 9 = none := by decide
    rw [hblank] at hstarter
    cases hstarter
  obtain ⟨hgrant, kind, stop, hselect, hkind⟩ := hcut 10 (by decide) (by decide) hword hnone
  obtain ⟨rfl, -⟩ := hkind (by rw [htokens]; decide)
  exact ⟨start, body, definition, stop, hread, hfresh, hopening, hgoes,
    fun h => hwhole.mp h 10 (by decide) (by decide) hword, hgrant, hselect⟩

/-- `FETCH` ends the select of `select 1 as a order by a offset 0 rows fetch next 5 rows only`. The
`GRANT` of `grant select, update on t to u` is three statements, and the procedure does not resolve
because the second one is no query. -/
theorem statements_cut_at_clause_words :
    (∃ start body definition,
      Cursor.ofText?
        "create procedure p as select 1 as a order by a offset 0 rows fetch next 5 rows only" =
          some start ∧
      OptionT.run Definition.procedure start = (some definition, body) ∧
      body.statements body.pos = [⟨.select, 8, 28⟩, ⟨.other, 28, 37⟩]) ∧
    ∃ start body definition,
      Cursor.ofText? "create procedure p as grant select, update on t to u" = some start ∧
      OptionT.run Definition.procedure start = (some definition, body) ∧
      body.statements body.pos = [⟨.other, 8, 10⟩, ⟨.select, 10, 13⟩, ⟨.update, 13, 22⟩] ∧
      buildProcedure {} { defaultSchema := "dbo" } definition =
        .error (.unresolvedProcedure "[dbo].[p]" 1
          (.malformedSelect "sql parser error: unexpected text at Line: 1")) := by
  constructor
  · obtain ⟨start, body, definition, hstart, hread, htest⟩ :=
      exists_read_of_any
        "create procedure p as select 1 as a order by a offset 0 rows fetch next 5 rows only"
        (fun _ body => body.statements body.pos == [⟨.select, 8, 28⟩, ⟨.other, 28, 37⟩])
        (by decide +kernel)
    exact ⟨start, body, definition, hstart, hread, beq_iff_eq.mp htest⟩
  · obtain ⟨start, body, definition, hstart, hread, htest⟩ :=
      exists_read_of_any "create procedure p as grant select, update on t to u"
        (fun definition body =>
          body.statements body.pos == [⟨.other, 8, 10⟩, ⟨.select, 10, 13⟩, ⟨.update, 13, 22⟩] &&
            buildProcedure {} { defaultSchema := "dbo" } definition ==
              .error (.unresolvedProcedure "[dbo].[p]" 1
                (.malformedSelect "sql parser error: unexpected text at Line: 1")))
        (by decide +kernel)
    obtain ⟨hstatements, hfails⟩ := Bool.and_eq_true_iff.mp htest
    exact ⟨start, body, definition, hstart, hread, beq_iff_eq.mp hstatements, beq_iff_eq.mp hfails⟩

/-- A permission that starts no statement leaves its `GRANT` whole. -/
example : Body.statements [.word "grant" .bare, .blank .space, .word "references" .bare, .blank .space,
    .word "on" .bare, .blank .space, .word "t" .bare] 0 = [⟨.other, 0, 7⟩] := by decide +kernel

end SchemaPlan
