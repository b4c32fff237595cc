import SchemaPlan.Proofs.Body.Splitting
import SchemaPlan.Proofs.Definition.Names

/-!
# Constraints in front of other statements

Behind what a constraint says, everything up to the next comma or closing parenthesis is passed over.
This goes for the statements that follow as well: of a further change to a table, the constraints
behind its first comma are read as constraints of the first table.

* `gives_addedConstraints_append`, `continues_addedConstraints`: what is read of several changes to
  tables.
-/

namespace SchemaPlan

namespace Sql

open Body

/-! ## Commas outside parentheses -/

/-- The tokens from the next comma or closing parenthesis on, outside the groups that open on the way,
of which `depth` are open. -/
def fromDelimiter (depth : Nat) : List Token → List Token
  | [] => []
  | token :: rest =>
    match token with
    | .mark .comma => if depth = 0 then token :: rest else fromDelimiter depth rest
    | .mark .openParen => fromDelimiter (depth + 1) rest
    | .mark .closeParen => if depth = 0 then token :: rest else fromDelimiter (depth - 1) rest
    | _ => fromDelimiter depth rest

theorem rest_skipToDelimiter (depth : Nat) (c : Cursor) :
    (c.skipToDelimiter depth).rest = fromDelimiter depth c.rest := by
  fun_induction Cursor.skipToDelimiter depth c with
  | case1 c h htoken => rw [Cursor.rest_of_lt h, htoken, fromDelimiter, if_pos rfl]
  | case2 depth c h next htoken hdepth ih =>
    rw [ih, Cursor.rest_of_lt h, htoken, fromDelimiter, if_neg hdepth]
  | case3 depth c h next htoken ih => rw [ih, Cursor.rest_of_lt h, htoken, fromDelimiter]
  | case4 c h htoken => rw [Cursor.rest_of_lt h, htoken, fromDelimiter, if_pos rfl]
  | case5 depth c h next htoken hdepth ih =>
    rw [ih, Cursor.rest_of_lt h, htoken, fromDelimiter, if_neg hdepth]
  | case6 depth c h next hcomma hopen hclose ih =>
    rw [ih, Cursor.rest_of_lt h, fromDelimiter]
    all_goals assumption
  | case7 depth c h => rw [Cursor.rest_of_not_lt h, fromDelimiter]

theorem Body.Balanced.of_token {token : Token} {rest : List Token} (h : Balanced (token :: rest))
    (hopen : token ≠ .mark .openParen) : Balanced rest := by
  cases h with
  | token _ _ hrest => exact hrest
  | group => exact absurd rfl hopen

/-- A group ends with the parenthesis that closes it. -/
theorem Body.Balanced.of_group {inner rest : List Token}
    (h : Balanced (.mark .openParen :: (inner ++ .mark .closeParen :: rest)))
    (hinner : Balanced inner) : Balanced rest := by
  have hrest := afterClosing_balanced hinner 0 (.mark .closeParen :: rest)
  generalize htokens : inner ++ .mark .closeParen :: rest = tokens at h hrest
  cases h with
  | token hopen => exact absurd rfl hopen
  | @group inner' rest' hinner' hrest' =>
    rw [afterClosing_balanced hinner' 0] at hrest
    obtain rfl : rest' = rest := hrest
    exact hrest'

namespace Flat

variable {tokens more : List Token}

/-- Behind tokens with parentheses in pairs stand such tokens again. -/
theorem balanced_of_append (h : Flat tokens) (hall : Balanced (tokens ++ more)) : Balanced more := by
  induction h with
  | nil => exact hall
  | token _ hopen _ _ ih => exact ih (hall.of_token hopen)
  | group hinner _ ih =>
    rw [List.cons_append, List.append_assoc, List.cons_append] at hall
    exact ih (hall.of_group hinner)

end Flat

/-- Balanced tokens have no comma outside parentheses, or there is a first one. -/
theorem Body.Balanced.flat_or_comma {tokens : List Token} (h : Balanced tokens) :
    Flat tokens ∨ ∃ first rest, tokens = first ++ .mark .comma :: rest ∧ Flat first ∧ Balanced rest := by
  induction h with
  | nil => exact .inl .nil
  | @token token rest hopen hclose hrest ih =>
    by_cases hcomma : token = .mark .comma
    · exact .inr ⟨[], rest, by rw [hcomma]; rfl, .nil, hrest⟩
    · rcases ih with hflat | ⟨first, later, rfl, hfirst, hlater⟩
      · exact .inl (.token hcomma hopen hclose hflat)
      · exact .inr ⟨token :: first, later, rfl, .token hcomma hopen hclose hfirst, hlater⟩
  | @group inner rest hinner _ _ ih =>
    rcases ih with hflat | ⟨first, later, rfl, hfirst, hlater⟩
    · exact .inl (.group hinner hflat)
    · exact .inr ⟨.mark .openParen :: (inner ++ .mark .closeParen :: first), later, by simp,
        .group hinner hfirst, hlater⟩

theorem fromDelimiter_balanced {tokens : List Token} (h : Balanced tokens) (depth : Nat)
    (more : List Token) : fromDelimiter (depth + 1) (tokens ++ more) = fromDelimiter (depth + 1) more := by
  induction h generalizing depth more with
  | nil => rfl
  | @token token rest hopen hclose _ ih =>
    have hskip : fromDelimiter (depth + 1) (token :: (rest ++ more)) =
        fromDelimiter (depth + 1) (rest ++ more) := by
      rw [fromDelimiter.eq_def]
      dsimp only
      split <;> first | rfl | exact absurd rfl ‹_›
    rw [List.cons_append, hskip, ih]
  | group _ _ ihinner ihrest =>
    rw [List.cons_append, fromDelimiter, List.append_assoc, ihinner, List.cons_append, fromDelimiter,
      if_neg (by omega)]
    exact ihrest depth more

/-- Tokens without a comma are passed over. -/
theorem fromDelimiter_flat {tokens : List Token} (h : Flat tokens) (more : List Token) :
    fromDelimiter 0 (tokens ++ more) = fromDelimiter 0 more := by
  induction h with
  | nil => rfl
  | token hcomma hopen hclose _ ih =>
    rw [List.cons_append, fromDelimiter]
    · exact ih
    · exact hcomma
    · exact hopen
    · exact hclose
  | group hinner _ ih =>
    rw [List.cons_append, fromDelimiter, List.append_assoc, fromDelimiter_balanced hinner,
      List.cons_append, fromDelimiter, if_neg (by omega)]
    exact ih

end Sql

namespace Definition

open SchemaPlan.Sql SchemaPlan.Sql.Reading

/-! ## What a constraint says -/

theorem length_le_capitals (text : String) : text.toList.length ≤ (capitals text).toList.length := by
  unfold capitals
  rw [String.toList_ofList]
  induction text.toList with
  | nil => exact Nat.le_refl _
  | cons c rest ih =>
    have hpos : 0 < (asciiCapitals c).length := by
      unfold asciiCapitals
      split <;> exact Nat.succ_pos _
    rw [List.flatMap_cons, List.length_append, List.length_cons]
    omega

/-- A word of more letters than `ALTER` is not that word. -/
theorem ignores_longWord {word : String} (h : 5 < word.toList.length) : Ignores (·.isBareWord word) := by
  intro token htoken
  cases token with
  | word text quote =>
    cases quote with
    | bare =>
      rcases htoken with hblank | hends
      · cases hblank
      rw [Token.endsStatement, Bool.or_eq_true] at hends
      rcases hends with hmark | hword
      · cases hmark
      refine Bool.eq_false_iff.mpr fun hsame => ?_
      -- The one word that ends a statement has five letters, in whatever case.
      have hlower := congrArg String.toList ((Text.sameText_iff _ _).mp hsame)
      rw [Text.asciiLower, Text.asciiLower, String.toList_ofList, String.toList_ofList] at hlower
      have hlength := congrArg List.length hlower
      rw [List.length_map, List.length_map] at hlength
      have hle := length_le_capitals text
      rw [show capitals text = "ALTER" from beq_iff_eq.mp hword, hlength] at hle
      exact absurd (Nat.lt_of_lt_of_le h hle) (by decide)
    | _ => rfl
  | _ => rfl

theorem isWord_of_isBareWord {word : String} {token : Token} (h : token.isBareWord word = true) :
    token.isWord = true := by
  cases token <;> first | rfl | cases h

theorem isWord_of_either {p q : Token → Bool} {token : Token} (h : (p token || q token) = true)
    (hp : p token = true → token.isWord = true) (hq : q token = true → token.isWord = true) :
    token.isWord = true :=
  (Bool.or_eq_true_iff.mp h).elim hp hq

/-- A constraint without what is passed over behind it. -/
def constraintHead : Reading ConstraintDefinition := do
  skipBlanks
  let name ← constraintName
  if ← accepts (·.isKeyword "PRIMARY") then return .primaryKey name (← keyColumns)
  else if ← accepts (·.isKeyword "FOREIGN") then
    let (columns, references) ← foreignColumns
    return .foreignKey name columns references
  else if ← sees startsPlainConstraint then return .other name
  else failure

theorem constraint_eq :
    constraint = (do
      let definition ← constraintHead
      skipToDelimiter
      return definition) := by
  unfold constraint constraintHead
  simp only [bind_assoc, ite_bind, pure_bind, failure_bind]

theorem keyColumns_eq :
    keyColumns = (do
      skipBlanks
      expect (·.isKeyword "KEY")
      skipBlanks
      if ← accepts fun token => token.isKeyword "CLUSTERED" || token.isBareWord "NONCLUSTERED" then
        skipBlanks
      identifierList) := by
  unfold keyColumns
  simp only [sees_either]

theorem local_keyColumns : Local Flat keyColumns := by
  rw [keyColumns_eq]
  have hP := flat_admits
  have hskip := local_skipBlanks hP
  have hclustering : Ignores fun token =>
      token.isKeyword "CLUSTERED" || token.isBareWord "NONCLUSTERED" :=
    .either (ignores_keyword (by decide)) (ignores_longWord (by decide))
  refine .bind hP hskip fun _ => .bind hP (local_keyword hP _) fun _ => .bind hP hskip fun _ =>
    .bind hP (local_acceptsWord hP (fun _ h => ?_) hclustering) fun _ =>
    .ite (.bind hP hskip fun _ => local_identifierList) local_identifierList
  exact isWord_of_either h isWord_of_isKeyword isWord_of_isBareWord

theorem local_referencedColumns : Local Flat referencedColumns := by
  have hP := flat_admits
  unfold referencedColumns
  refine .bind hP (local_qualifiedName hP) fun _ => .bind hP (local_skipBlanks hP) fun _ =>
    .bind hP (local_sees hP (ignores_mark (by decide))) fun _ => .ite ?_ ?_
  · exact .bind hP local_identifierList fun _ => local_pure hP _
  · exact .bind hP (local_pure hP _) fun _ => local_pure hP _

theorem local_foreignColumns : Local Flat foreignColumns := by
  have hP := flat_admits
  have hskip := local_skipBlanks hP
  unfold foreignColumns
  exact .bind hP hskip fun _ => .bind hP (local_keyword hP _) fun _ => .bind hP hskip fun _ =>
    .bind hP local_identifierList fun _ => .bind hP hskip fun _ => .bind hP (local_keyword hP _) fun _ =>
    .bind hP hskip fun _ => .bind hP local_referencedColumns fun _ => local_pure hP _

theorem local_constraintName : Local Flat constraintName := by
  have hP := flat_admits
  have hskip := local_skipBlanks hP
  unfold constraintName
  refine .bind hP (local_acceptsWord hP (fun _ => isWord_of_isKeyword) (ignores_keyword (by decide)))
    fun _ => .ite ?_ (local_pure hP _)
  exact .bind hP hskip fun _ => .bind hP (local_identifier hP) fun _ => .bind hP hskip fun _ =>
    local_pure hP _

theorem ignores_startsPlainConstraint : Ignores startsPlainConstraint := by
  refine .either (fun token htoken => ?_) (ignores_longWord (by decide))
  rw [List.any_eq_false]
  intro keyword hkeyword
  have hne : keyword ≠ "ALTER" := by
    rintro rfl
    revert hkeyword
    decide
  exact Bool.eq_false_iff.mp (ignores_keyword hne token htoken)

theorem local_constraintHead : Local Flat constraintHead := by
  have hP := flat_admits
  have hkeyword {keyword : String} (h : keyword ≠ "ALTER") :
      Local Flat (accepts (·.isKeyword keyword)) :=
    local_acceptsWord hP (fun _ => isWord_of_isKeyword) (ignores_keyword h)
  unfold constraintHead
  refine .bind hP (local_skipBlanks hP) fun _ => .bind hP local_constraintName fun name =>
    .bind hP (hkeyword (by decide)) fun _ => .ite ?_ <|
    .bind hP (hkeyword (by decide)) fun _ => .ite ?_ ?_
  · exact .bind hP local_keyColumns fun _ => local_pure hP _
  · exact .bind hP local_foreignColumns fun _ => local_pure hP _
  · exact .bind hP (local_sees hP ignores_startsPlainConstraint) fun _ =>
      .ite (local_pure hP _) local_failure

/-- The head of a change to a table, up to what it adds. -/
def additionHead : Reading QualifiedName := do
  skipBlanks
  expect (·.isKeyword "ALTER")
  skipBlanks
  expect (·.isKeyword "TABLE")
  skipBlanks
  let table ← qualifiedName
  skipBlanks
  if ← accepts (·.isKeyword "WITH") then
    skipBlanks
    if ← accepts fun token => token.isKeyword "CHECK" || token.isBareWord "NOCHECK" then
      skipBlanks
  expect (·.isKeyword "ADD")
  return table

theorem addedConstraints_eq :
    addedConstraints = (do
      let table ← additionHead
      return (table, ← constraints ((← get).left + 1))) := by
  unfold addedConstraints additionHead
  simp only [sees_either, bind_assoc, ite_bind, pure_bind]

theorem local_additionHead : Local Flat additionHead := by
  have hP := flat_admits
  have hskip := local_skipBlanks hP
  have hcheck : Ignores fun token => token.isKeyword "CHECK" || token.isBareWord "NOCHECK" :=
    .either (ignores_keyword (by decide)) (ignores_longWord (by decide))
  have hword : ∀ token : Token,
      (token.isKeyword "CHECK" || token.isBareWord "NOCHECK") = true → token.isWord = true :=
    fun _ h => isWord_of_either h isWord_of_isKeyword isWord_of_isBareWord
  have hadd (table : QualifiedName) : Local Flat (do
      expect (·.isKeyword "ADD")
      return table) := .bind hP (local_keyword hP _) fun _ => local_pure hP table
  unfold additionHead
  refine .bind hP hskip fun _ => .bind hP (local_keyword hP _) fun _ => .bind hP hskip fun _ =>
    .bind hP (local_keyword hP _) fun _ => .bind hP hskip fun _ =>
    .bind hP (local_qualifiedName hP) fun table => .bind hP hskip fun _ =>
    .bind hP (local_acceptsWord hP (fun _ => isWord_of_isKeyword) (ignores_keyword (by decide)))
    fun _ => .ite ?_ (hadd table)
  exact .bind hP hskip fun _ => .bind hP (local_acceptsWord hP hword hcheck) fun _ =>
    .ite (.bind hP hskip fun _ => hadd table) (hadd table)

/-! ## Constraints in a row -/

/-- What follows a constraint: it is passed over up to the next comma, and behind that stand further
constraints. -/
def moreConstraints (fuel : Nat) : Reading (List ConstraintDefinition) := do
  skipToDelimiter
  skipBlanks
  if ← accepts (·.isMark .comma) then constraints fuel else return []

theorem constraints_eq (fuel : Nat) :
    constraints (fuel + 1) = (do
      let first ← constraintHead
      return first :: (← moreConstraints fuel)) := by
  rw [constraints, constraint_eq]
  unfold moreConstraints
  simp only [bind_assoc, ite_bind, pure_bind]

/-- Constraints are read from tokens, with enough steps. -/
def Adds (tokens : List Token) (added : List ConstraintDefinition) : Prop :=
  ∀ fuel c, c.rest = tokens → tokens.length < fuel → ∃ d, Gives (constraints fuel) c added d

/-- Tokens behind a constraint add constraints if a comma comes next, and none otherwise. -/
inductive Continues : List Token → List ConstraintDefinition → Prop where
  | stop {tokens : List Token} :
      (fromDelimiter 0 tokens).head? ≠ some (.mark .comma) → Continues tokens []
  | comma {tokens rest : List Token} {added : List ConstraintDefinition} :
      fromDelimiter 0 tokens = .mark .comma :: rest → Adds rest added → Continues tokens added

section Continues

variable {c c' d : Cursor} {fuel : Nat} {first tokens more : List Token} {table : QualifiedName}
  {added later : List ConstraintDefinition}

theorem Continues.append_left (h : Continues tokens added) (hfirst : Flat first) :
    Continues (first ++ tokens) added := by
  have hsame := fromDelimiter_flat hfirst tokens
  cases h with
  | stop hhead => exact .stop (hsame ▸ hhead)
  | comma hcomma hadds => exact .comma (hsame.trans hcomma) hadds

theorem Continues.dropWhile (h : Continues tokens added) :
    Continues (tokens.dropWhile Token.isBlank) added := by
  have hblanks : Flat (tokens.takeWhile Token.isBlank) :=
    flat_admits.blanks fun token => List.mem_takeWhile_imp
  have hsame := fromDelimiter_flat hblanks (tokens.dropWhile Token.isBlank)
  rw [List.takeWhile_append_dropWhile] at hsame
  cases h with
  | stop hhead => exact .stop (hsame ▸ hhead)
  | comma hcomma hadds => exact .comma (hsame.symm.trans hcomma) hadds

theorem Continues.passes {ahead last : List Token} (h : Continues more later)
    (hpasses : Passes ahead more last) : Continues last later := by
  rcases hpasses with rfl | ⟨-, rfl⟩
  · exact h
  · exact h.dropWhile

theorem length_fromDelimiter_le (depth : Nat) (tokens : List Token) :
    (fromDelimiter depth tokens).length ≤ tokens.length := by
  fun_induction fromDelimiter depth tokens <;> grind

theorem gives_moreConstraints :
    Gives (moreConstraints fuel) c added d ↔
      ((c.skipToDelimiter 0).skipBlanks.sees (·.isMark .comma) = true ∧
        Gives (constraints fuel) (c.skipToDelimiter 0).skipBlanks.advance added d) ∨
      ((c.skipToDelimiter 0).skipBlanks.sees (·.isMark .comma) = false ∧ added = [] ∧
        d = (c.skipToDelimiter 0).skipBlanks) := by
  unfold moreConstraints skipToDelimiter
  simp only [gives_bind, gives_modify, gives_skipBlanks, gives_accepts]
  constructor
  · rintro ⟨_, _, rfl, _, _, rfl, _, _, ⟨rfl, hsees, rfl⟩ | ⟨rfl, hsees, rfl⟩, h⟩
    · exact .inl ⟨hsees, h⟩
    · exact .inr ⟨hsees, gives_pure.mp h⟩
  · rintro (⟨hsees, h⟩ | ⟨hsees, rfl, rfl⟩)
    · exact ⟨(), _, rfl, (), _, rfl, _, _, .inl ⟨rfl, hsees, rfl⟩, h⟩
    · exact ⟨(), _, rfl, (), _, rfl, _, _, .inr ⟨rfl, hsees, rfl⟩, gives_pure.mpr ⟨rfl, rfl⟩⟩

theorem dropWhile_fromDelimiter (depth : Nat) (tokens : List Token) :
    (fromDelimiter depth tokens).dropWhile Token.isBlank = fromDelimiter depth tokens := by
  fun_induction fromDelimiter depth tokens <;> first | rfl | assumption

/-- The cursor behind a constraint and the blanks there. -/
theorem rest_delimiter (c : Cursor) : (c.skipToDelimiter 0).skipBlanks.rest = fromDelimiter 0 c.rest := by
  rw [Cursor.rest_skipBlanks, rest_skipToDelimiter, dropWhile_fromDelimiter]

theorem sees_comma_iff :
    c.sees (·.isMark .comma) = true ↔ c.rest.head? = some (.mark .comma) := by
  rw [Cursor.sees_eq]
  constructor
  · intro h
    cases hrest : c.rest.head? with
    | none => rw [hrest] at h; cases h
    | some token =>
      rw [hrest] at h
      rw [Token.eq_mark_of_isMark h]
  · intro h
    rw [h]
    rfl

theorem Continues.gives (h : Continues c.rest added) (hfuel : c.rest.length ≤ fuel) :
    ∃ d, Gives (moreConstraints fuel) c added d := by
  cases h with
  | stop hhead =>
    refine ⟨_, gives_moreConstraints.mpr (.inr ⟨?_, rfl, rfl⟩)⟩
    rwa [Bool.eq_false_iff, Ne, sees_comma_iff, rest_delimiter]
  | @comma _ rest hcomma hadds =>
    have hlength := length_fromDelimiter_le 0 c.rest
    rw [hcomma, List.length_cons] at hlength
    obtain ⟨d, h⟩ := hadds fuel (c.skipToDelimiter 0).skipBlanks.advance
      (by rw [Cursor.rest_advance, rest_delimiter, hcomma, List.tail_cons]) (by omega)
    exact ⟨d, gives_moreConstraints.mpr (.inl ⟨by rw [sees_comma_iff, rest_delimiter, hcomma]; rfl, h⟩)⟩

/-- What is read behind a constraint is read as well in front of tokens that continue it. -/
theorem continues_of_adds
    (hadds : ∀ e : Cursor, Gives (constraints fuel) e added d → Body.Balanced e.rest →
      Adds (e.rest ++ more) (added ++ later))
    (h : Gives (moreConstraints fuel) c added d) (hbalanced : Body.Balanced c.rest)
    (hmore : Continues more later) : Continues (c.rest ++ more) (added ++ later) := by
  -- Without a comma at the outermost level there is no further constraint, and `more` decides. With
  -- one, what stands behind it is added as before.
  rcases hbalanced.flat_or_comma with hflat | ⟨first, rest, hc, hfirst, hrest⟩
  · have hnil := fromDelimiter_flat hflat []
    rw [List.append_nil, fromDelimiter] at hnil
    rcases gives_moreConstraints.mp h with ⟨hsees, -⟩ | ⟨-, rfl, -⟩
    · rw [sees_comma_iff, rest_delimiter, hnil] at hsees
      cases hsees
    · exact hmore.append_left hflat
  · have hcomma := fromDelimiter_flat hfirst (.mark .comma :: rest)
    rw [← hc, fromDelimiter, if_pos rfl] at hcomma
    have hadvance : (c.skipToDelimiter 0).skipBlanks.advance.rest = rest := by
      rw [Cursor.rest_advance, rest_delimiter, hcomma, List.tail_cons]
    rcases gives_moreConstraints.mp h with ⟨-, hconstraints⟩ | ⟨hsees, -⟩
    · rw [hc, List.append_assoc, List.cons_append]
      refine Continues.append_left (.comma (by rw [fromDelimiter, if_pos rfl]) ?_) hfirst
      rw [← hadvance] at hrest ⊢
      exact hadds _ hconstraints hrest
    · rw [Bool.eq_false_iff, Ne, sees_comma_iff, rest_delimiter, hcomma] at hsees
      exact absurd rfl hsees

/-- Constraints that are read from tokens with parentheses in pairs are read as well in front of a
further statement, and those behind its first comma with them. -/
theorem adds_append (h : Gives (constraints fuel) c added d) (hbalanced : Body.Balanced c.rest)
    (hends : Ends more) (hmore : Continues more later) : Adds (c.rest ++ more) (added ++ later) := by
  induction fuel generalizing c added more with
  | zero => exact absurd h not_gives_failure
  | succ fuel ih =>
    rw [constraints_eq] at h
    simp only [gives_bind, gives_pure] at h
    obtain ⟨first, m, hhead, others, _, hothers, rfl, rfl⟩ := h
    obtain ⟨taken, htaken, hc⟩ := local_constraintHead.takes hhead
    have hm : Body.Balanced m.rest := htaken.balanced_of_append (hc ▸ hbalanced)
    intro fuel' c' hc' hfuel'
    obtain ⟨m', last, hhead', hm', hpasses⟩ := local_constraintHead.persists hhead hc' fun _ => hends
    -- The rest is shorter, so the induction speaks of it, and only the head is read anew.
    have hcontinues : Continues m'.rest (others ++ later) := by
      rw [hm']
      exact continues_of_adds (fun e he hbalanced => ih he hbalanced (hpasses.ends hends)
        (hmore.passes hpasses)) hothers hm (hmore.passes hpasses)
    obtain ⟨fuel', rfl⟩ : ∃ n, fuel' = n + 1 := ⟨fuel' - 1, by omega⟩
    obtain ⟨taken', -, htaken'⟩ := local_constraintHead.takes hhead'
    rw [← hc', htaken', List.length_append] at hfuel'
    have hleft : m'.rest.length ≤ fuel' := by omega
    obtain ⟨d', hothers'⟩ := hcontinues.gives hleft
    refine ⟨d', ?_⟩
    rw [constraints_eq]
    simp only [gives_bind, gives_pure]
    exact ⟨first, m', hhead', others ++ later, d', hothers', rfl, rfl⟩

/-- What is read behind a constraint is read as well in front of a further statement. -/
theorem continues_append (h : Gives (moreConstraints fuel) c added d) (hbalanced : Body.Balanced c.rest)
    (hends : Ends more) (hmore : Continues more later) :
    Continues (c.rest ++ more) (added ++ later) :=
  continues_of_adds (fun _ he hbalanced => adds_append he hbalanced hends hmore) h hbalanced hmore

theorem gives_addedConstraints :
    Gives addedConstraints c (table, added) d ↔
      ∃ m, Gives additionHead c table m ∧ Gives (constraints (m.rest.length + 1)) m added d := by
  rw [addedConstraints_eq]
  simp only [gives_bind, gives_get, gives_pure, Cursor.left_eq]
  constructor
  · rintro ⟨_, m, hhead, _, _, ⟨rfl, rfl⟩, _, _, h, heq, rfl⟩
    obtain ⟨rfl, rfl⟩ := Prod.mk.inj heq
    exact ⟨_, hhead, h⟩
  · rintro ⟨m, hhead, h⟩
    exact ⟨table, m, hhead, _, _, ⟨rfl, rfl⟩, added, d, h, rfl, rfl⟩

/-- A change to a table in front of further statements adds its own constraints, and those behind the
first comma that follows. -/
theorem gives_addedConstraints_append (h : Gives addedConstraints c (table, added) d)
    (hbalanced : Body.Balanced c.rest) (hends : Ends more) (hmore : Continues more later)
    (hrest : c'.rest = c.rest ++ more) :
    ∃ d', Gives addedConstraints c' (table, added ++ later) d' := by
  obtain ⟨m, hhead, hadded⟩ := gives_addedConstraints.mp h
  obtain ⟨taken, htaken, hc⟩ := local_additionHead.takes hhead
  obtain ⟨m', last, hhead', hm', hpasses⟩ := local_additionHead.persists hhead hrest fun _ => hends
  have hadds := adds_append hadded (htaken.balanced_of_append (hc ▸ hbalanced)) (hpasses.ends hends)
    (hmore.passes hpasses)
  obtain ⟨d', hadded'⟩ := hadds _ m' hm' (by rw [← hm']; exact Nat.lt_succ_self _)
  exact ⟨d', gives_addedConstraints.mpr ⟨m', hhead', hadded'⟩⟩

/-- Behind a constraint, a change to a table is passed over up to its first comma, so all but its first
constraint are added. -/
theorem continues_addedConstraints (h : Gives addedConstraints c (table, added) d)
    (hbalanced : Body.Balanced c.rest) (hends : Ends more) (hmore : Continues more later) :
    Continues (c.rest ++ more) (added.tail ++ later) := by
  obtain ⟨m, hhead, hadded⟩ := gives_addedConstraints.mp h
  obtain ⟨taken, htaken, hc⟩ := local_additionHead.takes hhead
  rw [constraints_eq] at hadded
  simp only [gives_bind, gives_pure] at hadded
  obtain ⟨first, n, hfirst, others, _, hothers, rfl, rfl⟩ := hadded
  obtain ⟨taken', htaken', hm⟩ := local_constraintHead.takes hfirst
  have hn : Body.Balanced n.rest :=
    htaken'.balanced_of_append (hm ▸ htaken.balanced_of_append (hc ▸ hbalanced))
  rw [hc, hm, List.append_assoc, List.append_assoc]
  exact ((continues_append hothers hn hends hmore).append_left htaken').append_left htaken

/-- A change to a table starts with the word that ends the statement in front of it. -/
theorem ends_of_addedConstraints (h : Gives addedConstraints c (table, added) d)
    (more : List Token) : Ends (c.rest ++ more) := by
  obtain ⟨first, _, rest, -, hfirst, -, hc, -⟩ := exists_words h
  intro token htoken
  rw [List.dropWhile_append, hc] at htoken
  obtain rfl : first = token := Option.some.inj htoken
  rw [Token.endsStatement, hfirst, Bool.or_true]

end Continues

end Definition

end SchemaPlan
