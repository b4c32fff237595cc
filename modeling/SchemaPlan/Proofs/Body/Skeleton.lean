import SchemaPlan.Proofs.Body.Mirroring
import SchemaPlan.Proofs.Body.Tiling

/-!
# The skeleton of a body

The skeleton of a body is what is left of it without blanks and without all that stands strictly
inside parentheses. Two bodies with the same skeleton have the same statements: as many, of the same
kinds, which start and stop at the same tokens of the skeleton. So comments, layout, subqueries and
lists of arguments neither start nor end a statement nor change its kind.

* `startsCte_outerTokens`: a list of common table expressions is told from the skeleton.
* `Follows.run`: a body is read like its skeleton.
-/

namespace SchemaPlan.Sql.Body

/-! ## The tokens of the skeleton -/

/-- Whether a token belongs to the skeleton. Of a group in parentheses both of these do. -/
def isOuter (depth : Nat) (token : Token) : Bool :=
  !token.isBlank && (depth == 0 || depth == 1 && token == .mark .closeParen)

/-- The tokens that belong to the skeleton, in so many open parentheses. -/
def outerTokens (depth : Nat) : List Token → List Token
  | [] => []
  | token :: rest =>
    if isOuter depth token then token :: outerTokens (nextDepth depth token) rest
    else outerTokens (nextDepth depth token) rest

/-- Where these tokens stand, if the first one of all stands at `pos`. -/
def outerPlaces (depth pos : Nat) : List Token → List Nat
  | [] => []
  | token :: rest =>
    if isOuter depth token then pos :: outerPlaces (nextDepth depth token) (pos + 1) rest
    else outerPlaces (nextDepth depth token) (pos + 1) rest

/-- A body without blanks and without what stands strictly inside parentheses. -/
def skeleton (tokens : List Token) : List Token := outerTokens 0 tokens

/-- The places of two bodies at which the same token of their skeleton stands. -/
def SamePlace (tokens tokens' : List Token) (pos pos' : Nat) : Prop :=
  ∃ k : Nat, (outerPlaces 0 0 tokens)[k]? = some pos ∧ (outerPlaces 0 0 tokens')[k]? = some pos'

/-- Statements of the same kind from the same token of the skeleton to the same one, or to the end. -/
structure Corresponds (tokens tokens' : List Token) (a b : BodyStatement) : Prop where
  kind : a.kind = b.kind
  start : SamePlace tokens tokens' a.start b.start
  stop : SamePlace tokens tokens' a.stop b.stop ∨ a.stop = tokens.length ∧ b.stop = tokens'.length

section Tokens

variable {tokens : List Token} {depth : Nat} {token : Token}

theorem isOuter_zero (token : Token) : isOuter 0 token = !token.isBlank := Bool.and_true _

theorem length_outerPlaces (tokens : List Token) (depth pos : Nat) :
    (outerPlaces depth pos tokens).length = (outerTokens depth tokens).length := by
  induction tokens generalizing depth pos with
  | nil => rfl
  | cons token rest ih =>
    unfold outerPlaces outerTokens
    split
    · rw [List.length_cons, List.length_cons, ih]
    · exact ih _ _

theorem not_isBlank_of_mem_outerTokens (h : token ∈ outerTokens depth tokens) :
    token.isBlank = false := by
  induction tokens generalizing depth with
  | nil => cases h
  | cons first rest ih =>
    unfold outerTokens at h
    split at h
    · rename_i houter
      rcases List.mem_cons.mp h with rfl | h
      · exact (Bool.not_eq_true' _).mp (Bool.and_eq_true_iff.mp houter).1
      · exact ih h
    · exact ih h

theorem outerTokens_filter (tokens : List Token) (depth : Nat) :
    outerTokens depth (tokens.filter (!·.isBlank)) = outerTokens depth tokens := by
  induction tokens generalizing depth with
  | nil => rfl
  | cons token rest ih =>
    cases token with
    | blank gap => exact ih depth
    | _ =>
      rw [List.filter_cons_of_pos rfl, outerTokens, outerTokens, ih]

end Tokens

/-! ## Lists of common table expressions -/

section Ahead

variable {tokens : List Token} {depth : Nat} {token : Token}

theorem not_isOuter_inside (hdepth : 0 < depth) (h : token ≠ .mark .closeParen ∨ 1 < depth) :
    isOuter depth token = false := by
  rw [isOuter, beq_eq_false_iff_ne.mpr (Nat.ne_of_gt hdepth), Bool.false_or]
  rcases h with hne | hlt
  · rw [beq_eq_false_iff_ne.mpr hne, Bool.and_false, Bool.and_false]
  · rw [beq_eq_false_iff_ne.mpr (Nat.ne_of_gt hlt), Bool.false_and, Bool.and_false]

/-- The skeleton keeps the parenthesis that closes a group and drops what stands before it. -/
theorem afterClosing_outerTokens (hdepth : 0 < depth) :
    afterClosing 1 (outerTokens depth tokens) = outerTokens 0 (afterClosing depth tokens) := by
  induction tokens generalizing depth with
  | nil => rfl
  | cons token rest ih =>
    by_cases hopen : token = .mark .openParen
    · subst hopen
      have hinside : isOuter depth (.mark .openParen) = false :=
        not_isOuter_inside hdepth (.inl nofun)
      rw [outerTokens, hinside]
      exact ih (Nat.succ_pos depth)
    by_cases hclose : token = .mark .closeParen
    · subst hclose
      -- The parenthesis closes an inner group, or it is the one that ends the search.
      rcases Nat.lt_or_eq_of_le (Nat.succ_le_of_lt hdepth) with hlt | rfl
      · rw [outerTokens, not_isOuter_inside hdepth (.inr hlt), afterClosing,
          if_neg (Nat.not_le.mpr hlt)]
        exact ih (Nat.sub_pos_of_lt hlt)
      · rfl
    · rw [outerTokens, not_isOuter_inside hdepth (.inl hclose), nextDepth_of_ne hopen hclose,
        afterClosing]
      · exact ih hdepth
      · exact hopen
      · exact hclose

theorem outerTokens_cons (h : token.isBlank = false) (rest : List Token) :
    outerTokens 0 (token :: rest) = token :: outerTokens (nextDepth 0 token) rest := by
  rw [outerTokens, isOuter_zero, h]
  rfl

theorem afterColumns_outerTokens (h : ∀ token ∈ tokens, token.isBlank = false) :
    afterColumns (outerTokens 0 tokens) = outerTokens 0 (afterColumns tokens) := by
  cases tokens with
  | nil => rfl
  | cons token rest =>
    rw [outerTokens_cons (h token (.head _))]
    by_cases hparen : token = .mark .openParen
    · subst hparen
      exact afterClosing_outerTokens Nat.one_pos
    · rw [afterColumns_cons hparen, afterColumns_cons hparen, outerTokens_cons (h token (.head _))]

theorem isWord_of_isBareWord {word : String} (h : token.isBareWord word = true) :
    token.isWord = true := by
  cases token with
  | word text quote => rfl
  | _ => cases h

theorem nextDepth_of_isWord (h : token.isWord = true) : nextDepth depth token = depth := by
  cases token with
  | word text quote => rfl
  | _ => cases h

theorem beginsQuery_outerTokens (h : ∀ token ∈ tokens, token.isBlank = false) :
    beginsQuery (outerTokens 0 tokens) = beginsQuery tokens := by
  cases tokens with
  | nil => rfl
  | cons token rest =>
    rw [outerTokens_cons (h token (.head _)), beginsQuery_cons, beginsQuery_cons]
    cases has : token.isBareWord "AS" with
    | false => rw [Bool.and_false, Bool.and_false]
    | true =>
      -- Behind a word the next token is one of the skeleton.
      rw [nextDepth_of_isWord (isWord_of_isBareWord has)]
      cases rest with
      | nil => rfl
      | cons second rest =>
        rw [outerTokens_cons (h second (.tail _ (.head _)))]
        rfl

theorem mem_afterClosing (h : token ∈ afterClosing depth tokens) : token ∈ tokens := by
  induction tokens generalizing depth with
  | nil => cases h
  | cons first rest ih =>
    unfold afterClosing at h
    repeat' split at h
    · exact .tail _ (ih h)
    · exact .tail _ h
    · exact .tail _ (ih h)
    · exact .tail _ (ih h)

theorem mem_afterColumns (h : token ∈ afterColumns tokens) : token ∈ tokens := by
  unfold afterColumns at h
  split at h
  · exact .tail _ (mem_afterClosing h)
  · exact h

/-- Whether a list of common table expressions begins is told from the skeleton. -/
theorem startsCte_outerTokens (tokens : List Token) :
    startsCte (outerTokens 0 tokens) = startsCte tokens := by
  have hfilter : (outerTokens 0 tokens).filter (!·.isBlank) = outerTokens 0 tokens :=
    List.filter_eq_self.mpr fun token hmem => by rw [not_isBlank_of_mem_outerTokens hmem]; rfl
  rw [startsCte_eq, startsCte_eq, hfilter, ← outerTokens_filter]
  have hwords : ∀ token ∈ tokens.filter (!·.isBlank), token.isBlank = false :=
    fun token hmem => (Bool.not_eq_true' _).mp (List.mem_filter.mp hmem).2
  generalize tokens.filter (!·.isBlank) = words at hwords
  cases words with
  | nil => rfl
  | cons first rest =>
    have hrest := (List.forall_mem_cons.mp hwords).2
    rw [outerTokens_cons (hwords first (.head _))]
    cases first with
    | word text quote =>
      dsimp only
      rw [nextDepth_of_isWord rfl, afterColumns_outerTokens hrest,
        beginsQuery_outerTokens fun token hmem => hrest token (mem_afterColumns hmem)]
    | _ => rfl

end Ahead

/-! ## A body and its skeleton -/

/-- The place of a token of the skeleton in the body, or the end for the place behind the last. -/
def Places (tokens : List Token) (pos k : Nat) : Prop :=
  (outerPlaces 0 0 tokens ++ [tokens.length])[k]? = some pos

/-- The reading of a body, and that of its skeleton which has come to the same token. -/
structure Follows (tokens : List Token) (s t : State) : Prop where
  mirrors : Mirrors (Places tokens) [] s t
  depth : t.depth = min s.depth 1
  previous : s.depth ≠ 0 → s.previous = none

section Reading

variable {tokens rest : List Token} {token : Token} {depth : Nat} {s t : State} {pos k : Nat}

theorem eq_zero_or_of_isOuter (h : isOuter depth token = true) :
    depth = 0 ∨ depth = 1 ∧ token = .mark .closeParen := by
  simpa only [Bool.or_eq_true, Bool.and_eq_true, beq_iff_eq] using (Bool.and_eq_true_iff.mp h).2

theorem min_nextDepth_of_isOuter (h : isOuter depth token = true) :
    nextDepth (min depth 1) token = min (nextDepth depth token) 1 := by
  rcases eq_zero_or_of_isOuter h with rfl | ⟨rfl, rfl⟩
  · by_cases hopen : token = .mark .openParen
    · subst hopen
      rfl
    by_cases hclose : token = .mark .closeParen
    · subst hclose
      rfl
    · rw [nextDepth_of_ne hopen hclose, nextDepth_of_ne hopen hclose]
  · rfl

/-- A token that does not belong to the skeleton opens or closes no outermost parenthesis. -/
theorem min_nextDepth_of_not_isOuter (h : isOuter depth token = false) :
    min (nextDepth depth token) 1 = min depth 1 := by
  by_cases hopen : token = .mark .openParen
  · subst hopen
    have hne : depth ≠ 0 := by
      rintro rfl
      cases h
    rw [nextDepth]
    omega
  by_cases hclose : token = .mark .closeParen
  · subst hclose
    have hne : depth ≠ 0 ∧ depth ≠ 1 := by
      constructor <;> rintro rfl <;> cases h
    rw [nextDepth]
    omega
  · rw [nextDepth_of_ne hopen hclose]

/-- In parentheses a token changes nothing but their number and the word before. -/
theorem step_inside (hdepth : s.depth ≠ 0) (hblank : token.isBlank = false) :
    step s pos token rest = { s with depth := nextDepth s.depth token, previous := none } := by
  cases role token with
  | blank gap => cases hblank
  | word hword =>
    rw [step_word_inside hdepth hword, nextDepth_of_isPlain (isPlain_of_bareWord? hword)]
  | semicolon => exact if_neg hdepth
  | openParen =>
    unfold step
    dsimp only
    rw [if_neg hdepth]
    rfl
  | closeParen => rfl
  | plain _ hword hplain =>
    rw [step_other hblank hword hplain, if_neg hdepth, nextDepth_of_isPlain hplain]

/-- A token that does not belong to the skeleton changes nothing that the skeleton shows. -/
theorem Follows.skip (h : Follows tokens s t) (hinner : isOuter s.depth token = false) :
    Follows tokens (step s pos token rest) t := by
  cases hblank : token.isBlank with
  | true =>
    rw [step_blank hblank]
    exact h
  | false =>
    have hdepth : s.depth ≠ 0 := by
      intro hzero
      rw [hzero, isOuter_zero, hblank] at hinner
      cases hinner
    rw [step_inside hdepth hblank]
    refine ⟨⟨h.mirrors.finished, h.mirrors.current, h.mirrors.caseDepth, ?_⟩, ?_, fun _ => rfl⟩
    · exact (h.previous hdepth).symm.trans h.mirrors.previous
    · exact h.depth.trans (min_nextDepth_of_not_isOuter hinner).symm

/-- A token of the skeleton does the same in both readings. -/
theorem Follows.step (h : Follows tokens s t) (houter : isOuter s.depth token = true)
    (hplace : Places tokens pos k) :
    Follows tokens (step s pos token rest)
      (step t k token (outerTokens (nextDepth s.depth token) rest)) := by
  have hzero : s.depth = 0 ↔ t.depth = 0 := by
    rw [h.depth]
    omega
  refine ⟨h.mirrors.step hplace hzero fun hword hdepth => ?_, ?_, fun hdepth => ?_⟩
  · rw [hdepth, nextDepth_of_isWord hword, startsCte_outerTokens]
  · rw [depth_step, depth_step, h.depth, min_nextDepth_of_isOuter houter]
  · -- Of the tokens of the skeleton only an opening parenthesis leads inside.
    rw [depth_step] at hdepth
    by_cases hopen : token = .mark .openParen
    · subst hopen
      rfl
    by_cases hclose : token = .mark .closeParen
    · subst hclose
      rfl
    · rw [nextDepth_of_ne hopen hclose] at hdepth
      rcases eq_zero_or_of_isOuter houter with hs | ⟨-, hs⟩
      · exact absurd hs hdepth
      · exact absurd hs hclose

/-- A body is read like its skeleton. -/
theorem Follows.run (h : Follows tokens s t)
    (hplaces : (outerPlaces 0 0 tokens ++ [tokens.length]).drop k =
      outerPlaces s.depth pos rest ++ [tokens.length]) :
    Mirrors (Places tokens) [] (run s pos rest) (run t k (outerTokens s.depth rest)) := by
  -- Over the tokens of the body. A token of the skeleton is read in both, any other in the body
  -- alone; `hplaces` says that the places still to come are those of the tokens left.
  induction rest generalizing s t pos k with
  | nil => exact h.mirrors
  | cons token rest ih =>
    have hdepth := depth_step s pos token rest
    rw [outerPlaces] at hplaces
    rw [outerTokens]
    cases houter : isOuter s.depth token with
    | true =>
      rw [houter, if_pos rfl] at hplaces
      have hplace : Places tokens pos k := by
        rw [Places, ← List.head?_drop, hplaces]
        rfl
      have hlater : (outerPlaces 0 0 tokens ++ [tokens.length]).drop (k + 1) =
          outerPlaces (Body.step s pos token rest).depth (pos + 1) rest ++ [tokens.length] := by
        rw [← List.tail_drop, hplaces, hdepth]
        rfl
      have hrun := ih (h.step houter hplace) hlater
      rw [hdepth] at hrun
      exact hrun
    | false =>
      rw [houter, if_neg Bool.false_ne_true, ← hdepth] at hplaces
      have hrun := ih (h.skip houter) hplaces
      rw [hdepth] at hrun
      exact hrun

/-- The statements of a body are those of its skeleton, with the places that the tokens have. -/
theorem mirrors_skeleton (tokens : List Token) :
    List.Forall₂ (SameStatement (Places tokens)) (statements tokens 0)
      (statements (skeleton tokens) 0) := by
  have hinitial : Follows tokens {} {} :=
    ⟨⟨⟨[], rfl, .nil⟩, .none, rfl, rfl⟩, rfl, fun h => absurd rfl h⟩
  have hend : Places tokens tokens.length (skeleton tokens).length := by
    rw [Places, skeleton, ← length_outerPlaces tokens 0 0, List.getElem?_append_right (Nat.le_refl _),
      Nat.sub_self]
    rfl
  have hrun : Mirrors (Places tokens) [] (run {} 0 tokens) (run {} 0 (skeleton tokens)) :=
    hinitial.run rfl
  obtain ⟨own, hfinished, hown⟩ := (hrun.close hend).finished
  unfold statements
  rw [List.drop_zero, List.drop_zero, List.forall₂_reverse_iff, hfinished, List.append_nil]
  exact hown

theorem samePlace_of_places {tokens' : List Token} {pos' : Nat}
    (h : skeleton tokens = skeleton tokens') (hpos : Places tokens pos k)
    (hpos' : Places tokens' pos' k) :
    SamePlace tokens tokens' pos pos' ∨ pos = tokens.length ∧ pos' = tokens'.length := by
  have hlength : (outerPlaces 0 0 tokens').length = (outerPlaces 0 0 tokens).length := by
    rw [length_outerPlaces, length_outerPlaces]
    exact congrArg List.length h.symm
  unfold Places at hpos hpos'
  -- The `k`-th place is that of a token of the skeleton, or the end of the body.
  rcases Nat.lt_or_ge k (outerPlaces 0 0 tokens).length with hlt | hge
  · rw [List.getElem?_append_left hlt] at hpos
    rw [List.getElem?_append_left (hlength ▸ hlt)] at hpos'
    exact .inl ⟨k, hpos, hpos'⟩
  · rw [List.getElem?_append_right hge] at hpos
    rw [List.getElem?_append_right (hlength ▸ hge), hlength] at hpos'
    right
    cases hk : k - (outerPlaces 0 0 tokens).length with
    | zero =>
      rw [hk] at hpos hpos'
      cases hpos
      cases hpos'
      exact ⟨rfl, rfl⟩
    | succ n =>
      rw [hk] at hpos
      cases hpos

/-- Lists that are related to one list are related to each other, one by one. -/
theorem forall₂_of_common {α β γ : Type} {p : α → γ → Prop} {q : β → γ → Prop} {r : α → β → Prop}
    {as : List α} {bs : List β} {cs : List γ} (has : List.Forall₂ p as cs)
    (hbs : List.Forall₂ q bs cs) (h : ∀ a ∈ as, ∀ b c, p a c → q b c → r a b) :
    List.Forall₂ r as bs := by
  induction has generalizing bs with
  | nil =>
    cases hbs
    exact .nil
  | cons ha _ ih =>
    cases hbs with
    | cons hb hbs =>
      obtain ⟨hfirst, hrest⟩ := List.forall_mem_cons.mp h
      exact .cons (hfirst _ _ ha hb) (ih hbs hrest)

/-- Bodies with the same skeleton have the same statements: as many, of the same kinds and in the
same order, and each starts and stops at the tokens of the skeleton at which the other one does. -/
theorem statements_correspond {tokens tokens' : List Token}
    (h : skeleton tokens = skeleton tokens') :
    List.Forall₂ (Corresponds tokens tokens') (statements tokens 0) (statements tokens' 0) := by
  have hleft := mirrors_skeleton tokens
  have hright := mirrors_skeleton tokens'
  rw [← h] at hright
  refine forall₂_of_common hleft hright ?_
  rintro a hmem b c ⟨hkind, hstart, hstop⟩ ⟨hkind', hstart', hstop'⟩
  refine ⟨hkind.trans hkind'.symm, ?_, samePlace_of_places h hstop hstop'⟩
  -- A statement does not start at the end.
  refine (samePlace_of_places h hstart hstart').resolve_right fun hend => ?_
  obtain ⟨-, hlt, hle⟩ :=
    (tiles_statements (Nat.zero_le tokens.length)).within.2 a (List.mem_reverse.mpr hmem)
  omega

/-- `insert t () select () select 2`. -/
def bare : List Token :=
  [.word "insert" .bare, .word "t" .bare, .mark .openParen, .mark .closeParen,
    .word "select" .bare, .mark .openParen, .mark .closeParen, .word "select" .bare,
    .number "2" false]

/-- `insert t (a; update) select ((1)) select 2`, with a comment `-- merge` before the first
`select`. -/
def clothed : List Token :=
  [.word "insert" .bare, .blank .space, .word "t" .bare, .mark .openParen, .word "a" .bare,
    .mark .semicolon, .word "update" .bare, .mark .closeParen, .blank (.lineComment " merge\n"),
    .word "select" .bare, .mark .openParen, .mark .openParen, .number "1" false,
    .mark .closeParen, .mark .closeParen, .blank .space, .word "select" .bare, .blank .space,
    .number "2" false]

/-- An `INSERT` with its source and a select are told apart whatever the parentheses hold. -/
theorem statements_correspond_of_clothed :
    skeleton bare = skeleton clothed ∧
      List.Forall₂ (Corresponds bare clothed) (statements bare 0) (statements clothed 0) ∧
      statements bare 0 = [⟨.insert, 0, 7⟩, ⟨.select, 7, 9⟩] ∧
      statements clothed 0 = [⟨.insert, 0, 16⟩, ⟨.select, 16, 19⟩] :=
  ⟨by decide +kernel, statements_correspond (by decide +kernel), by decide +kernel,
    by decide +kernel⟩

end Reading

end SchemaPlan.Sql.Body
