import SchemaPlan.Proofs.Token.Mark
import SchemaPlan.Proofs.Token.Quoted

/-!
# What a reading step reads

A step that reads a token takes its spelling from the head of a text and leaves what follows. The
relation `Reads` says for each kind of token how it is spelled and where it ends.
-/

namespace SchemaPlan.Sql

/-! ## Words -/

/-- The characters of an unquoted word. Behind a sign of names any character may stand that makes no
mark of the sign. -/
inductive IsBareWord : List Char → Prop where
  | plain {c : Char} {rest : List Char} :
      isWordStart c = true → c ≠ '#' → c ≠ '@' → (∀ d ∈ rest, isWordPart d = true) →
      IsBareWord (c :: rest)
  | hash {c : Char} {rest : List Char} :
      c ≠ ' ' → c ≠ '-' → c ≠ '>' → (∀ d ∈ rest, isWordPart d = true) →
      IsBareWord ('#' :: c :: rest)
  | at {c : Char} {rest : List Char} :
      Mark.at.isExtendedBy c = true → c ≠ '>' → c ≠ '?' → c ≠ '@' →
      (∀ d ∈ rest, isWordPart d = true) → IsBareWord ('@' :: c :: rest)
  | doubleAt {c : Char} {rest : List Char} :
      c ≠ ' ' → (∀ d ∈ rest, isWordPart d = true) → IsBareWord ('@' :: '@' :: c :: rest)

/-- Letters that make a literal of a text in quotes behind them. -/
def isPrefixLetter (c : Char) : Bool :=
  c == 'N' || c == 'n' || c == 'X' || c == 'x' || c == 'E' || c == 'e'

/-- An unquoted word ends: no character goes on with it, and it is no prefix of a literal. -/
structure WordEnds (text after : List Char) : Prop where
  part : Stops isWordPart after
  literal : ∀ c, text = [c] → isPrefixLetter c = true → after.head? ≠ some '\''

theorem scanWord_spec (start rest : List Char) :
    ∃ parts after, rest = parts ++ after ∧ (∀ d ∈ parts, isWordPart d = true) ∧
      Stops isWordPart after ∧
      scanWord start rest = (.word (String.ofList (start ++ parts)) .bare, after) := by
  obtain ⟨hrest, hparts, hafter⟩ := span_spec isWordPart rest
  exact ⟨_, _, hrest, hparts, hafter, rfl⟩

/-! ## Dollar signs -/

/-- What may stand in the tag of a text between dollar signs. -/
def isTagPart (c : Char) : Bool := Text.isLetter c || Text.isNumeral c || c == '_'

theorem scanDollarText_spec {before : Option Char} {chars text after : List Char}
    (h : scanDollarText before chars = some (text, after)) :
    ∃ body, chars = body ++ after ∧ (∀ rest, scanDollarText before (body ++ rest) = some (text, rest)) ∧
      (if before = some '$' then '$' :: body else body) = text ++ ['$', '$'] := by
  induction before, chars using scanDollarText.induct generalizing text with
  | case1 => cases h
  | case2 rest =>
    obtain ⟨rfl, rfl⟩ := Prod.mk.inj (Option.some.inj h)
    exact ⟨['$'], rfl, fun _ => rfl, rfl⟩
  | case3 c rest hc ih =>
    rw [scanDollarText, if_pos rfl, if_neg hc] at h
    obtain ⟨inner, hinner, rfl⟩ := @exists_of_map_fst _ ('$' :: c :: ·) _ _ h
    obtain ⟨body, rfl, hread, hbody⟩ := ih hinner
    rw [if_neg (by simpa using hc)] at hbody
    refine ⟨c :: body, rfl, fun rest => ?_, by rw [if_pos rfl, hbody]; rfl⟩
    rw [List.cons_append, scanDollarText, if_pos rfl, if_neg hc, hread]
    rfl
  -- A dollar is held back until the next character tells whether it closes the text.
  | case4 before rest hbefore ih =>
    rw [scanDollarText, if_neg hbefore, if_pos rfl] at h
    obtain ⟨body, rfl, hread, hbody⟩ := ih h
    rw [if_pos rfl] at hbody
    refine ⟨'$' :: body, rfl, fun rest => ?_, by rw [if_neg hbefore, hbody]⟩
    rw [List.cons_append, scanDollarText, if_neg hbefore, if_pos rfl, hread]
  | case5 before c rest hbefore hc ih =>
    rw [scanDollarText, if_neg hbefore, if_neg hc] at h
    obtain ⟨inner, hinner, rfl⟩ := exists_of_map_fst h
    obtain ⟨body, rfl, hread, hbody⟩ := ih hinner
    rw [if_neg (by simpa using hc)] at hbody
    refine ⟨c :: body, rfl, fun rest => ?_, by rw [if_neg hbefore, hbody]; rfl⟩
    rw [List.cons_append, scanDollarText, if_neg hbefore, if_neg hc, hread]
    rfl

theorem isPrefixOf_append {close chars : List Char} (h : close.length ≤ chars.length)
    (more : List Char) : close.isPrefixOf (chars ++ more) = close.isPrefixOf chars := by
  rw [Bool.eq_iff_iff, List.isPrefixOf_iff_prefix, List.isPrefixOf_iff_prefix]
  refine ⟨fun hprefix => ?_, fun hprefix => hprefix.trans (List.prefix_append _ _)⟩
  exact List.prefix_of_prefix_length_le hprefix (List.prefix_append _ _) h

theorem scanUntil_spec {close chars text after : List Char} (hclose : close ≠ [])
    (h : scanUntil close chars = some (text, after)) :
    chars = text ++ close ++ after ∧
      ∀ rest, scanUntil close (text ++ close ++ rest) = some (text, rest) := by
  induction chars using scanUntil.induct close generalizing text with
  | case1 => cases h
  | case2 c rest hprefix =>
    rw [scanUntil, if_pos hprefix] at h
    obtain ⟨rfl, rfl⟩ := Prod.mk.inj (Option.some.inj h)
    obtain ⟨more, hmore⟩ := List.isPrefixOf_iff_prefix.mp hprefix
    refine ⟨by rw [← hmore]; simp, fun rest => ?_⟩
    obtain ⟨d, ds, rfl⟩ := List.exists_cons_of_ne_nil hclose
    have hself : (d :: ds).isPrefixOf (d :: (ds ++ rest)) = true :=
      List.isPrefixOf_iff_prefix.mpr (List.prefix_append (d :: ds) rest)
    rw [List.nil_append, List.cons_append, scanUntil, if_pos hself]
    simp
  | case3 c rest hprefix ih =>
    rw [scanUntil, if_neg hprefix] at h
    obtain ⟨inner, hinner, rfl⟩ := exists_of_map_fst h
    obtain ⟨rfl, hread⟩ := ih hinner
    refine ⟨rfl, fun rest => ?_⟩
    -- Whether the text is closed here does not depend on what follows it.
    have hlength : close.length ≤ (c :: (inner ++ close)).length := by
      simp only [List.length_cons, List.length_append]
      omega
    have hnone : ¬ close.isPrefixOf (c :: (inner ++ close ++ rest)) = true := by
      rw [← List.cons_append, isPrefixOf_append hlength] at hprefix ⊢
      exact hprefix
    change scanUntil close (c :: (inner ++ close ++ rest)) = _
    rw [scanUntil, if_neg hnone, hread]
    rfl

section Tags

variable {tag after : List Char}

theorem tagged_ne_dollar (htag : ∀ c ∈ tag, isTagPart c = true) (hne : tag ≠ []) (more : List Char) :
    (tag ++ more).head? ≠ some '$' := by
  obtain ⟨c, rest, rfl⟩ := List.exists_cons_of_ne_nil hne
  intro hhead
  obtain rfl := Option.some.inj hhead
  exact absurd (htag '$' List.mem_cons_self) (by decide)

/-- The name of a placeholder is read where it ends. -/
theorem scanDollar_placeholder (htag : ∀ c ∈ tag, isTagPart c = true)
    (hstop : Stops isTagPart after) (hafter : after.head? ≠ some '$') :
    scanDollar (tag ++ after) = .ok (.placeholder (String.ofList ('$' :: tag)), after) := by
  have hspan : (tag ++ after).span (fun c => Text.isLetter c || Text.isNumeral c || c == '_') =
      (tag, after) := span_append htag hstop
  unfold scanDollar
  split
  · rename_i rest heq
    cases tag with
    | nil => exact absurd (congrArg List.head? heq) hafter
    | cons c more =>
      exact absurd (congrArg List.head? heq) (tagged_ne_dollar htag (List.cons_ne_nil _ _) _)
  · rw [hspan]
    dsimp only
    split
    · exact absurd rfl hafter
    · rfl

/-- Behind a tag its text is read up to the tag again. -/
theorem scanDollar_tagged (htag : ∀ c ∈ tag, isTagPart c = true) (hne : tag ≠ [])
    (body : List Char) :
    scanDollar (tag ++ '$' :: body) =
      match scanUntil ('$' :: tag ++ ['$']) body with
      | some (text, after) => .ok (.dollar (String.ofList tag) (String.ofList text), after)
      | none => .error .atEnd := by
  have hspan : (tag ++ '$' :: body).span (fun c => Text.isLetter c || Text.isNumeral c || c == '_') =
      (tag, '$' :: body) := span_append htag (stops_cons.mpr (by decide))
  unfold scanDollar
  split
  · rename_i rest heq
    exact absurd (congrArg List.head? heq) (tagged_ne_dollar htag hne _)
  · rw [hspan]
    rfl

end Tags

/-- Behind a dollar sign a text up to its closing tag is read, or the name of a placeholder. -/
theorem scanDollar_spec {chars after : List Char} {token : Token}
    (h : scanDollar chars = .ok (token, after)) :
    (∃ tag value body, token = .dollar tag value ∧ chars = body ++ after ∧
      token.text.toList = '$' :: body ∧ ∀ rest, scanDollar (body ++ rest) = .ok (token, rest)) ∨
    ∃ name, token = .placeholder (String.ofList ('$' :: name)) ∧ chars = name ++ after ∧
      (∀ c ∈ name, isTagPart c = true) ∧ Stops isTagPart after ∧ after.head? ≠ some '$' := by
  -- Two dollar signs are an empty tag. Otherwise the tag, or the name of a placeholder, is a run of
  -- the same characters, and the dollar sign behind it tells which.
  by_cases hfirst : chars.head? = some '$'
  · obtain ⟨rest, rfl⟩ := List.head?_eq_some_iff.mp hfirst
    rw [scanDollar] at h
    split at h
    · rename_i text after' hscan
      obtain ⟨rfl, rfl⟩ := Prod.mk.inj (Except.ok.inj h)
      obtain ⟨body, rfl, hread, hbody⟩ := scanDollarText_spec hscan
      rw [if_neg (by simp)] at hbody
      refine .inl ⟨_, _, '$' :: body, rfl, rfl, ?_, fun rest => ?_⟩
      · simp [Token.text, hbody]
      · rw [List.cons_append, scanDollar, hread]
    · cases h
  obtain ⟨hchars, htag, hstop⟩ := span_spec isTagPart chars
  generalize (chars.span isTagPart).1 = tag, (chars.span isTagPart).2 = more at *
  obtain rfl := hchars
  by_cases hmore : more.head? = some '$'
  · obtain ⟨rest, rfl⟩ := List.head?_eq_some_iff.mp hmore
    have hne : tag ≠ [] := by
      rintro rfl
      exact hfirst rfl
    rw [scanDollar_tagged htag hne] at h
    split at h
    · rename_i text after' hscan
      obtain ⟨rfl, rfl⟩ := Prod.mk.inj (Except.ok.inj h)
      obtain ⟨rfl, hread⟩ := scanUntil_spec (List.cons_ne_nil _ _) hscan
      refine .inl ⟨_, _, tag ++ '$' :: (text ++ ('$' :: tag ++ ['$'])), rfl, by simp, ?_, ?_⟩
      · simp [Token.text]
      · intro rest
        rw [List.append_assoc, List.cons_append, scanDollar_tagged htag hne]
        have hclosed : scanUntil ('$' :: tag ++ ['$']) (text ++ ('$' :: tag ++ ['$']) ++ rest) =
            some (text, rest) := hread rest
        rw [hclosed]
    · cases h
  · rw [scanDollar_placeholder htag hstop hmore] at h
    obtain ⟨rfl, rfl⟩ := Prod.mk.inj (Except.ok.inj h)
    exact .inr ⟨tag, rfl, rfl, htag, hstop, hmore⟩

/-! ## Tokens -/

/-- A character that starts no token of several characters, and is no white space. -/
structure IsSingle (c : Char) : Prop where
  noSpace : Text.isSpace c = false
  noQuote : c ≠ '\'' ∧ c ≠ '[' ∧ c ≠ '"'
  noNumber : c.isDigit = false ∧ c ≠ '.'
  noMark : isMarkStart c = false
  noSign : c ≠ '#' ∧ c ≠ '@' ∧ c ≠ '?' ∧ c ≠ '$'
  noWord : isWordStart c = false

/-- What is known of a token that is read, of its spelling and of what follows. A word may stand
before the token or not. -/
inductive Reads (afterWord : Bool) : Token → List Char → List Char → Prop where
  | blank {gap : Blank} {c : Char} {body after : List Char} :
      Text.isSpace c = true ∨ c = '-' ∨ c = '/' → (c = ' ' → gap = .space) →
      Reads afterWord (.blank gap) (c :: body) after
  | bracketed {text after : List Char} :
      after.head? ≠ some ']' →
      Reads afterWord (.word (String.ofList text) .bracket) ('[' :: (doubled ']' text ++ [']'])) after
  | quoted {text after : List Char} :
      after.head? ≠ some '"' →
      Reads afterWord (.word (String.ofList text) .double) ('"' :: (doubled '"' text ++ ['"'])) after
  | plain {text after : List Char} :
      after.head? ≠ some '\'' →
      Reads afterWord (.literal .plain (String.ofList text))
        ('\'' :: (doubled '\'' text ++ ['\''])) after
  | national {c : Char} {text body after : List Char} :
      c = 'N' ∨ c = 'n' → after.head? ≠ some '\'' →
      visible (doubled '\'' text) + text.count '\\' ≤ visible body →
      Reads afterWord (.literal .national (String.ofList text)) (c :: '\'' :: (body ++ ['\''])) after
  | quotedBinary {c : Char} {text body after : List Char} :
      c = 'X' ∨ c = 'x' → after.head? ≠ some '\'' → visible text ≤ visible body →
      Reads afterWord (.literal .binary (String.ofList text)) (c :: '\'' :: (body ++ ['\''])) after
  | escaped {c : Char} {text body after : List Char} :
      c = 'E' ∨ c = 'e' → after.head? ≠ some '\'' →
      visible text + text.count '\'' + text.count '\\' ≤ visible body →
      Reads afterWord (.literal .escaped (String.ofList text)) (c :: '\'' :: (body ++ ['\''])) after
  | number {token : Token} {spelling after : List Char} :
      ReadsNumber token spelling after →
      (token = .mark .period → after.head? = some '_' → afterWord = true) →
      Reads afterWord token spelling after
  | mark {m : Mark} {spelling after : List Char} :
      m ≠ .period → Stops m.isExtendedBy after →
      spelling = m.text.toList ∨ m = .notEqual ∧ spelling = ['!', '='] →
      Reads afterWord (.mark m) spelling after
  | word {text after : List Char} :
      IsBareWord text → WordEnds text after →
      Reads afterWord (.word (String.ofList text) .bare) text after
  | dollar {tag value : String} {body after : List Char} :
      (Token.dollar tag value).text.toList = '$' :: body →
      (∀ rest, scanDollar (body ++ rest) = .ok (.dollar tag value, rest)) →
      Reads afterWord (.dollar tag value) ('$' :: body) after
  | placeholder {digits after : List Char} :
      (∀ c ∈ digits, Text.isNumeral c = true) → Stops Text.isNumeral after →
      Reads afterWord (.placeholder (String.ofList ('?' :: digits))) ('?' :: digits) after
  | parameter {name after : List Char} :
      (∀ c ∈ name, isTagPart c = true) → Stops isTagPart after → after.head? ≠ some '$' →
      Reads afterWord (.placeholder (String.ofList ('$' :: name))) ('$' :: name) after
  | other {c : Char} {after : List Char} :
      IsSingle c → Reads afterWord (.other c) [c] after

theorem Reads.spelling_ne_nil {afterWord : Bool} {token : Token} {spelling after : List Char}
    (h : Reads afterWord token spelling after) : spelling ≠ [] := by
  cases h with
  | number h _ =>
    cases h with
    | short hbase _ _ => exact fun hnil => hbase.ne_nil (List.append_eq_nil_iff.mp hnil).1
    | long _ _ => simp
    | _ => exact List.cons_ne_nil _ _
  | @mark m _ _ _ _ hspelling =>
    rcases hspelling with rfl | ⟨rfl, rfl⟩
    · cases m <;> exact List.cons_ne_nil _ _
    · exact List.cons_ne_nil _ _
  | word hword _ => cases hword <;> exact List.cons_ne_nil _ _
  | _ => exact List.cons_ne_nil _ _

/-! ## Reading steps -/

/-- Nothing that is told from the first two characters starts here. -/
structure OpensNothing (c : Char) (rest : List Char) : Prop where
  noBlank : c ≠ ' ' ∧ c ≠ '\t' ∧ c ≠ '\n' ∧ c ≠ '\r'
  noQuote : c ≠ '\'' ∧ c ≠ '[' ∧ c ≠ '"'
  lineComment : c = '-' → rest.head? ≠ some '-'
  blockComment : c = '/' → rest.head? ≠ some '*'
  period : c = '.' → rest.head? ≠ some '_'
  literal : isPrefixLetter c = true → rest.head? ≠ some '\''

section Steps

variable {afterWord : Bool} {c : Char} {rest after : List Char} {token : Token}

theorem scanToken_eq_other (h : OpensNothing c rest) :
    scanToken afterWord c rest = scanToken.other c rest := by
  obtain ⟨⟨h1, h2, h3, h4⟩, ⟨h5, h6, h7⟩, hline, hblock, hperiod, hliteral⟩ := h
  unfold scanToken
  rw [if_neg h1, if_neg h2, if_neg h3, if_neg h4, if_neg h5, if_neg h6, if_neg h7]
  split
  · exact absurd rfl (hline rfl)
  · exact absurd rfl (hblock rfl)
  · exact absurd rfl (hperiod rfl)
  · have hprefix : ¬ isPrefixLetter c = true := fun h => hliteral h rfl
    simp only [isPrefixLetter, Bool.or_eq_true, beq_iff_eq, not_or] at hprefix
    obtain ⟨⟨⟨⟨⟨hN, hn⟩, hX⟩, hx⟩, hE⟩, he⟩ := hprefix
    rw [if_neg (by simp [hN, hn]), if_neg (by simp [hX, hx]), if_neg (by simp [hE, he])]
  · rfl

/-- A mark that is read ends there, as no comment starts with it. -/
theorem OpensNothing.stops_mark (hopens : OpensNothing c rest) {m : Mark}
    (h : scanMark (c :: rest) = some (m, after)) : Stops m.isExtendedBy after := by
  obtain ⟨-, hends, hspelling⟩ := scanMark_spec h
  intro d hd
  rw [Bool.eq_false_iff]
  intro hextended
  rcases hends d hd hextended with ⟨rfl, rfl⟩ | ⟨rfl, rfl⟩
  · rcases hspelling with hspelling | ⟨hnot, -⟩
    · obtain ⟨rfl, rfl⟩ := List.cons.inj hspelling
      exact hopens.lineComment rfl hd
    · cases hnot
  · rcases hspelling with hspelling | ⟨hnot, -⟩
    · obtain ⟨rfl, rfl⟩ := List.cons.inj hspelling
      exact hopens.blockComment rfl hd
    · cases hnot

theorem reads_hash (rest : List Char) :
    ∃ spelling, '#' :: rest = spelling ++ (scanHash rest).2 ∧
      Reads afterWord (scanHash rest).1 spelling (scanHash rest).2 := by
  unfold scanHash
  split
  · exact ⟨_, rfl, .mark nofun (fun _ _ => rfl) (.inl rfl)⟩
  · exact ⟨_, rfl, .mark nofun (fun _ _ => rfl) (.inl rfl)⟩
  · rename_i hlong
    refine ⟨_, rfl, .mark nofun (fun d hd => ?_) (.inl rfl)⟩
    obtain ⟨more, rfl⟩ := List.head?_eq_some_iff.mp hd
    refine beq_eq_false_iff_ne.mpr ?_
    rintro rfl
    exact hlong more rfl
  · exact ⟨_, rfl, .mark nofun .nil (.inl rfl)⟩
  · rename_i c rest hminus hlong harrow
    split
    · rename_i hspace
      exact ⟨['#'], rfl, .mark nofun (stops_cons.mpr (hspace ▸ rfl))
        (.inl rfl)⟩
    · rename_i hspace
      obtain ⟨parts, after, rfl, hparts, hafter, hscan⟩ := scanWord_spec ['#', c] rest
      rw [hscan]
      refine ⟨'#' :: c :: parts, rfl, .word (.hash hspace ?_ ?_ hparts) ⟨hafter, nofun⟩⟩
      · exact fun h => hminus h
      · exact fun h => harrow h

theorem reads_at (rest : List Char) :
    ∃ spelling, '@' :: rest = spelling ++ (scanAt rest).2 ∧
      Reads afterWord (scanAt rest).1 spelling (scanAt rest).2 := by
  unfold scanAt
  split
  · exact ⟨_, rfl, .mark nofun (fun _ _ => rfl) (.inl rfl)⟩
  · exact ⟨_, rfl, .mark nofun (fun _ _ => rfl) (.inl rfl)⟩
  · exact ⟨['@', '@'], rfl, .mark nofun .nil (.inl rfl)⟩
  · rename_i c rest
    split
    · rename_i hspace
      exact ⟨['@', '@'], rfl, .mark nofun (stops_cons.mpr (hspace ▸ rfl))
        (.inl rfl)⟩
    · rename_i hspace
      obtain ⟨parts, after, rfl, hparts, hafter, hscan⟩ := scanWord_spec ['@', '@', c] rest
      rw [hscan]
      exact ⟨'@' :: '@' :: c :: parts, rfl, .word (.doubleAt hspace hparts) ⟨hafter, nofun⟩⟩
  · exact ⟨['@'], rfl, .mark nofun .nil (.inl rfl)⟩
  · rename_i c rest harrow hquestion hsingle hdouble
    split
    · rename_i hstops
      exact ⟨['@'], rfl, .mark nofun (stops_cons.mpr (congrArg (!·) hstops)) (.inl rfl)⟩
    · rename_i hextended
      obtain ⟨parts, after, rfl, hparts, hafter, hscan⟩ := scanWord_spec ['@', c] rest
      rw [hscan]
      refine ⟨'@' :: c :: parts, rfl, .word (.at ?_ harrow hquestion ?_ hparts) ⟨hafter, nofun⟩⟩
      · exact congrArg (!·) (Bool.eq_false_iff.mpr hextended)
      · rintro rfl
        cases hrest : parts ++ after with
        | nil => exact hsingle rfl hrest
        | cons d more => exact hdouble d more rfl hrest

/-- A number, a binary literal or a period is read, and no name stands behind the period. -/
theorem readsNumber_of_opensNothing (hopens : OpensNothing c rest)
    (hnumber : c.isDigit = true ∨ c = '.') (h : scanNumber (c :: rest) = (token, after)) :
    ∃ spelling, c :: rest = spelling ++ after ∧ ReadsNumber token spelling after ∧
      (token = .mark .period → c = '.' ∧ after.head? ≠ some '_') := by
  obtain ⟨spelling, hspelling, hreads⟩ := scanNumber_spec hnumber
  rw [h] at hspelling hreads
  refine ⟨spelling, hspelling, hreads, fun hperiod => ?_⟩
  subst hperiod
  cases hreads with
  | period hdigit =>
    obtain ⟨rfl, rfl⟩ := List.cons.inj hspelling
    exact ⟨rfl, hopens.period rfl⟩

theorem reads_mark (hopens : OpensNothing c rest) {m : Mark}
    (h : scanMark (c :: rest) = some (m, after)) :
    ∃ spelling, c :: rest = spelling ++ after ∧ Reads afterWord (.mark m) spelling after := by
  obtain ⟨hplain, -, hspelling⟩ := scanMark_spec h
  have hperiod : m ≠ .period := by
    rintro rfl
    cases hplain
  have hstops : Stops m.isExtendedBy after := hopens.stops_mark h
  rcases hspelling with hspelling | ⟨rfl, hspelling⟩
  · exact ⟨_, hspelling, .mark hperiod hstops (.inl rfl)⟩
  · exact ⟨['!', '='], hspelling, .mark hperiod hstops (.inr ⟨rfl, rfl⟩)⟩

theorem reads_bareWord (hopens : OpensNothing c rest) (hstart : isWordStart c = true)
    (hhash : c ≠ '#') (hat : c ≠ '@') (h : scanWord [c] rest = (token, after)) :
    ∃ spelling, c :: rest = spelling ++ after ∧ Reads afterWord token spelling after := by
  obtain ⟨parts, after', rfl, hparts, hafter, hscan⟩ := scanWord_spec [c] rest
  rw [hscan] at h
  obtain ⟨rfl, rfl⟩ := Prod.mk.inj h
  refine ⟨c :: parts, rfl, .word (.plain hstart hhash hat hparts) ⟨hafter, ?_⟩⟩
  intro d hd hprefix
  obtain ⟨rfl, rfl⟩ := List.cons.inj hd
  exact hopens.literal hprefix

theorem reads_dollar (h : scanDollar rest = .ok (token, after)) :
    ∃ spelling, '$' :: rest = spelling ++ after ∧ Reads afterWord token spelling after := by
  rcases scanDollar_spec h with ⟨tag, value, body, rfl, rfl, htext, hread⟩ |
    ⟨name, rfl, rfl, hname, hafter, hnext⟩
  · exact ⟨_, rfl, .dollar htext hread⟩
  · exact ⟨_, rfl, .parameter hname hafter hnext⟩

theorem reads_other (hopens : OpensNothing c rest)
    (h : scanToken.other c rest = .ok (token, after)) :
    ∃ spelling, c :: rest = spelling ++ after ∧ Reads afterWord token spelling after := by
  -- The branches are taken in the scanner's order. What was not taken stays in the context, as a
  -- token of one character is anything that none of them takes.
  unfold scanToken.other at h
  split at h
  · rename_i hstart
    have hnumber : c.isDigit = true ∨ c = '.' := by simpa using hstart
    obtain ⟨spelling, hspelling, hreads, hperiod⟩ :=
      readsNumber_of_opensNothing hopens hnumber (Except.ok.inj h)
    exact ⟨spelling, hspelling, .number hreads fun hmark hhead => absurd hhead (hperiod hmark).2⟩
  rename_i hnumber
  split at h
  · rename_i hmark
    obtain ⟨rfl, rfl⟩ := Prod.mk.inj (Except.ok.inj h)
    exact reads_mark hopens hmark
  rename_i hmark
  split at h
  · rename_i hhash
    subst hhash
    obtain ⟨rfl, rfl⟩ := Prod.mk.inj (Except.ok.inj h)
    exact reads_hash rest
  split at h
  · rename_i hat
    subst hat
    obtain ⟨rfl, rfl⟩ := Prod.mk.inj (Except.ok.inj h)
    exact reads_at rest
  split at h
  · rename_i hquestion
    subst hquestion
    obtain ⟨hrest, hdigits, hafter⟩ := span_spec Text.isNumeral rest
    obtain ⟨rfl, rfl⟩ := Prod.mk.inj (Except.ok.inj h)
    exact ⟨_, congrArg ('?' :: ·) hrest, .placeholder hdigits hafter⟩
  rename_i hnosign hnoat hnoquestion
  split at h
  · rename_i hword
    exact reads_bareWord hopens hword hnosign hnoat (Except.ok.inj h)
  rename_i hnoword
  split at h
  · rename_i hdollar
    subst hdollar
    exact reads_dollar h
  rename_i hnodollar
  split at h
  · rename_i hspace
    obtain ⟨rfl, rfl⟩ := Prod.mk.inj (Except.ok.inj h)
    exact ⟨[c], rfl, .blank (.inl hspace) fun _ => rfl⟩
  · rename_i hspace
    obtain ⟨rfl, rfl⟩ := Prod.mk.inj (Except.ok.inj h)
    refine ⟨[c], rfl, .other ⟨by simpa using hspace, hopens.noQuote, by simpa using hnumber, ?_,
      ⟨hnosign, hnoat, hnoquestion, hnodollar⟩, by simpa using hnoword⟩⟩
    exact not_isMarkStart hmark

theorem closeLiteral_eq_ok {kind : LiteralKind} {found : Option (List Char × List Char)} :
    closeLiteral kind found = .ok (token, after) ↔
      ∃ text, found = some (text, after) ∧ token = .literal kind (String.ofList text) := by
  unfold closeLiteral
  cases found with
  | none => simp
  | some found =>
    constructor
    · intro h
      obtain ⟨rfl, rfl⟩ := Prod.mk.inj (Except.ok.inj h)
      exact ⟨found.1, rfl, rfl⟩
    · rintro ⟨text, hfound, rfl⟩
      obtain rfl := Option.some.inj hfound
      rfl

theorem closeWord_eq_ok {quote : Quote} {found : Option (List Char × List Char)} :
    scanToken.closeWord quote found = .ok (token, after) ↔
      ∃ text, found = some (text, after) ∧ token = .word (String.ofList text) quote := by
  unfold scanToken.closeWord
  cases found with
  | none => simp
  | some found =>
    constructor
    · intro h
      obtain ⟨rfl, rfl⟩ := Prod.mk.inj (Except.ok.inj h)
      exact ⟨found.1, rfl, rfl⟩
    · rintro ⟨text, hfound, rfl⟩
      obtain rfl := Option.some.inj hfound
      rfl

theorem scanLineComment_spec (body : List Char) :
    ∃ text spelling after, body = spelling ++ after ∧
      scanLineComment body = (.blank (.lineComment text), after) := by
  obtain ⟨hbody, -, -⟩ := span_spec (· != '\n') body
  unfold scanLineComment
  dsimp only
  split
  · rename_i hafter
    rw [hafter] at hbody
    exact ⟨_, (body.span (· != '\n')).1 ++ [_], _, by simpa using hbody, rfl⟩
  · exact ⟨_, body, [], (List.append_nil body).symm, rfl⟩

theorem scanBlockComment_spec {body text : List Char} (h : scanBlockComment body = some (text, after)) :
    ∃ spelling, body = spelling ++ after := by
  induction body using scanBlockComment.induct generalizing text with
  | case1 => cases h
  | case2 rest =>
    rw [scanBlockComment] at h
    obtain ⟨rfl, rfl⟩ := Prod.mk.inj (Option.some.inj h)
    exact ⟨['*', '/'], rfl⟩
  | case3 c rest hnot ih =>
    rw [scanBlockComment] at h
    · obtain ⟨inner, hinner, rfl⟩ := exists_of_map_fst h
      obtain ⟨spelling, rfl⟩ := ih hinner
      exact ⟨c :: spelling, rfl⟩
    · exact hnot

/-! ## Openings -/

/-- What the first two characters tell: white space, a quote, a comment, a period in front of a name,
or a letter that makes a literal of the text in quotes behind it. -/
inductive Opening : Char → List Char → Prop where
  | space {c : Char} {rest : List Char} : c = ' ' ∨ c = '\t' ∨ c = '\n' → Opening c rest
  | carriageReturn (rest : List Char) : Opening '\r' rest
  | single (rest : List Char) : Opening '\'' rest
  | bracket (rest : List Char) : Opening '[' rest
  | double (rest : List Char) : Opening '"' rest
  | lineComment (body : List Char) : Opening '-' ('-' :: body)
  | blockComment (body : List Char) : Opening '/' ('*' :: body)
  | period (body : List Char) : Opening '.' ('_' :: body)
  | national {c : Char} (body : List Char) : c = 'N' ∨ c = 'n' → Opening c ('\'' :: body)
  | binary {c : Char} (body : List Char) : c = 'X' ∨ c = 'x' → Opening c ('\'' :: body)
  | escaped {c : Char} (body : List Char) : c = 'E' ∨ c = 'e' → Opening c ('\'' :: body)

theorem opening_of_not_opensNothing (h : ¬ OpensNothing c rest) : Opening c rest := by
  by_contra hnone
  have hne {d : Char} (hd : Opening d rest) : c ≠ d := by
    rintro rfl
    exact hnone hd
  have hhead {d : Char} (hd : ∀ body, Opening c (d :: body)) : rest.head? ≠ some d := by
    intro hfirst
    obtain ⟨body, rfl⟩ := List.head?_eq_some_iff.mp hfirst
    exact hnone (hd body)
  refine h
    { noBlank := ⟨hne (.space (.inl rfl)), hne (.space (.inr (.inl rfl))),
        hne (.space (.inr (.inr rfl))), hne (.carriageReturn rest)⟩
      noQuote := ⟨hne (.single rest), hne (.bracket rest), hne (.double rest)⟩
      lineComment := fun hc => hhead fun body => hc ▸ .lineComment body
      blockComment := fun hc => hhead fun body => hc ▸ .blockComment body
      period := fun hc => hhead fun body => hc ▸ .period body
      literal := fun hprefix => hhead fun body => ?_ }
  simp only [isPrefixLetter, Bool.or_eq_true, beq_iff_eq, or_assoc] at hprefix
  rcases hprefix with hc | hc | hc | hc | hc | hc
  · exact .national body (.inl hc)
  · exact .national body (.inr hc)
  · exact .binary body (.inl hc)
  · exact .binary body (.inr hc)
  · exact .escaped body (.inl hc)
  · exact .escaped body (.inr hc)

/-- A carriage return takes a line feed behind it. -/
theorem scanToken_carriageReturn (rest : List Char) :
    scanToken afterWord '\r' rest =
      .ok (.blank .newline, if rest.head? = some '\n' then rest.tail else rest) := by
  cases rest with
  | nil => rfl
  | cons d more =>
    by_cases hd : d = '\n'
    · subst hd
      rfl
    · simp [scanToken, hd]

theorem scanToken_blockComment (body : List Char) :
    scanToken afterWord '/' ('*' :: body) =
      match scanBlockComment body with
      | some (text, after) => .ok (.blank (.blockComment (String.ofList text)), after)
      | none => .error .atEnd := rfl

/-- In front of a name a period is read only behind a word. -/
theorem scanToken_periodBeforeName (body : List Char) :
    scanToken afterWord '.' ('_' :: body) =
      if afterWord then .ok (.mark .period, '_' :: body) else .error .here := rfl

theorem scanToken_nationalPrefix (hc : c = 'N' ∨ c = 'n') (body : List Char) :
    scanToken afterWord c ('\'' :: body) = closeLiteral .national (scanBackslashed body) := by
  rcases hc with rfl | rfl <;> rfl

theorem scanToken_binaryPrefix (hc : c = 'X' ∨ c = 'x') (body : List Char) :
    scanToken afterWord c ('\'' :: body) = closeLiteral .binary (scanBackslashed body) := by
  rcases hc with rfl | rfl <;> rfl

theorem scanToken_escapedPrefix (hc : c = 'E' ∨ c = 'e') (body : List Char) :
    scanToken afterWord c ('\'' :: body) =
      closeLiteral .escaped (scanEscaped (body.length + 1) body) := by
  rcases hc with rfl | rfl <;> rfl

theorem reads_space (hc : c = ' ' ∨ c = '\t' ∨ c = '\n')
    (h : scanToken afterWord c rest = .ok (token, after)) :
    ∃ spelling, c :: rest = spelling ++ after ∧ Reads afterWord token spelling after := by
  refine ⟨[c], ?_⟩
  rcases hc with rfl | rfl | rfl
  all_goals obtain ⟨rfl, rfl⟩ := Prod.mk.inj (Except.ok.inj h)
  · exact ⟨rfl, .blank (.inl rfl) fun _ => rfl⟩
  · exact ⟨rfl, .blank (.inl rfl) nofun⟩
  · exact ⟨rfl, .blank (.inl rfl) nofun⟩

theorem reads_carriageReturn (h : scanToken afterWord '\r' rest = .ok (token, after)) :
    ∃ spelling, '\r' :: rest = spelling ++ after ∧ Reads afterWord token spelling after := by
  rw [scanToken_carriageReturn] at h
  obtain ⟨rfl, hafter⟩ := Prod.mk.inj (Except.ok.inj h)
  by_cases hfeed : rest.head? = some '\n'
  · obtain ⟨more, rfl⟩ := List.head?_eq_some_iff.mp hfeed
    obtain rfl : more = after := (if_pos rfl).symm.trans hafter
    exact ⟨['\r', '\n'], rfl, .blank (.inl rfl) nofun⟩
  · obtain rfl : rest = after := (if_neg hfeed).symm.trans hafter
    exact ⟨['\r'], rfl, .blank (.inl rfl) nofun⟩

theorem reads_blockComment {body : List Char}
    (h : scanToken afterWord '/' ('*' :: body) = .ok (token, after)) :
    ∃ spelling, '/' :: '*' :: body = spelling ++ after ∧ Reads afterWord token spelling after := by
  rw [scanToken_blockComment] at h
  split at h
  · rename_i hscan
    obtain ⟨rfl, rfl⟩ := Prod.mk.inj (Except.ok.inj h)
    obtain ⟨spelling, rfl⟩ := scanBlockComment_spec hscan
    exact ⟨'/' :: '*' :: spelling, rfl, .blank (.inr (.inr rfl)) nofun⟩
  · cases h

theorem reads_periodBeforeName {body : List Char}
    (h : scanToken afterWord '.' ('_' :: body) = .ok (token, after)) :
    ∃ spelling, '.' :: '_' :: body = spelling ++ after ∧ Reads afterWord token spelling after := by
  rw [scanToken_periodBeforeName] at h
  split at h
  · rename_i hword
    obtain ⟨rfl, rfl⟩ := Prod.mk.inj (Except.ok.inj h)
    exact ⟨['.'], rfl, .number (.period (stops_cons.mpr (by decide))) fun _ _ => hword⟩
  · cases h

theorem reads_of_opening (hopening : Opening c rest)
    (h : scanToken afterWord c rest = .ok (token, after)) :
    ∃ spelling, c :: rest = spelling ++ after ∧ Reads afterWord token spelling after := by
  cases hopening with
  | space hc => exact reads_space hc h
  | carriageReturn => exact reads_carriageReturn h
  | single =>
    obtain ⟨text, hscan, rfl⟩ := closeLiteral_eq_ok.mp h
    obtain ⟨rfl, hafter⟩ := scanQuoted_spec hscan
    exact ⟨_, by simp, .plain hafter⟩
  | bracket =>
    obtain ⟨text, hscan, rfl⟩ := closeWord_eq_ok.mp h
    obtain ⟨rfl, hafter⟩ := scanQuoted_spec hscan
    exact ⟨_, by simp, .bracketed hafter⟩
  | double =>
    obtain ⟨text, hscan, rfl⟩ := closeWord_eq_ok.mp h
    obtain ⟨rfl, hafter⟩ := scanQuoted_spec hscan
    exact ⟨_, by simp, .quoted hafter⟩
  | lineComment body =>
    obtain ⟨text, spelling, after', rfl, hscan⟩ := scanLineComment_spec body
    obtain ⟨rfl, rfl⟩ := Prod.mk.inj (hscan.symm.trans (Except.ok.inj h))
    exact ⟨'-' :: '-' :: spelling, rfl, .blank (.inr (.inl rfl)) nofun⟩
  | blockComment => exact reads_blockComment h
  | period => exact reads_periodBeforeName h
  | national body hc =>
    rw [scanToken_nationalPrefix hc] at h
    obtain ⟨text, hscan, rfl⟩ := closeLiteral_eq_ok.mp h
    obtain ⟨inner, rfl, hafter, hvisible⟩ := scanBackslashed_spec hscan
    exact ⟨c :: '\'' :: (inner ++ ['\'']), by simp, .national hc hafter hvisible⟩
  | binary body hc =>
    rw [scanToken_binaryPrefix hc] at h
    obtain ⟨text, hscan, rfl⟩ := closeLiteral_eq_ok.mp h
    obtain ⟨inner, rfl, hafter, hvisible⟩ := scanBackslashed_spec hscan
    refine ⟨c :: '\'' :: (inner ++ ['\'']), by simp, .quotedBinary hc hafter ?_⟩
    -- A binary literal is written without its quotes, so only the visible digits are counted.
    rw [visible_doubled (by decide)] at hvisible
    omega
  | escaped body hc =>
    rw [scanToken_escapedPrefix hc] at h
    obtain ⟨text, hscan, rfl⟩ := closeLiteral_eq_ok.mp h
    obtain ⟨inner, rfl, hafter, hinner⟩ := spellsEscaped_of_scanEscaped hscan
    exact ⟨c :: '\'' :: (inner ++ ['\'']), by simp, .escaped hc hafter hinner.visible⟩

/-- What is read at the head of a text has its spelling there. -/
theorem reads_of_scanToken (h : scanToken afterWord c rest = .ok (token, after)) :
    ∃ spelling, c :: rest = spelling ++ after ∧ Reads afterWord token spelling after := by
  by_cases hopens : OpensNothing c rest
  · rw [scanToken_eq_other hopens] at h
    exact reads_other hopens h
  · exact reads_of_opening (opening_of_not_opensNothing hopens) h

end Steps

end SchemaPlan.Sql
