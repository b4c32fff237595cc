import SchemaPlan.Proofs.Definition.Ahead

/-!
# Names, types and lists of names

The shapes of dotted names, of types with their sizes and of lists of names, as tokens without blanks,
and what is read where such tokens come next. What follows must not go on with the phrase: no period
may follow a name, and no parenthesis a type without sizes.

* `gives_nameText`, `gives_typeText`, `gives_keyList`, `gives_nameList`: a phrase is read as what it
  says.
-/

namespace SchemaPlan.Sql

/-! ## Shapes -/

/-- A group in parentheses. -/
inductive Group : List Token → Prop where
  | intro {inner : List Token} :
      Body.Balanced inner → Group (.mark .openParen :: (inner ++ [.mark .closeParen]))

/-- A group in parentheses, or nothing. -/
inductive Arguments : List Token → Prop where
  | none : Arguments []
  | group {tokens : List Token} : Group tokens → Arguments tokens

/-- The parts of a dotted name after the first, each behind a period. A part that another one follows
may be missing. -/
inductive Dotted : List String → List Token → Prop where
  | nil : Dotted [] []
  | part {text : String} {quote : Quote} {parts : List String} {rest : List Token} :
      Dotted parts rest → Dotted (text :: parts) (.mark .period :: .word text quote :: rest)
  | missing {parts : List String} {rest : List Token} :
      Dotted parts (.mark .period :: rest) →
      Dotted ("" :: parts) (.mark .period :: .mark .period :: rest)

/-- A dotted name of one to four parts. -/
inductive NameText : QualifiedName → List Token → Prop where
  | intro {name : QualifiedName} {first : String} {quote : Quote} {parts : List String}
      {rest : List Token} :
      Dotted parts rest → QualifiedName.ofParts? (first :: parts) = some name →
      NameText name (.word first quote :: rest)

/-- A size of a type: a number below two to the thirty-second, or `MAX`. -/
inductive SizeText : TypeSize → Token → Prop where
  | number {digits : String} {long : Bool} {n : Nat} :
      Text.natBelow? 4294967296 digits = some n → SizeText (.number n) (.number digits long)
  | max {token : Token} : token.bareWord? = some "MAX" → SizeText .max token

/-- The sizes of a type behind the parenthesis that opens, with the one that closes. -/
inductive SizeList : List TypeSize → List Token → Prop where
  | last {size : TypeSize} {token : Token} :
      SizeText size token → SizeList [size] [token, .mark .closeParen]
  | cons {size : TypeSize} {token : Token} {sizes : List TypeSize} {rest : List Token} :
      SizeText size token → SizeList sizes rest → SizeList (size :: sizes) (token :: .mark .comma :: rest)

/-- A type: a dotted name and optional sizes. -/
inductive TypeText : DeclaredType → List Token → Prop where
  | plain {name : QualifiedName} {tokens : List Token} :
      NameText name tokens → TypeText (.ofSizes name.schema name.name []) tokens
  | sized {name : QualifiedName} {tokens rest : List Token} {sizes : List TypeSize} :
      NameText name tokens → SizeList sizes rest →
      TypeText (.ofSizes name.schema name.name sizes) (tokens ++ .mark .openParen :: rest)

/-- A list of names behind the parenthesis that opens, with the one that closes. -/
inductive NameList : List String → List Token → Prop where
  | last {text : String} {quote : Quote} : NameList [text] [.word text quote, .mark .closeParen]
  | cons {text : String} {quote : Quote} {names : List String} {rest : List Token} :
      NameList names rest → NameList (text :: names) (.word text quote :: .mark .comma :: rest)

/-- The direction of a column of a key, or nothing. -/
inductive DirectionText : List Token → Prop where
  | none : DirectionText []
  | ascending {token : Token} : token.bareWord? = some "ASC" → DirectionText [token]
  | descending {token : Token} : token.bareWord? = some "DESC" → DirectionText [token]

/-- The columns of a key behind the parenthesis that opens, with the one that closes. -/
inductive KeyList : List String → List Token → Prop where
  | last {text : String} {quote : Quote} {direction : List Token} :
      DirectionText direction →
      KeyList [text] (.word text quote :: (direction ++ [.mark .closeParen]))
  | cons {text : String} {quote : Quote} {direction : List Token} {names : List String}
      {rest : List Token} :
      DirectionText direction → KeyList names rest →
      KeyList (text :: names) (.word text quote :: (direction ++ .mark .comma :: rest))

/-- A list of names is a key whose columns have no direction. -/
theorem NameList.keyList {names : List String} {tokens : List Token} (h : NameList names tokens) :
    KeyList names tokens := by
  induction h with
  | last => exact .last .none
  | cons _ ih => exact .cons .none ih

theorem NameText.exists_head {name : QualifiedName} {tokens : List Token} (h : NameText name tokens) :
    ∃ text quote rest, tokens = .word text quote :: rest := by
  cases h with
  | intro => exact ⟨_, _, _, rfl⟩

theorem TypeText.exists_head {type : DeclaredType} {tokens : List Token} (h : TypeText type tokens) :
    ∃ text quote rest, tokens = .word text quote :: rest := by
  cases h with
  | plain hname => exact hname.exists_head
  | sized hname =>
    obtain ⟨text, quote, rest, rfl⟩ := hname.exists_head
    exact ⟨text, quote, _, rfl⟩

/-! ## Reading phrases -/

namespace Reading

variable {c : Cursor} {more tokens : List Token} {fuel : Nat}

/-! ### Names -/

theorem gives_dotted {parts : List String} (h : Dotted parts tokens) (hahead : c.ahead = tokens ++ more)
    (hmore : more.head?.any (·.isMark .period) = false) (hfuel : tokens.length ≤ fuel) :
    ∃ d, Gives (nameParts fuel) c parts d ∧ d.ahead = more := by
  induction h generalizing c fuel with
  | nil =>
    have hnone : c.skipBlanks.sees (·.isMark .period) = false := by
      rw [Cursor.sees_skipBlanks, hahead]
      exact hmore
    obtain ⟨d, hd, hrest⟩ := gives_nameParts_nil hnone fuel
    exact ⟨d, hd, by rw [Cursor.ahead, hrest, ← Cursor.ahead, hahead, List.nil_append]⟩
  | @part text quote parts rest hparts ih =>
    obtain ⟨fuel, rfl⟩ : ∃ n, fuel = n + 1 := ⟨fuel - 1, by simp at hfuel; omega⟩
    rw [List.length_cons, List.length_cons] at hfuel
    have hperiod : c.skipBlanks.sees (·.isMark .period) = true := Cursor.sees_of_cons hahead _
    have hword : c.skipBlanks.advance.ahead = .word text quote :: (rest ++ more) :=
      Cursor.ahead_advance_of_cons hahead
    have hrest : c.skipBlanks.advance.skipBlanks.advance.ahead = rest ++ more :=
      Cursor.ahead_advance_of_cons hword
    have hleft : rest.length ≤ fuel := by omega
    obtain ⟨d, hd, hdmore⟩ := ih hrest hleft
    exact ⟨d, gives_nameParts.mpr (.inr ⟨_, parts, gives_afterPeriod.mpr ⟨hperiod, rfl⟩,
      .inl ⟨text, _, gives_word hword, hd, rfl⟩⟩), hdmore⟩
  -- In `a..b` the second period is seen where a part should stand: the part is empty.
  | @missing parts rest hparts ih =>
    obtain ⟨fuel, rfl⟩ : ∃ n, fuel = n + 1 := ⟨fuel - 1, by simp at hfuel; omega⟩
    have hleft : (Token.mark .period :: rest).length ≤ fuel := Nat.le_of_succ_le_succ hfuel
    have hperiod : c.skipBlanks.sees (·.isMark .period) = true := Cursor.sees_of_cons hahead _
    have hrest : c.skipBlanks.advance.skipBlanks.ahead = .mark .period :: rest ++ more := by
      rw [Cursor.ahead_skipBlanks, Cursor.ahead_advance, hahead]
      rfl
    obtain ⟨d, hd, hdmore⟩ := ih hrest hleft
    have hagain : c.skipBlanks.advance.skipBlanks.sees (·.isMark .period) = true := by
      rw [Cursor.sees_skipBlanks, ← Cursor.ahead_skipBlanks, hrest]
      rfl
    exact ⟨d, gives_nameParts.mpr (.inr ⟨_, parts, gives_afterPeriod.mpr ⟨hperiod, rfl⟩,
      .inr ⟨hagain, hd, rfl⟩⟩), hdmore⟩

/-- A dotted name is read as the name with its parts. -/
theorem gives_nameText {name : QualifiedName} (h : NameText name tokens)
    (hahead : c.ahead = tokens ++ more) (hmore : more.head?.any (·.isMark .period) = false) :
    ∃ d, Gives qualifiedName c.skipBlanks name d ∧ d.ahead = more := by
  cases h with
  | @intro first quote parts rest hparts hname =>
    have hrest : c.skipBlanks.advance.ahead = rest ++ more := Cursor.ahead_advance_of_cons hahead
    have hfuel : rest.length ≤ c.skipBlanks.advance.rest.length := by
      have hle := Cursor.ahead_length_le c.skipBlanks.advance
      rw [hrest, List.length_append, Cursor.left_eq] at hle
      omega
    obtain ⟨d, hd, hdmore⟩ := gives_dotted hparts hrest hmore hfuel
    exact ⟨d, gives_qualifiedName.mpr ⟨first, parts, _, gives_word hahead, hd, hname⟩, hdmore⟩

/-- Two keywords, with a name behind them. -/
def headedName (first second : String) : Reading QualifiedName := do
  skipBlanks
  expect (·.isKeyword first)
  skipBlanks
  expect (·.isKeyword second)
  skipBlanks
  let name ← qualifiedName
  skipBlanks
  return name

theorem local_headedName {P : List Token → Prop} (hP : Admits P) (first second : String) :
    Local P (headedName first second) := by
  have hskip := local_skipBlanks hP
  refine .bind hP hskip fun _ => .bind hP (local_keyword hP _) fun _ => .bind hP hskip fun _ =>
    .bind hP (local_keyword hP _) fun _ => .bind hP hskip fun _ =>
    .bind hP (local_qualifiedName hP) fun _ => .bind hP hskip fun _ => local_pure hP _

/-- The size that a token stands for; nothing if it stands for none. -/
def sizeOf (token : Option Token) : Reading TypeSize :=
  match token with
  | some (.number digits _) =>
    match Text.natBelow? 4294967296 digits with
    | some n => pure (.number n)
    | none => failure
  | some (.word text _) => if Text.sameText text "MAX" then pure .max else failure
  | _ => failure

theorem sizeOf_eq {size : TypeSize} {token : Token} (h : SizeText size token) :
    sizeOf (some token) = pure size := by
  cases h with
  | number hn => simp only [sizeOf, hn]
  | max hmax =>
    obtain ⟨text, rfl, htext⟩ := Body.exists_word_of_bareWord? hmax
    have hsame : Text.sameText text "MAX" = true :=
      (Text.sameText_iff_asciiUpper text "MAX").mpr (htext.trans rfl)
    simp only [sizeOf, hsame, if_true]

theorem typeSizes_succ (fuel : Nat) :
    typeSizes (fuel + 1) = (do
      skipBlanks
      let size ← sizeOf (← get).current?
      advance
      skipBlanks
      if ← accepts (·.isMark .closeParen) then return [size]
      expect (·.isMark .comma)
      return size :: (← typeSizes fuel)) := by
  rw [typeSizes]
  refine bind_congr fun _ => bind_congr fun c => ?_
  unfold sizeOf
  rcases c.current? with _ | token
  · rfl
  · cases token with
    | number digits long =>
      dsimp only
      cases Text.natBelow? 4294967296 digits <;> rfl
    | word text quote =>
      dsimp only
      split <;> rfl
    | _ => rfl

theorem gives_sizeList {sizes : List TypeSize} (h : SizeList sizes tokens)
    (hahead : c.ahead = tokens ++ more) (hfuel : tokens.length ≤ fuel) :
    ∃ d, Gives (typeSizes fuel) c sizes d ∧ d.ahead = more := by
  induction h generalizing c fuel with
  | @last size token hsize =>
    obtain ⟨fuel, rfl⟩ : ∃ n, fuel = n + 1 := ⟨fuel - 1, by simp at hfuel; omega⟩
    have hclose : c.skipBlanks.advance.ahead = .mark .closeParen :: more :=
      Cursor.ahead_advance_of_cons hahead
    refine ⟨c.skipBlanks.advance.skipBlanks.advance, ?_, Cursor.ahead_advance_of_cons hclose⟩
    rw [typeSizes_succ, gives_skipBlanks_bind, gives_get_bind, Cursor.current?_skipBlanks, hahead,
      List.cons_append, List.head?_cons, sizeOf_eq hsize, pure_bind, gives_advance_bind,
      gives_skipBlanks_bind, gives_accepts_bind, Cursor.sees_skipBlanks, hclose]
    exact gives_pure.mpr ⟨rfl, rfl⟩
  | @cons size token sizes rest hsize _ ih =>
    obtain ⟨fuel, rfl⟩ : ∃ n, fuel = n + 1 := ⟨fuel - 1, by simp at hfuel; omega⟩
    rw [List.length_cons, List.length_cons] at hfuel
    have hcomma : c.skipBlanks.advance.ahead = .mark .comma :: (rest ++ more) :=
      Cursor.ahead_advance_of_cons hahead
    have hrest : c.skipBlanks.advance.skipBlanks.advance.ahead = rest ++ more :=
      Cursor.ahead_advance_of_cons hcomma
    have hleft : rest.length ≤ fuel := by omega
    obtain ⟨d, hd, hdmore⟩ := ih hrest hleft
    refine ⟨d, ?_, hdmore⟩
    rw [typeSizes_succ, gives_skipBlanks_bind, gives_get_bind, Cursor.current?_skipBlanks, hahead,
      List.cons_append, List.head?_cons, sizeOf_eq hsize, pure_bind, gives_advance_bind,
      gives_skipBlanks_bind, gives_accepts_bind, Cursor.sees_skipBlanks, hcomma]
    refine gives_expect_bind.mpr ⟨?_, gives_bind.mpr ⟨sizes, d, hd, gives_pure.mpr ⟨rfl, rfl⟩⟩⟩
    rw [Cursor.sees_skipBlanks, hcomma]
    rfl

/-- A type is read with its sizes. -/
theorem gives_typeText {type : DeclaredType} (h : TypeText type tokens)
    (hahead : c.ahead = tokens ++ more) (hperiod : more.head?.any (·.isMark .period) = false)
    (hopen : more.head?.any (·.isMark .openParen) = false) :
    ∃ d, Gives declaredType c.skipBlanks type d ∧ d.ahead = more := by
  unfold declaredType
  cases h with
  | @plain name tokens hname =>
    obtain ⟨m, hm, hmore⟩ := gives_nameText hname hahead hperiod
    -- The search for sizes passes over blanks, and goes back where it finds no parenthesis.
    refine ⟨m.skipBlanks.moveTo m.pos, ?_, ?_⟩
    · refine gives_bind.mpr ⟨name, m, hm, ?_⟩
      rw [gives_position_bind, gives_skipBlanks_bind, gives_accepts_bind, Cursor.sees_skipBlanks, hmore,
        hopen]
      exact gives_moveTo_bind.mpr (gives_pure.mpr ⟨rfl, rfl⟩)
    · rw [Cursor.ahead_moveTo (Cursor.tokens_skipBlanks m), hmore]
  | @sized name tokens rest sizes hname hsizes =>
    rw [List.append_assoc] at hahead
    obtain ⟨m, hm, hparen⟩ := gives_nameText hname hahead rfl
    have hrest : m.skipBlanks.advance.ahead = rest ++ more := Cursor.ahead_advance_of_cons hparen
    have hfuel : rest.length ≤ m.skipBlanks.advance.left + 1 := by
      have hle := Cursor.ahead_length_le m.skipBlanks.advance
      rw [hrest, List.length_append] at hle
      omega
    obtain ⟨d, hd, hdmore⟩ := gives_sizeList hsizes hrest hfuel
    refine ⟨d, gives_bind.mpr ⟨name, m, hm, ?_⟩, hdmore⟩
    rw [gives_position_bind, gives_skipBlanks_bind, gives_accepts_bind, Cursor.sees_skipBlanks, hparen]
    exact gives_get_bind.mpr (gives_bind.mpr ⟨sizes, d, hd, gives_pure.mpr ⟨rfl, rfl⟩⟩)

/-! ### Lists of names -/

/-- What stands behind a name of a list and its direction. -/
def listedEnd (name : String) : Reading String := do
  if !(← accepts (·.isMark .comma)) && !(← sees (·.isMark .closeParen)) then failure
  return name

theorem listedName_eq :
    listedName = (do
      let name ← identifier
      skipBlanks
      if ← accepts fun token => token.isKeyword "ASC" || token.isKeyword "DESC" then
        skipBlanks
        listedEnd name
      else listedEnd name) := rfl

/-- The comma behind a name is taken, the parenthesis that ends the list is left. -/
theorem gives_listedEnd (name : String) {mark : Mark} {rest : List Token}
    (hmark : mark = .comma ∨ mark = .closeParen) (hahead : c.ahead = .mark mark :: rest) :
    ∃ d, Gives (listedEnd name) c.skipBlanks name d ∧
      d.ahead = if mark = .comma then rest else .mark mark :: rest := by
  unfold listedEnd
  rcases hmark with rfl | rfl
  · refine ⟨c.skipBlanks.advance, gives_accepts_bind.mpr ?_, Cursor.ahead_advance_of_cons hahead⟩
    rw [Cursor.sees_of_cons hahead]
    exact gives_sees_bind.mpr (gives_pure.mpr ⟨rfl, rfl⟩)
  · refine ⟨c.skipBlanks, gives_accepts_bind.mpr ?_, (Cursor.ahead_skipBlanks c).trans hahead⟩
    rw [Cursor.sees_of_cons hahead]
    refine gives_sees_bind.mpr ?_
    rw [Cursor.sees_of_cons hahead]
    exact gives_pure.mpr ⟨rfl, rfl⟩

/-- A name of a list is read with its direction and the comma behind it, or up to the end of the
list. -/
theorem gives_listedName {text : String} {quote : Quote} {direction : List Token} {mark : Mark}
    {rest : List Token} (hdirection : DirectionText direction)
    (hmark : mark = .comma ∨ mark = .closeParen)
    (hahead : c.ahead = .word text quote :: (direction ++ .mark mark :: rest)) :
    ∃ d, Gives listedName c.skipBlanks text d ∧
      d.ahead = if mark = .comma then rest else .mark mark :: rest := by
  have hname : c.skipBlanks.advance.ahead = direction ++ .mark mark :: rest :=
    Cursor.ahead_advance_of_cons hahead
  -- The direction is a single word, whichever it is.
  have hdirected {token : Token} {word : String} (hword : token.bareWord? = some word)
      (hascii : isAscii word = true) (hsort : word = "ASC" ∨ word = "DESC")
      (hnext : c.skipBlanks.advance.ahead = token :: .mark mark :: rest) :
      ∃ d, Gives listedName c.skipBlanks text d ∧
        d.ahead = if mark = .comma then rest else .mark mark :: rest := by
    have hseen : (token.isKeyword "ASC" || token.isKeyword "DESC") = true := by
      rw [isKeyword_of_bareWord? hword hascii, isKeyword_of_bareWord? hword hascii]
      rcases hsort with rfl | rfl
      · rfl
      · rfl
    obtain ⟨d, hd, hrest⟩ := gives_listedEnd text hmark (Cursor.ahead_advance_of_cons hnext)
    refine ⟨d, ?_, hrest⟩
    rw [listedName_eq]
    refine gives_bind.mpr ⟨text, _, gives_word hahead, ?_⟩
    rw [gives_skipBlanks_bind, gives_accepts_bind, Cursor.sees_of_cons hnext, hseen]
    exact gives_skipBlanks_bind.mpr hd
  cases hdirection with
  | none =>
    obtain ⟨d, hd, hrest⟩ := gives_listedEnd text hmark hname
    refine ⟨d, ?_, hrest⟩
    rw [listedName_eq]
    refine gives_bind.mpr ⟨text, _, gives_word hahead, ?_⟩
    rw [gives_skipBlanks_bind, gives_accepts_bind, Cursor.sees_of_cons hname]
    exact hd
  | ascending hword => exact hdirected hword rfl (.inl rfl) hname
  | descending hword => exact hdirected hword rfl (.inr rfl) hname

theorem gives_listedNames_of_keyList {names : List String} (h : KeyList names tokens)
    (hahead : c.ahead = tokens ++ more) (hfuel : tokens.length ≤ fuel) :
    ∃ d, Gives (listedNames fuel) c names d ∧ d.ahead = more := by
  have hword {c : Cursor} {text : String} {quote : Quote} {rest : List Token}
      (hahead : c.ahead = .word text quote :: rest) :
      c.skipBlanks.sees (·.isMark .closeParen) = false := Cursor.sees_of_cons hahead _
  induction h generalizing c fuel with
  | @last text quote direction hdirection =>
    -- The last name takes a round, and the parenthesis behind it another.
    obtain ⟨fuel, rfl⟩ : ∃ n, fuel = n + 2 := ⟨fuel - 2, by simp at hfuel; omega⟩
    rw [List.cons_append, List.append_assoc] at hahead
    obtain ⟨m, hm, hclose⟩ := gives_listedName hdirection (.inr rfl) hahead
    rw [if_neg nofun] at hclose
    have hlast : Gives (listedNames (fuel + 1)) m [] m.skipBlanks.advance := by
      refine gives_listedNames.mpr (.inl ⟨?_, rfl, rfl⟩)
      rw [Cursor.sees_of_cons hclose]
      rfl
    exact ⟨_, gives_listedNames.mpr (.inr ⟨hword hahead, text, m, [], hm, hlast, rfl⟩),
      Cursor.ahead_advance_of_cons hclose⟩
  | @cons text quote direction names rest hdirection _ ih =>
    obtain ⟨fuel, rfl⟩ : ∃ n, fuel = n + 1 := ⟨fuel - 1, by simp at hfuel; omega⟩
    rw [List.length_cons, List.length_append, List.length_cons] at hfuel
    rw [List.cons_append, List.append_assoc, List.cons_append] at hahead
    obtain ⟨m, hm, hrest⟩ := gives_listedName hdirection (.inl rfl) hahead
    rw [if_pos rfl] at hrest
    have hleft : rest.length ≤ fuel := by omega
    obtain ⟨d, hd, hdmore⟩ := ih hrest hleft
    exact ⟨d, gives_listedNames.mpr (.inr ⟨hword hahead, text, m, names, hm, hd, rfl⟩), hdmore⟩

/-- The columns of a key in parentheses are read without their directions. -/
theorem gives_keyList {names : List String} (h : KeyList names tokens)
    (hahead : c.ahead = .mark .openParen :: (tokens ++ more)) :
    ∃ d, Gives identifierList c.skipBlanks names d ∧ d.ahead = more := by
  have hopen : c.skipBlanks.sees (·.isMark .openParen) = true := Cursor.sees_of_cons hahead _
  have hrest : c.skipBlanks.advance.ahead = tokens ++ more := Cursor.ahead_advance_of_cons hahead
  have hfuel : tokens.length ≤ c.skipBlanks.advance.rest.length + 1 := by
    have hle := Cursor.ahead_length_le c.skipBlanks.advance
    rw [hrest, List.length_append, Cursor.left_eq] at hle
    omega
  obtain ⟨d, hd, hdmore⟩ := gives_listedNames_of_keyList h hrest hfuel
  exact ⟨d, gives_identifierList.mpr ⟨hopen, hd⟩, hdmore⟩

/-- A list of names in parentheses is read as its names. -/
theorem gives_nameList {names : List String} (h : NameList names tokens)
    (hahead : c.ahead = .mark .openParen :: (tokens ++ more)) :
    ∃ d, Gives identifierList c.skipBlanks names d ∧ d.ahead = more :=
  gives_keyList h.keyList hahead

end Reading

end SchemaPlan.Sql
