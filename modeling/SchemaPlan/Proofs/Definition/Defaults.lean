import SchemaPlan.Proofs.Definition.Modifiers

/-!
# Modifiers behind a default

A default has no end of its own. Of its value a sign, one token and an argument list are taken, and
what is left is read as if it were modifiers: words are passed over, and anything else ends the column.
So `NOT NULL` and all other modifiers behind a default count exactly if only words are left of it, and
behind a call of a function in a schema they are lost.

* `DefaultText.isInert`: no word that is left of a value is read as a modifier.
* `column_with_default`: which modifiers count of a column with a default.
-/

namespace SchemaPlan.Definition

open SchemaPlan.Sql SchemaPlan.Sql.Reading

/-! ## What is left of a value -/

/-- The words in front mean nothing. -/
def IsInert (tokens : List Token) : Prop :=
  ∀ token ∈ tokens.takeWhile Token.isWord, isMereWord token = true

section Left

variable {taken left rest more : List Token} {token : Token} {word : String}
  {column value : ColumnDefinition}

theorem isInert_of_not_isWord (h : token.isWord = false) (rest : List Token) :
    IsInert (token :: rest) := by
  rw [IsInert, List.takeWhile_cons_of_neg (by rw [h]; exact nofun)]
  exact nofun

theorem IsInert.cons (h : isMereWord token = true) (hrest : IsInert rest) : IsInert (token :: rest) := by
  have hword : token.isWord = true := by
    simp only [isMereWord, Bool.and_eq_true] at h
    exact h.1.1
  rw [IsInert, List.takeWhile_cons_of_pos hword]
  exact List.forall_mem_cons.mpr ⟨h, hrest⟩

theorem isMereWord_of_bareWord? (h : token.bareWord? = some word) (hascii : isAscii word = true)
    (hword : word ∉ columnModifiers ∧ word ≠ "CLUSTERED" ∧ word ≠ "NONCLUSTERED") :
    isMereWord token = true := by
  have hkind : isClustering token = false := (follows_cons h hascii hword.2 [] token rfl).2
  rw [isMereWord, isWord_of_bareWord? h, find?_isKeyword h hascii, if_neg hword.1, hkind]
  rfl

theorem PathText.isInert {path : List Token} (h : PathText path) (rest : List Token)
    (hrest : IsInert rest) : IsInert (path ++ rest) := by
  cases h with
  | nil => exact hrest
  | cons => exact isInert_of_not_isWord rfl _

/-- No word that is left of a value is read as a modifier. -/
theorem DefaultText.isInert (h : DefaultText taken left) : IsInert left := by
  cases h with
  | money _ _ hamount =>
    cases hamount with
    | none => exact nofun
    | number => exact isInert_of_not_isWord rfl _
    | period => exact isInert_of_not_isWord rfl _
  | escape hname => exact .cons hname (isInert_of_not_isWord rfl _)
  | pathCall hpath hne _ =>
    cases hpath with
    | nil => exact absurd rfl hne
    | cons => exact isInert_of_not_isWord rfl _
  | next _ hvalue hfor hname hpath =>
    have hrest := hpath.isInert [] nofun
    rw [List.append_nil] at hrest
    exact .cons (isMereWord_of_bareWord? hvalue rfl (by decide))
      (.cons (isMereWord_of_bareWord? hfor rfl (by decide)) (.cons hname hrest))
  | _ => exact nofun

/-- No parenthesis follows what is taken of a value. -/
theorem DefaultText.no_openParen (h : DefaultText taken left) (hmore : Follows more) :
    (left ++ more).head?.any (·.isMark .openParen) = false := by
  cases h with
  | money _ _ hamount =>
    cases hamount with
    | none => exact hmore.any_isMark .openParen
    | number => rfl
    | period => rfl
  | escape => rfl
  | pathCall hpath hne _ =>
    cases hpath with
    | nil => exact absurd rfl hne
    | cons hmark => rcases List.mem_pair.mp hmark with rfl | rfl <;> rfl
  | next _ hvalue => exact isMark_of_bareWord? hvalue .openParen
  | _ => exact hmore.any_isMark .openParen

/-- What is left of a value is passed over if it is words, and ends the column otherwise. -/
theorem describes_left (h : IsInert left) (hmore : Describes more column value) :
    Describes (left ++ more) column (if left.all Token.isWord then value else column) := by
  induction left with
  | nil => exact hmore
  | cons token left ih =>
    rw [List.all_cons]
    cases hword : token.isWord with
    | false => exact describes_of_not_isWord hword _ column
    | true =>
      rw [IsInert, List.takeWhile_cons_of_pos hword, List.forall_mem_cons] at h
      exact describes_mere h.1 (ih h.2)

end Left

/-- The first word of a default ends the clause before, with its label or without. -/
theorem follows_label {label : List Token} {word : Token} (h : LabelText label)
    (hword : word.bareWord? = some "DEFAULT") (rest : List Token) :
    Follows (label ++ word :: rest) := by
  cases h with
  | none => exact follows_cons hword rfl (by decide) _
  | named hlabel => exact follows_cons hlabel rfl (by decide) _

/-! ## Columns with a default -/

/-- The tokens of a column with a default between its modifiers. -/
inductive DefaultColumnText (name : String) (type : DeclaredType)
    (before : List ColumnModifier) (left : List Token) (after : List ColumnModifier) :
    List Token → Prop where
  | intro {quote : Quote} {tokens label taken : List Token} {word : Token}
      {first last : List (List Token)} :
      TypeText type tokens → (∀ token ∈ tokens.head?, token.isKeyword "AS" = false) →
      List.Forall₂ ClauseText before first → LabelText label → word.bareWord? = some "DEFAULT" →
      DefaultText taken left → List.Forall₂ ClauseText after last →
      DefaultColumnText name type before left after
        (.word name quote :: (tokens ++ (first.flatten ++
          (label ++ word :: (taken ++ (left ++ last.flatten))))))

theorem nullabilityOf_eq_false {modifiers : List ColumnModifier} :
    nullabilityOf modifiers = some false ↔ .notNull ∈ modifiers := by
  unfold nullabilityOf
  split
  · exact iff_of_true rfl ‹_›
  · refine iff_of_false ?_ ‹_›
    split <;> exact nofun

/-- The modifiers behind a default count exactly if only words are left of its value: then `NOT NULL`
behind it makes the column one without nulls, and otherwise only what stands before the default does. -/
theorem column_with_default {text : String} {c : Cursor} {name : String} {type : DeclaredType}
    {before after : List ColumnModifier} {left : List Token} (htext : Cursor.ofText? text = some c)
    (h : DefaultColumnText name type before left after c.ahead) :
    run? column text =
        some (described name type (before ++ if left.all Token.isWord then after else [])) ∧
      (.notNull ∈ after →
        ((run? column text).any (·.nullability == some false) = true ↔
          left.all Token.isWord = true ∨ .notNull ∈ before)) := by
  have hread : run? column text =
      some (described name type (before ++ if left.all Token.isWord then after else [])) := by
    obtain ⟨tokens, hahead⟩ : ∃ tokens, c.ahead = tokens := ⟨_, rfl⟩
    rw [hahead] at h
    obtain @⟨_, _, label, taken, word, first, last, htype, has, hfirst, hlabel, hword, hdefault, hlast⟩ := h
    have hend := follows_flatten hlast follows_nil
    have hrow := describes_clauses hlast follows_nil (describes_nil (after.foldl ColumnModifier.apply
      (before.foldl ColumnModifier.apply { name, type := some type })))
    rw [List.append_nil] at hend hrow
    -- The clauses are described from the back: what follows the default, then the default, its
    -- label last.
    have hclause := describes_label hlabel (describes_default hword hdefault
      (hdefault.no_openParen hend) (describes_left hdefault.isInert hrow))
    have hfollows := follows_label hlabel hword (taken ++ (left ++ last.flatten))
    obtain ⟨d, hd⟩ := gives_column hahead htype has (follows_flatten hfirst hfollows)
      (describes_clauses hfirst hfollows hclause)
    rw [run?_of_gives htext hd, described_eq_foldl, List.foldl_append]
    cases left.all Token.isWord <;> rfl
  refine ⟨hread, fun hnot => ?_⟩
  rw [hread, Option.any_some, beq_iff_eq]
  change nullabilityOf _ = some false ↔ _
  rw [nullabilityOf_eq_false, List.mem_append, or_comm]
  refine or_congr_left ?_
  -- The clauses of `after` are reached exactly if nothing but words is left of the value.
  cases left.all Token.isWord with
  | true => exact iff_of_true hnot rfl
  | false => exact iff_of_false nofun nofun

/-- Of `next value for codes` three words are left, and the modifiers behind them count. -/
theorem column_with_default_of_next :
    ∃ c, Cursor.ofText? "p int default next value for codes primary key not null" = some c ∧
      DefaultColumnText "p" (.ofSizes none "int" []) []
        [.word "value" .bare, .word "for" .bare, .word "codes" .bare] [.primaryKey, .notNull] c.ahead ∧
      run? column "p int default next value for codes primary key not null" =
        some { name := "p", type := some { schema := none, name := "int" }, nullability := some false,
               isPrimaryKey := true } := by
  obtain ⟨c, hc, htest⟩ := exists_cursor_of_any
    "p int default next value for codes primary key not null"
    (fun c => decide (c.ahead = [.word "p" .bare, .word "int" .bare, .word "default" .bare,
      .word "next" .bare, .word "value" .bare, .word "for" .bare, .word "codes" .bare,
      .word "primary" .bare, .word "key" .bare, .word "not" .bare, .word "null" .bare]))
    (by decide +kernel)
  have hname : NameText ⟨none, none, "int"⟩ [.word "int" .bare] := .intro .nil rfl
  have hnext : DefaultText [.word "next" .bare]
      [.word "value" .bare, .word "for" .bare, .word "codes" .bare] :=
    .next rfl rfl rfl rfl .nil
  have hkey : ModifierText .primaryKey [.word "primary" .bare, .word "key" .bare] :=
    .primaryKey rfl rfl .none
  have hnot : ModifierText .notNull [.word "not" .bare, .word "null" .bare] := .notNull rfl rfl
  have hlast : List.Forall₂ ClauseText [.primaryKey, .notNull]
      [[.word "primary" .bare, .word "key" .bare], [.word "not" .bare, .word "null" .bare]] :=
    .cons (.intro .none hkey) (.cons (.intro .none hnot) .nil)
  have htext : DefaultColumnText "p" (.ofSizes none "int" []) []
      [.word "value" .bare, .word "for" .bare, .word "codes" .bare] [.primaryKey, .notNull] c.ahead := by
    rw [of_decide_eq_true htest]
    exact @DefaultColumnText.intro _ _ _ _ _ .bare _ _ _ (.word "default" .bare) [] _ (.plain hname)
      (by decide) .nil .none rfl hnext hlast
  exact ⟨c, hc, htext, (column_with_default hc htext).1⟩

/-- Behind a call of a function in a schema and behind the next value of a sequence in a schema
`NOT NULL` is lost, and so is a key behind an amount. -/
theorem column_with_default_lost :
    run? column "p int default code() not null" =
        some { name := "p", type := some { schema := none, name := "int" }, nullability := some false } ∧
      run? column "p int default dbo.code() not null" =
        some { name := "p", type := some { schema := none, name := "int" } } ∧
      run? column "p int default next value for dbo.codes not null" =
        some { name := "p", type := some { schema := none, name := "int" } } ∧
      run? column "p money default $5.00 primary key" =
        some { name := "p", type := some { schema := none, name := "money" } } := by
  decide +kernel

end SchemaPlan.Definition
