import SchemaPlan.Proofs.Definition.Clauses

/-!
# Modifiers of a column

The modifiers of a column are read one after another, each from its first word to its last token. So
they may come in any order, and the column has what each of them says.

* `Describes`: the modifiers ahead turn a column into another one.
* `describes_clauses`: clauses in a row do what their modifiers do.
* `column_eq_described`: a column is read as its name, its type and its modifiers say.
-/

namespace SchemaPlan.Definition

open SchemaPlan.Sql SchemaPlan.Sql.Reading

/-! ## Reading clauses -/

/-- What follows a clause: nothing, or a word that is no kind of an index. -/
def Follows (more : List Token) : Prop :=
  ∀ token ∈ more.head?, token.isWord = true ∧ isClustering token = false

section Reading

variable {c : Cursor} {tokens more : List Token}

theorem follows_nil : Follows [] := nofun

theorem Follows.any_isMark (h : Follows more) (m : Mark) : more.head?.any (·.isMark m) = false := by
  cases more with
  | nil => rfl
  | cons token rest => exact isMark_of_isWord (h token rfl).1 m

theorem follows_cons {token : Token} {word : String} (h : token.bareWord? = some word)
    (hword : isAscii word = true) (hkind : word ≠ "CLUSTERED" ∧ word ≠ "NONCLUSTERED")
    (rest : List Token) : Follows (token :: rest) := by
  rintro _ ⟨⟩
  refine ⟨isWord_of_bareWord? h, Bool.or_eq_false_iff.mpr ⟨?_, ?_⟩⟩
  · rw [isKeyword_of_bareWord? h hword]
    exact beq_eq_false_iff_ne.mpr hkind.1
  · rw [isBareWord_eq h rfl]
    exact beq_eq_false_iff_ne.mpr hkind.2

/-! ### Parts of clauses -/

theorem gives_skipArguments_of_group {args : List Token} (h : Group args)
    (hahead : c.ahead = args ++ more) :
    ∃ d, Gives skipArguments c () d ∧ d.ahead = more := by
  cases h with
  | intro hinner =>
    rw [List.cons_append, List.append_assoc] at hahead
    exact ⟨_, gives_skipBlanks_bind.mpr (gives_modify.mpr rfl), Cursor.ahead_skipGroup hinner hahead⟩

/-- Arguments are passed over if there are any. -/
theorem gives_skipArguments {args : List Token} (h : Arguments args) (hahead : c.ahead = args ++ more)
    (hmore : more.head?.any (·.isMark .openParen) = false) :
    ∃ d, Gives skipArguments c () d ∧ d.ahead = more := by
  cases h with
  | none =>
    rw [List.nil_append] at hahead
    refine ⟨_, gives_skipBlanks_bind.mpr (gives_modify.mpr rfl), ?_⟩
    rw [Cursor.skipGroup_eq_self (hahead ▸ hmore), Cursor.ahead_skipBlanks, hahead]
  | group hgroup => exact gives_skipArguments_of_group hgroup hahead

/-- The kind of an index is passed over with the arguments behind it. -/
theorem gives_skipClustering_iff {u : Unit} {d : Cursor} :
    Gives skipClustering c u d ↔
      if c.ahead.head?.any isClustering = true then Gives skipArguments c.skipBlanks.advance u d
      else Gives skipArguments c.skipBlanks u d := by
  have hsees : c.ahead.head?.any isClustering =
      (c.skipBlanks.sees (·.isKeyword "CLUSTERED") || c.skipBlanks.sees (·.isBareWord "NONCLUSTERED")) := by
    rw [Cursor.sees_skipBlanks, Cursor.sees_skipBlanks]
    cases c.ahead.head? <;> rfl
  unfold skipClustering
  rw [gives_skipBlanks_bind, gives_sees_bind, gives_sees_bind, hsees]
  dsimp only
  split
  · exact gives_advance_bind
  · rfl

/-- The kind of an index is a single word, whichever it is. -/
theorem ClusteringText.form {kind : List Token} (h : ClusteringText kind) :
    kind = [] ∨ ∃ token, kind = [token] ∧ isClustering token = true := by
  unfold isClustering
  cases h with
  | none => exact .inl rfl
  | clustered hword =>
    refine .inr ⟨_, rfl, ?_⟩
    rw [isKeyword_of_bareWord? hword rfl]
    rfl
  | nonclustered hword =>
    refine .inr ⟨_, rfl, ?_⟩
    rw [isBareWord_eq hword rfl, beq_self_eq_true, Bool.or_true]

theorem gives_skipClustering {kind : List Token} (h : ClusteringText kind)
    (hahead : c.ahead = kind ++ more) (hmore : Follows more) :
    ∃ d, Gives skipClustering c () d ∧ d.ahead = more := by
  have hnone := hmore.any_isMark .openParen
  rcases h.form with rfl | ⟨token, rfl, hclustering⟩
  · have hrest : c.skipBlanks.ahead = [] ++ more := (Cursor.ahead_skipBlanks c).trans hahead
    obtain ⟨d, hd, hdmore⟩ := gives_skipArguments .none hrest hnone
    refine ⟨d, gives_skipClustering_iff.mpr ?_, hdmore⟩
    have hfalse : c.ahead.head?.any isClustering = false := by
      rw [hahead, List.nil_append]
      cases more with
      | nil => rfl
      | cons token rest => exact (hmore token rfl).2
    rwa [if_neg (by rw [hfalse]; exact nofun)]
  · have hrest : c.skipBlanks.advance.ahead = [] ++ more := Cursor.ahead_advance_of_cons hahead
    obtain ⟨d, hd, hdmore⟩ := gives_skipArguments .none hrest hnone
    refine ⟨d, gives_skipClustering_iff.mpr ?_, hdmore⟩
    rwa [hahead, List.cons_append, List.head?_cons, Option.any_some, if_pos hclustering]

/-! ### Values of defaults -/

/-- A token that is no mark. -/
def isOperand (token : Token) : Prop := ∀ m : Mark, token.isMark m = false

/-- What is taken for the value of a default: a group, or a token with a sign and arguments. -/
theorem DefaultText.form {taken left : List Token} (h : DefaultText taken left) :
    Group taken ∨ ∃ sign token args, SignText sign ∧ isOperand token ∧ Arguments args ∧
      taken = sign ++ token :: args := by
  have hcurrency {token : Token} (h : isCurrency token = true) : isOperand token := by
    intro m
    cases token with
    | mark => cases h
    | _ => rfl
  cases h with
  | group hgroup => exact .inl hgroup
  | word => exact .inr ⟨[], _, [], .none, fun _ => rfl, .none, rfl⟩
  | number hsign => exact .inr ⟨_, _, [], hsign, fun _ => rfl, .none, rfl⟩
  | literal => exact .inr ⟨[], _, [], .none, fun _ => rfl, .none, rfl⟩
  | call hgroup => exact .inr ⟨[], _, _, .none, fun _ => rfl, .group hgroup, rfl⟩
  | money hsign hmoney => exact .inr ⟨_, _, [], hsign, hcurrency hmoney, .none, rfl⟩
  | escape => exact .inr ⟨[], _, [], .none, fun _ => rfl, .none, rfl⟩
  | pathCall => exact .inr ⟨[], _, [], .none, fun _ => rfl, .none, rfl⟩
  | next hnext => exact .inr ⟨[], _, [], .none, isMark_of_bareWord? hnext, .none, rfl⟩

/-- A sign of a number. -/
def isSign (token : Token) : Bool := token.isMark .minus || token.isMark .plus

theorem gives_skipDefaultValue_iff {u : Unit} {d : Cursor} :
    Gives skipDefaultValue c u d ↔
      if c.ahead.head?.any (·.isMark .openParen) = true then Gives skipGroup c.skipBlanks u d
      else if c.ahead.head?.any isSign = true then
        Gives skipArguments c.skipBlanks.advance.skipBlanks.advance u d
      else Gives skipArguments c.skipBlanks.advance u d := by
  have hsign : c.ahead.head?.any isSign =
      (c.skipBlanks.sees (·.isMark .minus) || c.skipBlanks.sees (·.isMark .plus)) := by
    rw [Cursor.sees_skipBlanks, Cursor.sees_skipBlanks]
    cases c.ahead.head? <;> rfl
  unfold skipDefaultValue
  rw [gives_skipBlanks_bind, gives_sees_bind, Cursor.sees_skipBlanks, hsign]
  split
  · rfl
  · rw [gives_sees_bind, gives_sees_bind]
    dsimp only
    split
    · rw [gives_advance_bind, gives_skipBlanks_bind]
      exact gives_advance_bind
    · exact gives_advance_bind

theorem gives_skipDefaultValue {taken left : List Token} (h : DefaultText taken left)
    (hahead : c.ahead = taken ++ more) (hmore : more.head?.any (·.isMark .openParen) = false) :
    ∃ d, Gives skipDefaultValue c () d ∧ d.ahead = more := by
  rcases h.form with hgroup | ⟨sign, token, args, hsign, htoken, hargs, rfl⟩
  · obtain ⟨hinner⟩ := hgroup
    rw [List.cons_append, List.append_assoc] at hahead
    refine ⟨_, gives_skipDefaultValue_iff.mpr ?_, Cursor.ahead_skipGroup hinner hahead⟩
    rw [hahead, List.head?_cons]
    exact gives_modify.mpr rfl
  · have hahead : c.ahead = sign ++ token :: (args ++ more) := by
      rw [hahead, List.append_assoc, List.cons_append]
    -- Behind the sign, if there is one, stand a token and its arguments.
    have hoperand {m : Cursor} (hm : m.ahead = token :: (args ++ more)) :
        ∃ d, Gives skipArguments m.skipBlanks.advance () d ∧ d.ahead = more := by
      refine gives_skipArguments hargs ?_ hmore
      rw [Cursor.ahead_advance, hm, List.tail_cons]
    have hsigned {mark : Mark} (hmark : isSign (.mark mark) = true ∧ mark ≠ .openParen)
        (hahead : c.ahead = .mark mark :: token :: (args ++ more)) :
        ∃ d, Gives skipDefaultValue c () d ∧ d.ahead = more := by
      obtain ⟨d, hd, hdmore⟩ := @hoperand c.skipBlanks.advance (Cursor.ahead_advance_of_cons hahead)
      refine ⟨d, gives_skipDefaultValue_iff.mpr ?_, hdmore⟩
      have hopen : (Token.mark mark).isMark .openParen = false := beq_eq_false_iff_ne.mpr hmark.2
      rwa [hahead, List.head?_cons, Option.any_some, Option.any_some, hopen, if_neg nofun,
        if_pos hmark.1]
    cases hsign with
    | none =>
      obtain ⟨d, hd, hdmore⟩ := hoperand hahead
      refine ⟨d, gives_skipDefaultValue_iff.mpr ?_, hdmore⟩
      rwa [hahead, List.nil_append, List.head?_cons, Option.any_some, Option.any_some, htoken, isSign,
        htoken, htoken, if_neg nofun, if_neg nofun]
    | minus => exact @hsigned .minus ⟨rfl, nofun⟩ hahead
    | plus => exact @hsigned .plus ⟨rfl, nofun⟩ hahead

/-! ### References -/

theorem gives_targetText {target : ColumnReference} (h : TargetText target tokens)
    (hahead : c.ahead = tokens ++ more) (hperiod : more.head?.any (·.isMark .period) = false)
    (hopen : more.head?.any (·.isMark .openParen) = false) :
    ∃ d, Gives referencedColumns c.skipBlanks target d ∧ d.ahead = more := by
  unfold referencedColumns
  cases h with
  | @table table _ hname =>
    obtain ⟨m, hm, hmmore⟩ := gives_nameText hname hahead hperiod
    refine ⟨m.skipBlanks, gives_bind.mpr ⟨table, m, hm, ?_⟩, (Cursor.ahead_skipBlanks m).trans hmmore⟩
    refine gives_skipBlanks_bind.mpr (gives_sees_bind.mpr ?_)
    rw [Cursor.sees_skipBlanks, hmmore, hopen]
    exact gives_pure.mpr ⟨rfl, rfl⟩
  | @columns table names tokens rest hname hnames =>
    rw [List.append_assoc] at hahead
    obtain ⟨m, hm, hmmore⟩ := gives_nameText hname hahead rfl
    obtain ⟨d, hd, hdmore⟩ := gives_nameList hnames hmmore
    refine ⟨d, gives_bind.mpr ⟨table, m, hm, ?_⟩, hdmore⟩
    refine gives_skipBlanks_bind.mpr (gives_sees_bind.mpr ?_)
    rw [Cursor.sees_skipBlanks, hmmore]
    exact gives_bind.mpr ⟨names, d, hd, gives_pure.mpr ⟨rfl, rfl⟩⟩

/-! ### Actions -/

/-- The first of the two words that say what happens. -/
def isEffectStart (token : Token) : Bool := token.isKeyword "NO" || token.isKeyword "SET"

theorem isEffectStart_eq {token : Token} {word : String} (h : token.bareWord? = some word)
    (hword : isAscii word = true) : isEffectStart token = (word == "NO" || word == "SET") := by
  rw [isEffectStart, isKeyword_of_bareWord? h hword, isKeyword_of_bareWord? h hword]

/-- What happens is said by one word, or by two. -/
theorem EffectText.form {effect : List Token} (h : EffectText effect) :
    (∃ token, isEffectStart token = false ∧ effect = [token]) ∨
      ∃ first second, isEffectStart first = true ∧ effect = [first, second] := by
  cases h with
  | cascade hword => exact .inl ⟨_, isEffectStart_eq hword rfl, rfl⟩
  | noAction hword => exact .inr ⟨_, _, isEffectStart_eq hword rfl, rfl⟩
  | setNull hword => exact .inr ⟨_, _, isEffectStart_eq hword rfl, rfl⟩
  | setDefault hword => exact .inr ⟨_, _, isEffectStart_eq hword rfl, rfl⟩

/-- Move over what happens. -/
def skipEffect : Reading Unit := do
  if ← accepts isEffectStart then skipBlanks
  advance

theorem gives_skipEffect {effect : List Token} (h : EffectText effect)
    (hahead : c.ahead = effect ++ more) :
    ∃ d, Gives skipEffect c.skipBlanks () d ∧ d.ahead = more := by
  unfold skipEffect
  rcases h.form with ⟨token, htoken, rfl⟩ | ⟨first, second, hfirst, rfl⟩
  · refine ⟨_, gives_accepts_bind.mpr ?_, Cursor.ahead_advance_of_cons hahead⟩
    rw [Cursor.sees_of_cons hahead, htoken]
    exact gives_modify.mpr rfl
  · refine ⟨c.skipBlanks.advance.skipBlanks.advance, gives_accepts_bind.mpr ?_, ?_⟩
    · rw [Cursor.sees_of_cons hahead, hfirst]
      exact gives_skipBlanks_bind.mpr (gives_modify.mpr rfl)
    · rw [Cursor.ahead_advance, Cursor.ahead_advance, hahead]
      rfl

/-- Behind `ON` stand an event and what happens then. -/
theorem gives_skipReferentialAction {event : Token} {word : String} {effect : List Token}
    (hevent : event.bareWord? = some word) (hword : word ∈ ["DELETE", "UPDATE"])
    (heffect : EffectText effect) (hahead : c.ahead = event :: (effect ++ more)) :
    ∃ d, Gives skipReferentialAction c () d ∧ d.ahead = more := by
  have hascii : isAscii word = true := by
    rcases List.mem_pair.mp hword with rfl | rfl <;> rfl
  have hseen : (c.skipBlanks.sees (·.isKeyword "DELETE") || c.skipBlanks.sees (·.isKeyword "UPDATE")) =
      true := by
    rw [Cursor.sees_of_cons hahead, Cursor.sees_of_cons hahead, isKeyword_of_bareWord? hevent hascii,
      isKeyword_of_bareWord? hevent hascii]
    rcases List.mem_pair.mp hword with rfl | rfl <;> rfl
  have hrest : c.skipBlanks.advance.ahead = effect ++ more := Cursor.ahead_advance_of_cons hahead
  obtain ⟨d, hd, hdmore⟩ := gives_skipEffect heffect hrest
  refine ⟨d, ?_, hdmore⟩
  unfold skipReferentialAction
  rw [gives_skipBlanks_bind, gives_sees_bind, gives_sees_bind, hseen]
  exact gives_advance_bind.mpr (gives_skipBlanks_bind.mpr hd)

/-! ## Modifiers in a row -/

/-- The modifiers ahead turn a column into another one. -/
def Describes (tokens : List Token) (column value : ColumnDefinition) : Prop :=
  ∀ (c : Cursor) (fuel : Nat), c.ahead = tokens → tokens.length < fuel →
    ∃ d, Gives (withModifiers fuel column) c value d

section Rows

variable {column column' value : ColumnDefinition} {token : Token} {word : String} {rest : List Token}

theorem gives_withModifiers {fuel : Nat} {d : Cursor} :
    Gives (withModifiers (fuel + 1) column) c value d ↔
      match c.ahead.head? with
      | none => value = column ∧ d = c.skipBlanks
      | some token =>
        match columnModifiers.find? token.isKeyword with
        | some word => ∃ found m, Gives (columnModifier column word) c.skipBlanks.advance found m ∧
            Gives (withModifiers fuel found) m value d
        | none =>
          if token.isWord then Gives (withModifiers fuel column) c.skipBlanks.advance value d
          else value = column ∧ d = c.skipBlanks := by
  rw [withModifiers, gives_skipBlanks_bind, gives_get_bind, Cursor.current?_skipBlanks]
  cases c.ahead.head? with
  | none => exact gives_pure
  | some token =>
    dsimp only
    cases columnModifiers.find? token.isKeyword with
    | some word => exact gives_advance_bind.trans gives_bind
    | none =>
      dsimp only
      split
      · exact gives_advance_bind
      · exact gives_pure

theorem describes_nil (column : ColumnDefinition) : Describes [] column column := by
  intro c fuel hahead hfuel
  obtain ⟨fuel, rfl⟩ : ∃ n, fuel = n + 1 := ⟨fuel - 1, by simp at hfuel; omega⟩
  refine ⟨c.skipBlanks, gives_withModifiers.mpr ?_⟩
  rw [hahead]
  exact ⟨rfl, rfl⟩

/-- The first token that is no word ends the definition. -/
theorem describes_of_not_isWord (h : token.isWord = false) (rest : List Token)
    (column : ColumnDefinition) : Describes (token :: rest) column column := by
  intro c fuel hahead hfuel
  obtain ⟨fuel, rfl⟩ : ∃ n, fuel = n + 1 := ⟨fuel - 1, by simp at hfuel; omega⟩
  have hnone : columnModifiers.find? token.isKeyword = none := by
    refine List.find?_eq_none.mpr fun word _ hword => ?_
    rw [isWord_of_isKeyword hword] at h
    cases h
  refine ⟨c.skipBlanks, gives_withModifiers.mpr ?_⟩
  rw [hahead, List.head?_cons]
  dsimp only
  rw [hnone]
  dsimp only
  rw [if_neg (by rw [h]; exact nofun)]
  exact ⟨rfl, rfl⟩

theorem describes_mere (h : isMereWord token = true) (hrest : Describes rest column value) :
    Describes (token :: rest) column value := by
  intro c fuel hahead hfuel
  obtain ⟨fuel, rfl⟩ : ∃ n, fuel = n + 1 := ⟨fuel - 1, by simp at hfuel; omega⟩
  simp only [isMereWord, Bool.and_eq_true, Option.isNone_iff_eq_none] at h
  obtain ⟨⟨hword, hnone⟩, -⟩ := h
  have hnext : c.skipBlanks.advance.ahead = rest := Cursor.ahead_advance_of_cons hahead
  obtain ⟨d, hd⟩ := hrest _ fuel hnext (Nat.lt_of_succ_lt_succ hfuel)
  refine ⟨d, gives_withModifiers.mpr ?_⟩
  rw [hahead, List.head?_cons]
  dsimp only
  rw [hnone]
  dsimp only
  rwa [if_pos hword]

/-- A modifier takes its own tokens and leaves those behind. -/
theorem describes_keyword (tokens : List Token) (hword : token.bareWord? = some word)
    (hascii : isAscii word = true) (hmodifier : word ∈ columnModifiers)
    (hgives : ∀ c : Cursor, c.ahead = tokens ++ more →
      ∃ d, Gives (columnModifier column word) c column' d ∧ d.ahead = more)
    (hmore : Describes more column' value) : Describes (token :: (tokens ++ more)) column value := by
  intro c fuel hahead hfuel
  obtain ⟨fuel, rfl⟩ : ∃ n, fuel = n + 1 := ⟨fuel - 1, by simp at hfuel; omega⟩
  obtain ⟨m, hm, hmmore⟩ := hgives c.skipBlanks.advance (Cursor.ahead_advance_of_cons hahead)
  rw [List.length_cons, List.length_append] at hfuel
  obtain ⟨d, hd⟩ := hmore m fuel hmmore (by omega)
  refine ⟨d, gives_withModifiers.mpr ?_⟩
  rw [hahead, List.head?_cons]
  dsimp only
  rw [find?_isKeyword hword hascii, if_pos hmodifier]
  exact ⟨column', m, hm, hd⟩

/-- A modifier that only has tokens to pass over. -/
theorem gives_then_return {step : Reading Unit} (column : ColumnDefinition)
    (h : ∃ d, Gives step c () d ∧ d.ahead = more) :
    ∃ d, Gives (do step; return column) c column d ∧ d.ahead = more := by
  obtain ⟨d, hd, hdmore⟩ := h
  exact ⟨d, gives_bind.mpr ⟨(), d, hd, gives_pure.mpr ⟨rfl, rfl⟩⟩, hdmore⟩

/-! ### Each modifier -/

/-- The name behind `COLLATE` and `CONSTRAINT` is passed over. -/
theorem describes_named {text : String} {quote : Quote} (hword : token.bareWord? = some word)
    (hmodifier : word ∈ ["COLLATE", "CONSTRAINT"]) (hmore : Describes more column value) :
    Describes (token :: .word text quote :: more) column value := by
  have hstep (c : Cursor) (hahead : c.ahead = [.word text quote] ++ more) : ∃ d,
      Gives (do skipBlanks; discard (attempt identifier); return column) c column d ∧
        d.ahead = more := by
    refine ⟨c.skipBlanks.advance, gives_skipBlanks_bind.mpr ?_, Cursor.ahead_advance_of_cons hahead⟩
    exact gives_bind.mpr ⟨(), _, gives_discard (gives_attempt.mpr (gives_word hahead)),
      gives_pure.mpr ⟨rfl, rfl⟩⟩
  rcases List.mem_pair.mp hmodifier with rfl | rfl
  · exact describes_keyword _ hword rfl (by decide) hstep hmore
  · exact describes_keyword _ hword rfl (by decide) hstep hmore

theorem describes_label {label : List Token} (h : LabelText label)
    (hmore : Describes more column value) : Describes (label ++ more) column value := by
  cases h with
  | none => exact hmore
  | named hword => exact describes_named hword (by decide) hmore

theorem describes_notNull {not null : Token} (hnot : not.bareWord? = some "NOT")
    (hnull : null.bareWord? = some "NULL")
    (hmore : Describes more { column with nullability := some false } value) :
    Describes (not :: null :: more) column value := by
  refine describes_keyword [null] hnot rfl (by decide) (fun c hahead => ?_) hmore
  refine ⟨c.skipBlanks.advance, ?_, Cursor.ahead_advance_of_cons hahead⟩
  refine gives_skipBlanks_bind.mpr (gives_accepts_bind.mpr ?_)
  rw [Cursor.sees_of_cons hahead, isKeyword_of_bareWord? hnull rfl]
  exact gives_pure.mpr ⟨rfl, rfl⟩

/-- What is taken of a default is passed over. -/
theorem describes_default {taken left : List Token} (hword : token.bareWord? = some "DEFAULT")
    (h : DefaultText taken left) (hopen : more.head?.any (·.isMark .openParen) = false)
    (hmore : Describes more column value) : Describes (token :: (taken ++ more)) column value :=
  describes_keyword _ hword rfl (by decide)
    (fun _ hahead => gives_then_return column (gives_skipDefaultValue h hahead hopen)) hmore

/-- Behind `PRIMARY` and `FOREIGN` stands `KEY`. -/
theorem gives_accepts_key {key : Token} (hkey : key.bareWord? = some "KEY")
    (hahead : c.ahead = key :: more) :
    Gives (discard (accepts (·.isKeyword "KEY"))) c.skipBlanks () c.skipBlanks.advance := by
  refine gives_discard (gives_accepts.mpr (.inl ⟨rfl, ?_, rfl⟩))
  rw [Cursor.sees_of_cons hahead, isKeyword_of_bareWord? hkey rfl]
  rfl

theorem describes_primaryKey {primary key : Token} {kind : List Token}
    (hprimary : primary.bareWord? = some "PRIMARY") (hkey : key.bareWord? = some "KEY")
    (hkind : ClusteringText kind) (hfollows : Follows more)
    (hmore : Describes more { column with isPrimaryKey := true } value) :
    Describes (primary :: key :: (kind ++ more)) column value := by
  refine describes_keyword (key :: kind) hprimary rfl (by decide) (fun c hahead => ?_) hmore
  have hrest : c.skipBlanks.advance.ahead = kind ++ more := Cursor.ahead_advance_of_cons hahead
  obtain ⟨d, hd, hdmore⟩ :=
    gives_then_return { column with isPrimaryKey := true } (gives_skipClustering hkind hrest hfollows)
  exact ⟨d, gives_skipBlanks_bind.mpr
    (gives_bind.mpr ⟨(), _, gives_accepts_key hkey hahead, hd⟩), hdmore⟩

theorem describes_foreign {foreign : List Token} (h : ForeignText foreign)
    (hmore : Describes more column value) : Describes (foreign ++ more) column value := by
  cases h with
  | none => exact hmore
  | @key foreign key hforeign hkey =>
    refine describes_keyword [key] hforeign rfl (by decide) (fun c hahead => ?_) hmore
    exact ⟨_, gives_skipBlanks_bind.mpr (gives_bind.mpr
      ⟨(), _, gives_accepts_key hkey hahead, gives_pure.mpr ⟨rfl, rfl⟩⟩),
        Cursor.ahead_advance_of_cons hahead⟩

theorem describes_target {target : ColumnReference} {tokens : List Token}
    (hword : token.bareWord? = some "REFERENCES") (h : TargetText target tokens)
    (hfollows : Follows more)
    (hmore : Describes more { column with references := some target } value) :
    Describes (token :: (tokens ++ more)) column value := by
  refine describes_keyword _ hword rfl (by decide) (fun c hahead => ?_) hmore
  obtain ⟨d, hd, hdmore⟩ := gives_targetText h hahead (hfollows.any_isMark .period)
    (hfollows.any_isMark .openParen)
  exact ⟨d, gives_skipBlanks_bind.mpr
    (gives_bind.mpr ⟨_, d, gives_attempt.mpr hd, gives_pure.mpr ⟨rfl, rfl⟩⟩), hdmore⟩

theorem describes_actions {actions : List Token} (h : ActionsText actions)
    (hmore : Describes more column value) : Describes (actions ++ more) column value := by
  induction h with
  | nil => exact hmore
  | @cons on event word effect rest hon hevent hword heffect _ ih =>
    have hrow : Describes (on :: ((event :: effect) ++ (rest ++ more))) column value :=
      describes_keyword _ hon rfl (by decide)
        (fun _ hahead => gives_then_return column
          (gives_skipReferentialAction hevent hword heffect hahead)) ih
    rwa [List.cons_append, List.cons_append, List.append_assoc]

theorem ActionsText.follows {actions : List Token} (h : ActionsText actions) (hmore : Follows more) :
    Follows (actions ++ more) := by
  cases h with
  | nil => exact hmore
  | cons hon => exact follows_cons hon rfl (by decide) _

/-- A modifier changes the column as it says. -/
theorem describes_modifier {modifier : ColumnModifier} {tokens : List Token}
    (h : ModifierText modifier tokens) (hfollows : Follows more)
    (hmore : Describes more (modifier.apply column) value) : Describes (tokens ++ more) column value := by
  have hopen := hfollows.any_isMark .openParen
  cases h with
  | collation hword => exact describes_named hword (by decide) hmore
  | identity hword hargs =>
    refine describes_keyword _ hword rfl (by decide) (fun c hahead => ?_) hmore
    exact gives_then_return { column with isIdentity := true } (gives_skipArguments hargs hahead hopen)
  | notNull hnot hnull => exact describes_notNull hnot hnull hmore
  | null hword =>
    refine describes_keyword [] hword rfl (by decide) (fun c hahead => ?_) hmore
    exact ⟨c, gives_pure.mpr ⟨rfl, rfl⟩, hahead⟩
  | default hword hvalue => exact describes_default hword hvalue hopen hmore
  | check hword hgroup =>
    refine describes_keyword _ hword rfl (by decide) (fun c hahead => ?_) hmore
    exact gives_then_return column (gives_skipArguments_of_group hgroup hahead)
  | primaryKey hprimary hkey hkind => exact describes_primaryKey hprimary hkey hkind hfollows hmore
  | unique hword hkind =>
    refine describes_keyword _ hword rfl (by decide) (fun c hahead => ?_) hmore
    exact gives_then_return column (gives_skipClustering hkind hahead hfollows)
  | reference hforeign hword htarget hactions =>
    rw [List.append_assoc, List.cons_append, List.append_assoc]
    exact describes_foreign hforeign
      (describes_target hword htarget (hactions.follows hfollows) (describes_actions hactions hmore))
  | mere hmere => exact describes_mere hmere hmore

/-- The first word of a clause ends the clause before. -/
theorem ClauseText.follows {modifier : ColumnModifier} {tokens : List Token}
    (h : ClauseText modifier tokens) (rest : List Token) : Follows (tokens ++ rest) := by
  obtain ⟨hlabel, hmodifier⟩ := h
  cases hlabel with
  | named hword => exact follows_cons hword rfl (by decide) _
  | none =>
    rw [List.nil_append]
    cases hmodifier with
    | mere hmere =>
      rintro _ ⟨⟩
      simp only [isMereWord, Bool.and_eq_true, Bool.not_eq_true'] at hmere
      exact ⟨hmere.1.1, hmere.2⟩
    | reference hforeign hword =>
      cases hforeign with
      | none => exact follows_cons hword rfl (by decide) _
      | key hforeign => exact follows_cons hforeign rfl (by decide) _
    | _ hword => exact follows_cons hword rfl (by decide) _

theorem follows_flatten {modifiers : List ColumnModifier} {parts : List (List Token)}
    (h : List.Forall₂ ClauseText modifiers parts) (hmore : Follows more) :
    Follows (parts.flatten ++ more) := by
  cases h with
  | nil => exact hmore
  | cons hclause =>
    rw [List.flatten_cons, List.append_assoc]
    exact hclause.follows _

/-- Clauses in a row change the column one after another. -/
theorem describes_clauses {modifiers : List ColumnModifier} {parts : List (List Token)}
    (h : List.Forall₂ ClauseText modifiers parts) (hfollows : Follows more)
    (hmore : Describes more (modifiers.foldl ColumnModifier.apply column) value) :
    Describes (parts.flatten ++ more) column value := by
  induction h generalizing column with
  | nil => exact hmore
  | cons hclause hclauses ih =>
    obtain ⟨hlabel, hmodifier⟩ := hclause
    rw [List.flatten_cons, List.append_assoc, List.append_assoc]
    exact describes_label hlabel
      (describes_modifier hmodifier (follows_flatten hclauses hfollows) (ih hmore))

end Rows

end Reading

/-! ## Columns -/

/-- The tokens of a column: its name, its type and the clauses of its modifiers. -/
inductive ColumnText (name : String) (type : DeclaredType) (modifiers : List ColumnModifier) :
    List Token → Prop where
  | intro {quote : Quote} {tokens : List Token} {parts : List (List Token)} :
      TypeText type tokens → (∀ token ∈ tokens.head?, token.isKeyword "AS" = false) →
      List.Forall₂ ClauseText modifiers parts →
      ColumnText name type modifiers (.word name quote :: (tokens ++ parts.flatten))

/-- A column is read as its name, its type and what the modifiers ahead make of it. -/
theorem gives_column {c : Cursor} {name : String} {quote : Quote} {type : DeclaredType}
    {tokens rest : List Token} {value : ColumnDefinition}
    (hahead : c.ahead = .word name quote :: (tokens ++ rest)) (htype : TypeText type tokens)
    (has : ∀ token ∈ tokens.head?, token.isKeyword "AS" = false) (hfollows : Follows rest)
    (h : Describes rest { name, type := some type } value) :
    ∃ d, Gives column c value d := by
  have hname : c.skipBlanks.advance.ahead = tokens ++ rest := Cursor.ahead_advance_of_cons hahead
  have hno : c.skipBlanks.advance.skipBlanks.sees (·.isKeyword "AS") = false := by
    obtain ⟨text, quote, more, rfl⟩ := htype.exists_head
    rw [Cursor.sees_skipBlanks, hname]
    exact has _ rfl
  obtain ⟨m, hm, hmore⟩ :=
    gives_typeText htype hname (hfollows.any_isMark .period) (hfollows.any_isMark .openParen)
  have hfuel : rest.length < m.left + 1 := Nat.lt_succ_of_le (hmore ▸ m.ahead_length_le)
  obtain ⟨d, hd⟩ := h m _ hmore hfuel
  refine ⟨d, ?_⟩
  unfold column
  refine gives_skipBlanks_bind.mpr (gives_bind.mpr ⟨name, _, gives_word hahead, ?_⟩)
  refine gives_skipBlanks_bind.mpr (gives_accepts_bind.mpr ?_)
  rw [hno]
  exact gives_bind.mpr ⟨type, m, hm, gives_get_bind.mpr hd⟩

/-- The modifiers of a column may come in any order: a text whose tokens are those of a column is read
as what its name, its type and its modifiers say, wherever blanks and comments stand. -/
theorem column_eq_described {text : String} {c : Cursor} {name : String} {type : DeclaredType}
    {modifiers : List ColumnModifier} (htext : Cursor.ofText? text = some c)
    (h : ColumnText name type modifiers c.ahead) :
    run? column text = some (described name type modifiers) := by
  obtain ⟨tokens, hahead⟩ : ∃ tokens, c.ahead = tokens := ⟨_, rfl⟩
  rw [hahead] at h
  obtain ⟨htype, has, hparts⟩ := h
  have hfollows := follows_flatten hparts follows_nil
  have hdescribes := describes_clauses hparts follows_nil
    (describes_nil (modifiers.foldl ColumnModifier.apply { name, type := some type }))
  rw [List.append_nil] at hfollows hdescribes
  obtain ⟨d, hd⟩ := gives_column hahead htype has hfollows hdescribes
  rw [described_eq_foldl]
  exact run?_of_gives htext hd

/-- What is referred to by `references dbo.t (id)`. -/
def keyTarget : ColumnReference := ⟨⟨none, some "dbo", "t"⟩, ["id"]⟩

/-- A column with blanks and comments between its modifiers. -/
def keyColumn : String :=
  "id int default(null) constraint fk foreign key references dbo . t(id) -- parent\n on delete " ++
    "set null primary /* no heap */ key clustered not null"

/-- The modifiers of `default (null) constraint fk foreign key references dbo.t (id) on delete set null
primary key clustered not null`. -/
def keyClauses : List (List Token) :=
  [[.word "default" .bare, .mark .openParen, .word "null" .bare, .mark .closeParen],
    [.word "constraint" .bare, .word "fk" .bare, .word "foreign" .bare, .word "key" .bare,
      .word "references" .bare, .word "dbo" .bare, .mark .period, .word "t" .bare, .mark .openParen,
      .word "id" .bare, .mark .closeParen, .word "on" .bare, .word "delete" .bare, .word "set" .bare,
      .word "null" .bare],
    [.word "primary" .bare, .word "key" .bare, .word "clustered" .bare],
    [.word "not" .bare, .word "null" .bare]]

theorem clauseText_keyClauses :
    List.Forall₂ ClauseText [.default, .reference keyTarget, .primaryKey, .notNull] keyClauses := by
  have hvalue : Group [.mark .openParen, .word "null" .bare, .mark .closeParen] :=
    @Group.intro [.word "null" .bare] (.token nofun nofun .nil)
  have htable : NameText ⟨none, some "dbo", "t"⟩ [.word "dbo" .bare, .mark .period, .word "t" .bare] :=
    .intro (.part .nil) rfl
  have htarget : TargetText keyTarget [.word "dbo" .bare, .mark .period, .word "t" .bare,
      .mark .openParen, .word "id" .bare, .mark .closeParen] := .columns htable .last
  have heffect : EffectText [.word "set" .bare, .word "null" .bare] := .setNull rfl rfl
  have hactions := @ActionsText.cons (.word "on" .bare) (.word "delete" .bare) "DELETE" _ _ rfl rfl
    (by decide) heffect .nil
  have hforeign : ForeignText [.word "foreign" .bare, .word "key" .bare] := .key rfl rfl
  have hlabel : LabelText [.word "constraint" .bare, .word "fk" .bare] := .named rfl
  have hkind : ClusteringText [.word "clustered" .bare] := .clustered rfl
  have hnot : ModifierText .notNull [.word "not" .bare, .word "null" .bare] := .notNull rfl rfl
  have hreference : ModifierText (.reference keyTarget) _ :=
    @ModifierText.reference _ _ _ _ (.word "references" .bare) hforeign rfl htarget hactions
  exact .cons (.intro .none (.default rfl (.group hvalue))) (.cons (.intro hlabel hreference)
    (.cons (.intro .none (.primaryKey rfl rfl hkind)) (.cons (.intro .none hnot) .nil)))

/-- Blanks and comments stand between the modifiers, and the `NULL` of the default and of the action
do not count. -/
theorem column_eq_described_of_keyClauses :
    ∃ c, Cursor.ofText? keyColumn = some c ∧
      ColumnText "id" (.ofSizes none "int" []) [.default, .reference keyTarget, .primaryKey, .notNull]
        c.ahead ∧
      run? column keyColumn =
        some { name := "id", type := some { schema := none, name := "int" }, nullability := some false,
               isPrimaryKey := true, references := some keyTarget } := by
  obtain ⟨c, hc, htest⟩ := exists_cursor_of_any keyColumn
    (fun c => decide (c.ahead = .word "id" .bare :: ([.word "int" .bare] ++ keyClauses.flatten)))
    (by decide +kernel)
  have hname : NameText ⟨none, none, "int"⟩ [.word "int" .bare] := .intro .nil rfl
  have htext : ColumnText "id" (.ofSizes none "int" [])
      [.default, .reference keyTarget, .primaryKey, .notNull] c.ahead := by
    rw [of_decide_eq_true htest]
    exact .intro (.plain hname) (by decide) clauseText_keyClauses
  exact ⟨c, hc, htext, column_eq_described hc htext⟩

/-- A text is read only if it has tokens. The `\'` of a national literal is no end of it, though it is
of a plain one; and a comment in a comment ends the outer one, so what stands behind it is read as
part of the column, up to the first token that is no word. -/
theorem column_lost_in_text :
    run? column "p nvarchar(9) default 'C:\\' not null" =
        some { name := "p",
               type := some { schema := none, name := "nvarchar", length := some (.limited 9) },
               nullability := some false } ∧
      run? column "p nvarchar(9) default N'C:\\' not null" = none ∧
      run? column "p int /* a /* b */ c */ not null" =
        some { name := "p", type := some { schema := none, name := "int" } } := by
  decide +kernel

end SchemaPlan.Definition
