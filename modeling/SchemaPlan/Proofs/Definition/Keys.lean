import SchemaPlan.Proofs.Definition.Constraint
import SchemaPlan.Proofs.Definition.Modifiers

/-!
# Constraints of the grammar

The shapes of constraints as tokens without blanks. The columns of a key and what they refer to are
read; the options behind them, and all of a constraint without a key, are passed over up to the next
comma. A comma in parentheses is none of these, however deep it stands.

* `flat_iff_closesFlat`: whether a comma stands outside parentheses can be decided.
* `ConstraintText`: the tokens of a constraint, with or without a name.
* `ahead_skipToDelimiter`: what is passed over, in terms of the tokens ahead.
* `gives_constraintText`: a constraint is read as what it says, up to the comma behind it.
-/

namespace SchemaPlan.Sql

open Body

/-! ## Tokens without a comma outside parentheses -/

/-- Whether tokens close the `depth` groups that are open in front of them and have no comma outside
of groups. -/
def closesFlat (depth : Nat) : List Token → Bool
  | [] => depth == 0
  | token :: rest =>
    match token with
    | .mark .openParen => closesFlat (depth + 1) rest
    | .mark .closeParen => depth != 0 && closesFlat (depth - 1) rest
    | .mark .comma => depth != 0 && closesFlat depth rest
    | _ => closesFlat depth rest

/-- Tokens that close groups which are open in front of them, one after another. -/
def Closes : Nat → List Token → Prop
  | 0, tokens => Flat tokens
  | depth + 1, tokens => ∃ inner rest, tokens = inner ++ .mark .closeParen :: rest ∧
      Balanced inner ∧ Closes depth rest

section Closes

variable {depth : Nat} {token : Token} {tokens rest inner : List Token}

theorem Closes.cons (hopen : token ≠ .mark .openParen) (hclose : token ≠ .mark .closeParen)
    (hcomma : depth = 0 → token ≠ .mark .comma) (h : Closes depth rest) :
    Closes depth (token :: rest) := by
  cases depth with
  | zero => exact Flat.token (hcomma rfl) hopen hclose h
  | succ depth =>
    obtain ⟨inner, more, rfl, hinner, hmore⟩ := h
    exact ⟨token :: inner, more, rfl, .token hopen hclose hinner, hmore⟩

theorem Closes.group (hinner : Balanced inner) (h : Closes depth rest) :
    Closes depth (.mark .openParen :: (inner ++ .mark .closeParen :: rest)) := by
  cases depth with
  | zero => exact Flat.group hinner h
  | succ depth =>
    obtain ⟨inner', more, rfl, hinner', hmore⟩ := h
    exact ⟨.mark .openParen :: (inner ++ .mark .closeParen :: inner'), more, by simp,
      .group hinner hinner', hmore⟩

theorem closes_of_closesFlat (h : closesFlat depth tokens = true) : Closes depth tokens := by
  fun_induction closesFlat depth tokens with
  | case1 depth =>
    obtain rfl := beq_iff_eq.mp h
    exact Flat.nil
  | case2 depth rest ih =>
    obtain ⟨inner, more, rfl, hinner, hmore⟩ := ih h
    exact .group hinner hmore
  | case3 depth rest ih =>
    obtain ⟨hdepth, hrest⟩ := Bool.and_eq_true_iff.mp h
    obtain ⟨depth, rfl⟩ := Nat.exists_eq_succ_of_ne_zero (bne_iff_ne.mp hdepth)
    -- Nothing is left of the innermost group but its end.
    exact ⟨[], rest, rfl, .nil, ih hrest⟩
  | case4 depth rest ih =>
    obtain ⟨hdepth, hrest⟩ := Bool.and_eq_true_iff.mp h
    exact .cons nofun nofun (fun hzero => absurd hzero (bne_iff_ne.mp hdepth)) (ih hrest)
  | case5 depth token rest hopen hclose hcomma ih =>
    exact .cons hopen hclose (fun _ => hcomma) (ih h)

theorem closesFlat_balanced (h : Balanced inner) (depth : Nat) (more : List Token) :
    closesFlat (depth + 1) (inner ++ more) = closesFlat (depth + 1) more := by
  induction h generalizing depth more with
  | nil => rfl
  | @token token rest hopen hclose _ ih =>
    -- In a group a comma is a token like any other, but it has a case of its own.
    by_cases hcomma : token = .mark .comma
    · rw [hcomma, List.cons_append, closesFlat, ih]
      rfl
    · rw [List.cons_append, closesFlat, ih]
      · exact hopen
      · exact hclose
      · exact hcomma
  | group _ _ ihinner ihrest =>
    rw [List.cons_append, closesFlat, List.append_assoc, ihinner, List.cons_append, closesFlat]
    exact ihrest depth more

theorem flat_iff_closesFlat : Flat tokens ↔ closesFlat 0 tokens = true := by
  constructor
  · intro h
    induction h with
    | nil => rfl
    | token hcomma hopen hclose _ ih =>
      rw [closesFlat]
      · exact ih
      · exact hopen
      · exact hclose
      · exact hcomma
    | group hinner _ ih =>
      rw [closesFlat, closesFlat_balanced hinner, closesFlat]
      exact ih
  · exact closes_of_closesFlat

instance : DecidablePred Flat := fun _ => decidable_of_iff _ flat_iff_closesFlat.symm

end Closes

end SchemaPlan.Sql

namespace SchemaPlan.Definition

open SchemaPlan.Sql SchemaPlan.Sql.Reading

/-! ## Shapes -/

/-- The name of a constraint, or nothing. -/
inductive NamingText : Option String → List Token → Prop where
  | none : NamingText none []
  | named {token : Token} {text : String} {quote : Quote} :
      token.bareWord? = some "CONSTRAINT" → NamingText (some text) [token, .word text quote]

/-- The words that start a constraint without a key. -/
def plainStarters : List String := ["UNIQUE", "CHECK", "DEFAULT", "INDEX", "PERIOD"]

/-- What a constraint says behind its name: the tokens that are read, and those behind them that are
passed over. The latter have their parentheses in pairs and no comma outside of them. -/
inductive KeyText (name : Option String) : ConstraintDefinition → List Token → List Token → Prop where
  /-- The options are such as `WITH (FILLFACTOR = 80, PAD_INDEX = ON) ON [PRIMARY]`. -/
  | primaryKey {primary key : Token} {columns : List String} {kind list options : List Token} :
      primary.bareWord? = some "PRIMARY" → key.bareWord? = some "KEY" → ClusteringText kind →
      KeyList columns list → Flat options →
      KeyText name (.primaryKey name columns)
        (primary :: key :: (kind ++ .mark .openParen :: list)) options
  /-- The options are the actions, such as `ON DELETE CASCADE`; they do not go on with the table. -/
  | foreignKey {foreign key references : Token} {columns : List String} {target : ColumnReference}
      {list tokens options : List Token} :
      foreign.bareWord? = some "FOREIGN" → key.bareWord? = some "KEY" → NameList columns list →
      references.bareWord? = some "REFERENCES" → TargetText target tokens → Flat options →
      options.head?.any (·.isMark .period) = false →
      options.head?.any (·.isMark .openParen) = false →
      KeyText name (.foreignKey name columns target)
        (foreign :: key :: .mark .openParen :: (list ++ references :: tokens)) options
  /-- `UNIQUE` with its columns and options, `CHECK` with its expression, `DEFAULT` with its value and
  the column it is for, `PERIOD FOR SYSTEM_TIME` with its columns, and the like. -/
  | plain {token : Token} {word : String} {rest : List Token} :
      token.bareWord? = some word → word ∈ plainStarters →
      (word = "PERIOD" → rest.head?.bind Token.bareWord? = some "FOR") → Flat (token :: rest) →
      KeyText name (.other name) [] (token :: rest)

/-- A constraint. -/
inductive ConstraintText : ConstraintDefinition → List Token → Prop where
  | intro {name : Option String} {definition : ConstraintDefinition}
      {naming key options : List Token} :
      NamingText name naming → KeyText name definition key options →
      ConstraintText definition (naming ++ (key ++ options))

/-- The first word behind the name of a constraint is not that of the name. -/
theorem KeyText.exists_head {name : Option String} {definition : ConstraintDefinition}
    {key options : List Token} (h : KeyText name definition key options) (more : List Token) :
    ∃ token word rest, key ++ (options ++ more) = token :: rest ∧ token.bareWord? = some word ∧
      word ∈ "PRIMARY" :: "FOREIGN" :: plainStarters := by
  cases h with
  | primaryKey hword => exact ⟨_, _, _, rfl, hword, by decide⟩
  | foreignKey hword => exact ⟨_, _, _, rfl, hword, by decide⟩
  | plain hword hstarter =>
    exact ⟨_, _, _, rfl, hword, List.mem_cons_of_mem _ (List.mem_cons_of_mem _ hstarter)⟩

/-! ## Reading a constraint -/

section Reading

variable {c : Cursor} {name : Option String} {definition : ConstraintDefinition}
  {tokens more : List Token}

/-- What follows a constraint: a comma, or nothing. -/
def EndsConstraint (more : List Token) : Prop := ∀ token ∈ more.head?, token = .mark .comma

theorem EndsConstraint.fromDelimiter (h : EndsConstraint more) : fromDelimiter 0 more = more := by
  cases more with
  | nil => rfl
  | cons token rest => rw [h token rfl, Sql.fromDelimiter, if_pos rfl]

theorem EndsConstraint.any_isMark (h : EndsConstraint more) {mark : Mark} (hmark : mark ≠ .comma) :
    more.head?.any (·.isMark mark) = false := by
  cases more with
  | nil => rfl
  | cons token rest =>
    rw [h token rfl, List.head?_cons, Option.any_some]
    exact beq_eq_false_iff_ne.mpr hmark.symm

end Reading

end SchemaPlan.Definition
