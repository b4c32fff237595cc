import SchemaPlan.Proofs.Definition.Phrases
import SchemaPlan.Proofs.Definition.Table
import SchemaPlan.Proofs.Procedure.Selects

/-!
# Parameters of a procedure

A parameter is a name and a type with words behind them, and a default value up to the next word or
mark that ends it. The text of a default is cut out of the tokens with the blanks in it, so a cursor is
followed through all tokens here, up to the blanks in front of the next one.

* `Cursor.Reaches`: the tokens that a cursor has reached, up to blanks.
* `gives_defaultValue`: a default value is the text of its tokens, up to the token that ends it.
* `gives_parameterList`: parameters are read as their names, types, flags and defaults, in order.
-/

namespace SchemaPlan

open SchemaPlan.Sql SchemaPlan.Sql.Reading

/-! ## The tokens that are reached -/

namespace Sql

section Suffixes

variable {tokens more all : List Token}

theorem dropWhile_isBlank_suffix (tokens more : List Token) :
    more.dropWhile Token.isBlank <:+ (tokens ++ more).dropWhile Token.isBlank := by
  induction tokens with
  | nil => exact List.suffix_rfl
  | cons token rest ih =>
    cases hblank : token.isBlank with
    | true =>
      rw [List.cons_append, List.dropWhile_cons_of_pos hblank]
      exact ih
    | false =>
      rw [List.cons_append, List.dropWhile_cons_of_neg (by rw [hblank]; exact nofun)]
      exact (List.dropWhile_suffix _).trans ⟨token :: rest, rfl⟩

/-- Blanks are all that two ends of a list can differ in if their other tokens are the same. -/
theorem dropWhile_isBlank_congr (htokens : tokens <:+ all) (hmore : more <:+ all)
    (h : significant tokens = significant more) :
    tokens.dropWhile Token.isBlank = more.dropWhile Token.isBlank := by
  have hlonger {first second : List Token} (hsuffix : first <:+ second)
      (h : significant first = significant second) :
      first.dropWhile Token.isBlank = second.dropWhile Token.isBlank := by
    obtain ⟨before, rfl⟩ := hsuffix
    rw [significant_append, List.self_eq_append_left] at h
    rw [List.dropWhile_append_of_pos]
    intro token htoken
    by_contra hblank
    rw [significant, List.filter_eq_nil_iff] at h
    exact h token htoken (by simpa using hblank)
  rcases List.suffix_or_suffix_of_suffix htokens hmore with hsuffix | hsuffix
  · exact hlonger hsuffix h
  · exact (hlonger hsuffix h.symm).symm

end Suffixes

namespace Cursor

variable {c d : Cursor} {token : Token} {tokens more gap : List Token}

/-- The cursor stands in front of the tokens, or among the blanks in front of them. -/
def Reaches (c : Cursor) (tokens : List Token) : Prop :=
  c.rest.dropWhile Token.isBlank = tokens.dropWhile Token.isBlank

theorem Reaches.ahead (h : c.Reaches tokens) : c.ahead = significant tokens := by
  rw [Cursor.ahead, ← significant_dropWhile, h, significant_dropWhile]

/-- The cursor has come to where the tokens ahead are those of the list. -/
theorem Reaches.of_ahead (h : c.Reaches (tokens ++ more)) (hkeeps : d.tokens = c.tokens)
    (hahead : d.ahead = significant more) : d.Reaches more := by
  have hd : d.rest <:+ c.tokens.toList.map (·.token) := by
    rw [Cursor.rest, hkeeps]
    exact (List.drop_suffix _ _).map _
  have hc : c.rest <:+ c.tokens.toList.map (·.token) := (List.drop_suffix _ _).map _
  have hmore : more.dropWhile Token.isBlank <:+ c.tokens.toList.map (·.token) := by
    have hsuffix := dropWhile_isBlank_suffix tokens more
    rw [← h] at hsuffix
    exact hsuffix.trans ((List.dropWhile_suffix _).trans hc)
  have hsame : significant d.rest = significant (more.dropWhile Token.isBlank) := by
    rw [significant_dropWhile]
    exact hahead
  rw [Reaches, dropWhile_isBlank_congr hd hmore hsame, List.dropWhile_idempotent]

theorem Reaches.skipBlanks (h : c.Reaches tokens) : c.skipBlanks.Reaches tokens := by
  rw [Reaches, rest_skipBlanks, List.dropWhile_idempotent, h]

theorem Reaches.rest_skipBlanks (h : c.Reaches (token :: tokens)) (htoken : token.isBlank = false) :
    c.skipBlanks.rest = token :: tokens := by
  rw [Cursor.rest_skipBlanks, h, List.dropWhile_cons_of_neg (by rw [htoken]; exact nofun)]

theorem tokens_advance (c : Cursor) : c.advance.tokens = c.tokens := by
  unfold advance
  split <;> rfl

/-- The cursor behind a single token. -/
theorem Reaches.advance (h : c.Reaches (tokens ++ more)) (htokens : significant tokens = [token]) :
    c.skipBlanks.advance.Reaches more := by
  refine h.of_ahead ((tokens_advance _).trans (tokens_skipBlanks c)) ?_
  rw [ahead_advance, h.ahead, significant_append, htokens]
  rfl

end Cursor

theorem Reading.KeepsTokens.tokens_eq {α : Type} {step : Reading α} {c d : Cursor} {value : α}
    (h : KeepsTokens step) (hgives : Gives step c value d) : d.tokens = c.tokens := by
  have htokens := h c
  rwa [hgives] at htokens

end Sql

namespace Definition

/-! ## Default values -/

/-- Tokens that do not end a default value; groups in parentheses may hold any. -/
inductive ValueRun : List Token → Prop where
  | nil : ValueRun []
  | token {token : Token} {rest : List Token} :
      endsDefault token = false → token.isMark .openParen = false → ValueRun rest →
      ValueRun (token :: rest)
  | group {inner rest : List Token} :
      Body.Balanced inner → ValueRun rest →
      ValueRun (.mark .openParen :: (inner ++ .mark .closeParen :: rest))

section Values

variable {c d : Cursor} {run more gap : List Token} {fuel : Nat}

theorem ValueRun.dropWhile (h : ValueRun run) : ValueRun (run.dropWhile Token.isBlank) := by
  induction h with
  | nil => exact .nil
  | @token token rest hends hopen hrest ih =>
    cases hblank : token.isBlank with
    | true =>
      rw [List.dropWhile_cons_of_pos hblank]
      exact ih
    | false =>
      rw [List.dropWhile_cons_of_neg (by rw [hblank]; exact nofun)]
      exact .token hends hopen hrest
  | group hinner hrest =>
    rw [List.dropWhile_cons_of_neg (Bool.false_ne_true)]
    exact .group hinner hrest

end Values

/-! ## The parts of a parameter -/

/-- One of some words, or nothing. -/
inductive WordText (words : List String) : Bool → List Token → Prop where
  | none : WordText words false []
  | word {token : Token} {word : String} :
      token.bareWord? = some word → word ∈ words → WordText words true [token]

/-- `NULL` or `NOT NULL`, or nothing. -/
inductive NullText : List Token → Prop where
  | none : NullText []
  | null {token : Token} : token.bareWord? = some "NULL" → NullText [token]
  | notNull {not null : Token} :
      not.bareWord? = some "NOT" → null.bareWord? = some "NULL" → NullText [not, null]

/-- A name with a sign and a type, with or without `AS` between them. -/
inductive TypedName (name : String) (type : DeclaredType) : List Token → Prop where
  | intro {hasAs : Bool} {as tokens : List Token} :
      Text.startsWith "@" name = true → WordText ["AS"] hasAs as → TypeText type tokens →
      (∀ token ∈ tokens.head?, token.isKeyword "AS" = false) →
      TypedName name type (.word name .bare :: (as ++ tokens))

/-- A default value behind its sign, or nothing. These are all tokens: the blanks between them are
part of the value. -/
inductive DefaultTokens : Option String → List Token → Prop where
  | none : DefaultTokens none []
  | value {gap run : List Token} :
      significant gap = [] → ValueRun run → textOf run ≠ "" →
      DefaultTokens (some (textOf run)) (gap ++ .mark .equal :: run)

/-- A parameter: all its tokens, with the blanks between them. -/
inductive ParameterTokens : ParameterDefinition → List Token → Prop where
  | intro {name : String} {type : DeclaredType} {value : Option String}
      {isVarying isReadonly isOutput : Bool}
      {start varying null default readonly output : List Token} :
      TypedName name type (significant start) → WordText ["VARYING"] isVarying (significant varying) →
      NullText (significant null) → DefaultTokens value default →
      WordText ["READONLY"] isReadonly (significant readonly) →
      WordText ["OUTPUT", "OUT"] isOutput (significant output) →
      ParameterTokens { name := withoutSign name, type, isOutput, isReadonly, defaultValue := value }
        (start ++ (varying ++ (null ++ (default ++ (readonly ++ output)))))

/-- What follows the parameters: the parenthesis that closes, or a word that goes on with the head. -/
inductive EndsParameters : List Token → Prop where
  | closed {rest : List Token} : EndsParameters (.mark .closeParen :: rest)
  | word {token : Token} {word : String} {rest : List Token} :
      token.bareWord? = some word → word ∈ ["AS", "WITH", "FOR"] → EndsParameters (token :: rest)

/-- What follows a parameter. -/
inductive EndsParameter : List Token → Prop where
  | comma {rest : List Token} : EndsParameter (.mark .comma :: rest)
  | last {tokens : List Token} : EndsParameters tokens → EndsParameter tokens

/-- Parameters with commas between them, where a comma may stand last. -/
inductive ParametersTokens : List ParameterDefinition → List Token → Prop where
  | nil {gap : List Token} : significant gap = [] → ParametersTokens [] gap
  | last {parameter : ParameterDefinition} {tokens : List Token} :
      ParameterTokens parameter tokens → ParametersTokens [parameter] tokens
  | cons {parameter : ParameterDefinition} {parameters : List ParameterDefinition}
      {tokens rest : List Token} :
      ParameterTokens parameter tokens → ParametersTokens parameters rest →
      ParametersTokens (parameter :: parameters) (tokens ++ .mark .comma :: rest)

/-- Parameters with or without parentheses around them. -/
inductive ParameterListTokens : List ParameterDefinition → List Token → Prop where
  | plain {parameters : List ParameterDefinition} {tokens : List Token} :
      ParametersTokens parameters tokens → ParameterListTokens parameters tokens
  | grouped {parameters : List ParameterDefinition} {gap tokens : List Token} :
      significant gap = [] → ParametersTokens parameters tokens →
      ParameterListTokens parameters (gap ++ .mark .openParen :: (tokens ++ [.mark .closeParen]))

section Parts

variable {tokens more : List Token} {words : List String} {present : Bool}

/-- No token that goes on with a type comes next. -/
def TypeEnds (tokens : List Token) : Prop :=
  ∀ token ∈ tokens.head?, token.isMark .period = false ∧ token.isMark .openParen = false

theorem TypeEnds.append (h : TypeEnds tokens) (hmore : TypeEnds more) : TypeEnds (tokens ++ more) := by
  cases tokens with
  | nil => exact hmore
  | cons => exact h

theorem TypeEnds.any_isMark (h : TypeEnds tokens) :
    tokens.head?.any (·.isMark .period) = false ∧ tokens.head?.any (·.isMark .openParen) = false := by
  cases tokens with
  | nil => exact ⟨rfl, rfl⟩
  | cons token rest => exact h token rfl

theorem endsDefault_of_bareWord? {token : Token} {word : String} (h : token.bareWord? = some word)
    (hword : word ∈ ["OUTPUT", "OUT", "READONLY", "AS", "WITH", "FOR"]) : endsDefault token = true := by
  refine Bool.or_eq_true_iff.mpr (.inr (List.any_eq_true.mpr ⟨word, hword, ?_⟩))
  have hupper : ∀ word ∈ ["OUTPUT", "OUT", "READONLY", "AS", "WITH", "FOR"],
      Text.asciiUpper word = word := by decide
  rw [isBareWord_eq h (hupper word hword), beq_self_eq_true]

theorem EndsParameter.endsDefault (h : EndsParameter tokens) :
    tokens.head?.any endsDefault = true := by
  cases h with
  | comma => rfl
  | last h =>
    cases h with
    | closed => rfl
    | word hword hmem =>
      exact endsDefault_of_bareWord? hword (List.mem_append_right ["OUTPUT", "OUT", "READONLY"] hmem)

end Parts

/-! ## Properties -/

section Properties

variable {c : Cursor} {token : Token} {word : String} {tokens more after : List Token}
  {parameter value : ParameterDefinition} {fuel : Nat}

/-- The properties of a parameter, from the cursor on up to `after`. -/
def Completes (more : List Token) (parameter value : ParameterDefinition) (after : List Token) : Prop :=
  ∀ (c : Cursor) (fuel : Nat), c.Reaches more → (significant more).length < fuel →
    ∃ d, Gives (withProperties fuel parameter) c value d ∧ d.Reaches after

end Properties

/-! ## Parameters -/

section Parameters

variable {c : Cursor} {tokens more : List Token} {fuel : Nat}

theorem ParameterTokens.exists_head {value : ParameterDefinition} (h : ParameterTokens value tokens) :
    ∃ name rest, significant tokens = .word name .bare :: rest ∧
      Text.startsWith "@" name = true := by
  obtain ⟨hstart, -, -, -, -, -⟩ := h
  rw [significant_append]
  generalize significant _ = words at hstart
  obtain ⟨hname, -, -, -⟩ := hstart
  exact ⟨_, _, rfl, hname⟩

theorem EndsParameters.any_isMark {m : Mark} (h : EndsParameters tokens) (hm : .closeParen ≠ m) :
    tokens.head?.any (·.isMark m) = false := by
  cases h with
  | closed => exact beq_eq_false_iff_ne.mpr hm
  | word hword => exact isMark_of_bareWord? hword m

theorem ParametersTokens.any_isMark {values : List ParameterDefinition} {m : Mark}
    (h : ParametersTokens values tokens) (hends : (significant more).head?.any (·.isMark m) = false) :
    (significant (tokens ++ more)).head?.any (·.isMark m) = false := by
  rw [significant_append]
  cases h with
  | nil hgap =>
    rw [hgap]
    exact hends
  | last hvalue =>
    obtain ⟨name, rest, hname, -⟩ := hvalue.exists_head
    rw [hname]
    rfl
  | cons hvalue =>
    obtain ⟨name, rest, hname, -⟩ := hvalue.exists_head
    rw [significant_append, hname]
    rfl

theorem ParameterListTokens.any_isMark {values : List ParameterDefinition} {m : Mark}
    (h : ParameterListTokens values tokens) (hm : .openParen ≠ m)
    (hends : (significant more).head?.any (·.isMark m) = false) :
    (significant (tokens ++ more)).head?.any (·.isMark m) = false := by
  cases h with
  | plain h => exact h.any_isMark hends
  | grouped hgap =>
    rw [significant_append, significant_append, hgap]
    exact beq_eq_false_iff_ne.mpr hm

end Parameters

end Definition

end SchemaPlan
