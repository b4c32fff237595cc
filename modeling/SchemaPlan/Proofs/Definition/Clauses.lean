import SchemaPlan.Definition.Column
import SchemaPlan.Proofs.Definition.Phrases

/-!
# Clauses of a column

The shapes of the modifiers of a column, as tokens without blanks, and the column that a name, a type
and modifiers describe. What a column is does not depend on the order of its modifiers, but for two
references, of which the last one counts.
-/

namespace SchemaPlan.Definition

open SchemaPlan.Sql SchemaPlan.Sql.Reading

/-! ## Clauses -/

/-- A modifier of a column. -/
inductive ColumnModifier where
  | collation | identity | notNull | null | default | check | primaryKey | unique
  | reference (target : ColumnReference)
  /-- A word that says nothing of the column, such as `SPARSE`. -/
  | mere
deriving Repr, DecidableEq

/-- The kind of an index. -/
def isClustering (token : Token) : Bool :=
  token.isKeyword "CLUSTERED" || token.isBareWord "NONCLUSTERED"

/-- A word that starts no modifier and is no kind of an index. -/
def isMereWord (token : Token) : Bool :=
  token.isWord && (columnModifiers.find? token.isKeyword).isNone && !isClustering token

/-- The name of a constraint, or nothing. -/
inductive LabelText : List Token → Prop where
  | none : LabelText []
  | named {token : Token} {text : String} {quote : Quote} :
      token.bareWord? = some "CONSTRAINT" → LabelText [token, .word text quote]

/-- A sign, or nothing. -/
inductive SignText : List Token → Prop where
  | none : SignText []
  | minus : SignText [.mark .minus]
  | plus : SignText [.mark .plus]

/-- A sign of a currency. -/
def isCurrency : Token → Bool
  | .placeholder _ => true
  | .other _ => true
  | _ => false

/-- What of an amount of money is no part of the token with its currency. -/
inductive AmountText : List Token → Prop where
  | none : AmountText []
  | number {digits : String} {long : Bool} : AmountText [.number digits long]
  | period : AmountText [.mark .period]

/-- The parts of a name behind the first, each behind a separator. -/
inductive PathText : List Token → Prop where
  | nil : PathText []
  | cons {mark : Mark} {text : String} {quote : Quote} {rest : List Token} :
      mark ∈ [.period, .doubleColon] → PathText rest →
      PathText (.mark mark :: .word text quote :: rest)

/-- The value of a default: the tokens that are taken for it, and those of it that are left. -/
inductive DefaultText : List Token → List Token → Prop where
  | group {tokens : List Token} : Group tokens → DefaultText tokens []
  /-- `NULL`, or a function without parentheses such as `CURRENT_TIMESTAMP`. -/
  | word {text : String} {quote : Quote} : DefaultText [.word text quote] []
  | number {sign : List Token} {digits : String} {long : Bool} :
      SignText sign → DefaultText (sign ++ [.number digits long]) []
  | literal {kind : LiteralKind} {value : String} : DefaultText [.literal kind value] []
  | call {text : String} {quote : Quote} {args : List Token} :
      Group args → DefaultText (.word text quote :: args) []
  | money {sign left : List Token} {currency : Token} :
      SignText sign → isCurrency currency = true → AmountText left →
      DefaultText (sign ++ [currency]) left
  /-- A date or a time in braces, such as `{d '2020-01-01'}`. -/
  | escape {opening closing : Char} {text : String} {quote : Quote} {kind : LiteralKind}
      {value : String} :
      isMereWord (.word text quote) = true →
      DefaultText [.other opening] [.word text quote, .literal kind value, .other closing]
  /-- A function of a schema, or a method of a type. -/
  | pathCall {text : String} {quote : Quote} {path args : List Token} :
      PathText path → path ≠ [] → Group args → DefaultText [.word text quote] (path ++ args)
  /-- `NEXT VALUE FOR` a sequence. -/
  | next {token value for' : Token} {text : String} {quote : Quote} {path : List Token} :
      token.bareWord? = some "NEXT" → value.bareWord? = some "VALUE" → for'.bareWord? = some "FOR" →
      isMereWord (.word text quote) = true → PathText path →
      DefaultText [token] (value :: for' :: .word text quote :: path)

/-- The kind of an index, or nothing. -/
inductive ClusteringText : List Token → Prop where
  | none : ClusteringText []
  | clustered {token : Token} : token.bareWord? = some "CLUSTERED" → ClusteringText [token]
  | nonclustered {token : Token} : token.bareWord? = some "NONCLUSTERED" → ClusteringText [token]

/-- `FOREIGN KEY`, or nothing. -/
inductive ForeignText : List Token → Prop where
  | none : ForeignText []
  | key {foreign key : Token} :
      foreign.bareWord? = some "FOREIGN" → key.bareWord? = some "KEY" → ForeignText [foreign, key]

/-- The table that is referred to, and the columns of it in parentheses if they are given. -/
inductive TargetText : ColumnReference → List Token → Prop where
  | table {table : QualifiedName} {tokens : List Token} :
      NameText table tokens → TargetText ⟨table, []⟩ tokens
  | columns {table : QualifiedName} {names : List String} {tokens rest : List Token} :
      NameText table tokens → NameList names rest →
      TargetText ⟨table, names⟩ (tokens ++ .mark .openParen :: rest)

/-- What a foreign key does when its target changes. -/
inductive EffectText : List Token → Prop where
  | cascade {token : Token} : token.bareWord? = some "CASCADE" → EffectText [token]
  | noAction {no action : Token} :
      no.bareWord? = some "NO" → action.bareWord? = some "ACTION" → EffectText [no, action]
  | setNull {set value : Token} :
      set.bareWord? = some "SET" → value.bareWord? = some "NULL" → EffectText [set, value]
  | setDefault {set value : Token} :
      set.bareWord? = some "SET" → value.bareWord? = some "DEFAULT" → EffectText [set, value]

/-- The actions of a foreign key in a row. -/
inductive ActionsText : List Token → Prop where
  | nil : ActionsText []
  | cons {on event : Token} {word : String} {effect rest : List Token} :
      on.bareWord? = some "ON" → event.bareWord? = some word → word ∈ ["DELETE", "UPDATE"] →
      EffectText effect → ActionsText rest → ActionsText (on :: event :: (effect ++ rest))

/-- A modifier without its label. -/
inductive ModifierText : ColumnModifier → List Token → Prop where
  | collation {token : Token} {text : String} {quote : Quote} :
      token.bareWord? = some "COLLATE" → ModifierText .collation [token, .word text quote]
  | identity {token : Token} {args : List Token} :
      token.bareWord? = some "IDENTITY" → Arguments args → ModifierText .identity (token :: args)
  | notNull {not null : Token} :
      not.bareWord? = some "NOT" → null.bareWord? = some "NULL" → ModifierText .notNull [not, null]
  | null {token : Token} : token.bareWord? = some "NULL" → ModifierText .null [token]
  | default {token : Token} {value : List Token} :
      token.bareWord? = some "DEFAULT" → DefaultText value [] → ModifierText .default (token :: value)
  | check {token : Token} {group : List Token} :
      token.bareWord? = some "CHECK" → Group group → ModifierText .check (token :: group)
  | primaryKey {primary key : Token} {kind : List Token} :
      primary.bareWord? = some "PRIMARY" → key.bareWord? = some "KEY" → ClusteringText kind →
      ModifierText .primaryKey (primary :: key :: kind)
  | unique {token : Token} {kind : List Token} :
      token.bareWord? = some "UNIQUE" → ClusteringText kind → ModifierText .unique (token :: kind)
  | reference {target : ColumnReference} {foreign tokens actions : List Token} {token : Token} :
      ForeignText foreign → token.bareWord? = some "REFERENCES" → TargetText target tokens →
      ActionsText actions → ModifierText (.reference target) (foreign ++ token :: (tokens ++ actions))
  | mere {token : Token} : isMereWord token = true → ModifierText .mere [token]

/-- A modifier with its label. -/
inductive ClauseText : ColumnModifier → List Token → Prop where
  | intro {modifier : ColumnModifier} {label tokens : List Token} :
      LabelText label → ModifierText modifier tokens → ClauseText modifier (label ++ tokens)

/-! ## What the modifiers say -/

/-- The column with a modifier. -/
def ColumnModifier.apply (column : ColumnDefinition) : ColumnModifier → ColumnDefinition
  | .identity => { column with isIdentity := true }
  | .notNull => { column with nullability := some false }
  | .null => { column with nullability := column.nullability.or (some true) }
  | .primaryKey => { column with isPrimaryKey := true }
  | .reference target => { column with references := some target }
  | _ => column

/-- The column that is referred to by a modifier. -/
def ColumnModifier.target? : ColumnModifier → Option ColumnReference
  | .reference target => some target
  | _ => none

/-- The nullability that modifiers say: `NOT NULL` counts more than `NULL`. -/
def nullabilityOf (modifiers : List ColumnModifier) : Option Bool :=
  if .notNull ∈ modifiers then some false
  else if .null ∈ modifiers then some true
  else none

/-- The column that a name, a type and modifiers describe. -/
def described (name : String) (type : DeclaredType) (modifiers : List ColumnModifier) :
    ColumnDefinition where
  name := name
  type := some type
  nullability := nullabilityOf modifiers
  isIdentity := decide (.identity ∈ modifiers)
  isPrimaryKey := decide (.primaryKey ∈ modifiers)
  references := (modifiers.filterMap ColumnModifier.target?).getLast?

theorem nullabilityOf_append (modifiers : List ColumnModifier) :
    nullabilityOf (modifiers ++ [.null]) = (nullabilityOf modifiers).or (some true) := by
  unfold nullabilityOf
  by_cases hnot : ColumnModifier.notNull ∈ modifiers
  · simp [hnot]
  · by_cases hnull : ColumnModifier.null ∈ modifiers <;> simp [hnot, hnull]

theorem described_append (name : String) (type : DeclaredType) (modifiers : List ColumnModifier)
    (modifier : ColumnModifier) :
    described name type (modifiers ++ [modifier]) =
      modifier.apply (described name type modifiers) := by
  cases modifier with
  | null =>
    simp [described, nullabilityOf_append, ColumnModifier.apply, ColumnModifier.target?,
      List.filterMap_append]
  | _ =>
    simp [described, nullabilityOf, ColumnModifier.apply, ColumnModifier.target?,
      List.filterMap_append]

theorem described_eq_foldl (name : String) (type : DeclaredType) (modifiers : List ColumnModifier) :
    described name type modifiers =
      modifiers.foldl ColumnModifier.apply { name, type := some type } := by
  induction modifiers using List.reverseRecOn with
  | nil => rfl
  | append_singleton modifiers modifier ih =>
    rw [described_append, List.foldl_append, ih]
    rfl

end SchemaPlan.Definition
