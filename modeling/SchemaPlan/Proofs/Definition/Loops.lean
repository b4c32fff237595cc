import SchemaPlan.Definition.Procedure
import SchemaPlan.Proofs.Definition.Phrases
import SchemaPlan.Proofs.Definition.Progress

/-!
# The loops of a definition

A definition is read in loops: over the parts of a name, the entries of a list, the modifiers of a column,
the parameters and options of a procedure. None of them counts its rounds. Each round that is followed by
another one takes a token, be it of a separator or of what the round is about.

* `nameRound`, `listRound`, `sizeRound`, `modifierRound`, `defaultRound`, `propertyRound`,
  `parameterRound`, `optionRound`, `attributeRound`, `constraintRound`: the rounds, each with a lemma for
  the loop that consists of them and one for its progress.
* `LoopsEnd`, `loopsEnd`: each loop comes to what the reading of its definition gives.
-/

namespace SchemaPlan.Sql.Reading

/-! ## Names -/

/-- A part of a dotted name with the period in front of it. -/
def nameRound : Loop Unit (List String) := fun _ => do
  let checkpoint ← position
  skipBlanks
  if !(← sees (·.isMark .period)) then
    moveTo checkpoint
    return .stop []
  advance
  skipBlanks
  match ← attempt identifier with
  | some part => return .again () (part :: ·)
  | none =>
    if ← sees (·.isMark .period) then return .again () ("" :: ·)
    failure

theorem nameParts_eq_upTo (fuel : Nat) :
    nameParts fuel = nameRound.upTo (fun _ => return []) fuel () := by
  induction fuel with
  | zero => rfl
  | succ fuel ih =>
    rw [nameParts, Loop.upTo, nameRound]
    simp only [bind_assoc, ite_bind, pure_bind, ih]
    refine bind_congr fun _ => bind_congr fun _ => bind_congr fun _ => ?_
    split
    · rfl
    · refine bind_congr fun _ => bind_congr fun _ => bind_congr fun part => ?_
      cases part with
      | some part => rfl
      | none => simp only [bind_assoc, ite_bind, pure_bind, failure_bind]

/-- A round that ends the name moves back over the blanks; any other has taken a period. -/
theorem proceeds_nameRound (state : Unit) : Proceeds Round.GoesOn (nameRound state) := by
  intro c hc
  have hblanks := Cursor.precedes_skipBlanks hc
  rw [nameRound, lands_position_bind, lands_skipBlanks_bind, lands_sees_bind]
  cases hperiod : c.skipBlanks.sees (·.isMark .period) with
  | false =>
    rw [Bool.not_false, if_pos rfl, lands_moveTo_bind, hblanks.moveTo_pos]
    exact Lands.pure hc.precedes False.elim
  | true =>
    rw [Bool.not_true, if_neg nofun, lands_advance_bind]
    -- Behind the period it does not matter how much of a part follows.
    have htaken := Nat.lt_of_le_of_lt hblanks.pos_le (Cursor.pos_lt_advance hperiod)
    refine MovesOn.lands_of_lt ?_ (hblanks.trans (Cursor.precedes_advance hblanks.inBounds)) htaken
    refine movesOn_skipBlanks.bind fun _ => (movesOn_attempt movesOn_identifier).bind fun part => ?_
    cases part with
    | some part => exact movesOn_pure _
    | none => exact (movesOn_sees _).bind fun _ => (movesOn_pure _).ite proceeds_failure

@[grind ←]
theorem movesOn_nameParts (fuel : Nat) : MovesOn (nameParts fuel) := by
  rw [nameParts_eq_upTo]
  exact Loop.movesOn_upTo (fun state => (proceeds_nameRound state).movesOn) (fun _ => movesOn_pure [])
    fuel ()

/-- At the end of the tokens no part of a name follows. -/
theorem comesTo_nameRound_end {state : Unit} {d : Cursor} (hd : d.InBounds) (hleft : d.left = 0) :
    nameRound.ComesTo state d (some [], d) := by
  have hrest : d.rest = [] := List.length_eq_zero_iff.mp (d.left_eq ▸ hleft)
  have hnone : d.skipBlanks.sees (·.isMark .period) = false := by
    rw [Cursor.sees_eq, Cursor.rest_skipBlanks, hrest]
    rfl
  refine .stops ?_
  rw [nameRound, gives_position_bind, gives_skipBlanks_bind, gives_sees_bind, hnone,
    Bool.not_false, if_pos rfl, gives_moveTo_bind, (Cursor.precedes_skipBlanks hd).moveTo_pos]
  exact gives_pure.mpr ⟨rfl, rfl⟩

theorem takesToken_qualifiedName : TakesToken qualifiedName := by
  unfold qualifiedName
  refine takesToken_identifier.bind fun first => ?_
  refine movesOn_get.bind fun c => (movesOn_nameParts _).bind fun more => ?_
  split
  · exact movesOn_pure _
  · exact proceeds_failure

@[grind ←]
theorem movesOn_qualifiedName : MovesOn qualifiedName := takesToken_qualifiedName.movesOn

/-! ## Lists of names -/

/-- A name of a list with its direction and the comma behind it. -/
def listRound : Loop Unit (List String) := fun _ => do
  skipBlanks
  if ← accepts (·.isMark .closeParen) then return .stop []
  let name ← identifier
  skipBlanks
  if (← sees (·.isKeyword "ASC")) || (← sees (·.isKeyword "DESC")) then
    advance
    skipBlanks
  if !(← accepts (·.isMark .comma)) && !(← sees (·.isMark .closeParen)) then failure
  return .again () (name :: ·)

theorem listedNames_eq_upTo (fuel : Nat) :
    listedNames fuel = listRound.upTo (fun _ => failure) fuel () := by
  induction fuel with
  | zero => rfl
  | succ fuel ih =>
    rw [listedNames, Loop.upTo, listRound]
    simp only [bind_assoc, ite_bind, pure_bind, failure_bind, ih]

theorem proceeds_listRound (state : Unit) : Proceeds Round.GoesOn (listRound state) := by
  unfold listRound
  refine movesOn_skipBlanks.bind fun _ => proceeds_accepts_bind (movesOn_pure _) ?_
  -- The name takes a token, so what stands behind it only must not move back.
  refine takesToken_identifier.bind fun name => ?_
  repeat' first
    | with_reducible refine MovesOn.bind ?_ fun _ => ?_
    | split
  all_goals grind

@[grind ←]
theorem movesOn_listedNames (fuel : Nat) : MovesOn (listedNames fuel) := by
  rw [listedNames_eq_upTo]
  exact Loop.movesOn_upTo (fun state => (proceeds_listRound state).movesOn) (fun _ => proceeds_failure)
    fuel ()

theorem takesToken_identifierList : TakesToken identifierList :=
  (takesToken_expect _).bind fun _ => movesOn_get.bind fun _ => movesOn_listedNames _

@[grind ←]
theorem movesOn_identifierList : MovesOn identifierList := takesToken_identifierList.movesOn

/-! ## Types -/

/-- A size of a type with the comma behind it. -/
def sizeRound : Loop Unit (List TypeSize) := fun _ => do
  skipBlanks
  let size ← sizeOf (← get).current?
  advance
  skipBlanks
  if ← accepts (·.isMark .closeParen) then return .stop [size]
  expect (·.isMark .comma)
  return .again () (size :: ·)

theorem typeSizes_eq_upTo (fuel : Nat) :
    typeSizes fuel = sizeRound.upTo (fun _ => failure) fuel () := by
  induction fuel with
  | zero => rfl
  | succ fuel ih =>
    rw [typeSizes_succ, Loop.upTo, sizeRound]
    simp only [bind_assoc, ite_bind, pure_bind, ih]

theorem movesOn_sizeOf (token : Option Token) : MovesOn (sizeOf token) := by
  unfold sizeOf
  repeat' split
  all_goals grind

theorem proceeds_sizeRound (state : Unit) : Proceeds Round.GoesOn (sizeRound state) := by
  unfold sizeRound
  refine movesOn_skipBlanks.bind fun _ => movesOn_get.bind fun c => ?_
  refine (movesOn_sizeOf _).bind fun size => movesOn_advance.bind fun _ => ?_
  refine movesOn_skipBlanks.bind fun _ => proceeds_accepts_bind (movesOn_pure _) ?_
  exact (takesToken_expect _).bind fun _ => movesOn_pure _

theorem movesOn_typeSizes (fuel : Nat) : MovesOn (typeSizes fuel) := by
  rw [typeSizes_eq_upTo]
  exact Loop.movesOn_upTo (fun state => (proceeds_sizeRound state).movesOn) (fun _ => proceeds_failure)
    fuel ()

theorem takesToken_declaredType : TakesToken declaredType := by
  unfold declaredType
  refine takesToken_qualifiedName.bind fun name => ?_
  intro c hc
  have hblanks := Cursor.precedes_skipBlanks hc
  rw [lands_position_bind, lands_skipBlanks_bind]
  refine ((movesOn_accepts _).lands hblanks).bind fun found d _ hd _ => ?_
  cases found with
  | true =>
    exact Proceeds.lands (movesOn_get.bind fun _ => (movesOn_typeSizes _).bind fun _ => movesOn_pure _) hd
  | false =>
    -- Without sizes the blanks behind the name are left as well.
    rw [if_neg nofun, lands_moveTo_bind, hd.moveTo_pos]
    exact Lands.pure hc.precedes False.elim

@[grind ←]
theorem movesOn_declaredType : MovesOn declaredType := takesToken_declaredType.movesOn

theorem takesToken_wholeNumber : TakesToken wholeNumber := by
  intro c hc
  rw [wholeNumber, lands_get_bind]
  split
  · rename_i digits long hcurrent
    have hsees : c.sees (fun _ => true) = true := by rw [Cursor.sees, hcurrent]; rfl
    split
    · exact (movesOn_pure _).lands_of_lt (Cursor.precedes_advance hc) (Cursor.pos_lt_advance hsees)
    · exact Lands.failure hc.precedes
  · exact Lands.failure hc.precedes

end SchemaPlan.Sql.Reading

namespace SchemaPlan.Definition

open SchemaPlan.Sql SchemaPlan.Sql.Reading

/-! ## Columns -/

/-- A modifier of a column, or a word that is none. -/
def modifierRound : Loop ColumnDefinition ColumnDefinition := fun column => do
  skipBlanks
  match (← get).current? with
  | none => return .stop column
  | some token =>
    match columnModifiers.find? token.isKeyword with
    | some word =>
      advance
      let column ← columnModifier column word
      return .again column id
    | none =>
      if token.isWord then
        advance
        return .again column id
      else return .stop column

theorem withModifiers_eq_upTo (fuel : Nat) (column : ColumnDefinition) :
    withModifiers fuel column = modifierRound.upTo pure fuel column := by
  induction fuel generalizing column with
  | zero => rfl
  | succ fuel ih =>
    rw [withModifiers, Loop.upTo, modifierRound]
    simp only [bind_assoc, ih]
    refine bind_congr fun _ => bind_congr fun c => ?_
    rcases c.current? with _ | token
    · rfl
    · dsimp only
      cases columnModifiers.find? token.isKeyword with
      | some word => simp only [bind_assoc, pure_bind, id, bind_pure]
      | none => simp only [bind_assoc, ite_bind, pure_bind, id, bind_pure]

@[grind ←]
theorem movesOn_skipArguments : MovesOn skipArguments := movesOn_skipBlanks.bind fun _ => movesOn_skipGroup

@[grind ←]
theorem movesOn_skipClustering : MovesOn skipClustering := by
  unfold skipClustering
  repeat' first
    | with_reducible refine MovesOn.bind ?_ fun _ => ?_
    | split
  all_goals grind

@[grind ←]
theorem movesOn_skipDefaultValue : MovesOn skipDefaultValue := by
  unfold skipDefaultValue
  repeat' first
    | with_reducible refine MovesOn.bind ?_ fun _ => ?_
    | split
  all_goals grind

@[grind ←]
theorem movesOn_skipReferentialAction : MovesOn skipReferentialAction := by
  unfold skipReferentialAction
  repeat' first
    | with_reducible refine MovesOn.bind ?_ fun _ => ?_
    | split
  all_goals grind

@[grind ←]
theorem movesOn_referencedColumns : MovesOn referencedColumns := by
  unfold referencedColumns
  repeat' first
    | with_reducible refine MovesOn.bind ?_ fun _ => ?_
    | split
  all_goals grind

theorem movesOn_columnModifier (column : ColumnDefinition) (word : String) :
    MovesOn (columnModifier column word) := by
  unfold columnModifier
  repeat' first
    | with_reducible refine MovesOn.bind ?_ fun _ => ?_
    | split
  all_goals grind

/-- What a modifier is about may be missing, but its word has been taken. -/
theorem proceeds_modifierRound (column : ColumnDefinition) :
    Proceeds Round.GoesOn (modifierRound column) := by
  intro c hc
  have hblanks := Cursor.precedes_skipBlanks hc
  rw [modifierRound, lands_skipBlanks_bind, lands_get_bind]
  cases hcurrent : c.skipBlanks.current? with
  | none => exact Lands.pure hblanks False.elim
  | some token =>
    have hsees : c.skipBlanks.sees (fun _ => true) = true := by rw [Cursor.sees, hcurrent]; rfl
    have hword := Nat.lt_of_le_of_lt hblanks.pos_le (Cursor.pos_lt_advance hsees)
    have hnext := hblanks.trans (Cursor.precedes_advance hblanks.inBounds)
    dsimp only
    cases columnModifiers.find? token.isKeyword with
    | some word =>
      dsimp only
      rw [lands_advance_bind]
      refine MovesOn.lands_of_lt ?_ hnext hword
      exact (movesOn_columnModifier column word).bind fun column => movesOn_pure _
    | none =>
      dsimp only
      split
      · exact (movesOn_pure _).lands_of_lt hnext hword
      · exact Lands.pure hblanks False.elim

/-! ## Parameters -/

/-- A token or a group of a default value. -/
def defaultRound : Loop Unit Unit := fun _ => do
  match (← get).current? with
  | none => return .stop ()
  | some token =>
    if endsDefault token then return .stop ()
    else if token.isMark .openParen then
      skipGroup
      return .again () id
    else
      advance
      return .again () id

theorem skipDefault_eq_upTo (fuel : Nat) : skipDefault fuel = defaultRound.upTo pure fuel () := by
  induction fuel with
  | zero => rfl
  | succ fuel ih =>
    rw [skipDefault, Loop.upTo, defaultRound]
    simp only [bind_assoc, ih]
    refine bind_congr fun c => ?_
    rcases c.current? with _ | token
    · rfl
    · simp only [bind_assoc, ite_bind, pure_bind, id, bind_pure]

theorem proceeds_defaultRound (state : Unit) : Proceeds Round.GoesOn (defaultRound state) := by
  intro c hc
  rw [defaultRound, lands_get_bind]
  cases hcurrent : c.current? with
  | none => exact Lands.pure hc.precedes False.elim
  | some token =>
    have hsees (p : Token → Bool) (hp : p token = true) : c.sees p = true := by
      rw [Cursor.sees, hcurrent, Option.any_some, hp]
    dsimp only
    split
    · exact Lands.pure hc.precedes False.elim
    · split
      · rename_i hopen
        exact (movesOn_pure _).lands_of_lt (Cursor.precedes_skipGroup hc)
          (Cursor.pos_lt_skipGroup (hsees _ hopen))
      · exact (movesOn_pure _).lands_of_lt (Cursor.precedes_advance hc)
          (Cursor.pos_lt_advance (hsees (fun _ => true) rfl))

@[grind ←]
theorem movesOn_skipDefault (fuel : Nat) : MovesOn (skipDefault fuel) := by
  rw [skipDefault_eq_upTo]
  exact Loop.movesOn_upTo (fun state => (proceeds_defaultRound state).movesOn) movesOn_pure fuel ()

/-- At the end of the tokens a default value ends. -/
theorem comesTo_defaultRound_end {state : Unit} {d : Cursor} (hleft : d.left = 0) :
    defaultRound.ComesTo state d (some (), d) := by
  have hrest : d.rest = [] := List.length_eq_zero_iff.mp (d.left_eq ▸ hleft)
  refine .stops ?_
  rw [defaultRound, gives_get_bind, Cursor.current?_eq, hrest]
  exact gives_pure.mpr ⟨rfl, rfl⟩

@[grind ←]
theorem movesOn_defaultValue : MovesOn defaultValue := by
  unfold defaultValue
  repeat' first
    | with_reducible refine MovesOn.bind ?_ fun _ => ?_
    | split
  all_goals grind

/-- A property of a parameter. -/
def propertyRound : Loop ParameterDefinition ParameterDefinition := fun parameter => do
  skipBlanks
  if ← accepts (·.isMark .equal) then
    skipBlanks
    return .again { parameter with defaultValue := ← defaultValue } id
  else if ← accepts (·.isBareWord "READONLY") then
    return .again { parameter with isReadonly := true } id
  else if ← accepts fun token => token.isBareWord "OUTPUT" || token.isBareWord "OUT" then
    return .again { parameter with isOutput := true } id
  else if ← accepts fun token => token.isBareWord "VARYING" || token.isKeyword "NULL" then
    return .again parameter id
  else if ← accepts (·.isKeyword "NOT") then
    skipBlanks
    expect (·.isKeyword "NULL")
    return .again parameter id
  else return .stop parameter

theorem withProperties_eq_upTo (fuel : Nat) (parameter : ParameterDefinition) :
    withProperties fuel parameter = propertyRound.upTo pure fuel parameter := by
  induction fuel generalizing parameter with
  | zero => rfl
  | succ fuel ih =>
    rw [withProperties, Loop.upTo, propertyRound]
    simp only [bind_assoc, ite_bind, pure_bind, id, bind_pure, ih]

/-- Each property takes its first word, or the sign in front of a default value. -/
theorem proceeds_propertyRound (parameter : ParameterDefinition) :
    Proceeds Round.GoesOn (propertyRound parameter) := by
  unfold propertyRound
  refine movesOn_skipBlanks.bind fun _ => proceeds_accepts_bind ?_ ?_
  · exact movesOn_skipBlanks.bind fun _ => movesOn_defaultValue.bind fun _ => movesOn_pure _
  refine proceeds_accepts_bind (movesOn_pure _) (proceeds_accepts_bind (movesOn_pure _) ?_)
  refine proceeds_accepts_bind (movesOn_pure _) (proceeds_accepts_bind ?_ (proceeds_pure id))
  exact movesOn_skipBlanks.bind fun _ => (movesOn_expect _).bind fun _ => movesOn_pure _

@[grind ←]
theorem movesOn_withProperties (fuel : Nat) (parameter : ParameterDefinition) :
    MovesOn (withProperties fuel parameter) := by
  rw [withProperties_eq_upTo]
  exact Loop.movesOn_upTo (fun state => (proceeds_propertyRound state).movesOn) movesOn_pure
    fuel parameter

theorem takesToken_parameter : TakesToken parameter := by
  unfold parameter
  refine takesToken_identifier.bind fun name => ?_
  repeat' first
    | with_reducible refine MovesOn.bind ?_ fun _ => ?_
    | split
  all_goals grind

/-- A parameter with the comma behind it. -/
def parameterRound : Loop Unit (List ParameterDefinition) := fun _ => do
  skipBlanks
  if !(← sees isVariableWord) then return .stop []
  let first ← parameter
  skipBlanks
  if ← accepts (·.isMark .comma) then return .again () (first :: ·)
  else return .stop [first]

theorem parameters_eq_upTo (fuel : Nat) :
    parameters fuel = parameterRound.upTo (fun _ => return []) fuel () := by
  induction fuel with
  | zero => rfl
  | succ fuel ih =>
    rw [parameters, Loop.upTo, parameterRound]
    simp only [bind_assoc, ite_bind, pure_bind, ih]

theorem proceeds_parameterRound (state : Unit) : Proceeds Round.GoesOn (parameterRound state) := by
  unfold parameterRound
  refine movesOn_skipBlanks.bind fun _ => (movesOn_sees _).bind fun found => ?_
  refine Proceeds.ite (proceeds_pure id) (takesToken_parameter.bind fun first => ?_)
  refine movesOn_skipBlanks.bind fun _ => (movesOn_accepts _).bind fun comma => ?_
  exact (movesOn_pure _).ite (movesOn_pure _)

/-! ## Options, attributes and constraints -/

/-- An option of a procedure with the comma behind it. -/
def optionRound : Loop Unit Unit := fun _ => do
  skipBlanks
  if ← accepts fun token => token.isBareWord "EXECUTE" || token.isBareWord "EXEC" then
    skipBlanks
    expect (·.isKeyword "AS")
    skipBlanks
    advance
  else discard identifier
  skipBlanks
  if ← accepts (·.isMark .comma) then return .again () id
  else return .stop ()

theorem procedureOptions_eq_upTo (fuel : Nat) :
    procedureOptions fuel = optionRound.upTo (fun _ => failure) fuel () := by
  induction fuel with
  | zero => rfl
  | succ fuel ih =>
    rw [procedureOptions, Loop.upTo, optionRound]
    simp only [bind_assoc, ite_bind, pure_bind, id, bind_pure, ih]

/-- Where another entry follows, the comma in front of it is taken. -/
theorem proceeds_comma {σ α : Type} {state : σ} {finish : α → α} {value : α} :
    Proceeds Round.GoesOn (do
      skipBlanks
      if ← accepts (·.isMark .comma) then return .again state finish
      else return .stop value : Reading (Round σ α)) :=
  movesOn_skipBlanks.bind fun _ => proceeds_accepts_bind (movesOn_pure _) (proceeds_pure id)

theorem proceeds_optionRound (state : Unit) : Proceeds Round.GoesOn (optionRound state) := by
  unfold optionRound
  refine movesOn_skipBlanks.bind fun _ => (movesOn_accepts _).bind fun execute => ?_
  refine Proceeds.ite ?_ ((movesOn_discard movesOn_identifier).bind fun _ => proceeds_comma)
  refine movesOn_skipBlanks.bind fun _ => (movesOn_expect _).bind fun _ => ?_
  exact movesOn_skipBlanks.bind fun _ => movesOn_advance.bind fun _ => proceeds_comma

/-- An attribute of a view with the comma behind it. -/
def attributeRound : Loop Unit Unit := fun _ => do
  skipBlanks
  discard identifier
  skipBlanks
  if ← accepts (·.isMark .comma) then return .again () id
  else return .stop ()

theorem viewAttributes_eq_upTo (fuel : Nat) :
    viewAttributes fuel = attributeRound.upTo (fun _ => failure) fuel () := by
  induction fuel with
  | zero => rfl
  | succ fuel ih =>
    rw [viewAttributes, Loop.upTo, attributeRound]
    simp only [bind_assoc, ite_bind, pure_bind, id, bind_pure, ih]

theorem proceeds_attributeRound (state : Unit) : Proceeds Round.GoesOn (attributeRound state) :=
  movesOn_skipBlanks.bind fun _ => (movesOn_discard movesOn_identifier).bind fun _ => proceeds_comma

/-- A constraint with the comma behind it. -/
def constraintRound : Loop Unit (List ConstraintDefinition) := fun _ => do
  let first ← constraint
  skipBlanks
  if ← accepts (·.isMark .comma) then return .again () (first :: ·)
  else return .stop [first]

theorem constraints_eq_upTo (fuel : Nat) :
    constraints fuel = constraintRound.upTo (fun _ => failure) fuel () := by
  induction fuel with
  | zero => rfl
  | succ fuel ih =>
    rw [constraints, Loop.upTo, constraintRound]
    simp only [bind_assoc, ite_bind, pure_bind, ih]

@[grind ←]
theorem movesOn_keyColumns : MovesOn keyColumns := by
  unfold keyColumns
  repeat' first
    | with_reducible refine MovesOn.bind ?_ fun _ => ?_
    | split
  all_goals grind

@[grind ←]
theorem movesOn_foreignColumns : MovesOn foreignColumns := by
  unfold foreignColumns
  repeat' first
    | with_reducible refine MovesOn.bind ?_ fun _ => ?_
    | split
  all_goals grind

@[grind ←]
theorem movesOn_constraintName : MovesOn constraintName := by
  unfold constraintName
  repeat' first
    | with_reducible refine MovesOn.bind ?_ fun _ => ?_
    | split
  all_goals grind

theorem movesOn_constraint : MovesOn constraint := by
  unfold constraint
  repeat' first
    | with_reducible refine MovesOn.bind ?_ fun _ => ?_
    | split
  all_goals grind

theorem proceeds_constraintRound (state : Unit) : Proceeds Round.GoesOn (constraintRound state) :=
  movesOn_constraint.bind fun _ => proceeds_comma

/-! ## All loops -/

/-- From a cursor on, each loop comes to one result, whatever state it starts in: to what is read of the
definition with as many rounds as there are tokens left, or one more. -/
structure LoopsEnd (c : Cursor) : Prop where
  names : ∀ result, nameRound.ComesTo () c result ↔ result = OptionT.run (nameParts c.left) c
  lists : ∀ result,
    listRound.ComesTo () c result ↔ result = OptionT.run (listedNames (c.left + 1)) c
  sizes : ∀ result, sizeRound.ComesTo () c result ↔ result = OptionT.run (typeSizes (c.left + 1)) c
  modifiers : ∀ column result,
    modifierRound.ComesTo column c result ↔ result = OptionT.run (withModifiers (c.left + 1) column) c
  defaults : ∀ result, defaultRound.ComesTo () c result ↔ result = OptionT.run (skipDefault c.left) c
  properties : ∀ parameter result,
    propertyRound.ComesTo parameter c result ↔
      result = OptionT.run (withProperties (c.left + 1) parameter) c
  parameters : ∀ result,
    parameterRound.ComesTo () c result ↔ result = OptionT.run (parameters (c.left + 1)) c
  options : ∀ result,
    optionRound.ComesTo () c result ↔ result = OptionT.run (procedureOptions (c.left + 1)) c
  attributes : ∀ result,
    attributeRound.ComesTo () c result ↔ result = OptionT.run (viewAttributes (c.left + 1)) c
  constraints : ∀ result,
    constraintRound.ComesTo () c result ↔ result = OptionT.run (constraints (c.left + 1)) c

/-- Every loop ends, wherever it starts. -/
theorem loopsEnd {c : Cursor} (hc : c.InBounds) : LoopsEnd c where
  -- The two loops given only as many rounds as tokens are left end at the last token as well; all
  -- others have one round to spare.
  names result := by
    rw [nameParts_eq_upTo]
    exact Loop.comesTo_iff_eq proceeds_nameRound hc
      (.inr ⟨Nat.le_refl _, fun _ _ => comesTo_nameRound_end⟩)
  lists result := by
    rw [listedNames_eq_upTo]
    exact Loop.comesTo_iff_eq proceeds_listRound hc (.inl (Nat.lt_succ_self _))
  sizes result := by
    rw [typeSizes_eq_upTo]
    exact Loop.comesTo_iff_eq proceeds_sizeRound hc (.inl (Nat.lt_succ_self _))
  modifiers column result := by
    rw [withModifiers_eq_upTo]
    exact Loop.comesTo_iff_eq proceeds_modifierRound hc (.inl (Nat.lt_succ_self _))
  defaults result := by
    rw [skipDefault_eq_upTo]
    exact Loop.comesTo_iff_eq proceeds_defaultRound hc
      (.inr ⟨Nat.le_refl _, fun _ _ _ => comesTo_defaultRound_end⟩)
  properties parameter result := by
    rw [withProperties_eq_upTo]
    exact Loop.comesTo_iff_eq proceeds_propertyRound hc (.inl (Nat.lt_succ_self _))
  parameters result := by
    rw [parameters_eq_upTo]
    exact Loop.comesTo_iff_eq proceeds_parameterRound hc (.inl (Nat.lt_succ_self _))
  options result := by
    rw [procedureOptions_eq_upTo]
    exact Loop.comesTo_iff_eq proceeds_optionRound hc (.inl (Nat.lt_succ_self _))
  attributes result := by
    rw [viewAttributes_eq_upTo]
    exact Loop.comesTo_iff_eq proceeds_attributeRound hc (.inl (Nat.lt_succ_self _))
  constraints result := by
    rw [constraints_eq_upTo]
    exact Loop.comesTo_iff_eq proceeds_constraintRound hc (.inl (Nat.lt_succ_self _))

end SchemaPlan.Definition
