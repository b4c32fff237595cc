import SchemaPlan.Plan.Procedure

/-!
# Directions of parameters

Whether a parameter gives a value back is told in many places of a plan: by the word `out` in each of
the parameter lists, by how the parameter is bound, by the assignments behind the command and by who
sets its property. A parameter that holds a table gives nothing back for some of these places, and for
others it does if it is declared so. They agree exactly if no such parameter is.

* `isListed_iff`: which parameters a list passes with `out`.
* `directions_agree_iff`: when all places agree.
-/

namespace SchemaPlan

/-! ## Entries -/

namespace MethodParameter

/-- What `out` stands in front of where a parameter is passed with it. -/
def target (parameter : MethodParameter) : ParameterStyle → String
  | .declaration => parameter.hostType ++ " " ++ parameter.name
  | .genericDeclaration => parameter.genericType ++ " " ++ parameter.name
  | .cast => "(" ++ parameter.hostType ++ ")" ++ parameter.name
  | .genericCast => "(" ++ parameter.genericType ++ ")" ++ parameter.name
  | .names => parameter.name
  | .inputObject | .objectArray => parameter.name ++ "Output"

/-- The entry of a parameter that is passed without `out`; from an array it takes the `slot`-th item. -/
def plainEntry (parameter : MethodParameter) (slot : Nat) : ParameterStyle → String
  | .inputObject => "input." ++ parameter.name
  | .objectArray => "(" ++ parameter.genericType ++ ")parameters[" ++ toString slot ++ "]"
  | style => parameter.target style

/-- The entries of parameters that are passed with `out` or without it. Those without it take the items
of an array one after another, from the `slot`-th on. -/
def directedEntries (style : ParameterStyle) (slot : Nat) : List (MethodParameter × Bool) → List String
  | [] => []
  | (parameter, true) :: rest => ("out " ++ parameter.target style) :: directedEntries style slot rest
  | (parameter, false) :: rest =>
    parameter.plainEntry slot style :: directedEntries style (slot + 1) rest

/-- A list has one entry for each parameter in order, passed with `out` where `outs` says so. -/
structure IsListed (parameters : List MethodParameter) (style : ParameterStyle) (outs : List Bool) :
    Prop where
  length : outs.length = parameters.length
  entries : entries parameters style = directedEntries style 0 (parameters.zip outs)

/-- Whether a parameter is passed with `out` in a style. -/
def isOutIn (style : ParameterStyle) (parameter : MethodParameter) : Bool :=
  match style with
  | .inputObject | .objectArray => parameter.isOutput
  | _ => parameter.isOutput && !parameter.holdsTable

section Entries

variable {parameter : MethodParameter} {parameters : List MethodParameter} {style : ParameterStyle}

/-- An entry shows whether it is passed with `out`. -/
theorem out_ne_plainEntry (parameter : MethodParameter) (slot : Nat) (style : ParameterStyle) :
    "out " ++ parameter.target style ≠ parameter.plainEntry slot style := by
  intro h
  have hchars := congrArg String.toList h
  cases style with
  | inputObject => simp [plainEntry, target] at hchars
  | objectArray => simp [plainEntry, target] at hchars
  | _ =>
    -- The entry would be longer than itself.
    have hlength := congrArg List.length hchars
    simp only [plainEntry, String.toList_append, List.length_append] at hlength
    exact absurd hlength (by simp)

/-- Entries that are equal are passed in the same directions. -/
theorem directedEntries_inj {outs outs' : List Bool} {slot slot' : Nat}
    (hlength : outs.length = parameters.length) (hlength' : outs'.length = parameters.length)
    (h : directedEntries style slot (parameters.zip outs) =
      directedEntries style slot' (parameters.zip outs')) : outs = outs' := by
  induction parameters generalizing outs outs' slot slot' with
  | nil =>
    rw [List.length_eq_zero_iff.mp hlength, List.length_eq_zero_iff.mp hlength']
  | cons parameter rest ih =>
    obtain ⟨out, outs, rfl⟩ := List.exists_cons_of_length_eq_add_one hlength
    obtain ⟨out', outs', rfl⟩ := List.exists_cons_of_length_eq_add_one hlength'
    simp only [List.length_cons, Nat.add_right_cancel_iff] at hlength hlength'
    simp only [List.zip_cons_cons] at h
    cases out <;> cases out' <;> simp only [directedEntries, List.cons.injEq] at h
    · rw [ih hlength hlength' h.2]
    · exact absurd h.1.symm (out_ne_plainEntry _ _ _)
    · exact absurd h.1 (out_ne_plainEntry _ _ _)
    · rw [ih hlength hlength' h.2]

theorem arrayEntries_eq (slot : Nat) (parameters : List MethodParameter) :
    arrayEntries slot parameters =
      directedEntries .objectArray slot (parameters.map fun p => (p, p.isOutput)) := by
  induction parameters generalizing slot with
  | nil => rfl
  | cons parameter rest ih =>
    cases hout : parameter.isOutput with
    | true => simp [arrayEntries, directedEntries, hout, ih, outputVariable, target, String.append_assoc]
    | false => simp [arrayEntries, directedEntries, hout, ih, plainEntry]

/-- Outside of arrays the entry of a parameter does not depend on those before it. -/
theorem directedEntries_of_ne_objectArray (hstyle : style ≠ .objectArray) (slot : Nat)
    (directed : List (MethodParameter × Bool)) :
    directedEntries style slot directed = directed.map fun (parameter, out) =>
      if out then "out " ++ parameter.target style else parameter.plainEntry 0 style := by
  induction directed generalizing slot with
  | nil => rfl
  | cons first rest ih =>
    obtain ⟨parameter, out⟩ := first
    cases out with
    | true => simp [directedEntries, ih]
    | false =>
      rw [directedEntries, ih, List.map_cons]
      cases style <;> first | rfl | exact absurd rfl hstyle

theorem direction_append (parameter : MethodParameter) (text : String) :
    parameter.direction ++ text =
      if parameter.isOutput && !parameter.holdsTable then "out " ++ text else text := by
  unfold direction
  split
  · rfl
  · exact String.empty_append

theorem entries_eq (parameters : List MethodParameter) (style : ParameterStyle) :
    entries parameters style =
      directedEntries style 0 (parameters.map fun p => (p, p.isOutIn style)) := by
  by_cases hstyle : style = .objectArray
  · subst hstyle
    exact arrayEntries_eq 0 parameters
  · rw [directedEntries_of_ne_objectArray hstyle, List.map_map]
    cases style with
    | objectArray => exact absurd rfl hstyle
    | inputObject =>
      apply List.map_congr_left
      intro p _
      simp [isOutIn, outputVariable, target, plainEntry, String.append_assoc]
    | _ =>
      apply List.map_congr_left
      intro p _
      simp only [String.append_assoc, Function.comp, isOutIn, target, plainEntry]
      exact direction_append p _

/-- A list passes exactly these parameters with `out`. -/
theorem isListed_iff {outs : List Bool} :
    IsListed parameters style outs ↔ outs = parameters.map (isOutIn style) := by
  have hself : IsListed parameters style (parameters.map (isOutIn style)) :=
    ⟨List.length_map _, by rw [entries_eq, List.map_prod_left_eq_zip]⟩
  constructor
  · intro h
    exact directedEntries_inj h.length hself.length (h.entries.symm.trans hself.entries)
  · rintro rfl
    exact hself

end Entries

end MethodParameter

/-! ## Places -/

/-- A place of a plan that tells which parameters give a value back. -/
inductive DirectionPlace where
  /-- The word `out` in a parameter list. -/
  | list (style : ParameterStyle)
  /-- The bindings of the command. -/
  | binding
  /-- The assignments behind the command. -/
  | assignment
  /-- The properties that the method sets. -/
  | setter
deriving Repr, DecidableEq

/-- Whether a binding gives a value back. -/
def Binding.isOutput : Binding → Bool
  | .output _ => true
  | _ => false

namespace CodePlan

/-- The properties that stand for the parameters. -/
def inputProperties (plan : CodePlan) : List ClassProperty :=
  plan.inputClass.elim [] (·.properties)

/-- A place tells of each parameter in order whether it gives a value back. -/
def Tells (plan : CodePlan) (outs : List Bool) : DirectionPlace → Prop
  | .list style => MethodParameter.IsListed plan.parameters style outs
  | .binding =>
    plan.bindings.map (·.name) = plan.parameters.map (·.name) ∧
      plan.bindings.map (·.binding.isOutput) = outs
  | .assignment =>
    outs.length = plan.parameters.length ∧
      plan.outputs = ((plan.parameters.zip outs).filter (·.2)).map fun (parameter, _) =>
        ⟨parameter.name, parameter.hostType⟩
  | .setter =>
    plan.inputProperties.map (·.name) = plan.parameters.map (·.name) ∧
      plan.inputProperties.map (·.isSetByMethod) = outs

end CodePlan

/-- Whether a parameter gives a value back as a place has it. -/
def DirectionPlace.isOut (parameter : Parameter) : DirectionPlace → Bool
  | .list .inputObject | .list .objectArray | .assignment | .setter => parameter.isOutput
  | .list _ | .binding => parameter.isOutput && parameter.shape?.isNone

namespace Procedure

variable (procedure : Procedure)

theorem isOutIn_methodParameter (style : ParameterStyle) (parameter : Parameter) :
    (procedure.methodParameter parameter).isOutIn style =
      (DirectionPlace.list style).isOut parameter := by
  cases style <;> simp [MethodParameter.isOutIn, DirectionPlace.isOut, methodParameter]

theorem isOutput_boundParameter (parameter : Parameter) :
    (procedure.boundParameter parameter).binding.isOutput =
      DirectionPlace.binding.isOut parameter := by
  unfold boundParameter DirectionPlace.isOut Parameter.shape?
  cases parameter.kind with
  | table shape => simp [Binding.isOutput]
  | scalar type => cases parameter.isOutput <;> rfl

theorem inputProperties_plan :
    procedure.plan.inputProperties = procedure.parameters.map fun parameter =>
      ⟨parameter.name, procedure.parameterType parameter, parameter.isOutput⟩ := by
  show (procedure.inputClass?.elim [] (·.properties)) = _
  unfold inputClass?
  cases procedure.parameters <;> rfl

/-- Each place tells of every parameter in order whether it gives a value back. -/
theorem tells (place : DirectionPlace) :
    procedure.plan.Tells (procedure.parameters.map place.isOut) place := by
  cases place with
  | list style =>
    apply MethodParameter.isListed_iff.mpr
    show _ = (procedure.parameters.map procedure.methodParameter).map _
    rw [List.map_map]
    exact List.map_congr_left fun p _ => (procedure.isOutIn_methodParameter style p).symm
  | binding =>
    show List.map _ (procedure.parameters.map _) = List.map _ (procedure.parameters.map _) ∧
      List.map _ (procedure.parameters.map _) = _
    rw [List.map_map, List.map_map, List.map_map]
    exact ⟨rfl, List.map_congr_left fun p _ => procedure.isOutput_boundParameter p⟩
  | assignment =>
    show List.length _ = List.length (procedure.parameters.map _) ∧ procedure.outputAssignments =
      (((procedure.parameters.map procedure.methodParameter).zip _).filter _).map _
    rw [List.length_map, List.length_map, List.zip_map', List.filter_map, List.map_map]
    exact ⟨rfl, rfl⟩
  | setter =>
    show List.map _ procedure.plan.inputProperties = List.map _ (procedure.parameters.map _) ∧
      List.map _ procedure.plan.inputProperties = _
    rw [inputProperties_plan, List.map_map, List.map_map, List.map_map]
    exact ⟨rfl, rfl⟩

end Procedure

/-- Every list has one entry for each parameter, the other places tell of each parameter too, and those
that are not passed with `out` take the items of the array one after another. All places agree exactly
if no parameter that holds a table is declared to give it back. -/
theorem directions_agree_iff (procedure : Procedure) :
    (∀ place, procedure.plan.Tells (procedure.parameters.map place.isOut) place) ∧
      (∀ style, procedure.plan.parameterList style =
        Text.joinWith ", " (MethodParameter.directedEntries style 0
          (procedure.plan.parameters.zip (procedure.parameters.map (DirectionPlace.list style).isOut)))) ∧
      ((∃ outs, ∀ place, procedure.plan.Tells outs place) ↔
        ∀ parameter ∈ procedure.parameters, parameter.isOutput = true → parameter.shape? = none) := by
  refine ⟨procedure.tells, fun style => ?_, ?_, fun h => ?_⟩
  · exact congrArg _ (procedure.tells (.list style)).entries
  · rintro ⟨outs, h⟩ parameter hparameter hout
    -- The bindings and the properties tell the same of the parameter.
    have hbinding := (h .binding).2.symm.trans (procedure.tells .binding).2
    have hsetter := (h .setter).2.symm.trans (procedure.tells .setter).2
    have hsame := List.map_inj_left.mp (hbinding.symm.trans hsetter) parameter hparameter
    simpa [DirectionPlace.isOut, hout] using hsame
  · refine ⟨procedure.parameters.map (·.isOutput), fun place => ?_⟩
    have hplace : procedure.parameters.map place.isOut = procedure.parameters.map (·.isOutput) := by
      apply List.map_congr_left
      intro parameter hparameter
      cases hout : parameter.isOutput with
      | false => cases place with
        | list style => cases style <;> simp [DirectionPlace.isOut, hout]
        | _ => simp [DirectionPlace.isOut, hout]
      | true =>
        have hnone := h parameter hparameter hout
        cases place with
        | list style => cases style <;> simp [DirectionPlace.isOut, hout, hnone]
        | _ => simp [DirectionPlace.isOut, hout, hnone]
    rw [← hplace]
    exact procedure.tells place

/-- A procedure that is to give a table back. -/
def givesTableBack : Procedure where
  schema := "dbo"
  name := "p"
  declaredName := "p"
  parameters := [⟨"rows", true, none, .table ⟨"dbo", "tb", []⟩⟩]
  results := []

/-- The binding of a table says that nothing is given back, and the property for it that something is. -/
theorem directions_differ_of_table :
    ¬ ∃ outs, ∀ place, givesTableBack.plan.Tells outs place := by
  rintro ⟨outs, h⟩
  have hbinding : [false] = outs := (h .binding).2
  have hsetter : [true] = outs := (h .setter).2
  exact absurd (hbinding.trans hsetter.symm) (by decide)

end SchemaPlan
