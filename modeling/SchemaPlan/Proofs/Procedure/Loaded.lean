import SchemaPlan.Proofs.Procedure.ResultSets
import SchemaPlan.Proofs.Resolve.Nullability
import SchemaPlan.Proofs.Schema.Loading

/-!
# Procedures of a loaded model

A procedure that is part of a loaded model was built against its tables and views: its parameters
are those of its definition, and each of its result sets answers a query. A property that all
queries of the model's resolver have is thereby one of all result sets of the model.
-/

namespace SchemaPlan

/-- Each element of the second of two related lists is related to one of the first. -/
theorem exists_mem_of_forall₂ {α β : Type} {R : α → β → Prop} {first : List α} {second : List β}
    (h : List.Forall₂ R first second) {b : β} (hb : b ∈ second) : ∃ a ∈ first, R a b := by
  obtain ⟨j, hj⟩ := List.mem_iff_getElem?.mp hb
  obtain ⟨a, ha, hrelated⟩ := exists_getElem?_of_forall₂ h hj
  exact ⟨a, List.mem_of_getElem? ha, hrelated⟩

/-- The parameters of a procedure are built one by one, and its result sets answer queries in the
presence of these. -/
theorem answers_of_buildProcedure {options : LoadOptions} {model : SchemaModel}
    {definition : ProcedureDefinition} {procedure : Procedure}
    (h : buildProcedure options model definition = .ok procedure) :
    procedure.parameters = definition.parameters.map (buildParameter model) ∧
      ∀ result ∈ procedure.results,
        ∃ query, Answers ⟨model.catalog, procedure.parameters⟩ query result := by
  unfold buildProcedure at h
  obtain ⟨results, hresults, h⟩ := bind_eq_ok.mp h
  obtain rfl := Except.ok.inj h
  refine ⟨rfl, fun result hresult => ?_⟩
  obtain ⟨queries, -, hanswers⟩ := buildResults_answers hresults
  obtain ⟨query, -, hanswer⟩ := exists_mem_of_forall₂ hanswers hresult
  exact ⟨query, hanswer⟩

/-- The procedures of a model are those that could be built. -/
theorem mem_procedures_withProcedures {options : LoadOptions}
    {definitions : List ProcedureDefinition} {schema : SchemaModel} {procedure : Procedure} :
    procedure ∈ (withProcedures options definitions schema).model.procedures ↔
      ∃ definition ∈ definitions, buildProcedure options schema definition = .ok procedure := by
  unfold withProcedures
  simp only [List.mem_filterMap, List.mem_map]
  constructor
  · rintro ⟨outcome, ⟨definition, hdefinition, houtcome⟩, h⟩
    cases outcome with
    | ok built =>
      obtain rfl := Option.some.inj h
      exact ⟨definition, hdefinition, houtcome⟩
    | error failure => cases h
  · rintro ⟨definition, hdefinition, h⟩
    exact ⟨.ok procedure, ⟨definition, hdefinition, h⟩, rfl⟩

end SchemaPlan
