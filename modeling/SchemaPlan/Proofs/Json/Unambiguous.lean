import Mathlib.Data.List.Nodup
import SchemaPlan.Generation
import SchemaPlan.Proofs.Plan.Coherence
import SchemaPlan.Proofs.Resolve.Aliases

/-!
# Names in documents

A field of a JSON object can be read back from its name if no other field of the object has that
name. Documents of models have each name once in every object. So do documents of plans, with one
exception: a plan of several result sets writes the name of its bundle and the class of the bundle
under the same name, since the fields of a shape stand among those of its plan.

* `Json.everywhere_object`, `Json.everywhere_list`: the objects of a document by its structure.
* `SchemaModel.isUnambiguous_toJson`: documents of models.
* `CodePlan.count_name_eq_one_iff`: the one name that a plan can have twice.
* `Generated.isUnambiguous_iff_no_bundle`: all documents.
-/

namespace SchemaPlan

namespace Json

/-! ## Objects in a document -/

/-- A value is the whole of a document, or stands in one of its items or fields. -/
inductive Within (value : Json) : Json → Prop
  | whole : Within value value
  | item {items : List Json} {item : Json} (hitem : item ∈ items) (h : Within value item) :
      Within value (.array items)
  | field {fields : List (String × Json)} {field : String × Json} (hfield : field ∈ fields)
      (h : Within value field.2) : Within value (.object fields)

/-- The fields of every object in a document have a property. -/
def Everywhere (p : List (String × Json) → Prop) (document : Json) : Prop :=
  ∀ fields, Within (.object fields) document → p fields

/-- No object in a document has a name twice. -/
def IsUnambiguous (document : Json) : Prop :=
  document.Everywhere fun fields => (fields.map (·.1)).Nodup

theorem everywhere_object {p : List (String × Json) → Prop} (fields : List (String × Json)) :
    (object fields).Everywhere p ↔ p fields ∧ ∀ field ∈ fields, field.2.Everywhere p := by
  constructor
  · intro h
    exact ⟨h fields .whole, fun field hfield inner hinner => h inner (.field hfield hinner)⟩
  · rintro ⟨hfields, h⟩ inner hinner
    cases hinner with
    | whole => exact hfields
    | field hfield hinner => exact h _ hfield inner hinner

theorem everywhere_list {p : List (String × Json) → Prop} {α : Type} {encode : α → Json}
    {values : List α} :
    (list encode values).Everywhere p ↔ ∀ value ∈ values, (encode value).Everywhere p := by
  constructor
  · exact fun h value hvalue fields hfields =>
      h fields (.item (List.mem_map_of_mem hvalue) hfields)
  · intro h fields hfields
    cases hfields with
    | item hitem hfields =>
      obtain ⟨value, hvalue, rfl⟩ := List.mem_map.mp hitem
      exact h value hvalue fields hfields

@[simp] theorem isUnambiguous_bool (value : Bool) : (bool value).IsUnambiguous := by
  rintro fields ⟨⟩

@[simp] theorem isUnambiguous_number (value : Int) : (number value).IsUnambiguous := by
  rintro fields ⟨⟩

@[simp] theorem isUnambiguous_natural (n : Nat) : (natural n).IsUnambiguous :=
  isUnambiguous_number n

@[simp] theorem isUnambiguous_text (value : String) : (text value).IsUnambiguous := by
  rintro fields ⟨⟩

@[simp] theorem isUnambiguous_object (fields : List (String × Json)) :
    (object fields).IsUnambiguous ↔
      (fields.map (·.1)).Nodup ∧ ∀ field ∈ fields, field.2.IsUnambiguous :=
  everywhere_object fields

@[simp] theorem isUnambiguous_optional {α : Type} {encode : α → Json} {value : Option α} :
    (optional encode value).IsUnambiguous ↔ ∀ found ∈ value, (encode found).IsUnambiguous := by
  cases value with
  | none =>
    have hnull : null.IsUnambiguous := by rintro fields ⟨⟩
    simp [optional, hnull]
  | some found => simp [optional]

@[simp] theorem isUnambiguous_list {α : Type} {encode : α → Json} {values : List α} :
    (list encode values).IsUnambiguous ↔ ∀ value ∈ values, (encode value).IsUnambiguous :=
  everywhere_list

@[simp] theorem isUnambiguous_texts (values : List String) : (texts values).IsUnambiguous :=
  isUnambiguous_list.mpr fun value _ => isUnambiguous_text value

end Json

open Json

/-! ## Documents of models -/

@[simp] theorem TypeRow.isUnambiguous_toJson (row : TypeRow) : row.toJson.IsUnambiguous := by
  simp [toJson]

@[simp] theorem KeySide.isUnambiguous_toJson (side : KeySide) : side.toJson.IsUnambiguous := by
  simp [toJson]

@[simp] theorem Column.isUnambiguous_toJson (column : Column) : column.toJson.IsUnambiguous := by
  simp [toJson, lengthToJson]

@[simp] theorem Relation.isUnambiguous_toJson (relation : Relation) :
    relation.toJson.IsUnambiguous := by
  simp [toJson]

@[simp] theorem AliasType.isUnambiguous_toJson (type : AliasType) : type.toJson.IsUnambiguous := by
  simp [toJson, lengthToJson]

/-- The fields of a kind stand among those of its parameter, under other names than these. -/
@[simp] theorem Parameter.isUnambiguous_toJson (parameter : Parameter) :
    parameter.toJson.IsUnambiguous := by
  cases hkind : parameter.kind <;> simp [toJson, ParameterKind.fields, hkind]

@[simp] theorem Provenance.isUnambiguous_toJson (provenance : Provenance) :
    provenance.toJson.IsUnambiguous := by
  cases provenance <;> simp [toJson]

@[simp] theorem ResultColumn.isUnambiguous_toJson (column : ResultColumn) :
    column.toJson.IsUnambiguous := by
  simp [toJson]

/-- The aliases are the only names in a document that are not fixed. -/
theorem ResultSet.isUnambiguous_toJson {result : ResultSet} (h : result.aliases.IsSorted) :
    result.toJson.IsUnambiguous := by
  have haliases :
      (object (result.aliases.map fun entry => (entry.1, text entry.2))).IsUnambiguous := by
    rw [isUnambiguous_object, List.map_map]
    refine ⟨h.nodup, fun field hfield => ?_⟩
    obtain ⟨entry, -, rfl⟩ := List.mem_map.mp hfield
    exact isUnambiguous_text entry.2
  simpa [toJson] using haliases

theorem Procedure.isUnambiguous_toJson {procedure : Procedure}
    (h : ∀ result ∈ procedure.results, result.aliases.IsSorted) :
    procedure.toJson.IsUnambiguous := by
  have hresults : ∀ result ∈ procedure.results, result.toJson.IsUnambiguous :=
    fun result hresult => ResultSet.isUnambiguous_toJson (h result hresult)
  simpa [toJson] using hresults

theorem SchemaModel.isUnambiguous_toJson {model : SchemaModel} (h : model.HasSortedAliases) :
    model.toJson.IsUnambiguous := by
  have hprocedures : ∀ procedure ∈ model.procedures, procedure.toJson.IsUnambiguous :=
    fun procedure hprocedure => Procedure.isUnambiguous_toJson (h procedure hprocedure)
  simpa [toJson] using hprocedures

/-! ## Documents of plans -/

@[simp] theorem ClassProperty.isUnambiguous_toJson (property : ClassProperty) :
    property.toJson.IsUnambiguous := by
  simp [toJson]

@[simp] theorem DataClass.isUnambiguous_toJson (dataClass : DataClass) :
    dataClass.toJson.IsUnambiguous := by
  simp [toJson]

@[simp] theorem RecordField.isUnambiguous_toJson (field : RecordField) :
    field.toJson.IsUnambiguous := by
  simp [toJson]

@[simp] theorem TablePlan.isUnambiguous_toJson (table : TablePlan) :
    table.toJson.IsUnambiguous := by
  simp [toJson]

@[simp] theorem MethodParameter.isUnambiguous_toJson (parameter : MethodParameter) :
    parameter.toJson.IsUnambiguous := by
  simp [toJson]

@[simp] theorem MethodParameter.isUnambiguous_listsToJson (parameters : List MethodParameter) :
    (listsToJson parameters).IsUnambiguous := by
  simp [listsToJson, styledLists]

/-- The fields of a binding stand among those of its parameter, under other names than these. -/
@[simp] theorem BoundParameter.isUnambiguous_toJson (parameter : BoundParameter) :
    parameter.toJson.IsUnambiguous := by
  cases hbinding : parameter.binding <;> simp [toJson, Binding.fields, hbinding]

@[simp] theorem ReadMethod.isUnambiguous_toJson (method : ReadMethod) :
    method.toJson.IsUnambiguous := by
  cases method <;> simp [toJson]

@[simp] theorem ColumnRead.isUnambiguous_toJson (read : ColumnRead) :
    read.toJson.IsUnambiguous := by
  simp [toJson]

@[simp] theorem ResultSetRead.isUnambiguous_toJson (read : ResultSetRead) :
    read.toJson.IsUnambiguous := by
  simp [toJson]

@[simp] theorem Execution.isUnambiguous_toJson (execution : Execution) :
    execution.toJson.IsUnambiguous := by
  cases execution <;> simp [toJson]

@[simp] theorem OutputAssignment.isUnambiguous_toJson (output : OutputAssignment) :
    output.toJson.IsUnambiguous := by
  simp [toJson]

/-- Whether a shape is that of several result sets. -/
def ReturnShape.isBundle : ReturnShape → Bool
  | bundle _ _ => true
  | _ => false

namespace CodePlan

/-- No object below a plan has a name twice. -/
theorem isUnambiguous_of_mem_fields {plan : CodePlan} :
    ∀ field ∈ plan.fields, field.2.IsUnambiguous := by
  cases hshape : plan.shape <;> simp [fields, ReturnShape.fields, hshape]

/-- The name of the bundle is the only one that a plan can have twice. -/
theorem count_name_eq_one_iff {plan : CodePlan} :
    ∀ name ∈ plan.fields.map (·.1), (plan.fields.map (·.1)).count name = 1 ↔
      ¬ (plan.shape.isBundle = true ∧ name = "bundle") := by
  -- The names depend on nothing but the kind of the shape, so each case is about literals.
  cases hshape : plan.shape <;>
    simp only [fields, hshape, ReturnShape.fields, ReturnShape.isBundle, List.map_cons,
      List.map_nil, List.cons_append, List.nil_append] <;>
    decide +kernel

theorem nodup_names_iff {plan : CodePlan} :
    (plan.fields.map (·.1)).Nodup ↔ plan.shape.isBundle = false := by
  rw [List.nodup_iff_count_eq_one]
  constructor
  · intro h
    by_contra hbundle
    rw [Bool.not_eq_false] at hbundle
    have hmem : "bundle" ∈ plan.fields.map (·.1) := by simp [fields]
    exact (count_name_eq_one_iff "bundle" hmem).mp (h "bundle" hmem) ⟨hbundle, rfl⟩
  · intro hbundle name hname
    rw [count_name_eq_one_iff name hname, hbundle]
    rintro ⟨⟨⟩, -⟩

end CodePlan

/-! ## Plans with their model -/

/-- A field is the only one of its name exactly if the name stands once. -/
theorem filter_name_eq_singleton_iff {fields : List (String × Json)} {field : String × Json}
    (h : field ∈ fields) :
    fields.filter (fun other => other.1 == field.1) = [field] ↔
      (fields.map (·.1)).count field.1 = 1 := by
  have hcount : (fields.map (·.1)).count field.1 =
      (fields.filter fun other => other.1 == field.1).length := by
    rw [List.count, List.countP_map, List.countP_eq_length_filter]
    rfl
  have hmem : field ∈ fields.filter fun other => other.1 == field.1 :=
    List.mem_filter.mpr ⟨h, beq_self_eq_true _⟩
  rw [hcount]
  constructor
  · intro heq
    rw [heq, List.length_singleton]
  · intro hlength
    obtain ⟨only, heq⟩ := List.length_eq_one_iff.mp hlength
    rw [heq] at hmem ⊢
    rw [List.mem_singleton.mp hmem]

namespace Generated

/-- An object has no name twice, or it is the plan of several result sets. -/
def IsDistinctOrBundle (generated : Generated) (fields : List (String × Json)) : Prop :=
  (fields.map (·.1)).Nodup ∨
    ∃ plan ∈ generated.plans, plan.shape.isBundle = true ∧ fields = plan.fields

theorem everywhere_isDistinctOrBundle {generated : Generated}
    (h : generated.model.HasSortedAliases) :
    generated.toJson.Everywhere generated.IsDistinctOrBundle := by
  have hbelow {document : Json} (hdocument : document.IsUnambiguous) :
      document.Everywhere generated.IsDistinctOrBundle :=
    fun fields hfields => .inl (hdocument fields hfields)
  -- A plan itself is the only object where the shape decides; all below it is unambiguous.
  have hplans : ∀ plan ∈ generated.plans,
      plan.toJson.Everywhere generated.IsDistinctOrBundle := by
    intro plan hplan
    refine (everywhere_object _).mpr ⟨?_, fun field hfield =>
      hbelow (CodePlan.isUnambiguous_of_mem_fields field hfield)⟩
    cases hshape : plan.shape.isBundle with
    | false => exact .inl (CodePlan.nodup_names_iff.mpr hshape)
    | true => exact .inr ⟨plan, hplan, hshape, rfl⟩
  refine (everywhere_object _).mpr ⟨.inl (by simp), ?_⟩
  simp only [List.forall_mem_cons, List.not_mem_nil, false_imp_iff, implies_true, and_true]
  exact ⟨hbelow (SchemaModel.isUnambiguous_toJson h), everywhere_list.mpr hplans⟩

theorem isUnambiguous_toJson_iff {generated : Generated} (h : generated.model.HasSortedAliases) :
    generated.toJson.IsUnambiguous ↔ ∀ plan ∈ generated.plans, plan.shape.isBundle = false := by
  have hplan (plan : CodePlan) : plan.toJson.IsUnambiguous ↔ plan.shape.isBundle = false := by
    rw [CodePlan.toJson, isUnambiguous_object, CodePlan.nodup_names_iff]
    exact and_iff_left CodePlan.isUnambiguous_of_mem_fields
  have hmodel := SchemaModel.isUnambiguous_toJson h
  unfold toJson
  rw [isUnambiguous_object]
  simp [hmodel, hplan]

end Generated

/-! ## Documents of loaded models -/

theorem Procedure.isBundle_shape_iff (procedure : Procedure) :
    procedure.shape.isBundle = true ↔ 2 ≤ procedure.results.length := by
  rw [← procedure.bundleClass?_isSome_iff]
  cases procedure.shape <;> simp [ReturnShape.isBundle, bundleClass?]

/-- A loaded model with the plans of its procedures. -/
def LoadedModel.planned (loaded : LoadedModel) : Generated :=
  ⟨loaded.model, loaded.model.procedures.map Procedure.plan, loaded.failures⟩

/-- The plans of a loaded model are unambiguous exactly if no procedure has several result sets. -/
theorem isUnambiguous_planned_iff {options : LoadOptions} {statements : List Statement}
    {loaded : LoadedModel} (h : buildModel options statements = .ok loaded) :
    loaded.planned.toJson.IsUnambiguous ↔
      ∀ procedure ∈ loaded.model.procedures, procedure.results.length < 2 := by
  rw [Generated.isUnambiguous_toJson_iff (hasSortedAliases_of_buildModel h)]
  show (∀ plan ∈ loaded.model.procedures.map Procedure.plan, plan.shape.isBundle = false) ↔ _
  rw [List.forall_mem_map]
  refine forall₂_congr fun procedure _ => ?_
  rw [← Nat.not_le, ← procedure.isBundle_shape_iff, Bool.not_eq_true]
  rfl

/-! ## All documents -/

/-- The document of a model has no name twice in an object. That of a model with plans has one only
in plans of several result sets, and there it is `bundle`: every other field of a plan, its shape
among them, is the only one of its name. -/
theorem Generated.isUnambiguous_iff_no_bundle {generated : Generated}
    (h : generated.model.HasSortedAliases) :
    generated.model.toJson.IsUnambiguous ∧
      (generated.toJson.IsUnambiguous ↔
        ∀ plan ∈ generated.plans, plan.shape.isBundle = false) ∧
      generated.toJson.Everywhere generated.IsDistinctOrBundle ∧
      ∀ plan ∈ generated.plans, ∀ field ∈ plan.fields,
        plan.fields.filter (fun other => other.1 == field.1) = [field] ↔
          ¬ (plan.shape.isBundle = true ∧ field.1 = "bundle") := by
  refine ⟨SchemaModel.isUnambiguous_toJson h, Generated.isUnambiguous_toJson_iff h,
    Generated.everywhere_isDistinctOrBundle h, fun plan _ field hfield => ?_⟩
  rw [filter_name_eq_singleton_iff hfield]
  exact CodePlan.count_name_eq_one_iff field.1 (List.mem_map_of_mem hfield)

/-- Each field of a plan of one result set can be read back, such as the type of its values. -/
theorem isUnambiguous_of_one_result :
    ∃ statements loaded, statementsOf?
        ["create table t (a int)", "create procedure p as select x.a from t as x"] =
          some statements ∧
      buildModel {} statements = .ok loaded ∧ loaded.planned.model.HasSortedAliases ∧
      loaded.planned.model.toJson.IsUnambiguous ∧ loaded.planned.toJson.IsUnambiguous ∧
      ∃ plan ∈ loaded.planned.plans,
        plan.fields.filter (fun other => other.1 == "host_type") =
          [("host_type", text "Int32?")] := by
  obtain ⟨statements, loaded, hstatements, hloaded, htest⟩ :=
    exists_loaded_of_any
      ["create table t (a int)", "create procedure p as select x.a from t as x"]
      (fun _ loaded => loaded.planned.plans.any (fun plan => plan.shape == .values "Int32?") &&
        loaded.planned.plans.all fun plan => plan.shape == .values "Int32?")
      (by decide +kernel)
  obtain ⟨hsome, hall⟩ := Bool.and_eq_true_iff.mp htest
  obtain ⟨plan, hplan, hshape⟩ := List.any_eq_true.mp hsome
  have hsorted : loaded.planned.model.HasSortedAliases := hasSortedAliases_of_buildModel hloaded
  obtain ⟨hmodel, hplans, -, hfields⟩ := Generated.isUnambiguous_iff_no_bundle hsorted
  -- A sequence of bare values has no class for a bundle.
  have hvalues (plan : CodePlan) (h : (plan.shape == .values "Int32?") = true) :
      plan.shape.isBundle = false := by
    rw [beq_iff_eq.mp h]
    rfl
  have hfield : ("host_type", text "Int32?") ∈ plan.fields := by
    simp [CodePlan.fields, ReturnShape.fields, beq_iff_eq.mp hshape]
  refine ⟨statements, loaded, hstatements, hloaded, hsorted, hmodel,
    hplans.mpr fun plan hplan => hvalues plan (List.all_eq_true.mp hall plan hplan), plan, hplan,
    (hfields plan hplan _ hfield).mpr ?_⟩
  rintro ⟨-, hname⟩
  exact absurd hname (by decide)

/-- A procedure with two result sets has a plan with two fields `bundle`. -/
theorem ambiguous_of_two_results :
    ∃ statements loaded, statementsOf? ["create procedure p as select 1 as a select 2 as b"] =
        some statements ∧
      buildModel {} statements = .ok loaded ∧ ¬ loaded.planned.toJson.IsUnambiguous := by
  obtain ⟨statements, loaded, hstatements, hloaded, htest⟩ :=
    exists_loaded_of_any ["create procedure p as select 1 as a select 2 as b"]
      (fun _ loaded => loaded.model.procedures.any fun procedure => 2 ≤ procedure.results.length)
      (by decide +kernel)
  obtain ⟨procedure, hprocedure, htest⟩ := List.any_eq_true.mp htest
  refine ⟨statements, loaded, hstatements, hloaded, fun hunambiguous => ?_⟩
  have hless := (isUnambiguous_planned_iff hloaded).mp hunambiguous procedure hprocedure
  have hseveral : 2 ≤ procedure.results.length := of_decide_eq_true htest
  omega

end SchemaPlan
