import Mathlib.Order.Bounds.Defs
import SchemaPlan.Proofs.Plan.Coherence
import SchemaPlan.Proofs.Procedure.Loaded
import SchemaPlan.Proofs.Resolve.Distinct

/-!
# Names of results

The columns of a result get their final names one after the other. What becomes of a name depends on
the final names before it and on nothing else, so a number that one column gets can be in the way of
a name that a later column has of itself.

* `IsFinalName`: what becomes of one name behind names that are taken.
* `Disambiguates`: what becomes of the names of all columns.
* `result_names_differ`: the final names, and what they mean for loaded models and their plans.
-/

namespace SchemaPlan

open SchemaPlan.Query

/-! ## One name -/

/-- What becomes of a name behind names that are taken, without regard to case: it stays exactly if
it is not taken, and otherwise gets the least number from two on that makes a name which is not. -/
structure IsFinalName (taken : List String) (name final : String) : Prop where
  keeps : final = name ↔ Text.lower name ∉ taken
  numbered : Text.lower name ∈ taken → ∃ n,
    IsLeast {n : Nat | 2 ≤ n ∧ Text.lower (name ++ toString n) ∉ taken} n ∧
      final = name ++ toString n

theorem IsFinalName.of_mem_iff {taken others : List String} {name final : String}
    (hmem : ∀ text, text ∈ taken ↔ text ∈ others) (h : IsFinalName taken name final) :
    IsFinalName others name final := by
  obtain ⟨hkeeps, hnumbered⟩ := h
  simp only [hmem] at hkeeps hnumbered
  exact ⟨hkeeps, hnumbered⟩

theorem freshName_of_not_mem {taken : List String} {name : String}
    (h : Text.lower name ∉ taken) : freshName taken name = name := by
  unfold freshName
  rw [if_neg]
  simpa using h

theorem exists_least_freshName {taken : List String} {name : String}
    (h : Text.lower name ∈ taken) :
    ∃ n, IsLeast {n : Nat | 2 ≤ n ∧ Text.lower (name ++ toString n) ∉ taken} n ∧
      freshName taken name = name ++ toString n := by
  unfold freshName
  rw [if_pos (by simpa using h)]
  dsimp only
  -- The numbers that are tried are enough for one of them to be found.
  obtain ⟨number, hnumber, hnew⟩ := exists_number_not_mem taken name
  cases hfound : ((List.range (taken.length + 1)).map (· + 2)).find? fun n =>
      !taken.contains (Text.lower (name ++ toString n)) with
  | none => exact absurd (List.find?_eq_none.mp hfound number hnumber) (by simpa using hnew)
  | some found =>
    rw [List.find?_map, Option.map_eq_some_iff] at hfound
    obtain ⟨index, hindex, rfl⟩ := hfound
    obtain ⟨hfree, -, hleast⟩ := List.find?_range_eq_some.mp hindex
    refine ⟨index + 2, ⟨⟨Nat.le_add_left 2 index, by simpa using hfree⟩, ?_⟩, rfl⟩
    rintro n ⟨htwo, hn⟩
    by_contra hless
    have htaken := hleast (n - 2) (by omega)
    simp only [Function.comp_apply, Nat.sub_add_cancel htwo] at htaken
    exact hn (by simpa using htaken)

theorem isFinalName_freshName (taken : List String) (name : String) :
    IsFinalName taken name (freshName taken name) where
  keeps := by
    constructor
    · intro hsame
      rw [← hsame]
      exact lower_freshName_not_mem taken name
    · exact freshName_of_not_mem
  numbered := exists_least_freshName

/-! ## All names of a result -/

/-- The columns of a result under their final names: nothing but names has changed, the final names
differ without regard to case, each is what becomes of the name behind those before it, and they are
final indeed. -/
structure Disambiguates (columns finals : List ResultColumn) : Prop where
  length : finals.length = columns.length
  differ : (lowerNames finals).Nodup
  each : ∀ (i : Nat) (column final : ResultColumn),
    columns[i]? = some column → finals[i]? = some final →
      final = { column with name := final.name } ∧
        IsFinalName (lowerNames (finals.take i)) column.name final.name
  settled : distinctNames [] finals = finals

theorem length_distinctNames (taken : List String) (columns : List ResultColumn) :
    (distinctNames taken columns).length = columns.length := by
  induction columns generalizing taken with
  | nil => rfl
  | cons column rest ih => exact congrArg (· + 1) (ih _)

/-- The column at a place gets its final name behind the final names of the columns before it. -/
theorem getElem?_distinctNames (taken : List String) (columns : List ResultColumn) (i : Nat) :
    (distinctNames taken columns)[i]? = columns[i]?.map fun column =>
      { column with
        name := freshName
          ((lowerNames ((distinctNames taken columns).take i)).reverse ++ taken) column.name } := by
  induction columns generalizing taken i with
  | nil => rfl
  | cons column rest ih =>
    cases i with
    | zero => rfl
    | succ i =>
      unfold distinctNames
      simp only [List.getElem?_cons_succ, List.take_succ_cons, ih]
      unfold lowerNames
      simp only [List.map_cons, List.reverse_cons, List.append_assoc, List.singleton_append]

/-- Names that differ already, from each other and from those that are taken, stay as they are. -/
theorem distinctNames_eq_self {taken : List String} {columns : List ResultColumn}
    (hdiffer : (lowerNames columns).Nodup) (hnew : ∀ name ∈ lowerNames columns, name ∉ taken) :
    distinctNames taken columns = columns := by
  induction columns generalizing taken with
  | nil => rfl
  | cons column rest ih =>
    obtain ⟨hfirst, hrest⟩ := List.nodup_cons.mp hdiffer
    obtain ⟨hfree, hothers⟩ := List.forall_mem_cons.mp hnew
    have hname : freshName taken column.name = column.name := freshName_of_not_mem hfree
    have hbehind : ∀ name ∈ lowerNames rest, name ∉ Text.lower column.name :: taken := by
      intro name hmem htaken
      rcases List.mem_cons.mp htaken with rfl | htaken
      · exact hfirst hmem
      · exact hothers name hmem htaken
    unfold distinctNames
    simp only [hname, ih hrest hbehind]

theorem disambiguates_distinctNames (columns : List ResultColumn) :
    Disambiguates columns (distinctNames [] columns) := by
  have hdiffer : (lowerNames (distinctNames [] columns)).Nodup := (nodup_distinctNames [] columns).1
  refine ⟨length_distinctNames [] columns, hdiffer, ?each, ?settled⟩
  case each =>
    intro i column final hcolumn hfinal
    rw [getElem?_distinctNames, hcolumn, Option.map_some] at hfinal
    obtain rfl := Option.some.inj hfinal
    refine ⟨rfl, ?_⟩
    apply (isFinalName_freshName _ column.name).of_mem_iff
    intro text
    rw [List.append_nil, List.mem_reverse]
  case settled =>
    exact distinctNames_eq_self hdiffer fun _ _ => List.not_mem_nil

/-! ## Plans -/

/-- The properties of a class have different names, even without regard to case. -/
def DataClass.NamesDiffer (dataClass : DataClass) : Prop :=
  (dataClass.properties.map fun property => Text.lower property.name).Nodup

namespace Procedure

/-- Every class of rows is that of a result set. -/
theorem exists_result_of_mem_rowClasses {procedure : Procedure} {rowClass : DataClass}
    (h : rowClass ∈ procedure.rowClasses) :
    ∃ index, ∃ result ∈ procedure.results, rowClass = procedure.rowClass index result := by
  unfold rowClasses at h
  split at h
  · cases h
  · cases h
  · cases h
  all_goals
    obtain ⟨index, hindex, rfl⟩ := List.mem_mapIdx.mp h
    exact ⟨index, _, List.getElem_mem hindex, rfl⟩

theorem namesDiffer_rowClass (procedure : Procedure) (index : Nat) {result : ResultSet}
    (h : (lowerNames result.columns).Nodup) : (procedure.rowClass index result).NamesDiffer := by
  unfold DataClass.NamesDiffer rowClass
  rw [List.map_map]
  exact h

theorem bundlePropertyName_zero : bundlePropertyName 0 = "Result" := rfl

theorem bundlePropertyName_succ (index : Nat) :
    bundlePropertyName (index + 1) = "Result" ++ toString (index + 2) := rfl

/-- The properties of a bundle differ by their numbers, the first of which is not written. -/
theorem lower_bundlePropertyName_inj {i j : Nat}
    (h : Text.lower (bundlePropertyName i) = Text.lower (bundlePropertyName j)) : i = j := by
  cases i with
  | zero =>
    cases j with
    | zero => rfl
    | succ j =>
      rw [bundlePropertyName_zero, bundlePropertyName_succ] at h
      exact absurd h.symm (Text.lower_append_toString_ne _ _)
  | succ i =>
    cases j with
    | zero =>
      rw [bundlePropertyName_zero, bundlePropertyName_succ] at h
      exact absurd h (Text.lower_append_toString_ne _ _)
    | succ j =>
      rw [bundlePropertyName_succ, bundlePropertyName_succ] at h
      have hnumbers : i + 2 = j + 2 := Text.lower_append_toString_inj h
      omega

theorem lower_bundlePropertyName_ne (index : Nat) :
    Text.lower (bundlePropertyName index) ≠ Text.lower "RecordsAffected" := by
  cases index with
  | zero => decide +kernel
  | succ index =>
    intro h
    have hresult : (Text.lower "Result").toList = ['r', 'e', 's', 'u', 'l', 't'] := by
      decide +kernel
    have hrecords : (Text.lower "RecordsAffected").toList[2]? = some 'c' := by
      decide +kernel
    -- The third characters differ already, in front of the number.
    have hthird := congrArg (fun text => text.toList[2]?) h
    rw [bundlePropertyName_succ, Text.toList_lower_append_toString, hresult, hrecords] at hthird
    cases hthird

theorem namesDiffer_of_bundleClass? {procedure : Procedure} {bundle : DataClass}
    (h : bundleClass? procedure.shape = some bundle) : bundle.NamesDiffer := by
  have hnames : (bundle.properties.map fun property => Text.lower property.name) =
      Text.lower "RecordsAffected" :: (List.range procedure.rowClasses.length).map
        fun index => Text.lower (bundlePropertyName index) := by
    rw [bundleClass?_properties h, List.map_cons]
    refine congrArg (List.cons _) ?_
    apply List.ext_getElem <;> simp
  unfold DataClass.NamesDiffer
  rw [hnames, List.nodup_cons]
  constructor
  · intro hmem
    obtain ⟨index, -, hname⟩ := List.mem_map.mp hmem
    exact lower_bundlePropertyName_ne index hname
  · exact List.nodup_range.map fun _ _ => lower_bundlePropertyName_inj

/-- The classes that are planned for the results of a procedure have different names of properties
if its results have different names of columns. -/
theorem namesDiffer_plan {procedure : Procedure}
    (h : ∀ result ∈ procedure.results, (lowerNames result.columns).Nodup) :
    (∀ rowClass ∈ procedure.plan.rowClasses, rowClass.NamesDiffer) ∧
      ∀ bundle, procedure.plan.bundleClass = some bundle → bundle.NamesDiffer := by
  constructor
  · intro rowClass hmem
    obtain ⟨index, result, hresult, rfl⟩ := exists_result_of_mem_rowClasses hmem
    exact procedure.namesDiffer_rowClass index (h result hresult)
  · intro bundle hbundle
    exact namesDiffer_of_bundleClass? hbundle

end Procedure

/-! ## Loaded models -/

/-- Every result of a procedure that can be built has different names. -/
theorem nodup_of_buildProcedure {options : LoadOptions} {model : SchemaModel}
    {definition : ProcedureDefinition} {procedure : Procedure}
    (h : buildProcedure options model definition = .ok procedure) :
    ∀ result ∈ procedure.results, (lowerNames result.columns).Nodup := by
  intro result hresult
  obtain ⟨query, resolved, hquery, rfl⟩ := (answers_of_buildProcedure h).2 result hresult
  exact nodup_of_query hquery

/-- The names of the columns of a select are made different. By this the columns of every result of a
loaded model have different names, and so have the properties of every class that is planned for
them. -/
theorem result_names_differ :
    (∀ columns : List ResultColumn, Disambiguates columns (distinctNames [] columns)) ∧
    ∀ (options : LoadOptions) (statements : List Statement) (loaded : LoadedModel),
      buildModel options statements = .ok loaded →
        ∀ procedure ∈ loaded.model.procedures,
          (∀ result ∈ procedure.results, (lowerNames result.columns).Nodup) ∧
          (∀ rowClass ∈ procedure.plan.rowClasses, rowClass.NamesDiffer) ∧
          ∀ bundle, procedure.plan.bundleClass = some bundle → bundle.NamesDiffer := by
  refine ⟨disambiguates_distinctNames, ?_⟩
  intro options statements loaded h procedure hprocedure
  obtain ⟨schema, views, -, -, -, rfl⟩ := buildModel_eq_ok.mp h
  obtain ⟨definition, -, hbuilt⟩ := mem_procedures_withProcedures.mp hprocedure
  have hresults := nodup_of_buildProcedure hbuilt
  exact ⟨hresults, Procedure.namesDiffer_plan hresults⟩

/-- The number that the second `id` gets is in the way of the column `ID2` behind it. -/
theorem result_names_differ_of_taken_number :
    ∃ statements loaded procedure, statementsOf?
        ["create table t (id int, ID2 int)",
          "create procedure p as select a.id, b.id, b.ID2 from t a, t b select 1 as n"] =
            some statements ∧
      buildModel {} statements = .ok loaded ∧ procedure ∈ loaded.model.procedures ∧
      (procedure.results.map fun result => result.columns.map (·.name)) =
        [["id", "id2", "ID22"], ["n"]] ∧
      (∀ result ∈ procedure.results, (lowerNames result.columns).Nodup) ∧
      (∀ rowClass ∈ procedure.plan.rowClasses, rowClass.NamesDiffer) ∧
      ∃ bundle, procedure.plan.bundleClass = some bundle ∧ bundle.NamesDiffer := by
  obtain ⟨statements, loaded, hstatements, hloaded, htest⟩ :=
    exists_loaded_of_any
      ["create table t (id int, ID2 int)",
        "create procedure p as select a.id, b.id, b.ID2 from t a, t b select 1 as n"]
      (fun _ loaded => loaded.model.procedures.any fun procedure =>
        (procedure.results.map fun result => result.columns.map (·.name)) ==
            [["id", "id2", "ID22"], ["n"]] &&
          procedure.plan.bundleClass.isSome)
      (by decide +kernel)
  obtain ⟨procedure, hprocedure, htest⟩ := List.any_eq_true.mp htest
  obtain ⟨hnames, hbundle⟩ := Bool.and_eq_true_iff.mp htest
  obtain ⟨bundle, hbundle⟩ := Option.isSome_iff_exists.mp hbundle
  obtain ⟨hresults, hclasses, hbundles⟩ :=
    result_names_differ.2 {} statements loaded hloaded procedure hprocedure
  exact ⟨statements, loaded, procedure, hstatements, hloaded, hprocedure, eq_of_beq hnames,
    hresults, hclasses, bundle, hbundle, hbundles bundle hbundle⟩

/-- Names that differ in case only are the same name. -/
example : (distinctNames [] (["a", "b", "A", "a"].map fun name =>
    { (default : ResultColumn) with name })).map (·.name) = ["a", "b", "A2", "a3"] := by
  decide +kernel

end SchemaPlan
