import Mathlib.Data.List.Forall2
import SchemaPlan.Plan.Procedure

/-!
# Coherence of plans

The parts of a plan are worked out one by one, each from the procedure alone. They agree: the shape
names the classes of rows, the bundle has a property for each result set, each read fills the item,
the properties and the bundle property that stand at its place, and the fields of a record match
the properties of its class.

* `Procedure.hasShape`: what a procedure is like when it has a shape.
* `Procedure.resultSetRead_fits`: one result set against the rest of the plan.
* `Procedure.plan_isCoherent`: the whole plan.
-/

namespace SchemaPlan

/-! ## What it is to be coherent -/

/-- A type stands in the catalog, or nothing is known of it. -/
def TypeRow.IsListed (row : TypeRow) : Prop := row ∈ Catalog.rows ∨ row = .unknown

namespace ReturnShape

/-- The classes of rows that a shape names. -/
def rowClassNames : ReturnShape → List String
  | rowCount | value _ | values _ => []
  | row rowClass | rows rowClass => [rowClass]
  | bundle _ rowClasses => rowClasses

/-- The type of an item of the `index`-th result set: a bare value or a class of rows. -/
def itemType? (shape : ReturnShape) (index : Nat) : Option String :=
  match shape with
  | value hostType | values hostType => [hostType][index]?
  | _ => shape.rowClassNames[index]?

end ReturnShape

/-- The read of the `index`-th of `count` result sets fits the plan that it belongs to. -/
structure CodePlan.Fits (plan : CodePlan) (count index : Nat) (result : ResultSet)
    (read : ResultSetRead) : Prop where
  itemType : plan.shape.itemType? index = some read.itemType
  /-- The first property of a bundle is the number of rows that changed. -/
  bundleProperty : read.bundleProperty =
    plan.bundleClass.bind fun bundle => (bundle.properties[index + 1]?).map (·.name)
  ordinals : read.columns.map (·.ordinal) = List.range result.columns.length
  /-- A bare value goes to no property. -/
  properties : read.columns.map (·.property) =
    match plan.rowClasses[index]? with
    | some rowClass => rowClass.properties.map fun property => some property.name
    | none => [none]
  advances : read.advances = true ↔ plan.bundleClass.isSome ∧ index + 1 < count
  gathersRows : read.gathersRows = false ↔ ∃ rowClass, plan.shape = .row rowClass

/-- The fields of a record match the properties of the class of its rows. -/
structure TablePlan.IsCoherent (table : TablePlan) : Prop where
  names : table.fields.map (·.name) = table.rowClass.properties.map (·.name)
  ordinals : table.fields.map (·.ordinal) = List.range table.rowClass.properties.length
  /-- A field asks for a value exactly if the type of its property has the mark for missing ones. -/
  policies : List.Forall₂
    (fun field property =>
      field.nullPolicy = .whenPresent ↔ Text.endsWith "?" property.hostType = true)
    table.fields table.rowClass.properties

/-- The parts of a plan agree with each other. -/
structure CodePlan.IsCoherent (procedure : Procedure) (plan : CodePlan) : Prop where
  rowClasses : plan.rowClasses.map (·.name) = plan.shape.rowClassNames
  bundle_isSome : plan.bundleClass.isSome ↔ 2 ≤ procedure.results.length
  bundleProperties : ∀ bundle, plan.bundleClass = some bundle →
    plan.rowClasses.length = procedure.results.length ∧
    bundle.properties = ⟨"RecordsAffected", "int", false⟩ ::
      plan.rowClasses.mapIdx fun index rowClass =>
        ⟨Procedure.bundlePropertyName index, sequenceOf rowClass.name, false⟩
  withoutRows : plan.execution = .withoutRows ↔ plan.shape = .rowCount
  singleValue : ∀ castType, plan.execution = .singleValue castType ↔ plan.shape = .value castType
  returnType : ∀ hostType, plan.shape = .value hostType → plan.returnType = hostType
  reads : ∀ reads, plan.execution = .reader reads →
    reads.length = procedure.results.length ∧
    ∀ index result read, procedure.results[index]? = some result → reads[index]? = some read →
      plan.Fits procedure.results.length index result read
  tables : ∀ table ∈ plan.tables, table.IsCoherent
  /-- Every parameter that holds a table has a plan, and takes rows of the class of that plan. -/
  tableParameters :
    plan.tables.map (fun table => (table.parameter, sequenceOf table.rowClass.name)) =
      (plan.parameters.filter (·.holdsTable)).map fun parameter =>
        (parameter.name, parameter.hostType)

/-! ## The shape of a procedure -/

/-- What a procedure is like when it has a shape. -/
inductive Procedure.HasShape (procedure : Procedure) : ReturnShape → Prop
  | rowCount (hresults : procedure.results = []) : HasShape procedure .rowCount
  | value (result : ResultSet) (column : ResultColumn) (hresults : procedure.results = [result])
      (hcolumns : result.columns = [column]) (hrow : result.isSingleRow = true) :
      HasShape procedure (.value column.hostType)
  | values (result : ResultSet) (column : ResultColumn) (hresults : procedure.results = [result])
      (hcolumns : result.columns = [column]) (hrow : result.isSingleRow = false) :
      HasShape procedure (.values column.hostType)
  | row (result : ResultSet) (hresults : procedure.results = [result])
      (hcolumns : result.columns.length ≠ 1) (hrow : result.isSingleRow = true) :
      HasShape procedure (.row (procedure.rowClassName 0))
  | rows (result : ResultSet) (hresults : procedure.results = [result])
      (hcolumns : result.columns.length ≠ 1) (hrow : result.isSingleRow = false) :
      HasShape procedure (.rows (procedure.rowClassName 0))
  | bundle (hresults : 2 ≤ procedure.results.length) :
      HasShape procedure (.bundle procedure.bundleClassName
        ((List.range procedure.results.length).map procedure.rowClassName))

namespace Procedure

theorem hasShape (procedure : Procedure) : procedure.HasShape procedure.shape := by
  rcases hresults : procedure.results with _ | ⟨result, _ | ⟨second, rest⟩⟩
  · simp only [shape, hresults]
    exact .rowCount hresults
  · rcases hcolumns : result.columns with _ | ⟨column, _ | ⟨next, others⟩⟩ <;>
      cases hrow : result.isSingleRow <;> simp only [shape, hresults, hcolumns, hrow]
    · exact .rows result hresults (by simp [hcolumns]) hrow
    · exact .row result hresults (by simp [hcolumns]) hrow
    · exact .values result column hresults hcolumns hrow
    · exact .value result column hresults hcolumns hrow
    · exact .rows result hresults (by simp [hcolumns]) hrow
    · exact .row result hresults (by simp [hcolumns]) hrow
  · have hshape : procedure.shape = .bundle procedure.bundleClassName
        ((List.range procedure.results.length).map procedure.rowClassName) := by
      simp only [shape, hresults]
    rw [hshape]
    exact .bundle (by simp [hresults])

theorem exists_hasShape (procedure : Procedure) :
    ∃ shape, procedure.shape = shape ∧ procedure.HasShape shape :=
  ⟨_, rfl, procedure.hasShape⟩

/-! ## Classes -/

theorem names_mapIdx_rowClass (procedure : Procedure) (results : List ResultSet) :
    (results.mapIdx procedure.rowClass).map (·.name) =
      (List.range results.length).map procedure.rowClassName := by
  apply List.ext_getElem <;> simp [rowClass]

theorem names_rowClasses (procedure : Procedure) :
    procedure.rowClasses.map (·.name) = procedure.shape.rowClassNames := by
  obtain ⟨shape, hshape, h⟩ := procedure.exists_hasShape
  unfold rowClasses
  rw [hshape]
  cases h with
  | rowCount | value | values => rfl
  | row result hresults | rows result hresults =>
    rw [names_mapIdx_rowClass, hresults]
    rfl
  | bundle => exact procedure.names_mapIdx_rowClass _

theorem bundleClass?_isSome_iff (procedure : Procedure) :
    (bundleClass? procedure.shape).isSome ↔ 2 ≤ procedure.results.length := by
  obtain ⟨shape, hshape, h⟩ := procedure.exists_hasShape
  rw [hshape]
  cases h with
  | rowCount hresults | value _ _ hresults | values _ _ hresults | row _ hresults
  | rows _ hresults => simp [bundleClass?, hresults]
  | bundle hresults => simp [bundleClass?, hresults]

theorem bundleClass?_properties {procedure : Procedure} {bundle : DataClass}
    (h : bundleClass? procedure.shape = some bundle) :
    bundle.properties = ⟨"RecordsAffected", "int", false⟩ ::
      procedure.rowClasses.mapIdx fun index rowClass =>
        ⟨bundlePropertyName index, sequenceOf rowClass.name, false⟩ := by
  -- Both lists of properties come from the same list of names.
  have hnames := procedure.names_rowClasses
  generalize procedure.rowClasses = rowClasses at hnames ⊢
  cases hshape : procedure.shape with
  | bundle name names =>
    rw [hshape] at h hnames
    obtain rfl := Option.some.inj h
    obtain rfl : rowClasses.map (·.name) = names := hnames
    refine congrArg (List.cons _) ?_
    apply List.ext_getElem <;> simp
  | _ => simp [hshape, bundleClass?] at h

theorem length_rowClasses_of_bundle {procedure : Procedure}
    (h : 2 ≤ procedure.results.length) :
    procedure.rowClasses.length = procedure.results.length := by
  obtain ⟨shape, hshape, hs⟩ := procedure.exists_hasShape
  unfold rowClasses
  rw [hshape]
  cases hs with
  | rowCount hresults | value _ _ hresults | values _ _ hresults | row _ hresults
  | rows _ hresults => simp [hresults] at h
  | bundle => exact List.length_mapIdx

/-! ## Result sets -/

theorem ordinals_columnRead (isItem : Bool) (columns : List ResultColumn) :
    (columns.mapIdx (columnRead isItem)).map (·.ordinal) = List.range columns.length := by
  apply List.ext_getElem <;> simp [columnRead]

theorem properties_columnRead (isItem : Bool) (columns : List ResultColumn) :
    (columns.mapIdx (columnRead isItem)).map (·.property) =
      columns.map fun column => if isItem then none else some column.name := by
  apply List.ext_getElem <;> simp [columnRead]

/-- One of several result sets is read into a list of objects, whatever its columns and rows. -/
theorem resultSetRead_of_several {count : Nat} (procedure : Procedure) (index : Nat)
    (result : ResultSet) (h : 1 < count) :
    procedure.resultSetRead count index result =
      { itemType := procedure.rowClassName index
        gathersRows := true
        bundleProperty := some (bundlePropertyName index)
        advances := index + 1 < count
        columns := result.columns.mapIdx (columnRead false) } := by
  rcases hcolumns : result.columns with _ | ⟨column, _ | ⟨next, others⟩⟩ <;>
    simp [resultSetRead, h, hcolumns]

/-- The only result set is read into bare values if it has one column. -/
theorem resultSetRead_of_value (procedure : Procedure) {result : ResultSet} {column : ResultColumn}
    (h : result.columns = [column]) :
    procedure.resultSetRead 1 0 result =
      { itemType := column.hostType
        gathersRows := !result.isSingleRow
        bundleProperty := none
        advances := false
        columns := result.columns.mapIdx (columnRead true) } := by
  simp [resultSetRead, h]

/-- The only result set is read into objects if it does not have one column. -/
theorem resultSetRead_of_row (procedure : Procedure) {result : ResultSet}
    (h : result.columns.length ≠ 1) :
    procedure.resultSetRead 1 0 result =
      { itemType := procedure.rowClassName 0
        gathersRows := !result.isSingleRow
        bundleProperty := none
        advances := false
        columns := result.columns.mapIdx (columnRead false) } := by
  rcases hcolumns : result.columns with _ | ⟨column, _ | ⟨next, others⟩⟩
  · simp [resultSetRead, hcolumns]
  · simp [hcolumns] at h
  · simp [resultSetRead, hcolumns]

/-- A result set that is read into objects fills the properties of its class. -/
theorem properties_of_rowClass {procedure : Procedure} {index : Nat} {result : ResultSet}
    (hclasses : procedure.rowClasses = procedure.results.mapIdx procedure.rowClass)
    (hresult : procedure.results[index]? = some result) :
    (result.columns.mapIdx (columnRead false)).map (·.property) =
      match procedure.plan.rowClasses[index]? with
      | some rowClass => rowClass.properties.map fun property => some property.name
      | none => [none] := by
  have hclass : procedure.plan.rowClasses[index]? = some (procedure.rowClass index result) := by
    show procedure.rowClasses[index]? = _
    rw [hclasses, List.getElem?_mapIdx, hresult]
    rfl
  rw [hclass, properties_columnRead]
  simp [rowClass]

/-- Every result set that is read row by row is read into what the plan has for it. -/
theorem resultSetRead_fits {procedure : Procedure} {index : Nat} {result : ResultSet}
    (hcount : procedure.shape ≠ .rowCount)
    (hvalue : ∀ hostType, procedure.shape ≠ .value hostType)
    (hresult : procedure.results[index]? = some result) :
    procedure.plan.Fits procedure.results.length index result
      (procedure.resultSetRead procedure.results.length index result) := by
  obtain ⟨shape, hshape, h⟩ := procedure.exists_hasShape
  have hplan : procedure.plan.shape = shape := hshape
  have hbundle : procedure.plan.bundleClass = bundleClass? shape := congrArg bundleClass? hshape
  cases h with
  | rowCount => exact absurd hshape hcount
  | value => exact absurd hshape (hvalue _)
  | values only column hresults hcolumns hrow =>
    -- Bare values: there is no class to fill, and no bundle.
    obtain ⟨rfl, rfl⟩ : index = 0 ∧ only = result := by
      simpa [hresults, List.getElem?_singleton] using hresult
    have hclasses : procedure.plan.rowClasses = [] := by
      show procedure.rowClasses = []
      simp [rowClasses, hshape]
    rw [hresults, List.length_singleton, procedure.resultSetRead_of_value hcolumns]
    exact
      { itemType := by rw [hplan]; rfl
        bundleProperty := by rw [hbundle]; rfl
        ordinals := ordinals_columnRead true _
        properties := by
          rw [hclasses, properties_columnRead, hcolumns]
          rfl
        advances := by simp [hbundle, bundleClass?]
        gathersRows := by simp [hplan, hrow] }
  | row only hresults hcolumns hrow | rows only hresults hcolumns hrow =>
    -- One class and no bundle; the two shapes differ in nothing but the number of rows.
    obtain ⟨rfl, rfl⟩ : index = 0 ∧ only = result := by
      simpa [hresults, List.getElem?_singleton] using hresult
    have hclasses : procedure.rowClasses = procedure.results.mapIdx procedure.rowClass := by
      simp [rowClasses, hshape]
    have hproperties := properties_of_rowClass hclasses hresult
    rw [hresults, List.length_singleton, procedure.resultSetRead_of_row hcolumns]
    exact
      { itemType := by rw [hplan]; rfl
        bundleProperty := by rw [hbundle]; rfl
        ordinals := ordinals_columnRead false _
        properties := hproperties
        advances := by simp [hbundle, bundleClass?]
        gathersRows := by simp [hplan, hrow] }
  | bundle hresults =>
    -- The columns and rows of a result set do not matter any more once there are several.
    obtain ⟨hindex, -⟩ := List.getElem?_eq_some_iff.mp hresult
    have hclasses : procedure.rowClasses = procedure.results.mapIdx procedure.rowClass := by
      simp [rowClasses, hshape]
    have hproperties := properties_of_rowClass hclasses hresult
    rw [procedure.resultSetRead_of_several index result hresults]
    exact
      { itemType := by
          rw [hplan]
          simp [ReturnShape.itemType?, ReturnShape.rowClassNames, hindex]
        bundleProperty := by
          rw [hbundle]
          simp [bundleClass?, hindex]
        ordinals := ordinals_columnRead false _
        properties := hproperties
        advances := by simp [hbundle, bundleClass?]
        gathersRows := by simp [hplan] }

/-! ## Execution -/

theorem execution_eq_reader {procedure : Procedure} {reads : List ResultSetRead}
    (h : procedure.execution = .reader reads) :
    procedure.shape ≠ .rowCount ∧ (∀ hostType, procedure.shape ≠ .value hostType) ∧
      reads = procedure.results.mapIdx (procedure.resultSetRead procedure.results.length) := by
  unfold execution at h
  split at h <;> simp_all

theorem execution_eq_withoutRows_iff (procedure : Procedure) :
    procedure.execution = .withoutRows ↔ procedure.shape = .rowCount := by
  unfold execution
  cases procedure.shape <;> simp

theorem execution_eq_singleValue_iff (procedure : Procedure) (castType : String) :
    procedure.execution = .singleValue castType ↔ procedure.shape = .value castType := by
  unfold execution
  cases procedure.shape <;> simp [eq_comm]

end Procedure

/-! ## Table parameters -/

/-- Only host types that can hold a null have the mark for one. -/
theorem TypeRow.IsListed.endsWith_hostStripped {row : TypeRow} (h : row.IsListed) :
    Text.endsWith "?" row.hostStripped = false := by
  have hrows : ∀ row ∈ Catalog.rows, Text.endsWith "?" row.hostStripped = false := by decide
  rcases h with h | rfl
  · exact hrows row h
  · decide

namespace Procedure

theorem recordField_nullPolicy_iff {column : Column} (h : column.type.IsListed) (ordinal : Nat) :
    (recordField column ordinal).nullPolicy = .whenPresent ↔
      Text.endsWith "?" (columnProperty column).hostType = true := by
  cases hnull : column.isNullable <;>
    simp [recordField, columnProperty, TypeRow.hostType, TypeRow.isNullableValueType, hnull,
      h.endsWith_hostStripped]

theorem isCoherent_of_tablePlan? {procedure : Procedure} {parameter : Parameter} {table : TablePlan}
    (htypes : ∀ shape, parameter.shape? = some shape →
      ∀ column ∈ shape.columns, column.type.IsListed)
    (h : procedure.tablePlan? parameter = some table) : table.IsCoherent := by
  obtain ⟨shape, hshape, rfl⟩ := Option.map_eq_some_iff.mp h
  refine ⟨?names, ?ordinals, ?policies⟩
  case names =>
    apply List.ext_getElem <;> simp [recordField, columnProperty]
  case ordinals =>
    apply List.ext_getElem <;> simp [recordField]
  case policies =>
    refine List.forall₂_iff_get.mpr ⟨by simp, fun index hindex _ => ?_⟩
    have hcolumn : index < shape.columns.length := by simpa using hindex
    simpa using recordField_nullPolicy_iff
      (htypes shape hshape _ (List.getElem_mem hcolumn)) index

theorem tables_eq_parameters (procedure : Procedure) (parameters : List Parameter) :
    (parameters.filterMap procedure.tablePlan?).map
        (fun table => (table.parameter, sequenceOf table.rowClass.name)) =
      ((parameters.map procedure.methodParameter).filter (·.holdsTable)).map
        fun parameter => (parameter.name, parameter.hostType) := by
  induction parameters with
  | nil => rfl
  | cons parameter rest ih =>
    cases hkind : parameter.kind <;>
      simp [tablePlan?, methodParameter, Parameter.shape?, parameterType, hkind, ih]

/-! ## The whole plan -/

/-- The parts of every plan agree. The types of the columns of table parameters have to be listed;
all other columns can have any type. -/
theorem plan_isCoherent (procedure : Procedure)
    (htypes : ∀ parameter ∈ procedure.parameters, ∀ shape, parameter.shape? = some shape →
      ∀ column ∈ shape.columns, column.type.IsListed) :
    procedure.plan.IsCoherent procedure := by
  refine
    { rowClasses := procedure.names_rowClasses
      bundle_isSome := procedure.bundleClass?_isSome_iff
      bundleProperties := ?bundleProperties
      withoutRows := procedure.execution_eq_withoutRows_iff
      singleValue := procedure.execution_eq_singleValue_iff
      returnType := ?returnType
      reads := ?reads
      tables := ?tables
      tableParameters := procedure.tables_eq_parameters procedure.parameters }
  case bundleProperties =>
    intro bundle hbundle
    have hseveral : 2 ≤ procedure.results.length :=
      procedure.bundleClass?_isSome_iff.mp (Option.isSome_of_eq_some hbundle)
    exact ⟨length_rowClasses_of_bundle hseveral, bundleClass?_properties hbundle⟩
  case returnType =>
    intro hostType hshape
    simp [CodePlan.returnType, hshape, ReturnShape.returnType]
  case reads =>
    intro reads hreads
    obtain ⟨hcount, hvalue, rfl⟩ := execution_eq_reader hreads
    refine ⟨List.length_mapIdx, fun index result read hresult hread => ?_⟩
    obtain rfl : procedure.resultSetRead procedure.results.length index result = read := by
      -- The reads are built in the order of the results, so the one at `index` is the one of this
      -- result.
      simpa [List.getElem?_mapIdx, hresult] using hread
    exact resultSetRead_fits hcount hvalue hresult
  case tables =>
    intro table htable
    obtain ⟨parameter, hparameter, hplan⟩ := List.mem_filterMap.mp htable
    exact isCoherent_of_tablePlan? (htypes parameter hparameter) hplan

/-- The only column of a result set is a property as soon as there is another result set, even if
that has no columns at all. -/
theorem plan_isCoherent_of_two_results :
    ∃ procedure : Procedure,
      procedure.results.map (·.columns.length) = [1, 0] ∧
      procedure.plan.tables.map (fun table => table.fields.map (·.nullPolicy)) =
        [[.direct, .whenPresent]] ∧
      (∀ parameter ∈ procedure.parameters, ∀ shape, parameter.shape? = some shape →
        ∀ column ∈ shape.columns, column.type.IsListed) ∧
      procedure.plan.IsCoherent procedure := by
  let int : TypeRow :=
    ⟨"int", "Int32?", "Int32", "Int", some "GetInt32", some "GetSqlInt32", "Int32"⟩
  let shape : Relation := ⟨"dbo", "pair",
    [{ name := "id", type := int, isNullable := false },
      { name := "weight", type := int, isNullable := true }]⟩
  let procedure : Procedure :=
    { schema := "dbo", name := "sort", declaredName := "sort"
      parameters := [⟨"pairs", false, none, .table shape⟩]
      results := [⟨[⟨"id", int, false, .column "pair" "id"⟩], true, []⟩, ⟨[], false, []⟩] }
  have hint : int.IsListed := .inl (by decide)
  have htypes : ∀ parameter ∈ procedure.parameters, ∀ shape, parameter.shape? = some shape →
      ∀ column ∈ shape.columns, column.type.IsListed := by
    simp [procedure, Parameter.shape?, shape, hint]
  exact ⟨procedure, rfl, by decide, htypes, procedure.plan_isCoherent htypes⟩

end Procedure

end SchemaPlan
