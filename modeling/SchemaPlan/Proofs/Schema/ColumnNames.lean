import SchemaPlan.Proofs.Procedure.Loaded
import SchemaPlan.Proofs.Resolve.Distinct
import SchemaPlan.Proofs.Schema.Keys
import SchemaPlan.Proofs.View.Columns

/-!
# Names of the columns of an object

A table or a table type with two columns of one name does not load, whatever the case of the names.
The columns of a view have the names that its query gives them, which differ, until the view puts
its own names in front of them. No one compares those, so that a view can end up with two columns of
one name: exactly if it gives a name twice, or gives one that a later column of its query has.
-/

namespace SchemaPlan

open SchemaPlan.Sql SchemaPlan.Query

/-- Names that differ from each other without regard to ASCII case. -/
def Differ (names : List String) : Prop :=
  names.Pairwise fun name other => Text.sameText name other = false

instance (names : List String) : Decidable (Differ names) :=
  inferInstanceAs (Decidable (names.Pairwise _))

/-- The names of the columns of an object. -/
def Relation.columnNames (object : Relation) : List String := object.columns.map (·.name)

/-! ## Tables and table types -/

section Build

variable {defs : Definitions} {aliases : List AliasType} {keyColumns : List String}

/-- Columns that are built have names that are new and differ from each other. -/
theorem differ_of_buildColumns {object : String} {seen : List String}
    {definitions : List ColumnDefinition} {columns : List Column}
    (h : buildColumns defs aliases object keyColumns seen definitions = .ok columns) :
    Differ (columns.map (·.name)) ∧
      ∀ name ∈ columns.map (·.name), ∀ other ∈ seen, Text.sameText other name = false := by
  induction definitions generalizing seen columns with
  | nil =>
    obtain rfl := Except.ok.inj h
    exact ⟨List.Pairwise.nil, List.forall_mem_nil _⟩
  | cons definition rest ih =>
    obtain ⟨hunseen, column, more, hcolumn, hmore, rfl⟩ := buildColumns_cons_eq_ok h
    obtain ⟨hdiffer, hnew⟩ := ih hmore
    have hname : column.name = definition.name := (buildColumn_eq_ok hcolumn).1
    rw [List.map_cons, hname]
    -- The rest was built with the first name among those seen, so that its names differ from it.
    refine ⟨List.pairwise_cons.mpr ⟨fun other hother => ?_, hdiffer⟩,
      List.forall_mem_cons.mpr ⟨hunseen, fun name hmem other hother => ?_⟩⟩
    · exact hnew other hother definition.name List.mem_cons_self
    · exact hnew name hmem other (List.mem_cons_of_mem _ hother)

theorem differ_of_buildRelation {definition : TableDefinition} {object : Relation}
    (h : buildRelation defs aliases keyColumns definition = .ok object) :
    Differ object.columnNames := by
  obtain ⟨columns, hcolumns, h⟩ := bind_eq_ok.mp h
  obtain rfl := Except.ok.inj h
  exact (differ_of_buildColumns hcolumns).1

/-- The tables and table types that are built have columns of different names. -/
theorem differ_of_buildTables {schema : SchemaModel} (h : buildTables defs = .ok schema) :
    ∀ object ∈ schema.tables ++ schema.tableTypes, Differ object.columnNames := by
  obtain ⟨aliases, shapes, tables, -, hshapes, htables, rfl⟩ := buildTables_eq_ok.mp h
  intro object hobject
  rcases List.mem_append.mp hobject with hobject | hobject
  · obtain ⟨table, htable, rfl⟩ := List.mem_map.mp hobject
    obtain ⟨definition, hbuilt⟩ := exists_mem_of_forall₂ (forall₂_of_mapM htables) htable
    have hdiffer := differ_of_buildRelation hbuilt.2
    rw [Relation.columnNames] at hdiffer ⊢
    simpa [withRelationships, Function.comp_def] using hdiffer
  · obtain ⟨definition, hbuilt⟩ := exists_mem_of_forall₂ (forall₂_of_mapM hshapes) hobject
    exact differ_of_buildRelation hbuilt.2

end Build

/-! ## Views -/

/-- The names that a view gives to its columns, of which it may list more than it has columns. -/
def ViewDefinition.givenNames (definition : ViewDefinition) (view : Relation) : List String :=
  definition.columns.take view.columns.length

/-- The names that the columns of a view keep from its query, as the view gives them none. -/
def ViewDefinition.keptNames (definition : ViewDefinition) (view : Relation) : List String :=
  view.columnNames.drop definition.columns.length

/-- A view gives no name twice, and none that a column of its query keeps. -/
structure ViewDefinition.NamesApart (definition : ViewDefinition) (view : Relation) : Prop where
  given : Differ (definition.givenNames view)
  kept : ∀ name ∈ definition.givenNames view, ∀ other ∈ definition.keptNames view,
    Text.sameText name other = false

theorem map_name_renameColumns (names : List String) (columns : List ResultColumn) :
    (renameColumns names columns).map (·.name) =
      names.take columns.length ++ (columns.map (·.name)).drop names.length := by
  induction names generalizing columns with
  | nil => simp [renameColumns]
  | cons name names ih =>
    cases columns with
    | nil => simp [renameColumns]
    | cons column columns => exact congrArg (name :: ·) (ih columns)

/-- Names with different lower cases differ in more than the case of ASCII letters. -/
theorem differ_of_nodup_lower {names : List String} (h : (names.map Text.lower).Nodup) :
    Differ names := by
  refine (List.pairwise_map.mp h).imp fun {name other} hlower => ?_
  refine Bool.eq_false_iff.mpr fun hsame => hlower ?_
  rw [← Text.lower_asciiLower name, ← Text.lower_asciiLower other, (Text.sameText_iff _ _).mp hsame]

/-- The columns of a view have the names that it gives and behind these the ones of its query. They
differ exactly if the given names are kept apart from each other and from these. -/
theorem differ_viewOf_iff {defs : Definitions} {definition : ViewDefinition} {r : Resolver}
    {columns : List ResultColumn} (h : r.columns definition.query = .ok columns) :
    let view := viewOf defs definition columns
    view.columnNames = definition.givenNames view ++ definition.keptNames view ∧
      (Differ view.columnNames ↔ definition.NamesApart view) := by
  intro view
  have hnames : view.columnNames = definition.columns.take columns.length ++
      (columns.map (·.name)).drop definition.columns.length := by
    rw [← map_name_renameColumns, Relation.columnNames]
    exact List.map_map
  have hlength : view.columns.length = columns.length := by
    have hcount := congrArg List.length hnames
    simp only [Relation.columnNames, List.length_map, List.length_append, List.length_take,
      List.length_drop] at hcount
    omega
  have hkept : definition.keptNames view =
      (columns.map (·.name)).drop definition.columns.length := by
    rw [ViewDefinition.keptNames, hnames, List.drop_append, List.drop_take,
      List.drop_length, List.take_nil, List.nil_append, List.length_take]
    rcases Nat.le_total definition.columns.length columns.length with hle | hle
    · rw [Nat.min_eq_right hle, Nat.sub_self, List.drop_zero]
    · -- Every column is given a name, and none keeps its own.
      have hnone : (columns.map (·.name)).drop definition.columns.length = [] :=
        List.drop_eq_nil_of_le (by simpa using hle)
      rw [hnone, List.drop_nil]
  have hgiven : definition.givenNames view = definition.columns.take columns.length := by
    rw [ViewDefinition.givenNames, hlength]
  -- The query's own names are distinct to begin with, so the kept ones are.
  have hquery : Differ (definition.keptNames view) := by
    have hnodup := Resolver.nodup_columns h
    rw [hkept]
    refine (differ_of_nodup_lower ?_).sublist (List.drop_sublist _ _)
    rw [List.map_map]
    exact hnodup
  rw [← hgiven, ← hkept] at hnames
  refine ⟨hnames, ?_⟩
  -- What is left to compare are the given names with each other and with the kept ones.
  rw [hnames, Differ, List.pairwise_append]
  constructor
  · rintro ⟨hfirst, -, hcross⟩
    exact ⟨hfirst, hcross⟩
  · rintro ⟨hfirst, hcross⟩
    exact ⟨hfirst, hquery, hcross⟩

/-- The views of a model are built from their definitions one by one. -/
theorem forall₂_of_buildViews {defs : Definitions} {schema : SchemaModel} {views : List Relation}
    (hnames : defs.checkNames = .ok ()) (h : buildViews defs schema = .ok views) :
    List.Forall₂ (fun definition view => ∃ resolved,
      buildView defs (viewCatalog schema resolved) definition = .ok view) defs.views views := by
  have hnodup := Definitions.nodup_viewKeys hnames
  -- Every resolved view was built from the definition of its key.
  have hbuild : ∀ {resolved key definition view},
      (∀ key view, findView? resolved key = some view → ∃ definition earlier,
        findDefinition? defs defs.views key = some definition ∧
        buildView defs (viewCatalog schema earlier) definition = .ok view) →
      Ready defs resolved key definition →
      buildView defs (viewCatalog schema resolved) definition = .ok view →
      ∀ other found, findView? (⟨key, view⟩ :: resolved) other = some found →
        ∃ definition earlier, findDefinition? defs defs.views other = some definition ∧
          buildView defs (viewCatalog schema earlier) definition = .ok found := by
    intro resolved key definition view hresolved hready hview other found hfound
    by_cases hkey : key = other
    · subst hkey
      rw [findView?_cons_self] at hfound
      obtain rfl := Option.some.inj hfound
      exact ⟨definition, resolved, hready.found, hview⟩
    · rw [findView?_cons_of_ne hkey] at hfound
      exact hresolved other found hfound
  have houtcome := buildViews_outcome hbuild (fun _ _ hnone => nomatch hnone)
  rw [h] at houtcome
  obtain ⟨final, hfinal, hdone, rfl⟩ := houtcome
  refine forall₂_of_findView? hdone ?_
  intro definition hmem view hview
  obtain ⟨definition', earlier, hfound, hbuilt⟩ := hfinal _ view hview
  obtain rfl := Option.some.inj ((findDefinition?_keyOf hnodup hmem).symm.trans hfound)
  exact ⟨earlier, hbuilt⟩

/-! ## Loaded models -/

/-- In a loaded model the columns of every table and every table type have different names. The
columns of a view have the names that it gives and behind these the ones of its query, and they
differ exactly if the view gives no name twice and none that a column of its query keeps. -/
theorem columnNames_differ_iff {options : LoadOptions} {statements : List Statement}
    {loaded : LoadedModel} (h : buildModel options statements = .ok loaded) :
    (∀ object ∈ loaded.model.tables ++ loaded.model.tableTypes, Differ object.columnNames) ∧
    List.Forall₂ (fun definition view =>
        view.columnNames = definition.givenNames view ++ definition.keptNames view ∧
        (Differ view.columnNames ↔ definition.NamesApart view))
      (Definitions.ofStatements options.defaultSchema statements).views loaded.model.views := by
  obtain ⟨schema, views, hnames, htables, hviews, rfl⟩ := buildModel_eq_ok.mp h
  refine ⟨?_, ?_⟩
  · have hdiffer := differ_of_buildTables htables
    exact hdiffer
  refine (forall₂_of_buildViews hnames hviews).imp ?_
  rintro definition view ⟨resolved, hview⟩
  obtain ⟨columns, hcolumns, rfl⟩ := buildView_eq_ok.mp hview
  exact differ_viewOf_iff hcolumns

/-- A view that gives a name to the first of its columns only, beside a table and a table type. -/
theorem columnNames_differ_of_partial_list :
    ∃ statements loaded, statementsOf?
        ["create table t (id int, code int)",
          "create type s as table (id int, [Code] int)",
          "create view v (number) as select id, code from t"] = some statements ∧
      buildModel {} statements = .ok loaded ∧
      (∃ table ∈ loaded.model.tables ++ loaded.model.tableTypes,
        table.columnNames = ["id", "Code"] ∧ Differ table.columnNames) ∧
      ∃ (definition : ViewDefinition) (view : Relation), definition.NamesApart view ∧
        view.columnNames = ["number", "code"] ∧ Differ view.columnNames := by
  obtain ⟨statements, loaded, hstatements, hloaded, htest⟩ :=
    exists_loaded_of_any
      ["create table t (id int, code int)",
        "create type s as table (id int, [Code] int)",
        "create view v (number) as select id, code from t"]
      (fun _ loaded => (loaded.model.tables ++ loaded.model.tableTypes).any
          (fun object => object.columnNames == ["id", "Code"]) &&
        loaded.model.views.any fun view => view.columnNames == ["number", "code"])
      (by decide +kernel)
  obtain ⟨hobject, hview⟩ := Bool.and_eq_true_iff.mp htest
  obtain ⟨object, hobject, hnames⟩ := List.any_eq_true.mp hobject
  obtain ⟨view, hview, hviewNames⟩ := List.any_eq_true.mp hview
  have hviewNames := beq_iff_eq.mp hviewNames
  obtain ⟨hobjects, hviews⟩ := columnNames_differ_iff hloaded
  obtain ⟨definition, -, -, hdiffer⟩ := exists_mem_of_forall₂ hviews hview
  have happart : Differ view.columnNames := by
    rw [hviewNames]
    decide
  exact ⟨statements, loaded, hstatements, hloaded,
    ⟨object, hobject, beq_iff_eq.mp hnames, hobjects object hobject⟩,
    definition, view, hdiffer.mp happart, hviewNames, happart⟩

/-- A view that gives one name to both of its columns loads, and so does one that gives a column the
name of the next. -/
theorem not_differ_of_given_names :
    ∃ statements loaded, statementsOf?
        ["create view v (a, A) as select 1 as x, 2 as y",
          "create view w (y) as select 1 as x, 2 as y"] = some statements ∧
      buildModel {} statements = .ok loaded ∧
      loaded.model.views.map Relation.columnNames = [["a", "A"], ["y", "y"]] ∧
      ∀ view ∈ loaded.model.views, ¬ Differ view.columnNames := by
  obtain ⟨statements, loaded, hstatements, hloaded, htest⟩ :=
    exists_loaded_of_any
      ["create view v (a, A) as select 1 as x, 2 as y",
        "create view w (y) as select 1 as x, 2 as y"]
      (fun _ loaded => loaded.model.views.map Relation.columnNames == [["a", "A"], ["y", "y"]])
      (by decide +kernel)
  have hnames := beq_iff_eq.mp htest
  refine ⟨statements, loaded, hstatements, hloaded, hnames, fun view hview => ?_⟩
  have hmem : view.columnNames ∈ [["a", "A"], ["y", "y"]] := by
    rw [← hnames]
    exact List.mem_map_of_mem hview
  have hrepeats : ∀ names ∈ [["a", "A"], ["y", "y"]], ¬ Differ names := by decide
  exact hrepeats _ hmem

end SchemaPlan
