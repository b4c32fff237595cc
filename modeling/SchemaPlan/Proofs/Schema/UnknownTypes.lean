import SchemaPlan.Proofs.Procedure.Loaded
import SchemaPlan.Proofs.Resolve.Provenance
import SchemaPlan.Proofs.Schema.Keys
import SchemaPlan.Proofs.View.Columns

/-!
# Unknown types in a model

Where the type of a column cannot be told, nothing is said about its nulls either. Computed columns
are the only ones of tables and table types without a type, and they may be null. Views and result
sets take their columns from queries, which keep unknown types nullable, so the same holds in all of
a loaded model, and what it offers to a query satisfies what the provenance of columns relies on.

* `unknownIsNullable_of_buildColumn`: the columns that are declared.
* `hasNullableUnknowns_of_buildViews`: the views, by the order in which they are resolved.
* `unknownTypes_nullable_and_traced`: loaded models, and queries over them.
-/

namespace SchemaPlan

open SchemaPlan.Sql SchemaPlan.Query

/-! ## Declared columns -/

/-- Every type of the catalog is known. -/
theorem isUnknown_of_builtInRow? {declared : DeclaredType} {type : TypeRow}
    (h : builtInRow? declared = some type) : type.isUnknown = false := by
  have hrows : ∀ row ∈ Catalog.rows, row.isUnknown = false := by decide
  unfold builtInRow? at h
  split at h
  · exact hrows type (List.mem_of_find?_eq_some h)
  · cases h

theorem isUnknown_of_aliasType {defs : Definitions} {scalar : ScalarTypeDefinition}
    {label : AliasType} (h : aliasType defs scalar = .ok label) : label.type.isUnknown = false := by
  unfold aliasType at h
  dsimp only at h
  split at h
  · rename_i type htype
    obtain rfl := Except.ok.inj h
    exact isUnknown_of_builtInRow? htype
  · cases h

section Columns

variable {defs : Definitions} {aliases : List AliasType}

/-- A declared type is a known one, be it built in or an alias. -/
theorem isUnknown_of_resolveType? {defaultSchema : String} {declared : DeclaredType}
    {type : TypeRow} {label : Option AliasType}
    (haliases : ∀ label ∈ aliases, label.type.isUnknown = false)
    (h : resolveType? defaultSchema aliases declared = some (type, label)) :
    type.isUnknown = false := by
  unfold resolveType? at h
  split at h
  · rename_i row hrow
    obtain ⟨rfl, -⟩ := Prod.mk.inj (Option.some.inj h)
    exact isUnknown_of_builtInRow? hrow
  · obtain ⟨found, hfound, hpair⟩ := Option.map_eq_some_iff.mp h
    obtain ⟨rfl, -⟩ := Prod.mk.inj hpair
    exact haliases found (List.mem_of_find?_eq_some hfound)

/-- Only a column without a declared type is of unknown type, and such a column may be null. -/
theorem unknownIsNullable_of_buildColumn {object : String} {definition : ColumnDefinition}
    {isKey : Bool} {column : Column} (haliases : ∀ label ∈ aliases, label.type.isUnknown = false)
    (h : buildColumn defs aliases object definition isKey = .ok column) :
    UnknownIsNullable column.type column.isNullable := by
  unfold buildColumn at h
  dsimp only at h
  split at h
  · obtain rfl := Except.ok.inj h
    exact fun _ => rfl
  · split at h
    · cases h
    · rename_i type label hresolve
      obtain rfl := Except.ok.inj h
      intro hunknown
      rw [isUnknown_of_resolveType? haliases hresolve] at hunknown
      cases hunknown

/-- All columns of unknown type of a relation may be null. -/
def Relation.HasNullableUnknowns (relation : Relation) : Prop :=
  NullableUnknowns (relation.columns.map Column.toSource)

theorem hasNullableUnknowns_of_buildRelation {keyColumns : List String}
    {definition : TableDefinition} {relation : Relation}
    (haliases : ∀ label ∈ aliases, label.type.isUnknown = false)
    (h : buildRelation defs aliases keyColumns definition = .ok relation) :
    relation.HasNullableUnknowns := by
  unfold buildRelation at h
  obtain ⟨columns, hcolumns, h⟩ := bind_eq_ok.mp h
  obtain rfl := Except.ok.inj h
  intro source hsource
  obtain ⟨column, hcolumn, rfl⟩ := List.mem_map.mp hsource
  obtain ⟨_, -, hbuilt⟩ := exists_mem_of_forall₂ (forall₂_of_buildColumns hcolumns) hcolumn
  exact unknownIsNullable_of_buildColumn haliases hbuilt

end Columns

/-- Relationships change neither types nor nulls. -/
theorem Relation.HasNullableUnknowns.withRelationships {table : Relation}
    (h : table.HasNullableUnknowns) (index : RelationshipIndex) :
    (SchemaPlan.withRelationships index table).HasNullableUnknowns := by
  unfold HasNullableUnknowns SchemaPlan.withRelationships
  rw [List.map_map]
  exact h

/-! ## Models -/

/-- All columns of unknown type of a model may be null. -/
structure SchemaModel.HasNullableUnknowns (model : SchemaModel) : Prop where
  tables : ∀ table ∈ model.tables, table.HasNullableUnknowns
  views : ∀ view ∈ model.views, view.HasNullableUnknowns
  tableTypes : ∀ shape ∈ model.tableTypes, shape.HasNullableUnknowns
  results : ∀ procedure ∈ model.procedures, ∀ result ∈ procedure.results,
    NullableUnknowns (result.columns.map ResultColumn.toSource)

theorem hasNullableUnknowns_of_buildTables {defs : Definitions} {schema : SchemaModel}
    (h : buildTables defs = .ok schema) : schema.HasNullableUnknowns := by
  obtain ⟨aliases, shapes, tables, haliasTypes, hshapes, htables, rfl⟩ := buildTables_eq_ok.mp h
  have haliases : ∀ label ∈ aliases, label.type.isUnknown = false := by
    intro label hlabel
    obtain ⟨_, -, hlabel⟩ := exists_mem_of_forall₂ (forall₂_of_mapM haliasTypes) hlabel
    exact isUnknown_of_aliasType hlabel
  refine ⟨?tables, nofun, ?tableTypes, nofun⟩
  case tables =>
    intro table htable
    obtain ⟨bare, hbare, rfl⟩ := List.mem_map.mp htable
    obtain ⟨_, -, hbuilt⟩ := exists_mem_of_forall₂ (forall₂_of_mapM htables) hbare
    exact (hasNullableUnknowns_of_buildRelation haliases hbuilt).withRelationships _
  case tableTypes =>
    intro shape hshape
    obtain ⟨_, -, hbuilt⟩ := exists_mem_of_forall₂ (forall₂_of_mapM hshapes) hshape
    exact hasNullableUnknowns_of_buildRelation haliases hbuilt

theorem SchemaModel.HasNullableUnknowns.objectColumns? {model : SchemaModel}
    (h : model.HasNullableUnknowns) {schema name : String} {columns : List Column}
    (hcolumns : model.objectColumns? schema name = some columns) :
    NullableUnknowns (columns.map Column.toSource) := by
  rcases Option.or_eq_some_iff.mp hcolumns with hcolumns | ⟨-, hcolumns⟩
  · obtain ⟨table, htable, rfl⟩ := Option.map_eq_some_iff.mp hcolumns
    exact h.tables table (List.mem_of_find?_eq_some htable)
  · obtain ⟨view, hview, rfl⟩ := Option.map_eq_some_iff.mp hcolumns
    exact h.views view (List.mem_of_find?_eq_some hview)

/-! ## Views -/

/-- Columns of a view are renamed as columns of a source are. -/
theorem map_toSource_renameColumns (names : List String) (columns : List ResultColumn) :
    (renameColumns names columns).map ResultColumn.toSource =
      renamed names (columns.map ResultColumn.toSource) := by
  induction columns generalizing names with
  | nil => cases names <;> rfl
  | cons column rest ih =>
    cases names with
    | nil => rfl
    | cons name names => exact congrArg (List.cons _) (ih names)

/-- A view that is built from relations with nullable unknowns has nullable unknowns. -/
theorem hasNullableUnknowns_of_buildView {defs : Definitions} {schema : SchemaModel}
    {resolved : List ResolvedView} {definition : ViewDefinition} {view : Relation}
    (hschema : schema.HasNullableUnknowns)
    (hresolved : ∀ entry ∈ resolved, entry.view.HasNullableUnknowns)
    (h : buildView defs (viewCatalog schema resolved) definition = .ok view) :
    view.HasNullableUnknowns := by
  obtain ⟨columns, hcolumns, rfl⟩ := buildView_eq_ok.mp h
  obtain ⟨outcome, houtcome, hcolumns⟩ := bind_eq_ok.mp hcolumns
  obtain rfl := Except.ok.inj hcolumns
  have hr : (⟨viewCatalog schema resolved, []⟩ : Resolver).HasNullableUnknowns := by
    refine ⟨fun _ _ columns hfound => ?_, nofun⟩
    rcases Option.or_eq_some_iff.mp hfound with hfound | ⟨-, hfound⟩
    · exact hschema.objectColumns? hfound
    · obtain ⟨other, hother, rfl⟩ := Option.map_eq_some_iff.mp hfound
      exact hresolved _ (mem_of_findView? hother)
  have hnullable := (nullable_of_query hr definition.query (List.forall_mem_nil _) houtcome).renamed
    definition.columns
  rw [← map_toSource_renameColumns] at hnullable
  unfold Relation.HasNullableUnknowns viewOf
  rw [List.map_map]
  exact hnullable

theorem hasNullableUnknowns_of_buildViews {defs : Definitions} {schema : SchemaModel}
    {views : List Relation} (hschema : schema.HasNullableUnknowns)
    (h : buildViews defs schema = .ok views) : ∀ view ∈ views, view.HasNullableUnknowns := by
  -- A view can name tables and the views resolved before it, and these are all nullable unknowns.
  have hbuild : ∀ {resolved key definition view},
      (∀ entry ∈ resolved, entry.view.HasNullableUnknowns) →
      Ready defs resolved key definition →
      buildView defs (viewCatalog schema resolved) definition = .ok view →
      ∀ entry ∈ (⟨key, view⟩ :: resolved : List ResolvedView), entry.view.HasNullableUnknowns :=
    fun hresolved _ hview => List.forall_mem_cons.mpr
      ⟨hasNullableUnknowns_of_buildView hschema hresolved hview, hresolved⟩
  have houtcome := buildViews_outcome hbuild (List.forall_mem_nil _)
  rw [h] at houtcome
  obtain ⟨final, hfinal, -, rfl⟩ := houtcome
  intro view hview
  obtain ⟨key, -, hfound⟩ := List.mem_filterMap.mp hview
  exact hfinal _ (mem_of_findView? hfound)

/-! ## Procedures -/

/-- A parameter that holds a table has the shape of a table type. -/
theorem mem_tableTypes_of_buildParameter {model : SchemaModel} {definition : ParameterDefinition}
    {shape : Relation} (h : (buildParameter model definition).shape? = some shape) :
    shape ∈ model.tableTypes := by
  unfold buildParameter Parameter.shape? at h
  dsimp only at h
  cases hfound : model.tableType? (definition.type.schema.getD model.defaultSchema)
      definition.type.name with
  | none =>
    rw [hfound] at h
    cases h
  | some found =>
    rw [hfound] at h
    obtain rfl := Option.some.inj h
    exact List.mem_of_find?_eq_some hfound

/-- What a procedure can name has nullable unknowns. -/
theorem SchemaModel.HasNullableUnknowns.resolver {model : SchemaModel}
    (h : model.HasNullableUnknowns) (definitions : List ParameterDefinition) :
    (⟨model.catalog, definitions.map (buildParameter model)⟩ : Resolver).HasNullableUnknowns := by
  refine ⟨fun _ _ _ hcolumns => h.objectColumns? hcolumns, ?_⟩
  intro parameter hparameter shape hshape
  obtain ⟨definition, -, rfl⟩ := List.mem_map.mp hparameter
  exact h.tableTypes shape (mem_tableTypes_of_buildParameter hshape)

theorem hasNullableUnknowns_of_buildModel {options : LoadOptions} {statements : List Statement}
    {loaded : LoadedModel} (h : buildModel options statements = .ok loaded) :
    loaded.model.HasNullableUnknowns := by
  obtain ⟨schema, views, -, hschema, hviews, rfl⟩ := buildModel_eq_ok.mp h
  have hschema := hasNullableUnknowns_of_buildTables hschema
  have hviews := hasNullableUnknowns_of_buildViews hschema hviews
  have hmodel : { schema with views }.HasNullableUnknowns :=
    ⟨hschema.tables, hviews, hschema.tableTypes, hschema.results⟩
  refine ⟨hschema.tables, hviews, hschema.tableTypes, fun procedure hprocedure result hresult => ?_⟩
  obtain ⟨definition, -, hbuild⟩ := mem_procedures_withProcedures.mp hprocedure
  obtain ⟨hparameters, hanswers⟩ := answers_of_buildProcedure hbuild
  obtain ⟨query, resolved, hquery, rfl⟩ := hanswers result hresult
  rw [hparameters] at hquery
  exact nullable_of_query (hmodel.resolver definition.parameters) query (List.forall_mem_nil _) hquery

/-! ## Loaded models and queries -/

/-- In a loaded model every column of unknown type may be null. Where this holds of all that a query
can name, it holds of the leaves that the query reads from and of its result columns, each of which
is traced to a column of such a leaf or is of unknown type. -/
theorem unknownTypes_nullable_and_traced :
    (∀ (options : LoadOptions) (statements : List Statement) (loaded : LoadedModel),
      buildModel options statements = .ok loaded → loaded.model.HasNullableUnknowns) ∧
    ∀ r : Resolver, r.HasNullableUnknowns → ∀ ctes : List CteShape,
      (∀ cte ∈ ctes, NullableUnknowns cte.columns) →
      ∀ (query : Query) (resolved : ResolvedQuery), r.query ctes query = .ok resolved →
        ∃ tables, r.ReadsFrom ctes (.nested query) tables ∧
          (∀ table ∈ tables, ∀ columns ∈ table.columns, NullableUnknowns columns) ∧
          ∀ column ∈ resolved.columns, UnknownIsNullable column.type column.isNullable ∧
            (column.IsUntraced ∨ column.IsTracedTo tables) := by
  refine ⟨fun _ _ _ h => hasNullableUnknowns_of_buildModel h, ?_⟩
  intro r hr ctes hctes query resolved h
  have hbody : r.body ctes (.nested query) = .ok resolved := by rw [Resolver.body_nested, h]
  obtain ⟨tables, hreads, htables, hcolumns⟩ := Resolver.exists_readsFrom hr _ hctes hbody
  refine ⟨tables, hreads, htables, fun column hcolumn => ⟨?_, hcolumns column hcolumn⟩⟩
  exact nullable_of_query hr query hctes h column.toSource (List.mem_map_of_mem hcolumn)

/-- A computed column stays nullable through a query in parentheses and a star. -/
theorem nullable_and_traced_of_computed_column :
    ∃ statements loaded query resolved,
      statementsOf? ["create table t (id int not null, total as (id))"] = some statements ∧
      buildModel {} statements = .ok loaded ∧ loaded.model.HasNullableUnknowns ∧
      Grammar.parseQuery "select d.*, 1 from (select total from t) d" = .ok query ∧
      (⟨loaded.model.catalog, []⟩ : Resolver).query [] query = .ok resolved ∧
      resolved.columns.map (·.provenance) = [.column "d" "total", .expression] ∧
      ∃ tables, (⟨loaded.model.catalog, []⟩ : Resolver).ReadsFrom [] (.nested query) tables ∧
        ∀ column ∈ resolved.columns, UnknownIsNullable column.type column.isNullable ∧
          (column.IsUntraced ∨ column.IsTracedTo tables) := by
  obtain ⟨statements, loaded, hstatements, hloaded, htest⟩ :=
    exists_loaded_of_any ["create table t (id int not null, total as (id))"]
      (fun _ loaded => (Grammar.parseQuery "select d.*, 1 from (select total from t) d").toOption.any
        fun query => ((⟨loaded.model.catalog, []⟩ : Resolver).query [] query).toOption.any
          fun resolved => resolved.columns.map (·.provenance) == [.column "d" "total", .expression])
      (by decide +kernel)
  obtain ⟨query, hquery, htest⟩ := (Option.any_eq_true _ _).mp htest
  obtain ⟨resolved, hresolved, htest⟩ := (Option.any_eq_true _ _).mp htest
  have hresolved := toOption_eq_some hresolved
  obtain ⟨hmodels, hqueries⟩ := unknownTypes_nullable_and_traced
  have hmodel := hmodels {} statements loaded hloaded
  obtain ⟨tables, hreads, -, hcolumns⟩ :=
    hqueries _ (hmodel.resolver []) [] (List.forall_mem_nil _) query resolved hresolved
  exact ⟨statements, loaded, query, resolved, hstatements, hloaded, hmodel, toOption_eq_some hquery,
    hresolved, beq_iff_eq.mp htest, tables, hreads, hcolumns⟩

end SchemaPlan
