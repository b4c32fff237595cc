import SchemaPlan.Proofs.Resolve.Leaves

/-!
# The provenance of result columns

A result column is either traced to a column of a leaf, whose type it takes and whose nulls it
admits, or nothing is known of it: its type is unknown, it may be null, and its provenance names no
column. So no query turns a column of unknown type into one that holds no nulls, whatever common
table expressions, queries in parentheses and stars its columns pass through.

* `Scope.gives_items`: a scope gives columns of the two kinds only.
* `Resolver.nullable_of_query`: unknown types are nullable in all that a query passes through.
* `Resolver.exists_readsFrom`: the columns of a query against the leaves that it reads from.
-/

namespace SchemaPlan

open SchemaPlan.Query

/-! ## The columns that a scope gives -/

/-- A result column is a column of a source of the scope under some name, or it is of unknown type
and its provenance is no column. -/
inductive Scope.Gives (scope : Scope) : ResultColumn → Prop
  | untraced (name : String) {provenance : Provenance}
      (h : ∀ source column, provenance ≠ .column source column) :
      Gives scope (untracedColumn name provenance)
  | traced (name : String) {source : ScopeSource} {columns : List SourceColumn}
      {own : SourceColumn} (hsource : source ∈ scope.sources)
      (hcolumns : source.columns = some columns) (hown : own ∈ columns) :
      Gives scope (tracedColumn name source own)

theorem Scope.Gives.rename {scope : Scope} {column : ResultColumn} (h : scope.Gives column)
    (name : String) : scope.Gives { column with name } := by
  cases h with
  | untraced _ h => exact .untraced name h
  | traced _ hsource hcolumns hown => exact .traced name hsource hcolumns hown

theorem ScopeSource.mem_of_column? {source : ScopeSource} {name : String} {own : SourceColumn}
    (h : source.column? name = some own) :
    ∃ columns, source.columns = some columns ∧ own ∈ columns := by
  obtain ⟨columns, hcolumns, hfound⟩ := Option.bind_eq_some_iff.mp h
  exact ⟨columns, hcolumns, List.mem_of_find?_eq_some hfound⟩

namespace Scope

variable {scope : Scope}

theorem mem_of_sourceNamed {qualifier shown : String} {source : ScopeSource}
    (h : scope.sourceNamed qualifier shown = .ok source) : source ∈ scope.sources := by
  unfold sourceNamed at h
  dsimp only at h
  split at h
  · rename_i found hfound
    obtain rfl := Except.ok.inj h
    split at hfound
    · rename_i exposed hexposed
      obtain rfl := Option.some.inj hfound
      obtain ⟨index, -, hindex⟩ := Option.bind_eq_some_iff.mp hexposed
      exact List.mem_of_getElem? hindex
    · exact List.mem_of_find?_eq_some hfound
  · cases h

/-- A reference that stands for a column stands for a column of a source. -/
theorem mem_of_lookup {qualifier : Option String} {column shown : String} {source : ScopeSource}
    {own : SourceColumn} (h : scope.lookup qualifier column shown = .ok (.known source own)) :
    source ∈ scope.sources ∧ source.column? column = some own := by
  unfold lookup at h
  cases qualifier with
  | some qualifier =>
    obtain ⟨named, hnamed, h⟩ := bind_eq_ok.mp h
    split at h
    · cases h
    · split at h
      · rename_i found hfound
        obtain ⟨rfl, rfl⟩ := ColumnMatch.known.inj (Except.ok.inj h)
        exact ⟨mem_of_sourceNamed hnamed, hfound⟩
      · cases h
  | none =>
    dsimp only at h
    split at h
    · rename_i first found hmatches
      obtain ⟨rfl, rfl⟩ := ColumnMatch.known.inj (Except.ok.inj h)
      have hmem : (first, found) ∈ scope.matches? column := by
        rw [hmatches]
        exact List.mem_singleton.mpr rfl
      obtain ⟨_, hsource, hpair⟩ := List.mem_filterMap.mp hmem
      obtain ⟨_, hcolumn, hpair⟩ := Option.map_eq_some_iff.mp hpair
      obtain ⟨rfl, rfl⟩ := Prod.mk.inj hpair
      exact ⟨hsource, hcolumn⟩
    all_goals cases h

theorem gives_reference {qualifier label : Option String} {column shown : String}
    {result : ResultColumn} (h : scope.reference qualifier column label shown = .ok result) :
    scope.Gives result := by
  unfold reference at h
  obtain ⟨found, hfound, h⟩ := bind_eq_ok.mp h
  cases found with
  | known source own =>
    obtain rfl := Except.ok.inj h
    obtain ⟨hsource, hcolumn⟩ := mem_of_lookup hfound
    obtain ⟨columns, hcolumns, hown⟩ := ScopeSource.mem_of_column? hcolumn
    exact .traced _ hsource hcolumns hown
  | untraced source =>
    obtain rfl := Except.ok.inj h
    exact .untraced _ nofun

theorem gives_projected {expr : Expr} {label : Option String} {ordinal : Nat}
    {result : ResultColumn} (h : scope.projected expr label ordinal = .ok result) :
    scope.Gives result := by
  unfold projected at h
  dsimp only at h
  split at h
  · split at h
    · obtain rfl := Except.ok.inj h
      exact .untraced _ nofun
    · split at h
      · obtain rfl := Except.ok.inj h
        exact .untraced _ nofun
      · exact gives_reference h
  · split at h
    · exact gives_reference h
    · obtain rfl := Except.ok.inj h
      exact .untraced _ nofun
  · obtain rfl := Except.ok.inj h
    exact .untraced _ nofun

/-- A star gives columns of sources only. -/
theorem gives_allColumns {shown : String} {sources : List ScopeSource}
    {results : List ResultColumn} (hsources : ∀ source ∈ sources, source ∈ scope.sources)
    (h : allColumns shown sources = .ok results) : ∀ result ∈ results, scope.Gives result := by
  induction sources generalizing results with
  | nil =>
    obtain rfl := Except.ok.inj h
    exact nofun
  | cons source rest ih =>
    unfold allColumns at h
    split at h
    · cases h
    · rename_i columns hcolumns
      obtain ⟨more, hmore, h⟩ := bind_eq_ok.mp h
      obtain rfl := Except.ok.inj h
      intro result hresult
      rcases List.mem_append.mp hresult with hresult | hresult
      · obtain ⟨own, hown, rfl⟩ := List.mem_map.mp hresult
        exact .traced _ (hsources source List.mem_cons_self) hcolumns hown
      · exact ih (fun other hother => hsources other (List.mem_cons_of_mem _ hother)) hmore
          result hresult

theorem gives_expandStar {qualifier : Option String} {results : List ResultColumn}
    (h : scope.expandStar qualifier = .ok results) : ∀ result ∈ results, scope.Gives result := by
  unfold expandStar at h
  cases qualifier with
  | some qualifier =>
    obtain ⟨source, hsource, h⟩ := bind_eq_ok.mp h
    refine gives_allColumns (fun other hother => ?_) h
    obtain rfl := List.mem_singleton.mp hother
    exact mem_of_sourceNamed hsource
  | none =>
    dsimp only at h
    split at h
    · cases h
    · exact gives_allColumns (fun _ hsource => hsource) h

theorem gives_item {ordinal : Nat} {item : SelectItem} {results : List ResultColumn}
    (h : scope.item ordinal item = .ok results) : ∀ result ∈ results, scope.Gives result := by
  cases item with
  | unnamed expr | aliased expr label =>
    obtain ⟨column, hcolumn, h⟩ := bind_eq_ok.mp h
    obtain rfl := Except.ok.inj h
    intro result hresult
    obtain rfl := List.mem_singleton.mp hresult
    exact gives_projected hcolumn
  | wildcard | qualifiedWildcard =>
    rw [item] at h
    exact gives_expandStar h

theorem gives_items {count : Nat} {projection : List SelectItem} {results : List ResultColumn}
    (h : scope.items count projection = .ok results) :
    ∀ result ∈ results, scope.Gives result := by
  induction projection generalizing count results with
  | nil =>
    obtain rfl := Except.ok.inj h
    exact nofun
  | cons next rest ih =>
    unfold items at h
    obtain ⟨columns, hcolumns, h⟩ := bind_eq_ok.mp h
    obtain ⟨more, hmore, h⟩ := bind_eq_ok.mp h
    obtain rfl := Except.ok.inj h
    intro result hresult
    rcases List.mem_append.mp hresult with hresult | hresult
    · exact gives_item hcolumns result hresult
    · exact ih hmore result hresult

end Scope

/-- Distinct names change nothing but names. -/
theorem exists_of_mem_distinctNames {taken : List String} {columns : List ResultColumn}
    {result : ResultColumn} (h : result ∈ distinctNames taken columns) :
    ∃ column ∈ columns, ∃ name, result = { column with name } := by
  induction columns generalizing taken with
  | nil => cases h
  | cons column rest ih =>
    unfold distinctNames at h
    rcases List.mem_cons.mp h with rfl | h
    · exact ⟨column, List.mem_cons_self, _, rfl⟩
    · obtain ⟨other, hother, name, rfl⟩ := ih h
      exact ⟨other, List.mem_cons_of_mem _ hother, name, rfl⟩

/-- The columns of a select are given by its scope. -/
theorem Resolver.SelectParts.gives {r : Resolver} {ctes : List CteShape} {select : Select}
    (parts : r.SelectParts ctes select) :
    ∀ column ∈ (selectOutcome select parts.scope parts.columns).columns,
      parts.scope.Gives column := by
  intro column hcolumn
  obtain ⟨original, horiginal, name, rfl⟩ := exists_of_mem_distinctNames hcolumn
  exact (Scope.gives_items parts.items original horiginal).rename name

/-! ## Unknown types -/

/-- A value of unknown type may be null. -/
def UnknownIsNullable (type : TypeRow) (isNullable : Bool) : Prop :=
  type.isUnknown = true → isNullable = true

/-- All columns of unknown type may be null. -/
def NullableUnknowns (columns : List SourceColumn) : Prop :=
  ∀ column ∈ columns, UnknownIsNullable column.type column.isNullable

/-- All columns of unknown type that a query can name may be null. -/
structure Resolver.HasNullableUnknowns (r : Resolver) : Prop where
  objects : ∀ schema name columns, r.catalog.columns? schema name = some columns →
    NullableUnknowns (columns.map Column.toSource)
  shapes : ∀ parameter ∈ r.parameters, ∀ shape, parameter.shape? = some shape →
    NullableUnknowns (shape.columns.map Column.toSource)

theorem NullableUnknowns.renamed {columns : List SourceColumn} (h : NullableUnknowns columns)
    (names : List String) : NullableUnknowns (renamed names columns) := by
  induction columns generalizing names with
  | nil => cases names <;> exact h
  | cons column rest ih =>
    obtain ⟨hcolumn, hrest⟩ := List.forall_mem_cons.mp h
    cases names with
    | nil => exact h
    | cons name names => exact List.forall_mem_cons.mpr ⟨hcolumn, ih hrest names⟩

/-- A scope of nullable unknowns gives nullable unknowns. -/
theorem Scope.Gives.unknownIsNullable {scope : Scope} {column : ResultColumn}
    (h : scope.Gives column)
    (hsources : ∀ source ∈ scope.sources, ∀ columns ∈ source.columns, NullableUnknowns columns) :
    UnknownIsNullable column.type column.isNullable := by
  cases h with
  | untraced => exact fun _ => rfl
  | traced _ hsource hcolumns hown =>
    intro hunknown
    have hnullable := hsources _ hsource _ hcolumns _ hown hunknown
    exact Bool.or_eq_true_iff.mpr (.inl hnullable)

section Nullable

variable {r : Resolver}

theorem nullable_of_sourceColumns? (hr : r.HasNullableUnknowns) {ctes : List CteShape}
    {object : Sql.QualifiedName} {columns : List SourceColumn}
    (hctes : ∀ cte ∈ ctes, NullableUnknowns cte.columns)
    (h : r.sourceColumns? ctes object = some columns) : NullableUnknowns columns := by
  unfold Resolver.sourceColumns? at h
  split at h
  · -- A variable has the shape of the parameter of its name.
    obtain ⟨shape, hshape, rfl⟩ := Option.map_eq_some_iff.mp h
    obtain ⟨parameter, hparameter, hshape⟩ := Option.bind_eq_some_iff.mp hshape
    exact hr.shapes parameter (List.mem_of_find?_eq_some hparameter) shape hshape
  · split at h
    · cases h
    · dsimp only at h
      split at h
      · rename_i cte hcte
        obtain rfl := Option.some.inj h
        split at hcte
        · exact hctes cte (List.mem_of_find?_eq_some hcte)
        · cases hcte
      · obtain ⟨own, hown, rfl⟩ := Option.map_eq_some_iff.mp h
        exact hr.objects _ _ own hown

mutual

/-- The columns of a query keep unknown types nullable. -/
theorem nullable_of_query (hr : r.HasNullableUnknowns) :
    ∀ (query : Query) {ctes : List CteShape} {resolved : ResolvedQuery},
    (∀ cte ∈ ctes, NullableUnknowns cte.columns) → r.query ctes query = .ok resolved →
    NullableUnknowns (resolved.columns.map ResultColumn.toSource)
  | ⟨recursive, own, body, tail⟩, ctes, resolved, hctes, h => by
    obtain ⟨inner, hinner, hbody⟩ := Resolver.query_eq_ok.mp h
    exact nullable_of_body hr body (nullable_of_withCtes hr own hctes hinner) hbody

theorem nullable_of_withCtes (hr : r.HasNullableUnknowns) :
    ∀ (own : List Cte) {ctes inner : List CteShape},
    (∀ cte ∈ ctes, NullableUnknowns cte.columns) → r.withCtes ctes own = .ok inner →
    ∀ cte ∈ inner, NullableUnknowns cte.columns
  | [], ctes, inner, hctes, h => by
    rw [Resolver.withCtes] at h
    obtain rfl := Except.ok.inj h
    exact hctes
  | ⟨label, query, tail⟩ :: rest, ctes, inner, hctes, h => by
    rw [Resolver.withCtes] at h
    obtain ⟨resolved, hresolved, h⟩ := bind_eq_ok.mp h
    -- The expression can be named by those after it, so its columns join what these rely on.
    have hcolumns := (nullable_of_query hr query hctes hresolved).renamed
      (label.columns.map aliasColumnName)
    exact nullable_of_withCtes hr rest (List.forall_mem_cons.mpr ⟨hcolumns, hctes⟩) h

theorem nullable_of_body (hr : r.HasNullableUnknowns) :
    ∀ (body : Body) {ctes : List CteShape} {resolved : ResolvedQuery},
    (∀ cte ∈ ctes, NullableUnknowns cte.columns) → r.body ctes body = .ok resolved →
    NullableUnknowns (resolved.columns.map ResultColumn.toSource)
  | .select ⟨quantifier, top, projection, into, sources, filter, grouping, tail⟩, ctes, resolved,
      hctes, h => by
    obtain ⟨parts, rfl⟩ := Resolver.selectParts_of_body h
    -- A projection gives columns of the sources and columns of unknown type, nothing else.
    have hsources := nullable_of_sources hr sources hctes parts.sources
    intro column hcolumn
    obtain ⟨result, hresult, rfl⟩ := List.mem_map.mp hcolumn
    exact (parts.gives result hresult).unknownIsNullable hsources
  | .nested query, ctes, resolved, hctes, h => by
    rw [Resolver.body_nested] at h
    exact nullable_of_query hr query hctes h
  | .operation left operator right, ctes, resolved, hctes, h => by
    obtain ⟨first, hfirst, rfl⟩ := Resolver.body_operation_eq_ok.mp h
    -- The columns are those of the first arm; the second one is not even resolved.
    have hcolumns := nullable_of_body hr left hctes hfirst
    exact hcolumns
  | .values explicitRow rows, ctes, resolved, hctes, h => by
    rw [Resolver.body_values] at h
    obtain rfl := Except.ok.inj h
    simp [NullableUnknowns, resolveRows, UnknownIsNullable, ResultColumn.toSource, untracedColumn]
  | .other pieces, ctes, resolved, hctes, h => absurd h Resolver.body_other_ne_ok

theorem nullable_of_sources (hr : r.HasNullableUnknowns) :
    ∀ (sources : List JoinedSource) {ctes : List CteShape}
    {forced : List String} {found : List ScopeSource},
    (∀ cte ∈ ctes, NullableUnknowns cte.columns) → r.sources ctes forced sources = .ok found →
    ∀ source ∈ found, ∀ columns ∈ source.columns, NullableUnknowns columns
  | [], ctes, forced, found, hctes, h => by
    rw [Resolver.sources] at h
    obtain rfl := Except.ok.inj h
    exact nofun
  | ⟨relation, joins⟩ :: rest, ctes, forced, found, hctes, h => by
    rw [Resolver.sources] at h
    obtain ⟨first, hfirst, h⟩ := bind_eq_ok.mp h
    obtain ⟨joined, hjoined, h⟩ := bind_eq_ok.mp h
    obtain ⟨more, hmore, h⟩ := bind_eq_ok.mp h
    obtain rfl := Except.ok.inj h
    rw [List.forall_mem_append, List.forall_mem_append]
    exact ⟨⟨nullable_of_factor hr relation hctes hfirst, nullable_of_joined hr joins hctes hjoined⟩,
      nullable_of_sources hr rest hctes hmore⟩

theorem nullable_of_joined (hr : r.HasNullableUnknowns) :
    ∀ (joins : List Join) {ctes : List CteShape} {forced : List String}
    {found : List ScopeSource}, (∀ cte ∈ ctes, NullableUnknowns cte.columns) →
    r.joined ctes forced joins = .ok found →
    ∀ source ∈ found, ∀ columns ∈ source.columns, NullableUnknowns columns
  | [], ctes, forced, found, hctes, h => by
    rw [Resolver.joined] at h
    obtain rfl := Except.ok.inj h
    exact nofun
  | ⟨isGlobal, operator, relation, condition⟩ :: rest, ctes, forced, found, hctes, h => by
    rw [Resolver.joined] at h
    obtain ⟨first, hfirst, h⟩ := bind_eq_ok.mp h
    obtain ⟨more, hmore, h⟩ := bind_eq_ok.mp h
    obtain rfl := Except.ok.inj h
    rw [List.forall_mem_append]
    exact ⟨nullable_of_factor hr relation hctes hfirst, nullable_of_joined hr rest hctes hmore⟩

theorem nullable_of_factor (hr : r.HasNullableUnknowns) :
    ∀ (factor : Factor) {ctes : List CteShape} {forced : List String}
    {found : List ScopeSource}, (∀ cte ∈ ctes, NullableUnknowns cte.columns) →
    r.factor ctes forced factor = .ok found →
    ∀ source ∈ found, ∀ columns ∈ source.columns, NullableUnknowns columns
  | .table name arguments marker label tail, ctes, forced, found, hctes, h => by
    rw [Resolver.factor] at h
    obtain ⟨leaf, hleaf, h⟩ := bind_eq_ok.mp h
    obtain rfl := Except.ok.inj h
    rw [List.forall_mem_singleton]
    intro columns hcolumns
    -- Only a table has columns that come from elsewhere; of the other leaves none are known here.
    cases leaf with
    | source object label => exact nullable_of_sourceColumns? hr hctes hcolumns
    | derived | function => cases hcolumns
  | .derived lateral query label, ctes, forced, found, hctes, h => by
    rw [Resolver.factor] at h
    dsimp only at h
    generalize (label.map fun a => a.columns.map aliasColumnName).getD [] = names at h
    split at h
    · obtain ⟨resolved, hresolved, h⟩ := bind_eq_ok.mp h
      obtain rfl := Except.ok.inj h
      rw [List.forall_mem_singleton]
      rintro _ ⟨⟩
      exact (nullable_of_query hr query hctes hresolved).renamed names
    · -- Listed names are all that is known of the columns, so they can be null.
      obtain rfl := Except.ok.inj h
      rw [List.forall_mem_singleton]
      intro columns hcolumns column hcolumn
      change (if names.isEmpty then none else some _) = some columns at hcolumns
      split at hcolumns
      · cases hcolumns
      · obtain rfl := Option.some.inj hcolumns
        obtain ⟨name, -, rfl⟩ := List.mem_map.mp hcolumn
        exact fun _ => rfl
  | .joined ⟨relation, joins⟩ label, ctes, forced, found, hctes, h => by
    rw [Resolver.factor] at h
    obtain ⟨first, hfirst, h⟩ := bind_eq_ok.mp h
    obtain ⟨more, hmore, h⟩ := bind_eq_ok.mp h
    obtain rfl := Except.ok.inj h
    rw [List.forall_mem_append]
    exact ⟨nullable_of_factor hr relation hctes hfirst, nullable_of_joined hr joins hctes hmore⟩
  | .special pieces label, ctes, forced, found, hctes, h => by
    rw [Resolver.factor] at h
    obtain rfl := Except.ok.inj h
    rw [List.forall_mem_singleton]
    rintro _ ⟨⟩

end

end Nullable

/-! ## The leaves that a query reads from -/

/-- The name by which provenances refer to a leaf. -/
def LeafTable.identifier (table : LeafTable) : String := (table.source []).identifier

/-- The leaves that the columns of a body can come from, each with its own columns: those of the
select that the body has its columns from. Rows of values read from no leaves. -/
inductive Resolver.ReadsFrom (r : Resolver) : List CteShape → Body → List LeafTable → Prop
  | select {ctes : List CteShape} {select : Select} {tree : Option JoinTree}
      {tables : List LeafTable} (htree : JoinTree.ofSources select.sources = .ok tree)
      (htables : ((tree.map JoinTree.leaves).getD []).mapM (r.leafTable ctes) = .ok tables) :
      ReadsFrom r ctes (.select select) tables
  | nested {ctes inner : List CteShape} {query : Query} {tables : List LeafTable}
      (hinner : r.withCtes ctes query.ctes = .ok inner) (h : ReadsFrom r inner query.body tables) :
      ReadsFrom r ctes (.nested query) tables
  | operation {ctes : List CteShape} {left right : Body} {operator : String}
      {tables : List LeafTable} (h : ReadsFrom r ctes left tables) :
      ReadsFrom r ctes (.operation left operator right) tables
  | values {ctes : List CteShape} {explicitRow : Bool} {rows : List (List Expr)} :
      ReadsFrom r ctes (.values explicitRow rows) []

/-- Nothing is known of a result column: its type is unknown, it may be null, and its provenance is
no column. -/
def ResultColumn.IsUntraced (column : ResultColumn) : Prop :=
  column.type = .unknown ∧ column.isNullable = true ∧
    ∀ source name, column.provenance ≠ .column source name

/-- A result column has the provenance and the type of a column of a leaf, and may be null if that
may. -/
def ResultColumn.IsTracedTo (tables : List LeafTable) (column : ResultColumn) : Prop :=
  ∃ table ∈ tables, ∃ columns, table.columns = some columns ∧ ∃ own ∈ columns,
    column.provenance = .column table.identifier own.name ∧ column.type = own.type ∧
      (own.isNullable = true → column.isNullable = true)

theorem Scope.Gives.isUntraced_or_isTracedTo {scope : Scope} {forced : List String}
    {tables : List LeafTable} {column : ResultColumn} (h : scope.Gives column)
    (hsources : scope.sources = tables.map (LeafTable.source forced)) :
    column.IsUntraced ∨ column.IsTracedTo tables := by
  cases h with
  | untraced _ h => exact .inl ⟨rfl, rfl, h⟩
  | traced _ hsource hcolumns hown =>
    rw [hsources] at hsource
    obtain ⟨table, htable, rfl⟩ := List.mem_map.mp hsource
    exact .inr ⟨table, htable, _, hcolumns, _, hown, rfl, rfl,
      fun hnullable => Bool.or_eq_true_iff.mpr (.inl hnullable)⟩

/-- The scope of a select shows the leaves that the select reads from. -/
theorem Resolver.SelectParts.exists_tables {r : Resolver} {ctes : List CteShape} {select : Select}
    (parts : r.SelectParts ctes select) :
    ∃ tables, ((parts.tree.map JoinTree.leaves).getD []).mapM (r.leafTable ctes) = .ok tables ∧
      parts.scope.sources = tables.map (LeafTable.source (forcedNames parts.tree)) := by
  obtain ⟨tree, scope, columns, htree, -, hsources, -⟩ := parts
  cases tree with
  | some whole => exact sources_eq_map htree hsources
  | none =>
    rw [Resolver.sources_eq_nil_of_ofSources htree, Resolver.sources] at hsources
    exact ⟨[], rfl, (Except.ok.inj hsources).symm⟩

/-- The columns of a body that resolves are untraced or traced to leaves that the body reads from,
and unknown types are nullable in these leaves as well. -/
theorem Resolver.exists_readsFrom {r : Resolver} (hr : r.HasNullableUnknowns) :
    ∀ (body : Body) {ctes : List CteShape} {resolved : ResolvedQuery},
    (∀ cte ∈ ctes, NullableUnknowns cte.columns) → r.body ctes body = .ok resolved →
    ∃ tables, r.ReadsFrom ctes body tables ∧
      (∀ table ∈ tables, ∀ columns ∈ table.columns, NullableUnknowns columns) ∧
      ∀ column ∈ resolved.columns, column.IsUntraced ∨ column.IsTracedTo tables
  | .select select, ctes, resolved, hctes, h => by
    obtain ⟨parts, rfl⟩ := Resolver.selectParts_of_body h
    obtain ⟨tables, htables, hsources⟩ := parts.exists_tables
    refine ⟨tables, .select parts.ofSources htables, ?_, ?_⟩
    · have hnullable := nullable_of_sources hr select.sources hctes parts.sources
      rw [hsources] at hnullable
      exact fun table htable => hnullable _ (List.mem_map_of_mem htable)
    · exact fun column hcolumn => (parts.gives column hcolumn).isUntraced_or_isTracedTo hsources
  | .nested ⟨recursive, own, body, tail⟩, ctes, resolved, hctes, h => by
    rw [Resolver.body_nested] at h
    obtain ⟨inner, hinner, hbody⟩ := Resolver.query_eq_ok.mp h
    obtain ⟨tables, hreads, hcolumns⟩ :=
      Resolver.exists_readsFrom hr body (nullable_of_withCtes hr own hctes hinner) hbody
    exact ⟨tables, .nested hinner hreads, hcolumns⟩
  | .operation left operator right, ctes, resolved, hctes, h => by
    obtain ⟨first, hfirst, rfl⟩ := Resolver.body_operation_eq_ok.mp h
    obtain ⟨tables, hreads, hcolumns⟩ := Resolver.exists_readsFrom hr left hctes hfirst
    exact ⟨tables, .operation hreads, hcolumns⟩
  | .values explicitRow rows, ctes, resolved, hctes, h => by
    rw [Resolver.body_values] at h
    obtain rfl := Except.ok.inj h
    refine ⟨[], .values, nofun, fun column hcolumn => .inl ?_⟩
    obtain ⟨index, -, rfl⟩ := List.mem_map.mp hcolumn
    exact ⟨rfl, rfl, nofun⟩
  | .other pieces, ctes, resolved, hctes, h => absurd h Resolver.body_other_ne_ok

end SchemaPlan
