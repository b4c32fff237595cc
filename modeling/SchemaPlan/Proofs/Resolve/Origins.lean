import SchemaPlan.Proofs.Resolve.Leaves
import Mathlib.Data.List.Forall2

/-!
# Origins of result columns

Which column of which leaf a projected item stands for, said without the scope: a bare name stands
for the only leaf that has it, a qualified one for the leaf that its qualifier names, and a star for
all columns of all leaves in order. Leaves and columns are given by their numbers.

The columns of a projection that resolves come from these origins, one by one
(`items_stemFrom`), and a column without an origin is traced to no source.
-/

namespace SchemaPlan

open SchemaPlan.Sql SchemaPlan.Query

/-! ## References -/

/-- A column of a leaf, both by number. -/
structure Origin where
  leaf : Nat
  column : Nat
deriving Repr, DecidableEq, Inhabited

namespace LeafTable

/-- The number of the first column with a name. -/
def columnIndex? (table : LeafTable) (name : String) : Option Nat :=
  table.columns.bind fun columns => columns.findIdx? fun column => Text.sameText column.name name

/-- All columns of the leaf with the number `i`. -/
def origins (table : LeafTable) (i : Nat) : List Origin :=
  (List.range ((table.columns.map List.length).getD 0)).map fun k => ⟨i, k⟩

/-- Whether a qualifier is the name under which the leaf is exposed. -/
def isExposedAs (qualifier : String) (table : LeafTable) : Bool :=
  table.leaf.exposedName?.any fun name => Text.lower name == Text.lower qualifier

/-- Whether the name of what the leaf holds ends in a qualifier. -/
def endsIn (qualifier : String) (table : LeafTable) : Bool :=
  Text.sameText (lastSegment (table.source []).identifier) qualifier

end LeafTable

section Origins

variable (tables : List LeafTable)

/-- The columns with a name, one for each leaf that has one. -/
def originsNamed (name : String) : List Origin :=
  tables.zipIdx.filterMap fun (table, i) => (table.columnIndex? name).map fun k => ⟨i, k⟩

/-- The leaf that a qualifier names: the one that is exposed under it, or else the first one whose
name ends in it. -/
def leafNamed? (qualifier : String) : Option Nat :=
  (tables.findIdx? (LeafTable.isExposedAs qualifier)).or
    (tables.findIdx? (LeafTable.endsIn qualifier))

/-- The column that a name stands for, with a qualifier or without. -/
def referenceOrigin? (qualifier : Option String) (column : String) : Option Origin :=
  match qualifier with
  | some qualifier =>
    (leafNamed? tables qualifier).bind fun i =>
      (tables[i]?).bind fun table => (table.columnIndex? column).map fun k => ⟨i, k⟩
  | none =>
    match originsNamed tables column with
    | [origin] => some origin
    | _ => none

/-- The column that an expression stands for, if it is the name of one. -/
def exprOrigin? (expr : Expr) (label : Option String) : Option Origin :=
  match Scope.unnested (Scope.aliasedValue expr label).1 with
  | .ident name =>
    if Text.startsWith "@" name.value then none else referenceOrigin? tables none name.value
  | .compound parts =>
    (Scope.lastTwo? parts).bind fun (qualifier, column) =>
      referenceOrigin? tables (some qualifier.value) column.value
  | _ => none

/-- The columns that an item stands for, one for each result column. -/
def itemOrigins : SelectItem → List (Option Origin)
  | .unnamed expr => [exprOrigin? tables expr none]
  | .aliased expr label => [exprOrigin? tables expr (some label.value)]
  | .wildcard => (tables.zipIdx.flatMap fun (table, i) => table.origins i).map some
  | .qualifiedWildcard qualifier =>
    match leafNamed? tables (unquote (lastSegment (nameText qualifier))) with
    | some i => (((tables[i]?).map (·.origins i)).getD []).map some
    | none => []

/-- The columns that a projection stands for, one for each result column. -/
def projectionOrigins (projection : List SelectItem) : List (Option Origin) :=
  projection.flatMap (itemOrigins tables)

end Origins

/-! ## Columns of sources -/

section Scope

variable {forced : List String} {tables : List LeafTable}

/-- A column of a source is the column of its leaf with that number. -/
def IsColumn (table : LeafTable) (own : SourceColumn) (k : Nat) : Prop :=
  ∃ columns, table.columns = some columns ∧ columns[k]? = some own

/-- A result column has an origin if it is traced to a source. It may then be null if the origin
may, or if the leaf is exposed under a name that is forced. -/
def StemsFrom (forced : List String) (tables : List LeafTable) :
    Option Origin → ResultColumn → Prop
  | none, result => ∀ source name, result.provenance ≠ .column source name
  | some origin, result => ∃ table own, tables[origin.leaf]? = some table ∧
      IsColumn table own origin.column ∧
      result.isNullable = (own.isNullable || table.leaf.exposedName?.any (isForced forced))

/-- A traced column stems from the column it is traced to. -/
theorem stemsFrom_tracedColumn {table : LeafTable} {own : SourceColumn} {i k : Nat}
    (htable : tables[i]? = some table) (hown : IsColumn table own k) (name : String) :
    StemsFrom forced tables (some ⟨i, k⟩) (tracedColumn name (table.source forced) own) :=
  ⟨table, own, htable, hown, rfl⟩

theorem stemsFrom_untracedColumn (name : String) {provenance : Provenance}
    (h : ∀ source column, provenance ≠ .column source column) :
    StemsFrom forced tables none (untracedColumn name provenance) := h

/-- A name is looked up in a source as in its leaf. -/
theorem column?_source (table : LeafTable) (name : String) :
    Option.Rel (IsColumn table) ((table.source forced).column? name) (table.columnIndex? name) := by
  unfold ScopeSource.column? LeafTable.columnIndex?
  show Option.Rel (IsColumn table) (table.columns.bind _) (table.columns.bind _)
  cases hcolumns : table.columns with
  | none => exact .none
  | some columns =>
    rw [Option.bind_some, Option.bind_some, List.find?_eq_bind_findIdx?_getElem?]
    cases hindex : columns.findIdx? fun column => Text.sameText column.name name with
    | none => exact .none
    | some k =>
      obtain ⟨hk, -, -⟩ := List.findIdx?_eq_some_iff_getElem.mp hindex
      rw [Option.bind_some, List.getElem?_eq_getElem hk]
      exact .some ⟨columns, hcolumns, List.getElem?_eq_getElem hk⟩

/-! ## Lookups -/

/-- A scope that shows leaves: its sources are theirs, and its names stand for their numbers. -/
structure Shows (scope : Scope) (forced : List String) (tables : List LeafTable) : Prop where
  sources : scope.sources = tables.map (LeafTable.source forced)
  names : ∀ qualifier, scope.names.index? qualifier =
    tables.findIdx? (LeafTable.isExposedAs qualifier)

variable {scope : Scope}

/-- The sources of leaves are those of the numbered leaves. -/
theorem map_source_eq_zipIdx (forced : List String) (tables : List LeafTable) :
    tables.map (LeafTable.source forced) =
      tables.zipIdx.map fun entry => entry.1.source forced := by
  conv_lhs => rw [← List.zipIdx_map_fst 0 tables, List.map_map]
  rfl

/-- A name is looked up in all sources as in their leaves. -/
theorem matches?_originsNamed (h : Shows scope forced tables) (name : String) :
    List.Forall₂ (fun found origin => ∃ table, tables[origin.leaf]? = some table ∧
        found.1 = table.source forced ∧ IsColumn table found.2 origin.column)
      (scope.matches? name) (originsNamed tables name) := by
  unfold Scope.matches? originsNamed
  rw [h.sources, map_source_eq_zipIdx, List.filterMap_map]
  -- Each numbered leaf is compared with itself, so that its number is at hand.
  refine List.rel_filterMap (R := fun entry other => entry = other ∧ entry ∈ tables.zipIdx) ?_
    (List.forall₂_same.mpr fun entry hmem => ⟨rfl, hmem⟩)
  rintro ⟨table, i⟩ _ ⟨rfl, hmem⟩
  have htable : tables[i]? = some table := List.mk_mem_zipIdx_iff_getElem?.mp hmem
  have hcolumn : Option.Rel (IsColumn table) ((table.source forced).column? name)
      (table.columnIndex? name) := column?_source table name
  dsimp only [Function.comp_apply]
  cases hfound : (table.source forced).column? name <;>
    cases hindex : table.columnIndex? name <;> rw [hfound, hindex] at hcolumn
  · exact .none
  · cases hcolumn
  · cases hcolumn
  · cases hcolumn with
    | some hown => exact .some ⟨table, htable, rfl, hown⟩

/-- A qualifier names the source of the leaf that it names, or is not known. -/
theorem sourceNamed_eq (h : Shows scope forced tables) (qualifier shown : String) :
    scope.sourceNamed qualifier shown =
      match (leafNamed? tables qualifier).bind (tables[·]?) with
      | some table => .ok (table.source forced)
      | none => .error (.unknownQualifier qualifier shown) := by
  unfold Scope.sourceNamed leafNamed?
  rw [h.names, h.sources]
  cases hexposed : tables.findIdx? (LeafTable.isExposedAs qualifier) with
  | some i =>
    obtain ⟨hi, -, -⟩ := List.findIdx?_eq_some_iff_getElem.mp hexposed
    have htable : tables[i]? = some tables[i] := List.getElem?_eq_getElem hi
    rw [Option.bind_some, List.getElem?_map, Option.some_or, Option.bind_some, htable]
    rfl
  | none =>
    have hends : ((fun source => Text.sameText (lastSegment source.identifier) qualifier) ∘
        LeafTable.source forced) = LeafTable.endsIn qualifier := rfl
    rw [Option.bind_none, List.find?_map, hends, List.find?_eq_bind_findIdx?_getElem?,
      Option.none_or]
    cases hindex : tables.findIdx? (LeafTable.endsIn qualifier) with
    | none => rfl
    | some i =>
      obtain ⟨hi, -, -⟩ := List.findIdx?_eq_some_iff_getElem.mp hindex
      have htable : tables[i]? = some tables[i] := List.getElem?_eq_getElem hi
      rw [Option.bind_some, htable]
      rfl

/-- The leaf that a qualifier names is one of the leaves. -/
theorem exists_table_of_leafNamed {qualifier : String} {i : Nat}
    (h : leafNamed? tables qualifier = some i) : ∃ table, tables[i]? = some table := by
  rw [leafNamed?, Option.or_eq_some_iff] at h
  rcases h with h | ⟨-, h⟩ <;>
    obtain ⟨hi, -, -⟩ := List.findIdx?_eq_some_iff_getElem.mp h <;>
    exact ⟨tables[i], List.getElem?_eq_getElem hi⟩

/-- A qualifier that resolves names the source of a leaf. -/
theorem sourceNamed_eq_ok (h : Shows scope forced tables) {qualifier shown : String}
    {source : ScopeSource} (hfound : scope.sourceNamed qualifier shown = .ok source) :
    ∃ i table, leafNamed? tables qualifier = some i ∧ tables[i]? = some table ∧
      source = table.source forced := by
  rw [sourceNamed_eq h] at hfound
  cases hleaf : leafNamed? tables qualifier with
  | none =>
    rw [hleaf] at hfound
    cases hfound
  | some i =>
    obtain ⟨table, htable⟩ := exists_table_of_leafNamed hleaf
    rw [hleaf, Option.bind_some, htable] at hfound
    exact ⟨i, table, rfl, htable, (Except.ok.inj hfound).symm⟩

/-- A lookup finds the column with an origin, or no column if there is no origin. -/
def Finds (forced : List String) (tables : List LeafTable) : Option Origin → ColumnMatch → Prop
  | some origin, .known source own => ∃ table, tables[origin.leaf]? = some table ∧
      source = table.source forced ∧ IsColumn table own origin.column
  | none, .untraced _ => True
  | some _, .untraced _ => False
  | none, .known _ _ => False

/-- A qualified name is looked up in the leaf that its qualifier names. -/
theorem lookup_qualified_finds (h : Shows scope forced tables) {qualifier column shown : String}
    {found : ColumnMatch} (hfound : scope.lookup (some qualifier) column shown = .ok found) :
    Finds forced tables (referenceOrigin? tables (some qualifier) column) found := by
  unfold Scope.lookup at hfound
  obtain ⟨source, hsource, hfound⟩ := bind_eq_ok.mp hfound
  obtain ⟨i, table, hleaf, htable, rfl⟩ := sourceNamed_eq_ok h hsource
  have hcolumn : Option.Rel (IsColumn table) ((table.source forced).column? column)
      (table.columnIndex? column) := column?_source table column
  have horigin : referenceOrigin? tables (some qualifier) column =
      (table.columnIndex? column).map fun k => ⟨i, k⟩ := by
    unfold referenceOrigin?
    dsimp only
    rw [hleaf, Option.bind_some, htable, Option.bind_some]
  rw [horigin]
  split at hfound
  · -- Nothing is known of the columns of the leaf.
    rename_i hunknown
    obtain rfl := Except.ok.inj hfound
    have hnone : table.columns = none := Option.isNone_iff_eq_none.mp hunknown
    rw [LeafTable.columnIndex?, hnone]
    trivial
  · split at hfound
    · rename_i own hown
      obtain rfl := Except.ok.inj hfound
      rw [hown] at hcolumn
      cases hindex : table.columnIndex? column <;> rw [hindex] at hcolumn
      · cases hcolumn
      · cases hcolumn with
        | some hrel => exact ⟨table, htable, rfl, hrel⟩
    · cases hfound

/-- A bare name is looked up in all leaves, only one of which may have it. -/
theorem lookup_bare_finds (h : Shows scope forced tables) {column shown : String}
    {found : ColumnMatch} (hfound : scope.lookup none column shown = .ok found) :
    Finds forced tables (referenceOrigin? tables none column) found := by
  have hmatches := matches?_originsNamed h column
  -- Without a match there is no origin, whether or not some leaf has unknown columns.
  have hnowhere (hzero : scope.matches? column = []) (source : Option ScopeSource) :
      Finds forced tables (referenceOrigin? tables none column) (.untraced source) := by
    rw [hzero] at hmatches
    unfold referenceOrigin?
    dsimp only
    rw [List.forall₂_nil_left_iff.mp hmatches]
    trivial
  unfold Scope.lookup at hfound
  dsimp only at hfound
  split at hfound
  · rename_i source own hone
    obtain rfl := Except.ok.inj hfound
    rw [hone] at hmatches
    unfold referenceOrigin?
    dsimp only
    cases horigins : originsNamed tables column with
    | nil =>
      rw [horigins] at hmatches
      cases hmatches
    | cons origin rest =>
      rw [horigins] at hmatches
      cases hmatches with
      | cons hrel hrest =>
        cases hrest
        exact hrel
  · rename_i hzero _
    obtain rfl := Except.ok.inj hfound
    exact hnowhere hzero _
  · rename_i hzero _
    obtain rfl := Except.ok.inj hfound
    exact hnowhere hzero _
  · cases hfound
  · cases hfound

/-- A reference stems from the column that it stands for. -/
theorem reference_stemsFrom (h : Shows scope forced tables) {qualifier label : Option String}
    {column shown : String} {result : ResultColumn}
    (hresult : scope.reference qualifier column label shown = .ok result) :
    StemsFrom forced tables (referenceOrigin? tables qualifier column) result := by
  unfold Scope.reference at hresult
  obtain ⟨found, hfound, hresult⟩ := bind_eq_ok.mp hresult
  have hfinds : Finds forced tables (referenceOrigin? tables qualifier column) found := by
    cases qualifier with
    | some qualifier => exact lookup_qualified_finds h hfound
    | none => exact lookup_bare_finds h hfound
  generalize referenceOrigin? tables qualifier column = origin? at hfinds
  cases found with
  | known source own =>
    obtain rfl := Except.ok.inj hresult
    cases origin? with
    | none => exact hfinds.elim
    | some origin =>
      obtain ⟨table, htable, rfl, hown⟩ := hfinds
      exact stemsFrom_tracedColumn htable hown _
  | untraced source =>
    obtain rfl := Except.ok.inj hresult
    cases origin? with
    | none => exact stemsFrom_untracedColumn _ fun _ _ heq => by cases heq
    | some origin => exact hfinds.elim

/-! ## Projections -/

theorem startsWith_sign_of_two {name : String} (h : Text.startsWith "@@" name = true) :
    Text.startsWith "@" name = true := by
  unfold Text.startsWith at h ⊢
  have htwo : "@@".toList = ['@', '@'] := by decide
  have hone : "@".toList = ['@'] := by decide
  rw [htwo] at h
  rw [hone]
  cases hname : name.toList with
  | nil =>
    rw [hname] at h
    cases h
  | cons c rest =>
    rw [hname, List.isPrefixOf_cons_cons] at h
    rw [List.isPrefixOf_cons_cons, (Bool.and_eq_true_iff.mp h).1, Bool.true_and]
    exact List.isPrefixOf_nil_left

/-- A projected expression stems from the column that it names. -/
theorem projected_stemsFrom (h : Shows scope forced tables) {expr : Expr} {label : Option String}
    {ordinal : Nat} {result : ResultColumn}
    (hresult : scope.projected expr label ordinal = .ok result) :
    StemsFrom forced tables (exprOrigin? tables expr label) result := by
  unfold Scope.projected at hresult
  unfold exprOrigin?
  generalize Scope.aliasedValue expr label = named at hresult
  obtain ⟨value, label⟩ := named
  dsimp only at hresult ⊢
  have hcomputed (name : String) : StemsFrom forced tables none (untracedColumn name .expression) :=
    stemsFrom_untracedColumn name fun _ _ heq => by cases heq
  cases hvalue : Scope.unnested value with
  | ident name =>
    rw [hvalue] at hresult
    dsimp only at hresult ⊢
    split at hresult
    · -- The name of a system function such as `@@rowcount`.
      rename_i htwo
      obtain rfl := Except.ok.inj hresult
      rw [if_pos (startsWith_sign_of_two htwo)]
      exact hcomputed _
    · split at hresult
      · -- The name of a local variable.
        rename_i hvariable
        obtain rfl := Except.ok.inj hresult
        rw [if_pos (Bool.and_eq_true_iff.mp hvariable).1]
        exact stemsFrom_untracedColumn _ fun _ _ heq => by cases heq
      · -- Any other name is looked up.
        rename_i htwo hvariable
        rw [if_neg]
        · exact reference_stemsFrom h hresult
        · intro hone
          rw [isVariable, hone, Bool.true_and, Bool.not_eq_true', Bool.not_eq_false] at hvariable
          exact htwo hvariable
  | compound parts =>
    rw [hvalue] at hresult
    dsimp only at hresult ⊢
    cases hparts : Scope.lastTwo? parts with
    -- A name needs a part in front to be looked up here.
    | none =>
      rw [hparts] at hresult
      obtain rfl := Except.ok.inj hresult
      exact hcomputed _
    | some named =>
      rw [hparts] at hresult
      exact reference_stemsFrom h hresult
  | _ =>
    rw [hvalue] at hresult
    obtain rfl := Except.ok.inj hresult
    exact hcomputed _

/-- The columns of a leaf stem from themselves. -/
theorem columns_stemFrom {table : LeafTable} {columns : List SourceColumn} {i : Nat}
    (htable : tables[i]? = some table) (hcolumns : table.columns = some columns) :
    List.Forall₂ (StemsFrom forced tables) ((table.origins i).map some)
      (columns.map fun own => tracedColumn own.name (table.source forced) own) := by
  unfold LeafTable.origins
  rw [hcolumns, Option.map_some, Option.getD_some, List.map_map, List.forall₂_iff_get]
  refine ⟨by simp only [List.length_map, List.length_range], ?_⟩
  intro k hk hk'
  rw [List.length_map, List.length_range] at hk
  simp only [List.get_eq_getElem, List.getElem_map, List.getElem_range, Function.comp_apply]
  exact stemsFrom_tracedColumn htable ⟨columns, hcolumns, List.getElem?_eq_getElem hk⟩ _

/-- The columns of leaves stem from themselves, in order. -/
theorem allColumns_stemFrom {numbered : List (LeafTable × Nat)} {shown : String}
    {results : List ResultColumn} (hmem : ∀ table i, (table, i) ∈ numbered → tables[i]? = some table)
    (hresults : Scope.allColumns shown (numbered.map fun entry => entry.1.source forced) =
      .ok results) :
    List.Forall₂ (StemsFrom forced tables)
      ((numbered.flatMap fun entry => entry.1.origins entry.2).map some) results := by
  induction numbered generalizing results with
  | nil =>
    obtain rfl := Except.ok.inj hresults
    exact .nil
  | cons entry rest ih =>
    obtain ⟨table, i⟩ := entry
    rw [List.map_cons, Scope.allColumns] at hresults
    split at hresults
    · -- A leaf whose columns are unknown cannot be expanded.
      cases hresults
    · rename_i columns hcolumns
      obtain ⟨more, hmore, hresults⟩ := bind_eq_ok.mp hresults
      obtain rfl := Except.ok.inj hresults
      rw [List.flatMap_cons, List.map_append]
      refine List.rel_append ?_ (ih (fun table i h => hmem table i (List.mem_cons_of_mem _ h)) hmore)
      exact columns_stemFrom (hmem table i List.mem_cons_self) hcolumns

/-- The result columns of an item stem from the columns that it stands for. -/
theorem item_stemsFrom (h : Shows scope forced tables) {ordinal : Nat} {item : SelectItem}
    {results : List ResultColumn} (hresults : scope.item ordinal item = .ok results) :
    List.Forall₂ (StemsFrom forced tables) (itemOrigins tables item) results := by
  cases item with
  | unnamed expr =>
    obtain ⟨result, hresult, hresults⟩ := bind_eq_ok.mp hresults
    obtain rfl := Except.ok.inj hresults
    exact .cons (projected_stemsFrom h hresult) .nil
  | aliased expr label =>
    obtain ⟨result, hresult, hresults⟩ := bind_eq_ok.mp hresults
    obtain rfl := Except.ok.inj hresults
    exact .cons (projected_stemsFrom h hresult) .nil
  | wildcard =>
    unfold Scope.item Scope.expandStar at hresults
    dsimp only at hresults
    split at hresults
    · cases hresults
    · rw [h.sources, map_source_eq_zipIdx] at hresults
      exact allColumns_stemFrom (fun _ _ hmem => List.mk_mem_zipIdx_iff_getElem?.mp hmem) hresults
  | qualifiedWildcard qualifier =>
    unfold Scope.item Scope.expandStar at hresults
    obtain ⟨source, hsource, hresults⟩ := bind_eq_ok.mp hresults
    obtain ⟨i, table, hleaf, htable, rfl⟩ := sourceNamed_eq_ok h hsource
    -- One leaf is expanded like a list of leaves with this one only.
    have horigins : itemOrigins tables (.qualifiedWildcard qualifier) =
        ([(table, i)].flatMap fun entry => entry.1.origins entry.2).map some := by
      rw [itemOrigins, hleaf, List.flatMap_singleton]
      dsimp only
      rw [htable, Option.map_some, Option.getD_some]
    rw [horigins]
    refine allColumns_stemFrom (fun table' j hmem => ?_) hresults
    obtain ⟨rfl, rfl⟩ := Prod.mk.inj (List.mem_singleton.mp hmem)
    exact htable

/-- The result columns of a projection stem from the columns that it stands for. -/
theorem items_stemFrom (h : Shows scope forced tables) {count : Nat} {projection : List SelectItem}
    {results : List ResultColumn} (hresults : scope.items count projection = .ok results) :
    List.Forall₂ (StemsFrom forced tables) (projectionOrigins tables projection) results := by
  induction projection generalizing count results with
  | nil =>
    obtain rfl := Except.ok.inj hresults
    exact .nil
  | cons next rest ih =>
    unfold Scope.items at hresults
    obtain ⟨columns, hcolumns, hresults⟩ := bind_eq_ok.mp hresults
    obtain ⟨more, hmore, hresults⟩ := bind_eq_ok.mp hresults
    obtain rfl := Except.ok.inj hresults
    unfold projectionOrigins
    rw [List.flatMap_cons]
    exact List.rel_append (item_stemsFrom h hcolumns) (ih hmore)

/-- Distinct names change neither what a column stems from nor whether it may be null. -/
theorem distinctNames_stemFrom {origins : List (Option Origin)} {results : List ResultColumn}
    (taken : List String) (h : List.Forall₂ (StemsFrom forced tables) origins results) :
    List.Forall₂ (StemsFrom forced tables) origins (distinctNames taken results) := by
  induction h generalizing taken with
  | nil => exact .nil
  | @cons origin? result _ _ hstems _ ih =>
    refine .cons ?_ (ih _)
    -- Only the name of the column is changed.
    cases origin? with
    | none => exact hstems
    | some origin => exact hstems

end Scope

/-! ## The scope of a select -/

/-- The leaves of a tree with their own columns are its leaves. -/
theorem map_leaf_of_mapM {r : Resolver} {ctes : List CteShape} {leaves : List Leaf}
    {tables : List LeafTable} (h : leaves.mapM (r.leafTable ctes) = .ok tables) :
    tables.map (·.leaf) = leaves := by
  induction leaves generalizing tables with
  | nil =>
    obtain rfl := Except.ok.inj h
    rfl
  | cons leaf rest ih =>
    rw [List.mapM_cons] at h
    obtain ⟨table, htable, h⟩ := bind_eq_ok.mp h
    obtain ⟨more, hmore, h⟩ := bind_eq_ok.mp h
    obtain rfl := Except.ok.inj h
    obtain ⟨columns, -, htable⟩ := bind_eq_ok.mp htable
    obtain rfl := Except.ok.inj htable
    rw [List.map_cons, ih hmore]

/-- A leaf is exposed under the names that stand for it in the tree. -/
theorem isExposedAs_iff {tree : JoinTree} {tables : List LeafTable} {table : LeafTable} {i : Nat}
    (hleaves : tables.map (·.leaf) = tree.leaves) (htable : tables[i]? = some table)
    (qualifier : String) :
    table.isExposedAs qualifier = true ↔ tree.Exposes i (Text.lower qualifier) := by
  have hleaf : tree.leaves[i]? = some table.leaf := by
    rw [← hleaves, List.getElem?_map, htable, Option.map_some]
  unfold LeafTable.isExposedAs
  rw [Option.any_eq_true]
  constructor
  · rintro ⟨name, hname, hsame⟩
    exact ⟨table.leaf, name, hleaf, hname, beq_iff_eq.mp hsame⟩
  · rintro ⟨leaf, name, hleaf', hname, hsame⟩
    rw [hleaf] at hleaf'
    obtain rfl := Option.some.inj hleaf'
    exact ⟨name, hname, beq_iff_eq.mpr hsame⟩

/-- The names of a tree and the sources of its leaves show these leaves. -/
theorem shows_of_ofTree {tree : JoinTree} {scope : Scope} {forced : List String}
    {tables : List LeafTable} (hnames : SourceNames.ofTree (some tree) = .ok scope.names)
    (hleaves : tables.map (·.leaf) = tree.leaves)
    (hsources : scope.sources = tables.map (LeafTable.source forced)) :
    Shows scope forced tables := by
  refine ⟨hsources, fun qualifier => Option.ext fun i => ?_⟩
  rw [SourceNames.index?_ofTree hnames, List.findIdx?_eq_some_iff_getElem]
  constructor
  · intro hexposes
    have hi : i < tables.length := by
      have hlt := hexposes.lt
      rw [← hleaves, List.length_map] at hlt
      exact hlt
    refine ⟨hi, (isExposedAs_iff hleaves (List.getElem?_eq_getElem hi) qualifier).mpr hexposes, ?_⟩
    -- An earlier leaf under the same name would be the same leaf.
    intro j hj hexposed
    have hj' := (isExposedAs_iff hleaves (List.getElem?_eq_getElem (by omega)) qualifier).mp hexposed
    have hij := SourceNames.uniqueNames_of_ofTree hnames i j _ hexposes hj'
    omega
  · rintro ⟨hi, hexposed, -⟩
    exact (isExposedAs_iff hleaves (List.getElem?_eq_getElem hi) qualifier).mp hexposed

end SchemaPlan
