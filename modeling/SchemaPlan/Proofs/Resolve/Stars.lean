import SchemaPlan.Proofs.Resolve.Qualifiers

/-!
# Stars and lists of columns

A star over sources gives their columns one after the other. With a qualifier it should give what a
list of references to the columns of the source under this name gives. It does so for every source
exactly if the qualifier that is read from the text of the star is the name itself, as far as names
are compared: `[a.b].*` is read as `b.*`.

* `star_expands_iff`: exactly which qualifiers may stand in front of a star.
-/

namespace SchemaPlan

open SchemaPlan.Sql SchemaPlan.Query

/-! ## Columns by name -/

/-- No two columns have the same name. -/
def DistinctColumns (columns : List SourceColumn) : Prop :=
  columns.Pairwise fun first second => Text.sameText first.name second.name = false

instance (columns : List SourceColumn) : Decidable (DistinctColumns columns) :=
  inferInstanceAs (Decidable (columns.Pairwise _))

/-- Among columns of different names each is found by its name. -/
theorem find?_of_distinctColumns {columns : List SourceColumn} (h : DistinctColumns columns)
    {own : SourceColumn} (hown : own ∈ columns) :
    columns.find? (fun column => Text.sameText column.name own.name) = some own := by
  induction columns with
  | nil => cases hown
  | cons first rest ih =>
    obtain ⟨hfirst, hrest⟩ := List.pairwise_cons.mp h
    rcases List.mem_cons.mp hown with rfl | hown
    · rw [List.find?_cons, (Text.sameText_iff own.name own.name).mpr rfl]
    · rw [List.find?_cons, hfirst own hown]
      exact ih hrest hown

section Lookup

variable {scope : Scope} {forced : List String} {tables : List LeafTable} {table : LeafTable}

/-- A leaf is named by the name under which it is exposed. -/
theorem leafNamed?_of_isExposedAs (hunique : UniquelyExposed tables) {i : Nat} {qualifier : String}
    (htable : tables[i]? = some table) (hexposed : table.isExposedAs qualifier = true) :
    leafNamed? tables qualifier = some i := by
  have hindex : tables.findIdx? (LeafTable.isExposedAs qualifier) = some i := by
    cases hfound : tables.findIdx? (LeafTable.isExposedAs qualifier) with
    | none =>
      rw [List.findIdx?_eq_none_iff.mp hfound table (List.mem_of_getElem? htable)] at hexposed
      cases hexposed
    | some j =>
      obtain ⟨hj, hexposed', -⟩ := List.findIdx?_eq_some_iff_getElem.mp hfound
      rw [hunique j i _ table qualifier (List.getElem?_eq_getElem hj) htable hexposed' hexposed]
  rw [leafNamed?, hindex]
  rfl

/-- A qualifier names the source that is exposed under it. -/
theorem sourceNamed_of_isExposedAs (h : Shows scope forced tables)
    (hunique : UniquelyExposed tables) {qualifier : String} (htable : table ∈ tables)
    (hexposed : table.isExposedAs qualifier = true) (shown : String) :
    scope.sourceNamed qualifier shown = .ok (table.source forced) := by
  obtain ⟨i, htable⟩ := List.mem_iff_getElem?.mp htable
  rw [sourceNamed_eq h, leafNamed?_of_isExposedAs hunique htable hexposed, Option.bind_some, htable]

/-- A reference to a column of the source that is exposed under its qualifier gives this column. -/
theorem reference_of_isExposedAs (h : Shows scope forced tables)
    (hunique : UniquelyExposed tables) {qualifier : String} (htable : table ∈ tables)
    (hexposed : table.isExposedAs qualifier = true) {columns : List SourceColumn}
    (hcolumns : table.columns = some columns) (hdistinct : DistinctColumns columns)
    {own : SourceColumn} (hown : own ∈ columns) (shown : String) :
    scope.lookup (some qualifier) own.name shown = .ok (.known (table.source forced) own) := by
  have hsource : (table.source forced).columns = some columns := hcolumns
  have hcolumn : (table.source forced).column? own.name = some own := by
    rw [ScopeSource.column?, hsource, Option.bind_some, find?_of_distinctColumns hdistinct hown]
  rw [Scope.lookup, sourceNamed_of_isExposedAs h hunique htable hexposed]
  show (if (table.source forced).columns.isNone = true then _ else _) = _
  rw [hsource, if_neg (by exact Bool.false_ne_true), hcolumn]
  rfl

end Lookup

/-! ## Items of a projection -/

section Items

variable {scope : Scope}

theorem items_singleton (count : Nat) (item : SelectItem) :
    scope.items count [item] = scope.item (count + 1) item := by
  unfold Scope.items
  cases scope.item (count + 1) item with
  | error failure => rfl
  | ok columns =>
    show Except.ok (columns ++ []) = Except.ok columns
    rw [List.append_nil]

theorem items_append (count : Nat) (first second : List SelectItem) :
    scope.items count (first ++ second) = do
      let columns ← scope.items count first
      let more ← scope.items (count + columns.length) second
      return columns ++ more := by
  induction first generalizing count with
  | nil =>
    show scope.items count second = (scope.items count second >>= fun more => .ok ([] ++ more))
    cases scope.items count second <;> rfl
  | cons item rest ih =>
    rw [List.cons_append, Scope.items, Scope.items]
    cases scope.item (count + 1) item with
    | error failure => rfl
    | ok columns =>
      show (scope.items (count + columns.length) (rest ++ second) >>= _) = _
      rw [ih]
      show _ = ((scope.items (count + columns.length) rest >>= _) >>= _)
      cases scope.items (count + columns.length) rest with
      | error failure => rfl
      | ok others =>
        show ((scope.items (count + columns.length + others.length) second >>= _) >>= _) =
          (scope.items (count + (columns ++ others).length) second >>= _)
        rw [List.length_append, ← Nat.add_assoc]
        cases scope.items (count + columns.length + others.length) second with
        | error failure => rfl
        | ok more =>
          show Except.ok (columns ++ (others ++ more)) = Except.ok (columns ++ others ++ more)
          rw [List.append_assoc]

/-- Items with one result column each give these columns. -/
theorem items_of_forall₂ {items : List SelectItem} {results : List ResultColumn} (count : Nat)
    (h : List.Forall₂ (fun item result => ∀ ordinal, scope.item ordinal item = .ok [result])
      items results) : scope.items count items = .ok results := by
  induction h generalizing count with
  | nil => rfl
  | @cons item result _ _ hitem _ ih =>
    rw [Scope.items, hitem]
    show (scope.items (count + 1) _ >>= _) = _
    rw [ih]
    rfl

end Items

/-! ## Stars -/

/-- The result columns for all columns of a leaf, under their own names. -/
def LeafTable.results (forced : List String) (table : LeafTable) : List ResultColumn :=
  (table.columns.getD []).map fun own => tracedColumn own.name (table.source forced) own

section Stars

variable {scope : Scope} {forced : List String} {tables : List LeafTable} {table : LeafTable}

/-- Leaves whose columns are known are expanded one after the other. -/
theorem allColumns_of_known (shown : String) (h : ∀ table ∈ tables, table.columns ≠ none) :
    Scope.allColumns shown (tables.map (LeafTable.source forced)) =
      .ok (tables.flatMap (LeafTable.results forced)) := by
  induction tables with
  | nil => rfl
  | cons first rest ih =>
    obtain ⟨hfirst, hrest⟩ := List.forall_mem_cons.mp h
    obtain ⟨columns, hcolumns⟩ := Option.ne_none_iff_exists'.mp hfirst
    have hsource : (first.source forced).columns = some columns := hcolumns
    rw [List.map_cons, Scope.allColumns, hsource]
    dsimp only
    rw [ih hrest, List.flatMap_cons, LeafTable.results, hcolumns]
    rfl

/-- A leaf whose columns are not known cannot be expanded. -/
theorem allColumns_of_unknown (shown : String) (h : ∃ table ∈ tables, table.columns = none) :
    Scope.allColumns shown (tables.map (LeafTable.source forced)) =
      .error (.unexpandableWildcard shown) := by
  induction tables with
  | nil =>
    obtain ⟨table, htable, -⟩ := h
    cases htable
  | cons first rest ih =>
    rw [List.map_cons, Scope.allColumns]
    cases hcolumns : first.columns with
    | none =>
      have hsource : (first.source forced).columns = none := hcolumns
      rw [hsource]
    | some columns =>
      have hsource : (first.source forced).columns = some columns := hcolumns
      rw [hsource]
      dsimp only
      rw [ih]
      · rfl
      · -- The columns of this table are known, so the unknown ones are behind it.
        obtain ⟨table, htable, hnone⟩ := h
        rcases List.mem_cons.mp htable with rfl | htable
        · rw [hnone] at hcolumns
          cases hcolumns
        · exact ⟨table, htable, hnone⟩

/-- A star without a qualifier stands for all columns of all leaves, and fails if there is no leaf or
one of them has unknown columns. -/
structure ExpandsAll (scope : Scope) (forced : List String) (tables : List LeafTable) : Prop where
  known : tables ≠ [] → (∀ table ∈ tables, table.columns ≠ none) → ∀ count,
    scope.items count [.wildcard] = .ok (tables.flatMap (LeafTable.results forced))
  unknown : (tables = [] ∨ ∃ table ∈ tables, table.columns = none) → ∀ count,
    scope.items count [.wildcard] = .error (.unexpandableWildcard "*")

theorem expandsAll_of_shows (h : Shows scope forced tables) : ExpandsAll scope forced tables := by
  have hitem (count : Nat) : scope.items count [.wildcard] = scope.expandStar none :=
    items_singleton count .wildcard
  constructor
  · intro hne hknown count
    rw [hitem, Scope.expandStar, h.sources, allColumns_of_known "*" hknown]
    dsimp only
    rw [if_neg]
    rw [List.isEmpty_map, List.isEmpty_iff]
    exact hne
  · rintro hunknown count
    rw [hitem, Scope.expandStar, h.sources]
    rcases hunknown with rfl | hunknown
    · rfl
    · rw [allColumns_of_unknown "*" hunknown]
      dsimp only
      split <;> rfl

/-- A reference to a column with a qualifier of several parts. -/
def columnItem (parts : List Ident) (column : Ident) : SelectItem :=
  .unnamed (.compound (parts ++ [column]))

/-- A star behind a qualifier gives the columns of a leaf, and so does a list of references behind
the same qualifier, whatever stands around them. It fails if the columns are unknown. -/
structure Expands (scope : Scope) (forced : List String) (parts : List Ident) (table : LeafTable) :
    Prop where
  known : ∀ columns, table.columns = some columns → DistinctColumns columns →
    ∀ names : List Ident, names.map (·.value) = columns.map (·.name) →
      (∀ count, scope.items count [.qualifiedWildcard parts] = .ok (table.results forced)) ∧
      ∀ before after count, scope.items count (before ++ .qualifiedWildcard parts :: after) =
        scope.items count (before ++ names.map (columnItem parts) ++ after)
  unknown : table.columns = none → ∀ count, scope.items count [.qualifiedWildcard parts] =
    .error (.unexpandableWildcard (starName parts ++ ".*"))

theorem lastTwo?_concat {parts : List Ident} {qualifier : Ident}
    (h : parts.getLast? = some qualifier) (column : Ident) :
    Scope.lastTwo? (parts ++ [column]) = some (qualifier, column) := by
  induction parts with
  | nil => cases h
  | cons first rest ih =>
    cases rest with
    | nil =>
      obtain rfl := Option.some.inj h
      rfl
    | cons second more =>
      rw [List.getLast?_cons_cons] at h
      have htwo := ih h
      cases more with
      | nil => exact htwo
      | cons third others => exact htwo

/-- A list of references to the columns of an exposed leaf gives these columns. -/
theorem items_columnItem (h : Shows scope forced tables) (hunique : UniquelyExposed tables)
    {parts : List Ident} {qualifier : Ident} (hlast : parts.getLast? = some qualifier)
    (htable : table ∈ tables) (hexposed : table.isExposedAs qualifier.value = true)
    {columns : List SourceColumn} (hcolumns : table.columns = some columns)
    (hdistinct : DistinctColumns columns) {names : List Ident}
    (hnames : names.map (·.value) = columns.map (·.name)) (count : Nat) :
    scope.items count (names.map (columnItem parts)) = .ok (table.results forced) := by
  apply items_of_forall₂
  rw [LeafTable.results, hcolumns, Option.getD_some, List.forall₂_map_left_iff,
    List.forall₂_map_right_iff]
  have hpairs : List.Forall₂ (fun (name : Ident) (own : SourceColumn) => name.value = own.name)
      names columns := by
    have hsame : List.Forall₂ (· = ·) (names.map (·.value)) (columns.map (·.name)) := by
      rw [List.forall₂_eq_eq_eq]
      exact hnames
    exact List.forall₂_map_right_iff.mp (List.forall₂_map_left_iff.mp hsame)
  obtain ⟨hlength, hpair⟩ := List.forall₂_iff_zip.mp hpairs
  refine List.forall₂_iff_zip.mpr ⟨hlength, fun {name own} hmem ordinal => ?_⟩
  have hexpr : Scope.unnested (Scope.aliasedValue (.compound (parts ++ [name])) none).1 =
      .compound (parts ++ [name]) := rfl
  rw [columnItem, Scope.item, projected_compound scope ordinal hexpr (lastTwo?_concat hlast name),
    hpair hmem, Scope.reference, reference_of_isExposedAs h hunique htable hexposed hcolumns
      hdistinct (List.of_mem_zip hmem).2]
  rfl

/-- A star gives the columns of the leaf that is exposed under the qualifier that it is read with. -/
theorem expands_of_isExposedAs (h : Shows scope forced tables) (hunique : UniquelyExposed tables)
    {parts : List Ident} {qualifier : Ident} (hlast : parts.getLast? = some qualifier)
    (htable : table ∈ tables) (hexposed : table.isExposedAs qualifier.value = true)
    (hread : table.isExposedAs (starName parts) = true) : Expands scope forced parts table := by
  have hstar (count : Nat) : scope.items count [.qualifiedWildcard parts] =
      Scope.allColumns (starName parts ++ ".*") ([table].map (LeafTable.source forced)) := by
    rw [items_singleton, item_qualifiedWildcard, sourceNamed_of_isExposedAs h hunique htable hread]
    rfl
  constructor
  · intro columns hcolumns hdistinct names hnames
    have hknown (count : Nat) :
        scope.items count [.qualifiedWildcard parts] = .ok (table.results forced) := by
      rw [hstar, allColumns_of_known, List.flatMap_singleton]
      rw [List.forall_mem_singleton, hcolumns]
      exact Option.some_ne_none columns
    refine ⟨hknown, fun before after count => ?_⟩
    have hlist := items_columnItem h hunique hlast htable hexposed hcolumns hdistinct hnames
    -- What stands before and behind meets the same columns in both projections.
    rw [List.append_assoc, items_append, items_append, ← List.singleton_append]
    refine congrArg _ (funext fun first => ?_)
    rw [items_append, items_append, hknown, hlist]
  · intro hunknown count
    rw [hstar, allColumns_of_unknown]
    exact ⟨table, List.mem_singleton_self table, hunknown⟩

end Stars

/-! ## Which qualifiers may stand in front of a star -/

/-- A table under a name. -/
def namedTable (table : String) (label : Ident) : JoinedSource :=
  ⟨.table [⟨table, none⟩] none "" (some ⟨label, []⟩) [], []⟩

/-- A table that is exposed under a name makes a scope. -/
theorem exists_hasScope_namedTable {table : String} (h : table = "a" ∨ table = "b") (label : Ident) :
    ∃ scope tree own columns, own.leaf = .source (.unqualified table) (some label.value) ∧
      own.columns = some columns ∧ DistinctColumns columns ∧
      twoTables.HasScope [] [namedTable table label] scope tree [own] := by
  rcases h with rfl | rfl
  · exact ⟨_, some (.leaf (.source (.unqualified "a") (some label.value))), ⟨_, _⟩, _, rfl, rfl,
      by decide, ⟨rfl, rfl, rfl⟩⟩
  · exact ⟨_, some (.leaf (.source (.unqualified "b") (some label.value))), ⟨_, _⟩, _, rfl, rfl,
      by decide, ⟨rfl, rfl, rfl⟩⟩

/-- A table whose name is not the one that is read for a star does not expand under another name
that is read differently. -/
theorem exists_not_expands {parts : List Ident} {qualifier : Ident}
    (hlast : parts.getLast? = some qualifier)
    (hread : Text.lower (starName parts) ≠ Text.lower qualifier.value) :
    ∃ sources scope tree own, twoTables.HasScope [] sources scope tree [own] ∧
      own.isExposedAs qualifier.value = true ∧
      ¬ Expands scope (forcedNames tree) parts own := by
  -- One of two names is not the one that is read.
  obtain ⟨table, htable, hdiffers⟩ : ∃ table, (table = "a" ∨ table = "b") ∧
      Text.sameText (lastSegment table) (starName parts) = false := by
    by_cases ha : Text.sameText (lastSegment "a") (starName parts) = true
    · refine ⟨"b", Or.inr rfl, Bool.eq_false_iff.mpr fun hb => ?_⟩
      have hsame := ((Text.sameText_iff _ _).mp ha).trans ((Text.sameText_iff _ _).mp hb).symm
      exact absurd hsame (by decide)
    · exact ⟨"a", Or.inl rfl, Bool.eq_false_iff.mpr ha⟩
  obtain ⟨scope, tree, own, columns, hleaf, hcolumns, hdistinct, hscope⟩ :=
    exists_hasScope_namedTable htable qualifier
  obtain ⟨hshows, -⟩ := hscope.shows
  have hexposed (name : String) :
      own.isExposedAs name = (Text.lower qualifier.value == Text.lower name) := by
    rw [LeafTable.isExposedAs, hleaf]
    rfl
  refine ⟨_, scope, tree, own, hscope, by rw [hexposed, beq_self_eq_true], fun hexpands => ?_⟩
  have hitems := ((hexpands.known columns hcolumns hdistinct (columns.map fun own => ⟨own.name, none⟩)
    (by rw [List.map_map]; rfl)).1 0)
  -- The name that is read names no leaf, so the star fails.
  have hnone : leafNamed? [own] (starName parts) = none := by
    have hends : own.endsIn (starName parts) = false := by
      rw [← hdiffers, LeafTable.endsIn, LeafTable.source, hleaf]
      rcases htable with rfl | rfl <;> rfl
    rw [leafNamed?, List.findIdx?_singleton, List.findIdx?_singleton, hexposed, hends,
      beq_false_of_ne (Ne.symm hread)]
    rfl
  obtain ⟨shown, hfails⟩ := item_of_leafNamed_eq_none hshows (.star hlast) hnone 1
  rw [items_singleton, hfails] at hitems
  cases hitems

/-- A star behind a qualifier gives, for every source that is exposed under this name, what a list of
references to its columns gives, exactly if the qualifier that is read from the text of the star is
the same name; so it is if the value of the name has no period and is kept by its quotes. A star
without a qualifier gives the columns of all sources. -/
theorem star_expands_iff {parts : List Ident} {qualifier : Ident}
    (hlast : parts.getLast? = some qualifier) :
    ((∀ r ctes sources scope tree tables, Resolver.HasScope r ctes sources scope tree tables →
        ∀ table ∈ tables, table.isExposedAs qualifier.value = true →
          Expands scope (forcedNames tree) parts table) ↔
      Text.lower (starName parts) = Text.lower qualifier.value) ∧
    (qualifier.IsSpelled → '.' ∉ qualifier.value.toList → qualifier.KeepsValue →
      Text.lower (starName parts) = Text.lower qualifier.value) ∧
    ∀ r ctes sources scope tree tables, Resolver.HasScope r ctes sources scope tree tables →
      ExpandsAll scope (forcedNames tree) tables := by
  refine ⟨⟨fun hall => ?_, fun hread r ctes sources scope tree tables hscope table htable hexposed =>
    ?_⟩, fun hspelled hdot hkeeps => ?_, fun r ctes sources scope tree tables hscope => ?_⟩
  · by_contra hread
    -- A source of this name, and no other, is one that the star misses.
    obtain ⟨sources, scope, tree, own, hscope, hexposed, hnot⟩ := exists_not_expands hlast hread
    exact hnot (hall _ _ _ _ _ _ hscope own (List.mem_singleton_self own) hexposed)
  · obtain ⟨hshows, hunique⟩ := hscope.shows
    refine expands_of_isExposedAs hshows hunique hlast htable hexposed ?_
    unfold LeafTable.isExposedAs at hexposed ⊢
    rw [hread]
    exact hexposed
  · rw [(starName_eq_iff hlast hspelled).mpr ⟨hdot, hkeeps⟩]
  · exact expandsAll_of_shows hscope.shows.1

/-- In `SELECT c.* FROM a LEFT JOIN b c ON ..` the star gives the columns of `b`. -/
theorem star_expands_of_joined_table :
    ∃ query select scope tree tables, Grammar.parseQuery
        "select c.* from a left join b c on a.id = c.id" = .ok query ∧
      query.body = .select select ∧ twoTables.HasScope [] select.sources scope tree tables ∧
      [(⟨"c", none⟩ : Ident)].getLast? = some ⟨"c", none⟩ ∧
      ∃ table ∈ tables, table.isExposedAs "c" = true ∧
        Expands scope (forcedNames tree) [⟨"c", none⟩] table := by
  obtain ⟨query, select, scope, tree, tables, hquery, hselect, hscope, item, -, htest⟩ :=
    exists_item_of_selectsItem "select c.* from a left join b c on a.id = c.id"
      (fun tables _ _ => tables.any (·.isExposedAs "c")) (by decide +kernel)
  obtain ⟨table, htable, hexposed⟩ := List.any_eq_true.mp htest
  exact ⟨query, select, scope, tree, tables, hquery, hselect, hscope, rfl, table, htable, hexposed,
    (star_expands_iff (show [(⟨"c", none⟩ : Ident)].getLast? = some ⟨"c", none⟩ from rfl)).1.mpr
      (by decide +kernel) _ _ _ _ _ _ hscope table htable hexposed⟩

/-- In `SELECT [a.b].* FROM a [a.b]` the star fails, as it is read as `b.*`, though the column of the
source is known and a reference with the same qualifier resolves to it. -/
theorem star_of_dotted_name :
    ∃ query select scope tree tables item,
      Grammar.parseQuery "select [a.b].* from a [a.b]" = .ok query ∧
      query.body = .select select ∧ twoTables.HasScope [] select.sources scope tree tables ∧
      item ∈ select.projection ∧ item = .qualifiedWildcard [⟨"a.b", some '['⟩] ∧
      (∃ table ∈ tables, table.isExposedAs "a.b" = true ∧ ∃ own, table.columns = some [own] ∧
        ∀ column : Ident, column.value = own.name → ∀ count,
          scope.items count [columnItem [⟨"a.b", some '['⟩] column] =
            .ok (table.results (forcedNames tree))) ∧
      ∀ count, scope.items count [item] = .error (.unknownQualifier "b" "b.*") := by
  obtain ⟨query, select, scope, tree, tables, hquery, hselect, hscope, item, hitem, htest⟩ :=
    exists_item_of_selectsItem "select [a.b].* from a [a.b]"
      (fun tables _ item =>
        (match item with
          | .qualifiedWildcard parts => parts == [⟨"a.b", some '['⟩]
          | _ => false) &&
        (leafNamed? tables "b").isNone && tables.any fun table => table.isExposedAs "a.b" &&
          table.columns.any (·.length == 1)) (by decide +kernel)
  obtain ⟨htest, htables⟩ := Bool.and_eq_true_iff.mp htest
  obtain ⟨hstar, hnone⟩ := Bool.and_eq_true_iff.mp htest
  obtain ⟨hshows, hunique⟩ := hscope.shows
  obtain rfl : item = .qualifiedWildcard [⟨"a.b", some '['⟩] := by
    split at hstar
    · rw [eq_of_beq hstar]
    · cases hstar
  refine ⟨query, select, scope, tree, tables, _, hquery, hselect, hscope, hitem, rfl, ?_, ?_⟩
  · obtain ⟨table, htable, hexposed⟩ := List.any_eq_true.mp htables
    obtain ⟨hexposed, hone⟩ := Bool.and_eq_true_iff.mp hexposed
    obtain ⟨columns, hcolumns, hone⟩ := (Option.any_eq_true _ _).mp hone
    obtain ⟨own, rfl⟩ := List.length_eq_one_iff.mp (eq_of_beq hone)
    refine ⟨table, htable, hexposed, own, hcolumns, fun column hcolumn count => ?_⟩
    have hlast : [(⟨"a.b", some '['⟩ : Ident)].getLast? = some ⟨"a.b", some '['⟩ := rfl
    have hnames : [column].map (·.value) = [own].map (·.name) := by
      rw [List.map_singleton, hcolumn, List.map_singleton]
    exact items_columnItem hshows hunique hlast htable hexposed hcolumns
      (List.pairwise_singleton _ _) hnames count
  · intro count
    -- The star's name is cut at the dot within the brackets.
    have hread : starName [⟨"a.b", some '['⟩] = "b" := by decide +kernel
    rw [items_singleton, item_qualifiedWildcard, sourceNamed_eq hshows, hread,
      Option.isNone_iff_eq_none.mp hnone]
    rfl

end SchemaPlan
