import SchemaPlan.Proofs.Resolve.Stars

/-!
# Listed columns

The list behind the alias of a common table expression or of a query in parentheses renames the
columns of the query, one by one. Their types and whether they may be null stay as they are. The
name is read from the text of the list, so it is the listed one exactly if this has no white space
and is kept by its quotes: `([a b])` lists a column `a`.

* `listed_iff_kept`: exactly when the columns have the listed names, and what these then stand for.
-/

namespace SchemaPlan

open SchemaPlan.Sql SchemaPlan.Query

/-! ## Bodies with rows -/

/-- A body that resolves has rows of its own. -/
theorem yieldsRows_of_body {r : Resolver} : ∀ (body : Body) {ctes : List CteShape}
    {resolved : ResolvedQuery}, r.body ctes body = .ok resolved → yieldsRows body = true
  | .select select, ctes, resolved, h => rfl
  | .values explicitRow rows, ctes, resolved, h => rfl
  | .nested ⟨recursive, own, body, tail⟩, ctes, resolved, h => by
    rw [Resolver.body_nested] at h
    obtain ⟨inner, -, hbody⟩ := Resolver.query_eq_ok.mp h
    exact yieldsRows_of_body body hbody
  | .operation left operator right, ctes, resolved, h => by
    obtain ⟨first, hfirst, -⟩ := Resolver.body_operation_eq_ok.mp h
    exact yieldsRows_of_body left hfirst
  | .other pieces, ctes, resolved, h => absurd h Resolver.body_other_ne_ok

/-! ## Names of a list -/

/-- The columns of a query under the listed names. -/
def listedColumns (listed : List AliasColumn) (columns : List ResultColumn) : List SourceColumn :=
  List.zipWith (fun name column => ⟨name.name.value, column.type, column.isNullable⟩) listed columns

/-- Columns of which nothing but the listed names is known. -/
def unknownColumns (listed : List AliasColumn) : List SourceColumn :=
  listed.map fun name => ⟨name.name.value, .unknown, true⟩

/-- The listed names have no white space and are kept by their quotes. -/
def AreKept (listed : List AliasColumn) : Prop :=
  ∀ name ∈ listed, (∀ c ∈ name.name.value.toList, Text.isSpace c = false) ∧ name.name.KeepsValue

/-- No two listed names are the same. -/
def DistinctNames (listed : List AliasColumn) : Prop :=
  listed.Pairwise fun first second => Text.sameText first.name.value second.name.value = false

section Names

variable {listed : List AliasColumn}

theorem areKept_iff (h : ∀ name ∈ listed, name.name.IsSpelled) :
    AreKept listed ↔ ∀ name ∈ listed, aliasColumnName name = name.name.value :=
  forall₂_congr fun name hname => (aliasColumnName_eq_iff (h name hname)).symm

/-- As many names as columns are given to them exactly if all names are read as they are listed. -/
theorem renamed_eq_listedColumns_iff {columns : List ResultColumn}
    (hlength : columns.length = listed.length) :
    renamed (listed.map aliasColumnName) (columns.map ResultColumn.toSource) =
        listedColumns listed columns ↔
      ∀ name ∈ listed, aliasColumnName name = name.name.value := by
  induction listed generalizing columns with
  | nil =>
    obtain rfl := List.length_eq_zero_iff.mp hlength
    exact iff_of_true rfl (List.forall_mem_nil _)
  | cons name names ih =>
    obtain ⟨column, rest, rfl⟩ := List.exists_cons_of_length_eq_add_one hlength
    have hrest := ih (Nat.succ.inj hlength)
    rw [List.forall_mem_cons, ← hrest, List.map_cons, List.map_cons, renamed, listedColumns,
      List.zipWith_cons_cons, List.cons.injEq]
    refine and_congr_left' ?_
    rw [SourceColumn.mk.injEq]
    exact ⟨fun h => h.1, fun h => ⟨h, rfl, rfl⟩⟩

theorem map_unknown_eq_unknownColumns_iff :
    (listed.map aliasColumnName).map (fun name => SourceColumn.mk name .unknown true) =
        unknownColumns listed ↔
      ∀ name ∈ listed, aliasColumnName name = name.name.value := by
  rw [List.map_map, unknownColumns, List.map_inj_left]
  refine forall₂_congr fun name _ => ?_
  rw [Function.comp_apply, SourceColumn.mk.injEq]
  exact ⟨fun h => h.1, fun h => ⟨h, rfl, rfl⟩⟩

theorem map_name_listedColumns {columns : List ResultColumn}
    (hlength : columns.length = listed.length) :
    (listedColumns listed columns).map (·.name) = listed.map (·.name.value) := by
  rw [listedColumns, List.map_zipWith]
  induction listed generalizing columns with
  | nil => rfl
  | cons name names ih =>
    obtain ⟨column, rest, rfl⟩ := List.exists_cons_of_length_eq_add_one hlength
    rw [List.zipWith_cons_cons, List.map_cons, ih (Nat.succ.inj hlength)]

end Names

/-! ## References to listed names -/

/-- In every select with a source that has some columns, each listed name stands for the column at
its place: with a qualifier under which the source is exposed, and without one if no other source
has the name. -/
def ListedNamesFind (r : Resolver) (listed : List AliasColumn) (columns : List SourceColumn) :
    Prop :=
  ∀ ctes sources scope tree tables, r.HasScope ctes sources scope tree tables →
    ∀ (i : Nat) (table : LeafTable), tables[i]? = some table → table.columns = some columns →
    ∀ (k : Nat) (name : AliasColumn) (shown : String), listed[k]? = some name →
      ∃ own, columns[k]? = some own ∧
        (∀ qualifier, table.isExposedAs qualifier = true →
          scope.lookup (some qualifier) name.name.value shown =
            .ok (.known (table.source (forcedNames tree)) own)) ∧
        ((∀ (j : Nat) (other : LeafTable), tables[j]? = some other → j ≠ i →
            other.columnIndex? name.name.value = none) →
          scope.lookup none name.name.value shown =
            .ok (.known (table.source (forcedNames tree)) own))

/-- A list in which one element has an image has this image only. -/
theorem filterMap_eq_singleton {α β : Type} {f : α → Option β} {items : List α} {i : Nat} {a : α}
    {b : β} (hitem : items[i]? = some a) (himage : f a = some b)
    (hothers : ∀ (j : Nat) (other : α), items[j]? = some other → j ≠ i → f other = none) :
    items.filterMap f = [b] := by
  induction items generalizing i with
  | nil => cases hitem
  | cons first rest ih =>
    cases i with
    | zero =>
      obtain rfl := Option.some.inj hitem
      rw [List.filterMap_cons, himage, List.cons.injEq, List.filterMap_eq_nil_iff]
      refine ⟨rfl, fun other hother => ?_⟩
      obtain ⟨j, hj⟩ := List.mem_iff_getElem?.mp hother
      exact hothers (j + 1) other hj (Nat.succ_ne_zero j)
    | succ i =>
      rw [List.filterMap_cons, hothers 0 first rfl (Nat.succ_ne_zero i).symm]
      exact ih hitem fun j other hother hj => hothers (j + 1) other hother (by omega)

theorem column?_eq_none {forced : List String} {table : LeafTable} {name : String}
    (h : table.columnIndex? name = none) : (table.source forced).column? name = none := by
  have hcolumn : Option.Rel (IsColumn table) ((table.source forced).column? name)
      (table.columnIndex? name) := column?_source table name
  rw [h] at hcolumn
  cases hfound : (table.source forced).column? name with
  | none => rfl
  | some own =>
    rw [hfound] at hcolumn
    cases hcolumn

/-- Different names stand for the columns at their places. -/
theorem listedNamesFind_of_distinct (r : Resolver) {listed : List AliasColumn}
    {columns : List SourceColumn} (hnames : columns.map (·.name) = listed.map (·.name.value))
    (hdistinct : DistinctNames listed) : ListedNamesFind r listed columns := by
  -- Distinct as names written in the list, hence distinct as names of columns.
  have hcolumns : DistinctColumns columns := by
    unfold DistinctNames at hdistinct
    unfold DistinctColumns
    rw [← List.pairwise_map (f := fun name : AliasColumn => name.name.value)
      (R := fun first second => Text.sameText first second = false)] at hdistinct
    rw [← List.pairwise_map (f := fun column : SourceColumn => column.name)
      (R := fun first second => Text.sameText first second = false), hnames]
    exact hdistinct
  intro ctes sources scope tree tables hscope i table htable htableColumns k name shown hname
  obtain ⟨hshows, hunique⟩ := hscope.shows
  obtain ⟨own, hown, hvalue⟩ : ∃ own, columns[k]? = some own ∧ own.name = name.name.value := by
    have hkth := congrArg (·[k]?) hnames
    simp only [List.getElem?_map, hname, Option.map_some] at hkth
    exact Option.map_eq_some_iff.mp hkth
  have hmem := List.mem_of_getElem? hown
  refine ⟨own, hown, fun qualifier hexposed => ?_, fun hothers => ?_⟩
  · rw [← hvalue]
    exact reference_of_isExposedAs hshows hunique (List.mem_of_getElem? htable) hexposed
      htableColumns hcolumns hmem shown
  · -- Only the source of this leaf has a column with the name.
    have hcolumn : (table.source (forcedNames tree)).column? name.name.value = some own := by
      have hsource : (table.source (forcedNames tree)).columns = some columns := htableColumns
      rw [ScopeSource.column?, hsource, Option.bind_some, ← hvalue]
      exact find?_of_distinctColumns hcolumns hmem
    have hmatches : scope.matches? name.name.value =
        [(table.source (forcedNames tree), own)] := by
      rw [Scope.matches?, hshows.sources, List.filterMap_map]
      refine filterMap_eq_singleton htable ?_ fun j other hother hj => ?_
      · rw [Function.comp_apply, hcolumn]
        rfl
      · rw [Function.comp_apply, column?_eq_none (hothers j other hother hj)]
        rfl
    rw [Scope.lookup, hmatches]

/-! ## Sources with a list -/

section Sources

variable {r : Resolver} {ctes : List CteShape} {label : TableAlias} {query : Query}

/-- A common table expression is known by its name, with the columns under the names of its list. -/
theorem withCtes_cons {resolved : ResolvedQuery} (h : r.query ctes query = .ok resolved)
    (origin : Option Ident) (rest : List Cte) :
    r.withCtes ctes (⟨label, query, origin⟩ :: rest) = r.withCtes (⟨label.name.value,
      renamed (label.columns.map aliasColumnName) (resolved.columns.map ResultColumn.toSource)⟩ ::
        ctes) rest := by
  rw [Resolver.withCtes, h]
  rfl

/-- A query in parentheses has the columns under the names of its list. -/
theorem factor_derived {resolved : ResolvedQuery} (h : r.query ctes query = .ok resolved)
    (lateral : Bool) (forced : List String) :
    r.factor ctes forced (.derived lateral query (some label)) = .ok [⟨label.name.value,
      some (renamed (label.columns.map aliasColumnName)
        (resolved.columns.map ResultColumn.toSource)), isForced forced label.name.value⟩] := by
  obtain ⟨inner, -, hbody⟩ := Resolver.query_eq_ok.mp h
  rw [Resolver.factor]
  dsimp only
  rw [if_pos (yieldsRows_of_body query.body hbody), h]
  rfl

/-- Of a statement in parentheses only the names of its list are known. -/
theorem factor_derived_of_not_yieldsRows (h : yieldsRows query.body = false)
    (hne : label.columns ≠ []) (lateral : Bool) (forced : List String) :
    r.factor ctes forced (.derived lateral query (some label)) = .ok [⟨label.name.value,
      some ((label.columns.map aliasColumnName).map fun name => ⟨name, .unknown, true⟩),
      isForced forced label.name.value⟩] := by
  have hnames : ((label.columns.map aliasColumnName).isEmpty) = false := by
    rw [List.isEmpty_map, Bool.eq_false_iff, ne_eq, List.isEmpty_iff]
    exact hne
  rw [Resolver.factor]
  dsimp only [Option.map_some, Option.getD_some]
  rw [if_neg (Bool.eq_false_iff.mp h), if_neg (Bool.eq_false_iff.mp hnames)]
  rfl

/-- A source that is named like the last common table expression has its columns. -/
theorem sourceColumns?_cte (columns : List SourceColumn) {name : String} {object : QualifiedName}
    (hparts : object.schema = none ∧ object.database = none)
    (hname : Text.sameText name object.name = true)
    (hsigns : Text.startsWith "@" object.name = false ∧ Text.startsWith "#" object.name = false) :
    r.sourceColumns? (⟨name, columns⟩ :: ctes) object = some columns := by
  unfold Resolver.sourceColumns?
  rw [hsigns.1, hsigns.2, hparts.1, hparts.2]
  dsimp only
  rw [if_neg Bool.false_ne_true, if_neg Bool.false_ne_true, List.find?_cons, hname]
  rfl

end Sources

/-- A common table expression and a query in parentheses with as many listed names as columns have
these columns, under the listed names exactly if none of the names has white space and all are kept
by their quotes. If the names are also distinct, each stands for the column at its place. The same
holds for the names that are listed for a statement of which no columns are known. -/
theorem listed_iff_kept {r : Resolver} {ctes : List CteShape} {label : TableAlias} {query : Query}
    (hspelled : ∀ name ∈ label.columns, name.name.IsSpelled) :
    (∀ resolved, r.query ctes query = .ok resolved →
      resolved.columns.length = label.columns.length → ∃ columns,
        (∀ origin rest, r.withCtes ctes (⟨label, query, origin⟩ :: rest) =
          r.withCtes (⟨label.name.value, columns⟩ :: ctes) rest) ∧
        (∀ object : QualifiedName, object.schema = none ∧ object.database = none →
          Text.sameText label.name.value object.name = true →
          Text.startsWith "@" object.name = false ∧ Text.startsWith "#" object.name = false →
          r.sourceColumns? (⟨label.name.value, columns⟩ :: ctes) object = some columns) ∧
        (∀ lateral forced, r.factor ctes forced (.derived lateral query (some label)) =
          .ok [⟨label.name.value, some columns, isForced forced label.name.value⟩]) ∧
        (columns = listedColumns label.columns resolved.columns ↔ AreKept label.columns) ∧
        (AreKept label.columns → DistinctNames label.columns →
          ListedNamesFind r label.columns columns)) ∧
    (yieldsRows query.body = false → label.columns ≠ [] → ∃ columns,
        (∀ lateral forced, r.factor ctes forced (.derived lateral query (some label)) =
          .ok [⟨label.name.value, some columns, isForced forced label.name.value⟩]) ∧
        (columns = unknownColumns label.columns ↔ AreKept label.columns) ∧
        (AreKept label.columns → DistinctNames label.columns →
          ListedNamesFind r label.columns columns)) := by
  -- The names are compared as they are rendered, and that keeps them exactly if `AreKept`.
  have hkept := areKept_iff hspelled
  constructor
  · intro resolved hresolved hlength
    have hcolumns := (renamed_eq_listedColumns_iff hlength).trans hkept.symm
    refine ⟨_, withCtes_cons hresolved, fun object => sourceColumns?_cte _,
      factor_derived hresolved, hcolumns, fun hall hdistinct => ?_⟩
    rw [hcolumns.mpr hall]
    exact listedNamesFind_of_distinct r (map_name_listedColumns hlength) hdistinct
  · intro hrows hne
    have hcolumns := (@map_unknown_eq_unknownColumns_iff label.columns).trans hkept.symm
    refine ⟨_, factor_derived_of_not_yieldsRows hrows hne, hcolumns, fun hall hdistinct => ?_⟩
    rw [hcolumns.mpr hall]
    exact listedNamesFind_of_distinct r (by rw [unknownColumns, List.map_map]; rfl) hdistinct

/-! ## A query in parentheses -/

/-- Whether a text is a select from a query in parentheses with an alias, for which a test succeeds
with the alias and the columns of the query. -/
def selectsListed (text : String) (test : TableAlias → List ResultColumn → Bool) : Bool :=
  (Grammar.parseQuery text).toOption.any fun query =>
    match query.body with
    | .select ⟨_, _, _, _, [⟨.derived _ inner (some label), []⟩], _, _, _⟩ =>
      (twoTables.query [] inner).toOption.any fun resolved => test label resolved.columns
    | _ => false

/-- The query in parentheses of a text, with its alias and its columns. -/
theorem exists_derived_of_selectsListed (text : String)
    (test : TableAlias → List ResultColumn → Bool) (h : selectsListed text test = true) :
    ∃ query select lateral inner label resolved, Grammar.parseQuery text = .ok query ∧
      query.body = .select select ∧ select.sources = [⟨.derived lateral inner (some label), []⟩] ∧
      twoTables.query [] inner = .ok resolved ∧ test label resolved.columns = true := by
  obtain ⟨query, hquery, h⟩ := (Option.any_eq_true _ _).mp h
  split at h
  · rename_i hselect
    obtain ⟨resolved, hresolved, htest⟩ := (Option.any_eq_true _ _).mp h
    exact ⟨query, _, _, _, _, resolved, toOption_eq_some hquery, hselect, rfl,
      toOption_eq_some hresolved, htest⟩
  · cases h

/-- In `SELECT d.[v.w] FROM (SELECT id, v FROM b) d (k, [v.w])` the columns have the listed names. -/
theorem listed_names_kept :
    ∃ query select lateral inner label resolved,
      Grammar.parseQuery "select d.[v.w] from (select id, v from b) d (k, [v.w])" = .ok query ∧
      query.body = .select select ∧ select.sources = [⟨.derived lateral inner (some label), []⟩] ∧
      twoTables.query [] inner = .ok resolved ∧ (∀ name ∈ label.columns, name.name.IsSpelled) ∧
      resolved.columns.length = label.columns.length ∧
      label.columns.map (·.name) = [⟨"k", none⟩, ⟨"v.w", some '['⟩] ∧
      twoTables.factor [] [] (.derived lateral inner (some label)) =
        .ok [⟨"d", some (listedColumns label.columns resolved.columns), false⟩] := by
  obtain ⟨query, select, lateral, inner, label, resolved, hquery, hselect, hsources, hresolved,
      htest⟩ := exists_derived_of_selectsListed
    "select d.[v.w] from (select id, v from b) d (k, [v.w])" (fun label columns =>
      label == ⟨⟨"d", none⟩, [⟨⟨"k", none⟩, none⟩, ⟨⟨"v.w", some '['⟩, none⟩]⟩ &&
        columns.length == 2) (by decide +kernel)
  obtain ⟨hlabel, hlength⟩ := Bool.and_eq_true_iff.mp htest
  have hlabel := eq_of_beq hlabel
  have hspelled : ∀ name ∈ label.columns, name.name.IsSpelled := by
    rw [hlabel]
    simp [Ident.IsSpelled]
  have hlength : resolved.columns.length = label.columns.length := by
    rw [eq_of_beq hlength, hlabel]
    rfl
  have hkept : AreKept label.columns := by
    rw [areKept_iff hspelled, hlabel]
    decide +kernel
  obtain ⟨columns, -, -, hfactor, hiff, -⟩ := (listed_iff_kept hspelled).1 resolved hresolved hlength
  refine ⟨query, select, lateral, inner, label, resolved, hquery, hselect, hsources, hresolved,
    hspelled, hlength, by rw [hlabel]; rfl, ?_⟩
  rw [hfactor lateral [], hiff.mpr hkept, hlabel]
  rfl

/-- In `SELECT [k v] FROM (SELECT id FROM a) d ([k v])` the column does not have the listed name, and
the reference to this name does not resolve. -/
theorem listed_name_with_blank :
    ∃ query select lateral inner label resolved,
      Grammar.parseQuery "select [k v] from (select id from a) d ([k v])" = .ok query ∧
      query.body = .select select ∧ select.sources = [⟨.derived lateral inner (some label), []⟩] ∧
      twoTables.query [] inner = .ok resolved ∧ (∀ name ∈ label.columns, name.name.IsSpelled) ∧
      resolved.columns.length = label.columns.length ∧
      label.columns.map (·.name) = [⟨"k v", some '['⟩] ∧
      (∃ source, twoTables.factor [] [] (.derived lateral inner (some label)) = .ok [source] ∧
        source.columns ≠ some (listedColumns label.columns resolved.columns)) ∧
      twoTables.query [] query = .error (.unresolvedColumn "k v") := by
  obtain ⟨query, select, lateral, inner, label, resolved, hquery, hselect, hsources, hresolved,
      htest⟩ := exists_derived_of_selectsListed
    "select [k v] from (select id from a) d ([k v])" (fun label columns =>
      label == ⟨⟨"d", none⟩, [⟨⟨"k v", some '['⟩, none⟩]⟩ && columns.length == 1)
    (by decide +kernel)
  obtain ⟨hlabel, hlength⟩ := Bool.and_eq_true_iff.mp htest
  have hlabel := eq_of_beq hlabel
  have hspelled : ∀ name ∈ label.columns, name.name.IsSpelled := by
    rw [hlabel]
    simp [Ident.IsSpelled]
  have hlength : resolved.columns.length = label.columns.length := by
    rw [eq_of_beq hlength, hlabel]
    rfl
  have hnames := (renamed_eq_listedColumns_iff hlength).not.mpr (by rw [hlabel]; decide +kernel)
  have hfails : (Grammar.parseQuery "select [k v] from (select id from a) d ([k v])").toOption.all
      (fun query => twoTables.query [] query == .error (.unresolvedColumn "k v")) = true := by
    decide +kernel
  rw [hquery] at hfails
  exact ⟨query, select, lateral, inner, label, resolved, hquery, hselect, hsources, hresolved,
    hspelled, hlength, by rw [hlabel]; rfl, ⟨_, factor_derived hresolved lateral [],
      fun hsame => hnames (Option.some.inj hsame)⟩, eq_of_beq hfails⟩

end SchemaPlan
