import SchemaPlan.Proofs.Join.Folding
import SchemaPlan.Resolve.Query

/-!
# Scopes and ASCII case

What a reference, a star or an item of a projection stands for in a scope does not depend on the
case of its names nor on that of the names in the scope: the columns it gives are the same up to the
case of their names, and so is the kind of its failure.
-/

namespace SchemaPlan

open SchemaPlan.Sql SchemaPlan.Query SchemaPlan.Text

theorem sameText_congr {a b a' b' : String} (ha : asciiLower a = asciiLower a')
    (hb : asciiLower b = asciiLower b') : sameText a b = sameText a' b' := by
  rw [Bool.eq_iff_iff, sameText_iff, sameText_iff, ha, hb]

theorem lower_congr {a b : String} (h : asciiLower a = asciiLower b) : lower a = lower b := by
  rw [← lower_asciiLower a, h, lower_asciiLower]

theorem startsWith_congr {start a b : String} (hstart : Caseless start.toList)
    (h : asciiLower a = asciiLower b) : startsWith start a = startsWith start b := by
  rw [← startsWith_asciiLower hstart, h, startsWith_asciiLower hstart]

theorem isVariable_congr {a b : String} (h : asciiLower a = asciiLower b) :
    isVariable a = isVariable b := by
  rw [← isVariable_asciiLower a, h, isVariable_asciiLower]

theorem withoutSign_congr {a b : String} (h : asciiLower a = asciiLower b) :
    asciiLower (withoutSign a) = asciiLower (withoutSign b) := by
  rw [asciiLower_withoutSign, h, asciiLower_withoutSign]

theorem map_some_congr {a b : String} (h : asciiLower a = asciiLower b) :
    (some a).map asciiLower = (some b).map asciiLower :=
  congrArg some h

theorem asciiLower_getD (label : Option String) (name : String) :
    asciiLower (label.getD name) = (label.map asciiLower).getD (asciiLower name) :=
  (Option.getD_map asciiLower name label).symm

theorem asciiLower_lastSegment (name : String) :
    asciiLower (lastSegment name) = lastSegment (asciiLower name) := by
  have hdot : IgnoresCase (· == '.') := beq_toLower rfl
  unfold lastSegment
  rw [← map_asciiLower_splitWhere hdot, List.getLast?_map]
  cases (splitWhere (· == '.') name).getLast? <;> rfl

/-! ## Sources -/

/-- A column with its name in lower case. -/
def SourceColumn.folded (column : SourceColumn) : SourceColumn :=
  { column with name := asciiLower column.name }

/-- A source with its names in lower case. -/
def ScopeSource.folded (source : ScopeSource) : ScopeSource :=
  { source with
    identifier := asciiLower source.identifier
    columns := source.columns.map (·.map SourceColumn.folded) }

/-- Scopes whose sources differ in the case of their names only and are exposed under the same
names. -/
structure Scope.Alike (scope scope' : Scope) : Prop where
  sources : scope.sources.map ScopeSource.folded = scope'.sources.map ScopeSource.folded
  exposed : scope.names.exposed = scope'.names.exposed

/-- A column of a result with its name in lower case, apart from where it comes from. -/
def ResultColumn.folded (column : ResultColumn) : SourceColumn := column.toSource.folded

/-- Columns of a result that differ in the case of their names only. -/
def SameColumns (columns columns' : List ResultColumn) : Prop :=
  columns.map ResultColumn.folded = columns'.map ResultColumn.folded

/-- Equal images can be found in either list by tests that agree on them. -/
theorem map_find?_eq {α β : Type} {f : α → β} {p p' : α → Bool} (test : β → Bool)
    (hp : ∀ a, p a = test (f a)) (hp' : ∀ a, p' a = test (f a)) {list list' : List α}
    (h : list.map f = list'.map f) : (list.find? p).map f = (list'.find? p').map f := by
  rw [funext hp, funext hp', ← Function.comp_def, ← List.find?_map, ← List.find?_map, h]

namespace ScopeSource

variable {source source' : ScopeSource} {name name' : String}

theorem isForced_eq (h : source.folded = source'.folded) : source.isForced = source'.isForced :=
  (ScopeSource.mk.inj h).2.2

theorem isNone_columns_eq (h : source.folded = source'.folded) :
    source.columns.isNone = source'.columns.isNone := by
  have hcolumns := congrArg Option.isNone (ScopeSource.mk.inj h).2.1
  rwa [Option.isNone_map, Option.isNone_map] at hcolumns

theorem map_column?_eq (h : source.folded = source'.folded)
    (hname : asciiLower name = asciiLower name') :
    (source.column? name).map SourceColumn.folded =
      (source'.column? name').map SourceColumn.folded := by
  have hcolumns : source.columns.map (·.map SourceColumn.folded) =
      source'.columns.map (·.map SourceColumn.folded) := (ScopeSource.mk.inj h).2.1
  unfold column?
  cases hfirst : source.columns with
  | none =>
    rw [hfirst, eq_comm] at hcolumns
    rw [Option.map_eq_none_iff.mp hcolumns]
    rfl
  | some columns =>
    rw [hfirst, eq_comm] at hcolumns
    obtain ⟨columns', hsecond, hcolumns⟩ := Option.map_eq_some_iff.mp hcolumns
    rw [hsecond]
    refine map_find?_eq (fun column => sameText column.name name) (fun column => ?_)
      (fun column => ?_) hcolumns.symm
    · exact sameText_congr (asciiLower_asciiLower _).symm rfl
    · exact sameText_congr (asciiLower_asciiLower _).symm hname.symm

end ScopeSource

/-! ## References -/

/-- What a reference stands for, with names in lower case. -/
def ColumnMatch.folded : ColumnMatch → ColumnMatch
  | .known source column => .known source.folded column.folded
  | .untraced source => .untraced (source.map ScopeSource.folded)

theorem folded_tracedColumn {name name' : String} (hname : asciiLower name = asciiLower name')
    {source source' : ScopeSource} (hsource : source.folded = source'.folded)
    {column column' : SourceColumn} (hcolumn : column.folded = column'.folded) :
    (tracedColumn name source column).folded = (tracedColumn name' source' column').folded := by
  obtain ⟨-, htype, hnullable⟩ := SourceColumn.mk.inj hcolumn
  simp only [ResultColumn.folded, ResultColumn.toSource, SourceColumn.folded, tracedColumn, hname,
    htype, hnullable, ScopeSource.isForced_eq hsource]

theorem folded_untracedColumn {name name' : String} (hname : asciiLower name = asciiLower name')
    (provenance provenance' : Provenance) :
    (untracedColumn name provenance).folded = (untracedColumn name' provenance').folded := by
  simp only [ResultColumn.folded, ResultColumn.toSource, SourceColumn.folded, untracedColumn, hname]

namespace Scope

variable {scope scope' : Scope}

theorem agree_sourceNamed (h : scope.Alike scope') {qualifier qualifier' : String}
    (hqualifier : asciiLower qualifier = asciiLower qualifier') (shown shown' : String) :
    Agree (fun source source' => source.folded = source'.folded)
      (scope.sourceNamed qualifier shown) (scope'.sourceNamed qualifier' shown') := by
  have hindex : scope.names.index? qualifier = scope'.names.index? qualifier' := by
    rw [SourceNames.index?, SourceNames.index?, lower_congr hqualifier, h.exposed]
  -- First the names under which sources are exposed, then the last segments of what they are
  -- called: both searches find sources that differ in case only.
  have hexposed : ((scope.names.index? qualifier).bind (scope.sources[·]?)).map ScopeSource.folded =
      ((scope'.names.index? qualifier').bind (scope'.sources[·]?)).map ScopeSource.folded := by
    rw [hindex]
    cases scope'.names.index? qualifier' with
    | none => rfl
    | some i =>
      have hplace := congrArg (·[i]?) h.sources
      rwa [List.getElem?_map, List.getElem?_map] at hplace
  have hnamed : (scope.sources.find? fun source =>
        sameText (lastSegment source.identifier) qualifier).map ScopeSource.folded =
      (scope'.sources.find? fun source =>
        sameText (lastSegment source.identifier) qualifier').map ScopeSource.folded := by
    have hlast (source : ScopeSource) : asciiLower (lastSegment source.identifier) =
        asciiLower (lastSegment source.folded.identifier) := by
      rw [asciiLower_lastSegment, asciiLower_lastSegment]
      exact congrArg lastSegment (asciiLower_asciiLower _).symm
    refine map_find?_eq (fun source => sameText (lastSegment source.identifier) qualifier) ?_ ?_
      h.sources
    · exact fun source => sameText_congr (hlast source) rfl
    · exact fun source => sameText_congr (hlast source) hqualifier.symm
  unfold sourceNamed
  -- Which search finds the source is the same on both sides.
  cases hfirst : (scope.names.index? qualifier).bind (scope.sources[·]?) with
  | some source =>
    rw [hfirst, eq_comm] at hexposed
    obtain ⟨source', hsecond, hsource⟩ := Option.map_eq_some_iff.mp hexposed
    rw [hsecond]
    exact .ok hsource.symm
  | none =>
    rw [hfirst, eq_comm] at hexposed
    rw [Option.map_eq_none_iff.mp hexposed]
    dsimp only
    cases hfound : scope.sources.find? fun source =>
        sameText (lastSegment source.identifier) qualifier with
    | some source =>
      rw [hfound, eq_comm] at hnamed
      obtain ⟨source', hfound', hsource⟩ := Option.map_eq_some_iff.mp hnamed
      rw [hfound']
      exact .ok hsource.symm
    | none =>
      rw [hfound, eq_comm] at hnamed
      rw [Option.map_eq_none_iff.mp hnamed]
      exact .error rfl

/-- The source and the column of a match in lower case. -/
def foldedMatch (found : ScopeSource × SourceColumn) : ScopeSource × SourceColumn :=
  (found.1.folded, found.2.folded)

theorem map_matches?_eq (h : scope.Alike scope') {column column' : String}
    (hcolumn : asciiLower column = asciiLower column') :
    (scope.matches? column).map foldedMatch = (scope'.matches? column').map foldedMatch := by
  have hsources := h.sources
  unfold matches?
  generalize scope.sources = sources, scope'.sources = sources' at hsources
  induction sources generalizing sources' with
  | nil =>
    rw [List.map_eq_nil_iff.mp hsources.symm]
    rfl
  | cons source rest ih =>
    obtain ⟨source', rest', rfl, hsource, hrest⟩ := List.map_eq_cons_iff.mp hsources.symm
    have hfound := ScopeSource.map_column?_eq hsource.symm hcolumn
    rw [List.filterMap_cons, List.filterMap_cons]
    -- A source has the column or not, the same in both scopes.
    cases hfirst : source.column? column with
    | none =>
      rw [hfirst, eq_comm] at hfound
      rw [Option.map_eq_none_iff.mp hfound]
      exact ih rest' hrest.symm
    | some found =>
      rw [hfirst, eq_comm] at hfound
      obtain ⟨found', hsecond, hfound⟩ := Option.map_eq_some_iff.mp hfound
      rw [hsecond]
      have hpair : foldedMatch (source, found) = foldedMatch (source', found') := by
        rw [foldedMatch, foldedMatch, hsource, hfound]
      exact congrArg₂ List.cons hpair (ih rest' hrest.symm)

theorem map_opaque_eq (h : scope.Alike scope') :
    (scope.sources.filter (·.columns.isNone)).map ScopeSource.folded =
      (scope'.sources.filter (·.columns.isNone)).map ScopeSource.folded := by
  have hfilter (sources : List ScopeSource) :
      (sources.filter (·.columns.isNone)).map ScopeSource.folded =
        (sources.map ScopeSource.folded).filter (·.columns.isNone) := by
    rw [List.filter_map]
    refine congrArg (List.map ScopeSource.folded) (congrFun (congrArg List.filter ?_) _)
    exact funext fun source => Option.isNone_map.symm
  rw [hfilter, hfilter, h.sources]

/-- With a qualifier a column is looked for in the source of this name. -/
theorem agree_lookup_qualified (h : scope.Alike scope') {qualifier qualifier' : String}
    (hqualifier : asciiLower qualifier = asciiLower qualifier') {column column' : String}
    (hcolumn : asciiLower column = asciiLower column') (shown shown' : String) :
    Agree (fun found found' => found.folded = found'.folded)
      (scope.lookup (some qualifier) column shown)
      (scope'.lookup (some qualifier') column' shown') := by
  unfold lookup
  refine (agree_sourceNamed h hqualifier shown shown').bind fun source source' hsource => ?_
  have hfound := ScopeSource.map_column?_eq hsource hcolumn
  rw [ScopeSource.isNone_columns_eq hsource]
  cases source'.columns.isNone with
  | true => exact .ok (congrArg (ColumnMatch.untraced ∘ some) hsource)
  | false =>
    cases hfirst : source.column? column with
    | none =>
      rw [hfirst, eq_comm] at hfound
      rw [Option.map_eq_none_iff.mp hfound]
      exact .error rfl
    | some found =>
      rw [hfirst, eq_comm] at hfound
      obtain ⟨found', hsecond, hfound⟩ := Option.map_eq_some_iff.mp hfound
      rw [hsecond]
      exact .ok (congrArg₂ ColumnMatch.known hsource hfound.symm)

/-- Without a qualifier the matches decide, and the opaque sources where there is none. -/
theorem agree_lookup_unqualified (h : scope.Alike scope') {column column' : String}
    (hcolumn : asciiLower column = asciiLower column') (shown shown' : String) :
    Agree (fun found found' => found.folded = found'.folded) (scope.lookup none column shown)
      (scope'.lookup none column' shown') := by
  have hmatches := map_matches?_eq h hcolumn
  have hopaque := map_opaque_eq h
  unfold lookup
  dsimp only
  generalize scope.matches? column = found, scope'.matches? column' = found' at hmatches
  generalize scope.sources.filter (·.columns.isNone) = sources,
    scope'.sources.filter (·.columns.isNone) = sources' at hopaque
  -- The other scope has as many matches and as many opaque sources, so it takes the same branch.
  match found, sources with
  | [], [] =>
    rw [List.map_eq_nil_iff.mp hmatches.symm, List.map_eq_nil_iff.mp hopaque.symm]
    exact .error rfl
  | [], [source] =>
    obtain ⟨source', hsources, hsource⟩ := List.map_eq_singleton_iff.mp hopaque.symm
    rw [List.map_eq_nil_iff.mp hmatches.symm, hsources]
    exact .ok (congrArg (ColumnMatch.untraced ∘ some) hsource.symm)
  | [], _ :: _ :: _ =>
    obtain ⟨first, more, rfl, -, hmore⟩ := List.map_eq_cons_iff.mp hopaque.symm
    obtain ⟨second, rest, rfl, -, -⟩ := List.map_eq_cons_iff.mp hmore
    rw [List.map_eq_nil_iff.mp hmatches.symm]
    exact .ok rfl
  | [match'], _ =>
    obtain ⟨second, hfound, hmatch⟩ := List.map_eq_singleton_iff.mp hmatches.symm
    rw [hfound]
    obtain ⟨hsource, hcolumn⟩ := Prod.mk.inj hmatch
    exact .ok (congrArg₂ ColumnMatch.known hsource.symm hcolumn.symm)
  | _ :: _ :: _, _ =>
    obtain ⟨first, more, rfl, -, hmore⟩ := List.map_eq_cons_iff.mp hmatches.symm
    obtain ⟨second, rest, rfl, -, -⟩ := List.map_eq_cons_iff.mp hmore
    exact .error rfl

theorem agree_lookup (h : scope.Alike scope') {qualifier qualifier' : Option String}
    (hqualifier : qualifier.map asciiLower = qualifier'.map asciiLower) {column column' : String}
    (hcolumn : asciiLower column = asciiLower column') (shown shown' : String) :
    Agree (fun found found' => found.folded = found'.folded) (scope.lookup qualifier column shown)
      (scope'.lookup qualifier' column' shown') := by
  cases qualifier with
  | some qualifier =>
    obtain ⟨qualifier', rfl, hsame⟩ := Option.map_eq_some_iff.mp hqualifier.symm
    exact agree_lookup_qualified h hsame.symm hcolumn shown shown'
  | none =>
    rw [Option.map_eq_none_iff.mp hqualifier.symm]
    exact agree_lookup_unqualified h hcolumn shown shown'

theorem agree_reference (h : scope.Alike scope') {qualifier qualifier' label label' : Option String}
    (hqualifier : qualifier.map asciiLower = qualifier'.map asciiLower) {column column' : String}
    (hcolumn : asciiLower column = asciiLower column')
    (hlabel : label.map asciiLower = label'.map asciiLower) (shown shown' : String) :
    Agree (fun result result' => result.folded = result'.folded)
      (scope.reference qualifier column label shown)
      (scope'.reference qualifier' column' label' shown') := by
  have hname : asciiLower (label.getD column) = asciiLower (label'.getD column') := by
    rw [asciiLower_getD, asciiLower_getD, hlabel, hcolumn]
  unfold reference
  refine (agree_lookup h hqualifier hcolumn shown shown').bind fun found found' hfound => ?_
  cases found with
  | known source column =>
    cases found' with
    | known source' column' =>
      obtain ⟨hsource, hcolumn⟩ := ColumnMatch.known.inj hfound
      exact .ok (folded_tracedColumn hname hsource hcolumn)
    | untraced => cases hfound
  | untraced source =>
    cases found' with
    | known => cases hfound
    | untraced source' => exact .ok (folded_untracedColumn hname _ _)

/-! ## Stars -/

theorem agree_allColumns {sources sources' : List ScopeSource}
    (h : sources.map ScopeSource.folded = sources'.map ScopeSource.folded) (shown shown' : String) :
    Agree SameColumns (allColumns shown sources) (allColumns shown' sources') := by
  induction sources generalizing sources' with
  | nil =>
    rw [List.map_eq_nil_iff.mp h.symm]
    exact .ok rfl
  | cons source rest ih =>
    obtain ⟨source', rest', rfl, hsource, hrest⟩ := List.map_eq_cons_iff.mp h.symm
    have hcolumns : source'.columns.map (·.map SourceColumn.folded) =
      source.columns.map (·.map SourceColumn.folded) := (ScopeSource.mk.inj hsource).2.1
    unfold allColumns
    cases hfirst : source.columns with
    | none =>
      rw [hfirst] at hcolumns
      rw [Option.map_eq_none_iff.mp hcolumns]
      exact .error rfl
    | some columns =>
      rw [hfirst] at hcolumns
      obtain ⟨columns', hsecond, hcolumns⟩ := Option.map_eq_some_iff.mp hcolumns
      rw [hsecond]
      refine (ih hrest.symm).bind fun more more' hmore => .ok ?_
      unfold SameColumns at hmore ⊢
      rw [List.map_append, List.map_append, hmore]
      -- Being forced is read off the source, and folding a name does not change it.
      have htraced (source : ScopeSource) (columns : List SourceColumn) :
          (columns.map fun column => tracedColumn column.name source column).map
              ResultColumn.folded =
            (columns.map SourceColumn.folded).map fun column =>
              { column with isNullable := column.isNullable || source.isForced } := by
        rw [List.map_map, List.map_map]
        rfl
      rw [htraced, htraced, hcolumns, ScopeSource.isForced_eq hsource]

theorem agree_expandStar (h : scope.Alike scope') {qualifier qualifier' : Option String}
    (hqualifier : qualifier.map asciiLower = qualifier'.map asciiLower) :
    Agree SameColumns (scope.expandStar qualifier) (scope'.expandStar qualifier') := by
  cases qualifier with
  | some qualifier =>
    obtain ⟨qualifier', rfl, hsame⟩ := Option.map_eq_some_iff.mp hqualifier.symm
    unfold expandStar
    refine (agree_sourceNamed h hsame.symm _ _).bind fun source source' hsource => ?_
    have hsources : [source].map ScopeSource.folded = [source'].map ScopeSource.folded :=
      congrArg (fun source => [source]) hsource
    exact agree_allColumns hsources _ _
  | none =>
    rw [Option.map_eq_none_iff.mp hqualifier.symm]
    have hempty : scope.sources.isEmpty = scope'.sources.isEmpty := by
      rw [← List.isEmpty_map, h.sources, List.isEmpty_map]
    unfold expandStar
    dsimp only
    rw [hempty]
    cases scope'.sources.isEmpty with
    | true => exact .error rfl
    | false => exact agree_allColumns h.sources _ _

/-! ## Projections -/

theorem unnested_folded (expr : Expr) : unnested expr.folded = (unnested expr).folded := by
  fun_induction unnested expr with
  | case1 inner ih => exact ih
  | case2 expr hexpr =>
    cases expr with
    | nested inner => exact absurd rfl (hexpr inner)
    | _ => rfl

theorem startsWith_value_folded {start : String} (hstart : Caseless start.toList) (name : Ident) :
    startsWith start name.folded.value = startsWith start name.value :=
  startsWith_congr hstart name.asciiLower_value_folded

/-- A name that is given with an equals sign is found in either case. -/
theorem aliasedValue_folded (expr : Expr) (label : Option String) :
    (aliasedValue expr.folded (label.map asciiLower)).1 = (aliasedValue expr label).1.folded ∧
      (aliasedValue expr.folded (label.map asciiLower)).2.map asciiLower =
        (aliasedValue expr label).2.map asciiLower := by
  have hlabel : (label.map asciiLower).map asciiLower = label.map asciiLower := by
    cases label with
    | none => rfl
    | some label => exact congrArg some (asciiLower_asciiLower label)
  fun_cases aliasedValue expr label with
  | case1 name value hsign =>
    have hsign' : startsWith "@" name.folded.value = true := by
      rwa [startsWith_value_folded (by decide)]
    simp only [Expr.folded, aliasedValue, Option.map_none, hsign', if_true, and_self]
  | case2 name value hsign =>
    have hsign' : ¬ startsWith "@" name.folded.value = true := by
      rwa [startsWith_value_folded (by decide)]
    simp only [Expr.folded, aliasedValue, Option.map_none, if_neg hsign', Option.map_some,
      name.asciiLower_value_folded, and_self]
  -- No name is given with an equals sign, and folding makes no such expression out of another one.
  | case3 expr label hnone =>
    have hkept : aliasedValue expr.folded (label.map asciiLower) =
        (expr.folded, label.map asciiLower) := by
      unfold aliasedValue
      split
      · rename_i name value hexpr hnolabel
        cases expr with
        | binary left operator right =>
          obtain ⟨hleft, rfl, -⟩ := Expr.binary.inj hexpr
          cases left with
          | ident => exact (hnone _ _ rfl (Option.map_eq_none_iff.mp hnolabel)).elim
          | _ => cases hleft
        | _ => cases hexpr
      · rfl
    rw [hkept]
    exact ⟨rfl, hlabel⟩

theorem lastTwo?_map_folded : ∀ parts : List Ident,
    lastTwo? (parts.map Ident.folded) =
      (lastTwo? parts).map fun found => (found.1.folded, found.2.folded)
  | [] => rfl
  | [_] => rfl
  | [_, _] => rfl
  | _ :: second :: third :: rest => lastTwo?_map_folded (second :: third :: rest)

theorem agree_projected (h : scope.Alike scope') {expr expr' : Expr}
    (hexpr : expr.folded = expr'.folded) {label label' : Option String}
    (hlabel : label.map asciiLower = label'.map asciiLower) (ordinal : Nat) :
    Agree (fun result result' => result.folded = result'.folded)
      (scope.projected expr label ordinal) (scope'.projected expr' label' ordinal) := by
  have hnamed : (aliasedValue expr label).2.map asciiLower =
      (aliasedValue expr' label').2.map asciiLower := by
    rw [← (aliasedValue_folded expr label).2, hexpr, hlabel, (aliasedValue_folded expr' label').2]
  have hvalue : (unnested (aliasedValue expr label).1).folded =
      (unnested (aliasedValue expr' label').1).folded := by
    rw [← unnested_folded, ← unnested_folded, ← (aliasedValue_folded expr label).1, hexpr, hlabel,
      (aliasedValue_folded expr' label').1]
  unfold projected
  dsimp only
  generalize (aliasedValue expr label).2 = given, (aliasedValue expr' label').2 = given' at hnamed
  generalize unnested (aliasedValue expr label).1 = value,
    unnested (aliasedValue expr' label').1 = value' at hvalue
  -- A value that is not looked up is named by its label, or else by the name it brings.
  have hcomputed (name name' : String) (hname : asciiLower name = asciiLower name')
      (provenance provenance' : Provenance) :
      Agree (fun result result' => result.folded = result'.folded)
        (.ok (untracedColumn (given.getD name) provenance))
        (.ok (untracedColumn (given'.getD name') provenance')) := by
    refine .ok (folded_untracedColumn ?_ _ _)
    rw [asciiLower_getD, asciiLower_getD, hnamed, hname]
  cases value with
  | ident name =>
    cases value' with
    | ident name' =>
      have hname := Ident.asciiLower_value_eq (Expr.ident.inj hvalue)
      dsimp only
      -- The signs of variables have no case, so both names are variables or neither is.
      rw [startsWith_congr (by decide) hname, isVariable_congr hname]
      split
      · exact hcomputed _ _ rfl _ _
      · split
        · exact hcomputed _ _ (withoutSign_congr hname) _ _
        · exact agree_reference h rfl hname hnamed _ _
    | _ => cases hvalue
  | compound parts =>
    cases value' with
    | compound parts' =>
      have htwo := congrArg lastTwo? (Expr.compound.inj hvalue)
      rw [lastTwo?_map_folded, lastTwo?_map_folded] at htwo
      dsimp only
      cases hfirst : lastTwo? parts with
      | none =>
        rw [hfirst, eq_comm] at htwo
        rw [Option.map_eq_none_iff.mp htwo]
        exact hcomputed _ _ rfl _ _
      | some found =>
        rw [hfirst, eq_comm] at htwo
        obtain ⟨found', hsecond, hfound⟩ := Option.map_eq_some_iff.mp htwo
        obtain ⟨hqualifier, hcolumn⟩ := Prod.mk.inj hfound
        rw [hsecond]
        have hqualifier := Ident.asciiLower_value_eq hqualifier.symm
        exact agree_reference h (map_some_congr hqualifier)
          (Ident.asciiLower_value_eq hcolumn.symm) hnamed _ _
    | _ => cases hvalue
  | _ =>
    cases value' with
    | ident | compound => cases hvalue
    | _ => exact hcomputed _ _ rfl _ _

theorem agree_item (h : scope.Alike scope') {item item' : SelectItem}
    (hitem : item.folded = item'.folded) (ordinal : Nat) :
    Agree SameColumns (scope.item ordinal item) (scope'.item ordinal item') := by
  cases item with
  | unnamed expr =>
    cases item' with
    | unnamed expr' =>
      exact (agree_projected h (SelectItem.unnamed.inj hitem) rfl ordinal).bind
        fun result result' hresult => .ok (congrArg (fun result => [result]) hresult)
    | _ => cases hitem
  | aliased expr label =>
    cases item' with
    | aliased expr' label' =>
      obtain ⟨hexpr, hlabel⟩ := SelectItem.aliased.inj hitem
      exact (agree_projected h hexpr (map_some_congr (Ident.asciiLower_value_eq hlabel)) ordinal).bind
        fun result result' hresult => .ok (congrArg (fun result => [result]) hresult)
    | _ => cases hitem
  | wildcard =>
    cases item' with
    | wildcard =>
      change Agree SameColumns (scope.expandStar none) (scope'.expandStar none)
      exact agree_expandStar h rfl
    | _ => cases hitem
  | qualifiedWildcard qualifier =>
    cases item' with
    | qualifiedWildcard qualifier' =>
      have htext : asciiLower (nameText qualifier) = asciiLower (nameText qualifier') := by
        rw [← asciiLower_nameText_folded, SelectItem.qualifiedWildcard.inj hitem,
          asciiLower_nameText_folded]
      refine agree_expandStar h (map_some_congr ?_)
      rw [asciiLower_unquote, asciiLower_unquote, asciiLower_lastSegment, asciiLower_lastSegment,
        htext]
    | _ => cases hitem

/-- Projections that differ in case give columns that differ in case. -/
theorem agree_items (h : scope.Alike scope') {items items' : List SelectItem}
    (hitems : foldedItems items = foldedItems items') (count : Nat) :
    Agree SameColumns (scope.items count items) (scope'.items count items') := by
  induction items generalizing items' count with
  | nil =>
    cases items' with
    | nil => exact .ok rfl
    | cons => cases hitems
  | cons item rest ih =>
    cases items' with
    | nil => cases hitems
    | cons item' rest' =>
      obtain ⟨hitem, hrest⟩ := List.cons.inj hitems
      unfold Scope.items
      refine (agree_item h hitem (count + 1)).bind fun columns columns' hcolumns => ?_
      have hlength : columns.length = columns'.length := by
        simpa using congrArg List.length hcolumns
      rw [hlength]
      refine (ih hrest _).bind fun more more' hmore => .ok ?_
      unfold SameColumns at hcolumns hmore ⊢
      rw [List.map_append, List.map_append, hcolumns, hmore]

end Scope

end SchemaPlan
