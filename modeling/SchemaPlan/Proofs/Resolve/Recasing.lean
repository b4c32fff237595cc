import SchemaPlan.Grammar.Query
import SchemaPlan.Proofs.Resolve.Folding
import SchemaPlan.Proofs.Resolve.Nullability
import SchemaPlan.Schema.Model

/-!
# Queries that differ in case

Two queries that differ in the case of their names only have one outcome: either both fail, for
reasons of one kind, or both resolve to the same columns up to the case of their names. This is so
for every two such queries whose joins are read alike.
-/

namespace SchemaPlan

open SchemaPlan.Sql SchemaPlan.Query SchemaPlan.Text

/-! ## Distinct names -/

theorem asciiLower_freshName_eq {name name' : String} (h : asciiLower name = asciiLower name')
    (taken : List String) : asciiLower (freshName taken name) = asciiLower (freshName taken name') := by
  have hnumbered (ending : String) : asciiLower (name ++ ending) = asciiLower (name' ++ ending) := by
    rw [asciiLower_append, asciiLower_append, h]
  have hnew : (fun n : Nat => !taken.contains (lower (name ++ toString n))) =
      fun n => !taken.contains (lower (name' ++ toString n)) :=
    funext fun n => by rw [lower_congr (hnumbered _)]
  unfold freshName
  rw [lower_congr h]
  split
  · dsimp only
    rw [hnew]
    exact hnumbered _
  · exact h

theorem sameColumns_distinctNames {columns columns' : List ResultColumn}
    (h : SameColumns columns columns') (taken : List String) :
    SameColumns (distinctNames taken columns) (distinctNames taken columns') := by
  induction columns generalizing columns' taken with
  | nil =>
    rw [List.map_eq_nil_iff.mp h.symm]
    rfl
  | cons column rest ih =>
    obtain ⟨column', rest', rfl, hcolumn, hrest⟩ := List.map_eq_cons_iff.mp h.symm
    obtain ⟨hname, htype, hnullable⟩ := SourceColumn.mk.inj hcolumn.symm
    have hfresh : asciiLower (freshName taken column.name) =
        asciiLower (freshName taken column'.name) := asciiLower_freshName_eq hname taken
    unfold distinctNames
    dsimp only
    rw [lower_congr hfresh]
    refine congrArg₂ List.cons ?_ (ih hrest.symm _)
    exact SourceColumn.mk.injEq .. ▸ ⟨hfresh, htype, hnullable⟩

/-! ## Selects -/

theorem isTopOne_folded (top : Option Top) : isTopOne (foldedTop top) = isTopOne top := by
  match top with
  | none => rfl
  | some ⟨.number _, _, _⟩ => rfl
  | some ⟨.expr _, true, _⟩ => rfl
  | some ⟨.expr amount, false, _⟩ =>
    have hdrop : IgnoresCase fun c => c == '(' || c == ')' || isSpace c := fun c => by
      simp only [beq_toLower (d := '(') rfl, beq_toLower (d := ')') rfl, isSpace_toLower c]
    have hone (text : String) : asciiLower text = "1" ↔ text = "1" := asciiLower_eq_iff (by decide)
    simp only [foldedTop, isTopOne]
    rw [Bool.eq_iff_iff, beq_iff_eq, beq_iff_eq, ← hone, asciiLower_trimWhere hdrop,
      amount.asciiLower_text_folded, ← asciiLower_trimWhere hdrop, hone]

theorem namedValue_folded (expr : Expr) : namedValue expr.folded = (namedValue expr).folded := by
  unfold namedValue
  rw [Scope.unnested_folded]
  cases Scope.unnested expr with
  | binary left operator right =>
    simp only [Expr.folded]
    split
    · rename_i heq
      obtain ⟨-, rfl, rfl⟩ := Expr.binary.inj heq
      exact Scope.unnested_folded right
    · rename_i hne
      split
      · rename_i heq
        obtain ⟨-, rfl, rfl⟩ := Expr.binary.inj heq
        exact (hne _ _ rfl).elim
      · rfl
  | _ => rfl

/-- Words that open a brace, and words without letters, are told from all others in either case. -/
theorem eq_of_foldedWords_eq {words target : String} (h : foldedWords words = target)
    (htarget : startsWith "\x7b" target = true ∨ Caseless target.toList) : words = target := by
  unfold foldedWords at h
  split at h
  · exact h
  · rename_i hopens
    rcases htarget with htarget | htarget
    · rw [← h, startsWith_asciiLower (by decide)] at htarget
      exact absurd htarget hopens
    · exact (asciiLower_eq_iff htarget).mp h

theorem exists_of_foldedPieces_eq {pieces : List Piece} {first last : String} {operand : Expr}
    (h : foldedPieces pieces = [.text first, .expr operand, .text last]) :
    ∃ first' operand' last', pieces = [.text first', .expr operand', .text last'] ∧
      foldedWords first' = first ∧ operand'.folded = operand ∧ foldedWords last' = last := by
  match pieces with
  | [.text first', .expr operand', .text last'] =>
    obtain ⟨hfirst, hrest⟩ := List.cons.inj h
    obtain ⟨hoperand, hlast⟩ := List.cons.inj hrest
    exact ⟨first', operand', last', rfl, Piece.text.inj hfirst, Piece.expr.inj hoperand,
      Piece.text.inj (List.cons.inj hlast).1⟩
  | [] | .expr _ :: _ | .query _ :: _ | [.text _] | .text _ :: .text _ :: _
  | .text _ :: .query _ :: _ | [.text _, .expr _] | .text _ :: .expr _ :: .expr _ :: _
  | .text _ :: .expr _ :: .query _ :: _ | .text _ :: .expr _ :: .text _ :: .text _ :: _
  | .text _ :: .expr _ :: .text _ :: .expr _ :: _
  | .text _ :: .expr _ :: .text _ :: .query _ :: _ => cases h

theorem calledName?_folded (expr : Expr) :
    calledName? expr.folded = (calledName? expr).map (·.map Ident.folded) := by
  fun_cases calledName? expr with
  | case1 name arguments window => rfl
  | case2 name arguments window => rfl
  | case3 expr hcall hform =>
    unfold calledName?
    split
    · rename_i heq
      cases expr with
      | call name arguments window => exact (hcall _ _ _ rfl).elim
      | _ => cases heq
    · rename_i heq
      cases expr with
      | form pieces =>
        obtain ⟨first, operand, last, rfl, hfirst, hoperand, hlast⟩ :=
          exists_of_foldedPieces_eq (Expr.form.inj heq)
        obtain rfl := eq_of_foldedWords_eq hfirst (Or.inl (by decide))
        obtain rfl := eq_of_foldedWords_eq hlast (Or.inr (by decide))
        cases operand with
        | call name arguments window => exact (hform _ _ _ rfl).elim
        | _ => cases hoperand
      | _ => cases heq
    · rfl

theorem isAggregate_folded (item : SelectItem) : isAggregate item.folded = isAggregate item := by
  have hcall (expr : Expr) : ((calledName? (namedValue expr.folded)).any fun name =>
        name.getLast?.any fun part => aggregates.any (sameText · part.value)) =
      (calledName? (namedValue expr)).any fun name =>
        name.getLast?.any fun part => aggregates.any (sameText · part.value) := by
    have hpart (part : Ident) : aggregates.any (sameText · part.folded.value) =
        aggregates.any (sameText · part.value) := by
      refine congrArg aggregates.any (funext fun name => ?_)
      exact sameText_congr rfl part.asciiLower_value_folded
    rw [namedValue_folded, calledName?_folded, Option.any_map]
    refine congrArg (fun test => (calledName? (namedValue expr)).any test) (funext fun name => ?_)
    rw [List.getLast?_map, Option.any_map]
    exact congrArg (fun test => name.getLast?.any test) (funext hpart)
  cases item with
  | unnamed expr => exact hcall expr
  | aliased expr label => exact hcall expr
  | wildcard => rfl
  | qualifiedWildcard => rfl

theorem isGrouped_folded (grouping : Grouping) : isGrouped grouping.folded = isGrouped grouping := by
  match grouping with
  | .ungrouped | .all | .by [] | .by (_ :: _) => rfl

theorem isUngroupedAggregate_folded (select : Select) :
    isUngroupedAggregate select.folded = isUngroupedAggregate select := by
  obtain ⟨quantifier, top, projection, into, sources, filter, grouping, tail⟩ := select
  unfold isUngroupedAggregate
  simp only [Select.folded, isGrouped_folded]
  rcases projection with _ | ⟨item, _ | ⟨second, rest⟩⟩
  · rfl
  · simp only [foldedItems, isAggregate_folded]
  · rfl

theorem assignsVariable_folded (item : SelectItem) :
    assignsVariable item.folded = assignsVariable item := by
  cases item with
  | unnamed expr =>
    cases expr with
    | binary left operator right =>
      cases left with
      | ident name =>
        by_cases hassigns : operator = "="
        · subst hassigns
          exact isVariable_congr name.asciiLower_value_folded
        · simp [SelectItem.folded, Expr.folded, assignsVariable, hassigns]
      | _ => rfl
    | _ => rfl
  | aliased expr label => exact isVariable_congr label.asciiLower_value_folded
  | _ => rfl

theorem any_assignsVariable_folded (items : List SelectItem) :
    (foldedItems items).any assignsVariable = items.any assignsVariable := by
  induction items with
  | nil => rfl
  | cons item rest ih =>
    rw [foldedItems, List.any_cons, List.any_cons, assignsVariable_folded, ih]

/-- What is known of two queries is the same, up to the case of the names of their columns. -/
structure ResolvedQuery.Alike (resolved resolved' : ResolvedQuery) : Prop where
  columns : SameColumns resolved.columns resolved'.columns
  isSingleRow : resolved.isSingleRow = resolved'.isSingleRow
  returnsRows : resolved.returnsRows = resolved'.returnsRows

theorem ResolvedQuery.Alike.map_isNullable_eq {resolved resolved' : ResolvedQuery}
    (h : resolved.Alike resolved') :
    resolved.columns.map (·.isNullable) = resolved'.columns.map (·.isNullable) := by
  have hflags (columns : List ResultColumn) : columns.map (·.isNullable) =
      (columns.map ResultColumn.folded).map SourceColumn.isNullable := by
    rw [List.map_map]
    rfl
  rw [hflags, hflags, h.columns]

theorem agree_resolveSelect {select select' : Select} (h : select.folded = select'.folded)
    {scope scope' : Scope} (hscope : scope.Alike scope') :
    Agree ResolvedQuery.Alike (resolveSelect select scope) (resolveSelect select' scope') := by
  obtain ⟨quantifier, top, projection, into, sources, filter, grouping, tail⟩ := select
  obtain ⟨quantifier', top', projection', into', sources', filter', grouping', tail'⟩ := select'
  have haggregate := congrArg isUngroupedAggregate h
  rw [isUngroupedAggregate_folded, isUngroupedAggregate_folded] at haggregate
  obtain ⟨-, htop, hitems, hinto, hsources, -, -, -⟩ := Select.mk.inj h
  have htop := congrArg isTopOne htop
  rw [isTopOne_folded, isTopOne_folded] at htop
  have hassigns : (foldedItems projection).any assignsVariable =
      (foldedItems projection').any assignsVariable := by rw [hitems]
  rw [any_assignsVariable_folded, any_assignsVariable_folded] at hassigns
  have hinto := congrArg Option.isNone hinto
  rw [Option.isNone_map, Option.isNone_map] at hinto
  have hempty : sources.isEmpty = sources'.isEmpty := by
    cases sources <;> cases sources' <;> first | rfl | cases hsources
  unfold resolveSelect
  refine (Scope.agree_items hscope hitems 0).bind fun columns columns' hcolumns => .ok ?_
  have hdistinct := sameColumns_distinctNames hcolumns []
  have hlength : (distinctNames [] columns).length = (distinctNames [] columns').length := by
    simpa using congrArg List.length hdistinct
  refine ⟨hdistinct, ?_, ?_⟩
  · dsimp only
    rw [htop, hlength, hempty, haggregate]
  · dsimp only
    rw [hinto, hassigns]

/-! ## Rows -/

theorem length_foldedExprs (exprs : List Expr) : (foldedExprs exprs).length = exprs.length := by
  induction exprs with
  | nil => rfl
  | cons expr rest ih => rw [foldedExprs, List.length_cons, List.length_cons, ih]

theorem resolveRows_folded (rows : List (List Expr)) :
    resolveRows (foldedRows rows) = resolveRows rows := by
  have hlength (rows : List (List Expr)) : (foldedRows rows).length = rows.length := by
    induction rows with
    | nil => rfl
    | cons row rest ih => rw [foldedRows, List.length_cons, List.length_cons, ih]
  have hwidth : (foldedRows rows).head?.map List.length = rows.head?.map List.length := by
    cases rows with
    | nil => rfl
    | cons row rest => exact congrArg some (length_foldedExprs row)
  unfold resolveRows
  rw [hlength, hwidth]

theorem body_folded (query : Query) : query.folded.body = query.body.folded := by
  cases query
  rfl

theorem yieldsRows_folded : ∀ body : Body, yieldsRows body.folded = yieldsRows body
  | .select ⟨_, _, _, _, _, _, _, _⟩ => rfl
  | .nested ⟨_, _, body, _⟩ => yieldsRows_folded body
  | .operation left _ _ => yieldsRows_folded left
  | .values _ _ => rfl
  | .other _ => rfl

/-! ## Named sources -/

/-- A common table expression with its names in lower case. -/
def CteShape.folded (cte : CteShape) : CteShape :=
  ⟨asciiLower cte.name, cte.columns.map SourceColumn.folded⟩

theorem map_folded_renamed (names : List String) (columns : List SourceColumn) :
    (renamed names columns).map SourceColumn.folded =
      renamed (names.map asciiLower) (columns.map SourceColumn.folded) := by
  induction names generalizing columns with
  | nil => rfl
  | cons name rest ih =>
    cases columns with
    | nil => rfl
    | cons column more => exact congrArg (_ :: ·) (ih more)

theorem map_folded_renamed_eq {names names' : List String}
    (hnames : names.map asciiLower = names'.map asciiLower) {columns columns' : List ResultColumn}
    (h : SameColumns columns columns') :
    (renamed names (columns.map ResultColumn.toSource)).map SourceColumn.folded =
      (renamed names' (columns'.map ResultColumn.toSource)).map SourceColumn.folded := by
  have hcolumns : (columns.map ResultColumn.toSource).map SourceColumn.folded =
      (columns'.map ResultColumn.toSource).map SourceColumn.folded := by
    rw [List.map_map, List.map_map]
    exact h
  rw [map_folded_renamed, map_folded_renamed, hnames, hcolumns]

/-- Names of columns of which nothing else is known. -/
theorem map_folded_unknown_eq {names names' : List String}
    (hnames : names.map asciiLower = names'.map asciiLower) :
    (if names.isEmpty then none
      else some (names.map fun name => SourceColumn.mk name .unknown true)).map
        (·.map SourceColumn.folded) =
      (if names'.isEmpty then none
        else some (names'.map fun name => SourceColumn.mk name .unknown true)).map
        (·.map SourceColumn.folded) := by
  have hempty : names.isEmpty = names'.isEmpty := by
    rw [← List.isEmpty_map (f := asciiLower), hnames, List.isEmpty_map]
  have hunknown (names : List String) :
      (names.map fun name => SourceColumn.mk name .unknown true).map SourceColumn.folded =
        (names.map asciiLower).map fun name => SourceColumn.mk name .unknown true := by
    rw [List.map_map, List.map_map]
    rfl
  rw [hempty]
  split
  · rfl
  · rw [Option.map_some, Option.map_some, hunknown, hnames, hunknown]

theorem objectColumns?_congr (model : SchemaModel) {schema schema' name name' : String}
    (hschema : asciiLower schema = asciiLower schema') (hname : asciiLower name = asciiLower name') :
    model.objectColumns? schema name = model.objectColumns? schema' name' := by
  have hrelation (relations : List Relation) :
      findRelation? relations schema name = findRelation? relations schema' name' := by
    unfold findRelation? sameObject
    simp only [sameText_congr rfl hschema, sameText_congr rfl hname]
  unfold SchemaModel.objectColumns? SchemaModel.table? SchemaModel.view?
  rw [hrelation, hrelation]

section Sources

variable (model : SchemaModel) (parameters : List Parameter)

theorem map_sourceColumns?_eq {ctes ctes' : List CteShape}
    (hctes : ctes.map CteShape.folded = ctes'.map CteShape.folded) {object object' : QualifiedName}
    (hobject : object.folded = object'.folded) :
    ((⟨model.catalog, parameters⟩ : Resolver).sourceColumns? ctes object).map
        (·.map SourceColumn.folded) =
      ((⟨model.catalog, parameters⟩ : Resolver).sourceColumns? ctes' object').map
        (·.map SourceColumn.folded) := by
  obtain ⟨hdatabase, hschema, hname⟩ := QualifiedName.mk.inj hobject
  have hparameter : (fun parameter : Parameter => sameText parameter.name (withoutSign object.name)) =
      fun parameter => sameText parameter.name (withoutSign object'.name) :=
    funext fun parameter => sameText_congr rfl (withoutSign_congr hname)
  have hplain : (object.schema.isNone && object.database.isNone) =
      (object'.schema.isNone && object'.database.isNone) := by
    rw [← Option.isNone_map (f := asciiLower) (x := object.schema), hschema, Option.isNone_map,
      ← Option.isNone_map (f := asciiLower) (x := object.database), hdatabase, Option.isNone_map]
  -- A name with a schema or a database is never that of a common table expression.
  have hcte : (if object.schema.isNone && object.database.isNone then
        ctes.find? fun cte => sameText cte.name object.name else none).map CteShape.folded =
      (if object'.schema.isNone && object'.database.isNone then
        ctes'.find? fun cte => sameText cte.name object'.name else none).map CteShape.folded := by
    rw [hplain]
    split
    · refine map_find?_eq (fun cte => sameText cte.name object.name) ?_ ?_ hctes
      · exact fun cte => sameText_congr (asciiLower_asciiLower _).symm rfl
      · exact fun cte => sameText_congr (asciiLower_asciiLower _).symm hname.symm
    · rfl
  have hobject : model.objectColumns? (object.schema.getD model.defaultSchema) object.name =
      model.objectColumns? (object'.schema.getD model.defaultSchema) object'.name := by
    refine objectColumns?_congr model ?_ hname
    rw [asciiLower_getD, hschema, asciiLower_getD]
  -- The branches are taken in the order of the definition: a variable, a temporary table, a common
  -- table expression, an object of the model.
  unfold Resolver.sourceColumns?
  rw [startsWith_congr (by decide) hname, startsWith_congr (by decide) hname, hparameter]
  dsimp only
  split
  · rfl
  · split
    · rfl
    · generalize (if object.schema.isNone && object.database.isNone then _ else none) = cte at hcte ⊢
      generalize (if object'.schema.isNone && object'.database.isNone then _ else none) = cte' at hcte ⊢
      cases cte with
      | none =>
        rw [Option.map_eq_none_iff.mp hcte.symm]
        exact congrArg (fun columns => (columns.map fun columns =>
          columns.map Column.toSource).map (·.map SourceColumn.folded)) hobject
      | some cte =>
        obtain ⟨cte', rfl, hsame⟩ := Option.map_eq_some_iff.mp hcte.symm
        exact congrArg some (CteShape.mk.inj hsame).2.symm

end Sources

theorem leafSource_folded (forced : List String) (leaf : Leaf)
    (columns : Option (List SourceColumn)) :
    (leafSource forced leaf columns).folded =
      leafSource forced leaf.folded (columns.map (·.map SourceColumn.folded)) := by
  have hforced : leaf.folded.exposedName?.any (isForced forced) =
      leaf.exposedName?.any (isForced forced) := by
    rw [Leaf.exposedName?_folded, Option.any_map]
    refine congrArg leaf.exposedName?.any (funext fun name => ?_)
    exact congrArg forced.contains (lower_asciiLower name)
  have hidentifier : (leafSource forced leaf.folded none).identifier =
      asciiLower (leafSource forced leaf none).identifier := by
    cases leaf with
    | source object label =>
      obtain ⟨database, schema, name⟩ := object
      change QualifiedName.dotted (QualifiedName.folded _) = asciiLower (QualifiedName.dotted _)
      unfold QualifiedName.dotted
      rw [asciiLower_joinWith]
      cases database <;> cases schema <;> rfl
    | derived label columns query => exact (asciiLower_getD label "").symm
    | function name label => rfl
  exact ScopeSource.mk.injEq .. ▸ ⟨hidentifier.symm, rfl, hforced.symm⟩

/-! ## Queries -/

/-- Sources that differ in the case of their names only. -/
def SourcesAlike (sources sources' : List ScopeSource) : Prop :=
  sources.map ScopeSource.folded = sources'.map ScopeSource.folded

/-- Common table expressions that differ in the case of their names only. -/
def CtesAlike (ctes ctes' : List CteShape) : Prop :=
  ctes.map CteShape.folded = ctes'.map CteShape.folded

theorem sourcesAlike_append {first first' more more' : List ScopeSource}
    (hfirst : SourcesAlike first first') (hmore : SourcesAlike more more') :
    SourcesAlike (first ++ more) (first' ++ more') := by
  unfold SourcesAlike at *
  rw [List.map_append, List.map_append, hfirst, hmore]

theorem sourcesAlike_leafSource {leaf leaf' : Leaf} (hleaf : leaf.folded = leaf'.folded)
    {columns columns' : Option (List SourceColumn)}
    (hcolumns : columns.map (·.map SourceColumn.folded) = columns'.map (·.map SourceColumn.folded))
    (forced : List String) :
    SourcesAlike [leafSource forced leaf columns] [leafSource forced leaf' columns'] := by
  unfold SourcesAlike
  rw [List.map_singleton, List.map_singleton, leafSource_folded, leafSource_folded, hleaf, hcolumns]

namespace Resolver

variable (model : SchemaModel) (parameters : List Parameter)

/-- A table or a function gives the columns that the schema has for its name in either case. -/
theorem agree_table {name name' : List Ident} {arguments arguments' : Option (List Piece)}
    {marker marker' : String} {label label' : Option TableAlias} {tail tail' : List Piece}
    (h : (Factor.table name arguments marker label tail).folded =
      (Factor.table name' arguments' marker' label' tail').folded)
    {ctes ctes' : List CteShape} (hctes : CtesAlike ctes ctes') (forced : List String) :
    Agree SourcesAlike
      ((⟨model.catalog, parameters⟩ : Resolver).factor ctes forced
        (.table name arguments marker label tail))
      ((⟨model.catalog, parameters⟩ : Resolver).factor ctes' forced
        (.table name' arguments' marker' label' tail')) := by
  obtain ⟨hname, harguments, -, hlabel, -⟩ := Factor.table.inj h
  have harguments := congrArg Option.isSome harguments
  rw [isSome_foldedPieces?, isSome_foldedPieces?] at harguments
  simp only [Resolver.factor, harguments]
  refine (agree_namedLeaf hname hlabel _).bind fun leaf leaf' hleaf => .ok ?_
  refine sourcesAlike_leafSource hleaf ?_ forced
  cases leaf with
  | source object alias' =>
    cases leaf' with
    | source object' alias'' =>
      exact map_sourceColumns?_eq model parameters hctes (Leaf.source.inj hleaf).1
    | _ => cases hleaf
  | _ =>
    -- No columns are known of what is no source.
    cases leaf' with
    | source => cases hleaf
    | _ => rfl

theorem agree_special {pieces pieces' : List Piece} {label label' : Option TableAlias}
    (h : (Factor.special pieces label).folded = (Factor.special pieces' label').folded)
    (ctes ctes' : List CteShape) (forced : List String) :
    Agree SourcesAlike
      ((⟨model.catalog, parameters⟩ : Resolver).factor ctes forced (.special pieces label))
      ((⟨model.catalog, parameters⟩ : Resolver).factor ctes' forced (.special pieces' label')) := by
  obtain ⟨hpieces, hlabel⟩ := Factor.special.inj h
  simp only [Resolver.factor]
  refine .ok (sourcesAlike_leafSource ?_ rfl forced)
  have htext := congrArg (fun pieces => asciiLower (piecesText pieces)) hpieces
  have hlabel := congrArg (fun label => asciiLower (aliasText label)) hlabel
  simp only [asciiLower_piecesText_folded, asciiLower_aliasText_folded] at htext hlabel
  simp only [Leaf.folded, asciiLower_append, htext, hlabel]

mutual

theorem agree_query : ∀ query query' : Query, query.folded = query'.folded →
    ReadAlike (JoinTexts.query query) (JoinTexts.query query') →
    ∀ ctes ctes' : List CteShape, CtesAlike ctes ctes' →
    Agree ResolvedQuery.Alike ((⟨model.catalog, parameters⟩ : Resolver).query ctes query)
      ((⟨model.catalog, parameters⟩ : Resolver).query ctes' query')
  | ⟨recursive, own, body, tail⟩, ⟨recursive', own', body', tail'⟩, h, hread, ctes, ctes',
      hctes => by
    obtain ⟨-, hown, hbody, -⟩ := Query.mk.inj h
    simp only [JoinTexts.query] at hread
    simp only [Resolver.query]
    exact (agree_withCtes own own' hown hread.left ctes ctes' hctes).bind fun inner inner' hinner =>
      agree_body body body' hbody hread.right inner inner' hinner

theorem agree_withCtes : ∀ own own' : List Cte, foldedCtes own = foldedCtes own' →
    ReadAlike (JoinTexts.ctes own) (JoinTexts.ctes own') →
    ∀ ctes ctes' : List CteShape, CtesAlike ctes ctes' →
    Agree CtesAlike ((⟨model.catalog, parameters⟩ : Resolver).withCtes ctes own)
      ((⟨model.catalog, parameters⟩ : Resolver).withCtes ctes' own')
  | [], own', h, _, ctes, ctes', hctes => by
    cases own' with
    | nil =>
      simp only [Resolver.withCtes]
      exact .ok hctes
    | cons => cases h
  | ⟨label, query, origin⟩ :: rest, own', h, hread, ctes, ctes', hctes => by
    cases own' with
    | nil => cases h
    | cons cte' rest' =>
      obtain ⟨label', query', origin'⟩ := cte'
      obtain ⟨hcte, hrest⟩ := List.cons.inj h
      obtain ⟨hlabel, hquery, -⟩ := Cte.mk.inj hcte
      simp only [JoinTexts.ctes] at hread
      simp only [Resolver.withCtes]
      refine (agree_query query query' hquery hread.left ctes ctes' hctes).bind
        fun resolved resolved' hresolved => ?_
      -- The shape of this expression is bound for those behind it.
      refine agree_withCtes rest rest' hrest hread.right _ _ ?_
      have hnames : (labelColumns (some label)).map asciiLower =
          (labelColumns (some label')).map asciiLower :=
        map_asciiLower_labelColumns_eq (congrArg some hlabel : _)
      refine congrArg₂ List.cons ?_ hctes
      exact congrArg₂ CteShape.mk (Ident.asciiLower_value_eq (TableAlias.mk.inj hlabel).1)
        (map_folded_renamed_eq hnames hresolved.columns)

theorem agree_body : ∀ body body' : Body, body.folded = body'.folded →
    ReadAlike (JoinTexts.body body) (JoinTexts.body body') →
    ∀ ctes ctes' : List CteShape, CtesAlike ctes ctes' →
    Agree ResolvedQuery.Alike ((⟨model.catalog, parameters⟩ : Resolver).body ctes body)
      ((⟨model.catalog, parameters⟩ : Resolver).body ctes' body')
  | .select ⟨quantifier, top, projection, into, sources, filter, grouping, tail⟩, body', h, hread,
      ctes, ctes', hctes => by
    cases body' with
    | select select' =>
      have hselect := Body.select.inj h
      obtain ⟨quantifier', top', projection', into', sources', filter', grouping', tail'⟩ := select'
      obtain ⟨-, -, -, -, hsources, -, -, -⟩ := Select.mk.inj hselect
      simp only [JoinTexts.body] at hread
      simp only [Resolver.body]
      refine (JoinTree.agree_ofSources hsources hread).bind fun tree tree' htree => ?_
      refine (SourceNames.agree_ofTree htree).bind fun names names' hnames => ?_
      -- The forced names are of the folded tree, so they are the same list on both sides.
      rw [← forcedNames_folded tree, htree, forcedNames_folded]
      refine (agree_sources sources sources' hsources hread ctes ctes' hctes _).bind
        fun found found' hfound => ?_
      exact agree_resolveSelect hselect ⟨hfound, hnames⟩
    | _ => cases h
  | .nested query, body', h, hread, ctes, ctes', hctes => by
    cases body' with
    | nested query' =>
      simp only [JoinTexts.body] at hread
      simp only [Resolver.body]
      exact agree_query query query' (Body.nested.inj h) hread ctes ctes' hctes
    | _ => cases h
  | .operation left operator right, body', h, hread, ctes, ctes', hctes => by
    cases body' with
    | operation left' operator' right' =>
      simp only [JoinTexts.body] at hread
      simp only [Resolver.body]
      exact (agree_body left left' (Body.operation.inj h).1 hread ctes ctes' hctes).bind
        -- The right side is not resolved at all: the columns are those of the left one.
        fun first first' hfirst => .ok ⟨hfirst.columns, rfl, hfirst.returnsRows⟩
    | _ => cases h
  | .values explicitRow rows, body', h, hread, ctes, ctes', hctes => by
    cases body' with
    | values explicitRow' rows' =>
      have hrows := congrArg resolveRows (Body.values.inj h).2
      rw [resolveRows_folded, resolveRows_folded] at hrows
      simp only [Resolver.body]
      rw [hrows]
      exact .ok ⟨rfl, rfl, rfl⟩
    | _ => cases h
  | .other pieces, body', h, hread, ctes, ctes', hctes => by
    cases body' with
    | other pieces' =>
      simp only [Resolver.body]
      exact .error rfl
    | _ => cases h

theorem agree_sources : ∀ sources sources' : List JoinedSource,
    foldedSources sources = foldedSources sources' →
    ReadAlike (JoinTexts.sources sources) (JoinTexts.sources sources') →
    ∀ ctes ctes' : List CteShape, CtesAlike ctes ctes' → ∀ forced : List String,
    Agree SourcesAlike ((⟨model.catalog, parameters⟩ : Resolver).sources ctes forced sources)
      ((⟨model.catalog, parameters⟩ : Resolver).sources ctes' forced sources')
  | [], sources', h, hread, ctes, ctes', hctes, forced => by
    cases sources' with
    | nil =>
      simp only [Resolver.sources]
      exact .ok rfl
    | cons => cases h
  | ⟨relation, joins⟩ :: rest, sources', h, hread, ctes, ctes', hctes, forced => by
    cases sources' with
    | nil => cases h
    | cons source' rest' =>
      obtain ⟨relation', joins'⟩ := source'
      obtain ⟨hsource, hrest⟩ := List.cons.inj h
      obtain ⟨hrelation, hjoins⟩ := JoinedSource.mk.inj hsource
      simp only [JoinTexts.sources, JoinTexts.source] at hread
      simp only [Resolver.sources]
      refine (agree_factor relation relation' hrelation hread.left.left ctes ctes' hctes forced).bind
        fun first first' hfirst => ?_
      refine (agree_joined joins joins' hjoins hread.left.right ctes ctes' hctes forced).bind
        fun joined joined' hjoined => ?_
      refine (agree_sources rest rest' hrest hread.right ctes ctes' hctes forced).bind
        fun more more' hmore => .ok ?_
      exact sourcesAlike_append (sourcesAlike_append hfirst hjoined) hmore

theorem agree_joined : ∀ joins joins' : List Join, foldedJoins joins = foldedJoins joins' →
    ReadAlike (JoinTexts.joins joins) (JoinTexts.joins joins') →
    ∀ ctes ctes' : List CteShape, CtesAlike ctes ctes' → ∀ forced : List String,
    Agree SourcesAlike ((⟨model.catalog, parameters⟩ : Resolver).joined ctes forced joins)
      ((⟨model.catalog, parameters⟩ : Resolver).joined ctes' forced joins')
  | [], joins', h, hread, ctes, ctes', hctes, forced => by
    cases joins' with
    | nil =>
      simp only [Resolver.joined]
      exact .ok rfl
    | cons => cases h
  | ⟨isGlobal, operator, relation, condition⟩ :: rest, joins', h, hread, ctes, ctes', hctes,
      forced => by
    cases joins' with
    | nil => cases h
    | cons join' rest' =>
      obtain ⟨isGlobal', operator', relation', condition'⟩ := join'
      obtain ⟨hjoin, hrest⟩ := List.cons.inj h
      obtain ⟨-, -, hrelation, -⟩ := Join.mk.inj hjoin
      simp only [JoinTexts.joins] at hread
      simp only [Resolver.joined]
      refine (agree_factor relation relation' hrelation hread.tail.left ctes ctes' hctes forced).bind
        fun first first' hfirst => ?_
      refine (agree_joined rest rest' hrest hread.tail.right ctes ctes' hctes forced).bind
        fun more more' hmore => .ok ?_
      exact sourcesAlike_append hfirst hmore

theorem agree_factor : ∀ factor factor' : Factor, factor.folded = factor'.folded →
    ReadAlike (JoinTexts.factor factor) (JoinTexts.factor factor') →
    ∀ ctes ctes' : List CteShape, CtesAlike ctes ctes' → ∀ forced : List String,
    Agree SourcesAlike ((⟨model.catalog, parameters⟩ : Resolver).factor ctes forced factor)
      ((⟨model.catalog, parameters⟩ : Resolver).factor ctes' forced factor')
  | .table name arguments marker label tail, factor', h, hread, ctes, ctes', hctes, forced => by
    cases factor' with
    | table => exact agree_table model parameters h hctes forced
    | _ => cases h
  | .derived lateral query label, factor', h, hread, ctes, ctes', hctes, forced => by
    cases factor' with
    | derived lateral' query' label' =>
      obtain ⟨-, hquery, hlabel⟩ := Factor.derived.inj h
      have hnames : ((label.map fun a => a.columns.map aliasColumnName).getD []).map asciiLower =
          ((label'.map fun a => a.columns.map aliasColumnName).getD []).map asciiLower :=
        map_asciiLower_labelColumns_eq hlabel
      have hname : (label.map (·.name.value)).map asciiLower =
        (label'.map (·.name.value)).map asciiLower := map_asciiLower_labelName_eq hlabel
      -- Whether the query is resolved at all is told by its body, whatever its case.
      have hbody : yieldsRows query.body = yieldsRows query'.body := by
        rw [← yieldsRows_folded, ← yieldsRows_folded query'.body, ← body_folded, hquery,
          body_folded]
      simp only [JoinTexts.factor] at hread
      simp only [Resolver.factor]
      generalize (label.map fun a => a.columns.map aliasColumnName).getD [] = names,
        (label'.map fun a => a.columns.map aliasColumnName).getD [] = names' at hnames
      have hleaf : (Leaf.derived (label.map (·.name.value)) names query).folded =
          (Leaf.derived (label'.map (·.name.value)) names' query').folded := by
        simp only [Leaf.folded, hname, hnames, hquery]
      rw [hbody]
      split
      · refine (agree_query query query' hquery hread ctes ctes' hctes).bind
          fun resolved resolved' hresolved => .ok ?_
        refine sourcesAlike_leafSource hleaf ?_ forced
        exact congrArg some (map_folded_renamed_eq hnames hresolved.columns)
      · exact .ok (sourcesAlike_leafSource hleaf (map_folded_unknown_eq hnames) forced)
    | _ => cases h
  | .joined ⟨relation, joins⟩ label, factor', h, hread, ctes, ctes', hctes, forced => by
    cases factor' with
    | joined inner' label' =>
      obtain ⟨relation', joins'⟩ := inner'
      obtain ⟨hrelation, hjoins⟩ := JoinedSource.mk.inj (Factor.joined.inj h).1
      simp only [JoinTexts.factor, JoinTexts.source] at hread
      simp only [Resolver.factor]
      refine (agree_factor relation relation' hrelation hread.left ctes ctes' hctes forced).bind
        fun first first' hfirst => ?_
      refine (agree_joined joins joins' hjoins hread.right ctes ctes' hctes forced).bind
        fun more more' hmore => .ok ?_
      exact sourcesAlike_append hfirst hmore
    | _ => cases h
  | .special pieces label, factor', h, hread, ctes, ctes', hctes, forced => by
    cases factor' with
    | special => exact agree_special model parameters h ctes ctes' forced
    | _ => cases h

end

end Resolver

/-- Two queries that are the same but for the case of their names have the same outcome in every
schema, up to the case of the names of their columns, if the texts of their joins are read alike. They
are if the literals in them that are read by their case are the same. -/
theorem agree_of_folded_eq (model : SchemaModel) (parameters : List Parameter) {query query' : Query}
    (h : query.folded = query'.folded) :
    ((∀ text ∈ JoinTexts.query query, ∀ text' ∈ JoinTexts.query query',
        asciiLower text = asciiLower text' → SameLiterals text text') →
      ReadAlike (JoinTexts.query query) (JoinTexts.query query')) ∧
    (ReadAlike (JoinTexts.query query) (JoinTexts.query query') →
      Agree ResolvedQuery.Alike ((⟨model.catalog, parameters⟩ : Resolver).query [] query)
        ((⟨model.catalog, parameters⟩ : Resolver).query [] query')) :=
  ⟨readAlike_of_sameLiterals, fun hread =>
    Resolver.agree_query model parameters query query' h hread [] [] rfl⟩

/-! ## A join with a name in brackets -/

/-- `select c.id from a left join b l on a.id = l.id join a c on c.[v] = 1`, with a spelling of `c`
and of `v`. -/
def joinedOn (source column : String) : Query :=
  let plain := fun name => (⟨name, none⟩ : Ident)
  let table := fun name label => Factor.table [plain name] none "" label []
  let key := fun source => Expr.compound [plain source, plain "id"]
  let condition := Expr.binary (.compound [plain source, ⟨column, some '['⟩]) "=" (.form [.text "1"])
  let joins := [
    ⟨false, .left, table "b" (some ⟨plain "l", []⟩), .on (.binary (key "a") "=" (key "l"))⟩,
    ⟨false, .inner, table "a" (some ⟨plain source, []⟩), .on condition⟩]
  ⟨false, [], .select ⟨[], none, [.unnamed (key source)], none, [⟨table "a" none, joins⟩], [],
    .ungrouped, []⟩, []⟩

example : (Grammar.parseQuery
      "select c.id from a left join b l on a.id = l.id join a c on c.[v] = 1").toOption.map
        Query.text = some (joinedOn "c" "v").text := by decide +kernel

theorem joinedOn_folded (source column : String) :
    (joinedOn source column).folded = joinedOn (asciiLower source) (asciiLower column) := by
  have hplain (name : String) : Ident.folded ⟨name, none⟩ = ⟨asciiLower name, none⟩ := rfl
  have hquoted (name : String) : Ident.folded ⟨name, some '['⟩ = ⟨asciiLower name, some '['⟩ :=
    if_neg (fun h => absurd (show Char.isAlpha '[' = true from h) (by decide))
  have hid : asciiLower "id" = "id" := by decide
  have ha : asciiLower "a" = "a" := by decide
  have hb : asciiLower "b" = "b" := by decide
  have hl : asciiLower "l" = "l" := by decide
  have hone : foldedWords "1" = "1" := by decide
  have hmarker : asciiLower "" = "" := by decide
  simp only [joinedOn, Query.folded, foldedCtes, Body.folded, Select.folded, foldedPieces,
    foldedPieces?, foldedTop, foldedItems, SelectItem.folded, foldedSources, JoinedSource.folded,
    foldedJoins, Join.folded, JoinCondition.folded, Factor.folded, TableAlias.folded,
    Grouping.folded, Expr.folded, List.map_cons, List.map_nil, Option.map_some, Option.map_none,
    hplain, hquoted, hid, ha, hb, hl, hone, hmarker]

instance (texts texts' : List String) : Decidable (ReadAlike texts texts') :=
  inferInstanceAs (Decidable (∀ text ∈ texts, ∀ text' ∈ texts', _ → _))

/-- `SELECT c.id .. c.[v] = 1` and `SELECT C.id .. C.[V] = 1` have the same outcome. -/
theorem agree_of_recased_source :
    (joinedOn "c" "v").folded = (joinedOn "C" "V").folded ∧
      ReadAlike (JoinTexts.query (joinedOn "c" "v")) (JoinTexts.query (joinedOn "C" "V")) ∧
      Agree ResolvedQuery.Alike (twoTables.query [] (joinedOn "c" "v"))
        (twoTables.query [] (joinedOn "C" "V")) := by
  have hfolded : (joinedOn "c" "v").folded = (joinedOn "C" "V").folded := by
    rw [joinedOn_folded, joinedOn_folded, show asciiLower "c" = asciiLower "C" by decide,
      show asciiLower "v" = asciiLower "V" by decide]
  have hread : ReadAlike (JoinTexts.query (joinedOn "c" "v")) (JoinTexts.query (joinedOn "C" "V")) := by
    decide +kernel
  exact ⟨hfolded, hread, (agree_of_folded_eq _ _ hfolded).2 hread⟩

/-- The columns `[x]1l.b]` and `[x]1L.b]` are the same name, but a join on the one makes the key
nullable and a join on the other does not. The text of the name is `x]1l.b`, in which the word `l`
is read as a qualifier, where `1L` is read as a number. -/
theorem nullability_of_recased_column :
    (joinedOn "c" "x]1l.b").folded = (joinedOn "c" "x]1L.b").folded ∧
      ¬ Agree ResolvedQuery.Alike (twoTables.query [] (joinedOn "c" "x]1l.b"))
        (twoTables.query [] (joinedOn "c" "x]1L.b")) := by
  constructor
  · rw [joinedOn_folded, joinedOn_folded,
      show asciiLower "x]1l.b" = asciiLower "x]1L.b" by decide]
  · have hword : (twoTables.query [] (joinedOn "c" "x]1l.b")).toOption.map
        (·.columns.map (·.isNullable)) = some [true] := by decide +kernel
    have hnumber : (twoTables.query [] (joinedOn "c" "x]1L.b")).toOption.map
        (·.columns.map (·.isNullable)) = some [false] := by decide +kernel
    intro hagree
    generalize twoTables.query [] (joinedOn "c" "x]1l.b") = outcome,
      twoTables.query [] (joinedOn "c" "x]1L.b") = outcome' at hagree hword hnumber
    cases hagree with
    | ok hsame =>
      have hflags : [true] = [false] :=
        (Option.some.inj hword).symm.trans (hsame.map_isNullable_eq.trans (Option.some.inj hnumber))
      cases hflags
    | error => cases hword

end SchemaPlan
