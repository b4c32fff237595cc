import SchemaPlan.Proofs.Schema.Loading

/-!
# What definitions are read for

A name, a relation and a view are built from one definition and from the default schema; what else
is defined does not matter to them. So definitions that share the default schema build the same.
-/

namespace SchemaPlan

open SchemaPlan.Sql

section SameDefault

variable {defs other : Definitions} (h : other.defaultSchema = defs.defaultSchema)

include h

theorem Definitions.schemaOf_congr : other.schemaOf = defs.schemaOf := by
  funext name
  unfold Definitions.schemaOf
  rw [h]

theorem Definitions.keyOf_congr : other.keyOf = defs.keyOf := by
  funext name
  unfold Definitions.keyOf
  rw [Definitions.schemaOf_congr h]

theorem Definitions.fullNameOf_congr : other.fullNameOf = defs.fullNameOf := by
  funext name
  unfold Definitions.fullNameOf
  rw [Definitions.schemaOf_congr h]

/-! ## Names and relations -/

theorem Definitions.requireDistinct_congr (seen : List String) (names : List QualifiedName) :
    other.requireDistinct seen names = defs.requireDistinct seen names := by
  induction names generalizing seen with
  | nil => rfl
  | cons name rest ih =>
    simp only [Definitions.requireDistinct, Definitions.keyOf_congr h,
      Definitions.fullNameOf_congr h, ih]

theorem aliasType_congr : aliasType other = aliasType defs := by
  funext scalar
  unfold aliasType
  rw [Definitions.schemaOf_congr h, Definitions.fullNameOf_congr h]

/-- Columns are built alike from alias types that resolve alike and from key columns that are the same
up to ASCII case. -/
theorem buildColumns_congr {aliases realiases : List AliasType} {keyColumns rekeyed : List String}
    (hresolve : ∀ declared, resolveType? defs.defaultSchema realiases declared =
      resolveType? defs.defaultSchema aliases declared)
    (hkeys : ∀ name, rekeyed.any (Text.sameText · name) = keyColumns.any (Text.sameText · name))
    (object : String) (seen : List String) (columns : List ColumnDefinition) :
    buildColumns other realiases object rekeyed seen columns =
      buildColumns defs aliases object keyColumns seen columns := by
  induction columns generalizing seen with
  | nil => rfl
  | cons definition rest ih => simp only [buildColumns, buildColumn, h, hresolve, hkeys, ih]

theorem buildRelation_congr {aliases realiases : List AliasType} {keyColumns rekeyed : List String}
    (hresolve : ∀ declared, resolveType? defs.defaultSchema realiases declared =
      resolveType? defs.defaultSchema aliases declared)
    (hkeys : ∀ name, rekeyed.any (Text.sameText · name) = keyColumns.any (Text.sameText · name))
    (definition : TableDefinition) :
    buildRelation other realiases rekeyed definition =
      buildRelation defs aliases keyColumns definition := by
  unfold buildRelation
  rw [Definitions.fullNameOf_congr h, Definitions.schemaOf_congr h,
    buildColumns_congr h hresolve hkeys]

/-! ## Views -/

theorem dependencyKeys_congr : dependencyKeys other = dependencyKeys defs := by
  funext definition
  unfold dependencyKeys
  rw [Definitions.keyOf_congr h]

theorem findDefinition?_congr : findDefinition? other = findDefinition? defs := by
  funext views key
  unfold findDefinition?
  rw [Definitions.keyOf_congr h]

theorem withoutKey_congr : withoutKey other = withoutKey defs := by
  funext views key
  unfold withoutKey
  rw [Definitions.keyOf_congr h]

theorem buildView_congr_of_default (catalog : ObjectCatalog) (definition : ViewDefinition) :
    buildView other catalog definition = buildView defs catalog definition := by
  unfold buildView
  rw [Definitions.schemaOf_congr h, Definitions.fullNameOf_congr h]

/-- The walk over the views builds the same if every view does. -/
theorem resolveViews_congr {model remodel : SchemaModel}
    (hview : ∀ resolved definition, buildView other (viewCatalog remodel resolved) definition =
      buildView defs (viewCatalog model resolved) definition)
    (waiting : List ViewDefinition) (opened : List String) (resolved : List ResolvedView)
    (keys : List String) :
    resolveViews other remodel waiting opened resolved keys =
      resolveViews defs model waiting opened resolved keys := by
  -- The walk itself looks at keys only; the catalogs enter where a view is built, in `case5`.
  induction waiting, opened, resolved, keys using resolveViews.induct defs with
  | case1 waiting opened resolved => rw [resolveViews, resolveViews]
  | case2 waiting opened resolved key rest hresolved ih =>
    rw [resolveViews, resolveViews, if_pos hresolved, if_pos hresolved, ih]
  | case3 waiting opened resolved key rest hunresolved hopened =>
    rw [resolveViews, resolveViews, if_neg hunresolved, if_neg hunresolved, if_pos hopened,
      if_pos hopened]
  | case4 waiting opened resolved key rest hunresolved hopened hnone ih =>
    rw [resolveViews, resolveViews, if_neg hunresolved, if_neg hunresolved, if_neg hopened,
      if_neg hopened]
    split <;> rename_i hfound
    · split <;> rename_i hfound'
      · exact ih
      · rw [hnone] at hfound'
        cases hfound'
    · rw [findDefinition?_congr h, hnone] at hfound
      cases hfound
  | case5 waiting opened resolved key rest hunresolved hopened definition hdefinition ihneeds ihrest =>
    rw [resolveViews, resolveViews, if_neg hunresolved, if_neg hunresolved, if_neg hopened,
      if_neg hopened]
    split <;> rename_i hfound
    · rw [findDefinition?_congr h, hdefinition] at hfound
      cases hfound
    · split <;> rename_i hfound'
      · rw [hdefinition] at hfound'
        cases hfound'
      · rw [findDefinition?_congr h, hdefinition] at hfound
        rw [hdefinition] at hfound'
        cases hfound
        cases hfound'
        simp only [dependencyKeys_congr h, withoutKey_congr h, ihneeds, hview, ihrest]

/-- Views do not depend on what else is defined. -/
theorem buildViews_congr {model remodel : SchemaModel} (hviews : other.views = defs.views)
    (hview : ∀ resolved definition, buildView other (viewCatalog remodel resolved) definition =
      buildView defs (viewCatalog model resolved) definition) :
    buildViews other remodel = buildViews defs model := by
  unfold buildViews
  rw [hviews, Definitions.keyOf_congr h]
  dsimp only
  rw [resolveViews_congr h hview]

end SameDefault

end SchemaPlan
