import SchemaPlan.Schema.Model

/-!
# What resolvers have to agree on

The resolver asks the schema and the parameters for the columns of named sources, and for nothing
else. Resolvers that find the same columns for every name give a query one outcome.
-/

namespace SchemaPlan

open SchemaPlan.Sql SchemaPlan.Query

namespace Resolver

/-- Two resolvers find the same columns for every source. -/
def SameSources (r s : Resolver) : Prop :=
  ∀ ctes object, r.sourceColumns? ctes object = s.sourceColumns? ctes object

variable {r s : Resolver}

mutual

theorem query_eq_of_sameSources (h : r.SameSources s) :
    ∀ (inner : Query) (ctes : List CteShape), r.query ctes inner = s.query ctes inner
  | ⟨recursive, own, inner, tail⟩, ctes => by
    simp only [Resolver.query, withCtes_eq_of_sameSources h own,
      body_eq_of_sameSources h inner]

theorem withCtes_eq_of_sameSources (h : r.SameSources s) :
    ∀ (own : List Cte) (ctes : List CteShape), r.withCtes ctes own = s.withCtes ctes own
  | [], ctes => by simp only [Resolver.withCtes]
  | ⟨label, inner, origin⟩ :: rest, ctes => by
    simp only [Resolver.withCtes, query_eq_of_sameSources h inner,
      withCtes_eq_of_sameSources h rest]

theorem body_eq_of_sameSources (h : r.SameSources s) :
    ∀ (inner : Body) (ctes : List CteShape), r.body ctes inner = s.body ctes inner
  | .select ⟨quantifier, top, projection, into, from', filter, grouping, tail⟩, ctes => by
    simp only [Resolver.body, sources_eq_of_sameSources h from']
  | .nested inner, ctes => by
    simp only [Resolver.body, query_eq_of_sameSources h inner]
  | .operation left operator right, ctes => by
    simp only [Resolver.body, body_eq_of_sameSources h left]
  | .values explicitRow rows, ctes => by simp only [Resolver.body]
  | .other pieces, ctes => by simp only [Resolver.body]

theorem sources_eq_of_sameSources (h : r.SameSources s) :
    ∀ (from' : List JoinedSource) (ctes : List CteShape) (forced : List String),
      r.sources ctes forced from' = s.sources ctes forced from'
  | [], ctes, forced => by simp only [Resolver.sources]
  | ⟨relation, joined⟩ :: rest, ctes, forced => by
    simp only [Resolver.sources, factor_eq_of_sameSources h relation,
      joined_eq_of_sameSources h joined, sources_eq_of_sameSources h rest]

theorem joined_eq_of_sameSources (h : r.SameSources s) :
    ∀ (joins : List Join) (ctes : List CteShape) (forced : List String),
      r.joined ctes forced joins = s.joined ctes forced joins
  | [], ctes, forced => by simp only [Resolver.joined]
  | ⟨isGlobal, operator, relation, condition⟩ :: rest, ctes, forced => by
    simp only [Resolver.joined, factor_eq_of_sameSources h relation,
      joined_eq_of_sameSources h rest]

theorem factor_eq_of_sameSources (h : r.SameSources s) :
    ∀ (relation : Factor) (ctes : List CteShape) (forced : List String),
      r.factor ctes forced relation = s.factor ctes forced relation
  | .table name arguments marker label tail, ctes, forced => by
    simp only [Resolver.factor, h ctes]
  | .derived lateral inner label, ctes, forced => by
    simp only [Resolver.factor, query_eq_of_sameSources h inner]
  | .joined ⟨relation, joined⟩ label, ctes, forced => by
    simp only [Resolver.factor, factor_eq_of_sameSources h relation,
      joined_eq_of_sameSources h joined]
  | .special pieces label, ctes, forced => by simp only [Resolver.factor]

end

theorem columns_eq_of_sameSources (h : r.SameSources s) (inner : Query) :
    r.columns inner = s.columns inner := by
  unfold Resolver.columns
  rw [query_eq_of_sameSources h inner]

/-- Catalogs whose columns are the same apart from what sources do not show make no difference. -/
theorem sameSources_of_catalogs {a b : ObjectCatalog} {parameters : List Parameter}
    (hdefault : a.defaultSchema = b.defaultSchema)
    (hcolumns : ∀ schema name, (a.columns? schema name).map (·.map Column.toSource) =
      (b.columns? schema name).map (·.map Column.toSource)) :
    (⟨a, parameters⟩ : Resolver).SameSources ⟨b, parameters⟩ := by
  intro ctes object
  unfold sourceColumns?
  simp only [hdefault, hcolumns]

end Resolver

end SchemaPlan
