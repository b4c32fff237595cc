import SchemaPlan.Grammar.Query
import SchemaPlan.Schema.Model

/-!
# Queries that resolve

What is known once a query, a body or a select has resolved: the parts that it was resolved from
resolved as well, and its outcome is made of theirs. Later modules take a successful resolution
apart with these lemmas instead of unfolding the resolver.
-/

namespace SchemaPlan

open SchemaPlan.Query

/-- A step after another one succeeds if both do. -/
theorem bind_eq_ok {ε α β : Type} {first : Except ε α} {next : α → Except ε β} {result : β} :
    first >>= next = .ok result ↔ ∃ value, first = .ok value ∧ next value = .ok result := by
  cases first with
  | error failure =>
    constructor
    · intro h
      cases h
    · rintro ⟨value, h, -⟩
      cases h
  | ok value =>
    constructor
    · intro h
      exact ⟨value, rfl, h⟩
    · rintro ⟨value', h, hnext⟩
      obtain rfl := Except.ok.inj h
      exact hnext

theorem toOption_eq_some {ε α : Type} {outcome : Except ε α} {value : α}
    (h : outcome.toOption = some value) : outcome = .ok value := by
  cases outcome with
  | error failure => cases h
  | ok found => rw [Option.some.inj h]

namespace Resolver

attribute [grind =] body

variable {r : Resolver} {ctes : List CteShape}

/-! ## Queries and bodies -/

/-- A query resolves as its body does among the common table expressions it adds. -/
theorem query_eq_ok {query : Query} {resolved : ResolvedQuery} :
    r.query ctes query = .ok resolved ↔
      ∃ inner, r.withCtes ctes query.ctes = .ok inner ∧ r.body inner query.body = .ok resolved := by
  obtain ⟨recursive, own, body, tail⟩ := query
  simp only [Resolver.query]
  exact bind_eq_ok

theorem body_nested {query : Query} : r.body ctes (.nested query) = r.query ctes query := by
  simp only [Resolver.body]

/-- A set operation has the outcome of its first arm, with any number of rows. -/
theorem body_operation_eq_ok {left right : Body} {operator : String} {resolved : ResolvedQuery} :
    r.body ctes (.operation left operator right) = .ok resolved ↔
      ∃ first, r.body ctes left = .ok first ∧ resolved = { first with isSingleRow := false } := by
  simp only [Resolver.body]
  rw [bind_eq_ok]
  constructor
  · rintro ⟨first, hfirst, h⟩
    exact ⟨first, hfirst, (Except.ok.inj h).symm⟩
  · rintro ⟨first, hfirst, rfl⟩
    exact ⟨first, hfirst, rfl⟩

theorem body_values {explicitRow : Bool} {rows : List (List Expr)} :
    r.body ctes (.values explicitRow rows) = .ok (resolveRows rows) := by
  simp only [Resolver.body]

/-- A statement in place of a query does not resolve. -/
theorem body_other_ne_ok {pieces : List Piece} {resolved : ResolvedQuery} :
    r.body ctes (.other pieces) ≠ .ok resolved := by
  simp only [Resolver.body]
  intro h
  cases h

/-! ## Selects -/

/-- Only a select without sources has no join tree. -/
theorem sources_eq_nil_of_ofSources {sources : List JoinedSource}
    (h : JoinTree.ofSources sources = .ok none) : sources = [] := by
  cases sources with
  | nil => rfl
  | cons source rest =>
    rw [JoinTree.ofSources] at h
    obtain ⟨first, -, h⟩ := bind_eq_ok.mp h
    obtain ⟨whole, -, h⟩ := bind_eq_ok.mp h
    cases Except.ok.inj h

/-- What a select was resolved from: the join tree of its sources, the names these are exposed
under, what is known of them, and the columns of the projection. -/
structure SelectParts (r : Resolver) (ctes : List CteShape) (select : Select) where
  tree : Option JoinTree
  scope : Scope
  columns : List ResultColumn
  ofSources : JoinTree.ofSources select.sources = .ok tree
  ofTree : SourceNames.ofTree tree = .ok scope.names
  sources : r.sources ctes (forcedNames tree) select.sources = .ok scope.sources
  items : scope.items 0 select.projection = .ok columns

/-- The outcome of a select with the given scope and columns. -/
def selectOutcome (select : Select) (scope : Scope) (columns : List ResultColumn) :
    ResolvedQuery :=
  { columns := distinctNames [] columns
    isSingleRow := isTopOne select.top || ((distinctNames [] columns).length == 1 &&
      (select.sources.isEmpty || isUngroupedAggregate select))
    aliases := scope.names.aliases
    returnsRows := select.into.isNone && !select.projection.any assignsVariable }

/-- A select that resolves has all the parts that its outcome is made of. -/
theorem selectParts_of_body {select : Select} {resolved : ResolvedQuery}
    (h : r.body ctes (.select select) = .ok resolved) :
    ∃ parts : SelectParts r ctes select,
      resolved = selectOutcome select parts.scope parts.columns := by
  obtain ⟨quantifier, top, projection, into, sources, filter, grouping, tail⟩ := select
  simp only [Resolver.body] at h
  obtain ⟨tree, htree, h⟩ := bind_eq_ok.mp h
  obtain ⟨names, hnames, h⟩ := bind_eq_ok.mp h
  obtain ⟨found, hfound, h⟩ := bind_eq_ok.mp h
  unfold resolveSelect at h
  obtain ⟨columns, hcolumns, h⟩ := bind_eq_ok.mp h
  exact ⟨⟨tree, ⟨found, names⟩, columns, htree, hnames, hfound, hcolumns⟩,
    (Except.ok.inj h).symm⟩

/-! ## Result sets -/

/-- A query gives a result set if it resolves and its rows go to the caller. -/
theorem resultSet?_eq_some {query : Query} {result : ResultSet} :
    r.resultSet? query = .ok (some result) ↔
      ∃ resolved, r.query [] query = .ok resolved ∧ resolved.returnsRows = true ∧
        result = ⟨resolved.columns, resolved.isSingleRow, resolved.aliases⟩ := by
  unfold resultSet?
  rw [bind_eq_ok]
  constructor
  · rintro ⟨resolved, hresolved, h⟩
    split at h
    · rename_i hrows
      exact ⟨resolved, hresolved, hrows, (Option.some.inj (Except.ok.inj h)).symm⟩
    · cases h
  · rintro ⟨resolved, hresolved, hrows, rfl⟩
    refine ⟨resolved, hresolved, ?_⟩
    rw [if_pos hrows]
    rfl

/-- A query gives no result set if it resolves and its rows go elsewhere. -/
theorem resultSet?_eq_none {query : Query} :
    r.resultSet? query = .ok none ↔
      ∃ resolved, r.query [] query = .ok resolved ∧ resolved.returnsRows = false := by
  unfold resultSet?
  rw [bind_eq_ok]
  constructor
  · rintro ⟨resolved, hresolved, h⟩
    split at h
    · cases h
    · rename_i hrows
      exact ⟨resolved, hresolved, Bool.eq_false_iff.mpr hrows⟩
  · rintro ⟨resolved, hresolved, hrows⟩
    refine ⟨resolved, hresolved, ?_⟩
    rw [if_neg (Bool.eq_false_iff.mp hrows)]
    rfl

end Resolver

end SchemaPlan
