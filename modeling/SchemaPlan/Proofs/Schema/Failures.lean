import SchemaPlan.Proofs.View.Order

/-!
# What a load fails for

Each stage of a load has failures of its own: names that repeat, types and columns that cannot be
built, and views that use each other or cannot be resolved. So a failure tells at which stage the
load came to an end.
-/

namespace SchemaPlan

open SchemaPlan.Sql

/-- A step after another one fails if either does. -/
theorem bind_eq_error {ε α β : Type} {first : Except ε α} {next : α → Except ε β} {failure : ε} :
    first >>= next = .error failure ↔
      first = .error failure ∨ ∃ value, first = .ok value ∧ next value = .error failure := by
  cases first with
  | error cause =>
    constructor
    · intro h
      exact Or.inl (congrArg Except.error (Except.error.inj h))
    · rintro (h | ⟨value, h, -⟩)
      · rw [Except.error.inj h]
        rfl
      · cases h
  | ok value =>
    constructor
    · intro h
      exact Or.inr ⟨value, rfl, h⟩
    · rintro (h | ⟨value', h, hnext⟩)
      · cases h
      · obtain rfl := Except.ok.inj h
        exact hnext

/-! ## Kinds of failures -/

/-- A failure for a name that repeats. -/
def LoadError.IsDuplicate (failure : LoadError) : Prop :=
  ∃ object, failure = .duplicateObject object

/-- A failure of a type or a column. -/
def LoadError.IsOfTables (failure : LoadError) : Prop :=
  (∃ object column type, failure = .unknownType object column type) ∨
    ∃ object column, failure = .duplicateColumn object column

/-- A failure of a view. -/
def LoadError.IsOfViews (failure : LoadError) : Prop :=
  (∃ path, failure = .viewCycle path) ∨ ∃ view cause, failure = .unresolvedView view cause

/-- An outcome that, if it is a failure, is one of a kind. -/
def FailsOnlyFor {α : Type} (kind : LoadError → Prop) (outcome : Except LoadError α) : Prop :=
  ∀ failure, outcome = .error failure → kind failure

namespace FailsOnlyFor

variable {α β : Type} {kind : LoadError → Prop}

theorem ok (value : α) : FailsOnlyFor kind (.ok value) := fun _ h => nomatch h

theorem error {failure : LoadError} (h : kind failure) :
    FailsOnlyFor kind (.error failure : Except LoadError α) :=
  fun _ heq => Except.error.inj heq ▸ h

theorem bind {first : Except LoadError α} {next : α → Except LoadError β}
    (hfirst : FailsOnlyFor kind first) (hnext : ∀ value, FailsOnlyFor kind (next value)) :
    FailsOnlyFor kind (first >>= next) := by
  intro failure h
  rcases bind_eq_error.mp h with h | ⟨value, -, h⟩
  · exact hfirst failure h
  · exact hnext value failure h

theorem mapM {f : α → Except LoadError β} {xs : List α} (h : ∀ x ∈ xs, FailsOnlyFor kind (f x)) :
    FailsOnlyFor kind (xs.mapM f) := by
  induction xs with
  | nil => exact .ok []
  | cons x rest ih =>
    rw [List.mapM_cons]
    have hrest := ih fun x hx => h x (List.mem_cons_of_mem _ hx)
    exact (h x List.mem_cons_self).bind fun y => hrest.bind fun ys => .ok (y :: ys)

end FailsOnlyFor

/-! ## Stages -/

section Stages

variable (defs : Definitions)

theorem requireDistinct_failsOnlyFor (seen : List String) (names : List QualifiedName) :
    FailsOnlyFor LoadError.IsDuplicate (defs.requireDistinct seen names) := by
  induction names generalizing seen with
  | nil => exact .ok ()
  | cons name rest ih =>
    unfold Definitions.requireDistinct
    dsimp only
    split
    · exact .error ⟨_, rfl⟩
    · exact ih _

theorem checkNames_failsOnlyFor : FailsOnlyFor LoadError.IsDuplicate defs.checkNames :=
  (requireDistinct_failsOnlyFor defs [] _).bind fun _ => requireDistinct_failsOnlyFor defs [] _

theorem aliasType_failsOnlyFor (scalar : ScalarTypeDefinition) :
    FailsOnlyFor LoadError.IsOfTables (aliasType defs scalar) := by
  unfold aliasType
  dsimp only
  split
  · exact .ok _
  · exact .error (.inl ⟨_, _, _, rfl⟩)

theorem buildColumn_failsOnlyFor (aliases : List AliasType) (object : String)
    (definition : ColumnDefinition) (isPrimaryKey : Bool) :
    FailsOnlyFor LoadError.IsOfTables
      (buildColumn defs aliases object definition isPrimaryKey) := by
  unfold buildColumn
  dsimp only
  split
  · exact .ok _
  · split
    · exact .error (.inl ⟨_, _, _, rfl⟩)
    · exact .ok _

theorem buildColumns_failsOnlyFor (aliases : List AliasType) (object : String)
    (keyColumns seen : List String) (columns : List ColumnDefinition) :
    FailsOnlyFor LoadError.IsOfTables
      (buildColumns defs aliases object keyColumns seen columns) := by
  induction columns generalizing seen with
  | nil => exact .ok []
  | cons definition rest ih =>
    unfold buildColumns
    split
    · exact .error (.inr ⟨_, _, rfl⟩)
    · refine (buildColumn_failsOnlyFor defs _ _ _ _).bind fun column => ?_
      exact (ih _).bind fun more => .ok (column :: more)

theorem buildRelation_failsOnlyFor (aliases : List AliasType) (keyColumns : List String)
    (definition : TableDefinition) :
    FailsOnlyFor LoadError.IsOfTables (buildRelation defs aliases keyColumns definition) :=
  (buildColumns_failsOnlyFor defs _ _ _ _ _).bind fun _ => .ok _

theorem buildTables_failsOnlyFor : FailsOnlyFor LoadError.IsOfTables (buildTables defs) := by
  refine (FailsOnlyFor.mapM fun _ _ => aliasType_failsOnlyFor defs _).bind fun aliasTypes => ?_
  refine (FailsOnlyFor.mapM fun _ _ => buildRelation_failsOnlyFor defs _ _ _).bind fun tableTypes => ?_
  exact (FailsOnlyFor.mapM fun _ _ => buildRelation_failsOnlyFor defs _ _ _).bind
    fun tables => .ok _

theorem buildViews_failsOnlyFor (model : SchemaModel) :
    FailsOnlyFor LoadError.IsOfViews (buildViews defs model) := by
  intro failure h
  rcases exists_ready_of_buildViews_eq_error h with
    ⟨path, rfl, -⟩ | ⟨resolved, key, definition, -, hfailed⟩
  · exact .inl ⟨path, rfl⟩
  · unfold buildView at hfailed
    dsimp only at hfailed
    split at hfailed
    · cases hfailed
    · obtain rfl := Except.error.inj hfailed
      exact .inr ⟨_, _, rfl⟩

end Stages

/-! ## Loads -/

/-- A load fails when its names, its tables or its views do, in this order. -/
theorem buildModel_eq_error {options : LoadOptions} {statements : List Statement}
    {defs : Definitions} {failure : LoadError}
    (hdefs : Definitions.ofStatements options.defaultSchema statements = defs) :
    buildModel options statements = .error failure ↔
      defs.checkNames = .error failure ∨ defs.checkNames = .ok () ∧
        (buildTables defs = .error failure ∨
          ∃ schema, buildTables defs = .ok schema ∧ buildViews defs schema = .error failure) := by
  unfold buildModel
  dsimp only
  rw [hdefs, bind_eq_error]
  refine or_congr_right ⟨?_, ?_⟩
  · rintro ⟨_, hnames, h⟩
    refine ⟨hnames, ?_⟩
    rcases bind_eq_error.mp h with htables | ⟨schema, htables, h⟩
    · exact .inl htables
    · rcases bind_eq_error.mp h with hviews | ⟨views, -, h⟩
      · exact .inr ⟨schema, htables, hviews⟩
      · cases h
  · rintro ⟨hnames, h⟩
    refine ⟨(), hnames, ?_⟩
    rcases h with htables | ⟨schema, htables, hviews⟩
    · exact bind_eq_error.mpr (.inl htables)
    · exact bind_eq_error.mpr (.inr ⟨schema, htables, bind_eq_error.mpr (.inl hviews)⟩)

end SchemaPlan
