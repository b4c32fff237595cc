import SchemaPlan.Proofs.View.Order
import SchemaPlan.Proofs.View.Reading

/-!
# The columns of views

The columns of a view are those that its query has in the finished model, and the order in which
views are defined does not matter, as far as the walk that orders the views finds every view that a
query reads. It misses a view whose name is that of a common table expression which is not in scope
any more; then the columns depend on which view comes first.
-/

namespace SchemaPlan

open SchemaPlan.Sql SchemaPlan.Query

/-! ## Building one view -/

/-- The view of a definition whose query has the given columns. -/
def viewOf (defs : Definitions) (definition : ViewDefinition) (columns : List ResultColumn) :
    Relation :=
  { schema := defs.schemaOf definition.name
    name := definition.name.name
    columns := (renameColumns definition.columns columns).map fun column =>
      { name := column.name, type := column.type, isNullable := column.isNullable } }

theorem buildView_eq_ok {defs : Definitions} {catalog : ObjectCatalog}
    {definition : ViewDefinition} {view : Relation} :
    buildView defs catalog definition = .ok view ↔
      ∃ columns, (⟨catalog, []⟩ : Resolver).columns definition.query = .ok columns ∧
        view = viewOf defs definition columns := by
  unfold buildView
  dsimp only
  cases (⟨catalog, []⟩ : Resolver).columns definition.query with
  | error cause => simp
  | ok columns =>
    constructor
    · intro h
      exact ⟨columns, rfl, (Except.ok.inj h).symm⟩
    · rintro ⟨_, hcolumns, rfl⟩
      rw [Except.ok.inj hcolumns]
      rfl

/-- Catalogs that agree on what the query reads build one view. -/
theorem buildView_congr {defs : Definitions} {a b : ObjectCatalog} {definition : ViewDefinition}
    (h : a.AgreesOnRead b (mentions definition.query)) :
    buildView defs a definition = buildView defs b definition := by
  unfold buildView
  dsimp only
  rw [Resolver.columns_congr h]

/-! ## What a view reads -/

/-- The walk finds every view that the query reads, and the query spells its name like the
definition does, up to ASCII case. -/
def Definitions.FindsWhatItReads (defs : Definitions) (definition : ViewDefinition) : Prop :=
  ∀ mention ∈ mentions definition.query, mention.isRead = true →
    ∀ view ∈ defs.views, defs.keyOf view.name = defs.keyOf mention.object →
      defs.keyOf mention.object ∈ dependencyKeys defs definition ∧
      sameObject (defs.schemaOf view.name) view.name.name
        (defs.schemaOf mention.object) mention.object.name = true

instance (defs : Definitions) : DecidablePred defs.FindsWhatItReads := fun definition =>
  inferInstanceAs (Decidable (∀ mention ∈ mentions definition.query, mention.isRead = true →
    ∀ view ∈ defs.views, defs.keyOf view.name = defs.keyOf mention.object →
      defs.keyOf mention.object ∈ dependencyKeys defs definition ∧
      sameObject (defs.schemaOf view.name) view.name.name
        (defs.schemaOf mention.object) mention.object.name = true))

/-- The resolved views are among others, all of which are views of the schema. -/
structure ResolvedAmong (defs : Definitions) (resolved more : List ResolvedView) : Prop where
  kept : ∀ {key view}, findView? resolved key = some view → findView? more key = some view
  areViews : ∀ {key view}, findView? more key = some view → defs.IsView key

section Extension

variable {defs : Definitions} {model : SchemaModel} {resolved more : List ResolvedView}
  {definition : ViewDefinition}

theorem viewCatalog_agreesOn (hdefault : model.defaultSchema = defs.defaultSchema)
    {object : QualifiedName}
    (h : findView? resolved (defs.keyOf object) = findView? more (defs.keyOf object)) :
    (viewCatalog model resolved).AgreesOn (viewCatalog model more) object := by
  unfold Definitions.keyOf Definitions.schemaOf at h
  unfold ObjectCatalog.AgreesOn viewCatalog
  dsimp only
  rw [hdefault, h]

/-- A view that is ready stays the same when more views are resolved. -/
theorem buildView_extend (hdefault : model.defaultSchema = defs.defaultSchema)
    (hfinds : defs.FindsWhatItReads definition) (hneeds : NeedsResolved defs resolved definition)
    (hamong : ResolvedAmong defs resolved more) :
    buildView defs (viewCatalog model resolved) definition =
      buildView defs (viewCatalog model more) definition := by
  refine buildView_congr ?_
  intro mention hmention hread
  refine viewCatalog_agreesOn hdefault ?_
  cases hold : findView? resolved (defs.keyOf mention.object) with
  | some view => exact (hamong.kept hold).symm
  | none =>
    cases hnew : findView? more (defs.keyOf mention.object) with
    | none => rfl
    | some view =>
      -- Were there a view of this name, the walk would have found it.
      obtain ⟨other, hother, hkey⟩ := hamong.areViews hnew
      have hfound := (hfinds mention hmention hread other hother hkey).1
      have hresolved := hneeds _ hfound ⟨other, hother, hkey⟩
      rw [hold] at hresolved
      cases hresolved

end Extension

/-! ## Resolved views are what their definitions say -/

/-- Every resolved view is the one that its definition says, given the resolved views. -/
def Settled (defs : Definitions) (model : SchemaModel) (resolved : List ResolvedView) : Prop :=
  ∀ key view, findView? resolved key = some view →
    ∃ definition, findDefinition? defs defs.views key = some definition ∧
      NeedsResolved defs resolved definition ∧
      buildView defs (viewCatalog model resolved) definition = .ok view

theorem Settled.isView {defs : Definitions} {model : SchemaModel} {resolved : List ResolvedView}
    (h : Settled defs model resolved) {key : String} {view : Relation}
    (hview : findView? resolved key = some view) : defs.IsView key := by
  obtain ⟨definition, hfound, -⟩ := h key view hview
  exact ⟨definition, mem_of_findDefinition? hfound⟩

theorem Settled.cons {defs : Definitions} {model : SchemaModel} {resolved : List ResolvedView}
    {key : String} {definition : ViewDefinition} {view : Relation}
    (hdefault : model.defaultSchema = defs.defaultSchema)
    (hfinds : ∀ definition ∈ defs.views, defs.FindsWhatItReads definition)
    (h : Settled defs model resolved) (hready : Ready defs resolved key definition)
    (hview : buildView defs (viewCatalog model resolved) definition = .ok view) :
    Settled defs model (⟨key, view⟩ :: resolved) := by
  have hdefinition := mem_of_findDefinition? hready.found
  -- The new view extends what is resolved: its key is new, so nothing that was found is hidden.
  have hamong : ResolvedAmong defs resolved (⟨key, view⟩ :: resolved) := by
    constructor
    · intro other found hfound
      have hne : key ≠ other := by
        rintro rfl
        rw [hready.unresolved] at hfound
        cases hfound
      rw [findView?_cons_of_ne hne, hfound]
    · intro other found hfound
      by_cases hkey : key = other
      · exact hkey ▸ ⟨definition, hdefinition⟩
      · rw [findView?_cons_of_ne hkey] at hfound
        exact h.isView hfound
  have hneeds {other : ViewDefinition} (hother : NeedsResolved defs resolved other) :
      NeedsResolved defs (⟨key, view⟩ :: resolved) other := by
    intro needed hneeded hneededView
    obtain ⟨found, hfound⟩ := Option.isSome_iff_exists.mp (hother needed hneeded hneededView)
    rw [hamong.kept hfound]
    rfl
  intro other found hfound
  by_cases hkey : key = other
  · subst hkey
    obtain rfl := Option.some.inj (findView?_cons_self.symm.trans hfound)
    refine ⟨definition, hready.found, hneeds hready.needs, ?_⟩
    rw [← buildView_extend hdefault (hfinds _ hdefinition.1) hready.needs hamong, hview]
  · -- An earlier view was built without the new one, and reads nothing that it could change.
    rw [findView?_cons_of_ne hkey] at hfound
    obtain ⟨before, hbefore, hbeforeNeeds, hbuilt⟩ := h other found hfound
    refine ⟨before, hbefore, hneeds hbeforeNeeds, ?_⟩
    rw [← buildView_extend hdefault (hfinds _ (mem_of_findDefinition? hbefore).1) hbeforeNeeds
      hamong, hbuilt]

/-! ## The finished model -/

/-- A resolved view stands under the key of its own name. -/
theorem Settled.objectKey_eq {defs : Definitions} {model : SchemaModel}
    {resolved : List ResolvedView} (h : Settled defs model resolved) {key : String}
    {view : Relation} (hview : findView? resolved key = some view) :
    Definitions.objectKey view.schema view.name = key := by
  obtain ⟨definition, hfound, -, hbuilt⟩ := h key view hview
  obtain ⟨columns, -, rfl⟩ := buildView_eq_ok.mp hbuilt
  exact (mem_of_findDefinition? hfound).2

theorem findDefinition?_eq_some {defs : Definitions} {views : List ViewDefinition} {key : String}
    {view : ViewDefinition} (hnodup : (views.map fun view => defs.keyOf view.name).Nodup) :
    findDefinition? defs views key = some view ↔ view ∈ views ∧ defs.keyOf view.name = key := by
  constructor
  · exact mem_of_findDefinition?
  · rintro ⟨hview, rfl⟩
    exact findDefinition?_keyOf hnodup hview

section Reordered

variable {defs : Definitions} {views : List ViewDefinition}

theorem findDefinition?_perm (hperm : views.Perm defs.views) (hnodup : defs.viewKeys.Nodup)
    (key : String) : findDefinition? defs views key = findDefinition? defs defs.views key := by
  have hnodup' : (views.map fun view => defs.keyOf view.name).Nodup :=
    (hperm.map _).nodup_iff.mpr hnodup
  refine Option.ext fun view => ?_
  rw [findDefinition?_eq_some hnodup', findDefinition?_eq_some hnodup, hperm.mem_iff]

theorem isView_perm (hperm : views.Perm defs.views) (key : String) :
    { defs with views }.IsView key ↔ defs.IsView key := by
  simp only [Definitions.IsView, hperm.mem_iff]
  rfl

theorem dependsOn_perm (hperm : views.Perm defs.views) (hnodup : defs.viewKeys.Nodup)
    {key other : String} (h : { defs with views }.DependsOn key other) :
    defs.DependsOn key other := by
  obtain ⟨view, hfound, hother⟩ := h
  exact ⟨view, (findDefinition?_perm hperm hnodup key).symm.trans hfound, hother⟩

theorem ResolvedAmong.cons {resolved final : List ResolvedView} {key : String} {view : Relation}
    (hamong : ResolvedAmong defs resolved final) (hview : findView? final key = some view) :
    ResolvedAmong defs (⟨key, view⟩ :: resolved) final := by
  refine ⟨?_, hamong.areViews⟩
  intro other found hfound
  by_cases hkey : key = other
  · subst hkey
    obtain rfl := Option.some.inj (findView?_cons_self.symm.trans hfound)
    exact hview
  · rw [findView?_cons_of_ne hkey] at hfound
    exact hamong.kept hfound

end Reordered

/-! ## Statements in another order -/

/-- Whether a statement defines a view. -/
def Statement.isView : Statement → Bool
  | .view _ => true
  | _ => false

section Tables

variable {defs : Definitions} (views : List ViewDefinition)

end Tables

theorem forall₂_filterMap {α β : Type} {f : α → Option β} {xs : List α}
    (h : ∀ x ∈ xs, (f x).isSome = true) :
    List.Forall₂ (fun x y => f x = some y) xs (xs.filterMap f) := by
  induction xs with
  | nil => exact .nil
  | cons x rest ih =>
    obtain ⟨y, hy⟩ := Option.isSome_iff_exists.mp (h x List.mem_cons_self)
    rw [List.filterMap_cons_some hy]
    exact .cons hy (ih fun x' hx' => h x' (List.mem_cons_of_mem _ hx'))

/-- The views that a search returns stand in the order of their definitions. -/
theorem forall₂_of_findView? {defs : Definitions} {final : List ResolvedView}
    {P : ViewDefinition → Relation → Prop}
    (hdone : ∀ key, defs.IsView key → (findView? final key).isSome = true)
    (h : ∀ definition ∈ defs.views, ∀ view,
      findView? final (defs.keyOf definition.name) = some view → P definition view) :
    List.Forall₂ P defs.views (defs.viewKeys.filterMap (findView? final)) := by
  have hall : List.Forall₂ (fun key view => findView? final key = some view) defs.viewKeys
      (defs.viewKeys.filterMap (findView? final)) :=
    forall₂_filterMap fun key hkey => hdone key (Definitions.mem_viewKeys.mp hkey)
  unfold Definitions.viewKeys at hall
  rw [List.forall₂_map_left_iff] at hall
  refine ((List.forall₂_and_left _ _).mpr ⟨fun definition hmem => hmem, hall⟩).imp ?_
  rintro definition view ⟨hmem, hview⟩
  exact h definition hmem view hview

end SchemaPlan
