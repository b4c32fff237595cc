import SchemaPlan.Proofs.View.Columns
import SchemaPlan.Proofs.View.Cycles

/-!
# The search for views

Views are searched depth first, along the edges that the walk over their queries finds. A search
that succeeds has resolved every view once and behind all views that it names, which is possible
only if the edges have no cycle. A search that reports a cycle has followed one, from edge to edge.
So whether there is a cycle does not depend on the order in which the views are declared.

* `ResolvedInTurn`: what one more resolved view preserves.
* `AllResolved`: what a search that succeeds has done.
* `depthFirstOutcome`: what every search comes to.
-/

namespace SchemaPlan

open SchemaPlan.Sql SchemaPlan.Query

/-! ## Edges -/

/-- There is an edge from one view to another: the walk over the query of the first one finds the
name of the other, and a view is declared under it. -/
def Definitions.NamesView (defs : Definitions) (key other : String) : Prop :=
  defs.DependsOn key other ∧ defs.IsView other

theorem Definitions.namesView_iff {defs : Definitions} {key other : String} :
    defs.NamesView key other ↔
      ((findDefinition? defs defs.views key).any fun definition =>
        (dependencyKeys defs definition).contains other) = true ∧ other ∈ defs.viewKeys := by
  simp only [NamesView, DependsOn, mem_viewKeys, Option.any_eq_true, List.contains_iff_mem]

instance (defs : Definitions) (key other : String) : Decidable (defs.NamesView key other) :=
  decidable_of_iff _ Definitions.namesView_iff.symm

theorem namesView_perm {defs : Definitions} {views : List ViewDefinition}
    (hperm : views.Perm defs.views) (hnodup : defs.viewKeys.Nodup) {key other : String}
    (h : { defs with views }.NamesView key other) : defs.NamesView key other :=
  ⟨dependsOn_perm hperm hnodup h.1, (isView_perm hperm other).mp h.2⟩

/-! ## Cycles -/

theorem Cyclic.mono {related others : String → String → Prop} (h : Cyclic related)
    (himp : ∀ key other, related key other → others key other) : Cyclic others := by
  obtain ⟨key, hcycle⟩ := h
  exact ⟨key, Relation.TransGen.mono himp key key hcycle⟩

/-- A chain of declared views along edges that ends where it starts and repeats nothing else. -/
structure Definitions.IsViewCycle (defs : Definitions) (path : List String) : Prop where
  views : ∀ key ∈ path, defs.IsView key
  edges : path.IsChain defs.NamesView
  closed : ∃ first rest, path = first :: rest ++ [first] ∧ (first :: rest).Nodup

/-- All but the last in a chain are related to something. -/
theorem exists_next_of_isChain {α : Type} {r : α → α → Prop} {chain : List α} {last a : α}
    (h : (chain ++ [last]).IsChain r) (ha : a ∈ chain) : ∃ next, r a next := by
  induction chain with
  | nil => cases ha
  | cons first rest ih =>
    rcases List.mem_cons.mp ha with rfl | ha
    · cases rest with
      | nil => exact ⟨last, (List.isChain_cons_cons.mp h).1⟩
      | cons second others => exact ⟨second, (List.isChain_cons_cons.mp h).1⟩
    · exact ih h.tail ha

/-- The chain that a cycle is made of consists of views: each of them goes on to the next. -/
theorem Definitions.IsCycle.isViewCycle {defs : Definitions} {path : List String}
    (h : defs.IsCycle path) : defs.IsViewCycle path := by
  obtain ⟨first, rest, rfl, hnodup⟩ := h.closed
  have hviews : ∀ key ∈ first :: rest ++ [first], defs.IsView key := by
    intro key hkey
    -- The last key is the first one, so it goes on as well.
    have hkey : key ∈ first :: rest := by
      rcases List.mem_append.mp hkey with hkey | hkey
      · exact hkey
      · rw [List.mem_singleton.mp hkey]
        exact List.mem_cons_self
    obtain ⟨next, definition, hfound, -⟩ := exists_next_of_isChain h.chain hkey
    exact ⟨definition, mem_of_findDefinition? hfound⟩
  refine ⟨hviews, ?_, first, rest, rfl, hnodup⟩
  apply h.chain.imp_of_mem_imp
  intro key other _ hother hdepends
  exact ⟨hdepends, hviews other hother⟩

theorem Definitions.IsViewCycle.cyclic {defs : Definitions} {path : List String}
    (h : defs.IsViewCycle path) : Cyclic defs.NamesView := by
  obtain ⟨first, rest, rfl, -⟩ := h.closed
  exact ⟨first, transGen_of_isChain h.edges⟩

/-! ## Views in turn -/

/-- Resolved views, the latest first: each was ready, and was built, given the views before it. -/
inductive ResolvedInTurn (defs : Definitions) (model : SchemaModel) : List ResolvedView → Prop
  | start : ResolvedInTurn defs model []
  | build {earlier : List ResolvedView} {key : String} {definition : ViewDefinition}
      {view : Relation} (hearlier : ResolvedInTurn defs model earlier)
      (hready : Ready defs earlier key definition)
      (hbuilt : buildView defs (viewCatalog model earlier) definition = .ok view) :
      ResolvedInTurn defs model (⟨key, view⟩ :: earlier)

namespace ResolvedInTurn

variable {defs : Definitions} {model : SchemaModel} {resolved : List ResolvedView}

theorem nodup_keys (h : ResolvedInTurn defs model resolved) : (resolved.map (·.key)).Nodup := by
  induction h with
  | start => exact List.nodup_nil
  | build hearlier hready hbuilt ih =>
    exact List.nodup_cons.mpr ⟨findView?_eq_none.mp hready.unresolved, ih⟩

theorem isView (h : ResolvedInTurn defs model resolved) :
    ∀ key ∈ resolved.map (·.key), defs.IsView key := by
  induction h with
  | start => exact List.forall_mem_nil _
  | build hearlier hready hbuilt ih =>
    exact List.forall_mem_cons.mpr ⟨⟨_, mem_of_findDefinition? hready.found⟩, ih⟩

/-- The view at any place was ready when the views behind it had been resolved. -/
theorem ready {later earlier : List ResolvedView} {key : String} {view : Relation}
    (h : ResolvedInTurn defs model (later ++ ⟨key, view⟩ :: earlier)) :
    ∃ definition, Ready defs earlier key definition ∧
      buildView defs (viewCatalog model earlier) definition = .ok view := by
  induction later with
  | nil =>
    cases h with
    | build hearlier hready hbuilt => exact ⟨_, hready, hbuilt⟩
  | cons latest rest ih =>
    cases h with
    | build hearlier hready hbuilt => exact ih hearlier

end ResolvedInTurn

/-! ## Searches that succeed -/

/-- The views that a search has resolved, the latest first, and those that it returns. -/
structure AllResolved (defs : Definitions) (model : SchemaModel) (resolved : List ResolvedView)
    (views : List Relation) : Prop where
  /-- Every declared view has been resolved once. -/
  once : (resolved.map (·.key)).Perm defs.viewKeys
  /-- All views that a view names had been resolved before, and it was built from what had been. -/
  inTurn : ∀ later key view earlier, resolved = later ++ ⟨key, view⟩ :: earlier →
    (∀ other, defs.NamesView key other → other ∈ earlier.map (·.key)) ∧
      ∃ definition, findDefinition? defs defs.views key = some definition ∧
        buildView defs (viewCatalog model earlier) definition = .ok view
  /-- The views are returned in the order of their definitions. -/
  returned : List.Forall₂ (fun definition view =>
      ⟨defs.keyOf definition.name, view⟩ ∈ resolved ∧
        view.schema = defs.schemaOf definition.name ∧ view.name = definition.name.name)
    defs.views views

theorem ResolvedInTurn.allResolved {defs : Definitions} {model : SchemaModel}
    {resolved : List ResolvedView} (h : ResolvedInTurn defs model resolved)
    (hnodup : defs.viewKeys.Nodup)
    (hdone : ∀ key, defs.IsView key → (findView? resolved key).isSome = true) :
    AllResolved defs model resolved (defs.viewKeys.filterMap (findView? resolved)) := by
  have hlisted {earlier : List ResolvedView} {key : String}
      (hfound : (findView? earlier key).isSome = true) : key ∈ earlier.map (·.key) := by
    obtain ⟨view, hview⟩ := Option.isSome_iff_exists.mp hfound
    exact List.mem_map_of_mem (mem_of_findView? hview)
  refine ⟨?once, ?inTurn, ?returned⟩
  case once =>
    rw [List.perm_ext_iff_of_nodup h.nodup_keys hnodup]
    intro key
    rw [Definitions.mem_viewKeys]
    exact ⟨h.isView key, fun hkey => hlisted (hdone key hkey)⟩
  case inTurn =>
    rintro later key view earlier rfl
    obtain ⟨definition, hready, hbuilt⟩ := h.ready
    refine ⟨?_, definition, hready.found, hbuilt⟩
    rintro other ⟨⟨definition', hfound, hother⟩, hview⟩
    obtain rfl := Option.some.inj (hready.found.symm.trans hfound)
    exact hlisted (hready.needs other hother hview)
  case returned =>
    refine forall₂_of_findView? hdone ?_
    intro definition hmem view hview
    have hentry := mem_of_findView? hview
    -- Where the entry stands in the list, the views below it are those it was built from.
    obtain ⟨later, earlier, rfl⟩ := List.append_of_mem hentry
    obtain ⟨definition', hready, hbuilt⟩ := h.ready
    obtain rfl := Option.some.inj
      ((findDefinition?_keyOf hnodup hmem).symm.trans hready.found)
    obtain ⟨columns, -, rfl⟩ := buildView_eq_ok.mp hbuilt
    exact ⟨hentry, rfl, rfl⟩

/-! ## All searches -/

/-- What a search comes to. It returns all views, or it reports a cycle, or the query of a view that
was ready does not resolve. -/
def DepthFirstOutcome (defs : Definitions) (model : SchemaModel) :
    Except LoadError (List Relation) → Prop
  | .ok views =>
    ¬ Cyclic defs.NamesView ∧
      ∃ resolved, resolveViews defs model defs.views [] [] defs.viewKeys = .ok resolved ∧
        AllResolved defs model resolved views
  | .error (.viewCycle path) => defs.IsViewCycle path
  | .error failure =>
    ∃ resolved key definition, ResolvedInTurn defs model resolved ∧
      Ready defs resolved key definition ∧
      buildView defs (viewCatalog model resolved) definition = .error failure

theorem not_cyclic_namesView_of_buildViews {defs : Definitions} {model : SchemaModel}
    {views : List Relation} (h : buildViews defs model = .ok views) :
    ¬ Cyclic defs.NamesView := by
  intro hcyclic
  obtain ⟨key, hcycle⟩ : Cyclic defs.DependsOn := hcyclic.mono fun _ _ hnames => hnames.1
  exact not_transGen_of_buildViews_eq_ok h key hcycle

theorem depthFirstOutcome {defs : Definitions} (model : SchemaModel)
    (hnodup : defs.viewKeys.Nodup) : DepthFirstOutcome defs model (buildViews defs model) := by
  have hbuild : ∀ {resolved key definition view}, ResolvedInTurn defs model resolved →
      Ready defs resolved key definition →
      buildView defs (viewCatalog model resolved) definition = .ok view →
      ResolvedInTurn defs model (⟨key, view⟩ :: resolved) :=
    fun hturn hready hview => hturn.build hready hview
  have hsearch : Search defs defs.views [] defs.viewKeys := .start
  cases hviews : buildViews defs model with
  | ok views =>
    refine ⟨not_cyclic_namesView_of_buildViews hviews, ?_⟩
    unfold buildViews at hviews
    obtain ⟨resolved, hresolved, hviews⟩ := bind_eq_ok.mp hviews
    change resolveViews defs model defs.views [] [] defs.viewKeys = .ok resolved at hresolved
    obtain rfl := Except.ok.inj hviews
    have houtcome := resolveViews_outcome hbuild hsearch .start
    rw [hresolved] at houtcome
    obtain ⟨hturn, hcompletes⟩ := houtcome
    refine ⟨resolved, hresolved, hturn.allResolved hnodup fun key hkey => ?_⟩
    exact hcompletes.done key (Definitions.mem_viewKeys.mpr hkey) hkey
  | error failure =>
    have houtcome := buildViews_outcome hbuild .start
    rw [hviews] at houtcome
    rcases houtcome with ⟨path, rfl, hcycle⟩ | ⟨resolved, key, definition, hturn, hready, hfailed⟩
    · exact hcycle.isViewCycle
    · cases failure with
      -- Building a view never reports a cycle; only the search does.
      | viewCycle path => exact absurd hfailed buildView_ne_viewCycle
      | _ => exact ⟨resolved, key, definition, hturn, hready, hfailed⟩

/-- A search among views of distinct keys returns all of them, reports a cycle that they have, or
fails for a view that was ready. If the edges between the views have no cycle then none is reported,
in whatever order the views are declared. -/
theorem buildViews_searches {defs : Definitions} (model : SchemaModel)
    (hnodup : defs.viewKeys.Nodup) :
    DepthFirstOutcome defs model (buildViews defs model) ∧
      (¬ Cyclic defs.NamesView → ∀ views, views.Perm defs.views →
        ∀ path, buildViews { defs with views } model ≠ .error (.viewCycle path)) := by
  refine ⟨depthFirstOutcome model hnodup, ?_⟩
  intro hacyclic views hperm path hreport
  have hcycle := (isCycle_of_buildViews_eq_error hreport).isViewCycle
  apply hacyclic
  exact hcycle.cyclic.mono fun _ _ hnames => namesView_perm hperm hnodup hnames

/-- A view that is declared in front of the view it names is returned in front of it, and no cycle is
reported in either order. -/
theorem buildViews_searches_later_view :
    ∃ statements loaded, statementsOf?
        ["create view w as select x from v", "create view v as select 1 as x"] = some statements ∧
      buildModel {} statements = .ok loaded ∧ loaded.model.views.map (·.name) = ["w", "v"] ∧
      let defs := Definitions.ofStatements "dbo" statements
      defs.viewKeys.Nodup ∧ defs.NamesView "dbo.w" "dbo.v" ∧ ¬ Cyclic defs.NamesView ∧
      (∃ model resolved, resolveViews defs model defs.views [] [] defs.viewKeys = .ok resolved ∧
        AllResolved defs model resolved loaded.model.views) ∧
      ∀ model views, views.Perm defs.views →
        ∀ path, buildViews { defs with views } model ≠ .error (.viewCycle path) := by
  obtain ⟨statements, loaded, hstatements, hloaded, htest⟩ :=
    exists_loaded_of_any
      ["create view w as select x from v", "create view v as select 1 as x"]
      (fun statements loaded => loaded.model.views.map (·.name) == ["w", "v"] &&
        decide ((Definitions.ofStatements "dbo" statements).NamesView "dbo.w" "dbo.v"))
      (by decide +kernel)
  obtain ⟨hreturned, hnames⟩ := Bool.and_eq_true_iff.mp htest
  obtain ⟨schema, views, hdistinct, -, hviews, rfl⟩ := buildModel_eq_ok.mp hloaded
  have hnodup := Definitions.nodup_viewKeys hdistinct
  have houtcome := (buildViews_searches schema hnodup).1
  rw [hviews] at houtcome
  obtain ⟨hacyclic, resolved, hresolved⟩ := houtcome
  exact ⟨statements, _, hstatements, hloaded, eq_of_beq hreturned, hnodup,
    of_decide_eq_true hnames, hacyclic, ⟨schema, resolved, hresolved⟩,
    fun model => (buildViews_searches model hnodup).2 hacyclic⟩

end SchemaPlan
