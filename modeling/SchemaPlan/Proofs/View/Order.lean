import SchemaPlan.Proofs.Schema.Names
import Mathlib.Data.List.Chain
import Mathlib.Data.List.Nodup
import Mathlib.Logic.Relation

/-!
# The order in which views are built

Views are built depth first. `resolveViews_outcome` says what a search comes to: either every view
that was asked for is resolved, each built when the views it names had been, or the chain of views
that are being resolved closes, or a view that is ready cannot be built. What the resolved views
have in common is left open, as an invariant that every built view has to keep.
-/

namespace SchemaPlan

open SchemaPlan.Sql

/-! ## Definitions and resolved views by key -/

/-- The view of a key names the object of another key. -/
def Definitions.DependsOn (defs : Definitions) (key other : String) : Prop :=
  ∃ view, findDefinition? defs defs.views key = some view ∧ other ∈ dependencyKeys defs view

/-- A view is defined under a key. -/
def Definitions.IsView (defs : Definitions) (key : String) : Prop :=
  ∃ view ∈ defs.views, defs.keyOf view.name = key

section Lookup

variable {defs : Definitions} {views : List ViewDefinition} {key other : String}

theorem mem_of_findDefinition? {view : ViewDefinition}
    (h : findDefinition? defs views key = some view) :
    view ∈ views ∧ defs.keyOf view.name = key :=
  ⟨List.mem_of_find?_eq_some h, by simpa using List.find?_some h⟩

theorem findDefinition?_eq_none : findDefinition? defs defs.views key = none ↔ ¬ defs.IsView key := by
  simp [findDefinition?, Definitions.IsView]

/-- Views of distinct keys are found under their own. -/
theorem findDefinition?_keyOf (hnodup : (views.map fun view => defs.keyOf view.name).Nodup)
    {view : ViewDefinition} (hview : view ∈ views) :
    findDefinition? defs views (defs.keyOf view.name) = some view := by
  have hfound : ∃ found, findDefinition? defs views (defs.keyOf view.name) = some found := by
    rw [← Option.ne_none_iff_exists']
    simpa [findDefinition?] using ⟨view, hview, rfl⟩
  obtain ⟨found, hfound⟩ := hfound
  obtain ⟨hmem, hkey⟩ := mem_of_findDefinition? hfound
  rw [hfound, List.inj_on_of_nodup_map hnodup hmem hview hkey]

theorem findDefinition?_withoutKey (h : other ≠ key) :
    findDefinition? defs (withoutKey defs views key) other = findDefinition? defs views other := by
  induction views with
  | nil => rfl
  | cons view rest ih =>
    unfold findDefinition? withoutKey at *
    rw [List.filter_cons, List.find?_cons]
    cases hother : defs.keyOf view.name == other with
    | true =>
      -- The view that is looked for has another key, so it is not taken away.
      have hkeep : (defs.keyOf view.name == key) = false := by
        rw [eq_of_beq hother]
        exact beq_false_of_ne h
      rw [hkeep]
      simp [hother]
    | false =>
      split
      · rw [List.find?_cons, hother]
        exact ih
      · exact ih

theorem findView?_cons_self {resolved : List ResolvedView} {view : Relation} :
    findView? (⟨key, view⟩ :: resolved) key = some view := by
  simp [findView?]

theorem findView?_cons_of_ne {resolved : List ResolvedView} {view : Relation} (h : key ≠ other) :
    findView? (⟨key, view⟩ :: resolved) other = findView? resolved other := by
  simp [findView?, h]

theorem findView?_eq_none {resolved : List ResolvedView} :
    findView? resolved key = none ↔ key ∉ resolved.map (·.key) := by
  simp [findView?]

theorem mem_of_findView? {resolved : List ResolvedView} {view : Relation}
    (h : findView? resolved key = some view) : ⟨key, view⟩ ∈ resolved := by
  obtain ⟨entry, hentry, rfl⟩ := Option.map_eq_some_iff.mp h
  have hkey := List.find?_some hentry
  rw [← eq_of_beq hkey]
  exact List.mem_of_find?_eq_some hentry

end Lookup

/-! ## Cycles -/

/-- A closed chain of views in which only the first one comes up again, at the end. -/
structure Definitions.IsCycle (defs : Definitions) (path : List String) : Prop where
  chain : path.IsChain defs.DependsOn
  closed : ∃ first rest, path = first :: rest ++ [first] ∧ (first :: rest).Nodup

theorem transGen_of_isChain {α : Type} {r : α → α → Prop} {first last : α} {between : List α}
    (h : (first :: between ++ [last]).IsChain r) : Relation.TransGen r first last := by
  induction between generalizing first with
  | nil => exact .single (List.isChain_cons_cons.mp h).1
  | cons next rest ih =>
    obtain ⟨hstep, hrest⟩ := List.isChain_cons_cons.mp h
    exact .head hstep (ih hrest)

theorem Definitions.IsCycle.transGen {defs : Definitions} {path : List String}
    (h : defs.IsCycle path) : ∃ key, Relation.TransGen defs.DependsOn key key := by
  obtain ⟨first, rest, rfl, -⟩ := h.closed
  exact ⟨first, transGen_of_isChain h.chain⟩

theorem exists_dropWhile_ne {key : String} {keys : List String} (h : key ∈ keys) :
    ∃ rest, keys.dropWhile (· != key) = key :: rest := by
  induction keys with
  | nil => cases h
  | cons first rest ih =>
    by_cases hkey : first = key
    · exact ⟨rest, by simp [hkey]⟩
    · rw [List.dropWhile_cons_of_pos (by simpa using hkey)]
      exact ih ((List.mem_cons.mp h).resolve_left (Ne.symm hkey))

/-! ## The search -/

/-- What holds of a search for keys: `waiting` lacks no view but those of the keys in `opened`, and
these form a chain that each of the keys carries on. -/
structure Search (defs : Definitions) (waiting : List ViewDefinition) (opened keys : List String) :
    Prop where
  waiting : ∀ key, key ∉ opened →
    findDefinition? defs waiting key = findDefinition? defs defs.views key
  chain : ∀ key ∈ keys, (opened ++ [key]).IsChain defs.DependsOn
  nodup : opened.Nodup

namespace Search

variable {defs : Definitions} {waiting : List ViewDefinition} {opened keys : List String}
  {key : String}

theorem start : Search defs defs.views [] keys :=
  ⟨fun _ _ => rfl, fun _ _ => by simp, List.nodup_nil⟩

theorem tail (h : Search defs waiting opened (key :: keys)) : Search defs waiting opened keys :=
  ⟨h.waiting, fun other hother => h.chain other (List.mem_cons_of_mem _ hother), h.nodup⟩

/-- The search goes on with what the view of a key names. -/
theorem enter (h : Search defs waiting opened (key :: keys)) (hnew : key ∉ opened)
    {definition : ViewDefinition} (hfound : findDefinition? defs defs.views key = some definition) :
    Search defs (withoutKey defs waiting key) (opened ++ [key]) (dependencyKeys defs definition) where
  waiting other hother := by
    have hother : other ∉ opened ∧ other ≠ key := by simpa using hother
    rw [findDefinition?_withoutKey hother.2, h.waiting other hother.1]
  chain other hother := by
    have hchain := h.chain key List.mem_cons_self
    rw [List.append_assoc, List.singleton_append, List.isChain_append_cons_cons]
    exact ⟨hchain, ⟨definition, hfound, hother⟩, by simp⟩
  nodup := by
    rw [List.nodup_append]
    refine ⟨h.nodup, by simp, ?_⟩
    rintro other hother _ hkey rfl
    rw [List.mem_singleton] at hkey
    exact hnew (hkey ▸ hother)

/-- A key that is met again closes the chain. -/
theorem isCycle (h : Search defs waiting opened (key :: keys)) (hmet : key ∈ opened) :
    defs.IsCycle (opened.dropWhile (· != key) ++ [key]) := by
  have hsuffix : opened.dropWhile (· != key) ++ [key] <:+ opened ++ [key] := by
    have hdrop : opened.dropWhile (· != key) <:+ opened := List.dropWhile_suffix _
    obtain ⟨before, hbefore⟩ := hdrop
    exact ⟨before, by rw [← List.append_assoc, hbefore]⟩
  obtain ⟨rest, hrest⟩ := exists_dropWhile_ne hmet
  refine ⟨(h.chain key List.mem_cons_self).suffix hsuffix, key, rest, by rw [hrest], ?_⟩
  rw [← hrest]
  exact h.nodup.sublist (List.dropWhile_suffix _).sublist

end Search

/-- Everything that a view names among the views is resolved. -/
def NeedsResolved (defs : Definitions) (resolved : List ResolvedView)
    (definition : ViewDefinition) : Prop :=
  ∀ other ∈ dependencyKeys defs definition, defs.IsView other →
    (findView? resolved other).isSome = true

/-- A view that is about to be built. -/
structure Ready (defs : Definitions) (resolved : List ResolvedView) (key : String)
    (definition : ViewDefinition) : Prop where
  found : findDefinition? defs defs.views key = some definition
  unresolved : findView? resolved key = none
  needs : NeedsResolved defs resolved definition

/-- The resolved views of a search for keys that comes to an end. -/
structure Completes (defs : Definitions) (opened : List String) (resolved : List ResolvedView)
    (keys : List String) (final : List ResolvedView) : Prop where
  kept : ∀ {key view}, findView? resolved key = some view → findView? final key = some view
  opened : ∀ key ∈ opened, findView? resolved key = none → findView? final key = none
  done : ∀ key ∈ keys, defs.IsView key → (findView? final key).isSome = true

namespace Completes

variable {defs : Definitions} {opened keys : List String} {resolved final : List ResolvedView}
  {key : String}

/-- A key is done if its view is resolved, or if there is none. -/
theorem cons (h : Completes defs opened resolved keys final)
    (hkey : defs.IsView key → (findView? resolved key).isSome = true) :
    Completes defs opened resolved (key :: keys) final where
  kept := h.kept
  opened := h.opened
  done other hother hview := by
    rcases List.mem_cons.mp hother with rfl | hother
    · obtain ⟨view, hview⟩ := Option.isSome_iff_exists.mp (hkey hview)
      rw [h.kept hview]
      rfl
    · exact h.done other hother hview

/-- A key is done once the search for what it names has ended and its view is built. -/
theorem build {inner : List ResolvedView} {needed : List String} {view : Relation}
    (hinner : Completes defs (opened ++ [key]) resolved needed inner)
    (h : Completes defs opened (⟨key, view⟩ :: inner) keys final) (hnew : key ∉ opened)
    (hunresolved : findView? resolved key = none) :
    Completes defs opened resolved (key :: keys) final := by
  -- The view was open while its reads were resolved, and an open view is not resolved.
  have hkey : findView? inner key = none := hinner.opened key (by simp) hunresolved
  refine ⟨?_, ?_, ?_⟩
  · intro other found hfound
    have hfound := hinner.kept hfound
    have hne : key ≠ other := by
      rintro rfl
      rw [hkey] at hfound
      cases hfound
    refine h.kept ?_
    rw [findView?_cons_of_ne hne, hfound]
  · intro other hother hnone
    have hne : key ≠ other := fun heq => hnew (heq ▸ hother)
    refine h.opened other hother ?_
    rw [findView?_cons_of_ne hne]
    exact hinner.opened other (List.mem_append_left _ hother) hnone
  · intro other hother hview
    rcases List.mem_cons.mp hother with rfl | hother
    · rw [h.kept findView?_cons_self]
      rfl
    · exact h.done other hother hview

end Completes

/-- What a search comes to, given what the resolved views have in common. -/
def SearchOutcome (defs : Definitions) (model : SchemaModel) (common : List ResolvedView → Prop)
    (opened : List String) (resolved : List ResolvedView) (keys : List String) :
    Except LoadError (List ResolvedView) → Prop
  | .ok final => common final ∧ Completes defs opened resolved keys final
  | .error failure =>
    (∃ path, failure = .viewCycle path ∧ defs.IsCycle path) ∨
      ∃ resolved key definition, common resolved ∧ Ready defs resolved key definition ∧
        buildView defs (viewCatalog model resolved) definition = .error failure

theorem SearchOutcome.imp {defs : Definitions} {model : SchemaModel}
    {common : List ResolvedView → Prop} {opened opened' keys keys' : List String}
    {resolved resolved' : List ResolvedView} {outcome : Except LoadError (List ResolvedView)}
    (h : SearchOutcome defs model common opened resolved keys outcome)
    (himp : ∀ {final}, Completes defs opened resolved keys final →
      Completes defs opened' resolved' keys' final) :
    SearchOutcome defs model common opened' resolved' keys' outcome := by
  cases outcome with
  | error failure => exact h
  | ok final => exact ⟨h.1, himp h.2⟩

/-- A search completes, or it meets a cycle, or a view that is ready cannot be built. -/
theorem resolveViews_outcome {defs : Definitions} {model : SchemaModel}
    {common : List ResolvedView → Prop}
    (hbuild : ∀ {resolved key definition view}, common resolved →
      Ready defs resolved key definition →
      buildView defs (viewCatalog model resolved) definition = .ok view →
      common (⟨key, view⟩ :: resolved))
    {waiting : List ViewDefinition} {opened keys : List String} {resolved : List ResolvedView}
    (hsearch : Search defs waiting opened keys) (hcommon : common resolved) :
    SearchOutcome defs model common opened resolved keys
      (resolveViews defs model waiting opened resolved keys) := by
  -- By the walk's own cases: no key left, a resolved one, an opened one, one without a definition,
  -- and one whose needs are searched first.
  induction waiting, opened, resolved, keys using resolveViews.induct defs with
  | case1 waiting opened resolved =>
    rw [resolveViews]
    exact ⟨hcommon, id, fun _ _ => id, fun _ h => nomatch h⟩
  | case2 waiting opened resolved key rest hresolved ih =>
    rw [resolveViews, if_pos hresolved]
    exact (ih hsearch.tail hcommon).imp fun h => h.cons fun _ => hresolved
  | case3 waiting opened resolved key rest hunresolved hopened =>
    rw [resolveViews, if_neg hunresolved, if_pos hopened]
    exact Or.inl ⟨_, rfl, hsearch.isCycle (by simpa using hopened)⟩
  | case4 waiting opened resolved key rest hunresolved hopened hnone ih =>
    rw [resolveViews, if_neg hunresolved, if_neg hopened]
    split
    · -- Only the views of opened keys are not waiting, so there is no view of this one.
      rw [hsearch.waiting key (by simpa using hopened), findDefinition?_eq_none] at hnone
      exact (ih hsearch.tail hcommon).imp fun h => h.cons fun hview => absurd hview hnone
    · rename_i hfound
      rw [hnone] at hfound
      cases hfound
  | case5 waiting opened resolved key rest hunresolved hopened definition hfound ihneeds ihrest =>
    rw [resolveViews, if_neg hunresolved, if_neg hopened]
    have hnew : key ∉ opened := by simpa using hopened
    have hnone : findView? resolved key = none := by simpa using hunresolved
    split
    · rename_i hmissing
      rw [hfound] at hmissing
      cases hmissing
    · rename_i definition' hfound'
      obtain rfl := Option.some.inj (hfound.symm.trans hfound')
      rw [hsearch.waiting key hnew] at hfound
      have hneeds := ihneeds (hsearch.enter hnew hfound) hcommon
      cases hinner : resolveViews defs model (withoutKey defs waiting key) (opened ++ [key])
          resolved (dependencyKeys defs definition) with
      | error failure =>
        rw [hinner] at hneeds
        exact hneeds
      | ok inner =>
        rw [hinner] at hneeds
        obtain ⟨hinnerCommon, hcompletes⟩ := hneeds
        -- All that the view needs is done, and no search beneath it resolved an opened key.
        have hready : Ready defs inner key definition :=
          ⟨hfound, hcompletes.opened key (by simp) hnone, hcompletes.done⟩
        simp only [bind, Except.bind]
        cases hview : buildView defs (viewCatalog model inner) definition with
        | error failure => exact Or.inr ⟨inner, key, definition, hinnerCommon, hready, hview⟩
        | ok view =>
          have hrest := ihrest inner view hsearch.tail (hbuild hinnerCommon hready hview)
          exact hrest.imp fun h => hcompletes.build h hnew hnone

/-- The keys of all views in the order of their definitions. -/
def Definitions.viewKeys (defs : Definitions) : List String :=
  defs.views.map fun view => defs.keyOf view.name

theorem Definitions.mem_viewKeys {defs : Definitions} {key : String} :
    key ∈ defs.viewKeys ↔ defs.IsView key := by
  simp [viewKeys, IsView]

/-- What building all views comes to, given what resolved views have in common. -/
def BuildOutcome (defs : Definitions) (model : SchemaModel) (common : List ResolvedView → Prop) :
    Except LoadError (List Relation) → Prop
  | .ok views =>
    ∃ final, common final ∧ (∀ key, defs.IsView key → (findView? final key).isSome = true) ∧
      views = defs.viewKeys.filterMap (findView? final)
  | .error failure =>
    (∃ path, failure = .viewCycle path ∧ defs.IsCycle path) ∨
      ∃ resolved key definition, common resolved ∧ Ready defs resolved key definition ∧
        buildView defs (viewCatalog model resolved) definition = .error failure

/-- All views are built, or there is a cycle, or a view that is ready cannot be built. -/
theorem buildViews_outcome {defs : Definitions} {model : SchemaModel}
    {common : List ResolvedView → Prop}
    (hbuild : ∀ {resolved key definition view}, common resolved →
      Ready defs resolved key definition →
      buildView defs (viewCatalog model resolved) definition = .ok view →
      common (⟨key, view⟩ :: resolved))
    (hcommon : common []) : BuildOutcome defs model common (buildViews defs model) := by
  have hsearch : Search defs defs.views [] defs.viewKeys := .start
  have houtcome := resolveViews_outcome hbuild hsearch hcommon
  unfold buildViews
  change BuildOutcome defs model common (resolveViews defs model defs.views [] [] defs.viewKeys >>= _)
  cases hfinal : resolveViews defs model defs.views [] [] defs.viewKeys with
  | error failure =>
    rw [hfinal] at houtcome
    exact houtcome
  | ok final =>
    rw [hfinal] at houtcome
    obtain ⟨hfinalCommon, hcompletes⟩ := houtcome
    refine ⟨final, hfinalCommon, ?_, rfl⟩
    intro key hkey
    exact hcompletes.done key (Definitions.mem_viewKeys.mpr hkey) hkey

/-- Building the views fails over a cycle, or over a view that is ready. -/
theorem exists_ready_of_buildViews_eq_error {defs : Definitions} {model : SchemaModel}
    {failure : LoadError} (h : buildViews defs model = .error failure) :
    (∃ path, failure = .viewCycle path ∧ defs.IsCycle path) ∨
      ∃ resolved key definition, Ready defs resolved key definition ∧
        buildView defs (viewCatalog model resolved) definition = .error failure := by
  have hbuild : ∀ {resolved key definition view}, True → Ready defs resolved key definition →
      buildView defs (viewCatalog model resolved) definition = .ok view → True :=
    fun _ _ _ => trivial
  have houtcome := buildViews_outcome hbuild trivial
  rw [h] at houtcome
  rcases houtcome with hcycle | ⟨resolved, key, definition, -, hready, hfailed⟩
  · exact .inl hcycle
  · exact .inr ⟨resolved, key, definition, hready, hfailed⟩

/-! ## Cycles that are reported -/

theorem buildView_ne_viewCycle {defs : Definitions} {catalog : ObjectCatalog}
    {definition : ViewDefinition} {path : List String} :
    buildView defs catalog definition ≠ .error (.viewCycle path) := by
  unfold buildView
  dsimp only
  split <;> simp

/-- A chain of views that is reported is a cycle. -/
theorem isCycle_of_buildViews_eq_error {defs : Definitions} {model : SchemaModel}
    {path : List String} (h : buildViews defs model = .error (.viewCycle path)) :
    defs.IsCycle path := by
  rcases exists_ready_of_buildViews_eq_error h with ⟨path', hpath, hcycle⟩ | ⟨_, _, _, -, hfailed⟩
  · obtain rfl := LoadError.viewCycle.inj hpath
    exact hcycle
  · exact absurd hfailed buildView_ne_viewCycle

/-! ## Views that are built have no cycle -/

/-- No resolved view starts an endless chain of views. -/
def Grounded (defs : Definitions) (resolved : List ResolvedView) : Prop :=
  ∀ key, (findView? resolved key).isSome = true → Acc (Function.swap defs.DependsOn) key

theorem Grounded.cons {defs : Definitions} {resolved : List ResolvedView} {key : String}
    {definition : ViewDefinition} (h : Grounded defs resolved)
    (hready : Ready defs resolved key definition) (view : Relation) :
    Grounded defs (⟨key, view⟩ :: resolved) := by
  intro other hother
  by_cases hkey : key = other
  · subst hkey
    refine .intro _ ?_
    rintro needed ⟨definition', hfound, hneeded⟩
    obtain rfl := Option.some.inj (hready.found.symm.trans hfound)
    by_cases hview : defs.IsView needed
    · exact h needed (hready.needs needed hneeded hview)
    · -- What is no view names nothing.
      refine .intro _ ?_
      rintro _ ⟨definition', hfound, -⟩
      rw [findDefinition?_eq_none.mpr hview] at hfound
      cases hfound
  · rw [findView?_cons_of_ne hkey] at hother
    exact h other hother

theorem not_transGen_of_acc {α : Type} {r : α → α → Prop} {a : α} (h : Acc (Function.swap r) a) :
    ¬ Relation.TransGen r a a := by
  intro hcycle
  rw [← Relation.transGen_swap] at hcycle
  have hacc := h.transGen
  clear h
  induction hacc with
  | intro a _ ih => exact ih a hcycle hcycle

/-- Views that are all built rest on each other without a cycle. -/
theorem not_transGen_of_buildViews_eq_ok {defs : Definitions} {model : SchemaModel}
    {views : List Relation} (h : buildViews defs model = .ok views) (key : String) :
    ¬ Relation.TransGen defs.DependsOn key key := by
  have hbuild : ∀ {resolved key definition view}, Grounded defs resolved →
      Ready defs resolved key definition →
      buildView defs (viewCatalog model resolved) definition = .ok view →
      Grounded defs (⟨key, view⟩ :: resolved) :=
    fun hgrounded hready _ => hgrounded.cons hready _
  have houtcome := buildViews_outcome hbuild (fun _ hnone => nomatch hnone)
  rw [h] at houtcome
  obtain ⟨final, hgrounded, hdone, -⟩ := houtcome
  intro hcycle
  obtain ⟨next, ⟨definition, hfound, -⟩, -⟩ := Relation.TransGen.head'_iff.mp hcycle
  have hkey : defs.IsView key :=
    ⟨definition, (mem_of_findDefinition? hfound).1, (mem_of_findDefinition? hfound).2⟩
  exact not_transGen_of_acc (hgrounded key (hdone key hkey)) hcycle

end SchemaPlan
