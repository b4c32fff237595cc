import SchemaPlan.Proofs.Schema.Failures
import SchemaPlan.Proofs.View.Mentions

/-!
# Cycles among views

A load fails for a cycle of views exactly if the views have one, where a view counts as using
another if the walk finds a mention of it. The walk takes every name that has been declared by a
common table expression before for that expression, while the expression is in scope only in its own
query, in later ones of its list and in the query that declares it. So a cycle is reported exactly
if the views use each other in one as far as the two ways to read names agree about that.
-/

namespace SchemaPlan

open SchemaPlan.Sql SchemaPlan.Query

/-! ## Failures for a cycle -/

/-- A load fails for a cycle if the views do, once names and tables have passed. -/
theorem buildModel_eq_viewCycle {options : LoadOptions} {statements : List Statement}
    {path : List String} (h : buildModel options statements = .error (.viewCycle path)) :
    ∃ schema, buildViews (.ofStatements options.defaultSchema statements) schema =
      .error (.viewCycle path) := by
  rcases (buildModel_eq_error rfl).mp h with h | ⟨-, h | ⟨schema, -, h⟩⟩
  · obtain ⟨_, hother⟩ := checkNames_failsOnlyFor _ _ h
    cases hother
  · rcases buildTables_failsOnlyFor _ _ h with ⟨_, _, _, hother⟩ | ⟨_, _, hother⟩ <;> cases hother
  · exact ⟨schema, h⟩

/-! ## Uses -/

/-- The name of a mention is that of a common table expression in scope: of one in whose own query
the mention stands, of an earlier one of the same list, or of one that a query around it declares. -/
def Mention.isBound (mention : Mention) : Bool :=
  mention.object.schema.isNone && mention.object.database.isNone &&
    ((mention.site.enclosing ++ mention.site.visible).map Text.lower).contains
      (Text.lower mention.object.name)

/-- The query of the view of a key mentions the object of another key under a name that does not
stand for a common table expression. -/
def Definitions.Names (defs : Definitions) (isCte : Mention → Bool) (key other : String) : Prop :=
  ∃ view, findDefinition? defs defs.views key = some view ∧
    ∃ mention ∈ mentions view.query, isCte mention = false ∧ defs.keyOf mention.object = other

/-- The view of a key uses the object of another key: it names it, in some source of its query, and
the name is not bound to a common table expression in scope. -/
def Definitions.Uses (defs : Definitions) : String → String → Prop := defs.Names Mention.isBound

/-- Some key is related to itself in one step or more. -/
def Cyclic (related : String → String → Prop) : Prop :=
  ∃ key, Relation.TransGen related key key

theorem dependsOn_iff_names {defs : Definitions} {key other : String} :
    defs.DependsOn key other ↔ defs.Names Mention.isHidden key other := by
  simp only [Definitions.DependsOn, Definitions.Names, mem_dependencyKeys_iff]

theorem cyclic_dependsOn_iff (defs : Definitions) :
    Cyclic defs.DependsOn ↔ Cyclic (defs.Names Mention.isHidden) := by
  have hsame : defs.DependsOn = defs.Names Mention.isHidden := by
    funext key other
    exact propext dependsOn_iff_names
  rw [hsame]

/-- Steps between things that have a next one are all that a cycle is made of. -/
theorem transGen_of_steps {α : Type} {r r' : α → α → Prop}
    (hstep : ∀ {a b c}, r a b → r b c → r' a b) {a b c : α} (h : Relation.TransGen r a b)
    (hnext : r b c) : Relation.TransGen r' a b := by
  induction h generalizing c with
  | single hab => exact .single (hstep hab hnext)
  | tail _ hbc ih => exact .tail (ih hbc) (hstep hbc hnext)

/-- Two ways to tell names of common table expressions from others find the same cycles if they
agree about the names of views. -/
theorem cyclic_names_of_agree {defs : Definitions} {isCte isCte' : Mention → Bool}
    (hagree : ∀ view ∈ defs.views, ∀ mention ∈ mentions view.query,
      defs.IsView (defs.keyOf mention.object) → isCte mention = isCte' mention)
    (h : Cyclic (defs.Names isCte)) : Cyclic (defs.Names isCte') := by
  obtain ⟨key, hcycle⟩ := h
  obtain ⟨next, hnext, -⟩ := Relation.TransGen.head'_iff.mp hcycle
  refine ⟨key, transGen_of_steps ?_ hcycle hnext⟩
  rintro first second third ⟨view, hfound, mention, hmention, hcte, rfl⟩ ⟨view', hfound', -⟩
  have hview : defs.IsView (defs.keyOf mention.object) := ⟨view', mem_of_findDefinition? hfound'⟩
  refine ⟨view, hfound, mention, hmention, ?_, rfl⟩
  rw [← hagree view (mem_of_findDefinition? hfound).1 mention hmention hview, hcte]

/-! ## Loads with and without a cycle -/

/-- A load fails for a cycle of views. -/
def ReportsCycle (options : LoadOptions) (statements : List Statement) : Prop :=
  ∃ path, buildModel options statements = .error (.viewCycle path)

/-- A load succeeds. -/
def Loads (options : LoadOptions) (statements : List Statement) : Prop :=
  ∃ loaded, buildModel options statements = .ok loaded

/-- A cycle is reported only if there is one, and a load does not succeed with one. -/
def ReportsExactly (options : LoadOptions) (statements : List Statement)
    (related : String → String → Prop) : Prop :=
  (ReportsCycle options statements → Cyclic related) ∧
    (Loads options statements → ¬ Cyclic related)

/-- The cycles that are reported are those of the mentions that the walk finds. -/
theorem reportsExactly_hidden (options : LoadOptions) (statements : List Statement) :
    ReportsExactly options statements
      ((Definitions.ofStatements options.defaultSchema statements).Names Mention.isHidden) := by
  unfold ReportsExactly
  rw [← cyclic_dependsOn_iff]
  constructor
  · rintro ⟨path, h⟩
    obtain ⟨schema, hviews⟩ := buildModel_eq_viewCycle h
    exact (isCycle_of_buildViews_eq_error hviews).transGen
  · rintro ⟨loaded, h⟩ ⟨key, hkey⟩
    obtain ⟨schema, views, -, -, hviews, -⟩ := buildModel_eq_ok.mp h
    exact not_transGen_of_buildViews_eq_ok hviews key hkey

/-- Each mention of a view is read as a name of a common table expression by the walk just when it
is bound to one in scope. -/
def Definitions.ReadsScopesRightly (defs : Definitions) : Prop :=
  ∀ view ∈ defs.views, ∀ mention ∈ mentions view.query,
    defs.IsView (defs.keyOf mention.object) → mention.isHidden = mention.isBound

theorem cyclic_hidden_iff_uses {defs : Definitions} (h : defs.ReadsScopesRightly) :
    Cyclic (defs.Names Mention.isHidden) ↔ Cyclic defs.Uses := by
  constructor
  · exact cyclic_names_of_agree h
  · exact cyclic_names_of_agree fun view hview mention hmention hnamed =>
      (h view hview mention hmention hnamed).symm

/-- A load that does not fail for anything but a cycle reports the cycles of the views that use each
other exactly if there is one just when the mentions that the walk finds have one, and so if the
walk reads the scopes rightly. -/
theorem reportsExactly_uses_iff {options : LoadOptions} {statements : List Statement}
    (h : ReportsCycle options statements ∨ Loads options statements) :
    let defs := Definitions.ofStatements options.defaultSchema statements
    (ReportsExactly options statements defs.Uses ↔
      (Cyclic (defs.Names Mention.isHidden) ↔ Cyclic defs.Uses)) ∧
    (defs.ReadsScopesRightly → ReportsExactly options statements defs.Uses) := by
  intro defs
  obtain ⟨hreports, hloads⟩ := reportsExactly_hidden options statements
  have hexact : ReportsExactly options statements defs.Uses ↔
      (Cyclic (defs.Names Mention.isHidden) ↔ Cyclic defs.Uses) := by
    constructor
    · rintro ⟨hreportsUses, hloadsUses⟩
      rcases h with hcycle | hloaded
      · exact iff_of_true (hreports hcycle) (hreportsUses hcycle)
      · exact iff_of_false (hloads hloaded) (hloadsUses hloaded)
    · intro hsame
      exact ⟨fun hcycle => hsame.mp (hreports hcycle),
        fun hloaded hcycle => hloads hloaded (hsame.mpr hcycle)⟩
  exact ⟨hexact, fun hrightly => hexact.mpr (cyclic_hidden_iff_uses hrightly)⟩

/-! ## Fixed statements -/

/-- Whether the view of a key uses the object of another. -/
def Definitions.doesUse (defs : Definitions) (key other : String) : Bool :=
  (findDefinition? defs defs.views key).any fun view =>
    (mentions view.query).any fun mention =>
      !mention.isBound && defs.keyOf mention.object == other

theorem uses_of_doesUse {defs : Definitions} {key other : String}
    (h : defs.doesUse key other = true) : defs.Uses key other := by
  obtain ⟨view, hfound, h⟩ := (Option.any_eq_true _ _).mp h
  obtain ⟨mention, hmention, h⟩ := List.any_eq_true.mp h
  obtain ⟨hbound, hkey⟩ := Bool.and_eq_true_iff.mp h
  exact ⟨view, hfound, mention, hmention, by simpa using hbound, eq_of_beq hkey⟩

/-- Whether no view uses a view. -/
def Definitions.usesNoView (defs : Definitions) : Bool :=
  defs.views.all fun view => (mentions view.query).all fun mention =>
    mention.isBound || !defs.viewKeys.contains (defs.keyOf mention.object)

theorem not_cyclic_of_usesNoView {defs : Definitions} (h : defs.usesNoView = true) :
    ¬ Cyclic defs.Uses := by
  rintro ⟨key, hcycle⟩
  obtain ⟨_, ⟨view, hfound, -⟩, -⟩ := Relation.TransGen.head'_iff.mp hcycle
  have hkey : key ∈ defs.viewKeys :=
    Definitions.mem_viewKeys.mpr ⟨view, mem_of_findDefinition? hfound⟩
  obtain ⟨last, -, view', hfound', mention, hmention, hbound, rfl⟩ :=
    Relation.TransGen.tail'_iff.mp hcycle
  have hnone := List.all_eq_true.mp (List.all_eq_true.mp h view' (mem_of_findDefinition? hfound').1)
    mention hmention
  rw [hbound, Bool.false_or] at hnone
  simp [hkey] at hnone

/-- Whether a load fails for a cycle of views. -/
def isCycleReport : Except LoadError LoadedModel → Bool
  | .error (.viewCycle _) => true
  | _ => false

theorem reportsCycle_of_isCycleReport {options : LoadOptions} {statements : List Statement}
    (h : isCycleReport (buildModel options statements) = true) : ReportsCycle options statements := by
  unfold isCycleReport at h
  split at h
  · rename_i path houtcome
    exact ⟨path, houtcome⟩
  · cases h

/-- Two views that use each other are reported. -/
theorem reportsExactly_uses_of_two_views :
    ∃ statements, statementsOf? ["create view v as with c as (select 1 as x) select c.x from c, w",
        "create view w as select x from v"] = some statements ∧
      ReportsCycle {} statements ∧
      let defs := Definitions.ofStatements ({} : LoadOptions).defaultSchema statements
      (ReportsExactly {} statements defs.Uses ↔
        (Cyclic (defs.Names Mention.isHidden) ↔ Cyclic defs.Uses)) ∧
      (defs.ReadsScopesRightly → ReportsExactly {} statements defs.Uses) := by
  have htest : (statementsOf? ["create view v as with c as (select 1 as x) select c.x from c, w",
      "create view w as select x from v"]).any (fun statements =>
        isCycleReport (buildModel {} statements)) = true := by decide +kernel
  obtain ⟨statements, hstatements, hreport⟩ := (Option.any_eq_true _ _).mp htest
  have hcycle := reportsCycle_of_isCycleReport hreport
  exact ⟨statements, hstatements, hcycle, reportsExactly_uses_iff (Or.inl hcycle)⟩

/-- A view whose common table expression has the name of the view and is recursive is reported as a
cycle, and a cycle is not seen where an expression out of scope has the name of a view. -/
theorem not_reportsExactly_uses :
    (∃ statements, statementsOf?
        ["create view v as with v as (select 1 as x union all select x from v) select x from v"] =
          some statements ∧
      ReportsCycle {} statements ∧ ¬ Cyclic (Definitions.ofStatements "dbo" statements).Uses) ∧
    ∃ statements, statementsOf?
        ["create view v as select d.x from (with w as (select 1 as x) select x from w) d, w",
          "create view w as select x from v"] = some statements ∧
      Loads {} statements ∧ Cyclic (Definitions.ofStatements "dbo" statements).Uses := by
  constructor
  · have htest : (statementsOf?
        ["create view v as with v as (select 1 as x union all select x from v) select x from v"]).any
        (fun statements => isCycleReport (buildModel {} statements) &&
          (Definitions.ofStatements "dbo" statements).usesNoView) = true := by decide +kernel
    obtain ⟨statements, hstatements, htest⟩ := (Option.any_eq_true _ _).mp htest
    obtain ⟨hreport, hnone⟩ := Bool.and_eq_true_iff.mp htest
    exact ⟨statements, hstatements, reportsCycle_of_isCycleReport hreport,
      not_cyclic_of_usesNoView hnone⟩
  · obtain ⟨statements, loaded, hstatements, hloaded, htest⟩ := exists_loaded_of_any
      ["create view v as select d.x from (with w as (select 1 as x) select x from w) d, w",
        "create view w as select x from v"]
      (fun statements _ => (Definitions.ofStatements "dbo" statements).doesUse "dbo.v" "dbo.w" &&
        (Definitions.ofStatements "dbo" statements).doesUse "dbo.w" "dbo.v")
      (by decide +kernel)
    obtain ⟨hfirst, hsecond⟩ := Bool.and_eq_true_iff.mp htest
    exact ⟨statements, hstatements, ⟨loaded, hloaded⟩, "dbo.v",
      .head (uses_of_doesUse hfirst) (.single (uses_of_doesUse hsecond))⟩

end SchemaPlan
