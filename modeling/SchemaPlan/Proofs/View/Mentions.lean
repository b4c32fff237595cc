import SchemaPlan.Schema.Views

/-!
# Mentions of objects in a query

A query mentions an object wherever one of its sources is a name: in an arm of a set operation, in
a common table expression, in a query in parentheses or in joins. What the name stands for depends
on the common table expressions around it. `mentions` gives every mention together with these, and
the walk that collects the objects a view depends on is read off it: it finds every mention but
those whose name is that of an expression declared before, in scope or not.
-/

namespace SchemaPlan

open SchemaPlan.Sql SchemaPlan.Query

/-! ## Declared names -/

namespace DeclaredNames

mutual

/-- The names of the common table expressions in a query, at any depth, the last one first. -/
def query : Query → List String
  | ⟨_, own, inner, _⟩ => body inner ++ ctes own

/-- The names of common table expressions and of those in their queries. -/
def ctes : List Cte → List String
  | [] => []
  | ⟨label, inner, _⟩ :: rest => ctes rest ++ label.name.value :: query inner

/-- The names of the common table expressions in a body. -/
def body : Body → List String
  | .select ⟨_, _, _, _, from', _, _, _⟩ => sources from'
  | .nested inner => query inner
  | .operation left _ right => body right ++ body left
  | .values _ _ => []
  | .other _ => []

/-- The names of the common table expressions in sources. -/
def sources : List JoinedSource → List String
  | [] => []
  | ⟨relation, joined⟩ :: rest => sources rest ++ joins joined ++ factor relation

/-- The names of the common table expressions in joins. -/
def joins : List Join → List String
  | [] => []
  | ⟨_, _, relation, _⟩ :: rest => joins rest ++ factor relation

/-- The names of the common table expressions in a factor. -/
def factor : Factor → List String
  | .derived _ inner _ => query inner
  | .joined ⟨relation, joined⟩ _ => joins joined ++ factor relation
  | .table _ _ _ _ _ => []
  | .special _ _ => []

end

end DeclaredNames

/-! ## Mentions -/

/-- The place of a source among the common table expressions of its query, each by its name. -/
structure Site where
  /-- Those in whose own query the source stands, the innermost first. -/
  enclosing : List String
  /-- Those that are declared before the source and in scope there, the last one first. -/
  visible : List String
  /-- All that are declared before the source, the last one first. -/
  declared : List String
  /-- No set operation around the source has it in its second arm. -/
  isShaping : Bool
deriving Repr, DecidableEq, Inhabited

namespace Site

/-- The place of a whole query. -/
def top : Site := ⟨[], [], [], true⟩

/-- A place inside the query of a common table expression. -/
def inside (site : Site) (cte : Cte) : Site :=
  { site with enclosing := cte.label.name.value :: site.enclosing }

/-- A place behind something that declares names which are not in scope any more. -/
def behind (site : Site) (names : List String) : Site :=
  { site with declared := names ++ site.declared }

/-- A place behind a common table expression, where it is in scope. -/
def declare (site : Site) (cte : Cte) : Site :=
  { site with
    visible := cte.label.name.value :: site.visible
    declared := cte.label.name.value :: DeclaredNames.query cte.query ++ site.declared }

/-- A place in the second arm of a set operation. -/
def secondArm (site : Site) : Site := { site with isShaping := false }

end Site

/-- A source that is given by a name. -/
structure Mention where
  object : QualifiedName
  site : Site
deriving Repr, DecidableEq, Inhabited

namespace Mentions

mutual

/-- The mentions in a query. -/
def query (site : Site) : Query → List Mention
  | ⟨_, own, inner, _⟩ => ctes site own ++ body (own.foldl Site.declare site) inner

/-- The mentions in common table expressions. -/
def ctes (site : Site) : List Cte → List Mention
  | [] => []
  | ⟨label, inner, origin⟩ :: rest =>
    let cte : Cte := ⟨label, inner, origin⟩
    query (site.inside cte) inner ++ ctes (site.declare cte) rest

/-- The mentions in a body. -/
def body (site : Site) : Body → List Mention
  | .select ⟨_, _, _, _, from', _, _, _⟩ => sources site from'
  | .nested inner => query site inner
  | .operation left _ right =>
    body site left ++ body (site.behind (DeclaredNames.body left)).secondArm right
  | .values _ _ => []
  | .other _ => []

/-- The mentions in sources. -/
def sources (site : Site) : List JoinedSource → List Mention
  | [] => []
  | ⟨relation, joined⟩ :: rest =>
    let joinsSite := site.behind (DeclaredNames.factor relation)
    factor site relation ++ joins joinsSite joined ++
      sources (joinsSite.behind (DeclaredNames.joins joined)) rest

/-- The mentions in joins. -/
def joins (site : Site) : List Join → List Mention
  | [] => []
  | ⟨_, _, relation, _⟩ :: rest =>
    factor site relation ++ joins (site.behind (DeclaredNames.factor relation)) rest

/-- The mentions in a factor. -/
def factor (site : Site) : Factor → List Mention
  | .table name none _ _ _ =>
    match QualifiedName.ofParts? (nameValues name) with
    | some object => [⟨object, site⟩]
    | none => []
  | .table _ (some _) _ _ _ => []
  | .derived _ inner _ => query site inner
  | .joined ⟨relation, joined⟩ _ =>
    factor site relation ++ joins (site.behind (DeclaredNames.factor relation)) joined
  | .special _ _ => []

end

end Mentions

/-- The mentions in a query that stands alone. -/
def mentions (query : Query) : List Mention := Mentions.query .top query

/-! ## The walk -/

/-- The walk passes over a mention: its name, without a schema, is that of a common table
expression that is declared before it, wherever that is in scope. -/
def Mention.isHidden (mention : Mention) : Bool :=
  mention.object.schema.isNone &&
    (mention.site.declared.map Text.lower).contains (Text.lower mention.object.name)

namespace NamedObjects

/-- The objects after names have been declared and mentions have been passed. -/
def extend (objects : NamedObjects) (names : List String) (passed : List Mention) : NamedObjects :=
  { bound := names.map Text.lower ++ objects.bound
    found := objects.found ++ (passed.filter (!·.isHidden)).map (·.object) }

@[simp] theorem extend_nil (objects : NamedObjects) : objects.extend [] [] = objects := by
  simp [extend]

theorem extend_extend (objects : NamedObjects) (names more : List String)
    (passed later : List Mention) :
    (objects.extend names passed).extend more later =
      objects.extend (more ++ names) (passed ++ later) := by
  simp [extend]

/-- The objects know the names that are declared before a place. -/
def KnowsAt (objects : NamedObjects) (site : Site) : Prop :=
  objects.bound = site.declared.map Text.lower

theorem KnowsAt.extend {objects : NamedObjects} {site : Site} (h : objects.KnowsAt site)
    (names : List String) (passed : List Mention) :
    (objects.extend names passed).KnowsAt (site.behind names) := by
  simp only [KnowsAt] at h ⊢
  simp [NamedObjects.extend, Site.behind, h]

theorem add_eq_extend {objects : NamedObjects} {site : Site} (h : objects.KnowsAt site)
    (object : QualifiedName) : objects.add object = objects.extend [] [⟨object, site⟩] := by
  have hhidden : (object.schema.isNone && objects.bound.contains (Text.lower object.name)) =
      (Mention.mk object site).isHidden := by
    rw [h]
    rfl
  unfold add
  rw [hhidden]
  cases hcase : (Mention.mk object site).isHidden with
  | true => simp [extend, hcase]
  | false => simp [extend, hcase]

mutual

/-- In a query the walk finds the mentions that are not hidden. -/
theorem query_eq_extend : ∀ (inner : Query) {objects : NamedObjects} {site : Site},
    objects.KnowsAt site →
    objects.query inner = objects.extend (DeclaredNames.query inner) (Mentions.query site inner)
  | ⟨recursive, own, inner, tail⟩, objects, site, h => by
    obtain ⟨hctes, hknows⟩ := ctes_eq_extend own h
    rw [NamedObjects.query, DeclaredNames.query, Mentions.query, hctes,
      body_eq_extend inner hknows, extend_extend]

theorem ctes_eq_extend : ∀ (own : List Cte) {objects : NamedObjects} {site : Site},
    objects.KnowsAt site →
    objects.ctes own = objects.extend (DeclaredNames.ctes own) (Mentions.ctes site own) ∧
      (objects.extend (DeclaredNames.ctes own) (Mentions.ctes site own)).KnowsAt
        (own.foldl Site.declare site)
  | [], objects, site, h => by
    simpa [NamedObjects.ctes, DeclaredNames.ctes, Mentions.ctes] using h
  | ⟨label, inner, origin⟩ :: rest, objects, site, h => by
    let cte : Cte := ⟨label, inner, origin⟩
    -- The name is declared behind the query, so the query itself does not know it.
    have hinside : objects.KnowsAt (site.inside cte) := h
    have hquery := query_eq_extend inner hinside
    let after := objects.extend (label.name.value :: DeclaredNames.query inner)
      (Mentions.query (site.inside cte) inner)
    have hafter : after.KnowsAt (site.declare cte) := by
      simp only [KnowsAt] at h ⊢
      simp [after, cte, NamedObjects.extend, Site.declare, h]
    obtain ⟨hrest, hknows⟩ := ctes_eq_extend rest hafter
    have hwhole : after.extend (DeclaredNames.ctes rest)
        (Mentions.ctes (site.declare cte) rest) =
          objects.extend (DeclaredNames.ctes (cte :: rest)) (Mentions.ctes site (cte :: rest)) := by
      rw [extend_extend, DeclaredNames.ctes, Mentions.ctes]
    rw [hwhole] at hrest hknows
    refine ⟨?_, hknows⟩
    rw [NamedObjects.ctes, hquery]
    exact hrest

theorem body_eq_extend : ∀ (inner : Body) {objects : NamedObjects} {site : Site},
    objects.KnowsAt site →
    objects.body inner = objects.extend (DeclaredNames.body inner) (Mentions.body site inner)
  | .select ⟨quantifier, top, projection, into, from', filter, grouping, tail⟩, objects, site,
      h => by
    rw [NamedObjects.body, DeclaredNames.body, Mentions.body, sources_eq_extend from' h]
  | .nested inner, objects, site, h => by
    rw [NamedObjects.body, DeclaredNames.body, Mentions.body, query_eq_extend inner h]
  | .operation left operator right, objects, site, h => by
    have hright : (objects.extend (DeclaredNames.body left) (Mentions.body site left)).KnowsAt
        (site.behind (DeclaredNames.body left)).secondArm := h.extend _ _
    rw [NamedObjects.body, DeclaredNames.body, Mentions.body, body_eq_extend left h,
      body_eq_extend right hright, extend_extend]
  | .values explicitRow rows, objects, site, h => by
    simp [NamedObjects.body, DeclaredNames.body, Mentions.body]
  | .other pieces, objects, site, h => by
    simp [NamedObjects.body, DeclaredNames.body, Mentions.body]

theorem sources_eq_extend : ∀ (from' : List JoinedSource) {objects : NamedObjects} {site : Site},
    objects.KnowsAt site →
    objects.sources from' =
      objects.extend (DeclaredNames.sources from') (Mentions.sources site from')
  | [], objects, site, h => by
    simp [NamedObjects.sources, DeclaredNames.sources, Mentions.sources]
  | ⟨relation, joined⟩ :: rest, objects, site, h => by
    have hjoins := h.extend (DeclaredNames.factor relation) (Mentions.factor site relation)
    have hrest := hjoins.extend (DeclaredNames.joins joined)
      (Mentions.joins (site.behind (DeclaredNames.factor relation)) joined)
    rw [NamedObjects.sources, DeclaredNames.sources, Mentions.sources,
      factor_eq_extend relation h, joins_eq_extend joined hjoins, sources_eq_extend rest hrest,
      extend_extend, extend_extend, List.append_assoc, List.append_assoc]

theorem joins_eq_extend : ∀ (joined : List Join) {objects : NamedObjects} {site : Site},
    objects.KnowsAt site →
    objects.joins joined = objects.extend (DeclaredNames.joins joined) (Mentions.joins site joined)
  | [], objects, site, h => by
    simp [NamedObjects.joins, DeclaredNames.joins, Mentions.joins]
  | ⟨isGlobal, operator, relation, condition⟩ :: rest, objects, site, h => by
    have hrest := h.extend (DeclaredNames.factor relation) (Mentions.factor site relation)
    rw [NamedObjects.joins, DeclaredNames.joins, Mentions.joins, factor_eq_extend relation h,
      joins_eq_extend rest hrest, extend_extend]

theorem factor_eq_extend : ∀ (relation : Factor) {objects : NamedObjects} {site : Site},
    objects.KnowsAt site →
    objects.factor relation =
      objects.extend (DeclaredNames.factor relation) (Mentions.factor site relation)
  | .table name none marker label tail, objects, site, h => by
    rw [NamedObjects.factor, DeclaredNames.factor, Mentions.factor]
    cases QualifiedName.ofParts? (nameValues name) with
    | none => exact (extend_nil objects).symm
    | some object => exact add_eq_extend h object
  | .table name (some arguments) marker label tail, objects, site, h => by
    simp [NamedObjects.factor, DeclaredNames.factor, Mentions.factor]
  | .derived lateral inner label, objects, site, h => by
    rw [NamedObjects.factor, DeclaredNames.factor, Mentions.factor, query_eq_extend inner h]
  | .joined ⟨relation, joined⟩ label, objects, site, h => by
    have hjoins := h.extend (DeclaredNames.factor relation) (Mentions.factor site relation)
    rw [NamedObjects.factor, DeclaredNames.factor, Mentions.factor, factor_eq_extend relation h,
      joins_eq_extend joined hjoins, extend_extend]
  | .special pieces label, objects, site, h => by
    simp [NamedObjects.factor, DeclaredNames.factor, Mentions.factor]

end

end NamedObjects

/-- The objects that a query names are those of its mentions that are not hidden. -/
theorem namedObjects_eq (query : Query) :
    namedObjects query = ((mentions query).filter (!·.isHidden)).map (·.object) := by
  have hknows : NamedObjects.KnowsAt {} .top := rfl
  unfold namedObjects mentions
  rw [NamedObjects.query_eq_extend query hknows]
  rfl

theorem mem_dependencyKeys_iff {defs : Definitions} {definition : ViewDefinition} {key : String} :
    key ∈ dependencyKeys defs definition ↔
      ∃ mention ∈ mentions definition.query, mention.isHidden = false ∧
        defs.keyOf mention.object = key := by
  unfold dependencyKeys
  rw [namedObjects_eq]
  simp only [List.mem_map, List.mem_filter, Bool.not_eq_true', List.map_map, Function.comp_apply,
    and_assoc]

end SchemaPlan
