import SchemaPlan.Schema.Tables

/-!
# Views of a model

A view is resolved after the views that it names, so views are visited depth first. A view that
comes up again while the views it needs are being resolved is part of a cycle.
-/

namespace SchemaPlan

open SchemaPlan.Sql SchemaPlan.Query

/-! ## What a query names -/

/-- The objects that have been named, and the names that stand for a common table expression. -/
structure NamedObjects where
  /-- Names of common table expressions in lower case. -/
  bound : List String := []
  found : List QualifiedName := []
deriving Repr, DecidableEq, Inhabited

/-- The objects with another one, unless its name stands for a common table expression. -/
def NamedObjects.add (objects : NamedObjects) (object : QualifiedName) : NamedObjects :=
  if object.schema.isNone && objects.bound.contains (Text.lower object.name) then objects
  else { objects with found := objects.found ++ [object] }

mutual

/-- The objects with those that a query names. -/
def NamedObjects.query (objects : NamedObjects) : Query → NamedObjects
  | ⟨_, ctes, body, _⟩ => (objects.ctes ctes).body body

/-- The objects with those that common table expressions name. -/
def NamedObjects.ctes (objects : NamedObjects) : List Cte → NamedObjects
  | [] => objects
  | ⟨label, query, _⟩ :: rest =>
    -- The name is bound behind its own query: a query that names itself names an object there.
    let objects := objects.query query
    NamedObjects.ctes { objects with bound := Text.lower label.name.value :: objects.bound } rest

/-- The objects with those that a body names. -/
def NamedObjects.body (objects : NamedObjects) : Body → NamedObjects
  | .select ⟨_, _, _, _, sources, _, _, _⟩ => objects.sources sources
  | .nested query => objects.query query
  | .operation left _ right => (objects.body left).body right
  | .values _ _ => objects
  | .other _ => objects

/-- The objects with those that sources name. -/
def NamedObjects.sources (objects : NamedObjects) : List JoinedSource → NamedObjects
  | [] => objects
  | ⟨relation, joins⟩ :: rest => ((objects.factor relation).joins joins).sources rest

/-- The objects with those that joins name. -/
def NamedObjects.joins (objects : NamedObjects) : List Join → NamedObjects
  | [] => objects
  | ⟨_, _, relation, _⟩ :: rest => (objects.factor relation).joins rest

/-- The objects with those that a factor names. -/
def NamedObjects.factor (objects : NamedObjects) : Factor → NamedObjects
  | .table name none _ _ _ =>
    match QualifiedName.ofParts? (nameValues name) with
    | some object => objects.add object
    | none => objects
  -- A call names a function, and no object that can be resolved.
  | .table _ (some _) _ _ _ => objects
  | .derived _ query _ => objects.query query
  | .joined ⟨relation, joins⟩ _ => (objects.factor relation).joins joins
  | .special _ _ => objects

end

/-- The objects that a query names as sources, apart from its common table expressions. -/
def namedObjects (query : Query) : List QualifiedName :=
  (NamedObjects.query {} query).found

/-! ## Views in order -/

/-- A view that has been resolved, under its key. -/
structure ResolvedView where
  key : String
  view : Relation
deriving Repr, DecidableEq, Inhabited

/-- The view of a key. -/
def findView? (resolved : List ResolvedView) (key : String) : Option Relation :=
  (resolved.find? (·.key == key)).map (·.view)

/-- What a view can name: the tables of the model, and views that have been resolved. -/
def viewCatalog (model : SchemaModel) (resolved : List ResolvedView) : ObjectCatalog :=
  { defaultSchema := model.defaultSchema
    columns? := fun schema name =>
      (model.objectColumns? schema name).or
        ((findView? resolved (Definitions.objectKey schema name)).map (·.columns)) }

/-- Columns under the names that a view gives to them, as far as there are any. -/
def renameColumns : List String → List ResultColumn → List ResultColumn
  | name :: names, column :: columns => { column with name } :: renameColumns names columns
  | _, columns => columns

/-- A view of the model. -/
def buildView (defs : Definitions) (catalog : ObjectCatalog) (definition : ViewDefinition) :
    Except LoadError Relation :=
  let resolver : Resolver := ⟨catalog, []⟩
  match resolver.columns definition.query with
  | .ok columns =>
    let named := renameColumns definition.columns columns
    .ok { schema := defs.schemaOf definition.name, name := definition.name.name
          columns := named.map fun column =>
            { name := column.name, type := column.type, isNullable := column.isNullable } }
  | .error cause => .error (.unresolvedView (defs.fullNameOf definition.name) cause)

/-- The keys of the objects that a view names. -/
def dependencyKeys (defs : Definitions) (definition : ViewDefinition) : List String :=
  (namedObjects definition.query).map defs.keyOf

/-- The definition of a key. -/
def findDefinition? (defs : Definitions) (views : List ViewDefinition) (key : String) :
    Option ViewDefinition :=
  views.find? fun view => defs.keyOf view.name == key

/-- The definitions without that of a key. -/
def withoutKey (defs : Definitions) (views : List ViewDefinition) (key : String) :
    List ViewDefinition :=
  views.filter fun view => !(defs.keyOf view.name == key)

/-- The work that views are: each view counts once, and once for every object that it names. -/
def viewWork (defs : Definitions) : List ViewDefinition → Nat
  | [] => 0
  | view :: rest => (dependencyKeys defs view).length + 1 + viewWork defs rest

theorem viewWork_withoutKey_le (defs : Definitions) (views : List ViewDefinition) (key : String) :
    viewWork defs (withoutKey defs views key) ≤ viewWork defs views := by
  induction views with
  | nil => exact Nat.le_refl _
  | cons view rest ih =>
    unfold withoutKey at ih ⊢
    rw [List.filter_cons]
    split <;> simp only [viewWork] <;> omega

/-- Less work is left once a view is taken out, even with the objects that it names on top. -/
theorem viewWork_withoutKey_lt {defs : Definitions} {views : List ViewDefinition} {key : String}
    {view : ViewDefinition} (h : findDefinition? defs views key = some view) :
    viewWork defs (withoutKey defs views key) + (dependencyKeys defs view).length <
      viewWork defs views := by
  induction views with
  | nil => cases h
  | cons first rest ih =>
    have hrest := viewWork_withoutKey_le defs rest key
    unfold findDefinition? withoutKey at *
    rw [List.find?_cons] at h
    rw [List.filter_cons]
    cases hkey : defs.keyOf first.name == key with
    | true =>
      rw [hkey] at h
      obtain rfl := Option.some.inj h
      simp only [Bool.not_true, Bool.false_eq_true, if_false, viewWork]
      omega
    | false =>
      rw [hkey] at h
      simp only [Bool.not_false, if_true, viewWork]
      have hless := ih h
      omega

/-- The resolved views with those of the keys and of all they name. `opened` are the keys of the
views that are being resolved, the outermost first, and `waiting` are all other views. -/
def resolveViews (defs : Definitions) (model : SchemaModel) (waiting : List ViewDefinition)
    (opened : List String) (resolved : List ResolvedView) :
    List String → Except LoadError (List ResolvedView)
  | [] => .ok resolved
  | key :: rest =>
    if (findView? resolved key).isSome then resolveViews defs model waiting opened resolved rest
    else if opened.contains key then
      -- What led to the cycle is no part of it.
      .error (.viewCycle (opened.dropWhile (· != key) ++ [key]))
    else
      match _h : findDefinition? defs waiting key with
      -- The key of a table, or of nothing in the model.
      | none => resolveViews defs model waiting opened resolved rest
      | some definition => do
        let resolved ← resolveViews defs model (withoutKey defs waiting key) (opened ++ [key])
          resolved (dependencyKeys defs definition)
        let view ← buildView defs (viewCatalog model resolved) definition
        resolveViews defs model waiting opened (⟨key, view⟩ :: resolved) rest
termination_by keys => viewWork defs waiting + keys.length
decreasing_by
  · simp
  · simp
  · have hless := viewWork_withoutKey_lt _h
    simp only [List.length_cons]
    omega
  · simp

/-- The views of the model in the order of their definitions. -/
def buildViews (defs : Definitions) (model : SchemaModel) : Except LoadError (List Relation) := do
  let keys := defs.views.map fun view => defs.keyOf view.name
  let resolved ← resolveViews defs model defs.views [] [] keys
  return keys.filterMap (findView? resolved)

end SchemaPlan
