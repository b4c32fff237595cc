import SchemaPlan.Proofs.View.Mentions
import SchemaPlan.Schema.Load

/-!
# What the resolution of a query reads

The resolver asks the schema about the mentions that stand in no second arm of a set operation and
whose names are not those of a variable, a temporary table or a common table expression in scope.
Two catalogs that agree on these mentions give a query one outcome.
-/

namespace SchemaPlan

open SchemaPlan.Sql SchemaPlan.Query

/-- The resolver looks a mention up in the schema. -/
def Mention.isRead (mention : Mention) : Bool :=
  mention.site.isShaping && !Text.startsWith "@" mention.object.name &&
    !Text.startsWith "#" mention.object.name &&
    !(mention.object.schema.isNone && mention.object.database.isNone &&
      mention.site.visible.any (Text.sameText · mention.object.name))

/-- Two catalogs have the same columns for an object. -/
def ObjectCatalog.AgreesOn (a b : ObjectCatalog) (object : QualifiedName) : Prop :=
  a.columns? (object.schema.getD a.defaultSchema) object.name =
    b.columns? (object.schema.getD b.defaultSchema) object.name

/-- Two catalogs agree on every mention that is read. -/
def ObjectCatalog.AgreesOnRead (a b : ObjectCatalog) (found : List Mention) : Prop :=
  ∀ mention ∈ found, mention.isRead = true → a.AgreesOn b mention.object

theorem ObjectCatalog.agreesOnRead_append {a b : ObjectCatalog} {found more : List Mention} :
    a.AgreesOnRead b (found ++ more) ↔ a.AgreesOnRead b found ∧ a.AgreesOnRead b more :=
  List.forall_mem_append

/-- Common table expressions are those that are visible at a place the resolver comes to. -/
structure Site.Fits (site : Site) (ctes : List CteShape) : Prop where
  visible : ctes.map (·.name) = site.visible
  isShaping : site.isShaping = true

namespace Resolver

variable {a b : ObjectCatalog} {parameters : List Parameter}

theorem sourceColumns?_congr {site : Site} {ctes : List CteShape} (hfits : site.Fits ctes)
    {object : QualifiedName} (h : a.AgreesOnRead b [⟨object, site⟩]) :
    (⟨a, parameters⟩ : Resolver).sourceColumns? ctes object =
      (⟨b, parameters⟩ : Resolver).sourceColumns? ctes object := by
  have hread := h _ (List.mem_singleton.mpr rfl)
  unfold Mention.isRead at hread
  rw [← hfits.visible, List.any_map, hfits.isShaping] at hread
  unfold sourceColumns?
  dsimp only at hread ⊢
  split
  · rfl
  rename_i hvariable
  split
  · rfl
  rename_i htemporary
  split
  · rfl
  rename_i hcte
  -- Neither a variable nor a temporary table nor a common table expression: the mention is read.
  have hunbound : (object.schema.isNone && object.database.isNone &&
      ctes.any fun cte => Text.sameText cte.name object.name) = false := by
    split at hcte
    · rename_i hbare
      rw [hbare, Bool.true_and]
      simpa using hcte
    · rename_i hbare
      rw [Bool.eq_false_iff.mpr hbare, Bool.false_and]
  have hagree : a.AgreesOn b object := by
    refine hread ?_
    simp only [Bool.and_eq_true, Bool.not_eq_true', Bool.true_and]
    exact ⟨⟨Bool.eq_false_iff.mpr hvariable, Bool.eq_false_iff.mpr htemporary⟩, hunbound⟩
  unfold ObjectCatalog.AgreesOn at hagree
  rw [hagree]

mutual

/-- Catalogs that agree on the mentions that are read resolve a query alike. -/
theorem query_congr : ∀ (inner : Query) {site : Site} {ctes : List CteShape}, site.Fits ctes →
    a.AgreesOnRead b (Mentions.query site inner) →
    (⟨a, parameters⟩ : Resolver).query ctes inner = (⟨b, parameters⟩ : Resolver).query ctes inner
  | ⟨recursive, own, inner, tail⟩, site, ctes, hfits, h => by
    rw [Mentions.query, ObjectCatalog.agreesOnRead_append] at h
    obtain ⟨hctes, hnext⟩ := withCtes_congr own hfits h.1
    rw [Resolver.query, Resolver.query, ← hctes]
    cases hextended : (⟨a, parameters⟩ : Resolver).withCtes ctes own with
    | error cause => rfl
    | ok extended => exact body_congr inner (hnext hextended) h.2

theorem withCtes_congr : ∀ (own : List Cte) {site : Site} {ctes : List CteShape}, site.Fits ctes →
    a.AgreesOnRead b (Mentions.ctes site own) →
    (⟨a, parameters⟩ : Resolver).withCtes ctes own =
        (⟨b, parameters⟩ : Resolver).withCtes ctes own ∧
      ∀ {extended}, (⟨a, parameters⟩ : Resolver).withCtes ctes own = .ok extended →
        (own.foldl Site.declare site).Fits extended
  | [], site, ctes, hfits, h => by
    rw [withCtes, withCtes]
    refine ⟨rfl, ?_⟩
    intro extended hextended
    obtain rfl := Except.ok.inj hextended
    exact hfits
  | ⟨label, inner, origin⟩ :: rest, site, ctes, hfits, h => by
    rw [Mentions.ctes, ObjectCatalog.agreesOnRead_append] at h
    have hinside : (site.inside ⟨label, inner, origin⟩).Fits ctes := ⟨hfits.1, hfits.2⟩
    have hquery := query_congr inner hinside h.1
    rw [withCtes, withCtes, ← hquery]
    cases hresolved : (⟨a, parameters⟩ : Resolver).query ctes inner with
    | error cause =>
      refine ⟨rfl, ?_⟩
      intro extended hextended
      cases hextended
    | ok resolved =>
      -- Each later common table expression sees this one, in the program as in the site.
      have hdeclared (columns : List SourceColumn) :
          (site.declare ⟨label, inner, origin⟩).Fits (⟨label.name.value, columns⟩ :: ctes) :=
        ⟨congrArg (label.name.value :: ·) hfits.1, hfits.2⟩
      exact withCtes_congr rest (hdeclared _) h.2

theorem body_congr : ∀ (inner : Body) {site : Site} {ctes : List CteShape}, site.Fits ctes →
    a.AgreesOnRead b (Mentions.body site inner) →
    (⟨a, parameters⟩ : Resolver).body ctes inner = (⟨b, parameters⟩ : Resolver).body ctes inner
  | .select ⟨quantifier, top, projection, into, from', filter, grouping, tail⟩, site, ctes, hfits,
      h => by
    rw [Mentions.body] at h
    simp only [Resolver.body, sources_congr from' hfits h]
  | .nested inner, site, ctes, hfits, h => by
    rw [Mentions.body] at h
    simp only [Resolver.body, query_congr inner hfits h]
  | .operation left operator right, site, ctes, hfits, h => by
    rw [Mentions.body, ObjectCatalog.agreesOnRead_append] at h
    simp only [Resolver.body, body_congr left hfits h.1]
  | .values explicitRow rows, site, ctes, hfits, h => by
    simp only [Resolver.body]
  | .other pieces, site, ctes, hfits, h => by
    simp only [Resolver.body]

theorem sources_congr : ∀ (from' : List JoinedSource) {site : Site} {ctes : List CteShape}
    {forced : List String}, site.Fits ctes → a.AgreesOnRead b (Mentions.sources site from') →
    (⟨a, parameters⟩ : Resolver).sources ctes forced from' =
      (⟨b, parameters⟩ : Resolver).sources ctes forced from'
  | [], site, ctes, forced, hfits, h => by
    simp only [Resolver.sources]
  | ⟨relation, joined⟩ :: rest, site, ctes, forced, hfits, h => by
    rw [Mentions.sources, ObjectCatalog.agreesOnRead_append,
      ObjectCatalog.agreesOnRead_append] at h
    obtain ⟨⟨hfactor, hjoins⟩, hrest⟩ := h
    have hbehind (names : List String) : (site.behind names).Fits ctes := ⟨hfits.1, hfits.2⟩
    have hlast (names more : List String) : ((site.behind names).behind more).Fits ctes :=
      ⟨hfits.1, hfits.2⟩
    simp only [Resolver.sources, factor_congr relation hfits hfactor,
      joined_congr joined (hbehind _) hjoins, sources_congr rest (hlast _ _) hrest]

theorem joined_congr : ∀ (joins : List Join) {site : Site} {ctes : List CteShape}
    {forced : List String}, site.Fits ctes → a.AgreesOnRead b (Mentions.joins site joins) →
    (⟨a, parameters⟩ : Resolver).joined ctes forced joins =
      (⟨b, parameters⟩ : Resolver).joined ctes forced joins
  | [], site, ctes, forced, hfits, h => by
    simp only [Resolver.joined]
  | ⟨isGlobal, operator, relation, condition⟩ :: rest, site, ctes, forced, hfits, h => by
    rw [Mentions.joins, ObjectCatalog.agreesOnRead_append] at h
    have hbehind (names : List String) : (site.behind names).Fits ctes := ⟨hfits.1, hfits.2⟩
    simp only [Resolver.joined, factor_congr relation hfits h.1,
      joined_congr rest (hbehind _) h.2]

theorem factor_congr : ∀ (relation : Factor) {site : Site} {ctes : List CteShape}
    {forced : List String}, site.Fits ctes → a.AgreesOnRead b (Mentions.factor site relation) →
    (⟨a, parameters⟩ : Resolver).factor ctes forced relation =
      (⟨b, parameters⟩ : Resolver).factor ctes forced relation
  | .table name none marker label tail, site, ctes, forced, hfits, h => by
    simp only [Resolver.factor, namedLeaf, Option.isSome_none, Bool.false_eq_true, if_false]
    rw [Mentions.factor] at h
    cases hobject : QualifiedName.ofParts? (nameValues name) with
    | none => rfl
    | some object =>
      rw [hobject] at h
      have hcolumns : (⟨a, parameters⟩ : Resolver).sourceColumns? ctes object =
          (⟨b, parameters⟩ : Resolver).sourceColumns? ctes object := sourceColumns?_congr hfits h
      simp only [hcolumns, bind, Except.bind]
  | .table name (some arguments) marker label tail, site, ctes, forced, hfits, h => by
    simp only [Resolver.factor, namedLeaf, Option.isSome_some, if_true]
    rfl
  | .derived lateral inner label, site, ctes, forced, hfits, h => by
    rw [Mentions.factor] at h
    simp only [Resolver.factor, query_congr inner hfits h]
  | .joined ⟨relation, joined⟩ label, site, ctes, forced, hfits, h => by
    rw [Mentions.factor, ObjectCatalog.agreesOnRead_append] at h
    have hbehind (names : List String) : (site.behind names).Fits ctes := ⟨hfits.1, hfits.2⟩
    simp only [Resolver.factor, factor_congr relation hfits h.1,
      joined_congr joined (hbehind _) h.2]
  | .special pieces label, site, ctes, forced, hfits, h => by
    simp only [Resolver.factor]

end

/-- Catalogs that agree on the mentions that are read give a query the same columns. -/
theorem columns_congr {query : Query} (h : a.AgreesOnRead b (mentions query)) :
    (⟨a, parameters⟩ : Resolver).columns query = (⟨b, parameters⟩ : Resolver).columns query := by
  have hfits : Site.top.Fits [] := ⟨rfl, rfl⟩
  unfold columns
  rw [query_congr query hfits h]

end Resolver

end SchemaPlan
