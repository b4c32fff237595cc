import SchemaPlan.Proofs.Procedure.Loaded

/-!
# The aliases of a result set

The aliases of the sources of a select are a map: a list of pairs in strictly ascending order of
their keys. Every entry that a source adds keeps it so, thus each result set of a loaded model has
each of its aliases once.
-/

namespace SchemaPlan

open SchemaPlan.Query

/-! ## Maps -/

namespace SortedMap

/-- Each key is less than all keys after it. -/
def IsSorted (map : SortedMap) : Prop := map.Pairwise fun a b => a.1 < b.1

theorem IsSorted.nodup {map : SortedMap} (h : map.IsSorted) : (map.map (·.1)).Nodup :=
  List.pairwise_map.mpr <| h.imp fun {a b} hless heq => by
    rw [heq] at hless
    exact String.lt_irrefl _ hless

theorem mem_insert {key value : String} {map : SortedMap} {entry : String × String}
    (h : entry ∈ map.insert key value) : entry = (key, value) ∨ entry ∈ map := by
  induction map with
  | nil => exact .inl (List.mem_singleton.mp h)
  | cons first rest ih =>
    unfold SortedMap.insert at h
    split at h
    · exact (List.mem_cons.mp h).imp_right (List.mem_cons_of_mem _)
    · split at h
      · exact List.mem_cons.mp h
      · rcases List.mem_cons.mp h with rfl | h
        · exact .inr List.mem_cons_self
        · exact (ih h).imp_right (List.mem_cons_of_mem _)

theorem IsSorted.insert {map : SortedMap} (h : map.IsSorted) (key value : String) :
    (map.insert key value).IsSorted := by
  induction map with
  | nil => exact List.pairwise_singleton _ _
  | cons first rest ih =>
    obtain ⟨hfirst, hrest⟩ := List.pairwise_cons.mp h
    unfold SortedMap.insert
    split
    · rename_i heq
      exact List.pairwise_cons.mpr ⟨fun entry hentry => heq ▸ hfirst entry hentry, hrest⟩
    · rename_i hne
      split
      · -- The key is less than the first key, and so less than all.
        rename_i hless
        refine List.pairwise_cons.mpr ⟨fun entry hentry => ?_, h⟩
        rcases List.mem_cons.mp hentry with rfl | hentry
        · exact hless
        · exact String.lt_trans hless (hfirst entry hentry)
      · rename_i hnot
        have hafter : first.1 < key :=
          ((Std.lt_trichotomy key first.1).resolve_left hnot).resolve_left hne
        refine List.pairwise_cons.mpr ⟨fun entry hentry => ?_, ih hrest⟩
        rcases mem_insert hentry with rfl | hentry
        · exact hafter
        · exact hfirst entry hentry

end SortedMap

/-! ## Sources -/

namespace SourceNames

theorem isSorted_add {names added : SourceNames} {leaf : Leaf} {index : Nat}
    (h : names.add leaf index = .ok added) (hsorted : names.aliases.IsSorted) :
    added.aliases.IsSorted := by
  unfold add at h
  split at h
  · obtain rfl := Except.ok.inj h
    exact hsorted
  · split at h
    · cases h
    · dsimp only at h
      split at h <;> obtain rfl := Except.ok.inj h
      · exact hsorted.insert _ _
      · exact hsorted

theorem isSorted_addAll {names added : SourceNames} {leaves : List Leaf} {index : Nat}
    (h : names.addAll index leaves = .ok added) (hsorted : names.aliases.IsSorted) :
    added.aliases.IsSorted := by
  induction leaves generalizing names index with
  | nil =>
    obtain rfl := Except.ok.inj h
    exact hsorted
  | cons leaf rest ih =>
    obtain ⟨more, hmore, h⟩ := bind_eq_ok.mp h
    exact ih h (isSorted_add hmore hsorted)

end SourceNames

/-! ## Queries -/

/-- The aliases of a body are those of its leading select. -/
theorem isSorted_aliases_of_body {r : Resolver} : ∀ (body : Body) {ctes : List CteShape}
    {resolved : ResolvedQuery}, r.body ctes body = .ok resolved → resolved.aliases.IsSorted
  | .select select, ctes, resolved, h => by
    obtain ⟨parts, rfl⟩ := Resolver.selectParts_of_body h
    exact SourceNames.isSorted_addAll parts.ofTree List.Pairwise.nil
  | .nested ⟨recursive, own, body, tail⟩, ctes, resolved, h => by
    rw [Resolver.body_nested] at h
    obtain ⟨inner, -, hbody⟩ := Resolver.query_eq_ok.mp h
    exact isSorted_aliases_of_body body hbody
  | .operation left operator right, ctes, resolved, h => by
    obtain ⟨first, hfirst, rfl⟩ := Resolver.body_operation_eq_ok.mp h
    have hsorted := isSorted_aliases_of_body left hfirst
    exact hsorted
  | .values explicitRow rows, ctes, resolved, h => by
    rw [Resolver.body_values] at h
    obtain rfl := Except.ok.inj h
    exact List.Pairwise.nil
  | .other pieces, ctes, resolved, h => absurd h Resolver.body_other_ne_ok

/-! ## Models -/

/-- The aliases of all result sets are maps. -/
def SchemaModel.HasSortedAliases (model : SchemaModel) : Prop :=
  ∀ procedure ∈ model.procedures, ∀ result ∈ procedure.results, result.aliases.IsSorted

theorem hasSortedAliases_of_buildModel {options : LoadOptions} {statements : List Statement}
    {loaded : LoadedModel} (h : buildModel options statements = .ok loaded) :
    loaded.model.HasSortedAliases := by
  obtain ⟨schema, views, -, -, -, rfl⟩ := buildModel_eq_ok.mp h
  intro procedure hprocedure result hresult
  obtain ⟨definition, -, hbuild⟩ := mem_procedures_withProcedures.mp hprocedure
  obtain ⟨query, resolved, hquery, rfl⟩ := (answers_of_buildProcedure hbuild).2 result hresult
  obtain ⟨inner, -, hbody⟩ := Resolver.query_eq_ok.mp hquery
  exact isSorted_aliases_of_body query.body hbody

end SchemaPlan
