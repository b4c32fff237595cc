import SchemaPlan.Proofs.Schema.Loading
import SchemaPlan.Proofs.Text.Case

/-!
# Names and keys of objects

An object is looked up in two ways: by its key, which is its name in full lower case, and in the
finished model by its schema and name without regard to ASCII case. Names that agree in the second
sense have one key. A model loads only if no two tables, views or procedures share a key.
-/

namespace SchemaPlan

open SchemaPlan.Sql

/-! ## Keys -/

/-- Objects of one schema and name, without regard to ASCII case, have one key. -/
theorem objectKey_eq_of_sameObject {schema name otherSchema otherName : String}
    (h : sameObject schema name otherSchema otherName = true) :
    Definitions.objectKey schema name = Definitions.objectKey otherSchema otherName := by
  obtain ⟨hschema, hname⟩ := Bool.and_eq_true_iff.mp h
  rw [Text.sameText_iff] at hschema hname
  unfold Definitions.objectKey
  rw [← Text.lower_asciiLower, ← Text.lower_asciiLower (otherSchema ++ "." ++ otherName)]
  simp only [Text.asciiLower_append, hschema, hname]

namespace Definitions

variable {defs : Definitions}

/-- Names pass if their keys are distinct and new. -/
theorem requireDistinct_eq_ok {seen : List String} {names : List QualifiedName} :
    defs.requireDistinct seen names = .ok () ↔
      (names.map defs.keyOf).Nodup ∧ ∀ name ∈ names, defs.keyOf name ∉ seen := by
  induction names generalizing seen with
  | nil => simp [requireDistinct]
  | cons name rest ih =>
    unfold requireDistinct
    by_cases hseen : defs.keyOf name ∈ seen
    · simp [hseen]
    · simp only [List.contains_eq_mem, hseen, decide_false, Bool.false_eq_true, if_false]
      rw [ih]
      simp only [List.map_cons, List.nodup_cons, List.mem_map, List.mem_cons, not_or,
        forall_eq_or_imp]
      constructor
      · rintro ⟨hnodup, hnew⟩
        refine ⟨⟨?_, hnodup⟩, hseen, fun other hother => (hnew other hother).2⟩
        rintro ⟨other, hother, hkey⟩
        exact (hnew other hother).1 hkey
      · rintro ⟨⟨hfirst, hnodup⟩, -, hnew⟩
        exact ⟨hnodup, fun other hother => ⟨fun hkey => hfirst ⟨other, hother, hkey⟩,
          hnew other hother⟩⟩

/-- Names are accepted if no two tables, views or procedures share a key, and no two types. -/
theorem checkNames_eq_ok :
    defs.checkNames = .ok () ↔
      ((defs.tables.map (·.name) ++ defs.views.map (·.name) ++
        defs.procedures.map (·.name)).map defs.keyOf).Nodup ∧
      ((defs.tableTypes.map (·.name) ++ defs.scalarTypes.map (·.name)).map defs.keyOf).Nodup := by
  have hdistinct (names : List QualifiedName) :
      defs.requireDistinct [] names = .ok () ↔ (names.map defs.keyOf).Nodup := by
    simp [requireDistinct_eq_ok]
  unfold checkNames
  rw [bind_eq_ok, ← hdistinct, ← hdistinct]
  constructor
  · rintro ⟨_, hobjects, htypes⟩
    exact ⟨hobjects, htypes⟩
  · rintro ⟨hobjects, htypes⟩
    exact ⟨(), hobjects, htypes⟩

theorem nodup_viewKeys (h : defs.checkNames = .ok ()) :
    (defs.views.map fun view => defs.keyOf view.name).Nodup := by
  have hnodup := (checkNames_eq_ok.mp h).1
  rw [List.map_append, List.map_append] at hnodup
  simpa [Function.comp_def] using (List.nodup_append.mp (List.nodup_append.mp hnodup).1).2.1

end Definitions

end SchemaPlan
