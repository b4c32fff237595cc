import SchemaPlan.Proofs.Resolve.Origins
import Mathlib.Tactic.Tauto

/-!
# Nullability of result columns

A result column that comes from a column of a leaf should be nullable exactly if that column is, or
if the leaf may be lacking from a row. So it is for every leaf that is exposed under a name. A leaf
without a name, such as a query in parentheses without an alias, is never forced: its columns keep
the nullability that they have of their own, even where the leaf may lack.
-/

namespace SchemaPlan

open SchemaPlan.Sql SchemaPlan.Query

/-- Whether a leaf of the sources of a select may be lacking from a row. -/
def LeafMayLack (tree : Option JoinTree) (i : Nat) : Prop :=
  ∃ whole, tree = some whole ∧ whole.MayLack i

/-- A leaf is forced exactly if it has a name and may lack. -/
theorem isForced_iff_mayLack {tree : JoinTree} {names : SourceNames}
    (hnames : SourceNames.ofTree (some tree) = .ok names) {leaf : Leaf} {i : Nat}
    (hleaf : tree.leaves[i]? = some leaf) :
    leaf.exposedName?.any (isForced (forcedNames (some tree))) = true ↔
      leaf.exposedName?.isSome = true ∧ tree.MayLack i := by
  have hunique := SourceNames.uniqueNames_of_ofTree hnames
  cases hname : leaf.exposedName? with
  -- A leaf without a name is in no set of names.
  | none =>
    constructor
    · intro h
      cases h
    · rintro ⟨h, -⟩
      cases h
  | some name =>
    have hexposes : tree.Exposes i (Text.lower name) := ⟨leaf, name, hleaf, hname, rfl⟩
    rw [Option.any_some, isForced, List.contains_iff_mem, Option.isSome_some,
      eq_self_iff_true, true_and]
    exact JoinTree.mem_force_iff_mayLack hunique hexposes

/-- The columns of a select come from its leaves, one by one, under the names that are forced. -/
theorem exists_stemFrom_of_body {r : Resolver} {ctes : List CteShape} {select : Select}
    {resolved : ResolvedQuery} (h : r.body ctes (.select select) = .ok resolved) :
    ∃ tree tables names, JoinTree.ofSources select.sources = .ok tree ∧
      SourceNames.ofTree tree = .ok names ∧
      ((tree.map JoinTree.leaves).getD []).mapM (r.leafTable ctes) = .ok tables ∧
      List.Forall₂ (StemsFrom (forcedNames tree) tables)
        (projectionOrigins tables select.projection) resolved.columns := by
  obtain ⟨parts, rfl⟩ := Resolver.selectParts_of_body h
  obtain ⟨tree, scope, columns, htree, hnames, hsources, hitems⟩ := parts
  cases tree with
  | some whole =>
    obtain ⟨tables, htables, hfound⟩ := sources_eq_map htree hsources
    have hshows := shows_of_ofTree hnames (map_leaf_of_mapM htables) hfound
    exact ⟨some whole, tables, scope.names, htree, hnames, htables,
      distinctNames_stemFrom [] (items_stemFrom hshows hitems)⟩
  | none =>
    -- Without sources there are no leaves, and the scope shows none.
    rw [Resolver.sources_eq_nil_of_ofSources htree, Resolver.sources] at hsources
    have hshows : Shows scope (forcedNames none) [] := by
      refine ⟨(Except.ok.inj hsources).symm, fun qualifier => ?_⟩
      rw [← Except.ok.inj hnames]
      rfl
    exact ⟨none, [], scope.names, htree, hnames, rfl,
      distinctNames_stemFrom [] (items_stemFrom hshows hitems)⟩

/-- Related lists have related elements at each place. -/
theorem exists_getElem?_of_forall₂ {α β : Type} {R : α → β → Prop} {first : List α}
    {second : List β} (h : List.Forall₂ R first second) {j : Nat} {b : β}
    (hb : second[j]? = some b) : ∃ a, first[j]? = some a ∧ R a b := by
  obtain ⟨hj, rfl⟩ := List.getElem?_eq_some_iff.mp hb
  have hj' : j < first.length := by
    rw [h.length_eq]
    exact hj
  exact ⟨first[j], List.getElem?_eq_getElem hj', h.get hj' hj⟩

/-- Every column of a select that is traced to a source has an origin among its leaves. Its flag is
that of the origin, or set where the leaf may lack, exactly if the leaf has a name, the origin is
nullable anyway or the leaf is always present. -/
theorem nullable_iff_origin_or_lacking {r : Resolver} {ctes : List CteShape} {select : Select}
    {resolved : ResolvedQuery} (h : r.body ctes (.select select) = .ok resolved) :
    ∃ tree tables, JoinTree.ofSources select.sources = .ok tree ∧
      ((tree.map JoinTree.leaves).getD []).mapM (r.leafTable ctes) = .ok tables ∧
      ∀ (j : Nat) (result : ResultColumn), resolved.columns[j]? = some result →
        (∀ source name, result.provenance = .column source name →
          ∃ origin, (projectionOrigins tables select.projection)[j]? = some (some origin)) ∧
        ∀ origin : Origin,
          (projectionOrigins tables select.projection)[j]? = some (some origin) →
          ∃ table own, tables[origin.leaf]? = some table ∧ IsColumn table own origin.column ∧
            ((result.isNullable = true ↔
                own.isNullable = true ∨ LeafMayLack tree origin.leaf) ↔
              table.leaf.exposedName?.isSome = true ∨ own.isNullable = true ∨
                ¬ LeafMayLack tree origin.leaf) := by
  obtain ⟨tree, tables, names, htree, hnames, htables, hstem⟩ := exists_stemFrom_of_body h
  refine ⟨tree, tables, htree, htables, fun j result hresult => ?_⟩
  obtain ⟨origin?, horigin?, hstems⟩ := exists_getElem?_of_forall₂ hstem hresult
  rw [horigin?]
  constructor
  · intro source name hprovenance
    cases origin? with
    | none => exact absurd hprovenance (hstems source name)
    | some origin => exact ⟨origin, rfl⟩
  · intro origin horigin
    obtain rfl := Option.some.inj horigin
    obtain ⟨table, own, htable, hown, hnullable⟩ := hstems
    refine ⟨table, own, htable, hown, ?_⟩
    -- The leaf of the origin is the one with its number in the tree.
    have hleaf : ((tree.map JoinTree.leaves).getD [])[origin.leaf]? = some table.leaf := by
      rw [← map_leaf_of_mapM htables, List.getElem?_map, htable, Option.map_some]
    cases tree with
    | none => cases hleaf
    | some whole =>
      have hforced := isForced_iff_mayLack hnames hleaf
      have hlacks : LeafMayLack (some whole) origin.leaf ↔ whole.MayLack origin.leaf := by
        constructor
        · rintro ⟨found, hfound, h⟩
          obtain rfl := Option.some.inj hfound
          exact h
        · intro h
          exact ⟨whole, rfl, h⟩
      -- The flag is `own` or named and lacking, where it should be `own` or lacking.
      rw [hnullable, Bool.or_eq_true, hforced, hlacks]
      tauto

/-! ## A left join of two tables -/

/-- The tables `a (id)` and `b (id, v)`, none of whose columns is nullable. -/
def twoTables : Resolver :=
  let column := fun name => { name, type := (Catalog.ofSource? "int").getD .unknown,
                              isNullable := false : Column }
  let tables : List Relation := [⟨"dbo", "a", [column "id"]⟩, ⟨"dbo", "b", [column "id", column "v"]⟩]
  ⟨SchemaModel.catalog { defaultSchema := "dbo", tables }, []⟩

/-- Whether a tree is a left join of two leaves. -/
def isLeftJoin : JoinTree → Bool
  | .join .leftOuter (.leaf _) (.leaf _) _ => true
  | _ => false

/-- Whether a text is a select from a left join whose first result column comes from the second
column of the right leaf, and has a flag. -/
def joinsLeft (text : String) (isNullable : Bool) : Bool :=
  (Grammar.parseQuery text).toOption.any fun query =>
    match query.body with
    | .select select =>
      (twoTables.body [] (.select select)).toOption.any fun resolved =>
        (JoinTree.ofSources select.sources).toOption.any fun tree => tree.any isLeftJoin &&
          (((tree.map JoinTree.leaves).getD []).mapM (twoTables.leafTable [])).toOption.any
            fun tables => (projectionOrigins tables select.projection)[0]? == some (some ⟨1, 1⟩) &&
              resolved.columns[0]?.any (·.isNullable == isNullable)
    | _ => false

/-- The select of a text with a left join, and what it is resolved from. -/
theorem exists_select_of_joinsLeft {text : String} {isNullable : Bool}
    (h : joinsLeft text isNullable = true) :
    ∃ query select resolved tree tables result, Grammar.parseQuery text = .ok query ∧
      query.body = .select select ∧ twoTables.body [] (.select select) = .ok resolved ∧
      JoinTree.ofSources select.sources = .ok tree ∧
      ((tree.map JoinTree.leaves).getD []).mapM (twoTables.leafTable []) = .ok tables ∧
      LeafMayLack tree 1 ∧
      (projectionOrigins tables select.projection)[0]? = some (some ⟨1, 1⟩) ∧
      resolved.columns[0]? = some result ∧ result.isNullable = isNullable := by
  obtain ⟨query, hquery, h⟩ := (Option.any_eq_true _ _).mp h
  split at h
  · rename_i select hselect
    obtain ⟨resolved, hresolved, h⟩ := (Option.any_eq_true _ _).mp h
    obtain ⟨tree, htree, h⟩ := (Option.any_eq_true _ _).mp h
    obtain ⟨hjoin, h⟩ := Bool.and_eq_true_iff.mp h
    obtain ⟨tables, htables, h⟩ := (Option.any_eq_true _ _).mp h
    obtain ⟨horigin, h⟩ := Bool.and_eq_true_iff.mp h
    obtain ⟨result, hresult, hflag⟩ := (Option.any_eq_true _ _).mp h
    refine ⟨query, select, resolved, tree, tables, result, toOption_eq_some hquery, hselect,
      toOption_eq_some hresolved, toOption_eq_some htree, toOption_eq_some htables, ?_,
      beq_iff_eq.mp horigin, hresult, beq_iff_eq.mp hflag⟩
    obtain ⟨whole, rfl, hwhole⟩ := (Option.any_eq_true _ _).mp hjoin
    unfold isLeftJoin at hwhole
    split at hwhole
    · rename_i left right references _
      refine ⟨_, rfl, .optional ⟨0, .leftOuter, .leaf left, .leaf right, references, .whole, ?_⟩⟩
      exact Or.inr ⟨rfl, Nat.le_refl 1, Nat.lt_succ_self 1⟩
    · cases hwhole
  · cases h

/-- In `SELECT c.v FROM a LEFT JOIN b c ON ..` the column is nullable, as it may come from no row. -/
theorem nullable_of_named_leaf :
    ∃ query select resolved,
      Grammar.parseQuery "select c.v from a left join b c on a.id = c.id" = .ok query ∧
      query.body = .select select ∧ twoTables.body [] (.select select) = .ok resolved ∧
      ∃ tree tables, JoinTree.ofSources select.sources = .ok tree ∧
        ((tree.map JoinTree.leaves).getD []).mapM (twoTables.leafTable []) = .ok tables ∧
        ∃ result table own, resolved.columns[0]? = some result ∧ result.isNullable = true ∧
          tables[1]? = some table ∧ IsColumn table own 1 ∧ LeafMayLack tree 1 ∧
          ((result.isNullable = true ↔ own.isNullable = true ∨ LeafMayLack tree 1) ↔
            table.leaf.exposedName?.isSome = true ∨ own.isNullable = true ∨
              ¬ LeafMayLack tree 1) := by
  obtain ⟨query, select, resolved, tree, tables, result, hquery, hselect, hresolved, htree, htables,
    hlacks, horigin, hresult, hflag⟩ := exists_select_of_joinsLeft
      (show joinsLeft "select c.v from a left join b c on a.id = c.id" true = true by
        decide +kernel)
  obtain ⟨tree', tables', htree', htables', hcolumns⟩ := nullable_iff_origin_or_lacking hresolved
  obtain rfl : tree = tree' := Except.ok.inj (htree.symm.trans htree')
  obtain rfl : tables = tables' := Except.ok.inj (htables.symm.trans htables')
  obtain ⟨table, own, htable, hown, hiff⟩ := (hcolumns 0 result hresult).2 ⟨1, 1⟩ horigin
  exact ⟨query, select, resolved, hquery, hselect, hresolved, tree, tables, htree, htables, result,
    table, own, hresult, hflag, htable, hown, hlacks, hiff⟩

/-- In `SELECT v FROM a LEFT JOIN (SELECT id AS k, v FROM b) ON ..` the column may come from no row,
but is not nullable. -/
theorem not_nullable_of_unnamed_leaf :
    ∃ query select resolved,
      Grammar.parseQuery "select v from a left join (select id as k, v from b) on a.id = k" =
        .ok query ∧
      query.body = .select select ∧ twoTables.body [] (.select select) = .ok resolved ∧
      ∃ tree tables, JoinTree.ofSources select.sources = .ok tree ∧
        ((tree.map JoinTree.leaves).getD []).mapM (twoTables.leafTable []) = .ok tables ∧
        (projectionOrigins tables select.projection)[0]? = some (some ⟨1, 1⟩) ∧
        ∃ result, resolved.columns[0]? = some result ∧ LeafMayLack tree 1 ∧
          ∀ own : SourceColumn,
            ¬ (result.isNullable = true ↔ own.isNullable = true ∨ LeafMayLack tree 1) := by
  obtain ⟨query, select, resolved, tree, tables, result, hquery, hselect, hresolved, htree, htables,
    hlacks, horigin, hresult, hflag⟩ := exists_select_of_joinsLeft
      (show joinsLeft "select v from a left join (select id as k, v from b) on a.id = k" false =
        true by decide +kernel)
  refine ⟨query, select, resolved, hquery, hselect, hresolved, tree, tables, htree, htables, horigin,
    result, hresult, hlacks, fun own hclaim => ?_⟩
  have hnullable := hclaim.mpr (Or.inr hlacks)
  rw [hflag] at hnullable
  cases hnullable

end SchemaPlan
