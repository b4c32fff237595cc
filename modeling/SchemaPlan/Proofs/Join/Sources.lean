import Mathlib.Data.List.Forall2
import SchemaPlan.Join.FromClause
import SchemaPlan.Proofs.Resolve.Outcome

/-!
# The sources of a FROM clause

A FROM clause is a list of sources with joins, some of them in parentheses. Its single sources are
what is left once the parentheses around joins are opened. The join tree has one leaf for each of
them, in the order in which they are written (`readAs_ofSources`).

A source that is pivoted is part of the single source that the pivot makes, like the document of
`OPENJSON`.
-/

namespace SchemaPlan

open SchemaPlan.Sql SchemaPlan.Query

/-! ## Single sources -/

/-- The alias of a source. -/
def Query.Factor.label? : Factor → Option TableAlias
  | .table _ _ _ label _ => label
  | .derived _ _ label => label
  | .joined _ label => label
  | .special _ label => label

/-- Whether a source is neither a name, nor a query or joins in parentheses. -/
def Query.Factor.isSpecial : Factor → Bool
  | .special _ _ => true
  | .table _ _ _ _ _ => false
  | .derived _ _ _ => false
  | .joined _ _ => false

namespace SingleSources

mutual

/-- The single sources in a factor: those of the joins in its parentheses, or the factor itself. -/
def factor : Factor → List Factor
  | .joined ⟨relation, joined⟩ _ => factor relation ++ joins joined
  | .table name arguments marker label tail => [.table name arguments marker label tail]
  | .derived lateral query label => [.derived lateral query label]
  | .special pieces label => [.special pieces label]

/-- The single sources on the right sides of joins. -/
def joins : List Join → List Factor
  | [] => []
  | ⟨_, _, relation, _⟩ :: rest => factor relation ++ joins rest

end

end SingleSources

/-- The single sources of a FROM clause from left to right. -/
def singleSources : List JoinedSource → List Factor
  | [] => []
  | ⟨relation, joins⟩ :: rest =>
    SingleSources.factor relation ++ SingleSources.joins joins ++ singleSources rest

/-! ## Leaves -/

/-- The leaf that a single source is in a join tree. Special sources keep their alias as a part of
their text only. -/
inductive ReadAs : Factor → Leaf → Prop where
  | named {name : List Ident} {marker : String} {label : Option TableAlias} {tail : List Piece}
      {object : QualifiedName} (hobject : QualifiedName.ofParts? (nameValues name) = some object) :
      ReadAs (.table name none marker label tail) (.source object (label.map (·.name.value)))
  | called {name : List Ident} {arguments : List Piece} {marker : String}
      {label : Option TableAlias} {tail : List Piece} :
      ReadAs (.table name (some arguments) marker label tail)
        (.function (Text.joinWith "." (nameValues name)) (label.map (·.name.value)))
  | derived {lateral : Bool} {query : Query} {label : Option TableAlias} :
      ReadAs (.derived lateral query label)
        (.derived (label.map (·.name.value))
          ((label.map fun a => a.columns.map aliasColumnName).getD []) query)
  | special {pieces : List Piece} {label : Option TableAlias} :
      ReadAs (.special pieces label) (.function (piecesText pieces ++ aliasText label) none)

/-- A source that is not special is exposed under its alias. -/
theorem ReadAs.exposedName? {factor : Factor} {leaf : Leaf} {label : TableAlias}
    (h : ReadAs factor leaf) (hlabel : factor.label? = some label)
    (hplain : factor.isSpecial = false) : leaf.exposedName? = some label.name.value := by
  cases h with
  | named hobject =>
    obtain rfl : _ = some label := hlabel
    rfl
  | called =>
    obtain rfl : _ = some label := hlabel
    rfl
  | derived =>
    obtain rfl : _ = some label := hlabel
    rfl
  | special => cases hplain

/-- A special source is exposed under no name. -/
theorem ReadAs.exposedName?_eq_none {factor : Factor} {leaf : Leaf} (h : ReadAs factor leaf)
    (hspecial : factor.isSpecial = true) : leaf.exposedName? = none := by
  cases h with
  | special => rfl
  | named hobject => cases hspecial
  | called => cases hspecial
  | derived => cases hspecial

/-! ## Leaves of a tree -/

/-- A name is read as a source, or as a function if there are arguments. -/
theorem readAs_namedLeaf {name : List Ident} {arguments : Option (List Piece)} {marker : String}
    {label : Option TableAlias} {tail : List Piece} {leaf : Leaf}
    (h : namedLeaf name arguments.isSome label = .ok leaf) :
    ReadAs (.table name arguments marker label tail) leaf := by
  unfold namedLeaf at h
  cases arguments with
  | some pieces =>
    obtain rfl := Except.ok.inj h
    exact .called
  | none =>
    dsimp only [Option.isSome_none] at h
    rw [if_neg Bool.false_ne_true] at h
    split at h
    · rename_i object hobject
      obtain rfl := Except.ok.inj h
      exact .named hobject
    · cases h

mutual

/-- The leaves of the tree of a factor are those that its single sources are read as. -/
theorem readAs_ofFactor : ∀ (factor : Factor) {tree : JoinTree},
    JoinTree.ofFactor factor = .ok tree →
    List.Forall₂ ReadAs (SingleSources.factor factor) tree.leaves
  | .table name arguments marker label tail, tree, h => by
    rw [JoinTree.ofFactor] at h
    cases hleaf : namedLeaf name arguments.isSome label with
    | error failure =>
      rw [hleaf] at h
      cases h
    | ok leaf =>
      rw [hleaf] at h
      obtain rfl := Except.ok.inj h
      exact .cons (readAs_namedLeaf hleaf) .nil
  | .derived lateral query label, tree, h => by
    rw [JoinTree.ofFactor] at h
    obtain rfl := Except.ok.inj h
    exact .cons .derived .nil
  | .joined ⟨relation, joins⟩ label, tree, h => by
    rw [JoinTree.ofFactor, JoinTree.ofSource] at h
    obtain ⟨first, hfirst, h⟩ := bind_eq_ok.mp h
    exact readAs_withJoins joins (readAs_ofFactor relation hfirst) h
  | .special pieces label, tree, h => by
    rw [JoinTree.ofFactor] at h
    obtain rfl := Except.ok.inj h
    exact .cons .special .nil

/-- Joins add the leaves of their right sides behind those of the tree so far. -/
theorem readAs_withJoins : ∀ (joins : List Join) {factors : List Factor} {tree whole : JoinTree},
    List.Forall₂ ReadAs factors tree.leaves → JoinTree.withJoins tree joins = .ok whole →
    List.Forall₂ ReadAs (factors ++ SingleSources.joins joins) whole.leaves
  | [], factors, tree, whole, hread, h => by
    rw [JoinTree.withJoins] at h
    obtain rfl := Except.ok.inj h
    rw [SingleSources.joins, List.append_nil]
    exact hread
  | ⟨isGlobal, operator, relation, condition⟩ :: rest, factors, tree, whole, hread, h => by
    rw [JoinTree.withJoins] at h
    obtain ⟨right, hright, h⟩ := bind_eq_ok.mp h
    rw [SingleSources.joins, ← List.append_assoc]
    refine readAs_withJoins rest ?_ h
    -- The tree so far becomes the left side of the join.
    exact List.rel_append hread (readAs_ofFactor relation hright)

end

/-- Sources behind a comma add their leaves behind those of the tree so far. -/
theorem readAs_withSources {sources : List JoinedSource} {factors : List Factor}
    {tree whole : JoinTree} (hread : List.Forall₂ ReadAs factors tree.leaves)
    (h : JoinTree.withSources tree sources = .ok whole) :
    List.Forall₂ ReadAs (factors ++ singleSources sources) whole.leaves := by
  induction sources generalizing factors tree with
  | nil =>
    rw [JoinTree.withSources] at h
    obtain rfl := Except.ok.inj h
    rw [singleSources, List.append_nil]
    exact hread
  | cons source rest ih =>
    obtain ⟨relation, joins⟩ := source
    rw [JoinTree.withSources, JoinTree.ofSource] at h
    obtain ⟨next, hnext, h⟩ := bind_eq_ok.mp h
    obtain ⟨first, hfirst, hnext⟩ := bind_eq_ok.mp hnext
    have hsource := readAs_withJoins joins (readAs_ofFactor relation hfirst) hnext
    rw [singleSources, ← List.append_assoc]
    -- A comma is a cross join.
    apply ih _ h
    exact List.rel_append hread hsource

/-- The join tree of a FROM clause has one leaf for each of its single sources, in their order. -/
theorem readAs_ofSources {sources : List JoinedSource} {tree : Option JoinTree}
    (h : JoinTree.ofSources sources = .ok tree) :
    List.Forall₂ ReadAs (singleSources sources) ((tree.map JoinTree.leaves).getD []) := by
  cases sources with
  | nil =>
    obtain rfl := Except.ok.inj h
    exact .nil
  | cons source rest =>
    obtain ⟨relation, joins⟩ := source
    rw [JoinTree.ofSources, JoinTree.ofSource] at h
    obtain ⟨start, hstart, h⟩ := bind_eq_ok.mp h
    obtain ⟨first, hfirst, hstart⟩ := bind_eq_ok.mp hstart
    obtain ⟨whole, hwhole, h⟩ := bind_eq_ok.mp h
    obtain rfl := Except.ok.inj h
    apply readAs_withSources _ hwhole
    exact readAs_withJoins joins (readAs_ofFactor relation hfirst) hstart

end SchemaPlan
