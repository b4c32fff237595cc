import SchemaPlan.Join.FromClause
import SchemaPlan.Join.Nullability
import SchemaPlan.Join.Aliases
import SchemaPlan.Proofs.Query.Folding
import SchemaPlan.Proofs.Token.Literals

/-!
# Joins and ASCII case

The sources that a row may lack, and the names that the sources of a select are exposed under, do
not depend on the case of names. The qualifiers of a join are read from its text, so they do not
depend on case either where the text is cut into the same tokens up to case.
-/

namespace SchemaPlan

open SchemaPlan.Sql SchemaPlan.Query SchemaPlan.Text

/-! ## Qualifiers in a text -/

namespace QualifierScan

/-- A state in which the words of the name that is being read are in lower case. -/
def folded (s : QualifierScan) : QualifierScan := { s with run := s.run.map asciiLower }

theorem endRun_folded (minDepth : Nat) (s : QualifierScan) :
    s.folded.endRun minDepth = (s.endRun minDepth).folded := by
  obtain ⟨run, afterPeriod, depth, found⟩ := s
  match run with
  | [] => rfl
  | [_] => rfl
  | word :: qualifier :: rest =>
    simp only [folded, endRun, List.map_cons, lower_asciiLower, List.map_nil]

theorem step_outline (minDepth : Nat) (s : QualifierScan) (token : Token) :
    s.folded.step minDepth token.outline = (s.step minDepth token).folded := by
  cases token with
  | word text quote =>
    change (if s.afterPeriod then
        { s.folded with run := asciiLower text :: s.folded.run, afterPeriod := false }
      else { s.folded.endRun minDepth with run := [asciiLower text] }) = _
    rw [endRun_folded]
    unfold step
    dsimp only
    split <;> rfl
  | mark m =>
    have hempty : s.folded.run.isEmpty = s.run.isEmpty := List.isEmpty_map
    -- Only a period and parentheses do more than end the name.
    cases m
    case period =>
      change (if !s.folded.run.isEmpty && !s.afterPeriod then _ else s.folded.endRun minDepth) = _
      rw [hempty, endRun_folded]
      unfold step
      dsimp only
      split <;> rfl
    case openParen | closeParen =>
      unfold step Token.outline
      dsimp only
      rw [endRun_folded]
      rfl
    all_goals exact endRun_folded minDepth s
  | _ => exact endRun_folded minDepth s

end QualifierScan

theorem qualifiersOf_outline (minDepth : Nat) (tokens : List Token) :
    qualifiersOf minDepth (tokens.map Token.outline) = qualifiersOf minDepth tokens := by
  have hrun (s : QualifierScan) :
      (tokens.map Token.outline).foldl (QualifierScan.step minDepth) s.folded =
        (tokens.foldl (QualifierScan.step minDepth) s).folded := by
    induction tokens generalizing s with
    | nil => rfl
    | cons token rest ih =>
      rw [List.map_cons, List.foldl_cons, List.foldl_cons, QualifierScan.step_outline, ih]
  have hwhole := hrun {}
  unfold qualifiersOf
  rw [show (({} : QualifierScan).folded) = {} from rfl] at hwhole
  rw [hwhole, QualifierScan.endRun_folded]
  rfl

/-- Texts with the same tokens up to case have the same qualifiers. -/
theorem qualifiersIn_eq_of_outlines {text text' : String} (h : outlines? text = outlines? text')
    (minDepth : Nat) : qualifiersIn minDepth text = qualifiersIn minDepth text' := by
  have hread (text : String) : qualifiersIn minDepth text =
      ((outlines? text).map (qualifiersOf minDepth)).getD [] := by
    unfold qualifiersIn outlines?
    cases scan text with
    | error failure => rfl
    | ok tokens =>
      have houtline := qualifiersOf_outline minDepth (tokens.map (·.token))
      rw [List.map_map] at houtline
      exact houtline.symm
  rw [hread, hread, h]

/-! ## Texts that are read for qualifiers -/

/-- The text of a join that is read for qualifiers: its condition, or what it applies. -/
def joinText (operator : JoinOperator) (relation : Factor) (condition : JoinCondition) : String :=
  match operator, condition with
  | .crossApply, _ | .outerApply, _ => relation.text
  | .inner, .on expr | .left, .on expr | .right, .on expr | .full, .on expr => expr.text
  | _, _ => ""

theorem joinReferences_eq (operator : JoinOperator) (relation : Factor)
    (condition : JoinCondition) : joinReferences operator relation condition =
      qualifiersIn (if operator = .crossApply ∨ operator = .outerApply then 1 else 0)
        (joinText operator relation condition) := by
  cases operator <;> cases condition <;> rfl

theorem asciiLower_joinText_folded (operator : JoinOperator) (relation : Factor)
    (condition : JoinCondition) : asciiLower (joinText operator relation.folded condition.folded) =
      asciiLower (joinText operator relation condition) := by
  cases operator <;> cases condition <;>
    first
    | rfl
    | exact relation.asciiLower_text_folded
    | exact Expr.asciiLower_text_folded _

/-- Texts of the one list and of the other that differ in case only are cut into tokens that differ
in case only. -/
def ReadAlike (texts texts' : List String) : Prop :=
  ∀ text ∈ texts, ∀ text' ∈ texts', asciiLower text = asciiLower text' →
    outlines? text = outlines? text'

/-- Texts with the same literals are read alike. -/
theorem readAlike_of_sameLiterals {texts texts' : List String}
    (h : ∀ text ∈ texts, ∀ text' ∈ texts', asciiLower text = asciiLower text' →
      SameLiterals text text') : ReadAlike texts texts' :=
  fun text htext text' htext' hlower =>
    outlines?_eq_of_sameLiterals (h text htext text' htext' hlower)

namespace ReadAlike

variable {text text' : String} {texts texts' more more' : List String}

theorem left (h : ReadAlike (texts ++ more) (texts' ++ more')) : ReadAlike texts texts' :=
  fun text htext text' htext' =>
    h text (List.mem_append_left _ htext) text' (List.mem_append_left _ htext')

theorem right (h : ReadAlike (texts ++ more) (texts' ++ more')) : ReadAlike more more' :=
  fun text htext text' htext' =>
    h text (List.mem_append_right _ htext) text' (List.mem_append_right _ htext')

theorem tail (h : ReadAlike (text :: texts) (text' :: texts')) : ReadAlike texts texts' :=
  fun other hother other' hother' =>
    h other (List.mem_cons_of_mem _ hother) other' (List.mem_cons_of_mem _ hother')

theorem head (h : ReadAlike (text :: texts) (text' :: texts'))
    (htext : asciiLower text = asciiLower text') : outlines? text = outlines? text' :=
  h text List.mem_cons_self text' List.mem_cons_self htext

end ReadAlike

namespace JoinTexts

mutual

/-- The texts of joins that bear on the columns of a query. -/
def query : Query → List String
  | ⟨_, own, inner, _⟩ => ctes own ++ body inner

/-- The texts of joins in common table expressions. -/
def ctes : List Cte → List String
  | [] => []
  | ⟨_, inner, _⟩ :: rest => query inner ++ ctes rest

/-- The texts of joins in a body; a set operation has the columns of its first arm. -/
def body : Body → List String
  | .select ⟨_, _, _, _, from', _, _, _⟩ => sources from'
  | .nested inner => query inner
  | .operation left _ _ => body left
  | .values _ _ => []
  | .other _ => []

/-- The texts of joins in sources. -/
def sources : List JoinedSource → List String
  | [] => []
  | next :: rest => source next ++ sources rest

/-- The texts of joins in a source. -/
def source : JoinedSource → List String
  | ⟨relation, joined⟩ => factor relation ++ joins joined

/-- The texts of joins one after the other, and of those in what is joined. -/
def joins : List Join → List String
  | [] => []
  | ⟨_, operator, relation, condition⟩ :: rest =>
    joinText operator relation condition :: (factor relation ++ joins rest)

/-- The texts of joins in a factor. -/
def factor : Factor → List String
  | .derived _ inner _ => query inner
  | .joined inner _ => source inner
  | .table _ _ _ _ _ => []
  | .special _ _ => []

end

end JoinTexts

/-! ## Outcomes that agree -/

/-- A failure without the names in it. -/
def ResolveError.kind : ResolveError → ResolveError
  | .aliasCollision _ => .aliasCollision ""
  | .unresolvedColumn _ => .unresolvedColumn ""
  | .ambiguousColumn _ _ => .ambiguousColumn "" ""
  | .unknownQualifier _ _ => .unknownQualifier "" ""
  | .unexpandableWildcard _ => .unexpandableWildcard ""
  | .malformedSelect _ => .malformedSelect ""

/-- Two outcomes agree: both are values that are alike, or failures of one kind. -/
inductive Agree {α : Type} (alike : α → α → Prop) :
    Except ResolveError α → Except ResolveError α → Prop where
  | ok {a b : α} (h : alike a b) : Agree alike (.ok a) (.ok b)
  | error {e f : ResolveError} (h : e.kind = f.kind) : Agree alike (.error e) (.error f)

namespace Agree

variable {α β : Type} {alike : α → α → Prop} {alike' : β → β → Prop}

theorem bind {x y : Except ResolveError α} {f g : α → Except ResolveError β} (h : Agree alike x y)
    (hnext : ∀ a b, alike a b → Agree alike' (f a) (g b)) : Agree alike' (x >>= f) (y >>= g) := by
  cases h with
  | ok h => exact hnext _ _ h
  | error h => exact .error h

theorem map {x y : Except ResolveError α} {f g : α → β} (h : Agree alike x y)
    (hnext : ∀ a b, alike a b → alike' (f a) (g b)) : Agree alike' (x.map f) (y.map g) := by
  cases h with
  | ok h => exact .ok (hnext _ _ h)
  | error h => exact .error h

end Agree

/-! ## Leaves and trees -/

/-- An object name in lower case. -/
def Sql.QualifiedName.folded (object : QualifiedName) : QualifiedName :=
  ⟨object.database.map asciiLower, object.schema.map asciiLower, asciiLower object.name⟩

/-- A leaf in lower case. -/
def Leaf.folded : Leaf → Leaf
  | .source object label => .source object.folded (label.map asciiLower)
  | .derived label columns query =>
    .derived (label.map asciiLower) (columns.map asciiLower) query.folded
  | .function name label => .function (asciiLower name) (label.map asciiLower)

theorem Leaf.exposedName?_folded (leaf : Leaf) :
    leaf.folded.exposedName? = leaf.exposedName?.map asciiLower := by
  cases leaf with
  | source object label => cases label <;> rfl
  | derived label columns query => rfl
  | function name label => rfl

namespace JoinTree

/-- A tree whose leaves are in lower case. -/
def folded : JoinTree → JoinTree
  | .leaf source => .leaf source.folded
  | .join kind left right references => .join kind left.folded right.folded references

theorem leaves_folded (tree : JoinTree) : tree.folded.leaves = tree.leaves.map Leaf.folded := by
  induction tree with
  | leaf source => rfl
  | join kind left right references ihl ihr =>
    rw [folded, leaves, leaves, ihl, ihr, List.map_append]

theorem exposedNames_folded (tree : JoinTree) : tree.folded.exposedNames = tree.exposedNames := by
  unfold exposedNames
  rw [leaves_folded, List.filterMap_map]
  have hexposed : Leaf.exposedName? ∘ Leaf.folded = fun leaf => leaf.exposedName?.map asciiLower :=
    funext Leaf.exposedName?_folded
  rw [hexposed, ← List.map_filterMap, List.map_map]
  exact List.map_congr_left fun name _ => lower_asciiLower name

theorem force_folded (tree : JoinTree) (isOptional : Bool) (forced : List String) :
    tree.folded.force isOptional forced = tree.force isOptional forced := by
  induction tree generalizing isOptional forced with
  | leaf source =>
    unfold folded force
    rw [Leaf.exposedName?_folded]
    cases isOptional <;> cases source.exposedName? <;> simp [lower_asciiLower]
  | join kind left right references ihl ihr =>
    have hnames (forced : List String) : left.folded.namesOnlyForced references forced =
        left.namesOnlyForced references forced := by
      unfold namesOnlyForced
      rw [exposedNames_folded]
    simp only [folded, force, ihl, ihr, hnames]

end JoinTree

theorem forcedNames_folded (tree : Option JoinTree) :
    forcedNames (tree.map JoinTree.folded) = forcedNames tree := by
  cases tree with
  | none => rfl
  | some tree => exact tree.force_folded false []

/-! ## Trees of sources that differ in case -/

section Names

variable {name name' : List Ident} {label label' : Option TableAlias}

theorem Query.Ident.asciiLower_value_eq {part part' : Ident} (h : part.folded = part'.folded) :
    asciiLower part.value = asciiLower part'.value := by
  rw [← part.asciiLower_value_folded, h, part'.asciiLower_value_folded]

theorem map_asciiLower_nameValues_eq (h : name.map Ident.folded = name'.map Ident.folded) :
    (nameValues name).map asciiLower = (nameValues name').map asciiLower := by
  have hvalues (name : List Ident) : (nameValues name).map asciiLower =
      ((name.map Ident.folded).map fun part => asciiLower part.value) := by
    simp only [nameValues, List.map_map, Function.comp_def, Ident.asciiLower_value_folded]
  rw [hvalues, hvalues, h]

/-- The name that an alias gives. -/
def labelName (label : Option TableAlias) : Option String := label.map (·.name.value)

/-- The names that an alias gives to columns. -/
def labelColumns (label : Option TableAlias) : List String :=
  (label.map fun a => a.columns.map aliasColumnName).getD []

theorem map_asciiLower_labelName_eq
    (h : label.map TableAlias.folded = label'.map TableAlias.folded) :
    (labelName label).map asciiLower = (labelName label').map asciiLower := by
  have hname (label : Option TableAlias) : (labelName label).map asciiLower =
      (label.map TableAlias.folded).map fun a => asciiLower a.name.value := by
    simp only [labelName, Option.map_map, Function.comp_def, TableAlias.folded,
      Ident.asciiLower_value_folded]
  rw [hname, hname, h]

theorem asciiLower_aliasColumnName (column : AliasColumn) :
    asciiLower (aliasColumnName column) =
      unquote ((words (asciiLower column.text)).headD (asciiLower column.text)) := by
  unfold aliasColumnName
  rw [asciiLower_unquote, ← map_asciiLower_words]
  cases words column.text <;> rfl

theorem map_asciiLower_labelColumns_eq
    (h : label.map TableAlias.folded = label'.map TableAlias.folded) :
    (labelColumns label).map asciiLower = (labelColumns label').map asciiLower := by
  have hcolumn (column : AliasColumn) :
      asciiLower (aliasColumnName column.folded) = asciiLower (aliasColumnName column) := by
    rw [asciiLower_aliasColumnName, asciiLower_aliasColumnName, column.asciiLower_text_folded]
  have hcolumns (label : Option TableAlias) : (labelColumns label).map asciiLower =
      (labelColumns (label.map TableAlias.folded)).map asciiLower := by
    cases label with
    | none => rfl
    | some label =>
      simp only [labelColumns, TableAlias.folded, Option.map_some, Option.getD_some, List.map_map,
        Function.comp_def, hcolumn]
  rw [hcolumns label, hcolumns label', h]

theorem part?_asciiLower (text : String) :
    QualifiedName.part? (asciiLower text) = (QualifiedName.part? text).map asciiLower := by
  have hempty : asciiLower text = "" ↔ text = "" := asciiLower_eq_iff (by decide)
  unfold QualifiedName.part?
  by_cases h : text = ""
  · rw [if_pos h, if_pos (hempty.mpr h)]
    rfl
  · rw [if_neg h, if_neg (mt hempty.mp h)]
    rfl

theorem ofParts?_map_asciiLower (parts : List String) :
    QualifiedName.ofParts? (parts.map asciiLower) =
      (QualifiedName.ofParts? parts).map QualifiedName.folded := by
  match parts with
  | [] => rfl
  | [n] | [_, n] | [_, _, n] | [_, _, _, n] =>
    simp only [List.map_cons, List.map_nil, QualifiedName.ofParts?, part?_asciiLower]
    cases QualifiedName.part? n <;> rfl
  | _ :: _ :: _ :: _ :: _ :: _ => rfl

theorem agree_namedLeaf (hname : name.map Ident.folded = name'.map Ident.folded)
    (hlabel : label.map TableAlias.folded = label'.map TableAlias.folded) (hasArguments : Bool) :
    Agree (fun leaf leaf' => leaf.folded = leaf'.folded) (namedLeaf name hasArguments label)
      (namedLeaf name' hasArguments label') := by
  have hvalues := map_asciiLower_nameValues_eq hname
  have hlabel : (label.map (·.name.value)).map asciiLower =
      (label'.map (·.name.value)).map asciiLower := map_asciiLower_labelName_eq hlabel
  unfold namedLeaf
  cases hasArguments with
  | true =>
    refine .ok ?_
    simp only [Leaf.folded, asciiLower_joinWith, hvalues, hlabel]
  | false =>
    have hobject := congrArg QualifiedName.ofParts? hvalues
    rw [ofParts?_map_asciiLower, ofParts?_map_asciiLower] at hobject
    dsimp only
    cases hfound : QualifiedName.ofParts? (nameValues name) with
    | none =>
      rw [hfound, eq_comm] at hobject
      rw [Option.map_eq_none_iff.mp hobject]
      exact .error rfl
    | some object =>
      rw [hfound, eq_comm] at hobject
      obtain ⟨object', hfound', hobject⟩ := Option.map_eq_some_iff.mp hobject
      rw [hfound']
      refine .ok ?_
      simp only [Leaf.folded, hobject, hlabel]

end Names

theorem isSome_foldedPieces? (pieces : Option (List Piece)) :
    (foldedPieces? pieces).isSome = pieces.isSome := by
  cases pieces <;> rfl

/-- Trees that differ in case only. -/
def TreesAlike (tree tree' : JoinTree) : Prop := tree.folded = tree'.folded

theorem TreesAlike.eq {tree tree' : JoinTree} (h : TreesAlike tree tree') :
    tree.folded = tree'.folded := h

namespace JoinTree

mutual

theorem agree_ofFactor : ∀ factor factor' : Factor, factor.folded = factor'.folded →
    ReadAlike (JoinTexts.factor factor) (JoinTexts.factor factor') →
    Agree TreesAlike (JoinTree.ofFactor factor) (JoinTree.ofFactor factor')
  | .table name arguments marker label tail, factor', h, _ => by
    cases factor' with
    | table name' arguments' marker' label' tail' =>
      obtain ⟨hname, harguments, -, hlabel, -⟩ := Factor.table.inj h
      have harguments := congrArg Option.isSome harguments
      rw [isSome_foldedPieces?, isSome_foldedPieces?] at harguments
      -- Arguments make a table a call of a function, and are looked at for that only.
      simp only [ofFactor, harguments]
      exact (agree_namedLeaf hname hlabel _).map fun leaf leaf' hleaf =>
        congrArg JoinTree.leaf hleaf
    | _ => cases h
  | .derived lateral query label, factor', h, _ => by
    cases factor' with
    | derived lateral' query' label' =>
      obtain ⟨-, hquery, hlabel⟩ := Factor.derived.inj h
      have hname : (label.map (·.name.value)).map asciiLower =
        (label'.map (·.name.value)).map asciiLower := map_asciiLower_labelName_eq hlabel
      have hcolumns : ((label.map fun a => a.columns.map aliasColumnName).getD []).map asciiLower =
          ((label'.map fun a => a.columns.map aliasColumnName).getD []).map asciiLower :=
        map_asciiLower_labelColumns_eq hlabel
      simp only [ofFactor]
      refine .ok ?_
      simp only [TreesAlike, folded, Leaf.folded, hname, hcolumns, hquery]
    | _ => cases h
  | .joined inner label, factor', h, hread => by
    cases factor' with
    | joined inner' label' =>
      simp only [JoinTexts.factor] at hread
      simp only [ofFactor]
      -- Only here the texts of joins matter, as only here there are joins within the factor.
      exact agree_ofSource inner inner' (Factor.joined.inj h).1 hread
    | _ => cases h
  | .special pieces label, factor', h, _ => by
    cases factor' with
    | special pieces' label' =>
      obtain ⟨hpieces, hlabel⟩ := Factor.special.inj h
      simp only [ofFactor]
      refine .ok ?_
      have htext := congrArg (fun pieces => asciiLower (piecesText pieces)) hpieces
      have hlabel := congrArg (fun label => asciiLower (aliasText label)) hlabel
      simp only [asciiLower_piecesText_folded, asciiLower_aliasText_folded] at htext hlabel
      simp only [TreesAlike, folded, Leaf.folded, asciiLower_append, htext, hlabel]
    | _ => cases h

theorem agree_ofSource : ∀ source source' : JoinedSource, source.folded = source'.folded →
    ReadAlike (JoinTexts.source source) (JoinTexts.source source') →
    Agree TreesAlike (JoinTree.ofSource source) (JoinTree.ofSource source')
  | ⟨relation, joins⟩, ⟨relation', joins'⟩, h, hread => by
    obtain ⟨hrelation, hjoins⟩ := JoinedSource.mk.inj h
    simp only [ofSource]
    refine (agree_ofFactor relation relation' hrelation hread.left).bind fun tree tree' htree => ?_
    exact agree_withJoins joins joins' hjoins hread.right tree tree' htree

theorem agree_withJoins : ∀ joins joins' : List Join, foldedJoins joins = foldedJoins joins' →
    ReadAlike (JoinTexts.joins joins) (JoinTexts.joins joins') →
    ∀ tree tree' : JoinTree, TreesAlike tree tree' →
    Agree TreesAlike (tree.withJoins joins) (tree'.withJoins joins')
  | [], joins', h, _, tree, tree', htree => by
    cases joins' with
    | nil =>
      simp only [withJoins]
      exact .ok htree
    | cons => cases h
  | ⟨isGlobal, operator, relation, condition⟩ :: rest, joins', h, hread, tree, tree', htree => by
    cases joins' with
    | nil => cases h
    | cons join' rest' =>
      obtain ⟨isGlobal', operator', relation', condition'⟩ := join'
      obtain ⟨hjoin, hrest⟩ := List.cons.inj h
      obtain ⟨rfl, rfl, hrelation, hcondition⟩ := Join.mk.inj hjoin
      simp only [JoinTexts.joins] at hread
      have htext : asciiLower (joinText operator relation condition) =
          asciiLower (joinText operator relation' condition') := by
        rw [← asciiLower_joinText_folded, hrelation, hcondition, asciiLower_joinText_folded]
      -- The qualifiers are read off the text of the join, so the texts have to be read alike too.
      have hreferences : joinReferences operator relation condition =
          joinReferences operator relation' condition' := by
        rw [joinReferences_eq, joinReferences_eq, qualifiersIn_eq_of_outlines (hread.head htext)]
      have hnatural : isNaturalJoin condition = isNaturalJoin condition' := by
        cases condition <;> cases condition' <;> first | rfl | cases hcondition
      simp only [withJoins]
      refine (agree_ofFactor relation relation' hrelation hread.tail.left).bind
        fun right right' hright => ?_
      apply agree_withJoins rest rest' hrest hread.tail.right
      simp only [TreesAlike, folded, hreferences, hnatural, htree.eq, hright.eq]

end

theorem agree_withSources : ∀ sources sources' : List JoinedSource,
    foldedSources sources = foldedSources sources' →
    ReadAlike (JoinTexts.sources sources) (JoinTexts.sources sources') →
    ∀ tree tree' : JoinTree, TreesAlike tree tree' →
    Agree TreesAlike (tree.withSources sources) (tree'.withSources sources')
  | [], sources', h, _, tree, tree', htree => by
    cases sources' with
    | nil => exact .ok htree
    | cons => cases h
  | source :: rest, sources', h, hread, tree, tree', htree => by
    cases sources' with
    | nil => cases h
    | cons source' rest' =>
      obtain ⟨hsource, hrest⟩ := List.cons.inj h
      simp only [JoinTexts.sources] at hread
      unfold withSources
      refine (agree_ofSource source source' hsource hread.left).bind fun next next' hnext => ?_
      apply agree_withSources rest rest' hrest hread.right
      simp only [TreesAlike, folded, htree.eq, hnext.eq]

/-- The sources of two selects that differ in case make trees that differ in case. -/
theorem agree_ofSources {sources sources' : List JoinedSource}
    (h : foldedSources sources = foldedSources sources')
    (hread : ReadAlike (JoinTexts.sources sources) (JoinTexts.sources sources')) :
    Agree (fun tree tree' => tree.map folded = tree'.map folded) (ofSources sources)
      (ofSources sources') := by
  cases sources with
  | nil =>
    cases sources' with
    | nil => exact .ok rfl
    | cons => cases h
  | cons source rest =>
    cases sources' with
    | nil => cases h
    | cons source' rest' =>
      obtain ⟨hsource, hrest⟩ := List.cons.inj h
      simp only [JoinTexts.sources] at hread
      unfold ofSources
      refine (agree_ofSource source source' hsource hread.left).bind fun tree tree' htree => ?_
      refine (agree_withSources rest rest' hrest hread.right tree tree' htree).bind
        fun whole whole' hwhole => ?_
      exact .ok (congrArg some hwhole)

end JoinTree

/-! ## Exposed names -/

namespace SourceNames

theorem agree_add {names names' : SourceNames} (hnames : names.exposed = names'.exposed)
    {leaf leaf' : Leaf} (hleaf : leaf.folded = leaf'.folded) (index : Nat) :
    Agree (fun names names' => names.exposed = names'.exposed) (names.add leaf index)
      (names'.add leaf' index) := by
  have hexposed := congrArg Leaf.exposedName? hleaf
  rw [Leaf.exposedName?_folded, Leaf.exposedName?_folded] at hexposed
  unfold SourceNames.add
  cases hname : leaf.exposedName? with
  | none =>
    rw [hname, eq_comm] at hexposed
    rw [Option.map_eq_none_iff.mp hexposed]
    exact .ok hnames
  | some name =>
    rw [hname, eq_comm] at hexposed
    obtain ⟨name', hname', hlower⟩ := Option.map_eq_some_iff.mp hexposed
    rw [hname']
    have hkey : lower name' = lower name := by
      rw [← lower_asciiLower, hlower, lower_asciiLower]
    have hindex : names'.index? name' = names.index? name := by
      rw [index?, index?, hkey, hnames]
    dsimp only
    rw [hindex, hkey]
    split
    · exact .error rfl
    · -- Whether an alias is listed does not bear on what is exposed.
      have hadded : (lower name, index) :: names.exposed = (lower name, index) :: names'.exposed := by
        rw [hnames]
      split <;> split <;> exact .ok hadded

theorem agree_addAll {leaves leaves' : List Leaf}
    (h : leaves.map Leaf.folded = leaves'.map Leaf.folded) (index : Nat)
    {names names' : SourceNames} (hnames : names.exposed = names'.exposed) :
    Agree (fun names names' => names.exposed = names'.exposed) (names.addAll index leaves)
      (names'.addAll index leaves') := by
  induction leaves generalizing leaves' index names names' with
  | nil =>
    rw [List.map_eq_nil_iff.mp h.symm]
    exact .ok hnames
  | cons leaf rest ih =>
    obtain ⟨leaf', rest', rfl, hleaf, hrest⟩ := List.map_eq_cons_iff.mp h.symm
    unfold SourceNames.addAll
    exact (agree_add hnames hleaf.symm index).bind fun _ _ hadded => ih hrest.symm _ hadded

theorem agree_ofTree {tree tree' : Option JoinTree}
    (h : tree.map JoinTree.folded = tree'.map JoinTree.folded) :
    Agree (fun names names' => names.exposed = names'.exposed) (ofTree tree) (ofTree tree') := by
  have hleaves (tree : Option JoinTree) : ((tree.map JoinTree.leaves).getD []).map Leaf.folded =
      ((tree.map JoinTree.folded).map JoinTree.leaves).getD [] := by
    cases tree with
    | none => rfl
    | some tree => exact tree.leaves_folded.symm
  exact agree_addAll (by rw [hleaves, hleaves, h]) 0 rfl

end SourceNames

end SchemaPlan
