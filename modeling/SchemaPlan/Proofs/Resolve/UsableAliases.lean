import SchemaPlan.Proofs.Resolve.Exposure

/-!
# Aliases that can be used

The alias of a source should stand for that source, so that the columns it qualifies are looked up
there: each is a column of the source, is missing from it, or cannot be traced if the columns of the
source are not known. Special sources (a pivoted source, the rows of a document, and the like) lose
their alias on the way into the join tree, and a name that is qualified by it is refused.

* `alias_usable_iff`: an alias is usable exactly if its source is not special.
-/

namespace SchemaPlan

open SchemaPlan.Sql SchemaPlan.Query

/-! ## Answers of a source -/

/-- What a reference to a column of a source gives. `label` is the name of the result column, and
`shown` is the reference as it is reported. -/
def ScopeSource.answer (source : ScopeSource) (column : String) (label : Option String)
    (shown : String) : Except ResolveError ResultColumn :=
  match source.columns, source.column? column with
  | none, _ =>
    .ok (untracedColumn (label.getD column) (.unknownSource (some source.identifier)))
  | some _, some own => .ok (tracedColumn (label.getD column) source own)
  | some _, none => .error (.unresolvedColumn shown)

theorem ScopeSource.answer_ne_unknownQualifier (source : ScopeSource) (column : String)
    (label : Option String) (shown qualifier name : String) :
    source.answer column label shown ≠ .error (.unknownQualifier qualifier name) := by
  unfold answer
  split <;> simp

/-- A qualified reference is answered by the source that its qualifier names. -/
theorem reference_eq_answer {scope : Scope} {qualifier shown : String} {source : ScopeSource}
    (h : scope.sourceNamed qualifier shown = .ok source) (column : String)
    (label : Option String) :
    scope.reference (some qualifier) column label shown = source.answer column label shown := by
  unfold Scope.reference Scope.lookup ScopeSource.answer
  simp only [h, bind, Except.bind]
  cases hcolumns : source.columns with
  | none => rfl
  | some columns =>
    cases hown : source.column? column with
    | none => rfl
    | some own => rfl

/-- A name can be used for the source at a place of a scope: it stands for that place, and the
references that it qualifies are answered by the source, so that it is never reported as unknown. -/
structure Scope.IsUsable (scope : Scope) (name : String) (i : Nat) : Prop where
  index : scope.names.index? name = some i
  answers : ∃ source, scope.sources[i]? = some source ∧
    ∀ column label shown,
      scope.reference (some name) column label shown = source.answer column label shown
  known : ∀ column label shown qualifier reported,
    scope.reference (some name) column label shown ≠ .error (.unknownQualifier qualifier reported)

/-- A name that stands for the place of a source can be used for it. -/
theorem Scope.isUsable_of_index {scope : Scope} {name : String} {i : Nat} {source : ScopeSource}
    (hindex : scope.names.index? name = some i) (hsource : scope.sources[i]? = some source) :
    scope.IsUsable name i := by
  have hnamed (shown : String) : scope.sourceNamed name shown = .ok source := by
    unfold Scope.sourceNamed
    rw [hindex, Option.bind_some, hsource]
  refine ⟨hindex, ⟨source, hsource, fun column label shown => ?_⟩, ?_⟩
  · exact reference_eq_answer (hnamed shown) column label
  · intro column label shown qualifier reported
    rw [reference_eq_answer (hnamed shown)]
    exact source.answer_ne_unknownQualifier column label shown qualifier reported

/-! ## Aliases -/

section Aliases

variable {sources : List JoinedSource} {tree : Option JoinTree} {names : SourceNames} {i : Nat}
  {factor : Factor} {label : TableAlias}

/-- The leaf at the place of a single source is the one that the source is read as. -/
theorem exists_leaf_of_singleSource (htree : JoinTree.ofSources sources = .ok tree)
    (hfactor : (singleSources sources)[i]? = some factor) :
    ∃ leaf, ((tree.map JoinTree.leaves).getD [])[i]? = some leaf ∧ ReadAs factor leaf :=
  exists_getElem?_of_forall₂ (readAs_ofSources htree).flip hfactor

/-- An alias, in upper or lower case, stands for its source exactly if this is not special. -/
theorem index?_alias_iff (htree : JoinTree.ofSources sources = .ok tree)
    (hnames : SourceNames.ofTree tree = .ok names)
    (hfactor : (singleSources sources)[i]? = some factor) (hlabel : factor.label? = some label)
    {name : String} (hname : Text.lower name = Text.lower label.name.value) :
    names.index? name = some i ↔ factor.isSpecial = false := by
  have houtcome := SourceNames.ofTree_outcome tree
  rw [hnames] at houtcome
  obtain ⟨leaf, hleaf, hread⟩ := exists_leaf_of_singleSource htree hfactor
  rw [houtcome.2.index?_iff]
  constructor
  · rintro ⟨found, own, hfound, hown, -⟩
    obtain rfl := Option.some.inj (hleaf.symm.trans hfound)
    by_contra hspecial
    -- A special source is exposed under no name at all.
    rw [hread.exposedName?_eq_none (eq_true_of_ne_false hspecial)] at hown
    cases hown
  · intro hplain
    exact ⟨leaf, label.name.value, hleaf, hread.exposedName? hlabel hplain, hname.symm⟩

/-- In a select whose sources resolve, the alias of a single source can be used for it, in upper or
lower case, exactly if the source is not special. -/
theorem alias_usable_iff (htree : JoinTree.ofSources sources = .ok tree)
    (hnames : SourceNames.ofTree tree = .ok names)
    (hfactor : (singleSources sources)[i]? = some factor) (hlabel : factor.label? = some label)
    {name : String} (hname : Text.lower name = Text.lower label.name.value) :
    (names.index? name = some i ↔ factor.isSpecial = false) ∧
      ∀ (r : Resolver) (ctes : List CteShape) (scope : Scope),
        r.scope ctes sources = .ok scope → (scope.IsUsable name i ↔ factor.isSpecial = false) := by
  have hindex := index?_alias_iff htree hnames hfactor hlabel hname
  refine ⟨hindex, fun r ctes scope h => ?_⟩
  obtain ⟨tree', tables, hscope, -⟩ := Resolver.exists_shows_of_scope h
  obtain rfl := Except.ok.inj (htree.symm.trans hscope.ofSources)
  obtain rfl := Except.ok.inj (hnames.symm.trans hscope.ofTree_eq)
  constructor
  · intro husable
    exact hindex.mp husable.index
  · intro hplain
    obtain ⟨leaf, hleaf, -⟩ := exists_leaf_of_singleSource htree hfactor
    obtain ⟨hsources, hleaves⟩ := hscope.sources_eq
    rw [← hleaves, List.getElem?_map] at hleaf
    obtain ⟨table, htable, -⟩ := Option.map_eq_some_iff.mp hleaf
    have hsource : scope.sources[i]? = some (table.source (forcedNames tree)) := by
      rw [hsources, List.getElem?_map, htable, Option.map_some]
    exact Scope.isUsable_of_index (hindex.mpr hplain) hsource

end Aliases

/-! ## Selects from two tables -/

/-- Whether a text is a select from `a (id)` and `b (id, v)` for whose sources, with the scope they
make, a test succeeds. -/
def selectsFrom (text : String) (test : List JoinedSource → Scope → Bool) : Bool :=
  (Grammar.parseQuery text).toOption.any fun query =>
    match query.body with
    | .select select => (twoTables.scope [] select.sources).toOption.any (test select.sources)
    | _ => false

theorem exists_scope_of_selectsFrom (text : String) (test : List JoinedSource → Scope → Bool)
    (h : selectsFrom text test = true) :
    ∃ query select scope, Grammar.parseQuery text = .ok query ∧ query.body = .select select ∧
      twoTables.scope [] select.sources = .ok scope ∧ test select.sources scope = true := by
  obtain ⟨query, hquery, h⟩ := (Option.any_eq_true _ _).mp h
  split at h
  · rename_i select hselect
    obtain ⟨scope, hscope, htest⟩ := (Option.any_eq_true _ _).mp h
    exact ⟨query, select, scope, toOption_eq_some hquery, hselect, toOption_eq_some hscope, htest⟩
  · cases h

/-- Whether a source has an alias, and whether it is special. -/
def hasAlias (name : String) (special : Bool) (factor : Factor) : Bool :=
  (factor.label?.any fun label => label.name.value == name) && factor.isSpecial == special

theorem exists_label_of_hasAlias {name : String} {special : Bool} {factors : List Factor} {i : Nat}
    (h : factors[i]?.any (hasAlias name special) = true) :
    ∃ factor label, factors[i]? = some factor ∧ factor.label? = some label ∧
      label.name.value = name ∧ factor.isSpecial = special := by
  obtain ⟨factor, hfactor, h⟩ := (Option.any_eq_true _ _).mp h
  obtain ⟨hlabel, hspecial⟩ := Bool.and_eq_true_iff.mp h
  obtain ⟨label, hlabel, hname⟩ := (Option.any_eq_true _ _).mp hlabel
  exact ⟨factor, label, hfactor, hlabel, eq_of_beq hname, eq_of_beq hspecial⟩

/-- In `FROM OPENJSON(..) j CROSS JOIN (b x JOIN f(1) Y ON ..)` the alias of the function can be used,
in lower case too. -/
theorem alias_usable_of_function :
    ∃ query select scope, Grammar.parseQuery
        "select 1 as c from openjson('x') j cross join (b x join f(1) Y on x.id = Y.id)" =
          .ok query ∧
      query.body = .select select ∧ twoTables.scope [] select.sources = .ok scope ∧
      scope.IsUsable "y" 2 := by
  obtain ⟨query, select, scope, hquery, hselect, hscope, htest⟩ := exists_scope_of_selectsFrom
    "select 1 as c from openjson('x') j cross join (b x join f(1) Y on x.id = Y.id)"
    (fun sources _ => (singleSources sources)[2]?.any (hasAlias "Y" false)) (by decide +kernel)
  obtain ⟨factor, label, hfactor, hlabel, hname, hplain⟩ := exists_label_of_hasAlias htest
  obtain ⟨tree, tables, h, -⟩ := Resolver.exists_shows_of_scope hscope
  have hcase : Text.lower "y" = Text.lower label.name.value := by
    rw [hname]
    decide +kernel
  have husable := (alias_usable_iff h.ofSources h.ofTree_eq hfactor hlabel hcase).2 _ _ _ hscope
  exact ⟨query, select, scope, hquery, hselect, hscope, husable.mpr hplain⟩

/-- Whether a failure is that of a qualifier that names no source. -/
def isUnknownQualifier : Except ResolveError ResultColumn → Bool
  | .error (.unknownQualifier _ _) => true
  | _ => false

/-- In `SELECT j.value FROM OPENJSON(..) j` the alias stands for no source, and the reference that it
qualifies is refused. -/
theorem not_usable_of_document :
    ∃ query select scope factor label, Grammar.parseQuery
        "select j.value from openjson('x') j" = .ok query ∧
      query.body = .select select ∧ twoTables.scope [] select.sources = .ok scope ∧
      (singleSources select.sources)[0]? = some factor ∧ factor.label? = some label ∧
      label.name.value = "j" ∧ scope.names.index? "j" = none ∧
      isUnknownQualifier (scope.reference (some "j") "value" none "j.value") = true ∧
      ¬ scope.IsUsable "j" 0 := by
  obtain ⟨query, select, scope, hquery, hselect, hscope, htest⟩ := exists_scope_of_selectsFrom
    "select j.value from openjson('x') j"
    (fun sources scope => (singleSources sources)[0]?.any (hasAlias "j" true) &&
      scope.names.index? "j" == none &&
      isUnknownQualifier (scope.reference (some "j") "value" none "j.value")) (by decide +kernel)
  obtain ⟨htest, hunknown⟩ := Bool.and_eq_true_iff.mp htest
  obtain ⟨hspecial, hindex⟩ := Bool.and_eq_true_iff.mp htest
  obtain ⟨factor, label, hfactor, hlabel, hname, -⟩ := exists_label_of_hasAlias hspecial
  refine ⟨query, select, scope, factor, label, hquery, hselect, hscope, hfactor, hlabel, hname,
    eq_of_beq hindex, hunknown, fun husable => ?_⟩
  have htaken := husable.index
  rw [eq_of_beq hindex] at htaken
  cases htaken

end SchemaPlan
