import SchemaPlan.Proofs.Definition.Constraint
import SchemaPlan.Proofs.Definition.Table
import SchemaPlan.Script.Statements
import Mathlib.Data.List.Forall2

/-!
# Batches that the grammar rejects

A batch of tables, or of changes that add constraints to tables, is read token by token where the
grammar rejects it. This reads one statement. Of several tables only the first is kept. Of several
changes the constraints of the first are kept, and of each later one those behind its first, which go
to the first table. So a batch is kept in full only if it is a single statement.

* `readBatch_of_tables`, `readBatch_of_additions`: what is kept of a batch.
* `keepsBatch_iff_single`: when all of it is kept.
-/

namespace SchemaPlan

open SchemaPlan.Sql SchemaPlan.Sql.Reading

/-! ## Batches of statements -/

/-- The tokens of a text, if it has tokens. -/
def tokensOf? (text : String) : Option (List Token) := (Cursor.ofText? text).map Cursor.rest

/-- Tokens are those of statements, with blanks and semicolons behind each. -/
inductive MadeOf : List String → List Token → Prop where
  | nil : MadeOf [] []
  | cons {statement : String} {statements : List String} {own gap rest : List Token} :
      tokensOf? statement = some own → Body.IsGap gap → MadeOf statements rest →
      MadeOf (statement :: statements) (own ++ (gap ++ rest))

theorem exists_cursor_of_tokensOf? {text : String} {tokens : List Token}
    (h : tokensOf? text = some tokens) : ∃ c, Cursor.ofText? text = some c ∧ c.rest = tokens :=
  Option.map_eq_some_iff.mp h

/-! ## First words -/

/-- The first of the capitals that a letter beyond ASCII stands for. -/
def foreignCapitals : List Char := ['S', 'I', 'F']

/-- A word that spells a keyword without the capitals that letters beyond ASCII stand for is the
keyword in ASCII letters. -/
theorem asciiUpper_of_spells {keyword text : String} (h : spells keyword text = true)
    (hplain : (keyword.toList.all fun c => !foreignCapitals.contains c) = true) :
    Text.asciiUpper text = keyword := by
  have hcapitals : capitals text = keyword := beq_iff_eq.mp h
  have hletters : text.toList.flatMap asciiCapitals = keyword.toList := by
    rw [← hcapitals, capitals, String.toList_ofList]
  have hsingle : ∀ c ∈ text.toList, asciiCapitals c = [c.toUpper] := by
    intro c hc
    have hsub : ∀ d ∈ asciiCapitals c, (!foreignCapitals.contains d) = true := fun d hd =>
      List.all_eq_true.mp hplain d (hletters ▸ List.mem_flatMap.mpr ⟨c, hc, hd⟩)
    unfold asciiCapitals at hsub ⊢
    split at hsub <;> first | rfl | exact absurd (hsub _ List.mem_cons_self) (by decide)
  rw [Text.asciiUpper, ← String.toList_inj, String.toList_ofList, ← hletters,
    List.flatMap_congr hsingle, List.map_eq_flatMap]

theorem leadingWords_eq {text : String} {c : Cursor} (h : Cursor.ofText? text = some c) :
    leadingWords text = wordsAhead 4 (c.rest.dropWhile Token.isBlank) := by
  unfold Cursor.ofText? at h
  unfold leadingWords
  cases hscan : scan text with
  | ok tokens =>
    rw [hscan] at h
    obtain rfl := Option.some.inj h
    rfl
  | error e =>
    rw [hscan] at h
    cases h

/-- The first words of a text that starts with two keywords. -/
theorem exists_leadingWords {text first second : String} {c : Cursor} {token next : Token}
    {rest last : List Token} (h : Cursor.ofText? text = some c)
    (hc : c.rest.dropWhile Token.isBlank = token :: rest)
    (hrest : rest.dropWhile Token.isBlank = next :: last)
    (htoken : token.isKeyword first = true) (hnext : next.isKeyword second = true)
    (hfirst : (first.toList.all fun c => !foreignCapitals.contains c) = true)
    (hsecond : (second.toList.all fun c => !foreignCapitals.contains c) = true) :
    ∃ more, leadingWords text = first :: second :: more := by
  rw [leadingWords_eq h, hc]
  unfold Token.isKeyword at htoken hnext
  split at htoken
  · split at hnext
    · refine ⟨wordsAhead 2 (last.dropWhile Token.isBlank), ?_⟩
      rw [wordsAhead, hrest, wordsAhead, asciiUpper_of_spells htoken hfirst,
        asciiUpper_of_spells hnext hsecond]
    · cases hnext
  · cases htoken

/-! ## What is kept -/

section Kept

variable {text : String} {failure : Grammar.SyntaxError}

/-- A batch that starts with a table and that the grammar rejects is read as that table. -/
theorem readBatch_of_table {definition : TableDefinition}
    (hrejected : Grammar.parseStatements text = .error failure)
    (h : run? Definition.table text = some definition) : readBatch text = .ok [.table definition] := by
  obtain ⟨c, d, hcursor, hgives⟩ := run?_eq_some.mp h
  obtain ⟨create, table, rest, last, hcreate, htable, hc, hrest⟩ := exists_words hgives
  obtain ⟨more, hwords⟩ := exists_leadingWords hcursor hc hrest hcreate htable (by decide) (by decide)
  unfold readBatch
  rw [hwords, hrejected]
  have hkind : batchKind ("CREATE" :: "TABLE" :: more) = .general := by
    simp [batchKind, procedureWords]
  simp only [hkind, readLoosely?, h, Option.map_some]

theorem readBatch_of_addition {table : QualifiedName} {added : List ConstraintDefinition}
    (hrejected : Grammar.parseStatements text = .error failure)
    (h : run? Definition.addedConstraints text = some (table, added)) :
    readBatch text = .ok (added.map (.addConstraint table)) := by
  obtain ⟨c, d, hcursor, hgives⟩ := run?_eq_some.mp h
  obtain ⟨alter, word, rest, last, halter, hword, hc, hrest⟩ := exists_words hgives
  obtain ⟨more, hwords⟩ := exists_leadingWords hcursor hc hrest halter hword (by decide) (by decide)
  unfold readBatch
  rw [hwords, hrejected]
  have hkind : batchKind ("ALTER" :: "TABLE" :: more) = .general := by
    simp [batchKind, procedureWords]
  simp only [hkind, readLoosely?, h]

end Kept

/-! ## Several tables -/

section Batches

variable {text : String} {tokens : List Token} {statements : List String}

theorem run?_table_append {first : String} {definition : TableDefinition} {own more : List Token}
    (htext : tokensOf? text = some (own ++ more)) (hown : tokensOf? first = some own)
    (h : run? Definition.table first = some definition) :
    run? Definition.table text = some definition := by
  obtain ⟨c, d, hcursor, hgives⟩ := run?_eq_some.mp h
  obtain ⟨_, hcursor', rfl⟩ := exists_cursor_of_tokensOf? hown
  obtain rfl := Option.some.inj (hcursor.symm.trans hcursor')
  obtain ⟨c', htext, hrest⟩ := exists_cursor_of_tokensOf? htext
  obtain ⟨d', hgives', -⟩ := Definition.gives_table_append hgives hrest
  exact run?_eq_some.mpr ⟨c', d', htext, hgives'⟩

/-- Blanks and semicolons have no comma. -/
theorem flat_of_isGap {gap : List Token} (h : Body.IsGap gap) : Flat gap := by
  refine flat_admits.all fun token htoken => ?_
  rcases h token htoken with hblank | rfl
  · obtain ⟨_, rfl⟩ := Token.eq_blank hblank
    exact ⟨rfl, rfl, rfl⟩
  · exact ⟨rfl, rfl, rfl⟩

/-- Behind blanks and semicolons a statement has ended if it has ended before what follows them. -/
theorem ends_gap_append {gap rest : List Token} (h : Body.IsGap gap) (hrest : Ends rest) :
    Ends (gap ++ rest) := by
  induction gap with
  | nil => exact hrest
  | cons token gap ih =>
    obtain ⟨htoken, hgap⟩ := List.forall_mem_cons.mp h
    unfold Ends
    rw [List.cons_append, List.dropWhile_cons]
    split
    · exact ih hgap
    · rename_i hblank
      intro found hfound
      obtain rfl : token = found := Option.some.inj hfound
      rw [htoken.resolve_left hblank]
      rfl

/-- What the statements behind a constraint add to its table. -/
theorem continues_of_madeOf (hbatch : MadeOf statements tokens)
    (hbalanced : ∀ statement ∈ statements, ∀ own, tokensOf? statement = some own → Body.Balanced own)
    {changes : List (QualifiedName × List ConstraintDefinition)}
    (hchanges : List.Forall₂ (fun statement change =>
      run? Definition.addedConstraints statement = some change) statements changes) :
    Ends tokens ∧ Definition.Continues tokens (changes.flatMap fun change => change.2.tail) := by
  induction hbatch generalizing changes with
  | nil =>
    cases hchanges
    exact ⟨nofun, .stop nofun⟩
  | @cons statement statements own gap rest hown hgap _ ih =>
    cases hchanges with
    | @cons _ change _ changes hchange hchanges =>
      obtain ⟨hends, hcontinues⟩ := ih (fun other hother => hbalanced other (.tail _ hother)) hchanges
      obtain ⟨c, d, hcursor, hgives⟩ := run?_eq_some.mp hchange
      obtain ⟨_, hcursor', rfl⟩ := exists_cursor_of_tokensOf? hown
      obtain rfl := Option.some.inj (hcursor.symm.trans hcursor')
      refine ⟨Definition.ends_of_addedConstraints hgives _, ?_⟩
      exact Definition.continues_addedConstraints hgives (hbalanced statement (.head _) _ hown)
        (ends_gap_append hgap hends) (hcontinues.append_left (flat_of_isGap hgap))

/-- Of several changes to tables, all constraints of the first are read, and of each later one those
behind its first, all of them as constraints of the first table. -/
theorem run?_addedConstraints_of_madeOf {first : String} {later : List String}
    {table : QualifiedName} {added : List ConstraintDefinition}
    {others : List (QualifiedName × List ConstraintDefinition)}
    (htext : tokensOf? text = some tokens) (hbatch : MadeOf (first :: later) tokens)
    (hbalanced : ∀ statement ∈ first :: later, ∀ own, tokensOf? statement = some own →
      Body.Balanced own)
    (hchanges : List.Forall₂ (fun statement change =>
      run? Definition.addedConstraints statement = some change) (first :: later)
      ((table, added) :: others)) :
    run? Definition.addedConstraints text =
      some (table, added ++ others.flatMap fun change => change.2.tail) := by
  cases hbatch with
  | @cons _ _ own gap rest hown hgap hrest =>
    obtain ⟨hfirst, hothers⟩ := List.forall₂_cons.mp hchanges
    obtain ⟨hends, hcontinues⟩ := continues_of_madeOf hrest
      (fun other hother => hbalanced other (.tail _ hother)) hothers
    obtain ⟨c, d, hcursor, hgives⟩ := run?_eq_some.mp hfirst
    obtain ⟨_, hcursor', rfl⟩ := exists_cursor_of_tokensOf? hown
    obtain rfl := Option.some.inj (hcursor.symm.trans hcursor')
    obtain ⟨c', htext, hrest⟩ := exists_cursor_of_tokensOf? htext
    obtain ⟨d', hgives'⟩ := Definition.gives_addedConstraints_append hgives
      (hbalanced first (.head _) _ hown) (ends_gap_append hgap hends)
      (hcontinues.append_left (flat_of_isGap hgap)) hrest
    exact run?_eq_some.mpr ⟨c', d', htext, hgives'⟩

/-- A change adds a constraint. -/
theorem ne_nil_of_addedConstraints {change : QualifiedName × List ConstraintDefinition}
    (h : run? Definition.addedConstraints text = some change) : change.2 ≠ [] := by
  obtain ⟨c, d, -, hgives⟩ := run?_eq_some.mp h
  obtain ⟨m, -, hadded⟩ := Definition.gives_addedConstraints.mp hgives
  rw [Definition.constraints_eq] at hadded
  simp only [gives_bind, gives_pure] at hadded
  obtain ⟨first, _, -, others, _, -, hadded, -⟩ := hadded
  rw [hadded]
  exact List.cons_ne_nil _ _

/-- Of each change one constraint is lost behind another. -/
theorem length_tails {changes : List (QualifiedName × List ConstraintDefinition)}
    (h : List.Forall₂ (fun statement change =>
      run? Definition.addedConstraints statement = some change) statements changes) :
    (changes.flatMap fun change => change.2.tail).length + statements.length =
      (changes.flatMap fun change => change.2.map (Statement.addConstraint change.1)).length := by
  induction h with
  | nil => rfl
  | @cons _ change _ _ hchange _ ih =>
    have hpos := List.length_pos_iff.mpr (ne_nil_of_addedConstraints hchange)
    rw [List.flatMap_cons, List.flatMap_cons, List.length_append, List.length_append,
      List.length_tail, List.length_map, List.length_cons]
    omega

end Batches

/-! ## When a batch is kept -/

/-- A batch of tables, or of changes that add constraints, is made of statements with blanks and
semicolons behind each. If the grammar rejects it, it is read as the first table, or as the constraints
of the first change with those of each later one behind its first. So what is read is all of the
statements, or a failure, only if there is one statement. -/
theorem keepsBatch_iff_single {text first : String} {later : List String} {tokens : List Token}
    {failure : Grammar.SyntaxError} (htext : tokensOf? text = some tokens)
    (hbatch : MadeOf (first :: later) tokens)
    (hrejected : Grammar.parseStatements text = .error failure) :
    (∀ definition others,
      List.Forall₂ (fun statement table => run? Definition.table statement = some table)
        (first :: later) (definition :: others) →
      readBatch text = .ok [.table definition] ∧
      ((readBatch text = .ok ((definition :: others).map .table) ∨
          ∃ fault, readBatch text = .error fault) ↔ later = [])) ∧
    ∀ table added others,
      List.Forall₂ (fun statement change => run? Definition.addedConstraints statement = some change)
        (first :: later) ((table, added) :: others) →
      (∀ statement ∈ first :: later, ∀ own, tokensOf? statement = some own → Body.Balanced own) →
      readBatch text =
        .ok ((added ++ others.flatMap fun change => change.2.tail).map (.addConstraint table)) ∧
      ((readBatch text = .ok (((table, added) :: others).flatMap fun change =>
            change.2.map (.addConstraint change.1)) ∨
          ∃ fault, readBatch text = .error fault) ↔ later = []) := by
  constructor
  · intro definition others htables
    have hread : readBatch text = .ok [.table definition] := by
      cases hbatch with
      | cons hown _ _ =>
        exact readBatch_of_table hrejected
          (run?_table_append htext hown (List.forall₂_cons.mp htables).1)
    refine ⟨hread, ?_⟩
    -- One table is read, so a batch is kept if there is one to begin with.
    have hlength := (List.forall₂_cons.mp htables).2.length_eq
    rw [hread]
    constructor
    · rintro (h | ⟨fault, h⟩)
      · have hone := congrArg List.length (Except.ok.inj h)
        rw [List.length_singleton, List.length_map, List.length_cons, ← hlength] at hone
        exact List.length_eq_zero_iff.mp (by omega)
      · cases h
    · rintro rfl
      rw [List.length_nil] at hlength
      rw [List.length_eq_zero_iff.mp hlength.symm]
      exact .inl rfl
  · intro table added others hchanges hbalanced
    have hread := readBatch_of_addition hrejected
      (run?_addedConstraints_of_madeOf htext hbatch hbalanced hchanges)
    refine ⟨hread, ?_⟩
    rw [hread]
    -- Each later change loses the head of its constraints, and none of them is without one.
    have hlost := length_tails (List.forall₂_cons.mp hchanges).2
    constructor
    · rintro (h | ⟨fault, h⟩)
      · have hcount := congrArg List.length (Except.ok.inj h)
        rw [List.map_append, List.length_append, List.flatMap_cons, List.length_append,
          ← hlost] at hcount
        dsimp only at hcount
        rw [List.length_map, List.length_map] at hcount
        exact List.length_eq_zero_iff.mp (by omega)
      · cases h
    · rintro rfl
      cases (List.forall₂_cons.mp hchanges).2
      refine .inl (congrArg _ ?_)
      rw [List.flatMap_nil, List.append_nil, List.flatMap_cons, List.flatMap_nil, List.append_nil]

/-- Unquoted words with a blank between every two. -/
def spaced : List String → List Token
  | [] => []
  | [last] => [.word last .bare]
  | word :: rest => .word word .bare :: .blank .space :: spaced rest

theorem balanced_spaced (words : List String) : Body.Balanced (spaced words) := by
  fun_induction spaced words with
  | case1 => exact .nil
  | case2 => exact .token nofun nofun .nil
  | case3 _ _ _ ih => exact .token nofun nofun (.token nofun nofun ih)

theorem exists_failure {text : String} (h : (Grammar.parseStatements text).isOk = false) :
    ∃ failure, Grammar.parseStatements text = .error failure := by
  cases hresult : Grammar.parseStatements text with
  | ok statements => rw [hresult] at h; cases h
  | error failure => exact ⟨failure, rfl⟩

/-- Of the constraints of table `b` one is dropped, and the other goes to table `a`. -/
theorem changes_of_two_tables_kept_for_first :
    readBatch "alter table a with nocheck add unique;alter table b add unique,check" =
        .ok [.addConstraint ⟨none, none, "a"⟩ (.other none),
          .addConstraint ⟨none, none, "a"⟩ (.other none)] ∧
      readBatch "alter table a with nocheck add unique;alter table b add unique,check" ≠
        .ok [.addConstraint ⟨none, none, "a"⟩ (.other none),
          .addConstraint ⟨none, none, "b"⟩ (.other none),
          .addConstraint ⟨none, none, "b"⟩ (.other none)] := by
  have hfirst : tokensOf? "alter table a with nocheck add unique" =
      some (spaced ["alter", "table", "a", "with", "nocheck", "add", "unique"]) := by decide +kernel
  have hsecond : tokensOf? "alter table b add unique,check" =
      some (spaced ["alter", "table", "b", "add", "unique"] ++
        [.mark .comma, .word "check" .bare]) := by decide +kernel
  -- The batch is the two statements with a semicolon between them and nothing at its end.
  have hbatch : MadeOf ["alter table a with nocheck add unique", "alter table b add unique,check"]
      (_ ++ ([.mark .semicolon] ++ (_ ++ ([] ++ [])))) :=
    .cons hfirst (List.forall_mem_singleton.mpr (.inr rfl))
      (.cons hsecond (List.forall_mem_nil _) .nil)
  obtain ⟨failure, hrejected⟩ := @exists_failure
    "alter table a with nocheck add unique;alter table b add unique,check" (by decide +kernel)
  have hbalanced : ∀ statement ∈ ["alter table a with nocheck add unique",
      "alter table b add unique,check"], ∀ own, tokensOf? statement = some own →
      Body.Balanced own := by
    rw [List.forall_mem_cons, List.forall_mem_singleton, hfirst, hsecond]
    constructor
    · rintro _ ⟨⟩
      exact balanced_spaced _
    · rintro _ ⟨⟩
      exact (balanced_spaced _).append (.token nofun nofun (.token nofun nofun .nil))
  obtain ⟨hread, hkept⟩ := (keepsBatch_iff_single (by decide +kernel) hbatch hrejected).2
    ⟨none, none, "a"⟩ [.other none] [(⟨none, none, "b"⟩, [.other none, .other none])]
    (.cons (by decide +kernel) (.cons (by decide +kernel) .nil)) hbalanced
  exact ⟨hread, fun hall => absurd (hkept.mp (.inl hall)) (List.cons_ne_nil _ _)⟩

/-- The tokens of a table whose body is words. -/
def tableTokens (name : String) (body : List String) : List Token :=
  spaced ["create", "table", name] ++
    (.blank .space :: .mark .openParen :: (spaced body ++ [.mark .closeParen]))

/-- Of two tables, the first of which the grammar rejects, the second is dropped without a failure. -/
theorem not_keepsBatch_of_tables :
    ¬ ∀ {text : String} {statements : List String} {tokens : List Token}
        {failure : Grammar.SyntaxError} {tables : List TableDefinition},
      tokensOf? text = some tokens → MadeOf statements tokens →
      Grammar.parseStatements text = .error failure →
      List.Forall₂ (fun statement table => run? Definition.table statement = some table)
        statements tables →
      readBatch text = .ok (tables.map .table) ∨ ∃ fault, readBatch text = .error fault := by
  intro h
  have hfirst : tokensOf? "create table a (id int primary key clustered)" =
      some (tableTokens "a" ["id", "int", "primary", "key", "clustered"]) := by decide +kernel
  have hsecond : tokensOf? "create table b (id int not null)" =
      some (tableTokens "b" ["id", "int", "not", "null"]) := by decide +kernel
  have htext : tokensOf?
      "create table a (id int primary key clustered)\ncreate table b (id int not null)" =
      some (tableTokens "a" ["id", "int", "primary", "key", "clustered"] ++ ([.blank .newline] ++
        (tableTokens "b" ["id", "int", "not", "null"] ++ ([] ++ [])))) := by decide +kernel
  have hbatch : MadeOf ["create table a (id int primary key clustered)",
      "create table b (id int not null)"] _ :=
    .cons hfirst (List.forall_mem_singleton.mpr (.inl (rfl : (Token.blank .newline).isBlank = true)))
      (.cons hsecond (List.forall_mem_nil _) .nil)
  obtain ⟨failure, hrejected⟩ := @exists_failure
    "create table a (id int primary key clustered)\ncreate table b (id int not null)"
    (by decide +kernel)
  obtain ⟨table, htable⟩ := Option.isSome_iff_exists.mp
    (by decide +kernel :
      (run? Definition.table "create table a (id int primary key clustered)").isSome = true)
  obtain ⟨other, hother⟩ := Option.isSome_iff_exists.mp
    (by decide +kernel : (run? Definition.table "create table b (id int not null)").isSome = true)
  have hread := readBatch_of_table hrejected (run?_table_append htext hfirst htable)
  rcases h htext hbatch hrejected (.cons htable (.cons hother .nil)) with hkept | ⟨fault, hfault⟩
  · rw [hread] at hkept
    -- One table was read, and two were to be kept.
    have hlength := congrArg List.length (Except.ok.inj hkept)
    cases hlength
  · rw [hread] at hfault
    cases hfault

end SchemaPlan
