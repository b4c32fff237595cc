import SchemaPlan.Definition.Constraint
import SchemaPlan.Proofs.Body.Grammar
import Mathlib.Data.List.DropRight

/-!
# What a reading looks at

A reading depends on the tokens from the cursor on, and among these on the ones that it takes and on
what it sees behind them. So what is read of a text is read as well where more tokens follow, as long
as these end a statement.

* `Reading.Gives`: a step reads a value and moves the cursor.
* `Reading.Local`: which tokens a step takes, and that it does the same where more tokens follow.
-/

namespace SchemaPlan.Sql

/-! ## The tokens from the cursor on -/

namespace Cursor

/-- The tokens from the cursor on. -/
def rest (c : Cursor) : List Token := (c.tokens.toList.drop c.pos).map (·.token)

theorem rest_of_lt {c : Cursor} (h : c.pos < c.tokens.size) :
    c.rest = c.tokens[c.pos].token :: { c with pos := c.pos + 1 }.rest := by
  unfold rest
  rw [List.drop_eq_getElem_cons (by simpa using h)]
  rfl

theorem rest_of_not_lt {c : Cursor} (h : ¬ c.pos < c.tokens.size) : c.rest = [] := by
  unfold rest
  rw [List.drop_eq_nil_of_le (by simpa using h)]
  rfl

theorem current?_eq (c : Cursor) : c.current? = c.rest.head? := by
  unfold current?
  by_cases h : c.pos < c.tokens.size
  · rw [rest_of_lt h, Array.getElem?_eq_getElem h]
    rfl
  · rw [rest_of_not_lt h, Array.getElem?_eq_none (Nat.le_of_not_lt h)]
    rfl

theorem sees_eq (c : Cursor) (p : Token → Bool) : c.sees p = c.rest.head?.any p := by
  rw [sees, current?_eq]

theorem left_eq (c : Cursor) : c.left = c.rest.length := by
  simp [left, rest]

theorem rest_advance (c : Cursor) : c.advance.rest = c.rest.tail := by
  unfold advance atEnd
  by_cases h : c.pos < c.tokens.size
  · rw [if_neg (by simpa using h), rest_of_lt h, List.tail_cons]
  · rw [if_pos (by simpa using h), rest_of_not_lt h, List.tail_nil]

theorem rest_skipWhile (p : Token → Bool) (c : Cursor) :
    (c.skipWhile p).rest = c.rest.dropWhile p := by
  fun_induction skipWhile p c with
  | case1 c h hp ih => rw [ih, rest_of_lt h, List.dropWhile_cons_of_pos hp]
  | case2 c h hp => rw [rest_of_lt h, List.dropWhile_cons_of_neg hp]
  | case3 c h => rw [rest_of_not_lt h, List.dropWhile_nil]

theorem rest_skipBlanks (c : Cursor) : c.skipBlanks.rest = c.rest.dropWhile Token.isBlank :=
  rest_skipWhile _ c

theorem tokens_skipWhile (p : Token → Bool) (c : Cursor) : (c.skipWhile p).tokens = c.tokens := by
  fun_induction skipWhile p c with
  | case1 c h hp ih => exact ih
  | case2 => rfl
  | case3 => rfl

theorem tokens_skipBlanks (c : Cursor) : c.skipBlanks.tokens = c.tokens := tokens_skipWhile _ c

theorem tokens_skipClosing (c : Cursor) (depth : Nat) :
    (c.skipClosing depth).tokens = c.tokens := by
  fun_induction skipClosing depth c <;> grind

/-- Moving back to a position brings back the tokens from there on. -/
theorem rest_moveTo {c d : Cursor} (h : d.tokens = c.tokens) : (d.moveTo c.pos).rest = c.rest := by
  unfold moveTo rest
  dsimp only
  rw [h, ← Array.length_toList, ← List.drop_eq_drop_min]

end Cursor

/-! ## What follows a statement -/

/-- A semicolon, or the first word of a change to a table. -/
def Token.endsStatement (token : Token) : Bool :=
  token.isMark .semicolon || token.isKeyword "ALTER"

/-- Behind blanks, tokens end or start with one that ends a statement. -/
def Ends (tokens : List Token) : Prop :=
  ∀ token ∈ (tokens.dropWhile Token.isBlank).head?, token.endsStatement = true

/-- A test that is false of blanks and of what ends a statement. -/
def Ignores (p : Token → Bool) : Prop :=
  ∀ token : Token, token.isBlank = true ∨ token.endsStatement = true → p token = false

section Ends

variable {more : List Token}

theorem Ends.dropWhile (h : Ends more) : Ends (more.dropWhile Token.isBlank) := by
  unfold Ends
  rwa [List.dropWhile_idempotent]

theorem Ends.any_eq_false {p : Token → Bool} (hp : Ignores p) (h : Ends more) :
    more.head?.any p = false := by
  cases more with
  | nil => rfl
  | cons token rest =>
    refine hp token ?_
    by_cases hblank : token.isBlank = true
    · exact .inl hblank
    · refine .inr (h token ?_)
      rw [List.dropWhile_cons_of_neg hblank]
      rfl

end Ends

theorem ignores_mark {m : Mark} (h : m ≠ .semicolon) : Ignores (·.isMark m) := by
  intro token htoken
  cases token with
  | mark found =>
    rcases htoken with hblank | hends
    · cases hblank
    · rw [Token.endsStatement, Bool.or_eq_true] at hends
      rcases hends with hsemicolon | hword
      · exact beq_eq_false_iff_ne.mpr fun heq => h (heq.symm.trans (beq_iff_eq.mp hsemicolon))
      · cases hword
  | _ => rfl

theorem ignores_keyword {keyword : String} (h : keyword ≠ "ALTER") : Ignores (·.isKeyword keyword) := by
  intro token htoken
  cases token with
  | word text quote =>
    cases quote with
    | bare =>
      rcases htoken with hblank | hends
      · cases hblank
      · rw [Token.endsStatement, Bool.or_eq_true] at hends
        rcases hends with hmark | hword
        · cases hmark
        · exact beq_eq_false_iff_ne.mpr fun heq => h (heq.symm.trans (beq_iff_eq.mp hword))
    | _ => rfl
  | _ => rfl

theorem Ignores.either {p q : Token → Bool} (hp : Ignores p) (hq : Ignores q) :
    Ignores fun token => p token || q token :=
  fun token htoken => Bool.or_eq_false_iff.mpr ⟨hp token htoken, hq token htoken⟩

theorem isWord_of_isKeyword {keyword : String} {token : Token} (h : token.isKeyword keyword = true) :
    token.isWord = true := by
  cases token <;> first | rfl | cases h

theorem isBlank_of_dropWhile {tokens : List Token}
    (h : Body.IsBlank (tokens.dropWhile Token.isBlank)) : Body.IsBlank tokens := by
  have hnil : tokens.dropWhile Token.isBlank = [] := by
    rw [← List.dropWhile_idempotent Token.isBlank, List.dropWhile_eq_nil_iff]
    exact h
  exact List.dropWhile_eq_nil_iff.mp hnil

theorem Body.IsBlank.of_append_right {tokens more : List Token} (h : Body.IsBlank (tokens ++ more)) :
    Body.IsBlank more := fun token htoken => h token (List.mem_append_right _ htoken)

/-! ## Steps -/

namespace Reading

/-- A step reads a value and moves the cursor from `c` to `d`. -/
def Gives {α : Type} (step : Reading α) (c : Cursor) (value : α) (d : Cursor) : Prop :=
  OptionT.run step c = (some value, d)

section Gives

variable {α β : Type} {c d : Cursor} {value : α}

theorem gives_pure {found : α} : Gives (pure found) c value d ↔ value = found ∧ d = c := by
  constructor
  · intro h
    obtain ⟨hvalue, hd⟩ := Prod.mk.inj h
    exact ⟨(Option.some.inj hvalue).symm, hd.symm⟩
  · rintro ⟨rfl, rfl⟩
    rfl

theorem not_gives_failure : ¬ Gives (failure : Reading α) c value d := nofun

theorem gives_bind {first : Reading β} {next : β → Reading α} :
    Gives (first >>= next) c value d ↔
      ∃ found m, Gives first c found m ∧ Gives (next found) m value d := by
  unfold Gives
  rw [OptionT.run_bind]
  change (OptionT.run first c).1.elim (pure none) (fun found => OptionT.run (next found))
    (OptionT.run first c).2 = (some value, d) ↔ _
  rcases OptionT.run first c with ⟨_ | found, m⟩
  · exact ⟨nofun, nofun⟩
  · constructor
    · exact fun h => ⟨found, m, rfl, h⟩
    · rintro ⟨_, _, hfirst, h⟩
      obtain ⟨hfound, rfl⟩ := Prod.mk.inj hfirst
      obtain rfl := Option.some.inj hfound
      exact h

theorem gives_get {found : Cursor} : Gives get c found d ↔ found = c ∧ d = c := by
  constructor
  · intro h
    obtain ⟨hvalue, hd⟩ := Prod.mk.inj h
    exact ⟨(Option.some.inj hvalue).symm, hd.symm⟩
  · rintro ⟨rfl, rfl⟩
    rfl

theorem gives_modify {f : Cursor → Cursor} {u : Unit} : Gives (modify f) c u d ↔ d = f c := by
  constructor
  · exact fun h => (Prod.mk.inj h).2.symm
  · rintro rfl
    rfl

theorem gives_skipBlanks {u : Unit} : Gives skipBlanks c u d ↔ d = c.skipBlanks := gives_modify

theorem gives_advance {u : Unit} : Gives advance c u d ↔ d = c.advance := gives_modify

theorem gives_position {pos : Nat} : Gives position c pos d ↔ pos = c.pos ∧ d = c := by
  unfold position
  simp only [gives_bind, gives_get, gives_pure]
  grind

theorem gives_sees {p : Token → Bool} {found : Bool} :
    Gives (sees p) c found d ↔ found = c.sees p ∧ d = c := by
  unfold sees
  simp only [gives_bind, gives_get, gives_pure]
  grind

theorem gives_accepts {p : Token → Bool} {found : Bool} :
    Gives (accepts p) c found d ↔
      found = true ∧ c.sees p = true ∧ d = c.advance ∨
        found = false ∧ c.sees p = false ∧ d = c := by
  unfold accepts
  simp only [gives_bind, gives_sees]
  constructor
  · rintro ⟨_, _, ⟨rfl, rfl⟩, h⟩
    split at h
    · rename_i hsees
      simp only [gives_bind, gives_advance, gives_pure] at h
      obtain ⟨_, _, rfl, rfl, rfl⟩ := h
      exact .inl ⟨rfl, hsees, rfl⟩
    · rename_i hsees
      obtain ⟨rfl, rfl⟩ := gives_pure.mp h
      exact .inr ⟨rfl, Bool.eq_false_iff.mpr hsees, rfl⟩
  · rintro (⟨rfl, hsees, rfl⟩ | ⟨rfl, hsees, rfl⟩)
    · refine ⟨_, _, ⟨rfl, rfl⟩, ?_⟩
      rw [if_pos hsees]
      exact gives_bind.mpr ⟨(), _, gives_advance.mpr rfl, gives_pure.mpr ⟨rfl, rfl⟩⟩
    · refine ⟨_, _, ⟨rfl, rfl⟩, ?_⟩
      rw [if_neg (by rw [hsees]; exact nofun)]
      exact gives_pure.mpr ⟨rfl, rfl⟩

theorem gives_expect {p : Token → Bool} {u : Unit} :
    Gives (expect p) c u d ↔ c.sees p = true ∧ d = c.advance := by
  unfold expect
  simp only [gives_bind, gives_accepts]
  constructor
  · rintro ⟨_, _, ⟨rfl, hsees, rfl⟩ | ⟨rfl, -, rfl⟩, h⟩
    · exact ⟨hsees, (gives_pure.mp h).2⟩
    · exact absurd h not_gives_failure
  · rintro ⟨hsees, rfl⟩
    exact ⟨_, _, .inl ⟨rfl, hsees, rfl⟩, gives_pure.mpr ⟨rfl, rfl⟩⟩

theorem run_identifier (c : Cursor) :
    OptionT.run identifier c =
      match c.rest.head? with
      | some (.word text _) => (some text, c.advance)
      | _ => (none, c) := by
  rw [← Cursor.current?_eq]
  change OptionT.run (match c.current? with
    | some (.word text _) => do
      advance
      return text
    | _ => failure) c = _
  rcases c.current? with _ | token
  · rfl
  · cases token <;> rfl

theorem gives_identifier {text : String} :
    Gives identifier c text d ↔
      (∃ quote, c.rest.head? = some (.word text quote)) ∧ d = c.advance := by
  unfold Gives
  rw [run_identifier]
  constructor
  · intro h
    split at h
    · rename_i quote hhead
      obtain ⟨htext, hd⟩ := Prod.mk.inj h
      obtain rfl := Option.some.inj htext
      exact ⟨⟨quote, hhead⟩, hd.symm⟩
    · cases h
  · rintro ⟨⟨quote, hhead⟩, rfl⟩
    rw [hhead]

end Gives

/-! ## Local steps -/

/-- What is left of the tokens that follow. A step that has come to the end of its own tokens may
have moved over blanks behind them. -/
def Passes (ahead more later : List Token) : Prop :=
  later = more ∨ ahead = [] ∧ later = more.dropWhile Token.isBlank

/-- A step that moves from `c` to `d` does the same where more tokens follow. If it may have seen
them, because only blanks are left of its own tokens, they have to end the statement. -/
def Persists {α : Type} (step : Reading α) (c : Cursor) (value : α) (d : Cursor) : Prop :=
  ∀ {c' : Cursor} {more : List Token}, c'.rest = c.rest ++ more →
    (Body.IsBlank d.rest → Ends more) →
    ∃ d' later, Gives step c' value d' ∧ d'.rest = d.rest ++ later ∧ Passes d.rest more later

/-- A step takes tokens with the property `P` and does the same where more tokens follow. -/
structure Local {α : Type} (P : List Token → Prop) (step : Reading α) : Prop where
  takes : ∀ {c value d}, Gives step c value d → ∃ taken, P taken ∧ c.rest = taken ++ d.rest
  persists : ∀ {c value d}, Gives step c value d → Persists step c value d

/-- A property of tokens that are taken one after another, none of them a parenthesis or a comma. -/
structure Admits (P : List Token → Prop) : Prop where
  nil : P []
  append : ∀ {taken more}, P taken → P more → P (taken ++ more)
  single : ∀ {token : Token}, token.isMark .comma = false → token.isMark .openParen = false →
    token.isMark .closeParen = false → P [token]

section Passes

variable {ahead taken more later last : List Token}

theorem Passes.trans (h : Passes (taken ++ ahead) more later) (hnext : Passes ahead later last) :
    Passes ahead more last := by
  rcases h with rfl | ⟨hnil, rfl⟩
  · exact hnext
  · have hahead : ahead = [] := (List.append_eq_nil_iff.mp hnil).2
    rcases hnext with rfl | ⟨-, rfl⟩
    · exact .inr ⟨hahead, rfl⟩
    · exact .inr ⟨hahead, List.dropWhile_idempotent _ _⟩

theorem Passes.ends (h : Passes ahead more later) (hends : Ends more) : Ends later := by
  rcases h with rfl | ⟨-, rfl⟩
  · exact hends
  · exact hends.dropWhile

end Passes

section Local

variable {α β : Type} {P : List Token → Prop} {c c' d : Cursor} {more : List Token}

/-- A test that ignores what may follow sees the same where more tokens follow. -/
theorem sees_of_ignores {p : Token → Bool} (hp : Ignores p) (hrest : c'.rest = c.rest ++ more)
    (hends : Body.IsBlank c.rest → Ends more) : c'.sees p = c.sees p := by
  rw [Cursor.sees_eq, Cursor.sees_eq, hrest]
  cases htokens : c.rest with
  | nil => exact (hends (by rw [htokens]; exact nofun)).any_eq_false hp
  | cons token rest => rfl

theorem persists_refl {step : Reading α} {value : α}
    (h : ∀ {c' : Cursor} {more : List Token}, c'.rest = c.rest ++ more →
      (Body.IsBlank c.rest → Ends more) → Gives step c' value c') : Persists step c value c :=
  fun hrest hends => ⟨_, _, h hrest hends, hrest, .inl rfl⟩

/-- Where some token of its own is left that is no blank, a step has not seen what follows. -/
theorem Local.append {step : Reading α} (hstep : Local P step) {value : α}
    (h : Gives step c value d) (hvisible : ¬ Body.IsBlank d.rest) (hrest : c'.rest = c.rest ++ more) :
    ∃ d', Gives step c' value d' ∧ d'.rest = d.rest ++ more := by
  obtain ⟨d', later, h', hd', hpasses⟩ :=
    hstep.persists h hrest fun hblank => absurd hblank hvisible
  rcases hpasses with rfl | ⟨hnil, -⟩
  · exact ⟨d', h', hd'⟩
  · exact absurd (fun token htoken => by rw [hnil] at htoken; cases htoken) hvisible

theorem local_pure (hP : Admits P) (value : α) : Local P (pure value : Reading α) where
  takes h := by
    obtain ⟨rfl, rfl⟩ := gives_pure.mp h
    exact ⟨[], hP.nil, rfl⟩
  persists h := by
    obtain ⟨rfl, rfl⟩ := gives_pure.mp h
    exact persists_refl fun _ _ => gives_pure.mpr ⟨rfl, rfl⟩

theorem local_failure : Local P (failure : Reading α) where
  takes h := absurd h not_gives_failure
  persists h := absurd h not_gives_failure

theorem Local.bind (hP : Admits P) {first : Reading β} {next : β → Reading α}
    (hfirst : Local P first) (hnext : ∀ found, Local P (next found)) : Local P (first >>= next) where
  takes h := by
    obtain ⟨found, m, h, hlater⟩ := gives_bind.mp h
    obtain ⟨taken, htaken, hc⟩ := hfirst.takes h
    obtain ⟨more, hmore, hm⟩ := (hnext found).takes hlater
    exact ⟨taken ++ more, hP.append htaken hmore, by rw [hc, hm, List.append_assoc]⟩
  persists h := by
    obtain ⟨found, m, h, hlater⟩ := gives_bind.mp h
    obtain ⟨taken, -, hm⟩ := (hnext found).takes hlater
    intro c' more hrest hends
    obtain ⟨m', later, h', hm', hpasses⟩ := hfirst.persists h hrest fun hblank =>
      hends fun token htoken => hblank token (by rw [hm]; exact List.mem_append_right _ htoken)
    obtain ⟨d', last, hlater', hd', hlast⟩ := (hnext found).persists hlater hm' fun hblank =>
      hpasses.ends (hends hblank)
    rw [hm] at hpasses
    exact ⟨d', last, gives_bind.mpr ⟨found, m', h', hlater'⟩, hd', hpasses.trans hlast⟩

theorem Local.ite {q : Prop} [Decidable q] {yes no : Reading α} (hyes : Local P yes)
    (hno : Local P no) : Local P (if q then yes else no) := by
  split
  · exact hyes
  · exact hno

/-- Tokens without parentheses and commas are taken one after another. -/
theorem Admits.all (hP : Admits P) {tokens : List Token} (h : ∀ token ∈ tokens,
    token.isMark .comma = false ∧ token.isMark .openParen = false ∧ token.isMark .closeParen = false) :
    P tokens := by
  induction tokens with
  | nil => exact hP.nil
  | cons token rest ih =>
    obtain ⟨⟨hcomma, hopen, hclose⟩, hrest⟩ := List.forall_mem_cons.mp h
    exact hP.append (hP.single hcomma hopen hclose) (ih hrest)

theorem Admits.blanks (hP : Admits P) {tokens : List Token} (h : Body.IsBlank tokens) : P tokens := by
  refine hP.all fun token htoken => ?_
  obtain ⟨gap, rfl⟩ : ∃ gap, token = .blank gap := by
    have hblank := h token htoken
    unfold Token.isBlank at hblank
    split at hblank
    · exact ⟨_, rfl⟩
    · cases hblank
  exact ⟨rfl, rfl, rfl⟩

theorem local_skipBlanks (hP : Admits P) : Local P skipBlanks where
  takes {c _ d} h := by
    obtain rfl := gives_skipBlanks.mp h
    refine ⟨c.rest.takeWhile Token.isBlank, hP.blanks fun token => List.mem_takeWhile_imp, ?_⟩
    rw [Cursor.rest_skipBlanks, List.takeWhile_append_dropWhile]
  persists {c _ d} h := by
    obtain rfl := gives_skipBlanks.mp h
    intro c' more hrest _
    have hrest' : c'.skipBlanks.rest = (c.rest ++ more).dropWhile Token.isBlank := by
      rw [Cursor.rest_skipBlanks, hrest]
    rw [List.dropWhile_append, ← Cursor.rest_skipBlanks] at hrest'
    split at hrest'
    · rename_i hempty
      rw [List.isEmpty_iff] at hempty
      exact ⟨_, _, gives_skipBlanks.mpr rfl, by rw [hempty]; exact hrest', .inr ⟨hempty, rfl⟩⟩
    · exact ⟨_, _, gives_skipBlanks.mpr rfl, hrest', .inl rfl⟩

theorem local_sees (hP : Admits P) {p : Token → Bool} (hp : Ignores p) : Local P (sees p) where
  takes h := by
    obtain ⟨-, rfl⟩ := gives_sees.mp h
    exact ⟨[], hP.nil, rfl⟩
  persists h := by
    obtain ⟨rfl, rfl⟩ := gives_sees.mp h
    exact persists_refl fun hrest hends => gives_sees.mpr ⟨(sees_of_ignores hp hrest hends).symm, rfl⟩

theorem exists_token_of_sees {p : Token → Bool} (h : c.sees p = true) :
    ∃ token, p token = true ∧ c.rest = token :: c.advance.rest := by
  rw [Cursor.sees_eq] at h
  rw [Cursor.rest_advance]
  cases hrest : c.rest with
  | nil => rw [hrest] at h; cases h
  | cons token rest => exact ⟨token, by rwa [hrest] at h, rfl⟩

/-- A token of the own tokens is seen where more follow, and then the step moves over it. -/
theorem sees_append {p : Token → Bool} (h : c.sees p = true) (hrest : c'.rest = c.rest ++ more) :
    c'.sees p = true ∧ c'.advance.rest = c.advance.rest ++ more := by
  obtain ⟨token, hp, hc⟩ := exists_token_of_sees h
  rw [hc] at hrest
  exact ⟨by rw [Cursor.sees_eq, hrest]; exact hp, by rw [Cursor.rest_advance, hrest]; rfl⟩

/-- The tokens that a step starts with which expects two of them, with blanks between them. -/
theorem exists_words {p q : Token → Bool} {next : Reading α} {value : α}
    (h : Gives (do skipBlanks; expect p; skipBlanks; expect q; next) c value d) :
    ∃ first second rest last, p first = true ∧ q second = true ∧
      c.rest.dropWhile Token.isBlank = first :: rest ∧
      rest.dropWhile Token.isBlank = second :: last := by
  simp only [gives_bind, gives_skipBlanks, gives_expect] at h
  obtain ⟨_, _, rfl, _, _, ⟨hp, rfl⟩, _, _, rfl, _, _, ⟨hq, rfl⟩, -⟩ := h
  obtain ⟨first, hfirst, hc⟩ := exists_token_of_sees hp
  obtain ⟨second, hsecond, hm⟩ := exists_token_of_sees hq
  rw [Cursor.rest_skipBlanks] at hc hm
  exact ⟨first, second, _, _, hfirst, hsecond, hc, hm⟩

theorem local_expect {p : Token → Bool} (hP : ∀ token, p token = true → P [token]) :
    Local P (expect p) where
  takes h := by
    obtain ⟨hsees, rfl⟩ := gives_expect.mp h
    obtain ⟨token, hp, hc⟩ := exists_token_of_sees hsees
    exact ⟨[token], hP token hp, hc⟩
  persists h := by
    obtain ⟨hsees, rfl⟩ := gives_expect.mp h
    intro c' more hrest _
    obtain ⟨hsees', hrest'⟩ := sees_append hsees hrest
    exact ⟨_, _, gives_expect.mpr ⟨hsees', rfl⟩, hrest', .inl rfl⟩

theorem local_accepts (hnil : P []) {p : Token → Bool} (hP : ∀ token, p token = true → P [token])
    (hp : Ignores p) : Local P (accepts p) where
  takes h := by
    rcases gives_accepts.mp h with ⟨-, hsees, rfl⟩ | ⟨-, -, rfl⟩
    · obtain ⟨token, hp, hc⟩ := exists_token_of_sees hsees
      exact ⟨[token], hP token hp, hc⟩
    · exact ⟨[], hnil, rfl⟩
  persists h := by
    rcases gives_accepts.mp h with ⟨rfl, hsees, rfl⟩ | ⟨rfl, hsees, rfl⟩
    · intro c' more hrest _
      obtain ⟨hsees', hrest'⟩ := sees_append hsees hrest
      exact ⟨_, _, gives_accepts.mpr (.inl ⟨rfl, hsees', rfl⟩), hrest', .inl rfl⟩
    · exact persists_refl fun hrest hends =>
        gives_accepts.mpr (.inr ⟨rfl, (sees_of_ignores hp hrest hends).trans hsees, rfl⟩)

/-- A keyword that has to come next is neither a parenthesis nor a comma. -/
theorem local_keyword (hP : Admits P) (keyword : String) :
    Local P (expect (·.isKeyword keyword)) := by
  refine local_expect fun token h => ?_
  cases token with
  | word => exact hP.single rfl rfl rfl
  | _ => cases h

theorem local_identifier (hP : Admits P) : Local P identifier where
  takes {c text d} h := by
    obtain ⟨⟨quote, hhead⟩, rfl⟩ := gives_identifier.mp h
    refine ⟨[.word text quote], hP.single rfl rfl rfl, ?_⟩
    rw [Cursor.rest_advance]
    exact (List.cons_head?_tail hhead).symm
  persists {c text d} h := by
    obtain ⟨⟨quote, hhead⟩, rfl⟩ := gives_identifier.mp h
    intro c' more hrest _
    have hc := List.cons_head?_tail hhead
    rw [← hc] at hrest
    refine ⟨_, _, gives_identifier.mpr ⟨⟨quote, by rw [hrest]; rfl⟩, rfl⟩, ?_, .inl rfl⟩
    rw [Cursor.rest_advance, Cursor.rest_advance, hrest]
    rfl

end Local

/-! ## Laws of steps -/

theorem run_sees_bind {α : Type} (p : Token → Bool) (next : Bool → Reading α) (c : Cursor) :
    OptionT.run (sees p >>= next) c = OptionT.run (next (c.sees p)) c := rfl

/-- To move over a token that satisfies one of two tests is to accept it. -/
theorem sees_either {α : Type} (p q : Token → Bool) (next : Reading α) :
    (do if (← sees p) || (← sees q) then
          advance
          skipBlanks
        next) =
      (do if ← accepts fun token => p token || q token then skipBlanks
          next) := by
  have hsees (c : Cursor) : c.sees (fun token => p token || q token) = (c.sees p || c.sees q) := by
    unfold Cursor.sees
    cases c.current? <;> rfl
  refine OptionT.ext (funext fun c => ?_)
  unfold accepts
  rw [bind_assoc]
  simp only [run_sees_bind, hsees]
  split <;> rfl

theorem ite_bind {α β : Type} {q : Prop} [Decidable q] (yes no : Reading α) (next : α → Reading β) :
    (if q then yes else no) >>= next = if q then yes >>= next else no >>= next := by
  split <;> rfl

theorem failure_bind {α β : Type} (next : α → Reading β) :
    (failure : Reading α) >>= next = failure := rfl

end Reading

end SchemaPlan.Sql
