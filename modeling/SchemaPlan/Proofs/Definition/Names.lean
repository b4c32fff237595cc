import SchemaPlan.Proofs.Definition.Local

/-!
# Names and lists of names

A dotted name ends where no period comes next, and a list of names with its parenthesis. Both are read
as well in front of other tokens.

* `local_qualifiedName`, `local_identifierList`: names are read locally.
-/

namespace SchemaPlan.Sql

/-- Parentheses stay in pairs where tokens stand in a row. -/
theorem Body.Balanced.append {tokens more : List Token} (h : Balanced tokens) (hmore : Balanced more) :
    Balanced (tokens ++ more) := by
  induction h with
  | nil => exact hmore
  | token hopen hclose _ ih => exact .token hopen hclose ih
  | group hinner _ _ ih =>
    rw [List.cons_append, List.append_assoc, List.cons_append]
    exact .group hinner ih

/-- Tokens with parentheses in pairs and no comma outside of them. -/
inductive Flat : List Token → Prop where
  | nil : Flat []
  | token {token : Token} {rest : List Token} :
      token ≠ .mark .comma → token ≠ .mark .openParen → token ≠ .mark .closeParen → Flat rest →
      Flat (token :: rest)
  | group {inner rest : List Token} :
      Body.Balanced inner → Flat rest → Flat (.mark .openParen :: (inner ++ .mark .closeParen :: rest))

theorem Flat.append {tokens more : List Token} (h : Flat tokens) (hmore : Flat more) :
    Flat (tokens ++ more) := by
  induction h with
  | nil => exact hmore
  | token hcomma hopen hclose _ ih => exact .token hcomma hopen hclose ih
  | group hinner _ ih =>
    rw [List.cons_append, List.append_assoc, List.cons_append]
    exact .group hinner ih

theorem Token.eq_mark_of_isMark {token : Token} {m : Mark} (h : token.isMark m = true) :
    token = .mark m := by
  cases token <;> first | cases h | exact congrArg _ (beq_iff_eq.mp h)

namespace Reading

/-! ## Names -/

section Names

theorem gives_attempt {α : Type} {step : Reading α} {c d : Cursor} {found : Option α} :
    Gives (attempt step) c found d ↔ OptionT.run step c = (found, d) := by
  change (some (OptionT.run step c).1, (OptionT.run step c).2) = (some found, d) ↔ _
  rw [Prod.mk.injEq, Option.some.injEq, Prod.ext_iff]

theorem eq_of_run_identifier_eq_none {c d : Cursor} (h : OptionT.run identifier c = (none, d)) :
    d = c := by
  rw [run_identifier] at h
  split at h
  · cases h
  · exact (Prod.mk.inj h).2.symm

theorem run_identifier_of_sees_period {c : Cursor} (h : c.sees (·.isMark .period) = true) :
    OptionT.run identifier c = (none, c) := by
  rw [run_identifier]
  split
  · rename_i text quote hhead
    rw [Cursor.sees_eq, hhead] at h
    cases h
  · rfl

/-- Move over a period with the blanks around it. -/
def afterPeriod : Reading Unit := do
  skipBlanks
  expect (·.isMark .period)
  skipBlanks

attribute [grind =] afterPeriod nameParts

theorem gives_afterPeriod {c d : Cursor} {u : Unit} :
    Gives afterPeriod c u d ↔
      c.skipBlanks.sees (·.isMark .period) = true ∧ d = c.skipBlanks.advance.skipBlanks := by
  unfold afterPeriod
  simp only [gives_bind, gives_skipBlanks, gives_expect]
  constructor
  · rintro ⟨_, _, rfl, _, _, ⟨hsees, rfl⟩, rfl⟩
    exact ⟨hsees, rfl⟩
  · rintro ⟨hsees, rfl⟩
    exact ⟨(), _, rfl, (), _, ⟨hsees, rfl⟩, rfl⟩

variable {P : List Token → Prop} {c c' d : Cursor} {fuel : Nat} {names : List String}

theorem local_afterPeriod (hP : Admits P) : Local P afterPeriod :=
  .bind hP (local_skipBlanks hP) fun _ =>
    .bind hP (local_expect fun _ h => Token.eq_mark_of_isMark h ▸ hP.single rfl rfl rfl) fun _ =>
      local_skipBlanks hP

theorem length_afterPeriod {u : Unit} (h : Gives afterPeriod c u d) :
    d.rest.length < c.rest.length := by
  obtain ⟨hsees, rfl⟩ := gives_afterPeriod.mp h
  obtain ⟨token, -, hrest⟩ := exists_token_of_sees hsees
  have hfirst := List.length_dropWhile_le Token.isBlank c.rest
  have hlast := List.length_dropWhile_le Token.isBlank c.skipBlanks.advance.rest
  rw [← Cursor.rest_skipBlanks] at hfirst hlast
  rw [hrest, List.length_cons] at hfirst
  omega

/-- The parts of a name end where no period comes next. After a period comes a part, or another
period. -/
theorem gives_nameParts :
    Gives (nameParts (fuel + 1)) c names d ↔
      (c.skipBlanks.sees (·.isMark .period) = false ∧ names = [] ∧ d = c.skipBlanks.moveTo c.pos) ∨
      ∃ m more, Gives afterPeriod c () m ∧
        ((∃ part k, Gives identifier m part k ∧ Gives (nameParts fuel) k more d ∧
            names = part :: more) ∨
          m.sees (·.isMark .period) = true ∧ Gives (nameParts fuel) m more d ∧
            names = "" :: more) := by
  rw [nameParts]
  simp only [gives_bind, gives_position, gives_skipBlanks, gives_sees, gives_afterPeriod]
  constructor
  · rintro ⟨_, _, ⟨rfl, rfl⟩, _, _, rfl, _, _, ⟨rfl, rfl⟩, h⟩
    split at h
    · rename_i hsees
      rw [Bool.not_eq_true'] at hsees
      obtain ⟨_, _, hmove, h⟩ := gives_bind.mp h
      obtain ⟨rfl, rfl⟩ := gives_pure.mp h
      exact .inl ⟨hsees, rfl, gives_modify.mp hmove⟩
    · rename_i hsees
      rw [Bool.not_eq_true', Bool.not_eq_false] at hsees
      simp only [gives_bind, gives_advance, gives_skipBlanks, gives_attempt] at h
      obtain ⟨_, _, rfl, _, _, rfl, found, m, hfound, h⟩ := h
      -- An attempt at a part that fails leaves the cursor, so the second period is still to be
      -- seen.
      cases found with
      | some part =>
        simp only [gives_bind, gives_pure] at h
        obtain ⟨more, _, hmore, rfl, rfl⟩ := h
        exact .inr ⟨_, more, ⟨hsees, rfl⟩, .inl ⟨part, m, hfound, hmore, rfl⟩⟩
      | none =>
        obtain rfl := eq_of_run_identifier_eq_none hfound
        simp only [gives_bind, gives_sees] at h
        obtain ⟨_, _, ⟨rfl, rfl⟩, h⟩ := h
        split at h
        · rename_i hagain
          simp only [gives_bind, gives_pure] at h
          obtain ⟨more, _, hmore, rfl, rfl⟩ := h
          exact .inr ⟨_, more, ⟨hsees, rfl⟩, .inr ⟨hagain, hmore, rfl⟩⟩
        · exact absurd h not_gives_failure
  · rintro (⟨hsees, rfl, rfl⟩ | ⟨_, more, ⟨hsees, rfl⟩, h⟩)
    · refine ⟨_, _, ⟨rfl, rfl⟩, (), _, rfl, _, _, ⟨rfl, rfl⟩, ?_⟩
      rw [if_pos (by rw [hsees]; rfl)]
      exact gives_bind.mpr ⟨(), _, gives_modify.mpr rfl, gives_pure.mpr ⟨rfl, rfl⟩⟩
    · refine ⟨_, _, ⟨rfl, rfl⟩, (), _, rfl, _, _, ⟨rfl, rfl⟩, ?_⟩
      rw [if_neg (by rw [hsees]; exact nofun)]
      simp only [gives_bind, gives_advance, gives_skipBlanks, gives_attempt]
      refine ⟨(), _, rfl, (), _, rfl, ?_⟩
      rcases h with ⟨part, m, hpart, hmore, rfl⟩ | ⟨hagain, hmore, rfl⟩
      · exact ⟨some part, m, hpart, gives_bind.mpr ⟨more, _, hmore, gives_pure.mpr ⟨rfl, rfl⟩⟩⟩
      · -- No identifier starts with a period, so this attempt does fail.
        refine ⟨none, _, run_identifier_of_sees_period hagain, ?_⟩
        refine gives_bind.mpr ⟨_, _, gives_sees.mpr ⟨rfl, rfl⟩, ?_⟩
        rw [if_pos hagain]
        exact gives_bind.mpr ⟨more, _, hmore, gives_pure.mpr ⟨rfl, rfl⟩⟩

theorem gives_nameParts_nil (h : c.skipBlanks.sees (·.isMark .period) = false) (fuel : Nat) :
    ∃ d, Gives (nameParts fuel) c [] d ∧ d.rest = c.rest := by
  cases fuel with
  | zero => exact ⟨c, gives_pure.mpr ⟨rfl, rfl⟩, rfl⟩
  | succ fuel =>
    exact ⟨_, gives_nameParts.mpr (.inl ⟨h, rfl, rfl⟩), Cursor.rest_moveTo (Cursor.tokens_skipBlanks c)⟩

theorem takes_nameParts (hP : Admits P) (h : Gives (nameParts fuel) c names d) :
    ∃ taken, P taken ∧ c.rest = taken ++ d.rest := by
  induction fuel generalizing c names with
  | zero =>
    obtain ⟨-, rfl⟩ := gives_pure.mp h
    exact ⟨[], hP.nil, rfl⟩
  | succ fuel ih =>
    rcases gives_nameParts.mp h with ⟨-, -, rfl⟩ | ⟨m, more, hperiod, h⟩
    · exact ⟨[], hP.nil, (Cursor.rest_moveTo (Cursor.tokens_skipBlanks c)).symm⟩
    · obtain ⟨first, hfirst, hc⟩ := (local_afterPeriod hP).takes hperiod
      rcases h with ⟨part, k, hpart, hmore, -⟩ | ⟨-, hmore, -⟩
      · obtain ⟨second, hsecond, hm⟩ := (local_identifier hP).takes hpart
        obtain ⟨last, hlast, hk⟩ := ih hmore
        exact ⟨first ++ (second ++ last), hP.append hfirst (hP.append hsecond hlast), by
          rw [hc, hm, hk, List.append_assoc, List.append_assoc]⟩
      · obtain ⟨last, hlast, hm⟩ := ih hmore
        exact ⟨first ++ last, hP.append hfirst hlast, by rw [hc, hm, List.append_assoc]⟩

/-- The parts of a name are read as well where more tokens follow, with as many steps as there are
tokens. -/
theorem persists_nameParts (h : Gives (nameParts fuel) c names d) (hfuel : c.rest.length ≤ fuel)
    {more : List Token} (hrest : c'.rest = c.rest ++ more)
    (hends : Body.IsBlank d.rest → Ends more) {fuel' : Nat} (hfuel' : c'.rest.length ≤ fuel') :
    ∃ d' later, Gives (nameParts fuel') c' names d' ∧ d'.rest = d.rest ++ later ∧
      Passes d.rest more later := by
  have hP : Admits fun _ => True := ⟨.intro, fun _ _ => .intro, fun _ _ _ => .intro⟩
  -- The induction is on the fuel of the shorter text; `fuel'` only has to cover the longer one, and
  -- is taken apart in step.
  induction fuel generalizing c c' names more fuel' with
  -- No fuel means no tokens: the reading stopped at the end, and `more` begins with no period.
  | zero =>
    obtain ⟨rfl, rfl⟩ := gives_pure.mp h
    have hnil : d.rest = [] := List.length_eq_zero_iff.mp (Nat.le_zero.mp hfuel)
    have hsees : c'.skipBlanks.sees (·.isMark .period) = false := by
      rw [Cursor.sees_eq, Cursor.rest_skipBlanks, hrest, hnil]
      exact (hends (by rw [hnil]; exact nofun)).dropWhile.any_eq_false (ignores_mark nofun)
    obtain ⟨d', h', hd'⟩ := gives_nameParts_nil hsees fuel'
    exact ⟨d', more, h', hd'.trans hrest, .inl rfl⟩
  | succ fuel ih =>
    rcases gives_nameParts.mp h with ⟨hsees, rfl, rfl⟩ | ⟨m, names, hperiod, h⟩
    · rw [Cursor.rest_moveTo (Cursor.tokens_skipBlanks c)] at hends ⊢
      have hends' (hblank : Body.IsBlank c.skipBlanks.rest) : Ends more :=
        hends (isBlank_of_dropWhile (c.rest_skipBlanks ▸ hblank))
      have hskip : Gives skipBlanks c () c.skipBlanks := gives_skipBlanks.mpr rfl
      obtain ⟨m', later, hskip', hlater, hpasses⟩ := (local_skipBlanks hP).persists hskip hrest hends'
      obtain rfl := gives_skipBlanks.mp hskip'
      have hsame := sees_of_ignores (ignores_mark (by decide : Mark.period ≠ .semicolon)) hlater
        fun hblank => hpasses.ends (hends' hblank)
      obtain ⟨d', h', hd'⟩ := gives_nameParts_nil (hsame.trans hsees) fuel'
      exact ⟨d', more, h', hd'.trans hrest, .inl rfl⟩
    · have hlt := length_afterPeriod hperiod
      rcases h with ⟨part, k, hpart, hmore, rfl⟩ | ⟨hagain, hmore, rfl⟩
      · obtain ⟨first, -, hm⟩ := (local_identifier hP).takes hpart
        obtain ⟨last, -, hk⟩ := takes_nameParts hP hmore
        -- The period and the part behind it are one step, so that `hends` is used on the parts left
        -- over.
        have hstep : Local (fun _ => True) (afterPeriod >>= fun _ => identifier) :=
          .bind hP (local_afterPeriod hP) fun _ => local_identifier hP
        obtain ⟨k', later, h', hk', hpasses⟩ :=
          hstep.persists (gives_bind.mpr ⟨(), m, hperiod, hpart⟩) hrest fun hblank =>
            hends (hk ▸ hblank).of_append_right
        obtain ⟨_, m', hperiod', hpart'⟩ := gives_bind.mp h'
        have hlt' := length_afterPeriod hperiod'
        obtain ⟨first', -, hm'⟩ := (local_identifier hP).takes hpart'
        rw [hm, List.length_append] at hlt
        rw [hm', List.length_append] at hlt'
        obtain ⟨fuel', rfl⟩ : ∃ n, fuel' = n + 1 := ⟨fuel' - 1, by omega⟩
        have hleft : k'.rest.length ≤ fuel' := by omega
        obtain ⟨d', last', hmore', hd', hlast'⟩ := ih hmore (by omega) hk'
          (fun hblank => hpasses.ends (hends hblank)) hleft
        rw [hk] at hpasses
        exact ⟨d', last', gives_nameParts.mpr (.inr ⟨m', names, hperiod', .inl
          ⟨part, k', hpart', hmore', rfl⟩⟩), hd', hpasses.trans hlast'⟩
      · obtain ⟨last, -, hm⟩ := takes_nameParts hP hmore
        obtain ⟨m', later, hperiod', hm', hpasses⟩ := (local_afterPeriod hP).persists hperiod hrest
          fun hblank => hends (hm ▸ hblank).of_append_right
        have hlt' := length_afterPeriod hperiod'
        obtain ⟨fuel', rfl⟩ : ∃ n, fuel' = n + 1 := ⟨fuel' - 1, by omega⟩
        have hleft : m'.rest.length ≤ fuel' := by omega
        obtain ⟨d', last', hmore', hd', hlast'⟩ := ih hmore (by omega) hm'
          (fun hblank => hpasses.ends (hends hblank)) hleft
        rw [hm] at hpasses
        exact ⟨d', last', gives_nameParts.mpr (.inr ⟨m', names, hperiod', .inr
          ⟨(sees_append hagain hm').1, hmore', rfl⟩⟩), hd', hpasses.trans hlast'⟩

theorem gives_qualifiedName {name : QualifiedName} :
    Gives qualifiedName c name d ↔
      ∃ first more m, Gives identifier c first m ∧ Gives (nameParts m.rest.length) m more d ∧
        QualifiedName.ofParts? (first :: more) = some name := by
  unfold qualifiedName
  simp only [gives_bind, gives_get, Cursor.left_eq]
  constructor
  · rintro ⟨first, m, hfirst, _, _, ⟨rfl, rfl⟩, more, _, hmore, h⟩
    split at h
    · rename_i found hfound
      obtain ⟨rfl, rfl⟩ := gives_pure.mp h
      exact ⟨first, more, _, hfirst, hmore, hfound⟩
    · exact absurd h not_gives_failure
  · rintro ⟨first, more, m, hfirst, hmore, hname⟩
    refine ⟨first, m, hfirst, _, _, ⟨rfl, rfl⟩, more, d, hmore, ?_⟩
    rw [hname]
    exact gives_pure.mpr ⟨rfl, rfl⟩

theorem local_qualifiedName (hP : Admits P) : Local P qualifiedName where
  takes h := by
    obtain ⟨_, _, m, hfirst, hmore, -⟩ := gives_qualifiedName.mp h
    obtain ⟨first, htaken, hc⟩ := (local_identifier hP).takes hfirst
    obtain ⟨more, htaken', hm⟩ := takes_nameParts hP hmore
    exact ⟨first ++ more, hP.append htaken htaken', by rw [hc, hm, List.append_assoc]⟩
  persists h := by
    obtain ⟨first, names, m, hfirst, hmore, hname⟩ := gives_qualifiedName.mp h
    obtain ⟨taken, -, hm⟩ := takes_nameParts hP hmore
    intro c' more hrest hends
    obtain ⟨m', later, hfirst', hm', hpasses⟩ := (local_identifier hP).persists hfirst hrest
      fun hblank => hends (hm ▸ hblank).of_append_right
    obtain ⟨d', last, hmore', hd', hlast⟩ := persists_nameParts hmore (Nat.le_refl _) hm'
      (fun hblank => hpasses.ends (hends hblank)) (Nat.le_refl _)
    rw [hm] at hpasses
    exact ⟨d', last, gives_qualifiedName.mpr ⟨first, names, m', hfirst', hmore', hname⟩, hd',
      hpasses.trans hlast⟩

end Names

/-! ## Lists of names -/

/-- A name of a list with its direction and the comma behind it. -/
def listedName : Reading String := do
  let name ← identifier
  skipBlanks
  if ← accepts fun token => token.isKeyword "ASC" || token.isKeyword "DESC" then skipBlanks
  if !(← accepts (·.isMark .comma)) && !(← sees (·.isMark .closeParen)) then failure
  return name

theorem listedNames_succ (fuel : Nat) :
    listedNames (fuel + 1) = (do
      skipBlanks
      if ← accepts (·.isMark .closeParen) then return []
      let name ← listedName
      return name :: (← listedNames fuel)) := by
  rw [listedNames]
  unfold listedName
  simp only [sees_either, bind_assoc, ite_bind, pure_bind, failure_bind]

theorem flat_admits : Admits Flat where
  nil := .nil
  append := Flat.append
  single hcomma hopen hclose := .token (fun h => by rw [h] at hcomma; cases hcomma)
    (fun h => by rw [h] at hopen; cases hopen) (fun h => by rw [h] at hclose; cases hclose) .nil

theorem balanced_admits : Admits Body.Balanced where
  nil := .nil
  append := Body.Balanced.append
  single _ hopen hclose := .token (fun h => by rw [h] at hopen; cases hopen)
    (fun h => by rw [h] at hclose; cases hclose) .nil

section Lists

theorem Admits.word {P : List Token → Prop} (hP : Admits P) {token : Token}
    (h : token.isWord = true) : P [token] := by
  cases token with
  | word => exact hP.single rfl rfl rfl
  | _ => cases h

theorem local_acceptsWord {P : List Token → Prop} (hP : Admits P) {p : Token → Bool}
    (hword : ∀ token : Token, p token = true → token.isWord = true) (hp : Ignores p) :
    Local P (accepts p) :=
  local_accepts hP.nil (fun token h => hP.word (hword token h)) hp

theorem balanced_comma {token : Token} (h : token.isMark .comma = true) : Body.Balanced [token] := by
  obtain rfl := Token.eq_mark_of_isMark h
  exact .token nofun nofun .nil

theorem local_listedName : Local Body.Balanced listedName := by
  have hP := balanced_admits
  have hskip := local_skipBlanks hP
  have hlast (name : String) : Local Body.Balanced (do
      if !(← accepts (·.isMark .comma)) && !(← sees (·.isMark .closeParen)) then failure
      return name) := by
    refine .bind hP (local_accepts hP.nil (fun _ => balanced_comma)
      (ignores_mark (by decide))) fun _ => .bind hP (local_sees hP (ignores_mark (by decide))) fun _ => ?_
    exact .ite (.bind hP local_failure fun _ => local_pure hP name) (local_pure hP name)
  have hdirection : Ignores fun token => token.isKeyword "ASC" || token.isKeyword "DESC" :=
    .either (ignores_keyword (by decide)) (ignores_keyword (by decide))
  refine .bind hP (local_identifier hP) fun name => .bind hP hskip fun _ =>
    .bind hP (local_accepts hP.nil (fun token h => hP.word ?_) hdirection) fun _ =>
    .ite (.bind hP hskip fun _ => hlast name) (hlast name)
  exact (Bool.or_eq_true_iff.mp h).elim isWord_of_isKeyword isWord_of_isKeyword

/-- A list ends with its parenthesis, and any other token starts a name. -/
theorem gives_listedNames {c d : Cursor} {fuel : Nat} {names : List String} :
    Gives (listedNames (fuel + 1)) c names d ↔
      (c.skipBlanks.sees (·.isMark .closeParen) = true ∧ names = [] ∧ d = c.skipBlanks.advance) ∨
      c.skipBlanks.sees (·.isMark .closeParen) = false ∧ ∃ name m more,
        Gives listedName c.skipBlanks name m ∧ Gives (listedNames fuel) m more d ∧
          names = name :: more := by
  rw [listedNames_succ]
  simp only [gives_bind, gives_skipBlanks, gives_accepts]
  constructor
  · rintro ⟨_, _, rfl, _, _, ⟨rfl, hsees, rfl⟩ | ⟨rfl, hsees, rfl⟩, h⟩
    · obtain ⟨rfl, rfl⟩ := gives_pure.mp h
      exact .inl ⟨hsees, rfl, rfl⟩
    · rw [if_neg nofun] at h
      simp only [gives_bind, gives_pure] at h
      obtain ⟨name, m, hname, more, _, hmore, rfl, rfl⟩ := h
      exact .inr ⟨hsees, name, m, more, hname, hmore, rfl⟩
  · rintro (⟨hsees, rfl, rfl⟩ | ⟨hsees, name, m, more, hname, hmore, rfl⟩)
    · exact ⟨(), _, rfl, _, _, .inl ⟨rfl, hsees, rfl⟩, gives_pure.mpr ⟨rfl, rfl⟩⟩
    · refine ⟨(), _, rfl, _, _, .inr ⟨rfl, hsees, rfl⟩, ?_⟩
      rw [if_neg nofun]
      simp only [gives_bind, gives_pure]
      exact ⟨name, m, hname, more, d, hmore, rfl, rfl⟩

theorem takes_listedNames {c d : Cursor} {fuel : Nat} {names : List String}
    (h : Gives (listedNames fuel) c names d) :
    ∃ inner, Body.Balanced inner ∧ c.rest = inner ++ .mark .closeParen :: d.rest := by
  have hP := balanced_admits
  induction fuel generalizing c names with
  | zero => exact absurd h not_gives_failure
  | succ fuel ih =>
    have hskip : Gives skipBlanks c () c.skipBlanks := gives_skipBlanks.mpr rfl
    obtain ⟨blanks, hblanks, hc⟩ := (local_skipBlanks hP).takes hskip
    rcases gives_listedNames.mp h with ⟨hsees, -, rfl⟩ | ⟨-, name, m, more, hname, hmore, -⟩
    · obtain ⟨token, htoken, hrest⟩ := exists_token_of_sees hsees
      obtain rfl := Token.eq_mark_of_isMark htoken
      exact ⟨blanks, hblanks, by rw [hc, hrest]⟩
    · obtain ⟨first, hfirst, hrest⟩ := local_listedName.takes hname
      obtain ⟨inner, hinner, hm⟩ := ih hmore
      refine ⟨blanks ++ (first ++ inner), hblanks.append (hfirst.append hinner), ?_⟩
      rw [hc, hrest, hm, List.append_assoc, List.append_assoc]

/-- A list ends with a parenthesis, so what follows it is not seen. -/
theorem visible_of_listedNames {c d : Cursor} {fuel : Nat} {names : List String}
    (h : Gives (listedNames fuel) c names d) : ¬ Body.IsBlank c.rest := by
  obtain ⟨inner, -, hc⟩ := takes_listedNames h
  intro hblank
  have hclose := hblank (.mark .closeParen) (by rw [hc]; simp)
  cases hclose

theorem gives_listedNames_append {c c' d : Cursor} {fuel fuel' : Nat} {names : List String}
    {more : List Token} (h : Gives (listedNames fuel) c names d) (hfuel : fuel ≤ fuel')
    (hrest : c'.rest = c.rest ++ more) :
    ∃ d', Gives (listedNames fuel') c' names d' ∧ d'.rest = d.rest ++ more := by
  induction fuel generalizing c c' names fuel' with
  | zero => exact absurd h not_gives_failure
  | succ fuel ih =>
    obtain ⟨fuel', rfl⟩ : ∃ n, fuel' = n + 1 := ⟨fuel' - 1, by omega⟩
    have hblank : ¬ Body.IsBlank c.skipBlanks.rest := fun hblank =>
      visible_of_listedNames h (isBlank_of_dropWhile (c.rest_skipBlanks ▸ hblank))
    have hskip : Gives skipBlanks c () c.skipBlanks := gives_skipBlanks.mpr rfl
    obtain ⟨m', hskip', hm'⟩ := (local_skipBlanks balanced_admits).append hskip hblank hrest
    obtain rfl := gives_skipBlanks.mp hskip'
    rcases gives_listedNames.mp h with ⟨hsees, rfl, rfl⟩ | ⟨hsees, name, m, names, hname, hmore, rfl⟩
    · obtain ⟨hsees', hd'⟩ := sees_append hsees hm'
      exact ⟨_, gives_listedNames.mpr (.inl ⟨hsees', rfl, rfl⟩), hd'⟩
    · have hsame := sees_of_ignores (ignores_mark (by decide : Mark.closeParen ≠ .semicolon)) hm'
        fun h => absurd h hblank
      obtain ⟨k', hname', hk'⟩ := local_listedName.append hname (visible_of_listedNames hmore) hm'
      obtain ⟨d', hmore', hd'⟩ := ih hmore (Nat.le_of_succ_le_succ hfuel) hk'
      exact ⟨d', gives_listedNames.mpr (.inr ⟨hsame.trans hsees, name, k', names, hname', hmore', rfl⟩),
        hd'⟩

theorem gives_identifierList {c d : Cursor} {names : List String} :
    Gives identifierList c names d ↔
      c.sees (·.isMark .openParen) = true ∧
        Gives (listedNames (c.advance.rest.length + 1)) c.advance names d := by
  unfold identifierList
  simp only [gives_bind, gives_expect, gives_get, Cursor.left_eq]
  constructor
  · rintro ⟨_, _, ⟨hsees, rfl⟩, _, _, ⟨rfl, rfl⟩, h⟩
    exact ⟨hsees, h⟩
  · rintro ⟨hsees, h⟩
    exact ⟨(), _, ⟨hsees, rfl⟩, _, _, ⟨rfl, rfl⟩, h⟩

/-- A list of names is read locally. -/
theorem local_identifierList : Local Flat identifierList where
  takes h := by
    obtain ⟨hsees, h⟩ := gives_identifierList.mp h
    obtain ⟨token, htoken, hc⟩ := exists_token_of_sees hsees
    obtain rfl := Token.eq_mark_of_isMark htoken
    obtain ⟨inner, hinner, hrest⟩ := takes_listedNames h
    exact ⟨.mark .openParen :: (inner ++ [.mark .closeParen]), .group hinner .nil, by
      rw [hc, hrest, List.cons_append, List.append_assoc]; rfl⟩
  persists {c _ _} h := by
    obtain ⟨hsees, h⟩ := gives_identifierList.mp h
    intro c' more hrest _
    obtain ⟨hsees', hrest'⟩ := sees_append hsees hrest
    have hfuel : c.advance.rest.length + 1 ≤ c'.advance.rest.length + 1 := by
      rw [hrest', List.length_append]
      omega
    obtain ⟨d', h', hd'⟩ := gives_listedNames_append h hfuel hrest'
    exact ⟨d', more, gives_identifierList.mpr ⟨hsees', h'⟩, hd', .inl rfl⟩

end Lists

end Reading

end SchemaPlan.Sql
