import SchemaPlan.Proofs.Definition.Position

/-!
# The progress of a reading

A step never moves the cursor back to before where it started, also where it fails. A loop ends if every
round that is followed by another one takes a token, since then fewer tokens are left for the next.

* `Reading.Proceeds`: a step moves on, and takes a token if it gives one of some values.
* `Reading.Loop`, `Loop.ComesTo`: a loop by its rounds, and what it comes to in any number of them.
* `Loop.comesTo_upTo`: a loop whose rounds take tokens comes to an end.
-/

namespace SchemaPlan.Sql.Reading

section Proceeds

variable {α β : Type} {start c d : Cursor} {P : α → Prop}

/-! ## Moving on -/

theorem Gives.run_eq {step : Reading α} {value : α} (h : Gives step c value d) :
    OptionT.run step c = (some value, d) := h

/-- A step from `c` leaves the cursor behind `start`, or where that stands; and where it gives a value
with the property `P`, at least one token behind. -/
def Lands (start : Cursor) (P : α → Prop) (step : Reading α) (c : Cursor) : Prop :=
  start.Precedes (OptionT.run step c).2 ∧
    ∀ value d, Gives step c value d → P value → start.pos < d.pos

/-- A step does not move back, and takes a token if it gives a value with the property `P`. -/
def Proceeds (P : α → Prop) (step : Reading α) : Prop := ∀ c : Cursor, c.InBounds → Lands c P step c

/-- A step does not move back. -/
abbrev MovesOn (step : Reading α) : Prop := Proceeds (fun _ => False) step

/-- A step does not move back, and takes a token if it gives a value. -/
abbrev TakesToken (step : Reading α) : Prop := Proceeds (fun _ => True) step

theorem Proceeds.precedes {step : Reading α} (h : Proceeds P step) (hc : c.InBounds) :
    c.Precedes (OptionT.run step c).2 := (h c hc).1

theorem Proceeds.pos_lt {step : Reading α} {value : α} (h : Proceeds P step) (hc : c.InBounds)
    (hgives : Gives step c value d) (hvalue : P value) : c.pos < d.pos :=
  (h c hc).2 value d hgives hvalue

theorem Proceeds.movesOn {step : Reading α} (h : Proceeds P step) : MovesOn step :=
  fun c hc => ⟨(h c hc).1, fun _ _ _ => False.elim⟩

theorem Proceeds.lands {step : Reading α} (h : Proceeds P step) (hc : start.Precedes c) :
    Lands start P step c :=
  ⟨hc.trans (h.precedes hc.inBounds), fun _ _ hgives hvalue =>
    Nat.lt_of_le_of_lt hc.pos_le (h.pos_lt hc.inBounds hgives hvalue)⟩

/-- What is behind a token that has been taken need not take another one. -/
theorem MovesOn.lands_of_lt {step : Reading α} (h : MovesOn step) (hc : start.Precedes c)
    (hpos : start.pos < c.pos) : Lands start P step c := by
  have hd := h.precedes hc.inBounds
  refine ⟨hc.trans hd, fun value d hgives _ => ?_⟩
  rw [hgives.run_eq] at hd
  exact Nat.lt_of_lt_of_le hpos hd.pos_le

/-! ## Rules -/

theorem Lands.pure {value : α} (hc : start.Precedes c) (hpos : P value → start.pos < c.pos) :
    Lands start P (pure value) c := by
  refine ⟨hc, fun found d hgives hfound => ?_⟩
  obtain ⟨rfl, rfl⟩ := gives_pure.mp hgives
  exact hpos hfound

theorem Lands.failure (hc : start.Precedes c) : Lands start P failure c :=
  ⟨hc, fun _ _ hgives => absurd hgives not_gives_failure⟩

theorem run_bind (first : Reading β) (next : β → Reading α) (c : Cursor) :
    OptionT.run (first >>= next) c =
      match OptionT.run first c with
      | (none, d) => (none, d)
      | (some found, d) => OptionT.run (next found) d := by
  rw [OptionT.run_bind]
  change (OptionT.run first c).1.elim (pure none) (fun found => OptionT.run (next found))
    (OptionT.run first c).2 = _
  rcases OptionT.run first c with ⟨_ | found, d⟩ <;> rfl

theorem Lands.bind {Q : β → Prop} {first : Reading β} {next : β → Reading α}
    (hfirst : Lands start Q first c)
    (hnext : ∀ found d, Gives first c found d → start.Precedes d → (Q found → start.pos < d.pos) →
      Lands start P (next found) d) : Lands start P (first >>= next) c := by
  obtain ⟨hprecedes, hpos⟩ := hfirst
  constructor
  · rw [run_bind]
    rcases hrun : OptionT.run first c with ⟨_ | found, d⟩
    · rwa [hrun] at hprecedes
    · rw [hrun] at hprecedes
      exact (hnext found d hrun hprecedes (hpos found d hrun)).1
  · intro value e hgives hvalue
    obtain ⟨found, d, hfound, hlater⟩ := gives_bind.mp hgives
    rw [hfound.run_eq] at hprecedes
    exact (hnext found d hfound hprecedes (hpos found d hfound)).2 value e hlater hvalue

theorem proceeds_pure {value : α} (h : ¬ P value) : Proceeds P (pure value : Reading α) :=
  fun _ hc => Lands.pure hc.precedes fun hvalue => absurd hvalue h

@[grind ←]
theorem movesOn_pure (value : α) : MovesOn (pure value : Reading α) := proceeds_pure id

@[grind ←]
theorem proceeds_failure : Proceeds P (failure : Reading α) := fun _ hc => Lands.failure hc.precedes

/-- The token may be taken by the second step. -/
theorem MovesOn.bind {first : Reading β} {next : β → Reading α} (hfirst : MovesOn first)
    (hnext : ∀ found, Proceeds P (next found)) : Proceeds P (first >>= next) := by
  refine fun c hc => (hfirst c hc).bind fun found d _ hd _ => (hnext found).lands hd

/-- The token may be taken by the first step. -/
theorem TakesToken.bind {first : Reading β} {next : β → Reading α} (hfirst : TakesToken first)
    (hnext : ∀ found, MovesOn (next found)) : Proceeds P (first >>= next) :=
  fun c hc => (hfirst c hc).bind fun found _ _ hd hpos => (hnext found).lands_of_lt hd (hpos trivial)

theorem Proceeds.ite {q : Prop} [Decidable q] {yes no : Reading α} (hyes : Proceeds P yes)
    (hno : Proceeds P no) : Proceeds P (if q then yes else no) := by
  split
  · exact hyes
  · exact hno

/-! ## Steps -/

theorem lands_get_bind {next : Cursor → Reading α} :
    Lands start P (get >>= next) c ↔ Lands start P (next c) c := Iff.rfl

theorem lands_position_bind {next : Nat → Reading α} :
    Lands start P (position >>= next) c ↔ Lands start P (next c.pos) c := Iff.rfl

theorem lands_sees_bind {p : Token → Bool} {next : Bool → Reading α} :
    Lands start P (sees p >>= next) c ↔ Lands start P (next (c.sees p)) c := Iff.rfl

theorem lands_skipBlanks_bind {next : Unit → Reading α} :
    Lands start P (skipBlanks >>= next) c ↔ Lands start P (next ()) c.skipBlanks := Iff.rfl

theorem lands_advance_bind {next : Unit → Reading α} :
    Lands start P (advance >>= next) c ↔ Lands start P (next ()) c.advance := Iff.rfl

theorem lands_moveTo_bind {pos : Nat} {next : Unit → Reading α} :
    Lands start P (moveTo pos >>= next) c ↔ Lands start P (next ()) (c.moveTo pos) := Iff.rfl

theorem movesOn_modify {f : Cursor → Cursor} (h : ∀ {c : Cursor}, c.InBounds → c.Precedes (f c)) :
    MovesOn (modify f : Reading Unit) := fun _ hc => ⟨h hc, fun _ _ _ => False.elim⟩

@[grind ←]
theorem movesOn_get : MovesOn (get : Reading Cursor) :=
  fun _ hc => ⟨hc.precedes, fun _ _ _ => False.elim⟩

@[grind ←]
theorem movesOn_position : MovesOn position := movesOn_get.bind fun c => movesOn_pure c.pos

@[grind ←]
theorem movesOn_sees (p : Token → Bool) : MovesOn (sees p) :=
  movesOn_get.bind fun c => movesOn_pure (c.sees p)

@[grind ←]
theorem movesOn_advance : MovesOn advance := movesOn_modify Cursor.precedes_advance

@[grind ←]
theorem movesOn_skipBlanks : MovesOn skipBlanks := movesOn_modify Cursor.precedes_skipBlanks

@[grind ←]
theorem movesOn_skipGroup : MovesOn skipGroup := movesOn_modify Cursor.precedes_skipGroup

@[grind ←]
theorem movesOn_skipToDelimiter : MovesOn skipToDelimiter :=
  movesOn_modify (Cursor.precedes_skipToDelimiter 0)

@[grind ←]
theorem movesOn_attempt {step : Reading α} (h : MovesOn step) : MovesOn (attempt step) :=
  fun _ hc => ⟨h.precedes hc, fun _ _ _ => False.elim⟩

@[grind ←]
theorem movesOn_discard {step : Reading α} (h : MovesOn step) : MovesOn (discard step) :=
  h.bind fun _ => movesOn_pure ()

/-- A token that is accepted has been taken. -/
theorem proceeds_accepts (p : Token → Bool) : Proceeds (· = true) (accepts p) := by
  intro c hc
  cases hsees : c.sees p with
  | true =>
    have hgives : Gives (accepts p) c true c.advance := gives_accepts.mpr (.inl ⟨rfl, hsees, rfl⟩)
    rw [Lands, hgives.run_eq]
    refine ⟨Cursor.precedes_advance hc, fun value d hd _ => ?_⟩
    obtain ⟨-, rfl⟩ := Prod.mk.inj (hgives.symm.trans hd)
    exact Cursor.pos_lt_advance hsees
  | false =>
    have hgives : Gives (accepts p) c false c := gives_accepts.mpr (.inr ⟨rfl, hsees, rfl⟩)
    rw [Lands, hgives.run_eq]
    refine ⟨hc.precedes, fun value d hd hvalue => ?_⟩
    obtain ⟨hfound, -⟩ := Prod.mk.inj (hgives.symm.trans hd)
    rw [hvalue] at hfound
    cases hfound

@[grind ←]
theorem movesOn_accepts (p : Token → Bool) : MovesOn (accepts p) := (proceeds_accepts p).movesOn

/-- Where a token is accepted, it is taken; where it is not, another step has to take one. -/
theorem proceeds_accepts_bind {p : Token → Bool} {next : Bool → Reading α}
    (hyes : MovesOn (next true)) (hno : Proceeds P (next false)) : Proceeds P (accepts p >>= next) := by
  refine fun c hc => (proceeds_accepts p c hc).bind fun found d _ hd hpos => ?_
  cases found with
  | true => exact hyes.lands_of_lt hd (hpos rfl)
  | false => exact hno.lands hd

theorem takesToken_expect (p : Token → Bool) : TakesToken (expect p) :=
  proceeds_accepts_bind (movesOn_pure ()) proceeds_failure

@[grind ←]
theorem movesOn_expect (p : Token → Bool) : MovesOn (expect p) := (takesToken_expect p).movesOn

theorem takesToken_identifier : TakesToken identifier := by
  intro c hc
  rw [Lands, run_identifier]
  split
  · rename_i text quote hhead
    have hword : c.sees Token.isWord = true := by
      rw [Cursor.sees_eq, hhead]
      rfl
    refine ⟨Cursor.precedes_advance hc, fun value d hgives _ => ?_⟩
    obtain ⟨-, rfl⟩ := gives_identifier.mp hgives
    exact Cursor.pos_lt_advance hword
  · rename_i hnone
    refine ⟨hc.precedes, fun value d hgives _ => ?_⟩
    obtain ⟨⟨quote, hhead⟩, -⟩ := gives_identifier.mp hgives
    exact absurd hhead (hnone value quote)

@[grind ←]
theorem movesOn_identifier : MovesOn identifier := takesToken_identifier.movesOn

end Proceeds

/-! ## Loops -/

/-- What a round of a loop comes to: the loop stops with a value, or goes on in another state, and then
`finish` makes its value out of the one it comes to from there. -/
inductive Round (σ α : Type) where
  | stop (value : α)
  | again (state : σ) (finish : α → α)

/-- Whether another round follows. -/
def Round.GoesOn {σ α : Type} : Round σ α → Prop
  | .stop _ => False
  | .again _ _ => True

/-- A loop, by its round in each state. -/
abbrev Loop (σ α : Type) := σ → Reading (Round σ α)

namespace Loop

section Loop

variable {σ α : Type} {loop : Loop σ α} {fallback : σ → Reading α} {state : σ} {c d : Cursor}

/-- A loop comes to a value, or fails, and leaves the cursor somewhere. It may take any number of rounds,
but not infinitely many. -/
inductive ComesTo (loop : Loop σ α) : σ → Cursor → Option α × Cursor → Prop where
  | fails {state : σ} {c d : Cursor} : OptionT.run (loop state) c = (none, d) →
      ComesTo loop state c (none, d)
  | stops {state : σ} {c d : Cursor} {value : α} : Gives (loop state) c (.stop value) d →
      ComesTo loop state c (some value, d)
  | goesOn {state next : σ} {c d e : Cursor} {value : Option α} {finish : α → α} :
      Gives (loop state) c (.again next finish) d → ComesTo loop next d (value, e) →
      ComesTo loop state c (value.map finish, e)

/-- At most `fuel` rounds of a loop, and `fallback` in place of those behind them. -/
def upTo (loop : Loop σ α) (fallback : σ → Reading α) : Nat → σ → Reading α
  | 0, state => fallback state
  | fuel + 1, state => do
    match ← loop state with
    | .stop value => return value
    | .again next finish => return finish (← loop.upTo fallback fuel next)

theorem run_upTo (fuel : Nat) (state : σ) (c : Cursor) :
    OptionT.run (loop.upTo fallback (fuel + 1) state) c =
      match OptionT.run (loop state) c with
      | (none, d) => (none, d)
      | (some (.stop value), d) => (some value, d)
      | (some (.again next finish), d) =>
        ((OptionT.run (loop.upTo fallback fuel next) d).1.map finish,
          (OptionT.run (loop.upTo fallback fuel next) d).2) := by
  rw [upTo, run_bind]
  rcases OptionT.run (loop state) c with ⟨_ | round, d⟩
  · rfl
  · cases round with
    | stop value => rfl
    | again next finish =>
      change OptionT.run (do return finish (← loop.upTo fallback fuel next)) d = _
      rw [run_bind]
      dsimp only
      rcases OptionT.run (loop.upTo fallback fuel next) d with ⟨_ | value, e⟩ <;> rfl

/-- What a loop comes to is told from its first round. -/
theorem comesTo_iff {result : Option α × Cursor} :
    ComesTo loop state c result ↔
      match OptionT.run (loop state) c with
      | (none, d) => result = (none, d)
      | (some (.stop value), d) => result = (some value, d)
      | (some (.again next finish), d) =>
        ∃ value e, ComesTo loop next d (value, e) ∧ result = (value.map finish, e) := by
  constructor
  · rintro (hround | hround | ⟨hround, hrest⟩)
    · rw [hround]
    · rw [hround.run_eq]
    · rw [hround.run_eq]
      exact ⟨_, _, hrest, rfl⟩
  · intro h
    rcases hround : OptionT.run (loop state) c with ⟨_ | round, d⟩
    · rw [hround] at h
      rw [h]
      exact .fails hround
    · cases round with
      | stop value =>
        rw [hround] at h
        rw [h]
        exact .stops hround
      | again next finish =>
        rw [hround] at h
        obtain ⟨value, e, hrest, rfl⟩ := h
        exact .goesOn hround hrest

/-- As many rounds as tokens are left are enough, and one more where the end of the tokens does not end
the loop. -/
def Enough (loop : Loop σ α) (fallback : σ → Reading α) (fuel : Nat) (c : Cursor) : Prop :=
  c.left < fuel ∨ c.left ≤ fuel ∧ ∀ state d, d.InBounds → d.left = 0 →
    ComesTo loop state d (OptionT.run (fallback state) d)

/-- A loop comes to an end if each of its rounds takes a token, unless it is the last. -/
theorem comesTo_upTo (hloop : ∀ state, Proceeds Round.GoesOn (loop state)) (hc : c.InBounds)
    {fuel : Nat} (hfuel : Enough loop fallback fuel c) :
    ComesTo loop state c (OptionT.run (loop.upTo fallback fuel state) c) := by
  induction fuel generalizing state c with
  | zero =>
    rcases hfuel with hfuel | ⟨hfuel, hfallback⟩
    · exact absurd hfuel (Nat.not_lt_zero _)
    · exact hfallback state c hc (Nat.le_zero.mp hfuel)
  | succ fuel ih =>
    rw [comesTo_iff, run_upTo]
    rcases hround : OptionT.run (loop state) c with ⟨_ | round, d⟩
    · rfl
    · cases round with
      | stop value => rfl
      | again next finish =>
        have hd : c.Precedes d := by simpa only [hround] using (hloop state).precedes hc
        have hpos := (hloop state).pos_lt hc hround trivial
        have hleft := hd.left_add_pos
        -- The next round has fewer tokens left, as there are fewer rounds.
        have hnext : Enough loop fallback fuel d := by
          rcases hfuel with hfuel | ⟨hfuel, hfallback⟩
          · exact .inl (by omega)
          · exact .inr ⟨by omega, hfallback⟩
        exact ⟨_, _, ih hd.inBounds hnext, rfl⟩

/-- A loop comes to one result. -/
theorem ComesTo.unique {first second : Option α × Cursor} (h : ComesTo loop state c first)
    (hsecond : ComesTo loop state c second) : second = first := by
  -- The second result is told from the same first round.
  induction h generalizing second with
  | fails hround =>
    rwa [comesTo_iff, hround] at hsecond
  | stops hround =>
    rwa [comesTo_iff, hround.run_eq] at hsecond
  | goesOn hround _ ih =>
    rw [comesTo_iff, hround.run_eq] at hsecond
    obtain ⟨value, e, hrest, rfl⟩ := hsecond
    obtain ⟨rfl, rfl⟩ := Prod.mk.inj (ih hrest)
    rfl

/-- A loop comes to what enough of its rounds give, and to nothing else. -/
theorem comesTo_iff_eq {result : Option α × Cursor}
    (hloop : ∀ state, Proceeds Round.GoesOn (loop state)) (hc : c.InBounds) {fuel : Nat}
    (hfuel : Enough loop fallback fuel c) :
    ComesTo loop state c result ↔ result = OptionT.run (loop.upTo fallback fuel state) c := by
  have hends : ComesTo loop state c (OptionT.run (loop.upTo fallback fuel state) c) :=
    comesTo_upTo hloop hc hfuel
  constructor
  · exact hends.unique
  · rintro rfl
    exact hends

theorem movesOn_upTo (hloop : ∀ state, MovesOn (loop state))
    (hfallback : ∀ state, MovesOn (fallback state)) (fuel : Nat) (state : σ) : MovesOn (loop.upTo fallback fuel state) := by
  induction fuel generalizing state with
  | zero => exact hfallback state
  | succ fuel ih =>
    refine (hloop state).bind fun round => ?_
    cases round with
    | stop value => exact movesOn_pure value
    | again next finish => exact (ih next).bind fun value => movesOn_pure (finish value)

end Loop

end Loop

end SchemaPlan.Sql.Reading
