import SchemaPlan.Proofs.Token.Reading

/-!
# A text and its tokens

The tokens of a text are spelled one after the other, and their spellings make up the text. So the
line of a token is told from the text before it.

* `scan_eq_ok`: a text has tokens if it can be cut into pieces, each of which is read at its place.
* `place_append`: the line of a token is that of the first, and one more for each line feed between.
-/

namespace SchemaPlan.Sql

/-- A token with the characters that spell it in a text. -/
structure SpelledToken where
  token : Token
  spelling : List Char

/-- The text that pieces make up. -/
def spelled (pieces : List SpelledToken) : List Char := pieces.flatMap (·.spelling)

@[simp] theorem spelled_cons (piece : SpelledToken) (rest : List SpelledToken) :
    spelled (piece :: rest) = piece.spelling ++ spelled rest :=
  rfl

/-- Characters cut into pieces, each of which is read at its place. A word may stand before the first
or not. -/
inductive Cut : Bool → List Char → List SpelledToken → Prop where
  | nil {afterWord : Bool} : Cut afterWord [] []
  | cons {afterWord : Bool} {c : Char} {rest spelling after : List Char} {token : Token}
      {pieces : List SpelledToken} :
      scanToken afterWord c rest = .ok (token, after) → c :: rest = spelling ++ after →
      Cut token.isWord after pieces → Cut afterWord (c :: rest) (⟨token, spelling⟩ :: pieces)

/-- Tokens with their lines, the first of which is given. -/
def place : Nat → List SpelledToken → List PlacedToken
  | _, [] => []
  | line, piece :: rest => ⟨piece.token, line⟩ :: place (line + lineFeeds piece.spelling) rest

theorem lineFeeds_append (chars more : List Char) :
    lineFeeds (chars ++ more) = lineFeeds chars + lineFeeds more :=
  List.countP_append

section Cut

variable {afterWord : Bool} {chars : List Char} {pieces : List SpelledToken}

/-- The spellings of the pieces make up the text. -/
theorem Cut.spelled_eq (h : Cut afterWord chars pieces) : spelled pieces = chars := by
  induction h with
  | nil => rfl
  | cons _ hspelling _ ih => rw [spelled_cons, ih, hspelling]

theorem place_append (line : Nat) (pieces more : List SpelledToken) :
    place line (pieces ++ more) =
      place line pieces ++ place (line + lineFeeds (spelled pieces)) more := by
  induction pieces generalizing line with
  | nil => rfl
  | cons piece rest ih =>
    rw [List.cons_append, place, ih, spelled_cons, lineFeeds_append, Nat.add_assoc]
    rfl

theorem map_token_place (line : Nat) (pieces : List SpelledToken) :
    (place line pieces).map (·.token) = pieces.map (·.token) := by
  induction pieces generalizing line with
  | nil => rfl
  | cons piece rest ih => exact congrArg (piece.token :: ·) (ih _)

/-- After a token the rest of the text is scanned, from the line on which the token ends. -/
theorem scanFrom_cons {fuel line : Nat} {c : Char} {rest spelling after : List Char} {token : Token}
    (hread : scanToken afterWord c rest = .ok (token, after))
    (hspelling : c :: rest = spelling ++ after) :
    scanFrom (fuel + 1) afterWord line (c :: rest) =
      (scanFrom fuel token.isWord (line + lineFeeds spelling) after).map (⟨token, line⟩ :: ·) := by
  have htake : (c :: rest).take (rest.length + 1 - after.length) = spelling := by
    have hlength := congrArg List.length hspelling
    rw [List.length_cons, List.length_append] at hlength
    rw [hlength, Nat.add_sub_cancel, hspelling, List.take_left]
  rw [scanFrom, hread]
  dsimp only
  rw [htake]
  cases scanFrom fuel token.isWord (line + lineFeeds spelling) after <;> rfl

/-- Every step takes a character, so the length of a text is enough to cut it. -/
theorem scanFrom_eq_ok {fuel line : Nat} {placed : List PlacedToken} (hfuel : chars.length ≤ fuel) :
    scanFrom fuel afterWord line chars = .ok placed ↔
      ∃ pieces, Cut afterWord chars pieces ∧ placed = place line pieces := by
  induction fuel generalizing afterWord line chars placed with
  | zero =>
    obtain rfl := List.eq_nil_of_length_eq_zero (Nat.le_zero.mp hfuel)
    constructor
    · intro h
      exact ⟨[], .nil, (Except.ok.inj h).symm⟩
    · rintro ⟨pieces, ⟨⟩, rfl⟩
      rfl
  | succ fuel ih =>
    cases chars with
    | nil =>
      constructor
      · intro h
        exact ⟨[], .nil, (Except.ok.inj h).symm⟩
      · rintro ⟨pieces, ⟨⟩, rfl⟩
        rfl
    | cons c rest =>
      -- No token has an empty spelling, so the fuel covers what is behind it.
      have hlength {spelling after : List Char} {token : Token}
          (hspelling : c :: rest = spelling ++ after)
          (hreads : Reads afterWord token spelling after) : after.length ≤ fuel := by
        have hlength := congrArg List.length hspelling
        have hpositive := List.length_pos_iff.mpr hreads.spelling_ne_nil
        rw [List.length_append] at hlength
        omega
      constructor
      · intro h
        cases hread : scanToken afterWord c rest with
        | error fault =>
          rw [scanFrom, hread] at h
          cases fault <;> cases h
        | ok result =>
          obtain ⟨token, after⟩ := result
          obtain ⟨spelling, hspelling, hreads⟩ := reads_of_scanToken hread
          rw [scanFrom_cons hread hspelling] at h
          cases hrest : scanFrom fuel token.isWord (line + lineFeeds spelling) after with
          | error failure =>
            rw [hrest] at h
            cases h
          | ok more =>
            rw [hrest] at h
            obtain rfl := Except.ok.inj h
            obtain ⟨pieces, hcut, rfl⟩ := (ih (hlength hspelling hreads)).mp hrest
            exact ⟨_, .cons hread hspelling hcut, rfl⟩
      · rintro ⟨pieces, hcut, rfl⟩
        cases hcut with
        | @cons _ _ _ spelling after token pieces hread hspelling hcut =>
          obtain ⟨spelling', hspelling', hreads⟩ := reads_of_scanToken hread
          rw [scanFrom_cons hread hspelling,
            (ih (hlength hspelling' hreads)).mpr ⟨pieces, hcut, rfl⟩]
          rfl

/-- A text has tokens if it can be cut into pieces. -/
theorem scan_eq_ok {text : String} {placed : List PlacedToken} :
    scan text = .ok placed ↔ ∃ pieces, Cut false text.toList pieces ∧ placed = place 1 pieces :=
  scanFrom_eq_ok (Nat.le_refl _)

/-- A text without tokens is reported on the line of a place in it. -/
theorem scanFrom_eq_error {fuel line : Nat} {failure : ScanError}
    (h : scanFrom fuel afterWord line chars = .error failure) :
    ∃ before after, chars = before ++ after ∧ failure.line = line + lineFeeds before := by
  induction fuel generalizing afterWord line chars with
  | zero => cases h
  | succ fuel ih =>
    cases chars with
    | nil => cases h
    | cons c rest =>
      cases hread : scanToken afterWord c rest with
      | error fault =>
        rw [scanFrom, hread] at h
        cases fault with
        -- A failure is reported where its token starts, or at the end of a text that ends within
        -- it.
        | here =>
          obtain rfl := Except.error.inj h
          exact ⟨[], c :: rest, rfl, rfl⟩
        | atEnd =>
          obtain rfl := Except.error.inj h
          exact ⟨c :: rest, [], (List.append_nil _).symm, rfl⟩
      | ok result =>
        obtain ⟨token, after⟩ := result
        obtain ⟨spelling, hspelling, -⟩ := reads_of_scanToken hread
        rw [scanFrom_cons hread hspelling] at h
        cases hrest : scanFrom fuel token.isWord (line + lineFeeds spelling) after with
        | ok more =>
          rw [hrest] at h
          cases h
        | error cause =>
          rw [hrest] at h
          obtain rfl := Except.error.inj h
          obtain ⟨before, after, rfl, hline⟩ := ih hrest
          refine ⟨spelling ++ before, after, by rw [hspelling, List.append_assoc], ?_⟩
          rw [hline, lineFeeds_append, Nat.add_assoc]

end Cut

end SchemaPlan.Sql
