import MonkeySyntax.Proofs.Productions.Depth
import MonkeySyntax.Proofs.Productions.Relation

namespace MonkeySyntax

/-! Productions that go as deep as the tokens that are left ask for.  They are made
of themselves by one layer, so that no depth is seen from outside. -/

variable {σ : Type}

namespace Reader

variable {α β : Type} {reader reader' : Reader σ α}

/-- What the first reader gives, unless it is exhausted, the second gives too. -/
def Approximates (reader reader' : Reader σ α) : Prop :=
  ∀ cursor, (∃ cursor', reader cursor = .error .endless cursor') ∨
    reader cursor = reader' cursor

theorem Approximates.refl (reader : Reader σ α) : Approximates reader reader :=
  fun _ => .inr rfl

theorem Approximates.bind {next next' : α → Reader σ β} (h : Approximates reader reader')
    (hnext : ∀ value, Approximates (next value) (next' value)) :
    Approximates (reader >>= next) (reader' >>= next') := by
  intro cursor
  rcases h cursor with ⟨cursor', hexhausted⟩ | heq
  · exact .inl ⟨cursor', by simp [hexhausted]⟩
  · rw [bind_apply, bind_apply, ← heq]
    cases reader cursor with
    | ok value cursor => exact hnext value cursor
    | error stop cursor => exact .inr rfl

/-- Of readers that give more and more, the one that is picked where each cursor asks
for enough. -/
theorem approximates_of_enough (readers : Nat → Reader σ α) (enough : Cursor σ → Nat)
    (hmono : ∀ {few many}, few ≤ many → Approximates (readers few) (readers many))
    (henough : ∀ cursor cursor',
      readers (enough cursor) cursor ≠ .error .endless cursor') (count : Nat) :
    Approximates (readers count) (fun cursor => readers (enough cursor) cursor) := by
  intro cursor
  rcases Nat.le_total count (enough cursor) with hle | hle
  · exact hmono hle cursor
  · rcases hmono hle cursor with ⟨cursor', hexhausted⟩ | heq
    · exact absurd hexhausted (henough cursor cursor')
    · exact .inr heq.symm

theorem Approximates.eq (h : Approximates reader reader') {cursor : Cursor σ}
    {returns : α → Cursor σ → Prop} {stops : Stop → Cursor σ → Prop}
    (hends : Ends reader returns stops cursor)
    (hstops : ∀ cursor, ¬ stops .endless cursor) :
    reader cursor = reader' cursor := by
  rcases h cursor with ⟨cursor', hexhausted⟩ | heq
  · exact absurd (hends.of_error hexhausted) (hstops cursor')
  · exact heq

variable [TokenSource σ]

/-- To approximate is a relation that every step of a reader keeps. -/
def approximation (σ : Type) [TokenSource σ] : StepRelation σ σ where
  Holds := Approximates
  pure _ := .refl _
  bind h hnext := h.bind hnext
  current := .refl _
  peek := .refl _
  fail _ _ := .refl _
  note _ := .refl _
  enterBlock := .refl _
  leaveBlock := .refl _
  skip := .refl _
  advance := .refl _

end Reader

open Reader

attribute [ext] Productions

namespace Productions

variable [TokenSource σ]

abbrev Approximates (inner inner' : Productions σ) : Prop :=
  Related (approximation σ).toRelation inner inner'

theorem exhausted_approximates (inner : Productions σ) : Approximates (exhausted σ) inner where
  statement cursor := .inl ⟨cursor, rfl⟩
  statements cursor := .inl ⟨cursor, rfl⟩
  expression _ cursor := .inl ⟨cursor, rfl⟩
  operators _ _ cursor := .inl ⟨cursor, rfl⟩
  parameters cursor := .inl ⟨cursor, rfl⟩
  arguments cursor := .inl ⟨cursor, rfl⟩

theorem toDepth_approximates (grammar : Grammar) {depth depth' : Nat} (h : depth ≤ depth') :
    Approximates (toDepth grammar depth : Productions σ) (toDepth grammar depth') := by
  induction depth generalizing depth' with
  | zero => exact exhausted_approximates _
  | succ depth ih =>
      cases depth' with
      | zero => exact absurd h (Nat.not_succ_le_zero depth)
      | succ depth' => exact (ih (Nat.le_of_succ_le_succ h)).layer grammar

/-- The productions, each at a depth that suffices from where it starts. -/
def tied (grammar : Grammar) : Productions σ where
  statement cursor := (toDepth grammar (sufficientDepth cursor)).statement cursor
  statements cursor := (toDepth grammar (sufficientDepth cursor)).statements cursor
  expression power cursor :=
    (toDepth grammar (sufficientDepth cursor)).expression power cursor
  operators power left cursor :=
    (toDepth grammar (sufficientDepth cursor)).operators power left cursor
  parameters cursor := (toDepth grammar (sufficientDepth cursor)).parameters cursor
  arguments cursor := (toDepth grammar (sufficientDepth cursor)).arguments cursor

theorem tied_statement (grammar : Grammar) (cursor : Cursor σ) :
    (tied grammar).statement cursor =
      (toDepth grammar (sufficientDepth cursor)).statement cursor := by
  simp only [tied]

variable [BoundedTokenSource σ] {grammar : Grammar}

theorem toDepth_statement (hgrammar : grammar.LeavesEnd) {depth : Nat} {cursor : Cursor σ}
    (h : sufficientDepth cursor ≤ depth) :
    (toDepth grammar depth).statement cursor = (tied grammar).statement cursor := by
  have hends := (sufficient_toDepth hgrammar (sufficientDepth cursor)).statement cursor
    (by unfold sufficientDepth; omega)
  rw [tied_statement]
  exact ((toDepth_approximates grammar h).statement.eq hends fun _ hstop => hstop.1 rfl).symm

theorem sufficient_tied (hgrammar : grammar.LeavesEnd) (cursor : Cursor σ) :
    Sufficient (4 * cursor.left + 16)
      (toDepth grammar (sufficientDepth cursor) : Productions σ) :=
  sufficient_toDepth hgrammar _

theorem toDepth_approximates_tied (hgrammar : grammar.LeavesEnd) (depth : Nat) :
    Approximates (toDepth grammar depth : Productions σ) (tied grammar) where
  statement := by
    simp only [tied]
    apply approximates_of_enough (fun depth => (toDepth grammar depth).statement)
      sufficientDepth
    · exact fun h => (toDepth_approximates grammar h).statement
    · intro cursor cursor'
      have hends := (sufficient_tied hgrammar cursor).statement cursor (by omega)
      exact hends.ne_error fun hstop => hstop.1 rfl
  statements := by
    simp only [tied]
    apply approximates_of_enough (fun depth => (toDepth grammar depth).statements)
      sufficientDepth
    · exact fun h => (toDepth_approximates grammar h).statements
    · intro cursor cursor'
      have hends := (sufficient_tied hgrammar cursor).statements cursor (by omega)
      exact hends.ne_error fun hstop => hstop.1 rfl
  expression power := by
    simp only [tied]
    apply approximates_of_enough (fun depth => (toDepth grammar depth).expression power)
      sufficientDepth
    · exact fun h => (toDepth_approximates grammar h).expression power
    · intro cursor cursor'
      have hends := (sufficient_tied hgrammar cursor).expression power cursor (by omega)
      exact hends.ne_error fun hstop => hstop.1 rfl
  operators power left := by
    simp only [tied]
    apply approximates_of_enough (fun depth => (toDepth grammar depth).operators power left)
      sufficientDepth
    · exact fun h => (toDepth_approximates grammar h).operators power left
    · intro cursor cursor'
      have hends := (sufficient_tied hgrammar cursor).operators power left cursor (by omega)
      exact hends.ne_error fun hstop => hstop.1 rfl
  parameters := by
    simp only [tied]
    apply approximates_of_enough (fun depth => (toDepth grammar depth).parameters)
      sufficientDepth
    · exact fun h => (toDepth_approximates grammar h).parameters
    · intro cursor cursor'
      have hends := (sufficient_tied hgrammar cursor).parameters cursor (by omega)
      exact hends.ne_error fun hstop => hstop.1 rfl
  arguments := by
    simp only [tied]
    apply approximates_of_enough (fun depth => (toDepth grammar depth).arguments)
      sufficientDepth
    · exact fun h => (toDepth_approximates grammar h).arguments
    · intro cursor cursor'
      have hends := (sufficient_tied hgrammar cursor).arguments cursor (by omega)
      exact hends.ne_error fun hstop => hstop.1 rfl

theorem toDepth_sufficient_approximates (hgrammar : grammar.LeavesEnd) (cursor : Cursor σ) :
    Approximates (toDepth grammar (sufficientDepth cursor) : Productions σ)
      (layer grammar (tied grammar)) := by
  rw [sufficientDepth, toDepth_succ]
  exact (toDepth_approximates_tied hgrammar _).layer grammar

theorem tied_eq_layer (hgrammar : grammar.LeavesEnd) :
    (tied grammar : Productions σ) = layer grammar (tied grammar) := by
  have hknot := toDepth_sufficient_approximates (σ := σ) hgrammar
  have hends := sufficient_tied (σ := σ) hgrammar
  generalize (layer grammar (tied grammar) : Productions σ) = knot at hknot ⊢
  apply Productions.ext
  all_goals simp only [tied]
  · funext cursor
    exact (hknot cursor).statement.eq ((hends cursor).statement cursor (by omega))
      fun _ hstop => hstop.1 rfl
  · funext cursor
    exact (hknot cursor).statements.eq ((hends cursor).statements cursor (by omega))
      fun _ hstop => hstop.1 rfl
  · funext power cursor
    exact ((hknot cursor).expression power).eq ((hends cursor).expression power cursor (by omega))
      fun _ hstop => hstop.1 rfl
  · funext power left cursor
    exact ((hknot cursor).operators power left).eq
      ((hends cursor).operators power left cursor (by omega)) fun _ hstop => hstop.1 rfl
  · funext cursor
    exact (hknot cursor).parameters.eq ((hends cursor).parameters cursor (by omega))
      fun _ hstop => hstop.1 rfl
  · funext cursor
    exact (hknot cursor).arguments.eq ((hends cursor).arguments cursor (by omega))
      fun _ hstop => hstop.1 rfl

end Productions

end MonkeySyntax
