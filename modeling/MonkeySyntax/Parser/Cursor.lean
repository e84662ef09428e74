import MonkeySyntax.Token.Source

namespace MonkeySyntax

/-! The window of two tokens through which a program is read. -/

/-- A count of blocks in a word of the machine, which holds no number beyond the greatest one.
Where none is given, all numbers fit. -/
@[ext] structure Depth where
  blocks : Nat
  greatest? : Option Nat
  fits : ∀ greatest ∈ greatest?, blocks ≤ greatest
deriving DecidableEq, Repr

namespace Depth

/-- Outside of all blocks. -/
def outside (greatest? : Option Nat) : Depth :=
  ⟨0, greatest?, fun _ _ => Nat.zero_le _⟩

/-- One block more, if the number fits. -/
def enter? (depth : Depth) : Option Depth :=
  if h : ∀ greatest ∈ depth.greatest?, depth.blocks + 1 ≤ greatest then
    some ⟨depth.blocks + 1, depth.greatest?, h⟩
  else
    none

/-- One block less, if there is one. -/
def leave (depth : Depth) : Depth :=
  ⟨depth.blocks - 1, depth.greatest?,
    fun greatest h => Nat.le_trans (Nat.sub_le ..) (depth.fits greatest h)⟩

@[simp] theorem blocks_outside (greatest? : Option Nat) : (outside greatest?).blocks = 0 := rfl

@[simp] theorem greatest?_outside (greatest? : Option Nat) :
    (outside greatest?).greatest? = greatest? := rfl

@[simp] theorem blocks_leave (depth : Depth) : depth.leave.blocks = depth.blocks - 1 := rfl

@[simp] theorem greatest?_leave (depth : Depth) : depth.leave.greatest? = depth.greatest? := rfl

theorem blocks_enter? {depth inner : Depth} (h : depth.enter? = some inner) :
    inner.blocks = depth.blocks + 1 := by
  rw [enter?] at h
  split at h
  · cases h
    rfl
  · cases h

theorem greatest?_enter? {depth inner : Depth} (h : depth.enter? = some inner) :
    inner.greatest? = depth.greatest? := by
  rw [enter?] at h
  split at h
  · cases h
    rfl
  · cases h

theorem leave_enter? {depth inner : Depth} (h : depth.enter? = some inner) :
    inner.leave = depth := by
  apply Depth.ext
  · rw [blocks_leave, blocks_enter? h, Nat.add_sub_cancel]
  · rw [greatest?_leave, greatest?_enter? h]

/-- One block more cannot be counted exactly where the count has come to the greatest number. -/
theorem enter?_eq_none_iff (depth : Depth) :
    depth.enter? = none ↔ depth.greatest? = some depth.blocks := by
  have hfits := depth.fits
  rw [enter?]
  cases hgreatest : depth.greatest? with
  | none => simp
  | some greatest =>
      rw [hgreatest] at hfits
      have hle := hfits greatest rfl
      simp
      omega

end Depth

/-- All of a parser that changes while it reads. -/
structure Cursor (σ : Type) where
  source : σ
  current : Token
  peek : Token
  /-- The blocks that have been entered and not been left. -/
  depth : Depth
  /-- What has been found wrong with the statements so far. -/
  diagnostics : Array Diagnostic
  journal : Array Journal.Entry

/-- What a reader can run out of. -/
inductive Resource where
  /-- Calls inside calls, when the grammar calls itself for ever, as a rule for the end of the
  input can make it do. -/
  | calls
  /-- Numbers for the count of blocks. -/
  | numbers
deriving DecidableEq, Repr

/-- Why a reader stops before it has a result. -/
inductive Stop where
  | fault (diagnostic : Diagnostic)
  | exhausted {resource : Resource}
deriving DecidableEq, Repr

@[match_pattern] abbrev Stop.endless : Stop := @exhausted .calls

@[match_pattern] abbrev Stop.overflow : Stop := @exhausted .numbers

/-- Readers move a cursor.  One that stops leaves the cursor where it stopped. -/
abbrev Reader (σ : Type) := EStateM Stop (Cursor σ)

variable {σ : Type}

namespace Cursor

def note (cursor : Cursor σ) (entry : Journal.Entry) : Cursor σ :=
  { cursor with journal := cursor.journal.push entry }

def record (cursor : Cursor σ) (diagnostic : Diagnostic) : Cursor σ :=
  { cursor.note (.fault diagnostic) with diagnostics := cursor.diagnostics.push diagnostic }

variable [TokenSource σ]

/-- Adds what the source has to say about a token. -/
def noteToken (source : σ) (token : Token) (journal : Array Journal.Entry) :
    Array Journal.Entry :=
  match TokenSource.notice source token with
  | some entry => journal.push entry
  | none => journal

def advance (cursor : Cursor σ) : Cursor σ :=
  let (token, source) := TokenSource.next cursor.source
  { cursor with
    source
    current := cursor.peek
    peek := token
    journal := noteToken cursor.source token cursor.journal }

/-- A cursor at the first token of a source.  No source has so many tokens that the blocks among
them could not be counted. -/
def ofSource (source : σ) : Cursor σ :=
  let (first, rest) := TokenSource.next source
  advance ⟨rest, first, first, .outside none, #[], noteToken source first #[]⟩

/-- A bound on the tokens before the end, in the window and behind it. -/
def left (cursor : Cursor σ) : Nat :=
  cursor.current.weight + cursor.peek.weight + TokenSource.remaining cursor.source

end Cursor

namespace Reader

@[simp] theorem pure_apply {α : Type} (value : α) (cursor : Cursor σ) :
    (pure value : Reader σ α) cursor = .ok value cursor := rfl

@[simp] theorem bind_apply {α β : Type} (reader : Reader σ α) (next : α → Reader σ β)
    (cursor : Cursor σ) :
    (reader >>= next) cursor =
      match reader cursor with
      | .ok value cursor => next value cursor
      | .error stop cursor => .error stop cursor := by
  cases h : reader cursor <;> simp [bind, EStateM.bind, h]

def current : Reader σ Token := fun cursor =>
  .ok cursor.current cursor

def peek : Reader σ Token := fun cursor =>
  .ok cursor.peek cursor

def fail {α : Type} (fault : Fault) (position : Position) : Reader σ α := fun cursor =>
  .error (.fault ⟨fault, position⟩) cursor

def note (entry : Journal.Entry) : Reader σ Unit := fun cursor =>
  .ok () (cursor.note entry)

/-- Stops the reader where the blocks cannot be counted any more. -/
def enterBlock : Reader σ Unit := fun cursor =>
  match cursor.depth.enter? with
  | some depth => .ok () { cursor with depth }
  | none => .error .overflow cursor

def leaveBlock : Reader σ Unit := fun cursor =>
  .ok () { cursor with depth := cursor.depth.leave }

@[simp] theorem current_apply (cursor : Cursor σ) :
    current cursor = .ok cursor.current cursor := rfl

@[simp] theorem peek_apply (cursor : Cursor σ) :
    peek cursor = .ok cursor.peek cursor := rfl

@[simp] theorem fail_apply {α : Type} (fault : Fault) (position : Position)
    (cursor : Cursor σ) :
    (fail fault position : Reader σ α) cursor = .error (.fault ⟨fault, position⟩) cursor :=
  rfl

@[simp] theorem note_apply (entry : Journal.Entry) (cursor : Cursor σ) :
    note entry cursor = .ok () (cursor.note entry) := rfl

@[simp] theorem enterBlock_apply (cursor : Cursor σ) :
    enterBlock cursor =
      match cursor.depth.enter? with
      | some depth => .ok () { cursor with depth }
      | none => .error .overflow cursor := rfl

@[simp] theorem leaveBlock_apply (cursor : Cursor σ) :
    leaveBlock cursor = .ok () { cursor with depth := cursor.depth.leave } := rfl

variable [TokenSource σ]

/-- Moves on by one token. -/
def skip : Reader σ Unit := fun cursor =>
  .ok () cursor.advance

/-- Moves on by one token and gives the token that was current. -/
def advance : Reader σ Token := fun cursor =>
  .ok cursor.current cursor.advance

/-- Moves on to a token of the given kind; any other token stops the reader
where it stands. -/
def expect (kind : Kind) : Reader σ Unit := do
  let next ← peek
  if next.kind = kind then
    skip
  else
    fail (.ofMismatch kind next.kind) next.span.start

/-- Moves on to a semicolon if one follows. -/
def endStatement : Reader σ Unit := do
  let next ← peek
  if next.kind = .semicolon then
    skip
  else
    return ()

@[simp] theorem skip_apply (cursor : Cursor σ) :
    skip cursor = .ok () cursor.advance := rfl

@[simp] theorem advance_apply (cursor : Cursor σ) :
    advance cursor = .ok cursor.current cursor.advance := rfl

@[simp] theorem expect_apply (kind : Kind) (cursor : Cursor σ) :
    expect kind cursor =
      if cursor.peek.kind = kind then
        .ok () cursor.advance
      else
        .error (.fault ⟨.ofMismatch kind cursor.peek.kind, cursor.peek.span.start⟩) cursor := by
  simp only [expect, bind_apply, peek_apply]
  split <;> rfl

@[simp] theorem endStatement_apply (cursor : Cursor σ) :
    endStatement cursor =
      .ok () (if cursor.peek.kind = .semicolon then cursor.advance else cursor) := by
  simp only [endStatement, bind_apply, peek_apply]
  split <;> rfl

end Reader

end MonkeySyntax
