import MonkeySyntax.Parser.Expression

namespace MonkeySyntax

open Reader

namespace Productions

/-! The productions of a grammar call one another, to a depth that is given
beforehand. -/

variable {σ : Type} [TokenSource σ]

/-- The productions, given the ones to call. -/
def layer (grammar : Grammar) (inner : Productions σ) : Productions σ where
  statement := do
    let token ← current
    note (.statement token.kind token.text)
    match grammar.statement? token.kind with
    | some rule => rule.read inner
    | none => inner.expressionStatement
  statements := do
    let token ← current
    if token.kind = .closeCurly ∨ token.kind = .eof then
      return []
    else
      let first ← inner.statement
      skip
      let rest ← inner.statements
      return first :: rest
  expression power := do
    let token ← current
    match grammar.operand? token.kind with
    | some rule =>
      let left ← rule.read inner
      inner.operators power left
    | none => fail (.noOperand token.kind) token.span.start
  operators power left := do
    let next ← peek
    match grammar.operator? next.kind with
    | some operator =>
      if next.kind ≠ .semicolon ∧ power < operator.power then
        skip
        let longer ← operator.rule.read inner left operator.power
        inner.operators power longer
      else
        return left
    | none => return left
  parameters := do
    let next ← peek
    if next.kind = .comma then
      skip
      expect .identifier
      let first ← identifier
      let rest ← inner.parameters
      return first :: rest
    else
      return []
  arguments := do
    let next ← peek
    if next.kind = .comma then
      skip
      skip
      let first ← inner.expression .lowest
      let rest ← inner.arguments
      return first :: rest
    else
      return []

/-- Each production waits for its cursor before the ones that it calls are made. -/
def toDepth (grammar : Grammar) : Nat → Productions σ
  | 0 => exhausted σ
  | depth + 1 =>
    { statement := fun cursor => (layer grammar (toDepth grammar depth)).statement cursor
      statements := fun cursor => (layer grammar (toDepth grammar depth)).statements cursor
      expression := fun power cursor =>
        (layer grammar (toDepth grammar depth)).expression power cursor
      operators := fun power left cursor =>
        (layer grammar (toDepth grammar depth)).operators power left cursor
      parameters := fun cursor => (layer grammar (toDepth grammar depth)).parameters cursor
      arguments := fun cursor => (layer grammar (toDepth grammar depth)).arguments cursor }

theorem toDepth_succ (grammar : Grammar) (depth : Nat) :
    (toDepth grammar (depth + 1) : Productions σ) = layer grammar (toDepth grammar depth) :=
  rfl

/-- A depth that suffices for any grammar with no rule for the end: at most four
productions call one another before a token has been read. -/
def sufficientDepth (cursor : Cursor σ) : Nat :=
  4 * cursor.left + 16

end Productions

end MonkeySyntax
