import MonkeySyntax.Numeral
import MonkeySyntax.Parser.Statement

namespace MonkeySyntax

open Reader

namespace Productions

/-! The operands of expressions, and the operators that join them.  Each leaves
the last token of what it has read current. -/

section Operands

variable {σ : Type}

def identifier : Reader σ Identifier := do
  let token ← current
  return ⟨token, token.text⟩

def integer : Reader σ Expr := do
  let token ← current
  match Numeral.value? token.text with
  | some value => return .integer token value
  | none => fail (.malformedInteger token.text) token.span.start

def boolean : Reader σ Expr := do
  let token ← current
  return .boolean token (token.kind == .trueWord)

variable [TokenSource σ] (inner : Productions σ)

def unary : Reader σ Expr := do
  let token ← advance
  let operand ← inner.expression .unary
  return .unary token token.text operand

def grouping : Reader σ Expr := do
  skip
  let value ← inner.expression .lowest
  expect .closeParen
  return value

def alternative : Reader σ (Option Block) := do
  let next ← peek
  if next.kind = .elseWord then
    skip
    expect .openCurly
    return some (← inner.block)
  else
    return none

def ifElse : Reader σ Expr := do
  let token ← current
  expect .openParen
  skip
  let condition ← inner.expression .lowest
  expect .closeParen
  expect .openCurly
  let consequence ← inner.block
  let alternative? ← inner.alternative
  return .ifElse token condition consequence alternative?

/-- The names between the parentheses, of which the opening one is current. -/
def parameterList : Reader σ (List Identifier) := do
  let next ← peek
  if next.kind = .closeParen then
    skip
    return []
  else
    expect .identifier
    let first ← identifier
    let rest ← inner.parameters
    expect .closeParen
    return first :: rest

def function : Reader σ Expr := do
  let token ← current
  expect .openParen
  let parameters ← inner.parameterList
  expect .openCurly
  let body ← inner.block
  return .function token parameters body

end Operands

section Operators

variable {σ : Type} [TokenSource σ] (inner : Productions σ)

def binary (left : Expr) (power : BindingPower) : Reader σ Expr := do
  let token ← advance
  let right ← inner.expression power
  return .binary token left token.text right

/-- The values between the parentheses, of which the opening one is current. -/
def argumentList : Reader σ (List Expr) := do
  let next ← peek
  if next.kind = .closeParen then
    skip
    return []
  else
    skip
    let first ← inner.expression .lowest
    let rest ← inner.arguments
    expect .closeParen
    return first :: rest

def call (callee : Expr) : Reader σ Expr := do
  let token ← current
  let arguments ← inner.argumentList
  return .call token callee arguments

end Operators

end Productions

variable {σ : Type} [TokenSource σ] (inner : Productions σ)

def OperandRule.read : OperandRule → Reader σ Expr
  | .identifier => return .identifier (← Productions.identifier)
  | .integer => Productions.integer
  | .boolean => Productions.boolean
  | .unary => inner.unary
  | .grouping => inner.grouping
  | .ifElse => inner.ifElse
  | .function => inner.function

/-- The operator is current and binds with the given power. -/
def OperatorRule.read (left : Expr) (power : BindingPower) : OperatorRule → Reader σ Expr
  | .binary => inner.binary left power
  | .call => inner.call left

end MonkeySyntax
