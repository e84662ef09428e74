import MonkeySyntax.Grammar
import MonkeySyntax.Parser.Cursor
import MonkeySyntax.Tree

namespace MonkeySyntax

open Reader

/-! The readers that call one another: what each rule reads is written in terms
of them, and they are tied together elsewhere. -/

structure Productions (σ : Type) where
  statement : Reader σ Stmt
  /-- The statements up to the brace that closes a block, or up to the end. -/
  statements : Reader σ (List Stmt)
  expression : BindingPower → Reader σ Expr
  /-- Goes on with an expression as long as operators above the power follow. -/
  operators : BindingPower → Expr → Reader σ Expr
  /-- The parameters that follow the first, each after its comma. -/
  parameters : Reader σ (List Identifier)
  /-- The arguments that follow the first, each after its comma. -/
  arguments : Reader σ (List Expr)

namespace Productions

def exhausted (σ : Type) : Productions σ where
  statement cursor := .error .endless cursor
  statements cursor := .error .endless cursor
  expression _ cursor := .error .endless cursor
  operators _ _ cursor := .error .endless cursor
  parameters cursor := .error .endless cursor
  arguments cursor := .error .endless cursor

/-! The statements, and the blocks that hold them.  A statement starts at the
current token and leaves its last token current. -/

variable {σ : Type} [TokenSource σ] (inner : Productions σ)

/-- From the opening brace to the closing one.  A fault inside leaves the block
entered. -/
def block : Reader σ Block := do
  let token ← advance
  enterBlock
  let statements ← inner.statements
  let last ← current
  if last.kind = .eof then
    fail (.unclosedDelimiter .closeCurly .eof) last.span.start
  else
    leaveBlock
    return .mk token statements

def expressionStatement : Reader σ Stmt := do
  let token ← current
  let value ← inner.expression .lowest
  endStatement
  return .expression token value

def letStatement : Reader σ Stmt := do
  let token ← current
  expect .identifier
  let name ← current
  expect .assignment
  skip
  let value ← inner.expression .lowest
  endStatement
  return .letBinding token ⟨name, name.text⟩ value

/-- The value of a return, which may be left out before a semicolon, a closing
brace and the end. -/
def returnedValue : Reader σ (Option Expr) := do
  let next ← peek
  if next.kind = .semicolon ∨ next.kind = .closeCurly ∨ next.kind = .eof then
    return none
  else
    skip
    return some (← inner.expression .lowest)

def returnStatement : Reader σ Stmt := do
  let token ← current
  let value? ← inner.returnedValue
  endStatement
  return .returning token value?

def blockStatement : Reader σ Stmt := do
  let body ← inner.block
  endStatement
  return .block body

end Productions

def StatementRule.read {σ : Type} [TokenSource σ] (inner : Productions σ) :
    StatementRule → Reader σ Stmt
  | .expression => inner.expressionStatement
  | .letBinding => inner.letStatement
  | .returning => inner.returnStatement
  | .block => inner.blockStatement

end MonkeySyntax
