import MonkeySyntax.Token

namespace MonkeySyntax

/-! Syntax trees.  Every node keeps the token it is known by: the first token
of a statement, block, literal, conditional or function, the operator of an
operation, the opening parenthesis of a call. -/

structure Identifier where
  token : Token
  word : String
deriving DecidableEq, Repr, Inhabited

mutual

inductive Expr where
  | identifier (name : Identifier)
  | integer (token : Token) (value : Int64)
  | boolean (token : Token) (value : Bool)
  | unary (token : Token) (operator : String) (operand : Expr)
  | binary (token : Token) (left : Expr) (operator : String) (right : Expr)
  | ifElse (token : Token) (condition : Expr) (consequence : Block)
      (alternative? : Option Block)
  | function (token : Token) (parameters : List Identifier) (body : Block)
  | call (token : Token) (callee : Expr) (arguments : List Expr)

inductive Block where
  | mk (token : Token) (statements : List Stmt)

inductive Stmt where
  | letBinding (token : Token) (name : Identifier) (value : Expr)
  | returning (token : Token) (value? : Option Expr)
  | expression (token : Token) (value : Expr)
  | block (body : Block)

end

deriving instance Repr, Inhabited for Expr, Block, Stmt

structure Program where
  statements : List Stmt
  span : Span
deriving Repr, Inhabited

def Expr.token : Expr → Token
  | .identifier name => name.token
  | .integer token .. | .boolean token .. | .unary token .. | .binary token ..
  | .ifElse token .. | .function token .. | .call token .. => token

def Block.token : Block → Token
  | .mk token _ => token

def Block.statements : Block → List Stmt
  | .mk _ statements => statements

def Stmt.token : Stmt → Token
  | .letBinding token .. | .returning token .. | .expression token .. => token
  | .block body => body.token

/-- The text of the token that the first statement is known by. -/
def Program.literal (program : Program) : String :=
  match program.statements with
  | [] => ""
  | first :: _ => first.token.text

/-! Trees as source text.  Operations stand in parentheses, so that no tree
needs any other grouping. -/

def commaSeparated : List String → String
  | [] => ""
  | [last] => last
  | first :: next :: rest => first ++ ", " ++ commaSeparated (next :: rest)

/-- A bare expression would run into the statement that follows it, so a
semicolon has to end it. -/
def Stmt.isBare : Stmt → Bool
  | .expression .. => true
  | _ => false

mutual

def Expr.render : Expr → String
  | .identifier name => name.word
  | .integer token _ => token.text
  | .boolean token _ => token.text
  | .unary _ operator operand => "(" ++ operator ++ operand.render ++ ")"
  | .binary _ left operator right =>
    "(" ++ left.render ++ " " ++ operator ++ " " ++ right.render ++ ")"
  | .ifElse token condition consequence alternative? =>
    token.text ++ " (" ++ condition.render ++ ") " ++ consequence.render ++
      Block.renderElse alternative?
  | .function token parameters body =>
    token.text ++ "(" ++ commaSeparated (parameters.map Identifier.word) ++ ") " ++
      body.render
  | .call _ callee arguments =>
    callee.render ++ "(" ++ commaSeparated (Expr.renderAll arguments) ++ ")"

def Expr.renderAll : List Expr → List String
  | [] => []
  | first :: rest => first.render :: Expr.renderAll rest

def Block.render : Block → String
  | .mk _ statements => "\x7b " ++ Stmt.renderAll statements ++ "\x7d"

def Block.renderElse : Option Block → String
  | none => ""
  | some alternative => " else " ++ alternative.render

def Stmt.render : Stmt → String
  | .letBinding token name value =>
    token.text ++ " " ++ name.word ++ " = " ++ value.render ++ ";"
  | .returning token none => token.text ++ ";"
  | .returning token (some value) => token.text ++ " " ++ value.render ++ ";"
  | .expression _ value => value.render
  | .block body => body.render

/-- The statements of a block. -/
def Stmt.renderAll : List Stmt → String
  | [] => ""
  | first :: rest =>
    first.render ++ (if first.isBare then "; " else " ") ++ Stmt.renderAll rest

end

/-- The statements of a program, of which the last needs no end. -/
def Program.renderStatements : List Stmt → String
  | [] => ""
  | [last] => last.render
  | first :: next :: rest =>
    first.render ++ (if first.isBare then ";" else "") ++
      Program.renderStatements (next :: rest)

def Program.render (program : Program) : String :=
  renderStatements program.statements

end MonkeySyntax
