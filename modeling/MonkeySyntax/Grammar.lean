import MonkeySyntax.Token

namespace MonkeySyntax

/-! How tightly operators bind, from the weakest on. -/

inductive BindingPower where
  | lowest
  | equality
  | relational
  | additive
  | multiplicative
  | unary
  | call
deriving DecidableEq, Repr, Inhabited

namespace BindingPower

def rank : BindingPower → Nat
  | .lowest => 0
  | .equality => 1
  | .relational => 2
  | .additive => 3
  | .multiplicative => 4
  | .unary => 5
  | .call => 6

instance : LT BindingPower where
  lt left right := left.rank < right.rank

instance (left right : BindingPower) : Decidable (left < right) :=
  inferInstanceAs (Decidable (left.rank < right.rank))

theorem lt_iff {left right : BindingPower} : left < right ↔ left.rank < right.rank := Iff.rfl

theorem lt_of_lt_of_not_lt {power power' operator : BindingPower} (h : power < operator)
    (h' : ¬ power' < operator) : power < power' :=
  Nat.lt_of_lt_of_le h (Nat.le_of_not_lt h')

theorem not_lt_of_lt_of_not_lt {power operator operator' : BindingPower} (h : power < operator)
    (h' : ¬ power < operator') : ¬ operator < operator' :=
  fun hlt => h' (Nat.lt_trans h hlt)

end BindingPower

/-! Which rule reads what, by the kind of the token that it starts at. -/

/-- A statement is a bare expression unless another rule is named for it. -/
inductive StatementRule where
  | expression
  | letBinding
  | returning
  | block
deriving DecidableEq, Repr

/-- What may start an expression. -/
inductive OperandRule where
  | identifier
  | integer
  | boolean
  | unary
  | grouping
  | ifElse
  | function
deriving DecidableEq, Repr

/-- What may go on with an expression once its first part has been read. -/
inductive OperatorRule where
  | binary
  | call
deriving DecidableEq, Repr

structure Operator where
  power : BindingPower
  rule : OperatorRule
deriving DecidableEq, Repr

structure Grammar where
  statement? : Kind → Option StatementRule
  operand? : Kind → Option OperandRule
  operator? : Kind → Option Operator

namespace Grammar

def standard : Grammar where
  statement?
    | .letWord => some .letBinding
    | .returnWord => some .returning
    | .openCurly => some .block
    | _ => none
  operand?
    | .identifier => some .identifier
    | .integer => some .integer
    | .trueWord | .falseWord => some .boolean
    | .not | .dash => some .unary
    | .openParen => some .grouping
    | .ifWord => some .ifElse
    | .fnWord => some .function
    | _ => none
  operator?
    | .equals | .notEquals => some ⟨.equality, .binary⟩
    | .less | .greater => some ⟨.relational, .binary⟩
    | .plus | .dash => some ⟨.additive, .binary⟩
    | .star | .slash => some ⟨.multiplicative, .binary⟩
    | .openParen => some ⟨.call, .call⟩
    | _ => none

def withStatement (grammar : Grammar) (kind : Kind) (rule : StatementRule) : Grammar :=
  { grammar with
    statement? := fun other => if other = kind then some rule else grammar.statement? other }

def withOperand (grammar : Grammar) (kind : Kind) (rule : OperandRule) : Grammar :=
  { grammar with
    operand? := fun other => if other = kind then some rule else grammar.operand? other }

def withOperator (grammar : Grammar) (kind : Kind) (operator : Operator) : Grammar :=
  { grammar with
    operator? := fun other => if other = kind then some operator else grammar.operator? other }

/-- The power with which a token binds an expression on its left; the lowest
where the token is no operator. -/
def power (grammar : Grammar) (kind : Kind) : BindingPower :=
  match grammar.operator? kind with
  | some operator => operator.power
  | none => .lowest

end Grammar

end MonkeySyntax
