import MonkeySyntax.Parser.Recursion

namespace MonkeySyntax

/-! What holds of every step, and of readers made of readers it holds of, holds of
all productions.  The steps of two parsers are looked at side by side, which may read
from sources of two types. -/

variable {σ τ : Type} [TokenSource σ] [TokenSource τ]

/-- A relation between readers that may be put together from the single steps, and from whole
blocks. -/
structure Reader.Relation (σ τ : Type) [TokenSource σ] [TokenSource τ] where
  Holds : {α : Type} → Reader σ α → Reader τ α → Prop
  pure {α : Type} (value : α) : Holds (pure value) (pure value)
  bind {α β : Type} {reader : Reader σ α} {reader' : Reader τ α}
    {next : α → Reader σ β} {next' : α → Reader τ β} (h : Holds reader reader')
    (hnext : ∀ value, Holds (next value) (next' value)) :
    Holds (reader >>= next) (reader' >>= next')
  current : Holds current current
  peek : Holds peek peek
  fail {α : Type} (fault : Fault) (position : Position) :
    Holds (fail fault position : Reader σ α) (fail fault position)
  note (entry : Journal.Entry) : Holds (note entry) (note entry)
  skip : Holds skip skip
  advance : Holds advance advance
  block {inner : Productions σ} {inner' : Productions τ}
    (h : Holds inner.statements inner'.statements) : Holds inner.block inner'.block

/-- A relation for which a block is put together from single steps as well. -/
structure Reader.StepRelation (σ τ : Type) [TokenSource σ] [TokenSource τ]
    extends Reader.Relation σ τ where
  enterBlock : Holds enterBlock enterBlock
  leaveBlock : Holds leaveBlock leaveBlock
  block := fun h =>
    bind advance fun _ => bind enterBlock fun _ => bind h fun _ => bind current fun _ => by
      split
      · exact fail _ _
      · exact bind leaveBlock fun _ => pure _

namespace Reader.Relation

variable (R : Relation σ τ) {α : Type}

theorem ite {condition : Prop} [Decidable condition] {reader whenFalse : Reader σ α}
    {reader' whenFalse' : Reader τ α} (htrue : R.Holds reader reader')
    (hfalse : R.Holds whenFalse whenFalse') :
    R.Holds (if condition then reader else whenFalse)
      (if condition then reader' else whenFalse') := by
  split
  · exact htrue
  · exact hfalse

theorem expect (kind : Kind) : R.Holds (expect kind) (expect kind) :=
  R.bind R.peek fun _ => R.ite R.skip (R.fail _ _)

theorem endStatement : R.Holds endStatement endStatement :=
  R.bind R.peek fun _ => R.ite R.skip (R.pure _)

end Reader.Relation

namespace Productions

open Reader

structure Related (R : Reader.Relation σ τ) (inner : Productions σ)
    (inner' : Productions τ) : Prop where
  statement : R.Holds inner.statement inner'.statement
  statements : R.Holds inner.statements inner'.statements
  expression (power : BindingPower) : R.Holds (inner.expression power) (inner'.expression power)
  operators (power : BindingPower) (left : Expr) :
    R.Holds (inner.operators power left) (inner'.operators power left)
  parameters : R.Holds inner.parameters inner'.parameters
  arguments : R.Holds inner.arguments inner'.arguments

namespace Related

variable {R : Reader.Relation σ τ} {inner : Productions σ} {inner' : Productions τ}

theorem block (h : Related R inner inner') : R.Holds inner.block inner'.block :=
  R.block h.statements

theorem expressionStatement (h : Related R inner inner') :
    R.Holds inner.expressionStatement inner'.expressionStatement :=
  R.bind R.current fun _ => R.bind (h.expression _) fun _ =>
    R.bind R.endStatement fun _ => R.pure _

theorem letStatement (h : Related R inner inner') :
    R.Holds inner.letStatement inner'.letStatement :=
  R.bind R.current fun _ => R.bind (R.expect _) fun _ => R.bind R.current fun _ =>
    R.bind (R.expect _) fun _ => R.bind R.skip fun _ => R.bind (h.expression _) fun _ =>
      R.bind R.endStatement fun _ => R.pure _

theorem returnedValue (h : Related R inner inner') :
    R.Holds inner.returnedValue inner'.returnedValue :=
  R.bind R.peek fun _ => R.ite (R.pure _) <|
    R.bind R.skip fun _ => R.bind (h.expression _) fun _ => R.pure _

theorem returnStatement (h : Related R inner inner') :
    R.Holds inner.returnStatement inner'.returnStatement :=
  R.bind R.current fun _ => R.bind h.returnedValue fun _ =>
    R.bind R.endStatement fun _ => R.pure _

theorem blockStatement (h : Related R inner inner') :
    R.Holds inner.blockStatement inner'.blockStatement :=
  R.bind h.block fun _ => R.bind R.endStatement fun _ => R.pure _

theorem statementRule (h : Related R inner inner') (rule : StatementRule) :
    R.Holds (rule.read inner) (rule.read inner') := by
  cases rule with
  | expression => exact h.expressionStatement
  | letBinding => exact h.letStatement
  | returning => exact h.returnStatement
  | block => exact h.blockStatement

theorem alternative (h : Related R inner inner') :
    R.Holds inner.alternative inner'.alternative :=
  R.bind R.peek fun _ => R.ite
    (R.bind R.skip fun _ => R.bind (R.expect _) fun _ => R.bind h.block fun _ => R.pure _)
    (R.pure _)

theorem ifElse (h : Related R inner inner') : R.Holds inner.ifElse inner'.ifElse :=
  R.bind R.current fun _ => R.bind (R.expect _) fun _ => R.bind R.skip fun _ =>
    R.bind (h.expression _) fun _ => R.bind (R.expect _) fun _ => R.bind (R.expect _) fun _ =>
      R.bind h.block fun _ => R.bind h.alternative fun _ => R.pure _

theorem parameterList (h : Related R inner inner') :
    R.Holds inner.parameterList inner'.parameterList :=
  R.bind R.peek fun _ => R.ite (R.bind R.skip fun _ => R.pure _) <|
    R.bind (R.expect _) fun _ => R.bind (R.bind R.current fun _ => R.pure _) fun _ =>
      R.bind h.parameters fun _ => R.bind (R.expect _) fun _ => R.pure _

theorem function (h : Related R inner inner') : R.Holds inner.function inner'.function :=
  R.bind R.current fun _ => R.bind (R.expect _) fun _ => R.bind h.parameterList fun _ =>
    R.bind (R.expect _) fun _ => R.bind h.block fun _ => R.pure _

theorem operandRule (h : Related R inner inner') (rule : OperandRule) :
    R.Holds (rule.read inner) (rule.read inner') := by
  cases rule with
  | identifier => exact R.bind (R.bind R.current fun _ => R.pure _) fun _ => R.pure _
  | integer =>
      refine R.bind R.current fun token => ?_
      cases Numeral.value? token.text with
      | none => exact R.fail _ _
      | some value => exact R.pure _
  | boolean => exact R.bind R.current fun _ => R.pure _
  | unary => exact R.bind R.advance fun _ => R.bind (h.expression _) fun _ => R.pure _
  | grouping =>
      exact R.bind R.skip fun _ => R.bind (h.expression _) fun _ =>
        R.bind (R.expect _) fun _ => R.pure _
  | ifElse => exact h.ifElse
  | function => exact h.function

theorem argumentList (h : Related R inner inner') :
    R.Holds inner.argumentList inner'.argumentList :=
  R.bind R.peek fun _ => R.ite (R.bind R.skip fun _ => R.pure _) <|
    R.bind R.skip fun _ => R.bind (h.expression _) fun _ => R.bind h.arguments fun _ =>
      R.bind (R.expect _) fun _ => R.pure _

theorem operatorRule (h : Related R inner inner') (left : Expr) (power : BindingPower)
    (rule : OperatorRule) :
    R.Holds (rule.read inner left power) (rule.read inner' left power) := by
  cases rule with
  | binary => exact R.bind R.advance fun _ => R.bind (h.expression _) fun _ => R.pure _
  | call => exact R.bind R.current fun _ => R.bind h.argumentList fun _ => R.pure _

theorem layer (h : Related R inner inner') (grammar : Grammar) :
    Related R (layer grammar inner) (layer grammar inner') where
  statement := by
    refine R.bind R.current fun token => R.bind (R.note _) fun _ => ?_
    cases grammar.statement? token.kind with
    | none => exact h.expressionStatement
    | some rule => exact h.statementRule rule
  statements :=
    R.bind R.current fun _ => R.ite (R.pure _) <|
      R.bind h.statement fun _ => R.bind R.skip fun _ => R.bind h.statements fun _ => R.pure _
  expression power := by
    refine R.bind R.current fun token => ?_
    cases grammar.operand? token.kind with
    | none => exact R.fail _ _
    | some rule => exact R.bind (h.operandRule rule) fun left => h.operators power left
  operators power left := by
    refine R.bind R.peek fun next => ?_
    cases grammar.operator? next.kind with
    | none => exact R.pure _
    | some operator =>
        refine R.ite (R.bind R.skip fun _ => ?_) (R.pure _)
        exact R.bind (h.operatorRule left operator.power operator.rule)
          fun longer => h.operators power longer
  parameters :=
    R.bind R.peek fun _ => R.ite
      (R.bind R.skip fun _ => R.bind (R.expect _) fun _ =>
        R.bind (R.bind R.current fun _ => R.pure _) fun _ =>
          R.bind h.parameters fun _ => R.pure _)
      (R.pure _)
  arguments :=
    R.bind R.peek fun _ => R.ite
      (R.bind R.skip fun _ => R.bind R.skip fun _ => R.bind (h.expression _) fun _ =>
        R.bind h.arguments fun _ => R.pure _)
      (R.pure _)

end Related

theorem related_toDepth (R : Reader.Relation σ τ)
    (hexhausted : Related R (exhausted σ) (exhausted τ)) (grammar : Grammar) (depth : Nat) :
    Related R (toDepth grammar depth : Productions σ) (toDepth grammar depth) := by
  induction depth with
  | zero => exact hexhausted
  | succ depth ih => exact ih.layer grammar

end Productions

end MonkeySyntax
