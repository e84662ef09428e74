import MonkeySyntax.Tree

namespace MonkeySyntax

/-! Equality of trees can be decided.  Tokens count with their spans. -/

mutual

def Expr.same : Expr → Expr → Bool
  | .identifier name, .identifier name' => name == name'
  | .integer token value, .integer token' value' => token == token' && value == value'
  | .boolean token value, .boolean token' value' => token == token' && value == value'
  | .unary token operator operand, .unary token' operator' operand' =>
    token == token' && operator == operator' && operand.same operand'
  | .binary token left operator right, .binary token' left' operator' right' =>
    token == token' && operator == operator' && left.same left' && right.same right'
  | .ifElse token condition consequence alternative?,
      .ifElse token' condition' consequence' alternative?' =>
    token == token' && condition.same condition' && consequence.same consequence' &&
      Block.same? alternative? alternative?'
  | .function token parameters body, .function token' parameters' body' =>
    token == token' && parameters == parameters' && body.same body'
  | .call token callee arguments, .call token' callee' arguments' =>
    token == token' && callee.same callee' && Expr.sameAll arguments arguments'
  | _, _ => false

def Expr.same? : Option Expr → Option Expr → Bool
  | none, none => true
  | some left, some right => left.same right
  | _, _ => false

def Expr.sameAll : List Expr → List Expr → Bool
  | [], [] => true
  | left :: lefts, right :: rights => left.same right && Expr.sameAll lefts rights
  | _, _ => false

def Block.same : Block → Block → Bool
  | .mk token statements, .mk token' statements' =>
    token == token' && Stmt.sameAll statements statements'

def Block.same? : Option Block → Option Block → Bool
  | none, none => true
  | some left, some right => left.same right
  | _, _ => false

def Stmt.same : Stmt → Stmt → Bool
  | .letBinding token name value, .letBinding token' name' value' =>
    token == token' && name == name' && value.same value'
  | .returning token value?, .returning token' value?' =>
    token == token' && Expr.same? value? value?'
  | .expression token value, .expression token' value' =>
    token == token' && value.same value'
  | .block body, .block body' => body.same body'
  | _, _ => false

def Stmt.sameAll : List Stmt → List Stmt → Bool
  | [], [] => true
  | left :: lefts, right :: rights => left.same right && Stmt.sameAll lefts rights
  | _, _ => false

end

mutual

theorem Expr.same_iff : ∀ left right : Expr, left.same right = true ↔ left = right
  | .identifier _, right => by
      cases right <;> simp [Expr.same]
  | .integer _ _, right => by
      cases right <;> simp [Expr.same]
  | .boolean _ _, right => by
      cases right <;> simp [Expr.same]
  | .unary _ _ operand, right => by
      cases right <;> simp [Expr.same, Expr.same_iff operand, and_assoc]
  | .binary _ first _ second, right => by
      cases right <;>
        simp [Expr.same, Expr.same_iff first, Expr.same_iff second, and_assoc,
          and_left_comm, and_comm]
  | .ifElse _ condition consequence alternative?, right => by
      cases right <;>
        simp [Expr.same, Expr.same_iff condition, Block.same_iff consequence,
          Block.same?_iff alternative?, and_assoc]
  | .function _ _ body, right => by
      cases right <;> simp [Expr.same, Block.same_iff body, and_assoc]
  | .call _ callee arguments, right => by
      cases right <;>
        simp [Expr.same, Expr.same_iff callee, Expr.sameAll_iff arguments, and_assoc]

theorem Expr.same?_iff : ∀ left right : Option Expr,
    Expr.same? left right = true ↔ left = right
  | none, right => by
      cases right <;> simp [Expr.same?]
  | some left, right => by
      cases right <;> simp [Expr.same?, Expr.same_iff left]

theorem Expr.sameAll_iff : ∀ left right : List Expr,
    Expr.sameAll left right = true ↔ left = right
  | [], right => by
      cases right <;> simp [Expr.sameAll]
  | left :: lefts, right => by
      cases right <;> simp [Expr.sameAll, Expr.same_iff left, Expr.sameAll_iff lefts]

theorem Block.same_iff : ∀ left right : Block, left.same right = true ↔ left = right
  | .mk _ statements, .mk _ _ => by
      simp [Block.same, Stmt.sameAll_iff statements]

theorem Block.same?_iff : ∀ left right : Option Block,
    Block.same? left right = true ↔ left = right
  | none, right => by
      cases right <;> simp [Block.same?]
  | some left, right => by
      cases right <;> simp [Block.same?, Block.same_iff left]

theorem Stmt.same_iff : ∀ left right : Stmt, left.same right = true ↔ left = right
  | .letBinding _ _ value, right => by
      cases right <;> simp [Stmt.same, Expr.same_iff value, and_assoc]
  | .returning _ value?, right => by
      cases right <;> simp [Stmt.same, Expr.same?_iff value?]
  | .expression _ value, right => by
      cases right <;> simp [Stmt.same, Expr.same_iff value]
  | .block body, right => by
      cases right <;> simp [Stmt.same, Block.same_iff body]

theorem Stmt.sameAll_iff : ∀ left right : List Stmt,
    Stmt.sameAll left right = true ↔ left = right
  | [], right => by
      cases right <;> simp [Stmt.sameAll]
  | left :: lefts, right => by
      cases right <;> simp [Stmt.sameAll, Stmt.same_iff left, Stmt.sameAll_iff lefts]

end

instance : DecidableEq Expr := fun left right =>
  decidable_of_iff _ (Expr.same_iff left right)

instance : DecidableEq Block := fun left right =>
  decidable_of_iff _ (Block.same_iff left right)

instance : DecidableEq Stmt := fun left right =>
  decidable_of_iff _ (Stmt.same_iff left right)

deriving instance DecidableEq for Program

end MonkeySyntax
