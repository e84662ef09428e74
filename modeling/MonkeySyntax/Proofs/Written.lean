import MonkeySyntax.Grammar
import MonkeySyntax.Numeral
import MonkeySyntax.Proofs.Cursor.Ahead
import MonkeySyntax.Tree

namespace MonkeySyntax

/-! The ways to write a tree down as a list of tokens.  Parentheses may stand around
any expression, and have to stand around one that does not fit its place. -/

namespace Expr

/-! What fits a place as it is: operations fit where their operator binds tightly
enough. -/

def FitsLeft (power : BindingPower) : Expr → Prop
  | .binary token .. => ¬ Grammar.standard.power token.kind < power
  | _ => True

def FitsRight (power : BindingPower) : Expr → Prop
  | .binary token .. => power < Grammar.standard.power token.kind
  | _ => True

def FitsOperand : Expr → Prop
  | .binary .. => False
  | _ => True

def FitsCallee : Expr → Prop
  | .binary .. | .unary .. => False
  | _ => True

/-- Between delimiters everything fits. -/
def FitsInside (_ : Expr) : Prop := True

end Expr

/-- Whether the statement needs no semicolon before the tokens of the statements that
follow it in its block. -/
def Stmt.MayAbut (following : List Token) : Stmt → Prop
  | .block _ => True
  | .returning _ none => following = []
  | _ => Token.firstKind following ≠ .openParen ∧ Token.firstKind following ≠ .dash

/-- The parameters that follow the first, each after a comma. -/
inductive Identifier.WrittenRest : List Identifier → List Token → Prop
  | nil : Identifier.WrittenRest [] []
  | cons {comma token : Token} {names : List Identifier} {tokens : List Token}
      (hcomma : comma.kind = .comma) (hkind : token.kind = .identifier)
      (hrest : Identifier.WrittenRest names tokens) :
      Identifier.WrittenRest (⟨token, token.text⟩ :: names) (comma :: token :: tokens)

inductive Identifier.WrittenAll : List Identifier → List Token → Prop
  | nil : Identifier.WrittenAll [] []
  | cons {token : Token} {names : List Identifier} {tokens : List Token}
      (hkind : token.kind = .identifier) (hrest : Identifier.WrittenRest names tokens) :
      Identifier.WrittenAll (⟨token, token.text⟩ :: names) (token :: tokens)

mutual

/-- The expression without parentheses around it. -/
inductive Expr.Bare : Expr → List Token → Prop
  | identifier {token : Token} (hkind : token.kind = .identifier) :
      Expr.Bare (.identifier ⟨token, token.text⟩) [token]
  | integer {token : Token} {value : Int64} (hkind : token.kind = .integer)
      (hvalue : Numeral.value? token.text = some value) : Expr.Bare (.integer token value) [token]
  | boolean {token : Token} (hkind : token.kind = .trueWord ∨ token.kind = .falseWord) :
      Expr.Bare (.boolean token (token.kind == .trueWord)) [token]
  | unary {token : Token} {operand : Expr} {tokens : List Token}
      (hkind : token.kind = .not ∨ token.kind = .dash)
      (hoperand : Expr.Written Expr.FitsOperand operand tokens) :
      Expr.Bare (.unary token token.text operand) (token :: tokens)
  | binary {token : Token} {power : BindingPower} {left right : Expr}
      {lefts rights : List Token}
      (hkind : Grammar.standard.operator? token.kind = some ⟨power, .binary⟩)
      (hleft : Expr.Written (Expr.FitsLeft power) left lefts)
      (hright : Expr.Written (Expr.FitsRight power) right rights) :
      Expr.Bare (.binary token left token.text right) (lefts ++ token :: rights)
  | ifElse {token opening closing : Token} {condition : Expr} {consequence : Block}
      {alternative? : Option Block} {conditions consequences alternatives : List Token}
      (hkind : token.kind = .ifWord) (hopening : opening.kind = .openParen)
      (hcondition : Expr.Written Expr.FitsInside condition conditions)
      (hclosing : closing.kind = .closeParen)
      (hconsequence : Block.Written consequence consequences)
      (halternative : Block.WrittenElse alternative? alternatives) :
      Expr.Bare (.ifElse token condition consequence alternative?)
        (token :: opening :: (conditions ++ closing :: (consequences ++ alternatives)))
  | function {token opening closing : Token} {parameters : List Identifier} {body : Block}
      {names statements : List Token} (hkind : token.kind = .fnWord)
      (hopening : opening.kind = .openParen)
      (hparameters : Identifier.WrittenAll parameters names)
      (hclosing : closing.kind = .closeParen) (hbody : Block.Written body statements) :
      Expr.Bare (.function token parameters body)
        (token :: opening :: (names ++ closing :: statements))
  | call {token closing : Token} {callee : Expr} {arguments : List Expr}
      {callees values : List Token} (hcallee : Expr.Written Expr.FitsCallee callee callees)
      (hkind : token.kind = .openParen) (harguments : Expr.WrittenAll arguments values)
      (hclosing : closing.kind = .closeParen) :
      Expr.Bare (.call token callee arguments) (callees ++ token :: (values ++ [closing]))

/-- The expression in a place that only what fits it may take bare. -/
inductive Expr.Written : (Expr → Prop) → Expr → List Token → Prop
  | bare {fits : Expr → Prop} {expr : Expr} {tokens : List Token} (h : Expr.Bare expr tokens)
      (hfits : fits expr) : Expr.Written fits expr tokens
  | grouped {fits : Expr → Prop} {expr : Expr} {opening closing : Token}
      {tokens : List Token} (hopening : opening.kind = .openParen)
      (h : Expr.Written Expr.FitsInside expr tokens) (hclosing : closing.kind = .closeParen) :
      Expr.Written fits expr (opening :: (tokens ++ [closing]))

inductive Expr.WrittenAll : List Expr → List Token → Prop
  | nil : Expr.WrittenAll [] []
  | cons {first : Expr} {rest : List Expr} {firsts others : List Token}
      (hfirst : Expr.Written Expr.FitsInside first firsts) (hrest : Expr.WrittenRest rest others) :
      Expr.WrittenAll (first :: rest) (firsts ++ others)

/-- The arguments that follow the first, each after a comma. -/
inductive Expr.WrittenRest : List Expr → List Token → Prop
  | nil : Expr.WrittenRest [] []
  | cons {comma : Token} {first : Expr} {rest : List Expr} {firsts others : List Token}
      (hcomma : comma.kind = .comma) (hfirst : Expr.Written Expr.FitsInside first firsts)
      (hrest : Expr.WrittenRest rest others) :
      Expr.WrittenRest (first :: rest) (comma :: (firsts ++ others))

inductive Block.Written : Block → List Token → Prop
  | braces {opening closing : Token} {statements : List Stmt} {tokens : List Token}
      (hopening : opening.kind = .openCurly) (h : Stmt.WrittenAll statements tokens)
      (hclosing : closing.kind = .closeCurly) :
      Block.Written (.mk opening statements) (opening :: (tokens ++ [closing]))

inductive Block.WrittenElse : Option Block → List Token → Prop
  | none : Block.WrittenElse none []
  | some {word : Token} {body : Block} {tokens : List Token}
      (hword : word.kind = .elseWord) (h : Block.Written body tokens) :
      Block.WrittenElse (some body) (word :: tokens)

/-- The statement without a semicolon. -/
inductive Stmt.Written : Stmt → List Token → Prop
  | letBinding {token name sign : Token} {value : Expr} {tokens : List Token}
      (hkind : token.kind = .letWord) (hname : name.kind = .identifier)
      (hsign : sign.kind = .assignment) (hvalue : Expr.Written Expr.FitsInside value tokens) :
      Stmt.Written (.letBinding token ⟨name, name.text⟩ value) (token :: name :: sign :: tokens)
  | returning {token : Token} (hkind : token.kind = .returnWord) :
      Stmt.Written (.returning token none) [token]
  | returningValue {token : Token} {value : Expr} {tokens : List Token}
      (hkind : token.kind = .returnWord)
      (hvalue : Expr.Written Expr.FitsInside value tokens) :
      Stmt.Written (.returning token (some value)) (token :: tokens)
  | expression {token : Token} {value : Expr} {tokens : List Token}
      (h : Expr.Written Expr.FitsInside value (token :: tokens)) :
      Stmt.Written (.expression token value) (token :: tokens)
  | block {body : Block} {tokens : List Token} (h : Block.Written body tokens) :
      Stmt.Written (.block body) tokens

/-- The statements of a block or a program. -/
inductive Stmt.WrittenAll : List Stmt → List Token → Prop
  | nil : Stmt.WrittenAll [] []
  | closed {first : Stmt} {rest : List Stmt} {semicolon : Token} {firsts others : List Token}
      (hfirst : Stmt.Written first firsts) (hsemicolon : semicolon.kind = .semicolon)
      (hrest : Stmt.WrittenAll rest others) :
      Stmt.WrittenAll (first :: rest) (firsts ++ semicolon :: others)
  | abutting {first : Stmt} {rest : List Stmt} {firsts others : List Token}
      (hfirst : Stmt.Written first firsts) (habut : first.MayAbut others)
      (hrest : Stmt.WrittenAll rest others) : Stmt.WrittenAll (first :: rest) (firsts ++ others)

end

/-! A product of which a factor is a sum, which has to stand in parentheses. -/

def Token.productOfSum : List Token :=
  [unplaced .identifier "a", unplaced .star "*", unplaced .openParen "(",
    unplaced .identifier "b", unplaced .plus "+", unplaced .identifier "c",
    unplaced .closeParen ")"]

def Expr.productOfSum : Expr :=
  .binary (.unplaced .star "*") (.identifier ⟨.unplaced .identifier "a", "a"⟩) "*"
    (.binary (.unplaced .plus "+") (.identifier ⟨.unplaced .identifier "b", "b"⟩) "+"
      (.identifier ⟨.unplaced .identifier "c", "c"⟩))

theorem Expr.bare_productOfSum : productOfSum.Bare Token.productOfSum := by
  have hname (name : String) {fits : Expr → Prop}
      (hfits : fits (.identifier ⟨.unplaced .identifier name, name⟩)) :
      Expr.Written fits (.identifier ⟨.unplaced .identifier name, name⟩)
        [.unplaced .identifier name] :=
    .bare (.identifier rfl) hfits
  have hsum := @Expr.Bare.binary (.unplaced .plus "+") _ _ _ _ _ rfl (hname "b" trivial)
    (hname "c" trivial)
  exact @Expr.Bare.binary (.unplaced .star "*") _ _ _ _ _ rfl (hname "a" trivial)
    (.grouped rfl (.bare hsum trivial) rfl)

end MonkeySyntax
