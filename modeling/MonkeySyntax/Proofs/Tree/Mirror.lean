import MonkeySyntax.Proofs.Render.Erase
import Mathlib.Data.List.Forall2

namespace MonkeySyntax

/-! Trees of one shape, with other tokens at their nodes.  What a relation says of tokens is
carried over to trees node by node. -/

/-! A function of tokens, applied at every node. -/

def Identifier.mapTokens (f : Token → Token) (name : Identifier) : Identifier :=
  ⟨f name.token, name.word⟩

mutual

def Expr.mapTokens (f : Token → Token) : Expr → Expr
  | .identifier name => .identifier (name.mapTokens f)
  | .integer token value => .integer (f token) value
  | .boolean token value => .boolean (f token) value
  | .unary token operator operand => .unary (f token) operator (operand.mapTokens f)
  | .binary token left operator right =>
    .binary (f token) (left.mapTokens f) operator (right.mapTokens f)
  | .ifElse token condition consequence alternative? =>
    .ifElse (f token) (condition.mapTokens f) (consequence.mapTokens f)
      (Block.mapTokens? f alternative?)
  | .function token parameters body =>
    .function (f token) (parameters.map (Identifier.mapTokens f)) (body.mapTokens f)
  | .call token callee arguments =>
    .call (f token) (callee.mapTokens f) (Expr.mapTokensAll f arguments)

def Expr.mapTokensAll (f : Token → Token) : List Expr → List Expr
  | [] => []
  | first :: rest => first.mapTokens f :: Expr.mapTokensAll f rest

def Block.mapTokens (f : Token → Token) : Block → Block
  | .mk token statements => .mk (f token) (Stmt.mapTokensAll f statements)

def Block.mapTokens? (f : Token → Token) : Option Block → Option Block
  | none => none
  | some body => some (body.mapTokens f)

def Stmt.mapTokens (f : Token → Token) : Stmt → Stmt
  | .letBinding token name value =>
    .letBinding (f token) (name.mapTokens f) (value.mapTokens f)
  | .returning token none => .returning (f token) none
  | .returning token (some value) => .returning (f token) (some (value.mapTokens f))
  | .expression token value => .expression (f token) (value.mapTokens f)
  | .block body => .block (body.mapTokens f)

def Stmt.mapTokensAll (f : Token → Token) : List Stmt → List Stmt
  | [] => []
  | first :: rest => first.mapTokens f :: Stmt.mapTokensAll f rest

end

/-- The program without its places. -/
def Program.unplaced (program : Program) : Program :=
  ⟨Stmt.mapTokensAll Token.erase program.statements, .nowhere⟩

/-! Related tokens at the same nodes of two trees. -/

structure Identifier.Mirrors (R : Token → Token → Prop) (name name' : Identifier) : Prop where
  token : R name.token name'.token
  word : name.word = name'.word

mutual

inductive Expr.Mirrors (R : Token → Token → Prop) : Expr → Expr → Prop
  | identifier {name name' : Identifier} (hname : name.Mirrors R name') :
      Expr.Mirrors R (.identifier name) (.identifier name')
  | integer {token token' : Token} {value : Int64} (htoken : R token token') :
      Expr.Mirrors R (.integer token value) (.integer token' value)
  | boolean {token token' : Token} {value : Bool} (htoken : R token token') :
      Expr.Mirrors R (.boolean token value) (.boolean token' value)
  | unary {token token' : Token} {operator : String} {operand operand' : Expr}
      (htoken : R token token') (hoperand : Expr.Mirrors R operand operand') :
      Expr.Mirrors R (.unary token operator operand) (.unary token' operator operand')
  | binary {token token' : Token} {operator : String} {left left' right right' : Expr}
      (htoken : R token token') (hleft : Expr.Mirrors R left left')
      (hright : Expr.Mirrors R right right') :
      Expr.Mirrors R (.binary token left operator right) (.binary token' left' operator right')
  | ifElse {token token' : Token} {condition condition' : Expr} {consequence consequence' : Block}
      {alternative? alternative?' : Option Block} (htoken : R token token')
      (hcondition : Expr.Mirrors R condition condition')
      (hconsequence : Block.Mirrors R consequence consequence')
      (halternative : Block.MirrorsElse R alternative? alternative?') :
      Expr.Mirrors R (.ifElse token condition consequence alternative?)
        (.ifElse token' condition' consequence' alternative?')
  | function {token token' : Token} {parameters parameters' : List Identifier}
      {body body' : Block} (htoken : R token token')
      (hparameters : List.Forall₂ (Identifier.Mirrors R) parameters parameters')
      (hbody : Block.Mirrors R body body') :
      Expr.Mirrors R (.function token parameters body) (.function token' parameters' body')
  | call {token token' : Token} {callee callee' : Expr} {arguments arguments' : List Expr}
      (htoken : R token token') (hcallee : Expr.Mirrors R callee callee')
      (harguments : Expr.MirrorsAll R arguments arguments') :
      Expr.Mirrors R (.call token callee arguments) (.call token' callee' arguments')

inductive Expr.MirrorsAll (R : Token → Token → Prop) : List Expr → List Expr → Prop
  | nil : Expr.MirrorsAll R [] []
  | cons {first first' : Expr} {rest rest' : List Expr} (hfirst : Expr.Mirrors R first first')
      (hrest : Expr.MirrorsAll R rest rest') :
      Expr.MirrorsAll R (first :: rest) (first' :: rest')

inductive Block.Mirrors (R : Token → Token → Prop) : Block → Block → Prop
  | mk {token token' : Token} {statements statements' : List Stmt} (htoken : R token token')
      (hstatements : Stmt.MirrorsAll R statements statements') :
      Block.Mirrors R (.mk token statements) (.mk token' statements')

inductive Block.MirrorsElse (R : Token → Token → Prop) : Option Block → Option Block → Prop
  | none : Block.MirrorsElse R none none
  | some {body body' : Block} (hbody : Block.Mirrors R body body') :
      Block.MirrorsElse R (some body) (some body')

inductive Stmt.Mirrors (R : Token → Token → Prop) : Stmt → Stmt → Prop
  | letBinding {token token' : Token} {name name' : Identifier} {value value' : Expr}
      (htoken : R token token') (hname : name.Mirrors R name')
      (hvalue : Expr.Mirrors R value value') :
      Stmt.Mirrors R (.letBinding token name value) (.letBinding token' name' value')
  | returning {token token' : Token} (htoken : R token token') :
      Stmt.Mirrors R (.returning token none) (.returning token' none)
  | returningValue {token token' : Token} {value value' : Expr} (htoken : R token token')
      (hvalue : Expr.Mirrors R value value') :
      Stmt.Mirrors R (.returning token (some value)) (.returning token' (some value'))
  | expression {token token' : Token} {value value' : Expr} (htoken : R token token')
      (hvalue : Expr.Mirrors R value value') :
      Stmt.Mirrors R (.expression token value) (.expression token' value')
  | block {body body' : Block} (hbody : Block.Mirrors R body body') :
      Stmt.Mirrors R (.block body) (.block body')

inductive Stmt.MirrorsAll (R : Token → Token → Prop) : List Stmt → List Stmt → Prop
  | nil : Stmt.MirrorsAll R [] []
  | cons {first first' : Stmt} {rest rest' : List Stmt} (hfirst : Stmt.Mirrors R first first')
      (hrest : Stmt.MirrorsAll R rest rest') :
      Stmt.MirrorsAll R (first :: rest) (first' :: rest')

end

/-- The statements mirror each other, and both programs start and stop where related tokens
start. -/
structure Program.Mirrors (R : Token → Token → Prop) (program program' : Program) : Prop where
  statements : Stmt.MirrorsAll R program.statements program'.statements
  start : ∃ token token', R token token' ∧ program.span.start = token.span.start ∧
    program'.span.start = token'.span.start
  stop : ∃ token token', R token token' ∧ program.span.stop = token.span.start ∧
    program'.span.stop = token'.span.start

variable {R : Token → Token → Prop} {f : Token → Token}

/-! A function that does not tell related tokens apart makes mirrored trees equal. -/

theorem Identifier.Mirrors.mapTokens_eq {name name' : Identifier} (h : name.Mirrors R name')
    (hR : ∀ token token', R token token' → f token = f token') :
    name.mapTokens f = name'.mapTokens f := by
  rw [Identifier.mapTokens, hR _ _ h.token, h.word, Identifier.mapTokens]

theorem Identifier.map_mapTokens_eq {names names' : List Identifier}
    (h : List.Forall₂ (Identifier.Mirrors R) names names')
    (hR : ∀ token token', R token token' → f token = f token') :
    names.map (Identifier.mapTokens f) = names'.map (Identifier.mapTokens f) := by
  induction h with
  | nil => rfl
  | cons hfirst _ ih => rw [List.map_cons, List.map_cons, hfirst.mapTokens_eq hR, ih]

mutual

theorem Expr.Mirrors.mapTokens_eq {expr expr' : Expr} (h : expr.Mirrors R expr')
    (hR : ∀ token token', R token token' → f token = f token') :
    expr.mapTokens f = expr'.mapTokens f :=
  match h with
  | .identifier hname => congrArg Expr.identifier (hname.mapTokens_eq hR)
  | .integer htoken => by simp only [Expr.mapTokens, hR _ _ htoken]
  | .boolean htoken => by simp only [Expr.mapTokens, hR _ _ htoken]
  | .unary htoken hoperand => by
      simp only [Expr.mapTokens, hR _ _ htoken, hoperand.mapTokens_eq hR]
  | .binary htoken hleft hright => by
      simp only [Expr.mapTokens, hR _ _ htoken, hleft.mapTokens_eq hR, hright.mapTokens_eq hR]
  | .ifElse htoken hcondition hconsequence halternative => by
      simp only [Expr.mapTokens, hR _ _ htoken, hcondition.mapTokens_eq hR,
        hconsequence.mapTokens_eq hR, halternative.mapTokens_eq hR]
  | .function htoken hparameters hbody => by
      simp only [Expr.mapTokens, hR _ _ htoken, Identifier.map_mapTokens_eq hparameters hR,
        hbody.mapTokens_eq hR]
  | .call htoken hcallee harguments => by
      simp only [Expr.mapTokens, hR _ _ htoken, hcallee.mapTokens_eq hR,
        harguments.mapTokens_eq hR]

theorem Expr.MirrorsAll.mapTokens_eq {exprs exprs' : List Expr} (h : Expr.MirrorsAll R exprs exprs')
    (hR : ∀ token token', R token token' → f token = f token') :
    Expr.mapTokensAll f exprs = Expr.mapTokensAll f exprs' :=
  match h with
  | .nil => rfl
  | .cons hfirst hrest => by
      simp only [Expr.mapTokensAll, hfirst.mapTokens_eq hR, hrest.mapTokens_eq hR]

theorem Block.Mirrors.mapTokens_eq {body body' : Block} (h : body.Mirrors R body')
    (hR : ∀ token token', R token token' → f token = f token') :
    body.mapTokens f = body'.mapTokens f :=
  match h with
  | .mk htoken hstatements => by
      simp only [Block.mapTokens, hR _ _ htoken, hstatements.mapTokens_eq hR]

theorem Block.MirrorsElse.mapTokens_eq {body? body?' : Option Block}
    (h : Block.MirrorsElse R body? body?')
    (hR : ∀ token token', R token token' → f token = f token') :
    Block.mapTokens? f body? = Block.mapTokens? f body?' :=
  match h with
  | .none => rfl
  | .some hbody => by simp only [Block.mapTokens?, hbody.mapTokens_eq hR]

theorem Stmt.Mirrors.mapTokens_eq {stmt stmt' : Stmt} (h : stmt.Mirrors R stmt')
    (hR : ∀ token token', R token token' → f token = f token') :
    stmt.mapTokens f = stmt'.mapTokens f :=
  match h with
  | .letBinding htoken hname hvalue => by
      simp only [Stmt.mapTokens, hR _ _ htoken, hname.mapTokens_eq hR, hvalue.mapTokens_eq hR]
  | .returning htoken => by simp only [Stmt.mapTokens, hR _ _ htoken]
  | .returningValue htoken hvalue => by
      simp only [Stmt.mapTokens, hR _ _ htoken, hvalue.mapTokens_eq hR]
  | .expression htoken hvalue => by
      simp only [Stmt.mapTokens, hR _ _ htoken, hvalue.mapTokens_eq hR]
  | .block hbody => congrArg Stmt.block (hbody.mapTokens_eq hR)

theorem Stmt.MirrorsAll.mapTokens_eq {stmts stmts' : List Stmt} (h : Stmt.MirrorsAll R stmts stmts')
    (hR : ∀ token token', R token token' → f token = f token') :
    Stmt.mapTokensAll f stmts = Stmt.mapTokensAll f stmts' :=
  match h with
  | .nil => rfl
  | .cons hfirst hrest => by
      simp only [Stmt.mapTokensAll, hfirst.mapTokens_eq hR, hrest.mapTokens_eq hR]

end

theorem Program.Mirrors.unplaced_eq {program program' : Program}
    (h : program.Mirrors R program')
    (hR : ∀ token token', R token token' → token.erase = token'.erase) :
    program.unplaced = program'.unplaced := by
  rw [Program.unplaced, h.statements.mapTokens_eq hR, Program.unplaced]

/-! Where the relation is equality, so are the trees. -/

theorem Identifier.mapTokens_id : Identifier.mapTokens id = id := rfl

mutual

theorem Expr.mapTokens_id : ∀ expr : Expr, expr.mapTokens id = expr
  | .identifier _ => rfl
  | .integer _ _ => rfl
  | .boolean _ _ => rfl
  | .unary _ _ operand => by simp only [Expr.mapTokens, Expr.mapTokens_id operand, id]
  | .binary _ left _ right => by
      simp only [Expr.mapTokens, Expr.mapTokens_id left, Expr.mapTokens_id right, id]
  | .ifElse _ condition consequence alternative? => by
      simp only [Expr.mapTokens, Expr.mapTokens_id condition, Block.mapTokens_id consequence,
        Block.mapTokens?_id alternative?, id]
  | .function _ parameters body => by
      simp only [Expr.mapTokens, Identifier.mapTokens_id, List.map_id, Block.mapTokens_id body, id]
  | .call _ callee arguments => by
      simp only [Expr.mapTokens, Expr.mapTokens_id callee, Expr.mapTokensAll_id arguments, id]

theorem Expr.mapTokensAll_id : ∀ exprs : List Expr, Expr.mapTokensAll id exprs = exprs
  | [] => rfl
  | first :: rest => by
      simp only [Expr.mapTokensAll, Expr.mapTokens_id first, Expr.mapTokensAll_id rest]

theorem Block.mapTokens_id : ∀ body : Block, body.mapTokens id = body
  | .mk _ statements => by simp only [Block.mapTokens, Stmt.mapTokensAll_id statements, id]

theorem Block.mapTokens?_id : ∀ body? : Option Block, Block.mapTokens? id body? = body?
  | none => rfl
  | some body => by simp only [Block.mapTokens?, Block.mapTokens_id body]

theorem Stmt.mapTokens_id : ∀ stmt : Stmt, stmt.mapTokens id = stmt
  | .letBinding _ name value => by
      simp only [Stmt.mapTokens, Identifier.mapTokens_id, Expr.mapTokens_id value, id]
  | .returning _ none => rfl
  | .returning _ (some value) => by simp only [Stmt.mapTokens, Expr.mapTokens_id value, id]
  | .expression _ value => by simp only [Stmt.mapTokens, Expr.mapTokens_id value, id]
  | .block body => by simp only [Stmt.mapTokens, Block.mapTokens_id body]

theorem Stmt.mapTokensAll_id : ∀ stmts : List Stmt, Stmt.mapTokensAll id stmts = stmts
  | [] => rfl
  | first :: rest => by
      simp only [Stmt.mapTokensAll, Stmt.mapTokens_id first, Stmt.mapTokensAll_id rest]

end

theorem Stmt.MirrorsAll.eq {stmts stmts' : List Stmt} (h : MirrorsAll (· = ·) stmts stmts') :
    stmts = stmts' := by
  have hsame := h.mapTokens_eq fun _ _ htoken => congrArg id htoken
  rwa [Stmt.mapTokensAll_id, Stmt.mapTokensAll_id] at hsame

theorem Program.Mirrors.eq {program program' : Program}
    (h : program.Mirrors (· = ·) program') : program = program' := by
  obtain ⟨stmts, start, stop⟩ := program
  obtain ⟨stmts', start', stop'⟩ := program'
  obtain ⟨hstmts, ⟨token, _, rfl, hstart, hstart'⟩, ⟨last, _, rfl, hstop, hstop'⟩⟩ := h
  obtain rfl : stmts = stmts' := hstmts.eq
  obtain rfl : start = start' := hstart.trans hstart'.symm
  obtain rfl : stop = stop' := hstop.trans hstop'.symm
  rfl

/-! Without its places, a tree has the same source text. -/

theorem Token.erase_erase (token : Token) : token.erase.erase = token.erase := rfl

theorem Identifier.map_erase_mapTokens (names : List Identifier) :
    (names.map (Identifier.mapTokens Token.erase)).map Identifier.erase =
      names.map Identifier.erase :=
  List.map_map

mutual

theorem Expr.erase_mapTokens : ∀ expr : Expr, (expr.mapTokens Token.erase).erase = expr.erase
  | .identifier _ => rfl
  | .integer _ _ => rfl
  | .boolean _ _ => rfl
  | .unary _ _ operand => by
      simp only [Expr.mapTokens, Expr.erase, Token.erase_erase, Expr.erase_mapTokens operand]
  | .binary _ left _ right => by
      simp only [Expr.mapTokens, Expr.erase, Token.erase_erase, Expr.erase_mapTokens left,
        Expr.erase_mapTokens right]
  | .ifElse _ condition consequence alternative? => by
      simp only [Expr.mapTokens, Expr.erase, Token.erase_erase, Expr.erase_mapTokens condition,
        Block.erase_mapTokens consequence, Block.erase?_mapTokens? alternative?]
  | .function _ parameters body => by
      simp only [Expr.mapTokens, Expr.erase, Token.erase_erase, Block.erase_mapTokens body,
        Identifier.map_erase_mapTokens]
  | .call _ callee arguments => by
      simp only [Expr.mapTokens, Expr.erase, Token.erase_erase, Expr.erase_mapTokens callee,
        Expr.eraseAll_mapTokensAll arguments]

theorem Expr.eraseAll_mapTokensAll : ∀ exprs : List Expr,
    Expr.eraseAll (Expr.mapTokensAll Token.erase exprs) = Expr.eraseAll exprs
  | [] => rfl
  | first :: rest => by
      simp only [Expr.mapTokensAll, Expr.eraseAll, Expr.erase_mapTokens first,
        Expr.eraseAll_mapTokensAll rest]

theorem Block.erase_mapTokens : ∀ body : Block, (body.mapTokens Token.erase).erase = body.erase
  | .mk _ statements => by
      simp only [Block.mapTokens, Block.erase, Token.erase_erase,
        Stmt.eraseAll_mapTokensAll statements]

theorem Block.erase?_mapTokens? : ∀ body? : Option Block,
    Block.erase? (Block.mapTokens? Token.erase body?) = Block.erase? body?
  | none => rfl
  | some body => by simp only [Block.mapTokens?, Block.erase?, Block.erase_mapTokens body]

theorem Stmt.erase_mapTokens : ∀ stmt : Stmt, (stmt.mapTokens Token.erase).erase = stmt.erase
  | .letBinding _ _ value => by
      simp only [Stmt.mapTokens, Stmt.erase, Token.erase_erase, Expr.erase_mapTokens value]
      rfl
  | .returning _ none => rfl
  | .returning _ (some value) => by
      simp only [Stmt.mapTokens, Stmt.erase, Token.erase_erase, Expr.erase_mapTokens value]
  | .expression _ value => by
      simp only [Stmt.mapTokens, Stmt.erase, Expr.erase_mapTokens value]
  | .block body => by simp only [Stmt.mapTokens, Stmt.erase, Block.erase_mapTokens body]

theorem Stmt.eraseAll_mapTokensAll : ∀ stmts : List Stmt,
    Stmt.eraseAll (Stmt.mapTokensAll Token.erase stmts) = Stmt.eraseAll stmts
  | [] => rfl
  | first :: rest => by
      simp only [Stmt.mapTokensAll, Stmt.eraseAll, Stmt.erase_mapTokens first,
        Stmt.eraseAll_mapTokensAll rest]

end

theorem Program.render_unplaced (program : Program) :
    program.unplaced.render = program.render := by
  rw [← render_erase, Program.erase, Program.unplaced, Stmt.eraseAll_mapTokensAll,
    ← Program.erase, render_erase]

end MonkeySyntax
