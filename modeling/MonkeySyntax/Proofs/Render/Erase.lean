import MonkeySyntax.Tree

namespace MonkeySyntax

/-! Trees without places.  The token that an expression statement is known by depends on
the parentheses around it, and counts for nothing. -/

def Token.erase (token : Token) : Token :=
  .unplaced token.kind token.text

def Identifier.erase (name : Identifier) : Identifier :=
  ⟨name.token.erase, name.word⟩

mutual

def Expr.erase : Expr → Expr
  | .identifier name => .identifier name.erase
  | .integer token value => .integer token.erase value
  | .boolean token value => .boolean token.erase value
  | .unary token operator operand => .unary token.erase operator operand.erase
  | .binary token left operator right => .binary token.erase left.erase operator right.erase
  | .ifElse token condition consequence alternative? =>
    .ifElse token.erase condition.erase consequence.erase (Block.erase? alternative?)
  | .function token parameters body =>
    .function token.erase (parameters.map Identifier.erase) body.erase
  | .call token callee arguments =>
    .call token.erase callee.erase (Expr.eraseAll arguments)

def Expr.eraseAll : List Expr → List Expr
  | [] => []
  | first :: rest => first.erase :: Expr.eraseAll rest

def Block.erase : Block → Block
  | .mk token statements => .mk token.erase (Stmt.eraseAll statements)

def Block.erase? : Option Block → Option Block
  | none => none
  | some body => some body.erase

def Stmt.erase : Stmt → Stmt
  | .letBinding token name value => .letBinding token.erase name.erase value.erase
  | .returning token none => .returning token.erase none
  | .returning token (some value) => .returning token.erase (some value.erase)
  | .expression _ value => .expression (.unplaced .eof "") value.erase
  | .block body => .block body.erase

def Stmt.eraseAll : List Stmt → List Stmt
  | [] => []
  | first :: rest => first.erase :: Stmt.eraseAll rest

end

def Program.erase (program : Program) : Program :=
  ⟨Stmt.eraseAll program.statements, .nowhere⟩

theorem Token.erase_eq_iff {token token' : Token} :
    token.erase = token'.erase ↔ token.kind = token'.kind ∧ token.text = token'.text := by
  simp [Token.erase, Token.unplaced]

theorem Stmt.length_eraseAll (stmts : List Stmt) : (eraseAll stmts).length = stmts.length := by
  induction stmts with
  | nil => rfl
  | cons first rest ih => rw [eraseAll, List.length_cons, ih, List.length_cons]

/-! The source text of a tree does not tell of places. -/

@[simp] theorem Token.text_erase (token : Token) : token.erase.text = token.text := rfl

@[simp] theorem Identifier.word_erase (name : Identifier) : name.erase.word = name.word := rfl

theorem Stmt.isBare_erase (stmt : Stmt) : stmt.erase.isBare = stmt.isBare := by
  cases stmt with
  | returning token value? => cases value? <;> rfl
  | _ => rfl

mutual

theorem Expr.render_erase : ∀ expr : Expr, expr.erase.render = expr.render
  | .identifier _ => rfl
  | .integer _ _ => rfl
  | .boolean _ _ => rfl
  | .unary _ _ operand => by simp only [Expr.erase, Expr.render, Expr.render_erase operand]
  | .binary _ left _ right => by
      simp only [Expr.erase, Expr.render, Expr.render_erase left, Expr.render_erase right]
  | .ifElse _ condition consequence alternative? => by
      simp only [Expr.erase, Expr.render, Token.text_erase, Expr.render_erase condition,
        Block.render_erase consequence, Block.renderElse_erase alternative?]
  | .function _ parameters body => by
      simp only [Expr.erase, Expr.render, Token.text_erase, Block.render_erase body,
        List.map_map, Function.comp_def, Identifier.word_erase]
  | .call _ callee arguments => by
      simp only [Expr.erase, Expr.render, Expr.render_erase callee,
        Expr.renderAll_erase arguments]

theorem Expr.renderAll_erase : ∀ exprs : List Expr,
    Expr.renderAll (Expr.eraseAll exprs) = Expr.renderAll exprs
  | [] => rfl
  | first :: rest => by
      simp only [Expr.eraseAll, Expr.renderAll, Expr.render_erase first,
        Expr.renderAll_erase rest]

theorem Block.render_erase : ∀ body : Block, body.erase.render = body.render
  | .mk _ statements => by
      simp only [Block.erase, Block.render, Stmt.renderAll_erase statements]

theorem Block.renderElse_erase : ∀ body? : Option Block,
    Block.renderElse (Block.erase? body?) = Block.renderElse body?
  | none => rfl
  | some body => by simp only [Block.erase?, Block.renderElse, Block.render_erase body]

theorem Stmt.render_erase : ∀ stmt : Stmt, stmt.erase.render = stmt.render
  | .letBinding _ _ value => by
      simp only [Stmt.erase, Stmt.render, Token.text_erase, Identifier.word_erase,
        Expr.render_erase value]
  | .returning _ none => rfl
  | .returning _ (some value) => by
      simp only [Stmt.erase, Stmt.render, Token.text_erase, Expr.render_erase value]
  | .expression _ value => by simp only [Stmt.erase, Stmt.render, Expr.render_erase value]
  | .block body => by simp only [Stmt.erase, Stmt.render, Block.render_erase body]

theorem Stmt.renderAll_erase : ∀ stmts : List Stmt,
    Stmt.renderAll (Stmt.eraseAll stmts) = Stmt.renderAll stmts
  | [] => rfl
  | first :: rest => by
      simp only [Stmt.eraseAll, Stmt.renderAll, Stmt.render_erase first, Stmt.isBare_erase first,
        Stmt.renderAll_erase rest]

end

theorem Program.renderStatements_erase : ∀ stmts : List Stmt,
    renderStatements (Stmt.eraseAll stmts) = renderStatements stmts
  | [] => rfl
  | [last] => by simp only [Stmt.eraseAll, renderStatements, Stmt.render_erase last]
  | first :: next :: rest => by
      have hrest := Program.renderStatements_erase (next :: rest)
      simp only [Stmt.eraseAll] at hrest
      simp only [Stmt.eraseAll, renderStatements, Stmt.render_erase first,
        Stmt.isBare_erase first, hrest]

theorem Program.render_erase (program : Program) : program.erase.render = program.render :=
  renderStatements_erase program.statements

end MonkeySyntax
