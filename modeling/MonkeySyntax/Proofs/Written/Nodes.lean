import MonkeySyntax.Proofs.Numeral
import MonkeySyntax.Proofs.Written.Tokens

namespace MonkeySyntax

/-! The tokens that the nodes of a tree keep.  They come in the order in which the tree is written
down, and what a node says besides is what its token says. -/

/-! The tokens of the nodes from left to right: an operator stands between its operands, and the
parenthesis of a call after its callee.  A statement that is an expression has no token of its
own among them. -/

mutual

def Expr.nodeTokens : Expr → List Token
  | .identifier name => [name.token]
  | .integer token _ => [token]
  | .boolean token _ => [token]
  | .unary token _ operand => token :: operand.nodeTokens
  | .binary token left _ right => left.nodeTokens ++ token :: right.nodeTokens
  | .ifElse token condition consequence alternative? =>
    token :: (condition.nodeTokens ++
      (consequence.nodeTokens ++ Block.nodeTokensElse alternative?))
  | .function token parameters body =>
    token :: (parameters.map Identifier.token ++ body.nodeTokens)
  | .call token callee arguments => callee.nodeTokens ++ token :: Expr.nodeTokensAll arguments

def Expr.nodeTokensAll : List Expr → List Token
  | [] => []
  | first :: rest => first.nodeTokens ++ Expr.nodeTokensAll rest

def Block.nodeTokens : Block → List Token
  | .mk token statements => token :: Stmt.nodeTokensAll statements

def Block.nodeTokensElse : Option Block → List Token
  | none => []
  | some body => body.nodeTokens

def Stmt.nodeTokens : Stmt → List Token
  | .letBinding token name value => token :: name.token :: value.nodeTokens
  | .returning token none => [token]
  | .returning token (some value) => token :: value.nodeTokens
  | .expression _ value => value.nodeTokens
  | .block body => body.nodeTokens

def Stmt.nodeTokensAll : List Stmt → List Token
  | [] => []
  | first :: rest => first.nodeTokens ++ Stmt.nodeTokensAll rest

end

def Program.nodeTokens (program : Program) : List Token :=
  Stmt.nodeTokensAll program.statements

/-- The first token is the other one, or a parenthesis from which only parentheses lead up to
it. -/
def Token.LeadsTo (tokens : List Token) (token other : Token) : Prop :=
  token = other ∨ ∃ before parens rest, tokens = before ++ token :: (parens ++ other :: rest) ∧
    ∀ paren ∈ token :: parens, paren.kind = .openParen

structure Identifier.Faithful (name : Identifier) : Prop where
  kind : name.token.kind = .identifier
  word : name.word = name.token.text

/-! Every node says what its token says, which is of a kind that starts such a node.  A statement
that is an expression starts where the expression does, in the tokens that it has been read
from. -/

mutual

def Expr.Faithful (tokens : List Token) : Expr → Prop
  | .identifier name => name.Faithful
  | .integer token value => token.kind = .integer ∧
    ∃ number, Numeral.Denotes token.text.toList number ∧ value.toInt = number
  | .boolean token value => (token.kind = .trueWord ∨ token.kind = .falseWord) ∧
    (value = true ↔ token.kind = .trueWord)
  | .unary token operator operand => (token.kind = .not ∨ token.kind = .dash) ∧
    operator = token.text ∧ operand.Faithful tokens
  | .binary token left operator right =>
    (∃ power, Grammar.standard.operator? token.kind = some ⟨power, .binary⟩) ∧
      operator = token.text ∧ left.Faithful tokens ∧ right.Faithful tokens
  | .ifElse token condition consequence alternative? => token.kind = .ifWord ∧
    condition.Faithful tokens ∧ consequence.Faithful tokens ∧
      Block.FaithfulElse tokens alternative?
  | .function token parameters body => token.kind = .fnWord ∧
    (∀ name ∈ parameters, name.Faithful) ∧ body.Faithful tokens
  | .call token callee arguments => token.kind = .openParen ∧
    callee.Faithful tokens ∧ Expr.FaithfulAll tokens arguments

def Expr.FaithfulAll (tokens : List Token) : List Expr → Prop
  | [] => True
  | first :: rest => first.Faithful tokens ∧ Expr.FaithfulAll tokens rest

def Block.Faithful (tokens : List Token) : Block → Prop
  | .mk token statements => token.kind = .openCurly ∧ Stmt.FaithfulAll tokens statements

def Block.FaithfulElse (tokens : List Token) : Option Block → Prop
  | none => True
  | some body => body.Faithful tokens

def Stmt.Faithful (tokens : List Token) : Stmt → Prop
  | .letBinding token name value =>
    token.kind = .letWord ∧ name.Faithful ∧ value.Faithful tokens
  | .returning token none => token.kind = .returnWord
  | .returning token (some value) => token.kind = .returnWord ∧ value.Faithful tokens
  | .expression token value =>
    (∃ first ∈ value.nodeTokens.head?, Token.LeadsTo tokens token first) ∧ value.Faithful tokens
  | .block body => body.Faithful tokens

def Stmt.FaithfulAll (tokens : List Token) : List Stmt → Prop
  | [] => True
  | first :: rest => first.Faithful tokens ∧ Stmt.FaithfulAll tokens rest

end

theorem Identifier.WrittenRest.sublist_tokens {names : List Identifier} {tokens : List Token}
    (h : Identifier.WrittenRest names tokens) : (names.map token).Sublist tokens := by
  induction h with
  | nil => exact .slnil
  | cons hcomma hkind _ ih => exact (ih.cons_cons _).cons _

theorem Identifier.WrittenAll.sublist_tokens {names : List Identifier} {tokens : List Token}
    (h : Identifier.WrittenAll names tokens) : (names.map token).Sublist tokens := by
  cases h with
  | nil => exact .slnil
  | cons hkind hrest => exact hrest.sublist_tokens.cons_cons _

/-! The tokens of the nodes are among those that the tree is written in. -/

mutual

theorem Expr.Bare.sublist_nodeTokens {expr : Expr} {tokens : List Token} (h : expr.Bare tokens) :
    expr.nodeTokens.Sublist tokens :=
  match h with
  | .identifier _ => .refl _
  | .integer _ _ => .refl _
  | .boolean _ => .refl _
  | .unary _ hoperand => hoperand.sublist_nodeTokens.cons_cons _
  | .binary _ hleft hright =>
      hleft.sublist_nodeTokens.append (hright.sublist_nodeTokens.cons_cons _)
  | .ifElse _ _ hcondition _ hconsequence halternative =>
      ((hcondition.sublist_nodeTokens.append
        ((hconsequence.sublist_nodeTokens.append halternative.sublist_nodeTokens).cons
          _)).cons _).cons_cons _
  | .function _ _ hparameters _ hbody =>
      ((hparameters.sublist_tokens.append (hbody.sublist_nodeTokens.cons _)).cons _).cons_cons _
  | .call hcallee _ harguments _ =>
      hcallee.sublist_nodeTokens.append
        ((harguments.sublist_nodeTokens.trans (List.sublist_append_left ..)).cons_cons _)

theorem Expr.Written.sublist_nodeTokens {fits : Expr → Prop} {expr : Expr} {tokens : List Token}
    (h : expr.Written fits tokens) : expr.nodeTokens.Sublist tokens :=
  match h with
  | .bare h _ => h.sublist_nodeTokens
  | .grouped _ h _ => (h.sublist_nodeTokens.trans (List.sublist_append_left ..)).cons _

theorem Expr.WrittenAll.sublist_nodeTokens {exprs : List Expr} {tokens : List Token}
    (h : Expr.WrittenAll exprs tokens) : (Expr.nodeTokensAll exprs).Sublist tokens :=
  match h with
  | .nil => .slnil
  | .cons hfirst hrest => hfirst.sublist_nodeTokens.append hrest.sublist_nodeTokens

theorem Expr.WrittenRest.sublist_nodeTokens {exprs : List Expr} {tokens : List Token}
    (h : Expr.WrittenRest exprs tokens) : (Expr.nodeTokensAll exprs).Sublist tokens :=
  match h with
  | .nil => .slnil
  | .cons _ hfirst hrest =>
      (hfirst.sublist_nodeTokens.append hrest.sublist_nodeTokens).cons _

theorem Block.Written.sublist_nodeTokens {body : Block} {tokens : List Token}
    (h : body.Written tokens) : body.nodeTokens.Sublist tokens :=
  match h with
  | .braces _ h _ => (h.sublist_nodeTokens.trans (List.sublist_append_left ..)).cons_cons _

theorem Block.WrittenElse.sublist_nodeTokens {body? : Option Block} {tokens : List Token}
    (h : Block.WrittenElse body? tokens) : (Block.nodeTokensElse body?).Sublist tokens :=
  match h with
  | .none => .slnil
  | .some _ h => h.sublist_nodeTokens.cons _

theorem Stmt.Written.sublist_nodeTokens {stmt : Stmt} {tokens : List Token}
    (h : stmt.Written tokens) : stmt.nodeTokens.Sublist tokens :=
  match h with
  | .letBinding _ _ _ hvalue => ((hvalue.sublist_nodeTokens.cons _).cons_cons _).cons_cons _
  | .returning _ => .refl _
  | .returningValue _ hvalue => hvalue.sublist_nodeTokens.cons_cons _
  | .expression h => h.sublist_nodeTokens
  | .block h => h.sublist_nodeTokens

theorem Stmt.WrittenAll.sublist_nodeTokens {stmts : List Stmt} {tokens : List Token}
    (h : Stmt.WrittenAll stmts tokens) : (Stmt.nodeTokensAll stmts).Sublist tokens :=
  match h with
  | .nil => .slnil
  | .closed hfirst _ hrest =>
      hfirst.sublist_nodeTokens.append (hrest.sublist_nodeTokens.cons _)
  | .abutting hfirst _ hrest => hfirst.sublist_nodeTokens.append hrest.sublist_nodeTokens

end

/-! An expression starts with the token of a node, but for parentheses. -/

/-- The tokens are parentheses up to the first of the others, which come after it. -/
def Token.StartsAfterParens (tokens nodes : List Token) : Prop :=
  ∃ parens first rest others, tokens = parens ++ first :: rest ∧ nodes = first :: others ∧
    ∀ paren ∈ parens, paren.kind = .openParen

namespace Token.StartsAfterParens

variable {token : Token} {tokens nodes : List Token}

theorem here (token : Token) (tokens nodes : List Token) :
    StartsAfterParens (token :: tokens) (token :: nodes) :=
  ⟨[], token, tokens, nodes, rfl, rfl, nofun⟩

theorem append (h : StartsAfterParens tokens nodes) (others more : List Token) :
    StartsAfterParens (tokens ++ others) (nodes ++ more) := by
  obtain ⟨parens, first, rest, nodes, rfl, rfl, hparens⟩ := h
  exact ⟨parens, first, rest ++ others, nodes ++ more, by simp, rfl, hparens⟩

theorem grouped (h : StartsAfterParens tokens nodes) (hkind : token.kind = .openParen)
    (others : List Token) : StartsAfterParens (token :: (tokens ++ others)) nodes := by
  obtain ⟨parens, first, rest, nodes, rfl, rfl, hparens⟩ := h
  exact ⟨token :: parens, first, rest ++ others, nodes, by simp, rfl,
    List.forall_mem_cons.mpr ⟨hkind, hparens⟩⟩

theorem exists_leadsTo (h : StartsAfterParens (token :: tokens) nodes) {all : List Token}
    (hpart : token :: tokens <:+: all) : ∃ first ∈ nodes.head?, LeadsTo all token first := by
  obtain ⟨parens, first, rest, nodes, hsplit, rfl, hparens⟩ := h
  refine ⟨first, rfl, ?_⟩
  cases parens with
  | nil => exact .inl (List.cons.inj hsplit).1
  | cons paren parens =>
      obtain ⟨before, after, rfl⟩ := hpart
      obtain ⟨rfl, -⟩ := List.cons.inj hsplit
      refine .inr ⟨before, parens, rest ++ after, ?_, hparens⟩
      rw [hsplit]
      simp

end Token.StartsAfterParens

open Token (StartsAfterParens)

mutual

theorem Expr.Bare.startsAfterParens {expr : Expr} {tokens : List Token} (h : expr.Bare tokens) :
    StartsAfterParens tokens expr.nodeTokens :=
  match h with
  | .identifier _ => .here ..
  | .integer _ _ => .here ..
  | .boolean _ => .here ..
  | .unary _ _ => .here ..
  | .binary _ hleft _ => hleft.startsAfterParens.append ..
  | .ifElse .. => .here ..
  | .function .. => .here ..
  | .call hcallee _ _ _ => hcallee.startsAfterParens.append ..

theorem Expr.Written.startsAfterParens {fits : Expr → Prop} {expr : Expr} {tokens : List Token}
    (h : expr.Written fits tokens) : StartsAfterParens tokens expr.nodeTokens :=
  match h with
  | .bare h _ => h.startsAfterParens
  | .grouped hopening h _ => h.startsAfterParens.grouped hopening _

end

/-! What the nodes say, where the tokens that the tree is written in lie among others. -/

namespace Token

variable {token : Token} {used others all : List Token}

theorem infix_of_cons (h : token :: used <:+: all) : used <:+: all :=
  (List.suffix_cons token used).isInfix.trans h

theorem infix_of_append_left (h : used ++ others <:+: all) : used <:+: all :=
  List.infix_append_left.trans h

theorem infix_of_append_right (h : used ++ others <:+: all) : others <:+: all :=
  List.infix_append_right.trans h

end Token

open Token (infix_of_cons infix_of_append_left infix_of_append_right)

theorem Identifier.WrittenRest.faithful {names : List Identifier} {tokens : List Token}
    (h : Identifier.WrittenRest names tokens) : ∀ name ∈ names, name.Faithful := by
  induction h with
  | nil => exact nofun
  | cons _ hkind _ ih => exact List.forall_mem_cons.mpr ⟨⟨hkind, rfl⟩, ih⟩

theorem Identifier.WrittenAll.faithful {names : List Identifier} {tokens : List Token}
    (h : Identifier.WrittenAll names tokens) : ∀ name ∈ names, name.Faithful := by
  cases h with
  | nil => exact nofun
  | cons hkind hrest => exact List.forall_mem_cons.mpr ⟨⟨hkind, rfl⟩, hrest.faithful⟩

theorem Expr.faithful_integer {token : Token} {value : Int64} (hkind : token.kind = .integer)
    (hvalue : Numeral.value? token.text = some value) (all : List Token) :
    (Expr.integer token value).Faithful all := by
  obtain ⟨number, hnumber, hlimit, rfl⟩ := Numeral.value?_eq_some_iff.mp hvalue
  exact ⟨hkind, number, hnumber, Numeral.toInt_ofNat hlimit⟩

mutual

theorem Expr.Bare.faithful {expr : Expr} {tokens all : List Token} (h : expr.Bare tokens)
    (hpart : tokens <:+: all) : expr.Faithful all :=
  match h with
  | .identifier hkind => ⟨hkind, rfl⟩
  | .integer hkind hvalue => Expr.faithful_integer hkind hvalue all
  | .boolean hkind => ⟨hkind, beq_iff_eq⟩
  | .unary hkind hoperand => ⟨hkind, rfl, hoperand.faithful (infix_of_cons hpart)⟩
  | .binary hkind hleft hright =>
      ⟨⟨_, hkind⟩, rfl, hleft.faithful (infix_of_append_left hpart),
        hright.faithful (infix_of_cons (infix_of_append_right hpart))⟩
  | .ifElse hkind _ hcondition _ hconsequence halternative =>
      have hinside := infix_of_cons (infix_of_cons hpart)
      have hblocks := infix_of_cons (infix_of_append_right hinside)
      ⟨hkind, hcondition.faithful (infix_of_append_left hinside),
        hconsequence.faithful (infix_of_append_left hblocks),
        halternative.faithful (infix_of_append_right hblocks)⟩
  | .function hkind _ hparameters _ hbody =>
      have hinside := infix_of_cons (infix_of_cons hpart)
      ⟨hkind, hparameters.faithful,
        hbody.faithful (infix_of_cons (infix_of_append_right hinside))⟩
  | .call hcallee hkind harguments _ =>
      have hinside := infix_of_cons (infix_of_append_right hpart)
      ⟨hkind, hcallee.faithful (infix_of_append_left hpart),
        harguments.faithful (infix_of_append_left hinside)⟩

theorem Expr.Written.faithful {fits : Expr → Prop} {expr : Expr} {tokens all : List Token}
    (h : expr.Written fits tokens) (hpart : tokens <:+: all) : expr.Faithful all :=
  match h with
  | .bare h _ => h.faithful hpart
  | .grouped _ h _ => h.faithful (infix_of_append_left (infix_of_cons hpart))

theorem Expr.WrittenAll.faithful {exprs : List Expr} {tokens all : List Token}
    (h : Expr.WrittenAll exprs tokens) (hpart : tokens <:+: all) :
    Expr.FaithfulAll all exprs :=
  match h with
  | .nil => trivial
  | .cons hfirst hrest =>
      ⟨hfirst.faithful (infix_of_append_left hpart),
        hrest.faithful (infix_of_append_right hpart)⟩

theorem Expr.WrittenRest.faithful {exprs : List Expr} {tokens all : List Token}
    (h : Expr.WrittenRest exprs tokens) (hpart : tokens <:+: all) :
    Expr.FaithfulAll all exprs :=
  match h with
  | .nil => trivial
  | .cons _ hfirst hrest =>
      have hinside := infix_of_cons hpart
      ⟨hfirst.faithful (infix_of_append_left hinside),
        hrest.faithful (infix_of_append_right hinside)⟩

theorem Block.Written.faithful {body : Block} {tokens all : List Token}
    (h : body.Written tokens) (hpart : tokens <:+: all) : body.Faithful all :=
  match h with
  | .braces hopening h _ =>
      ⟨hopening, h.faithful (infix_of_append_left (infix_of_cons hpart))⟩

theorem Block.WrittenElse.faithful {body? : Option Block} {tokens all : List Token}
    (h : Block.WrittenElse body? tokens) (hpart : tokens <:+: all) :
    Block.FaithfulElse all body? :=
  match h with
  | .none => trivial
  | .some _ h => h.faithful (infix_of_cons hpart)

theorem Stmt.Written.faithful {stmt : Stmt} {tokens all : List Token} (h : stmt.Written tokens)
    (hpart : tokens <:+: all) : stmt.Faithful all :=
  match h with
  | .letBinding hkind hname _ hvalue =>
      ⟨hkind, ⟨hname, rfl⟩,
        hvalue.faithful (infix_of_cons (infix_of_cons (infix_of_cons hpart)))⟩
  | .returning hkind => hkind
  | .returningValue hkind hvalue => ⟨hkind, hvalue.faithful (infix_of_cons hpart)⟩
  | .expression h => ⟨h.startsAfterParens.exists_leadsTo hpart, h.faithful hpart⟩
  | .block h => h.faithful hpart

theorem Stmt.WrittenAll.faithful {stmts : List Stmt} {tokens all : List Token}
    (h : Stmt.WrittenAll stmts tokens) (hpart : tokens <:+: all) :
    Stmt.FaithfulAll all stmts :=
  match h with
  | .nil => trivial
  | .closed hfirst _ hrest =>
      ⟨hfirst.faithful (infix_of_append_left hpart),
        hrest.faithful (infix_of_cons (infix_of_append_right hpart))⟩
  | .abutting hfirst _ hrest =>
      ⟨hfirst.faithful (infix_of_append_left hpart),
        hrest.faithful (infix_of_append_right hpart)⟩

end

end MonkeySyntax
