import MonkeySyntax.Proofs.Render.Erase
import MonkeySyntax.Proofs.Scanner.Spells
import MonkeySyntax.Proofs.Written.Joins

namespace MonkeySyntax

open Scanner

/-! The source text of a tree is read as tokens that a copy of the tree is written in,
which differs in places only. -/

/-- The tokens stand for a copy of the value. -/
def Copied {α : Type} (erase : α → α) (written : α → List Token → Prop) (value : α)
    (tokens : List Token) : Prop :=
  ∃ copy, erase copy = erase value ∧ written copy tokens

def Token.IsLexeme (token : Token) : Prop :=
  Lexeme token.kind token.text.toList

abbrev Token.Copies (token : Token) : List Token → Prop :=
  Copied Token.erase (fun copy tokens => tokens = [copy]) token

theorem Token.IsLexeme.spells {token : Token} (h : token.IsLexeme)
    (hillegal : token.kind ≠ .illegal) (heof : token.kind ≠ .eof) :
    Spells token.text.toList token.Copies (Follows · token.kind) := by
  apply (Lexeme.spells h hillegal heof).imp
  intro tokens hcopied
  obtain ⟨copy, rfl, hkind, htext⟩ := hcopied
  rw [String.ofList_toList] at htext
  exact ⟨copy, Token.erase_eq_iff.mpr ⟨hkind, htext⟩, rfl⟩

theorem Token.IsLexeme.text_eq {token : Token} {text : String} (h : token.IsLexeme)
    (hmem : (token.kind, text.toList) ∈ symbols) : token.text = text :=
  String.toList_injective (Lexeme.eq_of_mem_symbols h hmem)

/-- A token that its kind tells the text of. -/
def OneOf (kind : Kind) (tokens : List Token) : Prop :=
  ∃ token : Token, tokens = [token] ∧ token.kind = kind

theorem spells_symbol {kind : Kind} {text : List Char} (h : (kind, text) ∈ symbols) :
    Spells text (OneOf kind) (Follows · kind) := by
  have hkinds : ∀ entry ∈ symbols, entry.1 ≠ .illegal ∧ entry.1 ≠ .eof := by decide
  obtain ⟨hillegal, heof⟩ := hkinds _ h
  apply ((Lexeme.symbol h).spells hillegal heof).imp
  intro tokens hcopied
  obtain ⟨token, rfl, hkind, -⟩ := hcopied
  exact ⟨token, rfl, hkind⟩

theorem delimits_cons {c : Char} {rest : List Char}
    (h : c ∈ [' ', '(', ')', '{', '}', ';', ',']) : Delimits (c :: rest) := by
  intro c' hc'
  obtain rfl := Option.some.inj hc'
  exact h

/-! The punctuation of rendered trees, with the spaces around it. -/

theorem spells_openParen : Spells "(".toList (OneOf .openParen) Anything :=
  spells_symbol (by decide)

theorem spells_closeParen : Spells ")".toList (OneOf .closeParen) Anything :=
  spells_symbol (by decide)

theorem spells_closeCurly : Spells "\x7d".toList (OneOf .closeCurly) Anything :=
  spells_symbol (by decide)

theorem spells_semicolon : Spells ";".toList (OneOf .semicolon) Anything :=
  spells_symbol (by decide)

theorem spells_space_openParen : Spells " (".toList (OneOf .openParen) Anything :=
  spells_openParen.after_space

theorem spells_closeParen_space : Spells ") ".toList (OneOf .closeParen) Anything :=
  spells_closeParen.before_space fun _ => trivial

theorem spells_comma_space : Spells ", ".toList (OneOf .comma) Anything := by
  have hcomma : Spells [','] (OneOf .comma) Anything := spells_symbol (by decide)
  exact hcomma.before_space fun _ => trivial

theorem spells_assignment : Spells " = ".toList (OneOf .assignment) Anything := by
  have hsign : Spells ['='] (OneOf .assignment) (Follows · .assignment) :=
    spells_symbol (by decide)
  exact hsign.after_space.before_space fun _ => (delimits_cons (by decide)).follows _

theorem spells_elseWord : Spells " else ".toList (OneOf .elseWord) Anything := by
  have hword : Lexeme .elseWord ['e', 'l', 's', 'e'] :=
    @Lexeme.word 'e' ['l', 's', 'e'] (by decide) (List.all_eq_true.mp (by decide))
  have hspells : Spells ['e', 'l', 's', 'e'] (OneOf .elseWord) (Follows · .elseWord) := by
    apply (hword.spells (by decide) (by decide)).imp
    intro tokens hcopied
    obtain ⟨token, rfl, hkind, -⟩ := hcopied
    exact ⟨token, rfl, hkind⟩
  exact hspells.after_space.before_space fun _ => (delimits_cons (by decide)).follows _

/-- The text of the expression is read as a copy that fits any place. -/
abbrev Expr.Copies (expr : Expr) : Prop :=
  Spells expr.render.toList (Copied Expr.erase (Expr.Written Expr.FitsCallee) expr) Delimits

theorem Expr.FitsCallee.fitsOperand {expr : Expr} (h : expr.FitsCallee) :
    expr.FitsOperand := by
  cases expr with
  | binary => exact h
  | _ => trivial

theorem Expr.FitsCallee.fitsLeft {expr : Expr} (h : expr.FitsCallee) (power : BindingPower) :
    expr.FitsLeft power := by
  cases expr with
  | binary => exact h.elim
  | _ => trivial

theorem Expr.FitsCallee.fitsRight {expr : Expr} (h : expr.FitsCallee) (power : BindingPower) :
    expr.FitsRight power := by
  cases expr with
  | binary => exact h.elim
  | _ => trivial

namespace Expr

variable {token : Token}

theorem copies_identifier (hkind : token.kind = .identifier) (h : token.IsLexeme) :
    Copies (.identifier ⟨token, token.text⟩) := by
  refine (h.spells (by simp [hkind]) (by simp [hkind])).mono ?_ fun _ hrest => hrest.follows _
  intro tokens hcopied
  obtain ⟨copy, hcopy, rfl⟩ := hcopied
  have hsame := Token.erase_eq_iff.mp hcopy
  refine ⟨.identifier ⟨copy, copy.text⟩, ?_, .bare (.identifier (hsame.1.trans hkind)) trivial⟩
  simp only [erase, Identifier.erase, hcopy, hsame.2]

theorem copies_integer {value : Int64} (hkind : token.kind = .integer)
    (hvalue : Numeral.value? token.text = some value) (h : token.IsLexeme) :
    Copies (.integer token value) := by
  refine (h.spells (by simp [hkind]) (by simp [hkind])).mono ?_ fun _ hrest => hrest.follows _
  intro tokens hcopied
  obtain ⟨copy, hcopy, rfl⟩ := hcopied
  have hsame := Token.erase_eq_iff.mp hcopy
  refine ⟨.integer copy value, ?_,
    .bare (.integer (hsame.1.trans hkind) (hsame.2 ▸ hvalue)) trivial⟩
  simp only [erase, hcopy]

theorem copies_boolean (hkind : token.kind = .trueWord ∨ token.kind = .falseWord)
    (h : token.IsLexeme) : Copies (.boolean token (token.kind == .trueWord)) := by
  have hne : token.kind ≠ .illegal ∧ token.kind ≠ .eof := by
    rcases hkind with hkind | hkind <;> rw [hkind] <;> decide
  refine (h.spells hne.1 hne.2).mono ?_ fun _ hrest => hrest.follows _
  intro tokens hcopied
  obtain ⟨copy, hcopy, rfl⟩ := hcopied
  have hsame := Token.erase_eq_iff.mp hcopy
  refine ⟨.boolean copy (copy.kind == .trueWord), ?_, .bare (.boolean (hsame.1 ▸ hkind)) trivial⟩
  simp only [erase, hcopy, hsame.1]

theorem copies_unary {operand : Expr} (hkind : token.kind = .not ∨ token.kind = .dash)
    (h : token.IsLexeme) (hhead : operand.render.toList.head?.any (· != '='))
    (hoperand : operand.Copies) : Copies (.unary token token.text operand) := by
  have hfollows : ∀ rest, Follows (operand.render.toList ++ rest) token.kind := by
    intro rest
    cases htext : operand.render.toList with
    | nil => simp [htext] at hhead
    | cons c chars =>
        rcases hkind with hkind | hkind
        · rw [hkind]
          simpa [Follows, htext] using hhead
        · rw [hkind]
          trivial
  have hkinds : token.kind ≠ .illegal ∧ token.kind ≠ .eof := by
    rcases hkind with hkind | hkind <;> rw [hkind] <;> decide
  have hspells := ((spells_openParen.append (h.spells hkinds.1 hkinds.2) fun _ _ => trivial).append
    hoperand fun rest _ => hfollows rest).append spells_closeParen fun _ _ =>
    delimits_cons (by decide)
  simp only [Copies, render, String.toList_append]
  apply hspells.anywhere
  intro _ hcopied
  obtain ⟨_, _, rfl, ⟨_, _, rfl, ⟨_, _, rfl, ⟨opening, rfl, hopen⟩, ⟨copy, hcopy, rfl⟩⟩,
    ⟨operand', hsame, hwritten⟩⟩, ⟨closing, rfl, hclose⟩⟩ := hcopied
  have htoken := Token.erase_eq_iff.mp hcopy
  refine ⟨.unary copy copy.text operand', ?_, ?_⟩
  · simp only [erase, hcopy, htoken.2, hsame]
  · exact .grouped hopen (.bare (.unary (htoken.1 ▸ hkind)
      (hwritten.mono fun _ hfits => hfits.fitsOperand)) trivial) hclose

theorem copies_binary {power : BindingPower} {left right : Expr}
    (hkind : Grammar.standard.operator? token.kind = some ⟨power, .binary⟩)
    (h : token.IsLexeme) (hleft : left.Copies) (hright : right.Copies) :
    Copies (.binary token left token.text right) := by
  have hkinds : token.kind ≠ .illegal ∧ token.kind ≠ .eof := by
    constructor <;> intro heq <;> simp [heq, Grammar.standard] at hkind
  have hoperator : Spells (" ".toList ++ token.text.toList ++ " ".toList) token.Copies
      Anything := ((h.spells hkinds.1 hkinds.2).after_space).before_space
    fun _ => (delimits_cons (by decide)).follows _
  have hspells := (((spells_openParen.append hleft fun _ _ => trivial).append hoperator
    fun _ _ => delimits_cons (by decide)).append hright fun _ _ => trivial).append
    spells_closeParen fun _ _ => delimits_cons (by decide)
  have htext : (Expr.binary token left token.text right).render.toList =
      "(".toList ++ left.render.toList ++ (" ".toList ++ token.text.toList ++ " ".toList) ++
        right.render.toList ++ ")".toList := by
    simp only [render, String.toList_append, List.append_assoc]
  rw [Copies, htext]
  apply hspells.anywhere
  intro _ hcopied
  obtain ⟨_, _, rfl, ⟨_, _, rfl, ⟨_, _, rfl, ⟨_, lefts, rfl, ⟨opening, rfl, hopen⟩,
    ⟨left', hsame, hlefts⟩⟩, ⟨copy, hcopy, rfl⟩⟩, ⟨right', hsame', hrights⟩⟩,
    ⟨closing, rfl, hclose⟩⟩ := hcopied
  have htoken := Token.erase_eq_iff.mp hcopy
  refine ⟨.binary copy left' copy.text right', ?_, ?_⟩
  · simp only [erase, hcopy, htoken.2, hsame, hsame']
  · have hbare := Expr.Bare.binary (htoken.1 ▸ hkind)
      (hlefts.mono fun _ hfits => hfits.fitsLeft power)
      (hrights.mono fun _ hfits => hfits.fitsRight power)
    have hgrouped : Expr.Written Expr.FitsCallee _ _ :=
      .grouped hopen (.bare hbare trivial) hclose
    simpa using hgrouped

end Expr

/-- What commas come before. -/
def commaPreceded : List String → String
  | [] => ""
  | first :: rest => ", " ++ first ++ commaPreceded rest

theorem commaSeparated_cons (first : String) (rest : List String) :
    commaSeparated (first :: rest) = first ++ commaPreceded rest := by
  induction rest generalizing first with
  | nil => simp [commaSeparated, commaPreceded]
  | cons next rest ih => simp only [commaSeparated, commaPreceded, ih, String.append_assoc]

theorem delimits_commaPreceded (texts : List String) {rest : List Char} (h : Delimits rest) :
    Delimits ((commaPreceded texts).toList ++ rest) := by
  cases texts with
  | nil => exact h
  | cons first texts =>
      simp only [commaPreceded, String.toList_append, List.append_assoc]
      exact delimits_cons (by decide)

abbrev Expr.CopiesAll (exprs : List Expr) : Prop :=
  Spells (commaSeparated (Expr.renderAll exprs)).toList
    (Copied Expr.eraseAll Expr.WrittenAll exprs) Delimits

abbrev Expr.CopiesRest (exprs : List Expr) : Prop :=
  Spells (commaPreceded (Expr.renderAll exprs)).toList
    (Copied Expr.eraseAll Expr.WrittenRest exprs) Delimits

abbrev Block.Copies (body : Block) : Prop :=
  Spells body.render.toList (Copied Block.erase Block.Written body) Anything

abbrev Block.CopiesElse (body? : Option Block) : Prop :=
  Spells (Block.renderElse body?).toList (Copied Block.erase? Block.WrittenElse body?) Anything

namespace Expr

variable {token : Token}

theorem copies_ifElse {condition : Expr} {consequence : Block} {alternative? : Option Block}
    (hkind : token.kind = .ifWord) (h : token.IsLexeme) (hcondition : condition.Copies)
    (hconsequence : consequence.Copies) (halternative : Block.CopiesElse alternative?) :
    Copies (.ifElse token condition consequence alternative?) := by
  have hword := h.spells (by simp [hkind]) (by simp [hkind])
  have hspells := ((((hword.append spells_space_openParen fun _ _ =>
    (delimits_cons (by decide)).follows _).append hcondition fun _ _ => trivial).append
    spells_closeParen_space fun _ _ => delimits_cons (by decide)).append hconsequence
    fun _ _ => trivial).append halternative fun _ _ => trivial
  simp only [Copies, render, String.toList_append]
  apply hspells.anywhere
  intro _ hcopied
  obtain ⟨_, alternatives, rfl, ⟨_, consequences, rfl, ⟨_, _, rfl, ⟨_, conditions, rfl,
    ⟨_, _, rfl, ⟨copy, hcopy, rfl⟩, ⟨opening, rfl, hopen⟩⟩, ⟨condition', hsame, hconditions⟩⟩,
    ⟨closing, rfl, hclose⟩⟩, ⟨consequence', hsame', hconsequences⟩⟩,
    ⟨alternative?', hsame'', halternatives⟩⟩ := hcopied
  have htoken := Token.erase_eq_iff.mp hcopy
  refine ⟨.ifElse copy condition' consequence' alternative?', ?_, ?_⟩
  · simp only [erase, hcopy, hsame, hsame', hsame'']
  · have hbare := Expr.Bare.ifElse (htoken.1.trans hkind) hopen
      (hconditions.mono fun _ _ => trivial) hclose hconsequences halternatives
    have hwritten : Expr.Written Expr.FitsCallee _ _ := .bare hbare trivial
    simpa using hwritten

theorem copies_call {callee : Expr} {arguments : List Expr} (hkind : token.kind = .openParen)
    (h : token.IsLexeme) (hcallee : callee.Copies) (harguments : CopiesAll arguments) :
    Copies (.call token callee arguments) := by
  have htext : token.text = "(" := Token.IsLexeme.text_eq h (by rw [hkind]; decide)
  have hparen := Token.IsLexeme.spells h (by simp [hkind]) (by simp [hkind])
  rw [htext, hkind] at hparen
  have hspells := ((hcallee.append hparen fun _ _ => delimits_cons (by decide)).append
    harguments fun _ _ => trivial).append spells_closeParen fun _ _ =>
    delimits_cons (by decide)
  simp only [Copies, render, String.toList_append]
  apply hspells.anywhere
  intro _ hcopied
  obtain ⟨_, _, rfl, ⟨_, values, rfl, ⟨callees, _, rfl, ⟨callee', hsame, hcallees⟩,
    ⟨copy, hcopy, rfl⟩⟩, ⟨arguments', hsame', hvalues⟩⟩, ⟨closing, rfl, hclose⟩⟩ := hcopied
  have htoken := Token.erase_eq_iff.mp hcopy
  refine ⟨.call copy callee' arguments', ?_, ?_⟩
  · simp only [erase, hcopy, hsame, hsame']
  · have hbare := Expr.Bare.call hcallees (htoken.1.trans hkind) hvalues hclose
    have hwritten : Expr.Written Expr.FitsCallee _ _ := .bare hbare trivial
    simpa using hwritten

theorem copiesRest_nil : CopiesRest [] :=
  spells_nil.anywhere fun _ hnil => hnil ▸ ⟨[], rfl, .nil⟩

theorem copiesRest_cons {first : Expr} {rest : List Expr} (hfirst : first.Copies)
    (hrest : CopiesRest rest) : CopiesRest (first :: rest) := by
  have hspells := (spells_comma_space.append hfirst fun _ _ => trivial).append hrest
    fun _ => delimits_commaPreceded _
  simp only [CopiesRest, renderAll, commaPreceded, String.toList_append]
  apply hspells.imp
  intro _ hcopied
  obtain ⟨_, others, rfl, ⟨_, firsts, rfl, ⟨comma, rfl, hcomma⟩, ⟨first', hsame, hfirsts⟩⟩,
    ⟨rest', hsame', hothers⟩⟩ := hcopied
  refine ⟨first' :: rest', by simp only [eraseAll, hsame, hsame'], ?_⟩
  simpa using Expr.WrittenRest.cons hcomma (hfirsts.mono fun _ _ => trivial) hothers

theorem copiesAll_nil : CopiesAll [] :=
  spells_nil.anywhere fun _ hnil => hnil ▸ ⟨[], rfl, .nil⟩

theorem copiesAll_cons {first : Expr} {rest : List Expr} (hfirst : first.Copies)
    (hrest : CopiesRest rest) : CopiesAll (first :: rest) := by
  have hspells := hfirst.append hrest fun _ => delimits_commaPreceded _
  simp only [CopiesAll, renderAll, commaSeparated_cons, String.toList_append]
  apply hspells.imp
  intro _ hcopied
  obtain ⟨firsts, others, rfl, ⟨first', hsame, hfirsts⟩, ⟨rest', hsame', hothers⟩⟩ := hcopied
  exact ⟨first' :: rest', by simp only [eraseAll, hsame, hsame'],
    .cons (hfirsts.mono fun _ _ => trivial) hothers⟩

end Expr

namespace Identifier

theorem copiesRest {names : List Identifier} {tokens : List Token}
    (h : Identifier.WrittenRest names tokens) (hlexemes : ∀ token ∈ tokens, token.IsLexeme) :
    Spells (commaPreceded (names.map word)).toList
      (Copied (List.map erase) Identifier.WrittenRest names) Delimits := by
  induction h with
  | nil => exact spells_nil.anywhere fun _ hnil => hnil ▸ ⟨[], rfl, .nil⟩
  | @cons comma token names tokens _ hkind _ ih =>
      have htoken := hlexemes token (by simp)
      have hword := (htoken.spells (by simp [hkind]) (by simp [hkind])).mono
        (fun _ hcopies => hcopies) fun _ (hrest : Delimits _) => hrest.follows _
      have hrest := ih fun other hmem => hlexemes other (by simp [hmem])
      have hspells := (spells_comma_space.append hword fun _ _ => trivial).append hrest
        fun _ => delimits_commaPreceded _
      simp only [List.map_cons, commaPreceded, String.toList_append]
      apply hspells.imp
      intro _ hcopied
      obtain ⟨_, others, rfl, ⟨_, _, rfl, ⟨comma, rfl, hcomma⟩, ⟨copy, hcopy, rfl⟩⟩,
        ⟨names', hsame, hothers⟩⟩ := hcopied
      have hsame' := Token.erase_eq_iff.mp hcopy
      refine ⟨⟨copy, copy.text⟩ :: names', ?_, .cons hcomma (hsame'.1.trans hkind) hothers⟩
      simp only [List.map_cons, hsame, erase, hcopy, hsame'.2]

theorem copiesAll {names : List Identifier} {tokens : List Token}
    (h : Identifier.WrittenAll names tokens) (hlexemes : ∀ token ∈ tokens, token.IsLexeme) :
    Spells (commaSeparated (names.map word)).toList
      (Copied (List.map erase) Identifier.WrittenAll names) Delimits := by
  cases h with
  | nil => exact spells_nil.anywhere fun _ hnil => hnil ▸ ⟨[], rfl, .nil⟩
  | @cons token names tokens hkind hrest =>
      have htoken := hlexemes token (by simp)
      have hword := (htoken.spells (by simp [hkind]) (by simp [hkind])).mono
        (fun _ hcopies => hcopies) fun _ (hrest : Delimits _) => hrest.follows _
      have hrest := copiesRest hrest fun other hmem => hlexemes other (by simp [hmem])
      have hspells := hword.append hrest fun _ => delimits_commaPreceded _
      simp only [List.map_cons, commaSeparated_cons, String.toList_append]
      apply hspells.imp
      intro _ hcopied
      obtain ⟨_, others, rfl, ⟨copy, hcopy, rfl⟩, ⟨names', hsame, hothers⟩⟩ := hcopied
      have hsame' := Token.erase_eq_iff.mp hcopy
      refine ⟨⟨copy, copy.text⟩ :: names', ?_, .cons (hsame'.1.trans hkind) hothers⟩
      simp only [List.map_cons, hsame, erase, hcopy, hsame'.2]

end Identifier

theorem Expr.copies_function {token : Token} {parameters : List Identifier} {body : Block}
    {names : List Token} (hkind : token.kind = .fnWord) (h : token.IsLexeme)
    (hparameters : Identifier.WrittenAll parameters names)
    (hlexemes : ∀ name ∈ names, name.IsLexeme) (hbody : body.Copies) :
    Expr.Copies (.function token parameters body) := by
  have hword := h.spells (by simp [hkind]) (by simp [hkind])
  have hspells := (((hword.append spells_openParen fun _ _ =>
    (delimits_cons (by decide)).follows _).append (Identifier.copiesAll hparameters hlexemes)
    fun _ _ => trivial).append spells_closeParen_space fun _ _ =>
    delimits_cons (by decide)).append hbody fun _ _ => trivial
  simp only [Copies, render, String.toList_append]
  apply hspells.anywhere
  intro _ hcopied
  obtain ⟨_, statements, rfl, ⟨_, _, rfl, ⟨_, names', rfl, ⟨_, _, rfl, ⟨copy, hcopy, rfl⟩,
    ⟨opening, rfl, hopen⟩⟩, ⟨parameters', hsame, hnames⟩⟩, ⟨closing, rfl, hclose⟩⟩,
    ⟨body', hsame', hstatements⟩⟩ := hcopied
  have htoken := Token.erase_eq_iff.mp hcopy
  refine ⟨.function copy parameters' body', ?_, ?_⟩
  · simp only [erase, hcopy, hsame, hsame']
  · have hbare := Expr.Bare.function (htoken.1.trans hkind) hopen hnames hclose hstatements
    have hwritten : Expr.Written Expr.FitsCallee _ _ := .bare hbare trivial
    simpa using hwritten

/-! Blocks and statements.  A statement of a block has an end of its own wherever it
needs one. -/

/-- The text of the statement, with the semicolon that ends a bare expression. -/
def Stmt.renderEnded (stmt : Stmt) : String :=
  stmt.render ++ (if stmt.isBare then ";" else "")

theorem Stmt.renderAll_cons (first : Stmt) (rest : List Stmt) :
    renderAll (first :: rest) = first.renderEnded ++ " " ++ renderAll rest := by
  rw [renderAll, renderEnded]
  cases first.isBare with
  | false => simp
  | true => simp [String.append_assoc]

/-- The statement comes first, whatever statements follow. -/
def Stmt.WrittenFirst (stmt : Stmt) (tokens : List Token) : Prop :=
  ∀ stmts others, Stmt.WrittenAll stmts others →
    Stmt.WrittenAll (stmt :: stmts) (tokens ++ others)

abbrev Stmt.Copies (stmt : Stmt) : Prop :=
  Spells stmt.renderEnded.toList (Copied Stmt.erase Stmt.WrittenFirst stmt) Anything

abbrev Stmt.CopiesAll (stmts : List Stmt) : Prop :=
  Spells (Stmt.renderAll stmts).toList (Copied Stmt.eraseAll Stmt.WrittenAll stmts) Anything

theorem Stmt.Written.writtenFirst {stmt : Stmt} {tokens : List Token} {semicolon : Token}
    (h : stmt.Written tokens) (hsemicolon : semicolon.kind = .semicolon) :
    stmt.WrittenFirst (tokens ++ [semicolon]) := by
  intro stmts others hothers
  rw [List.append_assoc]
  exact .closed h hsemicolon hothers

theorem Block.copies {token : Token} {stmts : List Stmt} (hkind : token.kind = .openCurly)
    (h : token.IsLexeme) (hstmts : Stmt.CopiesAll stmts) : Block.Copies (.mk token stmts) := by
  have htext : token.text = "\x7b" := Token.IsLexeme.text_eq h (by rw [hkind]; decide)
  have hbrace := (Token.IsLexeme.spells h (by simp [hkind]) (by simp [hkind]))
  rw [htext, hkind] at hbrace
  have hopening := hbrace.before_space fun _ => trivial
  have hspells := (hopening.append hstmts fun _ _ => trivial).append spells_closeCurly
    fun _ _ => trivial
  simp only [Block.Copies, render, String.toList_append]
  apply hspells.anywhere
  intro _ hcopied
  obtain ⟨_, _, rfl, ⟨_, tokens, rfl, ⟨copy, hcopy, rfl⟩, ⟨stmts', hsame, htokens⟩⟩,
    ⟨closing, rfl, hclose⟩⟩ := hcopied
  have htoken := Token.erase_eq_iff.mp hcopy
  exact ⟨.mk copy stmts', by simp only [erase, hcopy, hsame],
    .braces (htoken.1.trans hkind) htokens hclose⟩

theorem Block.copiesElse_none : Block.CopiesElse none :=
  spells_nil.anywhere fun _ hnil => hnil ▸ ⟨none, rfl, .none⟩

theorem Block.copiesElse_some {body : Block} (hbody : body.Copies) :
    Block.CopiesElse (some body) := by
  have hspells := spells_elseWord.append hbody fun _ _ => trivial
  simp only [Block.CopiesElse, renderElse, String.toList_append]
  apply hspells.anywhere
  intro _ hcopied
  obtain ⟨_, tokens, rfl, ⟨word, rfl, hword⟩, ⟨body', hsame, htokens⟩⟩ := hcopied
  exact ⟨some body', by simp only [erase?, hsame], .some hword htokens⟩

namespace Stmt

variable {token : Token}

theorem copies_letBinding {name : Token} {value : Expr} (hkind : token.kind = .letWord)
    (h : token.IsLexeme) (hname : name.kind = .identifier) (hlexeme : name.IsLexeme)
    (hvalue : value.Copies) : Copies (.letBinding token ⟨name, name.text⟩ value) := by
  have hword := (Token.IsLexeme.spells h (by simp [hkind]) (by simp [hkind])).before_space
    fun _ => (delimits_cons (by decide)).follows _
  have hnames := Token.IsLexeme.spells hlexeme (by simp [hname]) (by simp [hname])
  have hspells := (((hword.append hnames fun _ _ => trivial).append spells_assignment
    fun _ _ => (delimits_cons (by decide)).follows _).append hvalue fun _ _ => trivial).append
    spells_semicolon fun _ _ => delimits_cons (by decide)
  simp only [Copies, renderEnded, isBare, render, String.toList_append, Bool.false_eq_true,
    if_false, String.toList_empty, List.append_nil]
  apply hspells.anywhere
  intro _ hcopied
  obtain ⟨_, _, rfl, ⟨_, tokens, rfl, ⟨_, _, rfl, ⟨_, _, rfl, ⟨copy, hcopy, rfl⟩,
    ⟨name', hname', rfl⟩⟩, ⟨sign, rfl, hsign⟩⟩, ⟨value', hsame, htokens⟩⟩,
    ⟨semicolon, rfl, hsemicolon⟩⟩ := hcopied
  have htoken := Token.erase_eq_iff.mp hcopy
  have hnamed := Token.erase_eq_iff.mp hname'
  refine ⟨.letBinding copy ⟨name', name'.text⟩ value', ?_, ?_⟩
  · simp only [erase, Identifier.erase, hcopy, hname', hnamed.2, hsame]
  · have hwritten := Written.letBinding (htoken.1.trans hkind) (hnamed.1.trans hname) hsign
      (htokens.mono fun _ _ => trivial)
    exact hwritten.writtenFirst hsemicolon

theorem copies_returning (hkind : token.kind = .returnWord) (h : token.IsLexeme) :
    Copies (.returning token none) := by
  have hword := Token.IsLexeme.spells h (by simp [hkind]) (by simp [hkind])
  have hspells := hword.append spells_semicolon fun _ _ =>
    (delimits_cons (by decide)).follows _
  simp only [Copies, renderEnded, isBare, render, String.toList_append, Bool.false_eq_true,
    if_false, String.toList_empty, List.append_nil]
  apply hspells.anywhere
  intro _ hcopied
  obtain ⟨_, _, rfl, ⟨copy, hcopy, rfl⟩, ⟨semicolon, rfl, hsemicolon⟩⟩ := hcopied
  have htoken := Token.erase_eq_iff.mp hcopy
  have hwritten := Written.returning (htoken.1.trans hkind)
  exact ⟨.returning copy none, by simp only [erase, hcopy], hwritten.writtenFirst hsemicolon⟩

theorem copies_returningValue {value : Expr} (hkind : token.kind = .returnWord)
    (h : token.IsLexeme) (hvalue : value.Copies) : Copies (.returning token (some value)) := by
  have hword := (Token.IsLexeme.spells h (by simp [hkind]) (by simp [hkind])).before_space
    fun _ => (delimits_cons (by decide)).follows _
  have hspells := (hword.append hvalue fun _ _ => trivial).append spells_semicolon fun _ _ =>
    delimits_cons (by decide)
  simp only [Copies, renderEnded, isBare, render, String.toList_append, Bool.false_eq_true,
    if_false, String.toList_empty, List.append_nil]
  apply hspells.anywhere
  intro _ hcopied
  obtain ⟨_, _, rfl, ⟨_, tokens, rfl, ⟨copy, hcopy, rfl⟩, ⟨value', hsame, htokens⟩⟩,
    ⟨semicolon, rfl, hsemicolon⟩⟩ := hcopied
  have htoken := Token.erase_eq_iff.mp hcopy
  have hwritten := Written.returningValue (htoken.1.trans hkind)
    (htokens.mono fun _ _ => trivial)
  exact ⟨.returning copy (some value'), by simp only [erase, hcopy, hsame],
    hwritten.writtenFirst hsemicolon⟩

/-- An expression statement is known by the first token of the expression. -/
theorem exists_written_expression {value : Expr} {tokens : List Token}
    (h : value.Written Expr.FitsCallee tokens) :
    ∃ first, (Stmt.expression first value).Written tokens := by
  cases tokens with
  | nil => exact absurd rfl h.starts.ne_eof
  | cons first rest => exact ⟨first, .expression (h.mono fun _ _ => trivial)⟩

theorem spells_expression (token : Token) {value : Expr} (hvalue : value.Copies) :
    Spells (Stmt.expression token value).render.toList
      (Copied Stmt.erase Stmt.Written (.expression token value)) Delimits := by
  apply hvalue.imp
  intro tokens hcopied
  obtain ⟨value', hsame, htokens⟩ := hcopied
  obtain ⟨first, hwritten⟩ := exists_written_expression htokens
  exact ⟨.expression first value', by simp only [erase, hsame], hwritten⟩

theorem copies_expression {value : Expr} (hvalue : value.Copies) :
    Copies (.expression token value) := by
  have hspells := (spells_expression token hvalue).append spells_semicolon
    fun _ _ => delimits_cons (by decide)
  simp only [Copies, renderEnded, isBare, String.toList_append, if_true]
  apply hspells.anywhere
  intro _ hcopied
  obtain ⟨tokens, _, rfl, ⟨stmt, hsame, hwritten⟩, ⟨semicolon, rfl, hsemicolon⟩⟩ := hcopied
  exact ⟨stmt, hsame, hwritten.writtenFirst hsemicolon⟩

theorem copies_block {body : Block} (hbody : body.Copies) : Copies (.block body) := by
  simp only [Copies, renderEnded, isBare, render, String.toList_append, Bool.false_eq_true,
    if_false, String.toList_empty, List.append_nil]
  apply hbody.anywhere
  intro tokens hcopied
  obtain ⟨body', hsame, htokens⟩ := hcopied
  exact ⟨.block body', by simp only [erase, hsame],
    fun _ _ => .abutting (.block htokens) trivial⟩

theorem copiesAll_nil : CopiesAll [] :=
  spells_nil.anywhere fun _ hnil => hnil ▸ ⟨[], rfl, .nil⟩

theorem copiesAll_cons {first : Stmt} {rest : List Stmt} (hfirst : first.Copies)
    (hrest : CopiesAll rest) : CopiesAll (first :: rest) := by
  have hspells := (hfirst.before_space fun _ => trivial).append hrest fun _ _ => trivial
  simp only [CopiesAll, renderAll_cons, String.toList_append]
  apply hspells.anywhere
  intro _ hcopied
  obtain ⟨firsts, others, rfl, ⟨first', hsame, hfirsts⟩, ⟨rest', hsame', hothers⟩⟩ := hcopied
  exact ⟨first' :: rest', by simp only [eraseAll, hsame, hsame'], hfirsts _ _ hothers⟩

end Stmt

end MonkeySyntax
