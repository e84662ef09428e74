import MonkeySyntax.Proofs.Productions.Layer
import MonkeySyntax.Proofs.Written.Joins

namespace MonkeySyntax

open Reader

/-! Whatever is written in the tokens that lie ahead is read as what it is.  That goes
for all productions that call nothing but themselves. -/

variable {σ : Type} [TokenSource σ]

namespace Productions

/-- The productions are the ones that they call. -/
def Tied (inner : Productions σ) : Prop :=
  layer Grammar.standard inner = inner

variable {inner : Productions σ} {cursor : Cursor σ} {token : Token} {tokens rest : List Token}
  {finish : Token} {power : BindingPower} {left : Expr}

namespace Tied

/-! One step of each production, at the tokens that ask for it. -/

section

variable {returns : Expr → Cursor σ → Prop} {stops : Stop → Cursor σ → Prop}

theorem ends_expression (hinner : Tied inner) (rule : OperandRule)
    (h : cursor.Holds (token :: rest) finish) (hkind : token.kind ∈ rule.kinds) :
    Ends (inner.expression power) returns stops cursor ↔
      Ends (rule.read inner)
        (fun left cursor => Ends (inner.operators power left) returns stops cursor) stops
        cursor :=
  ends_expression_of_layer hinner h (Grammar.standard_operand?_iff.mpr hkind)

theorem ends_operators_of_not_lt (hinner : Tied inner)
    (hge : ¬ power < Grammar.standard.power (Token.firstKind tokens))
    (h : cursor.advance.Holds tokens finish) :
    Ends (inner.operators power left) returns stops cursor ↔ returns left cursor :=
  ends_operators_of_layer_of_not_lt hinner hge h

theorem ends_operators_of_lt (hinner : Tied inner) {operator : Operator}
    (hoperator : Grammar.standard.operator? token.kind = some operator)
    (hlt : power < operator.power) (h : cursor.advance.Holds (token :: rest) finish) :
    Ends (inner.operators power left) returns stops cursor ↔
      Ends (operator.rule.read inner left operator.power)
        (fun longer cursor => Ends (inner.operators power longer) returns stops cursor) stops
        cursor.advance :=
  ends_operators_of_layer_of_lt hinner hoperator (Grammar.standard_operator_ne hoperator).2 hlt h

end

end Tied

/-- Unless the blocks are too many to be counted, the reader gives the value, and the tokens lie
ahead after the current one. -/
abbrev Gives {α : Type} (reader : Reader σ α) (value : α) (rest : List Token)
    (finish : Token) (cursor : Cursor σ) : Prop :=
  Ends reader (fun value' cursor' => value' = value ∧ cursor'.advance.Holds rest finish)
    Overflows cursor

theorem Gives.then {α : Type} {reader : Reader σ α} {value : α}
    (h : Gives reader value rest finish cursor) {returns : α → Cursor σ → Prop}
    (hreturns : ∀ cursor', cursor'.advance.Holds rest finish → returns value cursor') :
    Ends reader returns Overflows cursor := by
  apply Ends.then h
  intro _ cursor' hvalue
  obtain ⟨rfl, hrest⟩ := hvalue
  exact hreturns cursor' hrest

theorem Gives.exists_ok {α : Type} {reader : Reader σ α} {value : α}
    (h : Gives reader value rest finish cursor)
    (hfits : ∀ cursor', reader cursor ≠ .error .overflow cursor') :
    ∃ cursor', reader cursor = .ok value cursor' ∧ cursor'.advance.Holds rest finish := by
  cases hread : reader cursor with
  | ok value' cursor' =>
      obtain ⟨rfl, hrest⟩ := Ends.of_ok h hread
      exact ⟨cursor', rfl, hrest⟩
  | error stop cursor' =>
      obtain rfl : stop = .overflow := Ends.of_error h hread
      exact absurd hread (hfits cursor')

theorem ends_expect_of_holds {kind : Kind} {returns : Unit → Cursor σ → Prop}
    {stops : Stop → Cursor σ → Prop} (h : cursor.advance.Holds tokens finish)
    (hkind : Token.firstKind tokens = kind) :
    Ends (expect kind) returns stops cursor ↔ returns () cursor.advance := by
  rw [ends_expect, ← Cursor.current_advance, h.kind_current]
  exact ⟨fun hends => hends.1 hkind, fun hreturns => ⟨fun _ => hreturns, (absurd hkind ·)⟩⟩

theorem gives_endStatement (h : cursor.advance.Holds tokens finish)
    (hrest : tokens.tail = rest ∧ Token.firstKind tokens = .semicolon ∨
      tokens = rest ∧ Token.firstKind rest ≠ .semicolon) :
    Gives endStatement () rest finish cursor := by
  rw [Gives, ends_endStatement, ← Cursor.current_advance, h.kind_current]
  rcases hrest with ⟨rfl, hsemicolon⟩ | ⟨rfl, hne⟩
  · cases tokens with
    | nil => exact absurd hsemicolon (by decide)
    | cons semicolon rest =>
        exact ⟨fun _ => ⟨rfl, h.advance⟩, fun hne => absurd hsemicolon hne⟩
  · exact ⟨fun hsemicolon => absurd hsemicolon hne, fun _ => ⟨rfl, h⟩⟩

namespace Tied

theorem gives_parameters (hinner : Tied inner) {names : List Identifier}
    (hnames : Identifier.WrittenRest names tokens) (hnext : Token.firstKind rest ≠ .comma)
    (h : cursor.advance.Holds (tokens ++ rest) finish) :
    Gives inner.parameters names rest finish cursor := by
  induction hnames generalizing cursor with
  | nil =>
      rw [List.nil_append] at h
      rw [Gives, ← hinner]
      simp only [layer, ends_bind, ends_peek]
      rw [← Cursor.current_advance, h.kind_current, if_neg hnext]
      exact ⟨rfl, h⟩
  | cons hcomma hkind hrest ih =>
      rw [Gives, ← hinner]
      simp only [layer, identifier, ends_bind, ends_peek]
      rw [← Cursor.current_advance, h.current, if_pos hcomma]
      simp only [ends_bind, ends_skip, ends_current, ends_pure]
      rw [ends_expect_of_holds h.advance hkind, h.advance.current]
      exact (ih h.advance.advance).then fun cursor' hholds => ⟨rfl, hholds⟩

theorem gives_parameterList (hinner : Tied inner) {names : List Identifier} {closing : Token}
    (hnames : Identifier.WrittenAll names tokens) (hclosing : closing.kind = .closeParen)
    (h : cursor.advance.Holds (tokens ++ closing :: rest) finish) :
    Gives inner.parameterList names rest finish cursor := by
  simp only [Gives, parameterList, identifier, ends_bind, ends_peek]
  rw [← Cursor.current_advance, h.kind_current]
  cases hnames with
  | nil =>
      rw [List.nil_append] at h
      rw [List.nil_append, Token.firstKind_cons, if_pos hclosing]
      exact ⟨rfl, h.advance⟩
  | @cons name names tokens hkind hrest =>
      rw [List.cons_append, Token.firstKind_cons, hkind, if_neg (by decide)]
      simp only [ends_bind, ends_current, ends_pure]
      rw [ends_expect_of_holds h hkind, h.current]
      refine (hinner.gives_parameters hrest (by simp [hclosing]) h.advance).then
        fun cursor' hholds => ?_
      rw [ends_expect_of_holds hholds hclosing]
      exact ⟨rfl, hholds.advance⟩

end Tied

/-! What it is to read something where its tokens lie ahead. -/

section

variable (inner)

/-- The expression is read, and what may go on with it is left to the operators, where
the power and the token that comes next suit it. -/
def TakesExpr (suits : BindingPower → Kind → Prop) (expr : Expr) (tokens : List Token) : Prop :=
  ∀ {cursor : Cursor σ} {rest : List Token} {finish : Token} {power : BindingPower}
    {returns : Expr → Cursor σ → Prop}, power < .call →
    cursor.Holds (tokens ++ rest) finish →
    suits power (Token.firstKind rest) → Token.firstKind rest ≠ .elseWord →
    (∀ cursor', cursor'.advance.Holds rest finish →
      Ends (inner.operators power expr) returns Overflows cursor') →
    Ends (inner.expression power) returns Overflows cursor

abbrev TakesBare (expr : Expr) (tokens : List Token) : Prop :=
  inner.TakesExpr (fun power next => expr.Joins power next) expr tokens

/-- The expression is read where it fits, or else stands in parentheses. -/
abbrev TakesWritten (fits : Expr → Prop) (expr : Expr) (tokens : List Token) : Prop :=
  inner.TakesExpr
    (fun power next => ∀ {tokens}, expr.Bare tokens → fits expr → expr.Joins power next)
    expr tokens

def TakesArguments (exprs : List Expr) (tokens : List Token) : Prop :=
  ∀ {cursor : Cursor σ} {closing : Token} {rest : List Token} {finish : Token},
    cursor.advance.Holds (tokens ++ closing :: rest) finish → closing.kind = .closeParen →
    Gives inner.argumentList exprs rest finish cursor

def TakesFurther (exprs : List Expr) (tokens : List Token) : Prop :=
  ∀ {cursor : Cursor σ} {rest : List Token} {finish : Token},
    cursor.advance.Holds (tokens ++ rest) finish → Token.firstKind rest = .closeParen →
    Gives inner.arguments exprs rest finish cursor

def TakesBlock (body : Block) (tokens : List Token) : Prop :=
  ∀ {cursor : Cursor σ} {rest : List Token} {finish : Token},
    cursor.Holds (tokens ++ rest) finish → Gives inner.block body rest finish cursor

def TakesElse (body? : Option Block) (tokens : List Token) : Prop :=
  ∀ {cursor : Cursor σ} {rest : List Token} {finish : Token},
    cursor.advance.Holds (tokens ++ rest) finish → Token.firstKind rest ≠ .elseWord →
    Gives inner.alternative body? rest finish cursor

/-- The statement is read, and its semicolon after it. -/
def TakesStmt (stmt : Stmt) (tokens : List Token) : Prop :=
  ∀ {cursor : Cursor σ} {rest others : List Token} {finish : Token},
    cursor.Holds (tokens ++ others) finish →
    stmt.Abuts (Token.firstKind others) ∨ Token.firstKind others = .semicolon →
    Token.firstKind others ≠ .elseWord →
    (∀ cursor' : Cursor σ, cursor'.advance.Holds others finish →
      Gives endStatement () rest finish cursor') →
    Gives inner.statement stmt rest finish cursor

def TakesStmts (stmts : List Stmt) (tokens : List Token) : Prop :=
  ∀ {cursor : Cursor σ} {rest : List Token} {finish : Token},
    cursor.Holds (tokens ++ rest) finish →
    Token.firstKind rest = .closeCurly ∨ Token.firstKind rest = .eof →
    Ends inner.statements (fun stmts' cursor' => stmts' = stmts ∧ cursor'.Holds rest finish)
      Overflows cursor

end

namespace Tied

/-! Expressions, from the ones that they are made of. -/

section

variable {expr : Expr}

theorem takesWritten_of_bare (h : inner.TakesBare expr tokens)
    (hbare : expr.Bare tokens) {fits : Expr → Prop} (hfits : fits expr) :
    inner.TakesWritten fits expr tokens :=
  fun hpower hholds hsuits helse hreturns =>
    h hpower hholds (hsuits hbare hfits) helse hreturns

theorem gives_inside (hinner : Tied inner)
    (h : inner.TakesWritten Expr.FitsInside expr tokens)
    (hholds : cursor.Holds (tokens ++ rest) finish)
    (hnext : Grammar.standard.power (Token.firstKind rest) = .lowest)
    (helse : Token.firstKind rest ≠ .elseWord) :
    Gives (inner.expression .lowest) expr rest finish cursor := by
  refine h (by decide) hholds (fun hbare _ => hbare.joins_lowest hnext) helse
    fun cursor' hrest => ?_
  have hge : ¬ .lowest < Grammar.standard.power (Token.firstKind rest) := by
    rw [hnext]
    exact Nat.lt_irrefl _
  rw [hinner.ends_operators_of_not_lt hge hrest]
  exact ⟨rfl, hrest⟩

theorem takesWritten_grouped (hinner : Tied inner) {opening closing : Token}
    (hopening : opening.kind = .openParen)
    (h : inner.TakesWritten Expr.FitsInside expr tokens) (hclosing : closing.kind = .closeParen)
    {fits : Expr → Prop} : inner.TakesWritten fits expr (opening :: (tokens ++ [closing])) := by
  intro cursor rest finish power returns _ hholds _ _ hreturns
  rw [List.cons_append, List.append_assoc, List.singleton_append] at hholds
  rw [hinner.ends_expression .grouping hholds (List.mem_singleton.mpr hopening)]
  simp only [OperandRule.read, grouping, ends_bind, ends_skip, ends_pure]
  refine (hinner.gives_inside h hholds.advance ?_ ?_).then fun cursor' hrest => ?_
  · rw [Token.firstKind_cons, hclosing]
    rfl
  · rw [Token.firstKind_cons, hclosing]
    decide
  · rw [ends_expect_of_holds hrest hclosing]
    exact hreturns _ hrest.advance

theorem takes_identifier (hinner : Tied inner) (hkind : token.kind = .identifier) :
    inner.TakesBare (.identifier ⟨token, token.text⟩) [token] := by
  intro cursor rest finish power returns _ hholds _ _ hreturns
  rw [hinner.ends_expression .identifier hholds (List.mem_singleton.mpr hkind)]
  simp only [OperandRule.read, identifier, ends_bind, ends_current, ends_pure]
  rw [hholds.current]
  exact hreturns cursor hholds.advance

theorem takes_integer (hinner : Tied inner) (hkind : token.kind = .integer) {value : Int64}
    (hvalue : Numeral.value? token.text = some value) :
    inner.TakesBare (.integer token value) [token] := by
  intro cursor rest finish power returns _ hholds _ _ hreturns
  rw [hinner.ends_expression .integer hholds (List.mem_singleton.mpr hkind)]
  simp only [OperandRule.read, integer, ends_bind, ends_current]
  rw [hholds.current, hvalue]
  exact hreturns cursor hholds.advance

theorem takes_boolean (hinner : Tied inner)
    (hkind : token.kind = .trueWord ∨ token.kind = .falseWord) :
    inner.TakesBare (.boolean token (token.kind == .trueWord)) [token] := by
  intro cursor rest finish power returns _ hholds _ _ hreturns
  rw [hinner.ends_expression .boolean hholds (by simpa [OperandRule.kinds] using hkind)]
  simp only [OperandRule.read, boolean, ends_bind, ends_current, ends_pure]
  rw [hholds.current]
  exact hreturns cursor hholds.advance

theorem takes_unary (hinner : Tied inner) (hkind : token.kind = .not ∨ token.kind = .dash)
    {operand : Expr} (h : inner.TakesWritten Expr.FitsOperand operand tokens) :
    inner.TakesBare (.unary token token.text operand) (token :: tokens) := by
  intro cursor rest finish power returns _ hholds hcall helse hreturns
  rw [hinner.ends_expression .unary hholds (by simpa [OperandRule.kinds] using hkind)]
  simp only [OperandRule.read, unary, ends_bind, ends_advance, ends_pure]
  rw [hholds.current]
  refine h (by decide) hholds.advance (fun _ hfits => hfits.joins hcall) helse
    fun cursor' hrest => ?_
  rw [hinner.ends_operators_of_not_lt (Grammar.standard_not_unary_lt hcall) hrest]
  exact hreturns cursor' hrest

theorem takes_binary (hinner : Tied inner) {operator : BindingPower} {left right : Expr}
    {lefts rights : List Token}
    (hkind : Grammar.standard.operator? token.kind = some ⟨operator, .binary⟩)
    (hleft : inner.TakesWritten (Expr.FitsLeft operator) left lefts)
    (hright : inner.TakesWritten (Expr.FitsRight operator) right rights) :
    inner.TakesBare (.binary token left token.text right) (lefts ++ token :: rights) := by
  intro cursor rest finish power returns hpower hholds hform helse hreturns
  obtain ⟨hlt, hge⟩ := hform
  rw [Grammar.standard_power_of_binary hkind] at hlt hge
  rw [List.append_assoc, List.cons_append] at hholds
  have hunary := (Grammar.standard_binary_bounds hkind).2.1
  have hword : token.kind ≠ .elseWord := fun hword => by simp [hword, Grammar.standard] at hkind
  -- The left operand stops before the operator: it binds at least as tightly, or is grouped.
  refine hleft hpower hholds (fun _ hfits => hfits.joins hlt hkind) hword
    fun middle hmiddle => ?_
  rw [hinner.ends_operators_of_lt hkind hlt hmiddle]
  simp only [OperatorRule.read, binary, ends_bind, ends_advance, ends_pure]
  rw [hmiddle.current]
  refine hright (BindingPower.lt_call_of_lt_unary hunary) hmiddle.advance
    (fun _ hfits => hfits.joins hunary hge) helse fun cursor' hrest => ?_
  rw [hinner.ends_operators_of_not_lt hge hrest]
  exact hreturns cursor' hrest

theorem takes_call (hinner : Tied inner) (hkind : token.kind = .openParen) {callee : Expr}
    {arguments : List Expr} {closing : Token} {callees values : List Token}
    (hcallee : inner.TakesWritten Expr.FitsCallee callee callees)
    (harguments : inner.TakesArguments arguments values)
    (hclosing : closing.kind = .closeParen) :
    inner.TakesBare (.call token callee arguments)
      (callees ++ token :: (values ++ [closing])) := by
  intro cursor rest finish power returns hpower hholds _ helse hreturns
  have hoperator : Grammar.standard.operator? token.kind = some ⟨.call, .call⟩ := by
    rw [hkind]
    rfl
  have happend : callees ++ token :: (values ++ [closing]) ++ rest =
      callees ++ token :: (values ++ closing :: rest) := by simp
  rw [happend] at hholds
  refine hcallee hpower hholds (fun _ hfits => ?_) ?_ fun middle hmiddle => ?_
  · rw [Token.firstKind_cons, hkind]
    exact hfits.joins
  · rw [Token.firstKind_cons, hkind]
    decide
  · rw [hinner.ends_operators_of_lt hoperator hpower hmiddle]
    simp only [OperatorRule.read, call, ends_bind, ends_current, ends_pure]
    rw [hmiddle.current]
    exact (harguments hmiddle.advance hclosing).then hreturns

theorem takes_ifElse (hinner : Tied inner) (hkind : token.kind = .ifWord)
    {opening closing : Token} {condition : Expr} {consequence : Block}
    {alternative? : Option Block} {conditions consequences alternatives : List Token}
    (hopening : opening.kind = .openParen)
    (hcondition : inner.TakesWritten Expr.FitsInside condition conditions)
    (hclosing : closing.kind = .closeParen)
    (hbrace : Token.firstKind consequences = .openCurly)
    (hconsequence : inner.TakesBlock consequence consequences)
    (halternative : inner.TakesElse alternative? alternatives) :
    inner.TakesBare (.ifElse token condition consequence alternative?)
      (token :: opening :: (conditions ++ closing :: (consequences ++ alternatives))) := by
  intro cursor rest finish power returns _ hholds _ helse hreturns
  have happend : token :: opening :: (conditions ++ closing :: (consequences ++ alternatives)) ++
      rest = token :: opening :: (conditions ++ closing :: (consequences ++
        (alternatives ++ rest))) := by simp
  rw [happend] at hholds
  rw [hinner.ends_expression .ifElse hholds (List.mem_singleton.mpr hkind)]
  simp only [OperandRule.read, ifElse, ends_bind, ends_current, ends_skip, ends_pure]
  rw [ends_expect_of_holds hholds.advance hopening, hholds.current]
  refine (hinner.gives_inside hcondition hholds.advance.advance ?_ ?_).then
    fun middle hmiddle => ?_
  · rw [Token.firstKind_cons, hclosing]
    rfl
  · rw [Token.firstKind_cons, hclosing]
    decide
  · have hbraces : Token.firstKind (consequences ++ (alternatives ++ rest)) = .openCurly := by
      rw [Token.firstKind_append _ (hbrace ▸ by decide), hbrace]
    rw [ends_expect_of_holds hmiddle hclosing, ends_expect_of_holds hmiddle.advance hbraces]
    apply (hconsequence hmiddle.advance).then
    intro last hlast
    exact (halternative hlast helse).then hreturns

theorem takes_function (hinner : Tied inner) (hkind : token.kind = .fnWord)
    {opening closing : Token} {parameters : List Identifier} {body : Block}
    {names statements : List Token} (hopening : opening.kind = .openParen)
    (hparameters : Identifier.WrittenAll parameters names)
    (hclosing : closing.kind = .closeParen)
    (hbrace : Token.firstKind statements = .openCurly)
    (hbody : inner.TakesBlock body statements) :
    inner.TakesBare (.function token parameters body)
      (token :: opening :: (names ++ closing :: statements)) := by
  intro cursor rest finish power returns _ hholds _ _ hreturns
  have happend : token :: opening :: (names ++ closing :: statements) ++ rest =
      token :: opening :: (names ++ closing :: (statements ++ rest)) := by simp
  rw [happend] at hholds
  rw [hinner.ends_expression .function hholds (List.mem_singleton.mpr hkind)]
  simp only [OperandRule.read, function, ends_bind, ends_current, ends_pure]
  rw [ends_expect_of_holds hholds.advance hopening, hholds.current]
  refine (hinner.gives_parameterList hparameters hclosing hholds.advance.advance).then
    fun middle hmiddle => ?_
  have hbraces : Token.firstKind (statements ++ rest) = .openCurly := by
    rw [Token.firstKind_append _ (hbrace ▸ by decide), hbrace]
  rw [ends_expect_of_holds hmiddle hbraces]
  exact (hbody hmiddle).then hreturns

/-! Arguments.  A comma or the closing parenthesis comes after each. -/

theorem gives_argument (hinner : Tied inner)
    (h : inner.TakesWritten Expr.FitsInside expr tokens)
    (hholds : cursor.Holds (tokens ++ rest) finish)
    (hnext : Token.firstKind rest = .comma ∨ Token.firstKind rest = .closeParen) :
    Gives (inner.expression .lowest) expr rest finish cursor := by
  refine hinner.gives_inside h hholds ?_ ?_
  · rcases hnext with hnext | hnext <;> rw [hnext] <;> rfl
  · rcases hnext with hnext | hnext <;> rw [hnext] <;> decide

theorem takes_further_nil (hinner : Tied inner) : inner.TakesFurther [] [] := by
  intro cursor rest finish hholds hnext
  rw [List.nil_append] at hholds
  rw [Gives, ← hinner]
  simp only [layer, ends_bind, ends_peek]
  rw [← Cursor.current_advance, hholds.kind_current, hnext, if_neg (by decide)]
  exact ⟨rfl, hholds⟩

theorem takes_further_cons (hinner : Tied inner) {comma : Token} {exprs : List Expr}
    {firsts others : List Token} (hcomma : comma.kind = .comma)
    (hfirst : inner.TakesWritten Expr.FitsInside expr firsts)
    (hothers : others = [] ∨ Token.firstKind others = .comma)
    (hrest : inner.TakesFurther exprs others) :
    inner.TakesFurther (expr :: exprs) (comma :: (firsts ++ others)) := by
  intro cursor rest finish hholds hnext
  rw [List.cons_append, List.append_assoc] at hholds
  rw [Gives, ← hinner]
  simp only [layer, ends_bind, ends_peek]
  rw [← Cursor.current_advance, hholds.current, if_pos hcomma]
  simp only [ends_bind, ends_skip, ends_pure]
  refine (hinner.gives_argument hfirst hholds.advance ?_).then fun middle hmiddle => ?_
  · rcases hothers with rfl | hothers
    · exact .inr hnext
    · exact .inl (by rw [Token.firstKind_append _ (hothers ▸ by decide), hothers])
  · exact (hrest hmiddle hnext).then fun last hlast => ⟨rfl, hlast⟩

theorem takes_arguments_nil : inner.TakesArguments [] [] := by
  intro cursor closing rest finish hholds hclosing
  rw [List.nil_append] at hholds
  simp only [Gives, argumentList, ends_bind, ends_peek]
  rw [← Cursor.current_advance, hholds.current, if_pos hclosing]
  exact ⟨rfl, hholds.advance⟩

theorem takes_arguments_cons (hinner : Tied inner) {exprs : List Expr}
    {firsts others : List Token} (hstarts : (Token.firstKind firsts).StartsExpression)
    (hfirst : inner.TakesWritten Expr.FitsInside expr firsts)
    (hothers : others = [] ∨ Token.firstKind others = .comma)
    (hrest : inner.TakesFurther exprs others) :
    inner.TakesArguments (expr :: exprs) (firsts ++ others) := by
  intro cursor closing rest finish hholds hclosing
  rw [List.append_assoc] at hholds
  simp only [Gives, argumentList, ends_bind, ends_peek]
  rw [← Cursor.current_advance, hholds.kind_current, Token.firstKind_append _ hstarts.ne_eof,
    if_neg hstarts.ne_closeParen]
  simp only [ends_bind, ends_skip, ends_pure]
  refine (hinner.gives_argument hfirst hholds ?_).then fun middle hmiddle => ?_
  · rcases hothers with rfl | hothers
    · exact .inr hclosing
    · exact .inl (by rw [Token.firstKind_append _ (hothers ▸ by decide), hothers])
  · apply (hrest hmiddle hclosing).then
    intro last hlast
    rw [ends_expect_of_holds hlast hclosing]
    exact ⟨rfl, hlast.advance⟩

end

/-! Blocks and statements. -/

theorem takes_block {opening closing : Token} {stmts : List Stmt}
    (hstmts : inner.TakesStmts stmts tokens) (hclosing : closing.kind = .closeCurly) :
    inner.TakesBlock (.mk opening stmts) (opening :: (tokens ++ [closing])) := by
  intro cursor rest finish hholds
  rw [List.cons_append, List.append_assoc, List.singleton_append] at hholds
  simp only [Gives, block, ends_bind, ends_advance, ends_enterBlock, ends_current, ends_ite,
    ends_fail, ends_leaveBlock, ends_pure]
  refine ⟨fun depth _ => ?_, fun _ => trivial⟩
  apply Ends.then (hstmts ((Cursor.holds_withDepth depth).mpr hholds.advance) (.inl hclosing))
  intro _ middle hform
  obtain ⟨rfl, hmiddle⟩ := hform
  rw [hmiddle.current, hclosing, hholds.current]
  refine ⟨by simp, fun _ => ⟨rfl, ?_⟩⟩
  exact ((Cursor.holds_withDepth middle.depth.leave).mpr hmiddle).advance

theorem takes_else_none : inner.TakesElse none [] := by
  intro cursor rest finish hholds hnext
  rw [List.nil_append] at hholds
  simp only [Gives, alternative, ends_bind, ends_peek]
  rw [← Cursor.current_advance, hholds.kind_current, if_neg hnext]
  exact ⟨rfl, hholds⟩

theorem takes_else_some {word : Token} {body : Block} (hword : word.kind = .elseWord)
    (hbrace : Token.firstKind tokens = .openCurly) (hbody : inner.TakesBlock body tokens) :
    inner.TakesElse (some body) (word :: tokens) := by
  intro cursor rest finish hholds _
  rw [List.cons_append] at hholds
  simp only [Gives, alternative, ends_bind, ends_peek]
  rw [← Cursor.current_advance, hholds.current, if_pos hword]
  simp only [ends_bind, ends_skip, ends_pure]
  have hbraces : Token.firstKind (tokens ++ rest) = .openCurly := by
    rw [Token.firstKind_append _ (hbrace ▸ by decide), hbrace]
  rw [ends_expect_of_holds hholds.advance hbraces]
  exact (hbody hholds.advance).then fun last hlast => ⟨rfl, hlast⟩

/-- A statement is read by the rule that its first token is named for. -/
theorem ends_statement (hinner : Tied inner) {returns : Stmt → Cursor σ → Prop}
    {rule? : Option StatementRule} (h : cursor.Holds tokens finish)
    (hrule : Grammar.standard.statement? (Token.firstKind tokens) = rule?)
    (hends : ∀ cursor' : Cursor σ, cursor'.Holds tokens finish →
      Ends ((rule?.getD .expression).read inner) returns Overflows cursor') :
    Ends inner.statement returns Overflows cursor := by
  rw [← hinner]
  simp only [layer, ends_bind, ends_current, ends_note]
  rw [h.kind_current, hrule]
  have hnote := hends _ ((Cursor.holds_note
    (.statement (Token.firstKind tokens) cursor.current.text)).mpr h)
  cases rule? with
  | none => exact hnote
  | some rule => exact hnote

theorem gives_value (hinner : Tied inner) {value : Expr}
    (h : inner.TakesWritten Expr.FitsInside value tokens)
    (hholds : cursor.Holds (tokens ++ rest) finish)
    (hnext : Grammar.standard.power (Token.firstKind rest) = .lowest ∨
      Token.firstKind rest = .semicolon) (helse : Token.firstKind rest ≠ .elseWord) :
    Gives (inner.expression .lowest) value rest finish cursor := by
  refine hinner.gives_inside h hholds ?_ helse
  rcases hnext with hnext | hnext
  · exact hnext
  · rw [hnext]
    rfl

theorem takes_letBinding (hinner : Tied inner) {name sign : Token} {value : Expr}
    (hkind : token.kind = .letWord) (hname : name.kind = .identifier)
    (hsign : sign.kind = .assignment)
    (hvalue : inner.TakesWritten Expr.FitsInside value tokens) :
    inner.TakesStmt (.letBinding token ⟨name, name.text⟩ value)
      (token :: name :: sign :: tokens) := by
  intro cursor rest others finish hholds hnext helse hend
  have hrule : Grammar.standard.statement? token.kind = some .letBinding := by
    rw [hkind]
    rfl
  apply hinner.ends_statement hholds hrule
  intro cursor hholds
  simp only [Option.getD_some, StatementRule.read, letStatement, ends_bind, ends_current,
    ends_skip, ends_pure]
  rw [ends_expect_of_holds hholds.advance hname,
    ends_expect_of_holds hholds.advance.advance hsign, hholds.current, hholds.advance.current]
  refine (hinner.gives_value hvalue hholds.advance.advance.advance hnext helse).then
    fun last hlast => ?_
  exact (hend last hlast).then fun cursor' hrest => ⟨rfl, hrest⟩

theorem takes_returning (hinner : Tied inner) (hkind : token.kind = .returnWord) :
    inner.TakesStmt (.returning token none) [token] := by
  intro cursor rest others finish hholds hnext _ hend
  have hrule : Grammar.standard.statement? token.kind = some .returning := by
    rw [hkind]
    rfl
  apply hinner.ends_statement hholds hrule
  intro cursor hholds
  simp only [Option.getD_some, StatementRule.read, returnStatement, returnedValue, ends_bind,
    ends_current, ends_peek, ends_pure]
  have hvalueless : Token.firstKind others = .semicolon ∨
      Token.firstKind others = .closeCurly ∨ Token.firstKind others = .eof := hnext.symm
  rw [hholds.kind_peek, hholds.current, List.append_eq, List.nil_append, if_pos hvalueless,
    ends_pure]
  exact (hend cursor hholds.advance).then fun cursor' hrest => ⟨rfl, hrest⟩

theorem takes_returningValue (hinner : Tied inner) {value : Expr}
    (hkind : token.kind = .returnWord)
    (hstarts : (Token.firstKind tokens).StartsExpression)
    (hvalue : inner.TakesWritten Expr.FitsInside value tokens) :
    inner.TakesStmt (.returning token (some value)) (token :: tokens) := by
  intro cursor rest others finish hholds hnext helse hend
  have hrule : Grammar.standard.statement? token.kind = some .returning := by
    rw [hkind]
    rfl
  apply hinner.ends_statement hholds hrule
  intro cursor hholds
  have hvalueless : ¬ (Token.firstKind tokens = .semicolon ∨
      Token.firstKind tokens = .closeCurly ∨ Token.firstKind tokens = .eof) := by
    have hstmt := hstarts.startsStatement
    simp only [hstmt.ne_semicolon, hstmt.ne_closeCurly, hstmt.ne_eof, or_self,
      not_false_eq_true]
  simp only [Option.getD_some, StatementRule.read, returnStatement, returnedValue, ends_bind,
    ends_current, ends_peek, ends_pure]
  rw [hholds.kind_peek, hholds.current, List.append_eq, Token.firstKind_append _ hstarts.ne_eof,
    if_neg hvalueless]
  simp only [ends_bind, ends_skip, ends_pure]
  apply (hinner.gives_value hvalue hholds.advance hnext helse).then
  intro last hlast
  exact (hend last hlast).then fun cursor' hrest => ⟨rfl, hrest⟩

theorem takes_expression (hinner : Tied inner) {value : Expr}
    (hstarts : token.kind.StartsExpression)
    (hvalue : inner.TakesWritten Expr.FitsInside value (token :: tokens)) :
    inner.TakesStmt (.expression token value) (token :: tokens) := by
  intro cursor rest others finish hholds hnext helse hend
  refine hinner.ends_statement hholds hstarts.statement?_eq fun cursor hholds => ?_
  simp only [Option.getD_none, StatementRule.read, expressionStatement, ends_bind,
    ends_current, ends_pure]
  rw [hholds.current]
  apply (hinner.gives_value hvalue hholds hnext helse).then
  intro last hlast
  exact (hend last hlast).then fun cursor' hrest => ⟨rfl, hrest⟩

theorem takes_blockStatement (hinner : Tied inner) {body : Block}
    (hbrace : Token.firstKind tokens = .openCurly) (hbody : inner.TakesBlock body tokens) :
    inner.TakesStmt (.block body) tokens := by
  intro cursor rest others finish hholds _ _ hend
  have hrule : Grammar.standard.statement? (Token.firstKind (tokens ++ others)) =
      some .block := by
    rw [Token.firstKind_append _ (hbrace ▸ by decide), hbrace]
    rfl
  apply hinner.ends_statement hholds hrule
  intro cursor hholds
  simp only [Option.getD_some, StatementRule.read, blockStatement, ends_bind, ends_pure]
  apply (hbody hholds).then
  intro last hlast
  exact (hend last hlast).then fun cursor' hrest => ⟨rfl, hrest⟩

theorem takes_stmts_nil (hinner : Tied inner) : inner.TakesStmts [] [] := by
  intro cursor rest finish hholds hlast
  rw [List.nil_append] at hholds
  rw [← hinner]
  simp only [layer, ends_bind, ends_current]
  rw [hholds.kind_current, if_pos hlast]
  exact ⟨rfl, hholds⟩

theorem ends_stmts_cons (hinner : Tied inner) {stmt : Stmt}
    (hstarts : (Token.firstKind tokens).StartsStatement)
    (hholds : cursor.Holds tokens finish)
    (hstmt : Gives inner.statement stmt rest finish cursor)
    {returns : List Stmt → Cursor σ → Prop}
    (hends : ∀ cursor' : Cursor σ, cursor'.Holds rest finish →
      Ends inner.statements (fun stmts cursor => returns (stmt :: stmts) cursor) Overflows
        cursor') :
    Ends inner.statements returns Overflows cursor := by
  have hlast : ¬ (Token.firstKind tokens = .closeCurly ∨ Token.firstKind tokens = .eof) := by
    simp only [hstarts.ne_closeCurly, hstarts.ne_eof, or_self, not_false_eq_true]
  rw [← hinner]
  simp only [layer, ends_bind, ends_current]
  rw [hholds.kind_current, if_neg hlast]
  simp only [ends_bind, ends_skip, ends_pure]
  exact hstmt.then fun last hrest => hends last.advance hrest

theorem gives_closed {stmt : Stmt} {semicolon : Token} (hstmt : inner.TakesStmt stmt tokens)
    (hsemicolon : semicolon.kind = .semicolon)
    (hholds : cursor.Holds (tokens ++ semicolon :: rest) finish) :
    Gives inner.statement stmt rest finish cursor := by
  have helse : semicolon.kind ≠ .elseWord := hsemicolon ▸ by decide
  exact hstmt hholds (.inr hsemicolon) helse fun cursor' hcursor =>
    gives_endStatement hcursor (.inl ⟨rfl, hsemicolon⟩)

theorem gives_abutting {stmt : Stmt} {stmts : List Stmt} {others : List Token}
    (hstmt : inner.TakesStmt stmt tokens) (hwritten : Stmt.WrittenAll stmts others)
    (habut : stmt.MayAbut others)
    (hlast : Token.firstKind rest = .closeCurly ∨ Token.firstKind rest = .eof)
    (hholds : cursor.Holds (tokens ++ (others ++ rest)) finish) :
    Gives inner.statement stmt (others ++ rest) finish cursor := by
  have habuts := (hwritten.abuts_iff stmt hlast).mpr habut
  obtain ⟨hsemicolon, helse⟩ := hwritten.firstKind_ne hlast
  exact hstmt hholds (.inl habuts) helse fun cursor' hcursor =>
    gives_endStatement hcursor (.inr ⟨rfl, hsemicolon⟩)

theorem takes_stmts_closed (hinner : Tied inner) {stmt : Stmt} {stmts : List Stmt}
    {semicolon : Token} {firsts others : List Token}
    (hstarts : (Token.firstKind firsts).StartsStatement)
    (hstmt : inner.TakesStmt stmt firsts) (hsemicolon : semicolon.kind = .semicolon)
    (hstmts : inner.TakesStmts stmts others) :
    inner.TakesStmts (stmt :: stmts) (firsts ++ semicolon :: others) := by
  intro cursor rest finish hholds hlast
  rw [List.append_assoc, List.cons_append] at hholds
  rw [← Token.firstKind_append _ hstarts.ne_eof] at hstarts
  have hfirst := gives_closed hstmt hsemicolon hholds
  apply hinner.ends_stmts_cons hstarts hholds hfirst
  intro cursor' hcursor
  apply Ends.then (hstmts hcursor hlast)
  intro _ last hform
  obtain ⟨rfl, hrest⟩ := hform
  exact ⟨rfl, hrest⟩

theorem takes_stmts_abutting (hinner : Tied inner) {stmt : Stmt} {stmts : List Stmt}
    {firsts others : List Token} (hstarts : (Token.firstKind firsts).StartsStatement)
    (hstmt : inner.TakesStmt stmt firsts) (hwritten : Stmt.WrittenAll stmts others)
    (habut : stmt.MayAbut others) (hstmts : inner.TakesStmts stmts others) :
    inner.TakesStmts (stmt :: stmts) (firsts ++ others) := by
  intro cursor rest finish hholds hlast
  rw [List.append_assoc] at hholds
  rw [← Token.firstKind_append _ hstarts.ne_eof] at hstarts
  have hfirst := gives_abutting hstmt hwritten habut hlast hholds
  apply hinner.ends_stmts_cons hstarts hholds hfirst
  intro cursor' hcursor
  apply Ends.then (hstmts hcursor hlast)
  intro _ last hform
  obtain ⟨rfl, hrest⟩ := hform
  exact ⟨rfl, hrest⟩

end Tied

/-! Whatever is written is read, by induction on how it is written. -/

mutual

theorem Tied.takes_bare (hinner : Tied inner) {expr : Expr} {tokens : List Token}
    (h : expr.Bare tokens) : inner.TakesBare expr tokens :=
  match h with
  | .identifier hkind => hinner.takes_identifier hkind
  | .integer hkind hvalue => hinner.takes_integer hkind hvalue
  | .boolean hkind => hinner.takes_boolean hkind
  | .unary hkind hoperand => hinner.takes_unary hkind (hinner.takes_written hoperand)
  | .binary hkind hleft hright =>
      hinner.takes_binary hkind (hinner.takes_written hleft) (hinner.takes_written hright)
  | .ifElse hkind hopening hcondition hclosing hconsequence halternative =>
      hinner.takes_ifElse hkind hopening (hinner.takes_written hcondition) hclosing
        hconsequence.firstKind (hinner.takes_block_written hconsequence)
        (hinner.takes_else_written halternative)
  | .function hkind hopening hparameters hclosing hbody =>
      hinner.takes_function hkind hopening hparameters hclosing hbody.firstKind
        (hinner.takes_block_written hbody)
  | .call hcallee hkind harguments hclosing =>
      hinner.takes_call hkind (hinner.takes_written hcallee)
        (hinner.takes_arguments_written harguments) hclosing

theorem Tied.takes_written (hinner : Tied inner) {fits : Expr → Prop} {expr : Expr}
    {tokens : List Token} (h : expr.Written fits tokens) :
    inner.TakesWritten fits expr tokens :=
  match h with
  | .bare h hfits => takesWritten_of_bare (hinner.takes_bare h) h hfits
  | .grouped hopening h hclosing =>
      hinner.takesWritten_grouped hopening (hinner.takes_written h) hclosing

theorem Tied.takes_arguments_written (hinner : Tied inner) {exprs : List Expr}
    {tokens : List Token} (h : Expr.WrittenAll exprs tokens) :
    inner.TakesArguments exprs tokens :=
  match h with
  | .nil => takes_arguments_nil
  | .cons hfirst hrest =>
      hinner.takes_arguments_cons hfirst.starts (hinner.takes_written hfirst)
        hrest.firstKind (hinner.takes_further_written hrest)

theorem Tied.takes_further_written (hinner : Tied inner) {exprs : List Expr}
    {tokens : List Token} (h : Expr.WrittenRest exprs tokens) :
    inner.TakesFurther exprs tokens :=
  match h with
  | .nil => hinner.takes_further_nil
  | .cons hcomma hfirst hrest =>
      hinner.takes_further_cons hcomma (hinner.takes_written hfirst) hrest.firstKind
        (hinner.takes_further_written hrest)

theorem Tied.takes_block_written (hinner : Tied inner) {body : Block} {tokens : List Token}
    (h : body.Written tokens) : inner.TakesBlock body tokens :=
  match h with
  | .braces _ hstmts hclosing => takes_block (hinner.takes_stmts_written hstmts) hclosing

theorem Tied.takes_else_written (hinner : Tied inner) {body? : Option Block}
    {tokens : List Token} (h : Block.WrittenElse body? tokens) :
    inner.TakesElse body? tokens :=
  match h with
  | .none => takes_else_none
  | .some hword h => takes_else_some hword h.firstKind (hinner.takes_block_written h)

theorem Tied.takes_stmt_written (hinner : Tied inner) {stmt : Stmt} {tokens : List Token}
    (h : stmt.Written tokens) : inner.TakesStmt stmt tokens :=
  match h with
  | .letBinding hkind hname hsign hvalue =>
      hinner.takes_letBinding hkind hname hsign (hinner.takes_written hvalue)
  | .returning hkind => hinner.takes_returning hkind
  | .returningValue hkind hvalue =>
      hinner.takes_returningValue hkind hvalue.starts (hinner.takes_written hvalue)
  | .expression h => hinner.takes_expression h.starts (hinner.takes_written h)
  | .block h => hinner.takes_blockStatement h.firstKind (hinner.takes_block_written h)

theorem Tied.takes_stmts_written (hinner : Tied inner) {stmts : List Stmt}
    {tokens : List Token} (h : Stmt.WrittenAll stmts tokens) : inner.TakesStmts stmts tokens :=
  match h with
  | .nil => hinner.takes_stmts_nil
  | .closed hfirst hsemicolon hrest =>
      hinner.takes_stmts_closed hfirst.starts (hinner.takes_stmt_written hfirst) hsemicolon
        (hinner.takes_stmts_written hrest)
  | .abutting hfirst habut hrest =>
      hinner.takes_stmts_abutting hfirst.starts (hinner.takes_stmt_written hfirst) hrest habut
        (hinner.takes_stmts_written hrest)

end

end Productions

end MonkeySyntax
