import MonkeySyntax.Parser.Recursion
import MonkeySyntax.Proofs.Reader
import MonkeySyntax.Proofs.Written.Joins

namespace MonkeySyntax

open Reader

/-! Whatever the productions give is written in the tokens that they pass over: no
token is dropped, and none is read twice. -/

variable {σ : Type} [TokenSource σ]

/-- The statement with its semicolon, or without one before a token of the kind. -/
inductive Stmt.Ends (stmt : Stmt) : List Token → Kind → Prop
  | closed {tokens : List Token} {semicolon : Token} {next : Kind} (h : stmt.Written tokens)
      (hsemicolon : semicolon.kind = .semicolon) : Ends stmt (tokens ++ [semicolon]) next
  | abutting {tokens : List Token} {next : Kind} (h : stmt.Written tokens)
      (habuts : stmt.Abuts next) : Ends stmt tokens next

theorem Stmt.Ends.writtenAll {stmt : Stmt} {stmts : List Stmt} {used others rest : List Token}
    (h : stmt.Ends used (Token.firstKind (others ++ rest)))
    (hstmts : Stmt.WrittenAll stmts others)
    (hrest : Token.firstKind rest = .closeCurly ∨ Token.firstKind rest = .eof) :
    Stmt.WrittenAll (stmt :: stmts) (used ++ others) := by
  cases h with
  | closed h hsemicolon =>
      rw [List.append_assoc]
      exact .closed h hsemicolon hstmts
  | abutting h habuts => exact .abutting h ((hstmts.abuts_iff stmt hrest).mp habuts) hstmts

/-- What follows a statement is not needed to read it. -/
theorem Stmt.Ends.at_eof {stmt : Stmt} {used : List Token} {next : Kind}
    (h : stmt.Ends used next) : stmt.Ends used .eof := by
  cases h with
  | closed h hsemicolon => exact .closed h hsemicolon
  | abutting h _ => exact .abutting h stmt.abuts_eof

theorem Stmt.Ends.writtenAll_alone {stmt : Stmt} {used : List Token} {next : Kind}
    (h : stmt.Ends used next) : Stmt.WrittenAll [stmt] used := by
  have hend : stmt.Ends used (Token.firstKind ([] ++ [])) := h.at_eof
  have halone := hend.writtenAll .nil (.inr rfl)
  rwa [List.append_nil] at halone

theorem Stmt.Ends.ne_nil {stmt : Stmt} {used : List Token} {next : Kind}
    (h : stmt.Ends used next) : used ≠ [] := by
  cases h with
  | closed => exact List.append_ne_nil_of_right_ne_nil _ (List.cons_ne_nil _ _)
  | abutting h _ =>
      rintro rfl
      exact h.starts.ne_eof rfl

namespace Productions

/-- What the reader gives is related to the tokens that it passes over, of those that
lie ahead, and to the kind of the token that is left. -/
abbrev Reads {α : Type} (reader : Reader σ α) (form : α → List Token → Kind → Prop)
    (tokens : List Token) (finish : Token) (cursor : Cursor σ) : Prop :=
  Ends reader
    (fun value cursor' => ∃ used rest, tokens = used ++ rest ∧
      cursor'.advance.Holds rest finish ∧ form value used (Token.firstKind rest))
    (fun _ _ => True) cursor

variable {α : Type} {reader : Reader σ α} {form form' : α → List Token → Kind → Prop}
  {tokens : List Token} {finish : Token} {cursor : Cursor σ}

theorem Reads.then (h : Reads reader form tokens finish cursor)
    {returns : α → Cursor σ → Prop}
    (hreturns : ∀ value used rest cursor', cursor'.advance.Holds rest finish →
      form value used (Token.firstKind rest) → tokens = used ++ rest →
      returns value cursor') :
    Ends reader returns (fun _ _ => True) cursor := by
  apply Ends.then h
  intro value cursor' hvalue
  obtain ⟨used, rest, happend, hholds, hform⟩ := hvalue
  exact hreturns value used rest cursor' hholds hform happend

theorem Reads.mono (h : Reads reader form tokens finish cursor)
    (hform : ∀ value used next, form value used next → form' value used next) :
    Reads reader form' tokens finish cursor :=
  h.then fun value used rest _ hholds hused happend =>
    ⟨used, rest, happend, hholds, hform value used _ hused⟩

theorem expect_then {kind : Kind} (hkind : kind ≠ .eof)
    (h : cursor.advance.Holds tokens finish) {returns : Unit → Cursor σ → Prop}
    (hreturns : ∀ token rest, token.kind = kind →
      cursor.advance.Holds (token :: rest) finish → tokens = token :: rest →
      returns () cursor.advance) :
    Ends (expect kind) returns (fun _ _ => True) cursor := by
  rw [ends_expect]
  refine ⟨fun hpeek => ?_, fun _ => trivial⟩
  rw [← Cursor.current_advance] at hpeek
  obtain ⟨rest, rfl⟩ := h.exists_cons (hpeek ▸ hkind)
  exact hreturns _ rest hpeek h rfl

/-- The readers are given the tokens from the current one on; those that go on with
something are given the tokens after the current one. -/
structure Sound (inner : Productions σ) : Prop where
  statement {cursor : Cursor σ} {tokens : List Token} {finish : Token}
    (h : cursor.Holds tokens finish) :
    Reads inner.statement Stmt.Ends tokens finish cursor
  statements {cursor : Cursor σ} {tokens : List Token} {finish : Token}
    (h : cursor.Holds tokens finish) :
    Ends inner.statements
      (fun stmts cursor' => ∃ used rest, tokens = used ++ rest ∧ cursor'.Holds rest finish ∧
        Stmt.WrittenAll stmts used ∧
        (Token.firstKind rest = .closeCurly ∨ Token.firstKind rest = .eof))
      (fun _ _ => True) cursor
  expression {power : BindingPower} {cursor : Cursor σ} {tokens : List Token}
    {finish : Token} (h : cursor.Holds tokens finish) :
    Reads (inner.expression power)
      (fun expr used next => expr.Written (Expr.Joins power next) used ∧
        ¬ power < Grammar.standard.power next) tokens finish cursor
  operators {power : BindingPower} {left : Expr} {before : List Token} {cursor : Cursor σ}
    {tokens : List Token} {finish : Token}
    (hleft : left.Written (Expr.Joins power (Token.firstKind tokens)) before)
    (h : cursor.advance.Holds tokens finish) :
    Reads (inner.operators power left)
      (fun expr used next => expr.Written (Expr.Joins power next) (before ++ used) ∧
        ¬ power < Grammar.standard.power next) tokens finish cursor
  parameters {cursor : Cursor σ} {tokens : List Token} {finish : Token}
    (h : cursor.advance.Holds tokens finish) :
    Reads inner.parameters (fun names used _ => Identifier.WrittenRest names used) tokens
      finish cursor
  arguments {cursor : Cursor σ} {tokens : List Token} {finish : Token}
    (h : cursor.advance.Holds tokens finish) :
    Reads inner.arguments (fun exprs used _ => Expr.WrittenRest exprs used) tokens
      finish cursor

namespace Sound

variable {inner : Productions σ} {token : Token}

/-! Statements. -/

theorem block (hinner : Sound inner) (h : cursor.Holds (token :: tokens) finish)
    (hkind : token.kind = .openCurly) :
    Reads inner.block (fun body used _ => body.Written used) (token :: tokens) finish
      cursor := by
  simp only [Reads, Productions.block, ends_bind, ends_advance, ends_enterBlock, ends_current,
    ends_ite, ends_fail, ends_leaveBlock, ends_pure]
  refine ⟨fun depth _ => ?_, fun _ => trivial⟩
  apply (hinner.statements ((Cursor.holds_withDepth depth).mpr h.advance)).then
  intro stmts cursor' hform
  obtain ⟨used, rest, rfl, hrest, hstmts, hlast⟩ := hform
  refine ⟨fun _ => trivial, fun hne => ?_⟩
  obtain ⟨others, rfl⟩ := hrest.exists_cons hne
  have hleave := (Cursor.holds_withDepth cursor'.depth.leave).mpr hrest
  refine ⟨token :: (used ++ [cursor'.current]), others, by simp, hleave.advance, ?_⟩
  rw [h.current]
  exact .braces hkind hstmts (hlast.resolve_right hne)

theorem expression_inside (hinner : Sound inner) (h : cursor.advance.Holds tokens finish) :
    Reads (inner.expression .lowest)
      (fun expr used next => expr.Written Expr.FitsInside used ∧
        Grammar.standard.power next = .lowest) tokens finish cursor.advance := by
  apply (hinner.expression h).mono
  intro expr used next hexpr
  refine ⟨hexpr.1.mono fun _ _ => trivial, ?_⟩
  exact BindingPower.eq_lowest_of_not_lt hexpr.2

theorem endStatement {stmt : Stmt} (before : List Token) (hstmt : stmt.Written before)
    (habuts : Token.firstKind tokens ≠ .semicolon → stmt.Abuts (Token.firstKind tokens))
    (h : cursor.advance.Holds tokens finish) :
    Ends Reader.endStatement
      (fun _ cursor' => ∃ used rest, before ++ tokens = used ++ rest ∧
        cursor'.advance.Holds rest finish ∧ stmt.Ends used (Token.firstKind rest))
      (fun _ _ => True) cursor := by
  rw [ends_endStatement, ← Cursor.current_advance]
  refine ⟨fun hpeek => ?_, fun hpeek => ?_⟩
  · obtain ⟨rest, rfl⟩ := h.exists_cons (hpeek ▸ by decide)
    exact ⟨before ++ [cursor.advance.current], rest, by simp, h.advance, .closed hstmt hpeek⟩
  · rw [h.kind_current] at hpeek
    exact ⟨before, tokens, rfl, h, .abutting hstmt (habuts hpeek)⟩

theorem expressionStatement (hinner : Sound inner) (h : cursor.Holds tokens finish) :
    Reads inner.expressionStatement Stmt.Ends tokens finish cursor := by
  simp only [Reads, Productions.expressionStatement, ends_bind, ends_current, ends_pure]
  apply (hinner.expression h).then
  intro value used rest cursor' hrest hvalue happend
  cases used with
  | nil => exact absurd rfl hvalue.1.starts.ne_eof
  | cons token used =>
      obtain rfl := happend
      have hwritten : (Stmt.expression token value).Written (token :: used) :=
        .expression (hvalue.1.mono fun _ _ => trivial)
      rw [h.current]
      exact endStatement _ hwritten
        (fun _ => BindingPower.eq_lowest_of_not_lt hvalue.2) hrest

theorem letStatement (hinner : Sound inner) (h : cursor.Holds (token :: tokens) finish)
    (hkind : token.kind = .letWord) :
    Reads inner.letStatement Stmt.Ends (token :: tokens) finish cursor := by
  simp only [Reads, Productions.letStatement, ends_bind, ends_current, ends_skip, ends_pure]
  apply expect_then (by decide) h.advance
  intro name others hname hnames happend
  obtain rfl := happend
  apply expect_then (by decide) hnames.advance
  intro sign others hsign hsigns happend
  obtain rfl := happend
  apply (hinner.expression_inside hsigns.advance).then
  intro value used rest cursor' hrest hform happend
  obtain ⟨hvalue, hnext⟩ := hform
  obtain rfl := happend
  rw [h.current, hnames.current]
  exact endStatement (token :: name :: sign :: used)
    (.letBinding hkind hname hsign hvalue) (fun _ => hnext) hrest

theorem returnStatement (hinner : Sound inner) (h : cursor.Holds (token :: tokens) finish)
    (hkind : token.kind = .returnWord) :
    Reads inner.returnStatement Stmt.Ends (token :: tokens) finish cursor := by
  simp only [Reads, Productions.returnStatement, Productions.returnedValue, ends_bind,
    ends_current, ends_peek, ends_ite, ends_skip, ends_pure]
  rw [h.kind_peek, h.current]
  refine ⟨fun hnext => ?_, fun _ => ?_⟩
  · exact endStatement [token] (.returning hkind)
      (fun hne => hnext.resolve_left hne) h.advance
  · apply (hinner.expression_inside h.advance).then
    intro value used rest cursor' hrest hform happend
    obtain ⟨hvalue, hnext⟩ := hform
    obtain rfl := happend
    exact endStatement (token :: used) (.returningValue hkind hvalue)
      (fun _ => hnext) hrest

theorem blockStatement (hinner : Sound inner) (h : cursor.Holds (token :: tokens) finish)
    (hkind : token.kind = .openCurly) :
    Reads inner.blockStatement Stmt.Ends (token :: tokens) finish cursor := by
  simp only [Reads, Productions.blockStatement, ends_bind, ends_pure]
  apply (hinner.block h hkind).then
  intro body used rest cursor' hrest hbody happend
  rw [happend]
  exact endStatement _ (.block hbody) (fun _ => trivial) hrest

/-! Operands.  What starts with its own token fits wherever no call follows it. -/

theorem unary (hinner : Sound inner) (power : BindingPower)
    (h : cursor.Holds (token :: tokens) finish)
    (hkind : token.kind = .not ∨ token.kind = .dash) :
    Reads inner.unary (fun expr used next => expr.Written (Expr.Joins power next) used)
      (token :: tokens) finish cursor := by
  simp only [Reads, Productions.unary, ends_bind, ends_advance, ends_pure]
  apply (hinner.expression h.advance).then
  intro operand used rest cursor' hrest hform happend
  obtain ⟨hoperand, hnext⟩ := hform
  obtain rfl := happend
  refine ⟨token :: used, rest, rfl, hrest, ?_⟩
  rw [h.current]
  apply Expr.Written.bare (.unary hkind (hoperand.mono Expr.Joins.fitsOperand))
  intro hcall
  rw [hcall] at hnext
  exact hnext (by decide)

theorem grouping (hinner : Sound inner) (power : BindingPower)
    (h : cursor.Holds (token :: tokens) finish) (hkind : token.kind = .openParen) :
    Reads inner.grouping (fun expr used next => expr.Written (Expr.Joins power next) used)
      (token :: tokens) finish cursor := by
  simp only [Reads, Productions.grouping, ends_bind, ends_skip, ends_pure]
  apply (hinner.expression_inside h.advance).then
  intro value used rest cursor' hrest hform happend
  obtain ⟨hvalue, -⟩ := hform
  obtain rfl := happend
  apply expect_then (by decide) hrest
  intro closing rest hclosing hrest happend
  obtain rfl := happend
  exact ⟨token :: (used ++ [closing]), rest, by simp, hrest.advance,
    .grouped hkind hvalue hclosing⟩

theorem alternative (hinner : Sound inner) (h : cursor.advance.Holds tokens finish) :
    Reads inner.alternative (fun body? used _ => Block.WrittenElse body? used) tokens finish
      cursor := by
  simp only [Reads, Productions.alternative, ends_bind, ends_peek, ends_ite, ends_skip,
    ends_pure]
  rw [← Cursor.current_advance]
  refine ⟨fun hword => ?_, fun _ => ⟨[], tokens, rfl, h, .none⟩⟩
  obtain ⟨others, rfl⟩ := h.exists_cons (hword ▸ by decide)
  apply expect_then (by decide) h.advance
  intro brace rest hbrace hrest happend
  obtain rfl := happend
  apply (hinner.block hrest hbrace).then
  intro body used rest' cursor' hrest' hbody happend
  exact ⟨cursor.advance.current :: used, rest', congrArg (List.cons _) happend, hrest',
    .some hword hbody⟩

theorem ifElse (hinner : Sound inner) (power : BindingPower)
    (h : cursor.Holds (token :: tokens) finish) (hkind : token.kind = .ifWord) :
    Reads inner.ifElse (fun expr used next => expr.Written (Expr.Joins power next) used)
      (token :: tokens) finish cursor := by
  simp only [Reads, Productions.ifElse, ends_bind, ends_current, ends_skip, ends_pure]
  apply expect_then (by decide) h.advance
  intro opening others hopening hopenings happend
  obtain rfl := happend
  apply (hinner.expression_inside hopenings.advance).then
  intro condition conditions others cursor₁ hothers hform happend
  obtain ⟨hcondition, -⟩ := hform
  obtain rfl := happend
  apply expect_then (by decide) hothers
  intro closing others hclosing hclosings happend
  obtain rfl := happend
  apply expect_then (by decide) hclosings.advance
  intro brace others hbrace hbraces happend
  obtain rfl := happend
  apply (hinner.block hbraces hbrace).then
  intro consequence consequences others' cursor₂ hothers' hconsequence happend
  rw [happend]
  apply (hinner.alternative hothers').then
  intro alternative? alternatives rest cursor₃ hrest halternative happend
  obtain rfl := happend
  refine ⟨token :: opening :: (conditions ++ closing :: (consequences ++ alternatives)), rest,
    by simp, hrest, ?_⟩
  rw [h.current]
  exact .bare (.ifElse hkind hopening hcondition hclosing hconsequence halternative) trivial

theorem parameterList (hinner : Sound inner) (h : cursor.advance.Holds tokens finish) :
    Reads inner.parameterList
      (fun names used _ => ∃ tokens closing, used = tokens ++ [closing] ∧
        closing.kind = .closeParen ∧ Identifier.WrittenAll names tokens) tokens finish
      cursor := by
  simp only [Reads, Productions.parameterList, Productions.identifier, ends_bind, ends_peek,
    ends_ite, ends_skip, ends_current, ends_pure]
  rw [← Cursor.current_advance]
  refine ⟨fun hpeek => ?_, fun _ => ?_⟩
  · obtain ⟨rest, rfl⟩ := h.exists_cons (hpeek ▸ by decide)
    exact ⟨[cursor.advance.current], rest, rfl, h.advance, [], _, rfl, hpeek, .nil⟩
  · apply expect_then (by decide) h
    intro name others hname hnames happend
    obtain rfl := happend
    apply (hinner.parameters hnames.advance).then
    intro names used others cursor' hothers hrest happend
    obtain rfl := happend
    apply expect_then (by decide) hothers
    intro closing rest hclosing hclosings happend
    obtain rfl := happend
    rw [hnames.current]
    exact ⟨name :: (used ++ [closing]), rest, by simp, hclosings.advance, name :: used, closing,
      rfl, hclosing, .cons hname hrest⟩

theorem function (hinner : Sound inner) (power : BindingPower)
    (h : cursor.Holds (token :: tokens) finish) (hkind : token.kind = .fnWord) :
    Reads inner.function (fun expr used next => expr.Written (Expr.Joins power next) used)
      (token :: tokens) finish cursor := by
  simp only [Reads, Productions.function, ends_bind, ends_current, ends_pure]
  apply expect_then (by decide) h.advance
  intro opening others hopening hopenings happend
  obtain rfl := happend
  apply (hinner.parameterList hopenings.advance).then
  intro parameters _ others cursor₁ hothers hform happend
  obtain ⟨names, closing, rfl, hclosing, hnames⟩ := hform
  obtain rfl := happend
  apply expect_then (by decide) hothers
  intro brace others hbrace hbraces happend
  obtain rfl := happend
  apply (hinner.block hbraces hbrace).then
  intro body statements rest cursor₂ hrest hbody happend
  rw [happend, h.current]
  exact ⟨token :: opening :: (names ++ closing :: statements), rest, by simp, hrest,
    .bare (.function hkind hopening hnames hclosing hbody) trivial⟩

theorem operandRule (hinner : Sound inner) {rule : OperandRule} (power : BindingPower)
    (h : cursor.Holds (token :: tokens) finish)
    (hrule : Grammar.standard.operand? token.kind = some rule) :
    Reads (rule.read inner) (fun expr used next => expr.Written (Expr.Joins power next) used)
      (token :: tokens) finish cursor := by
  rw [Grammar.standard_operand?_iff] at hrule
  have hholds := h.advance
  cases rule with
  | identifier =>
      have hkind := List.mem_singleton.mp hrule
      simp only [Reads, OperandRule.read, Productions.identifier, ends_bind, ends_current,
        ends_pure]
      rw [h.current]
      exact ⟨[token], tokens, rfl, hholds, .bare (.identifier hkind) trivial⟩
  | integer =>
      have hkind := List.mem_singleton.mp hrule
      simp only [Reads, OperandRule.read, Productions.integer, ends_bind, ends_current]
      rw [h.current]
      cases hvalue : Numeral.value? token.text with
      | none => exact trivial
      | some value =>
          exact ⟨[token], tokens, rfl, hholds, .bare (.integer hkind hvalue) trivial⟩
  | boolean =>
      have hkind : token.kind = .trueWord ∨ token.kind = .falseWord := by
        simpa [OperandRule.kinds] using hrule
      simp only [Reads, OperandRule.read, Productions.boolean, ends_bind, ends_current,
        ends_pure]
      rw [h.current]
      exact ⟨[token], tokens, rfl, hholds, .bare (.boolean hkind) trivial⟩
  | unary => exact hinner.unary power h (by simpa [OperandRule.kinds] using hrule)
  | grouping => exact hinner.grouping power h (List.mem_singleton.mp hrule)
  | ifElse => exact hinner.ifElse power h (List.mem_singleton.mp hrule)
  | function => exact hinner.function power h (List.mem_singleton.mp hrule)

/-! Operators, which go on with what has been read before them. -/

theorem binary (hinner : Sound inner) {power operator : BindingPower} {left : Expr}
    {before : List Token} (hlt : power < operator)
    (hkind : Grammar.standard.operator? token.kind = some ⟨operator, .binary⟩)
    (hleft : left.Written (Expr.Joins power token.kind) before)
    (h : cursor.Holds (token :: tokens) finish) :
    Reads (inner.binary left operator)
      (fun expr used next => expr.Written (Expr.Joins power next) (before ++ used))
      (token :: tokens) finish cursor := by
  simp only [Reads, Productions.binary, ends_bind, ends_advance, ends_pure]
  apply (hinner.expression h.advance).then
  intro right used rest cursor' hrest hform happend
  obtain ⟨hright, hnext⟩ := hform
  obtain rfl := happend
  refine ⟨token :: used, rest, rfl, hrest, ?_⟩
  have hlefts := hleft.mono fun _ hjoins => hjoins.fitsLeft hkind
  have hrights := hright.mono fun _ hjoins => hjoins.fitsRight
  rw [h.current]
  refine .bare (.binary hkind hlefts hrights) ⟨?_, ?_⟩
  · rwa [Grammar.standard_power_of_binary hkind]
  · rwa [Grammar.standard_power_of_binary hkind]

theorem argumentList (hinner : Sound inner) (h : cursor.advance.Holds tokens finish) :
    Reads inner.argumentList
      (fun exprs used _ => ∃ tokens closing, used = tokens ++ [closing] ∧
        closing.kind = .closeParen ∧ Expr.WrittenAll exprs tokens) tokens finish cursor := by
  simp only [Reads, Productions.argumentList, ends_bind, ends_peek, ends_ite, ends_skip,
    ends_pure]
  rw [← Cursor.current_advance]
  refine ⟨fun hpeek => ?_, fun _ => ?_⟩
  · obtain ⟨rest, rfl⟩ := h.exists_cons (hpeek ▸ by decide)
    exact ⟨[cursor.advance.current], rest, rfl, h.advance, [], _, rfl, hpeek, .nil⟩
  · apply (hinner.expression_inside h).then
    intro first firsts others cursor' hothers hform happend
    obtain ⟨hfirst, -⟩ := hform
    obtain rfl := happend
    apply (hinner.arguments hothers).then
    intro exprs used others cursor'' hothers' hrest happend
    obtain rfl := happend
    apply expect_then (by decide) hothers'
    intro closing rest hclosing hclosings happend
    obtain rfl := happend
    exact ⟨firsts ++ used ++ [closing], rest, by simp, hclosings.advance, firsts ++ used,
      closing, rfl, hclosing, .cons hfirst hrest⟩

theorem call (hinner : Sound inner) {power : BindingPower} {callee : Expr}
    {before : List Token} (hkind : token.kind = .openParen)
    (hcallee : callee.Written (Expr.Joins power token.kind) before)
    (h : cursor.Holds (token :: tokens) finish) :
    Reads (inner.call callee)
      (fun expr used next => expr.Written (Expr.Joins power next) (before ++ used))
      (token :: tokens) finish cursor := by
  simp only [Reads, Productions.call, ends_bind, ends_current, ends_pure]
  apply (hinner.argumentList h.advance).then
  intro arguments _ rest cursor' hrest hform happend
  obtain ⟨values, closing, rfl, hclosing, hvalues⟩ := hform
  obtain rfl := happend
  refine ⟨token :: (values ++ [closing]), rest, rfl, hrest, ?_⟩
  rw [hkind] at hcallee
  rw [h.current]
  exact .bare (.call (hcallee.mono Expr.Joins.fitsCallee) hkind hvalues hclosing) trivial

theorem operatorRule (hinner : Sound inner) {power : BindingPower} {operator : Operator}
    {left : Expr} {before : List Token} (hlt : power < operator.power)
    (hkind : Grammar.standard.operator? token.kind = some operator)
    (hleft : left.Written (Expr.Joins power token.kind) before)
    (h : cursor.Holds (token :: tokens) finish) :
    Reads (operator.rule.read inner left operator.power)
      (fun expr used next => expr.Written (Expr.Joins power next) (before ++ used))
      (token :: tokens) finish cursor := by
  obtain ⟨operator, rule⟩ := operator
  rcases Grammar.standard_operator_cases hkind with hrule | ⟨hparen, hoperator⟩
  · obtain rfl : rule = .binary := hrule
    exact hinner.binary hlt hkind hleft h
  · obtain ⟨rfl, rfl⟩ := Operator.mk.inj hoperator
    exact hinner.call hparen hleft h

/-! The productions, in terms of the rules. -/

theorem layer (hinner : Sound inner) : Sound (layer Grammar.standard inner) where
  statement {cursor tokens finish} h := by
    have hnote := (Cursor.holds_note
      (.statement cursor.current.kind cursor.current.text)).mpr h
    simp only [Reads, Productions.layer, ends_bind, ends_current, ends_note]
    cases hrule : Grammar.standard.statement? cursor.current.kind with
    | none => exact hinner.expressionStatement hnote
    | some rule =>
        obtain ⟨rest, rfl⟩ := h.exists_cons fun heof => by simp [heof, Grammar.standard] at hrule
        rw [Grammar.standard_statement?_iff] at hrule
        cases rule with
        | expression => exact absurd hrule List.not_mem_nil
        | letBinding => exact hinner.letStatement hnote (List.mem_singleton.mp hrule)
        | returning => exact hinner.returnStatement hnote (List.mem_singleton.mp hrule)
        | block => exact hinner.blockStatement hnote (List.mem_singleton.mp hrule)
  statements {cursor tokens finish} h := by
    simp only [Productions.layer, ends_bind, ends_current, ends_ite, ends_pure, ends_skip]
    refine ⟨fun hlast => ⟨[], tokens, rfl, h, .nil, h.kind_current ▸ hlast⟩, fun _ => ?_⟩
    apply (hinner.statement h).then
    intro stmt used others cursor' hothers hstmt happend
    obtain rfl := happend
    apply (hinner.statements hothers).then
    intro stmts cursor'' hform
    obtain ⟨used', rest, rfl, hrest, hstmts, hlast⟩ := hform
    refine ⟨used ++ used', rest, (List.append_assoc ..).symm, hrest, ?_, hlast⟩
    exact hstmt.writtenAll hstmts hlast
  expression {power cursor tokens finish} h := by
    simp only [Reads, Productions.layer, ends_bind, ends_current]
    cases hrule : Grammar.standard.operand? cursor.current.kind with
    | none => exact trivial
    | some rule =>
        obtain ⟨rest, rfl⟩ := h.exists_cons fun heof => by simp [heof, Grammar.standard] at hrule
        simp only [ends_bind]
        apply (hinner.operandRule power h hrule).then
        intro left before others cursor' hothers hleft happend
        rw [happend]
        apply (hinner.operators hleft hothers).then
        intro expr used rest cursor'' hrest hexpr happend
        obtain rfl := happend
        exact ⟨before ++ used, rest, (List.append_assoc ..).symm, hrest, hexpr⟩
  operators {power left before cursor tokens finish} hleft h := by
    simp only [Reads, Productions.layer, ends_bind, ends_peek]
    rw [← Cursor.current_advance]
    cases hoperator : Grammar.standard.operator? cursor.advance.current.kind with
    | none =>
        refine ⟨[], tokens, rfl, h, by simpa using hleft, ?_⟩
        rw [← Grammar.standard_power_eq_lowest_iff, h.kind_current] at hoperator
        rw [hoperator]
        exact Nat.not_lt_zero _
    | some operator =>
        obtain ⟨hne, hkind⟩ := Grammar.standard_operator_ne hoperator
        obtain ⟨rest, rfl⟩ := h.exists_cons hne
        simp only [ends_ite, ends_bind, ends_skip, ends_pure]
        refine ⟨fun hlt => ?_, fun hge => ?_⟩
        · apply (hinner.operatorRule hlt.2 hoperator hleft h).then
          intro longer used others cursor' hothers hlonger happend
          rw [happend]
          apply (hinner.operators hlonger hothers).then
          intro expr more rest cursor'' hrest hexpr happend
          obtain rfl := happend
          rw [List.append_assoc] at hexpr
          exact ⟨used ++ more, rest, (List.append_assoc ..).symm, hrest, hexpr⟩
        · refine ⟨[], _, rfl, h, by simpa using hleft, fun hlt => hge ⟨hkind, ?_⟩⟩
          rwa [Token.firstKind_cons, Grammar.power, hoperator] at hlt
  parameters {cursor tokens finish} h := by
    simp only [Reads, Productions.layer, identifier, ends_bind, ends_peek, ends_ite, ends_skip,
      ends_current, ends_pure]
    rw [← Cursor.current_advance]
    refine ⟨fun hcomma => ?_, fun _ => ⟨[], tokens, rfl, h, .nil⟩⟩
    obtain ⟨others, rfl⟩ := h.exists_cons (hcomma ▸ by decide)
    apply expect_then (by decide) h.advance
    intro name others hname hnames happend
    obtain rfl := happend
    apply (hinner.parameters hnames.advance).then
    intro names used rest cursor' hrest hnames' happend
    obtain rfl := happend
    rw [hnames.current]
    exact ⟨cursor.advance.current :: name :: used, rest, rfl, hrest,
      .cons hcomma hname hnames'⟩
  arguments {cursor tokens finish} h := by
    simp only [Reads, Productions.layer, ends_bind, ends_peek, ends_ite, ends_skip, ends_pure]
    rw [← Cursor.current_advance]
    refine ⟨fun hcomma => ?_, fun _ => ⟨[], tokens, rfl, h, .nil⟩⟩
    obtain ⟨others, rfl⟩ := h.exists_cons (hcomma ▸ by decide)
    apply (hinner.expression_inside h.advance).then
    intro first firsts others cursor' hothers hform happend
    obtain ⟨hfirst, -⟩ := hform
    obtain rfl := happend
    apply (hinner.arguments hothers).then
    intro exprs used rest cursor'' hrest hexprs happend
    obtain rfl := happend
    exact ⟨cursor.advance.current :: (firsts ++ used), rest, by simp, hrest,
      .cons hcomma hfirst hexprs⟩

theorem toDepth (depth : Nat) :
    Sound (toDepth Grammar.standard depth : Productions σ) := by
  induction depth with
  | zero => constructor <;> intros <;> exact trivial
  | succ depth ih => exact ih.layer

end Sound

end Productions

end MonkeySyntax
