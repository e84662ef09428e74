import MonkeySyntax.Proofs.Productions.Sight
import MonkeySyntax.Proofs.Productions.Sound
import MonkeySyntax.Proofs.Written.Begins

namespace MonkeySyntax

open Reader

/-! Where a reader stops at a fault, the tokens before the one at fault begin what it was to
read: no fault is found too late. -/

variable {σ : Type} [TokenSource σ]

theorem Stmt.Ends.begunAll {stmt : Stmt} {used others rest : List Token}
    (h : stmt.Ends used (Token.firstKind (others ++ rest))) (hothers : Stmt.BegunAll others) :
    Stmt.BegunAll (used ++ others) := by
  obtain ⟨stmts, more, hwritten, hmore⟩ := hothers
  have hnext : stmt.Ends used (Token.firstKind ((others ++ more) ++ [])) := by
    cases others with
    | nil =>
        rw [hmore rfl]
        exact h.at_eof
    | cons => exact h
  refine ⟨stmt :: stmts, more, ?_, fun hnil => ?_⟩
  · rw [List.append_assoc]
    exact hnext.writtenAll hwritten (.inr rfl)
  · exact absurd (List.append_eq_nil_iff.mp hnil).1 h.ne_nil

namespace Productions

/-- The cursor stops at a fault, and the tokens before the one at fault are viable. -/
def Halts (viable : List Token → Prop) (all : List Token) (finish : Token) (stop : Stop)
    (cursor : Cursor σ) : Prop :=
  ∀ diagnostic, stop = .fault diagnostic → ∃ culprit used rest,
    cursor.After diagnostic.fault.lead culprit ∧ all = used ++ rest ∧
      culprit.Holds rest finish ∧ viable used

abbrev Falters {α : Type} (reader : Reader σ α) (viable : List Token → Prop)
    (all : List Token) (finish : Token) (cursor : Cursor σ) : Prop :=
  Ends reader (fun _ _ => True) (Halts viable all finish) cursor

variable {α : Type} {reader : Reader σ α} {form : α → List Token → Kind → Prop}
  {viable viable' : List Token → Prop} {all before tokens rest : List Token} {token finish : Token}
  {cursor : Cursor σ} {returns : α → Cursor σ → Prop}

theorem Halts.mono {stop : Stop} (h : Halts viable tokens finish stop cursor)
    (happend : all = before ++ tokens) (hviable : ∀ used, viable used → viable' (before ++ used)) :
    Halts viable' all finish stop cursor := by
  intro diagnostic hdiagnostic
  obtain ⟨culprit, used, rest, hculprit, rfl, hrest, hused⟩ := h diagnostic hdiagnostic
  refine ⟨culprit, before ++ used, rest, hculprit, ?_, hrest, hviable used hused⟩
  rw [happend, List.append_assoc]

theorem Halts.exhausted {resource : Resource} :
    Halts viable all finish (@Stop.exhausted resource) cursor :=
  fun _ hfault => Stop.noConfusion hfault

theorem Halts.of_current {fault : Fault} {position : Position} (hlead : fault.lead = 0)
    (h : cursor.Holds tokens finish) (happend : all = before ++ tokens)
    (hviable : viable before) : Halts viable all finish (.fault ⟨fault, position⟩) cursor := by
  intro diagnostic hdiagnostic
  obtain rfl := Stop.fault.inj hdiagnostic
  refine ⟨cursor, before, tokens, ?_, happend, h, hviable⟩
  rw [hlead]
  exact .refl cursor

theorem Halts.of_peek {fault : Fault} {position : Position} (hlead : fault.lead = 1)
    (h : cursor.advance.Holds tokens finish) (happend : all = before ++ tokens)
    (hviable : viable before) : Halts viable all finish (.fault ⟨fault, position⟩) cursor := by
  intro diagnostic hdiagnostic
  obtain rfl := Stop.fault.inj hdiagnostic
  refine ⟨cursor.advance, before, tokens, ?_, happend, h, hviable⟩
  rw [hlead]
  exact .refl cursor.advance

/-- What the reader passes over if it goes on comes after the tokens before, and so does what
it passes over before a fault. -/
theorem Reads.or_falters (h : Reads reader form tokens finish cursor)
    (hfalters : Falters reader viable tokens finish cursor) (happend : all = before ++ tokens)
    (hviable : ∀ used, viable used → viable' (before ++ used))
    (hreturns : ∀ value used rest cursor', cursor'.advance.Holds rest finish →
      form value used (Token.firstKind rest) → all = (before ++ used) ++ rest →
      returns value cursor') :
    Ends reader returns (Halts viable' all finish) cursor := by
  refine (Ends.and h hfalters).mono (fun value cursor' hvalue => ?_) (fun stop cursor' hstop => ?_)
  · obtain ⟨⟨used, rest, rfl, hholds, hform⟩, -⟩ := hvalue
    refine hreturns _ used rest _ hholds hform ?_
    rw [happend, List.append_assoc]
  · exact hstop.2.mono happend hviable

/-- A reader after which no fault is left to be found. -/
theorem Falters.then (h : Falters reader viable tokens finish cursor)
    (happend : all = before ++ tokens) (hviable : ∀ used, viable used → viable' (before ++ used))
    (hreturns : ∀ value cursor', returns value cursor') :
    Ends reader returns (Halts viable' all finish) cursor :=
  Ends.mono h (fun value cursor' _ => hreturns value cursor')
    fun _ _ hstop => hstop.mono happend hviable

theorem Falters.last (h : Falters reader viable tokens finish cursor)
    (happend : all = before ++ tokens)
    (hviable : ∀ used, viable used → viable' (before ++ used)) :
    Falters reader viable' all finish cursor :=
  h.then happend hviable fun _ _ => trivial

theorem expect_or_falters {kind : Kind} {returns : Unit → Cursor σ → Prop}
    (hkind : kind ≠ .eof ∧ kind ≠ .closeCurly) (h : cursor.advance.Holds tokens finish)
    (happend : all = before ++ tokens) (hviable : viable before)
    (hreturns : ∀ token rest, token.kind = kind →
      cursor.advance.Holds (token :: rest) finish → all = (before ++ [token]) ++ rest →
      returns () cursor.advance) :
    Ends (expect kind) returns (Halts viable all finish) cursor := by
  rw [ends_expect]
  refine ⟨fun hpeek => ?_, fun _ => ?_⟩
  · rw [← Cursor.current_advance] at hpeek
    obtain ⟨rest, rfl⟩ := h.exists_cons (hpeek ▸ hkind.1)
    refine hreturns _ rest hpeek h ?_
    rw [happend, List.append_assoc, List.singleton_append]
  · exact .of_peek (Fault.lead_ofMismatch hkind.2 _) h happend hviable

theorem expect_falters {kind : Kind} (hkind : kind ≠ .eof ∧ kind ≠ .closeCurly)
    (h : cursor.advance.Holds tokens finish) (happend : all = before ++ tokens)
    (hviable : viable before) : Falters (expect kind) viable all finish cursor :=
  expect_or_falters hkind h happend hviable fun _ _ _ _ _ => trivial

/-- The readers are given the tokens from the current one on; those that go on with
something are given the tokens after the current one. -/
structure Viable (inner : Productions σ) : Prop where
  statement {cursor : Cursor σ} {tokens : List Token} {finish : Token}
    (h : cursor.Holds tokens finish) :
    Falters inner.statement (Begins Stmt.Written) tokens finish cursor
  statements {cursor : Cursor σ} {tokens : List Token} {finish : Token}
    (h : cursor.Holds tokens finish) :
    Falters inner.statements Stmt.BegunAll tokens finish cursor
  expression (power : BindingPower) {cursor : Cursor σ} {tokens : List Token} {finish : Token}
    (h : cursor.Holds tokens finish) :
    Falters (inner.expression power) (Expr.Begun power) tokens finish cursor
  operators {power : BindingPower} {left : Expr} {before : List Token} {cursor : Cursor σ}
    {tokens : List Token} {finish : Token}
    (hleft : left.Written (Expr.Joins power (Token.firstKind tokens)) before)
    (h : cursor.advance.Holds tokens finish) :
    Falters (inner.operators power left) (fun used => Expr.Begun power (before ++ used)) tokens
      finish cursor
  parameters {cursor : Cursor σ} {tokens : List Token} {finish : Token}
    (h : cursor.advance.Holds tokens finish) :
    Falters inner.parameters (Begins Identifier.WrittenRest) tokens finish cursor
  arguments {cursor : Cursor σ} {tokens : List Token} {finish : Token}
    (h : cursor.advance.Holds tokens finish) :
    Falters inner.arguments (Begins Expr.WrittenRest) tokens finish cursor

namespace Viable

variable {inner : Productions σ}

theorem endStatement : Falters Reader.endStatement viable all finish cursor := by
  rw [Falters, ends_endStatement]
  exact ⟨fun _ => trivial, fun _ => trivial⟩

/-! Statements. -/

theorem block (hinner : Viable inner) (hsound : Sound inner)
    (h : cursor.Holds (token :: tokens) finish) (hkind : token.kind = .openCurly) :
    Falters inner.block (Begins Block.Written) (token :: tokens) finish cursor := by
  simp only [Falters, Productions.block, ends_bind, ends_advance, ends_enterBlock, ends_current,
    ends_ite, ends_fail, ends_leaveBlock, ends_pure]
  refine ⟨fun depth _ => ?_, fun _ => .exhausted⟩
  have hinside := (Cursor.holds_withDepth depth).mpr h.advance
  refine (Ends.and (hsound.statements hinside) (hinner.statements hinside)).mono
    (fun stmts cursor' hvalue => ?_) (fun stop cursor' hstop => ?_)
  · obtain ⟨⟨used, rest, rfl, hrest, hstmts, -⟩, -⟩ := hvalue
    refine ⟨fun heof => ?_, fun _ => trivial⟩
    have hbegun : Stmt.BegunAll used := ⟨stmts, [], by rwa [List.append_nil], fun _ => rfl⟩
    exact .of_current rfl hrest rfl (Block.begins_statements hkind hbegun)
  · exact hstop.2.mono List.singleton_append.symm fun _ => Block.begins_statements hkind

theorem expression_inside (hinner : Viable inner) (h : cursor.Holds tokens finish) :
    Falters (inner.expression .lowest) Expr.BegunInside tokens finish cursor :=
  (hinner.expression .lowest h).last (List.nil_append _).symm fun _ => Expr.Begun.inside

theorem expressionStatement (hinner : Viable inner) (h : cursor.Holds tokens finish) :
    Falters inner.expressionStatement (Begins Stmt.Written) tokens finish cursor := by
  simp only [Falters, Productions.expressionStatement, ends_bind, ends_current, ends_pure]
  exact (hinner.expression_inside h).then (List.nil_append _).symm
    (fun _ => Stmt.begins_expression) fun _ _ => endStatement

theorem letStatement (hinner : Viable inner) (h : cursor.Holds (token :: tokens) finish)
    (hkind : token.kind = .letWord) :
    Falters inner.letStatement (Begins Stmt.Written) (token :: tokens) finish cursor := by
  simp only [Falters, Productions.letStatement, ends_bind, ends_current, ends_skip, ends_pure]
  apply expect_or_falters (by decide) h.advance List.singleton_append.symm (Stmt.begins_name hkind)
  intro name others hname hnames happend
  apply expect_or_falters (by decide) hnames.advance happend (Stmt.begins_sign hkind hname)
  intro sign others hsign hsigns happend
  exact (hinner.expression_inside hsigns.advance).then happend
    (fun _ => Stmt.begins_value hkind hname hsign) fun _ _ => endStatement

theorem returnStatement (hinner : Viable inner) (h : cursor.Holds (token :: tokens) finish)
    (hkind : token.kind = .returnWord) :
    Falters inner.returnStatement (Begins Stmt.Written) (token :: tokens) finish cursor := by
  simp only [Falters, Productions.returnStatement, Productions.returnedValue, ends_bind,
    ends_current, ends_peek, ends_ite, ends_skip, ends_pure]
  refine ⟨fun _ => endStatement, fun _ => ?_⟩
  exact (hinner.expression_inside h.advance).then List.singleton_append.symm
    (fun _ => Stmt.begins_returnedValue hkind) fun _ _ => endStatement

theorem blockStatement (hinner : Viable inner) (hsound : Sound inner)
    (h : cursor.Holds (token :: tokens) finish) (hkind : token.kind = .openCurly) :
    Falters inner.blockStatement (Begins Stmt.Written) (token :: tokens) finish cursor := by
  simp only [Falters, Productions.blockStatement, ends_bind, ends_pure]
  exact (hinner.block hsound h hkind).then (List.nil_append _).symm
    (fun _ => Stmt.begins_block) fun _ _ => endStatement

/-! Operands. -/

theorem unary (hinner : Viable inner) (power : BindingPower)
    (h : cursor.Holds (token :: tokens) finish)
    (hkind : token.kind = .not ∨ token.kind = .dash) :
    Falters inner.unary (Expr.Begun power) (token :: tokens) finish cursor := by
  simp only [Falters, Productions.unary, ends_bind, ends_advance, ends_pure]
  exact (hinner.expression .unary h.advance).last List.singleton_append.symm
    fun _ => Expr.Begun.unary hkind

theorem grouping (hinner : Viable inner) (hsound : Sound inner) (power : BindingPower)
    (h : cursor.Holds (token :: tokens) finish) (hkind : token.kind = .openParen) :
    Falters inner.grouping (Expr.Begun power) (token :: tokens) finish cursor := by
  simp only [Falters, Productions.grouping, ends_bind, ends_skip, ends_pure]
  apply (hsound.expression_inside h.advance).or_falters
    (hinner.expression_inside h.advance) List.singleton_append.symm
    fun _ => Expr.Begun.grouping hkind
  intro value used rest cursor' hrest hform happend
  exact expect_falters (by decide) hrest happend
    (Expr.Begun.grouping hkind (.of_form hform.1))

theorem alternative (hinner : Viable inner) (hsound : Sound inner)
    (h : cursor.advance.Holds tokens finish) :
    Falters inner.alternative (Begins Block.WrittenElse) tokens finish cursor := by
  simp only [Falters, Productions.alternative, ends_bind, ends_peek, ends_ite, ends_skip,
    ends_pure]
  rw [← Cursor.current_advance]
  refine ⟨fun hword => ?_, fun _ => trivial⟩
  obtain ⟨others, rfl⟩ := h.exists_cons (hword ▸ by decide)
  apply expect_or_falters (by decide) h.advance List.singleton_append.symm
    (Block.begins_else hword Block.begins_nil)
  intro brace rest hbrace hrest happend
  rw [List.append_assoc, List.singleton_append] at happend
  exact (hinner.block hsound hrest hbrace).last happend fun _ => Block.begins_else hword

theorem ifElse (hinner : Viable inner) (hsound : Sound inner) (power : BindingPower)
    (h : cursor.Holds (token :: tokens) finish) (hkind : token.kind = .ifWord) :
    Falters inner.ifElse (Expr.Begun power) (token :: tokens) finish cursor := by
  simp only [Falters, Productions.ifElse, ends_bind, ends_current, ends_skip, ends_pure]
  apply expect_or_falters (by decide) h.advance List.singleton_append.symm
    (Expr.Begun.ifElse hkind)
  intro opening others hopening hopenings happend
  apply (hsound.expression_inside hopenings.advance).or_falters
    (hinner.expression_inside hopenings.advance) happend
    fun _ => Expr.Begun.ifElse_condition hkind hopening
  intro condition conditions others cursor₁ hothers hform happend
  obtain ⟨hcondition, -⟩ := hform
  apply expect_or_falters (by decide) hothers happend
    (Expr.Begun.ifElse_condition hkind hopening (.of_form hcondition))
  intro closing others hclosing hclosings happend
  have hheader : Expr.Begun power ([token, opening] ++ conditions ++ [closing] ++ []) :=
    Expr.Begun.ifElse_consequence hkind hopening hcondition hclosing Block.begins_nil
  apply expect_or_falters (by decide) hclosings.advance happend
    (hheader.shorten (List.prefix_append _ []))
  intro brace others hbrace hbraces happend
  rw [List.append_assoc _ [brace], List.singleton_append] at happend
  apply (hsound.block hbraces hbrace).or_falters (hinner.block hsound hbraces hbrace) happend
    fun _ => Expr.Begun.ifElse_consequence hkind hopening hcondition hclosing
  intro consequence consequences others cursor₂ hothers hconsequence happend
  exact (hinner.alternative hsound hothers).last happend
    fun _ => Expr.Begun.ifElse_alternative hkind hopening hcondition hclosing hconsequence

theorem parameterList (hinner : Viable inner) (hsound : Sound inner)
    (h : cursor.advance.Holds tokens finish) :
    Falters inner.parameterList (Begins Identifier.WrittenAll) tokens finish cursor := by
  simp only [Falters, Productions.parameterList, Productions.identifier, ends_bind, ends_peek,
    ends_ite, ends_skip, ends_current, ends_pure]
  refine ⟨fun _ => trivial, fun _ => ?_⟩
  apply expect_or_falters (by decide) h (List.nil_append _).symm (.of_form .nil)
  intro name others hname hnames happend
  apply (hsound.parameters hnames.advance).or_falters (hinner.parameters hnames.advance) happend
    fun _ => Identifier.WrittenAll.begins_cons hname
  intro names used rest cursor' hrest hused happend
  exact expect_falters (by decide) hrest happend
    (Identifier.WrittenAll.begins_cons hname (.of_form hused))

theorem function (hinner : Viable inner) (hsound : Sound inner) (power : BindingPower)
    (h : cursor.Holds (token :: tokens) finish) (hkind : token.kind = .fnWord) :
    Falters inner.function (Expr.Begun power) (token :: tokens) finish cursor := by
  simp only [Falters, Productions.function, ends_bind, ends_current, ends_pure]
  apply expect_or_falters (by decide) h.advance List.singleton_append.symm
    (Expr.Begun.function hkind)
  intro opening others hopening hopenings happend
  apply (hsound.parameterList hopenings.advance).or_falters
    (hinner.parameterList hsound hopenings.advance) happend
    fun _ => Expr.Begun.function_parameters hkind hopening
  intro parameters _ others cursor₁ hothers hform happend
  obtain ⟨names, closing, rfl, hclosing, hnames⟩ := hform
  rw [← List.append_assoc _ names] at happend
  have hheader : Expr.Begun power ([token, opening] ++ names ++ [closing] ++ []) :=
    Expr.Begun.function_body hkind hopening hnames hclosing Block.begins_nil
  apply expect_or_falters (by decide) hothers happend
    (hheader.shorten (List.prefix_append _ []))
  intro brace others hbrace hbraces happend
  rw [List.append_assoc _ [brace], List.singleton_append] at happend
  exact (hinner.block hsound hbraces hbrace).last happend
    fun _ => Expr.Begun.function_body hkind hopening hnames hclosing

theorem operandRule (hinner : Viable inner) (hsound : Sound inner) {rule : OperandRule}
    (power : BindingPower) (h : cursor.Holds (token :: tokens) finish)
    (hrule : Grammar.standard.operand? token.kind = some rule) :
    Falters (rule.read inner) (Expr.Begun power) (token :: tokens) finish cursor := by
  rw [Grammar.standard_operand?_iff] at hrule
  cases rule with
  | identifier => exact trivial
  | integer =>
      simp only [Falters, OperandRule.read, Productions.integer, ends_bind, ends_current]
      cases Numeral.value? cursor.current.text with
      | none => exact .of_current rfl h (List.nil_append _).symm (Expr.begun_nil power)
      | some value => exact trivial
  | boolean => exact trivial
  | unary => exact hinner.unary power h (by simpa [OperandRule.kinds] using hrule)
  | grouping => exact hinner.grouping hsound power h (List.mem_singleton.mp hrule)
  | ifElse => exact hinner.ifElse hsound power h (List.mem_singleton.mp hrule)
  | function => exact hinner.function hsound power h (List.mem_singleton.mp hrule)

/-! Operators, which go on with what has been read before them. -/

theorem argumentList (hinner : Viable inner) (hsound : Sound inner)
    (h : cursor.advance.Holds tokens finish) :
    Falters inner.argumentList (Begins Expr.WrittenAll) tokens finish cursor := by
  simp only [Falters, Productions.argumentList, ends_bind, ends_peek, ends_ite, ends_skip,
    ends_pure]
  refine ⟨fun _ => trivial, fun _ => ?_⟩
  apply (hsound.expression_inside h).or_falters (hinner.expression_inside h)
    (List.nil_append _).symm fun _ => Expr.WrittenAll.begins_first
  intro first firsts others cursor₁ hothers hform happend
  apply (hsound.arguments hothers).or_falters (hinner.arguments hothers) happend
    fun _ => Expr.WrittenAll.begins_cons hform.1
  intro exprs used rest cursor₂ hrest hused happend
  exact expect_falters (by decide) hrest happend
    (Expr.WrittenAll.begins_cons hform.1 (.of_form hused))

theorem operatorRule (hinner : Viable inner) (hsound : Sound inner) {power : BindingPower}
    {operator : Operator} {left : Expr} (hlt : power < operator.power)
    (hkind : Grammar.standard.operator? token.kind = some operator)
    (hleft : left.Written (Expr.Joins power token.kind) before)
    (h : cursor.Holds (token :: tokens) finish) :
    Falters (operator.rule.read inner left operator.power)
      (fun used => Expr.Begun power (before ++ used)) (token :: tokens) finish cursor := by
  obtain ⟨operator, rule⟩ := operator
  rcases Grammar.standard_operator_cases hkind with hrule | ⟨hparen, hoperator⟩
  · obtain rfl : rule = .binary := hrule
    simp only [Falters, OperatorRule.read, Productions.binary, ends_bind, ends_advance,
      ends_pure]
    exact (hinner.expression operator h.advance).last List.singleton_append.symm
      fun _ => Expr.Begun.binary hlt hkind hleft
  · obtain ⟨rfl, rfl⟩ := Operator.mk.inj hoperator
    simp only [Falters, OperatorRule.read, Productions.call, ends_bind, ends_current, ends_pure]
    exact (hinner.argumentList hsound h.advance).last List.singleton_append.symm
      fun _ => Expr.Begun.call hparen hleft

/-! The productions, in terms of the rules. -/

theorem layer (hinner : Viable inner) (hsound : Sound inner) :
    Viable (layer Grammar.standard inner) where
  statement {cursor tokens finish} h := by
    have hnote := (Cursor.holds_note
      (.statement cursor.current.kind cursor.current.text)).mpr h
    simp only [Falters, Productions.layer, ends_bind, ends_current, ends_note]
    cases hrule : Grammar.standard.statement? cursor.current.kind with
    | none => exact hinner.expressionStatement hnote
    | some rule =>
        obtain ⟨rest, rfl⟩ := h.exists_cons fun heof => by simp [heof, Grammar.standard] at hrule
        rw [Grammar.standard_statement?_iff] at hrule
        cases rule with
        | expression => exact absurd hrule List.not_mem_nil
        | letBinding => exact hinner.letStatement hnote (List.mem_singleton.mp hrule)
        | returning => exact hinner.returnStatement hnote (List.mem_singleton.mp hrule)
        | block => exact hinner.blockStatement hsound hnote (List.mem_singleton.mp hrule)
  statements {cursor tokens finish} h := by
    simp only [Falters, Productions.layer, ends_bind, ends_current, ends_ite, ends_pure,
      ends_skip]
    refine ⟨fun _ => trivial, fun _ => ?_⟩
    apply (hsound.statement h).or_falters (hinner.statement h) (List.nil_append _).symm
      fun _ => Stmt.begunAll_of_begins
    intro stmt used others cursor' hothers hstmt happend
    refine Ends.mono (hinner.statements hothers) (fun _ _ _ => trivial) fun _ _ hstop => ?_
    intro diagnostic hdiagnostic
    obtain ⟨culprit, used', rest, hculprit, rfl, hrest, hused⟩ := hstop diagnostic hdiagnostic
    refine ⟨culprit, used ++ used', rest, hculprit, ?_, hrest, hstmt.begunAll hused⟩
    rw [happend, List.nil_append, List.append_assoc]
  expression power {cursor tokens finish} h := by
    simp only [Falters, Productions.layer, ends_bind, ends_current]
    cases hrule : Grammar.standard.operand? cursor.current.kind with
    | none => exact .of_current rfl h (List.nil_append _).symm (Expr.begun_nil power)
    | some rule =>
        obtain ⟨rest, rfl⟩ := h.exists_cons fun heof => by simp [heof, Grammar.standard] at hrule
        simp only [ends_bind]
        apply (hsound.operandRule power h hrule).or_falters
          (hinner.operandRule hsound power h hrule) (List.nil_append _).symm fun _ hused => hused
        intro left operand others cursor' hothers hleft happend
        exact (hinner.operators hleft hothers).last happend fun _ hused => hused
  operators {power left before cursor tokens finish} hleft h := by
    simp only [Falters, Productions.layer, ends_bind, ends_peek]
    rw [← Cursor.current_advance]
    cases hoperator : Grammar.standard.operator? cursor.advance.current.kind with
    | none => exact trivial
    | some operator =>
        obtain ⟨hne, -⟩ := Grammar.standard_operator_ne hoperator
        obtain ⟨rest, rfl⟩ := h.exists_cons hne
        simp only [ends_ite, ends_bind, ends_skip, ends_pure]
        refine ⟨fun hlt => ?_, fun _ => trivial⟩
        apply (hsound.operatorRule hlt.2 hoperator hleft h).or_falters
          (hinner.operatorRule hsound hlt.2 hoperator hleft h) (List.nil_append _).symm
          fun _ hused => hused
        intro longer used others cursor' hothers hlonger happend
        refine (hinner.operators hlonger hothers).last happend fun more hmore => ?_
        rwa [List.append_assoc] at hmore
  parameters {cursor tokens finish} h := by
    simp only [Falters, Productions.layer, identifier, ends_bind, ends_peek, ends_ite, ends_skip,
      ends_current, ends_pure]
    rw [← Cursor.current_advance]
    refine ⟨fun hcomma => ?_, fun _ => trivial⟩
    obtain ⟨others, rfl⟩ := h.exists_cons (hcomma ▸ by decide)
    apply expect_or_falters (by decide) h.advance List.singleton_append.symm
      (Identifier.WrittenRest.begins_comma hcomma)
    intro name others hname hnames happend
    exact (hinner.parameters hnames.advance).last happend
      fun _ => Identifier.WrittenRest.begins_cons hcomma hname
  arguments {cursor tokens finish} h := by
    simp only [Falters, Productions.layer, ends_bind, ends_peek, ends_ite, ends_skip, ends_pure]
    rw [← Cursor.current_advance]
    refine ⟨fun hcomma => ?_, fun _ => trivial⟩
    obtain ⟨others, rfl⟩ := h.exists_cons (hcomma ▸ by decide)
    apply (hsound.expression_inside h.advance).or_falters
      (hinner.expression_inside h.advance) List.singleton_append.symm
      fun _ => Expr.WrittenRest.begins_first hcomma
    intro first firsts others cursor' hothers hform happend
    exact (hinner.arguments hothers).last happend
      fun _ => Expr.WrittenRest.begins_cons hcomma hform.1

theorem toDepth (depth : Nat) :
    Viable (toDepth Grammar.standard depth : Productions σ) := by
  induction depth with
  | zero =>
      constructor
      all_goals intros
      all_goals exact .exhausted
  | succ depth ih => exact ih.layer (Sound.toDepth depth)

end Viable

theorem tied_statement_falters {cursor : Cursor σ} {tokens : List Token} {finish : Token}
    (h : cursor.Holds tokens finish) :
    Falters (tied Grammar.standard).statement (Begins Stmt.Written) tokens finish cursor := by
  rw [Falters, Reader.ends_congr (tied_statement Grammar.standard cursor)]
  exact (Viable.toDepth (sufficientDepth cursor)).statement h

end Productions

end MonkeySyntax
