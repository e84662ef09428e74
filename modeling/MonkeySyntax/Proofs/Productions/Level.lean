import MonkeySyntax.Parser.Recursion
import MonkeySyntax.Proofs.Cursor.Nesting
import MonkeySyntax.Proofs.Reader
import MonkeySyntax.Proofs.Written.Tokens

namespace MonkeySyntax

open Reader

/-! The blocks that a cursor has counted are the blocks that are open around it, while
balanced tokens are read.  The brace that closes a block has been counted when the block has
been read, although it is still current. -/

/-- A token of the kind neither opens nor closes a block, and is not the end. -/
def Kind.Plain (kind : Kind) : Prop :=
  kind ≠ .eof ∧ kind ≠ .openCurly ∧ kind ≠ .closeCurly
deriving Decidable

theorem Grammar.standard_operand_plain {kind : Kind} {rule : OperandRule}
    (h : standard.operand? kind = some rule) : kind.Plain := by
  cases kind with
  | eof | openCurly | closeCurly => cases h
  | _ => decide

theorem Grammar.standard_operator_plain {kind : Kind} {operator : Operator}
    (h : standard.operator? kind = some operator) : kind.Plain := by
  cases kind with
  | eof | openCurly | closeCurly => cases h
  | _ => decide

variable {σ : Type} [TokenSource σ]

namespace Cursor

/-- The cursor has counted the blocks that are open before its current token. -/
def Level (finish : Token) (cursor : Cursor σ) : Prop :=
  cursor.Nested finish cursor.depth.blocks

/-- The cursor has counted the blocks that are open after its current token, which opens
none. -/
def LevelPast (finish : Token) (cursor : Cursor σ) : Prop :=
  cursor.current.kind ≠ .eof ∧ cursor.current.kind ≠ .openCurly ∧
    ∃ rest, cursor.Holds (cursor.current :: rest) finish ∧ Token.Balanced cursor.depth.blocks rest

/-- A closing parenthesis is missed right after a block. -/
def BlockUnclosed (diagnostic : Diagnostic) (cursor : Cursor σ) : Prop :=
  cursor.current.kind = .closeCurly ∧
    ∃ found, diagnostic.fault = .unclosedDelimiter .closeParen found

/-- Where a reader stops, the current token has been counted only if it closes a block that a
closing parenthesis has to follow. -/
def Faults (finish : Token) : Stop → Cursor σ → Prop
  | .fault diagnostic, cursor =>
    cursor.BlockUnclosed diagnostic ∧ cursor.LevelPast finish ∨
      ¬ cursor.BlockUnclosed diagnostic ∧ cursor.Level finish
  | .exhausted, _ => True

variable {cursor : Cursor σ} {finish : Token}

theorem level_note (entry : Journal.Entry) :
    (cursor.note entry).Level finish ↔ cursor.Level finish := by
  simp only [Level, Nested, holds_note]
  rfl

theorem Level.past (h : cursor.Level finish) (hkind : cursor.current.kind.Plain) :
    cursor.LevelPast finish := by
  obtain ⟨tokens, hholds, hbalanced⟩ := h
  obtain ⟨rest, rfl⟩ := hholds.exists_cons hkind.1
  refine ⟨hkind.1, hkind.2.1, rest, hholds, ?_⟩
  have hrest := (Token.balanced_cons.mp hbalanced).2
  generalize cursor.current.kind = kind at hkind hrest
  cases kind with
  | eof => exact absurd rfl hkind.1
  | openCurly => exact absurd rfl hkind.2.1
  | closeCurly => exact absurd rfl hkind.2.2
  | _ => exact hrest

theorem LevelPast.level (h : cursor.LevelPast finish)
    (hclose : cursor.current.kind ≠ .closeCurly) : cursor.Level finish := by
  obtain ⟨heof, hopen, rest, hholds, hbalanced⟩ := h
  refine ⟨_, hholds, Token.balanced_cons.mpr ⟨fun hkind => absurd hkind hclose, ?_⟩⟩
  generalize cursor.current.kind = kind at heof hopen hclose
  cases kind with
  | openCurly => exact absurd rfl hopen
  | closeCurly => exact absurd rfl hclose
  | _ => exact hbalanced

theorem LevelPast.advance (h : cursor.LevelPast finish) : cursor.advance.Level finish := by
  obtain ⟨-, -, rest, hholds, hbalanced⟩ := h
  exact ⟨rest, hholds.advance, hbalanced⟩

theorem Level.advance (h : cursor.Level finish) (hkind : cursor.current.kind.Plain) :
    cursor.advance.Level finish :=
  (h.past hkind).advance

theorem Level.enter (h : cursor.Level finish) (hkind : cursor.current.kind = .openCurly)
    {depth : Depth} (henter : cursor.advance.depth.enter? = some depth) :
    { cursor.advance with depth }.Level finish := by
  obtain ⟨tokens, hholds, hbalanced⟩ := h
  obtain ⟨rest, rfl⟩ := hholds.exists_cons (hkind ▸ by decide)
  have hrest := (Token.balanced_cons.mp hbalanced).2
  rw [hkind] at hrest
  refine ⟨rest, (holds_withDepth _).mpr hholds.advance, ?_⟩
  rw [Depth.blocks_enter? henter]
  exact hrest

theorem Level.leave (h : cursor.Level finish) (hkind : cursor.current.kind = .closeCurly) :
    { cursor with depth := cursor.depth.leave }.LevelPast finish := by
  obtain ⟨tokens, hholds, hbalanced⟩ := h
  obtain ⟨rest, rfl⟩ := hholds.exists_cons (hkind ▸ by decide)
  have hrest := (Token.balanced_cons.mp hbalanced).2
  rw [hkind] at hrest
  exact ⟨hkind ▸ by decide, hkind ▸ by decide, rest, (holds_withDepth _).mpr hholds, hrest⟩

theorem Level.faults (h : cursor.Level finish) {diagnostic : Diagnostic}
    (hfault : ∀ found, diagnostic.fault ≠ .unclosedDelimiter .closeParen found) :
    cursor.Faults finish (.fault diagnostic) := by
  refine .inr ⟨?_, h⟩
  intro hblock
  obtain ⟨found, hfound⟩ := hblock.2
  exact hfault found hfound

end Cursor

namespace Productions

open Cursor

/-- The reader starts at its cursor's current token, or goes on after it, and leaves the last
token that it reads current. -/
abbrev KeepsLevel {α : Type} (reader : Reader σ α) (finish : Token) (cursor : Cursor σ) :
    Prop :=
  Ends reader (fun _ cursor' => cursor'.LevelPast finish) (Faults finish) cursor

variable {cursor : Cursor σ} {finish : Token}

theorem expect_level {kind : Kind} {returns : Unit → Cursor σ → Prop}
    (h : cursor.LevelPast finish)
    (hkind : kind = .closeParen ∨ cursor.current.kind ≠ .closeCurly)
    (hreturns : cursor.advance.Level finish → cursor.advance.current.kind = kind →
      returns () cursor.advance) :
    Ends (expect kind) returns (Faults finish) cursor := by
  rw [ends_expect]
  refine ⟨fun hpeek => hreturns h.advance hpeek, fun _ => ?_⟩
  -- A closing brace that is current has been counted: a block ends with it.
  by_cases hclose : cursor.current.kind = .closeCurly
  · obtain rfl := hkind.resolve_right fun hne => hne hclose
    exact .inl ⟨⟨hclose, _, rfl⟩, h⟩
  · exact .inr ⟨fun hblock => hclose hblock.1, h.level hclose⟩

theorem expect_past {kind : Kind} {returns : Unit → Cursor σ → Prop} (hplain : kind.Plain)
    (h : cursor.LevelPast finish)
    (hkind : kind = .closeParen ∨ cursor.current.kind ≠ .closeCurly)
    (hreturns : cursor.advance.LevelPast finish →
      cursor.advance.current.kind ≠ .closeCurly → returns () cursor.advance) :
    Ends (expect kind) returns (Faults finish) cursor := by
  apply expect_level h hkind
  intro hlevel hcurrent
  rw [← hcurrent] at hplain
  exact hreturns (hlevel.past hplain) hplain.2.2

/-- All productions keep count, wherever the tokens ahead are balanced. -/
structure Levelled (inner : Productions σ) : Prop where
  statement {cursor : Cursor σ} {finish : Token} (h : cursor.Level finish) :
    KeepsLevel inner.statement finish cursor
  statements {cursor : Cursor σ} {finish : Token} (h : cursor.Level finish) :
    Ends inner.statements (fun _ cursor' => cursor'.Level finish ∧
      (cursor'.current.kind = .closeCurly ∨ cursor'.current.kind = .eof))
      (Faults finish) cursor
  expression (power : BindingPower) {cursor : Cursor σ} {finish : Token}
    (h : cursor.Level finish) : KeepsLevel (inner.expression power) finish cursor
  operators (power : BindingPower) (left : Expr) {cursor : Cursor σ} {finish : Token}
    (h : cursor.LevelPast finish) : KeepsLevel (inner.operators power left) finish cursor
  parameters {cursor : Cursor σ} {finish : Token} (h : cursor.LevelPast finish) :
    KeepsLevel inner.parameters finish cursor
  arguments {cursor : Cursor σ} {finish : Token} (h : cursor.LevelPast finish) :
    KeepsLevel inner.arguments finish cursor

namespace Levelled

variable {inner : Productions σ}

/-! Statements. -/

theorem block (hinner : Levelled inner) (h : cursor.Level finish)
    (hkind : cursor.current.kind = .openCurly) : KeepsLevel inner.block finish cursor := by
  simp only [KeepsLevel, Productions.block, ends_bind, ends_advance, ends_enterBlock,
    ends_current, ends_ite, ends_fail, ends_leaveBlock, ends_pure]
  refine ⟨fun depth henter => ?_, fun _ => trivial⟩
  apply (hinner.statements (h.enter hkind henter)).then
  intro _ cursor' hstatements
  obtain ⟨hlevel, hlast⟩ := hstatements
  constructor
  · intro _
    exact hlevel.faults (by simp)
  · intro hne
    exact hlevel.leave (hlast.resolve_right hne)

theorem endStatement (h : cursor.LevelPast finish) :
    KeepsLevel Reader.endStatement finish cursor := by
  rw [KeepsLevel, ends_endStatement]
  constructor
  · intro hpeek
    exact h.advance.past (hpeek ▸ by decide)
  · intro _
    exact h

theorem expressionStatement (hinner : Levelled inner) (h : cursor.Level finish) :
    KeepsLevel inner.expressionStatement finish cursor := by
  simp only [KeepsLevel, Productions.expressionStatement, ends_bind, ends_current, ends_pure]
  apply (hinner.expression .lowest h).then
  intro _ cursor' hvalue
  exact endStatement hvalue

theorem letStatement (hinner : Levelled inner) (h : cursor.LevelPast finish)
    (hkind : cursor.current.kind ≠ .closeCurly) :
    KeepsLevel inner.letStatement finish cursor := by
  simp only [KeepsLevel, Productions.letStatement, ends_bind, ends_current, ends_skip,
    ends_pure]
  apply expect_past (by decide) h (.inr hkind)
  intro hname hnot
  apply expect_past (by decide) hname (.inr hnot)
  intro hsign _
  apply (hinner.expression .lowest hsign.advance).then
  intro _ cursor' hvalue
  exact endStatement hvalue

theorem returnStatement (hinner : Levelled inner) (h : cursor.LevelPast finish) :
    KeepsLevel inner.returnStatement finish cursor := by
  simp only [KeepsLevel, Productions.returnStatement, Productions.returnedValue, ends_bind,
    ends_current, ends_peek, ends_ite, ends_skip, ends_pure]
  constructor
  · intro _
    exact endStatement h
  · intro _
    apply (hinner.expression .lowest h.advance).then
    intro _ cursor' hvalue
    exact endStatement hvalue

theorem blockStatement (hinner : Levelled inner) (h : cursor.Level finish)
    (hkind : cursor.current.kind = .openCurly) :
    KeepsLevel inner.blockStatement finish cursor := by
  simp only [KeepsLevel, Productions.blockStatement, ends_bind, ends_pure]
  apply (hinner.block h hkind).then
  intro _ cursor' hbody
  exact endStatement hbody

/-! Operands. -/

theorem alternative (hinner : Levelled inner) (h : cursor.LevelPast finish) :
    KeepsLevel inner.alternative finish cursor := by
  simp only [KeepsLevel, Productions.alternative, ends_bind, ends_peek, ends_ite, ends_skip,
    ends_pure]
  constructor
  · intro hword
    have hplain : cursor.advance.current.kind.Plain := hword ▸ by decide
    apply expect_level (h.advance.past hplain) (.inr hplain.2.2)
    intro hlevel hbrace
    exact hinner.block hlevel hbrace
  · intro _
    exact h

theorem ifElse (hinner : Levelled inner) (h : cursor.LevelPast finish)
    (hkind : cursor.current.kind ≠ .closeCurly) : KeepsLevel inner.ifElse finish cursor := by
  simp only [KeepsLevel, Productions.ifElse, ends_bind, ends_current, ends_skip, ends_pure]
  apply expect_past (by decide) h (.inr hkind)
  intro hopening _
  apply (hinner.expression .lowest hopening.advance).then
  intro _ cursor₁ hcondition
  apply expect_past (by decide) hcondition (.inl rfl)
  intro hclosing hnot
  apply expect_level hclosing (.inr hnot)
  intro hlevel hbrace
  apply (hinner.block hlevel hbrace).then
  intro _ cursor₂ hconsequence
  exact hinner.alternative hconsequence

theorem parameterList (hinner : Levelled inner) (h : cursor.LevelPast finish)
    (hkind : cursor.current.kind ≠ .closeCurly) :
    Ends inner.parameterList (fun _ cursor' => cursor'.LevelPast finish ∧
      cursor'.current.kind ≠ .closeCurly) (Faults finish) cursor := by
  simp only [Productions.parameterList, Productions.identifier, ends_bind, ends_peek,
    ends_ite, ends_skip, ends_current, ends_pure]
  constructor
  · intro hpeek
    have hplain : cursor.advance.current.kind.Plain := hpeek ▸ by decide
    exact ⟨h.advance.past hplain, hplain.2.2⟩
  · intro _
    apply expect_past (by decide) h (.inr hkind)
    intro hname _
    apply (hinner.parameters hname).then
    intro _ cursor' hnames
    apply expect_past (by decide) hnames (.inl rfl)
    intro hclosing hnot
    exact ⟨hclosing, hnot⟩

theorem function (hinner : Levelled inner) (h : cursor.LevelPast finish)
    (hkind : cursor.current.kind ≠ .closeCurly) : KeepsLevel inner.function finish cursor := by
  simp only [KeepsLevel, Productions.function, ends_bind, ends_current, ends_pure]
  apply expect_past (by decide) h (.inr hkind)
  intro hopening hnot
  apply (hinner.parameterList hopening hnot).then
  intro _ cursor' hparameters
  obtain ⟨hclosing, hnot⟩ := hparameters
  apply expect_level hclosing (.inr hnot)
  intro hlevel hbrace
  exact hinner.block hlevel hbrace

theorem operandRule (hinner : Levelled inner) {rule : OperandRule} (h : cursor.Level finish)
    (hrule : Grammar.standard.operand? cursor.current.kind = some rule) :
    KeepsLevel (rule.read inner) finish cursor := by
  have hplain := Grammar.standard_operand_plain hrule
  have hpast := h.past hplain
  cases rule with
  | identifier => exact hpast
  | integer =>
      simp only [KeepsLevel, OperandRule.read, integer, ends_bind, ends_current]
      cases Numeral.value? cursor.current.text with
      | none => exact h.faults (by simp)
      | some value => exact hpast
  | boolean => exact hpast
  | unary =>
      simp only [KeepsLevel, OperandRule.read, unary, ends_bind, ends_advance, ends_pure]
      exact hinner.expression .unary hpast.advance
  | grouping =>
      simp only [KeepsLevel, OperandRule.read, grouping, ends_bind, ends_skip, ends_pure]
      apply (hinner.expression .lowest hpast.advance).then
      intro _ cursor' hvalue
      apply expect_past (by decide) hvalue (.inl rfl)
      intro hclosing _
      exact hclosing
  | ifElse => exact hinner.ifElse hpast hplain.2.2
  | function => exact hinner.function hpast hplain.2.2

/-! Operators. -/

theorem argumentList (hinner : Levelled inner) (h : cursor.LevelPast finish) :
    KeepsLevel inner.argumentList finish cursor := by
  simp only [KeepsLevel, Productions.argumentList, ends_bind, ends_peek, ends_ite, ends_skip,
    ends_pure]
  constructor
  · intro hpeek
    exact h.advance.past (hpeek ▸ by decide)
  · intro _
    apply (hinner.expression .lowest h.advance).then
    intro _ cursor₁ hfirst
    apply (hinner.arguments hfirst).then
    intro _ cursor₂ hrest
    apply expect_past (by decide) hrest (.inl rfl)
    intro hclosing _
    exact hclosing

theorem operatorRule (hinner : Levelled inner) (left : Expr) (power : BindingPower)
    (rule : OperatorRule) (h : cursor.LevelPast finish) :
    KeepsLevel (rule.read inner left power) finish cursor := by
  cases rule with
  | binary =>
      simp only [KeepsLevel, OperatorRule.read, binary, ends_bind, ends_advance, ends_pure]
      exact hinner.expression power h.advance
  | call =>
      simp only [KeepsLevel, OperatorRule.read, call, ends_bind, ends_current, ends_pure]
      exact hinner.argumentList h

/-! The productions, in terms of the rules. -/

theorem layer (hinner : Levelled inner) : Levelled (layer Grammar.standard inner) where
  statement {cursor finish} h := by
    have hnote := (level_note (.statement cursor.current.kind cursor.current.text)).mpr h
    simp only [KeepsLevel, Productions.layer, ends_bind, ends_current, ends_note]
    cases hrule : Grammar.standard.statement? cursor.current.kind with
    | none => exact hinner.expressionStatement hnote
    | some rule =>
        rw [Grammar.standard_statement?_iff] at hrule
        cases rule with
        | expression => exact absurd hrule List.not_mem_nil
        | letBinding =>
            have hplain : cursor.current.kind.Plain := List.mem_singleton.mp hrule ▸ by decide
            exact hinner.letStatement (hnote.past hplain) hplain.2.2
        | returning =>
            have hplain : cursor.current.kind.Plain := List.mem_singleton.mp hrule ▸ by decide
            exact hinner.returnStatement (hnote.past hplain)
        | block => exact hinner.blockStatement hnote (List.mem_singleton.mp hrule)
  statements h := by
    simp only [Productions.layer, ends_bind, ends_current, ends_ite, ends_pure, ends_skip]
    constructor
    · intro hlast
      exact ⟨h, hlast⟩
    · intro _
      apply (hinner.statement h).then
      intro _ cursor' hfirst
      exact hinner.statements hfirst.advance
  expression power cursor finish h := by
    simp only [KeepsLevel, Productions.layer, ends_bind, ends_current]
    cases hrule : Grammar.standard.operand? cursor.current.kind with
    | none => exact h.faults (by simp)
    | some rule =>
        simp only [ends_bind]
        apply (hinner.operandRule h hrule).then
        intro left cursor' hleft
        exact hinner.operators power left hleft
  operators power left cursor finish h := by
    simp only [KeepsLevel, Productions.layer, ends_bind, ends_peek]
    cases hoperator : Grammar.standard.operator? cursor.peek.kind with
    | none => exact h
    | some operator =>
        simp only [ends_ite, ends_bind, ends_skip, ends_pure]
        constructor
        · intro _
          have hpast := h.advance.past (Grammar.standard_operator_plain hoperator)
          apply (hinner.operatorRule left operator.power operator.rule hpast).then
          intro longer cursor' hlonger
          exact hinner.operators power longer hlonger
        · intro _
          exact h
  parameters {cursor finish} h := by
    simp only [KeepsLevel, Productions.layer, identifier, ends_bind, ends_peek, ends_ite,
      ends_skip, ends_current, ends_pure]
    constructor
    · intro hcomma
      have hplain : cursor.advance.current.kind.Plain := hcomma ▸ by decide
      apply expect_past (by decide) (h.advance.past hplain) (.inr hplain.2.2)
      intro hname _
      exact hinner.parameters hname
    · intro _
      exact h
  arguments h := by
    simp only [KeepsLevel, Productions.layer, ends_bind, ends_peek, ends_ite, ends_skip,
      ends_pure]
    constructor
    · intro hcomma
      have hlevel := h.advance.advance (hcomma ▸ by decide)
      apply (hinner.expression .lowest hlevel).then
      intro _ cursor₁ hfirst
      exact hinner.arguments hfirst
    · intro _
      exact h

theorem toDepth (depth : Nat) :
    Levelled (toDepth Grammar.standard depth : Productions σ) := by
  induction depth with
  | zero =>
      constructor
      all_goals intros
      all_goals exact trivial
  | succ depth ih => exact ih.layer

end Levelled

end Productions

end MonkeySyntax
