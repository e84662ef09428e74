import MonkeySyntax.Proofs.Written.Joins

namespace MonkeySyntax

/-! Tokens that begin something that can be written: others can be put after them that
complete it. -/

/-- The tokens are the first ones of something of the form. -/
def Begins {α : Type} (form : α → List Token → Prop) (used : List Token) : Prop :=
  ∃ value more, form value (used ++ more)

section Forms

variable {α : Type} {form form' : α → List Token → Prop} {value : α}
  {used tokens : List Token}

theorem Begins.of_start (h : form value tokens) (hstart : used <+: tokens) :
    Begins form used := by
  obtain ⟨more, rfl⟩ := hstart
  exact ⟨value, more, h⟩

theorem Begins.of_form (h : form value used) : Begins form used :=
  .of_start h (List.prefix_refl used)

theorem Begins.shorten (h : Begins form tokens) (hstart : used <+: tokens) :
    Begins form used := by
  obtain ⟨value, others, h⟩ := h
  exact .of_start h (hstart.trans (List.prefix_append tokens others))

theorem Begins.mono (h : Begins form used)
    (hform : ∀ value tokens, form value tokens → form' value tokens) : Begins form' used := by
  obtain ⟨value, more, h⟩ := h
  exact ⟨value, more, hform _ _ h⟩

end Forms

/-- The tokens begin an expression that a reader which goes on past operators above the power
takes as a whole. -/
abbrev Expr.Begun (power : BindingPower) : List Token → Prop :=
  Begins (Expr.Written (Expr.Joins power .eof))

abbrev Expr.BegunInside : List Token → Prop :=
  Begins (Expr.Written Expr.FitsInside)

/-- The tokens begin the statements of a block or a program, and complete themselves if there
are none. -/
def Stmt.BegunAll (used : List Token) : Prop :=
  ∃ stmts more, Stmt.WrittenAll stmts (used ++ more) ∧ (used = [] → more = [])

/-- A token to complete what has been read with. -/
def Token.filler (kind : Kind) : Token :=
  .unplaced kind "x"

theorem Token.kind_filler (kind : Kind) : (filler kind).kind = kind := rfl

open Token (filler kind_filler)

/-! Where nothing has been read, a name does for an expression, and braces for a block. -/

theorem Expr.begun_nil (power : BindingPower) : Expr.Begun power [] :=
  .of_start (.bare (.identifier (kind_filler .identifier)) trivial) List.nil_prefix

theorem Block.begins_nil : Begins Block.Written [] :=
  .of_start (.braces (kind_filler .openCurly) .nil (kind_filler .closeCurly)) List.nil_prefix

variable {power operator : BindingPower} {token opening closing : Token}
  {before used : List Token}

theorem Expr.Begun.inside (h : Expr.Begun power used) : Expr.BegunInside used :=
  h.mono fun _ _ hwritten => hwritten.mono fun _ _ => trivial

/-! Expressions. -/

namespace Expr.Begun

theorem unary (hkind : token.kind = .not ∨ token.kind = .dash)
    (h : Expr.Begun .unary used) : Expr.Begun power ([token] ++ used) := by
  obtain ⟨operand, more, h⟩ := h
  have hoperand := h.mono Expr.Joins.fitsOperand
  exact .of_start (.bare (.unary hkind hoperand) nofun) ⟨more, rfl⟩

theorem grouping (hkind : token.kind = .openParen) (h : Expr.BegunInside used) :
    Expr.Begun power ([token] ++ used) := by
  obtain ⟨value, more, h⟩ := h
  exact .of_start (.grouped hkind h (kind_filler .closeParen))
    ⟨more ++ [filler .closeParen], by simp⟩

section Conditions

variable {condition : Expr} {conditions consequences : List Token} {consequence : Block}

theorem ifElse_alternative (hkind : token.kind = .ifWord) (hopening : opening.kind = .openParen)
    (hcondition : condition.Written FitsInside conditions)
    (hclosing : closing.kind = .closeParen) (hconsequence : consequence.Written consequences)
    (h : Begins Block.WrittenElse used) :
    Expr.Begun power
      ([token, opening] ++ conditions ++ [closing] ++ consequences ++ used) := by
  obtain ⟨alternative?, more, h⟩ := h
  exact .of_start (.bare (.ifElse hkind hopening hcondition hclosing hconsequence h) trivial)
    ⟨more, by simp⟩

theorem ifElse_consequence (hkind : token.kind = .ifWord) (hopening : opening.kind = .openParen)
    (hcondition : condition.Written FitsInside conditions)
    (hclosing : closing.kind = .closeParen) (h : Begins Block.Written used) :
    Expr.Begun power ([token, opening] ++ conditions ++ [closing] ++ used) := by
  obtain ⟨consequence, more, h⟩ := h
  exact .of_start (.bare (.ifElse hkind hopening hcondition hclosing h .none) trivial)
    ⟨more, by simp⟩

theorem ifElse_condition (hkind : token.kind = .ifWord) (hopening : opening.kind = .openParen)
    (h : Expr.BegunInside used) : Expr.Begun power ([token, opening] ++ used) := by
  obtain ⟨condition, more, h⟩ := h
  have hall : Expr.Begun power ([token, opening] ++ (used ++ more) ++ [filler .closeParen] ++ []) :=
    ifElse_consequence hkind hopening h (kind_filler .closeParen) Block.begins_nil
  exact hall.shorten ⟨more ++ [filler .closeParen], by simp⟩

theorem ifElse (hkind : token.kind = .ifWord) : Expr.Begun power [token] :=
  (ifElse_condition hkind (kind_filler .openParen) (Expr.begun_nil .lowest).inside).shorten ⟨_, rfl⟩

end Conditions

theorem function_body (hkind : token.kind = .fnWord) (hopening : opening.kind = .openParen)
    {parameters : List Identifier} {names : List Token}
    (hparameters : Identifier.WrittenAll parameters names)
    (hclosing : closing.kind = .closeParen) (h : Begins Block.Written used) :
    Expr.Begun power ([token, opening] ++ names ++ [closing] ++ used) := by
  obtain ⟨body, more, h⟩ := h
  exact .of_start (.bare (.function hkind hopening hparameters hclosing h) trivial)
    ⟨more, by simp⟩

theorem function_parameters (hkind : token.kind = .fnWord)
    (hopening : opening.kind = .openParen) (h : Begins Identifier.WrittenAll used) :
    Expr.Begun power ([token, opening] ++ used) := by
  obtain ⟨parameters, more, h⟩ := h
  have hall : Expr.Begun power ([token, opening] ++ (used ++ more) ++ [filler .closeParen] ++ []) :=
    function_body hkind hopening h (kind_filler .closeParen) Block.begins_nil
  exact hall.shorten ⟨more ++ [filler .closeParen], by simp⟩

theorem function (hkind : token.kind = .fnWord) : Expr.Begun power [token] :=
  (function_parameters hkind (kind_filler .openParen) (.of_form .nil)).shorten ⟨_, rfl⟩

theorem binary {left : Expr} (hlt : power < operator)
    (hkind : Grammar.standard.operator? token.kind = some ⟨operator, .binary⟩)
    (hleft : left.Written (Joins power token.kind) before) (h : Expr.Begun operator used) :
    Expr.Begun power (before ++ ([token] ++ used)) := by
  obtain ⟨right, more, h⟩ := h
  have hlefts := hleft.mono fun _ hjoins => hjoins.fitsLeft hkind
  have hrights := h.mono fun _ hjoins => hjoins.fitsRight
  have hall := Expr.Bare.binary hkind hlefts hrights
  refine .of_start (.bare hall ⟨?_, Nat.not_lt_zero _⟩) ⟨more, by simp⟩
  rwa [Grammar.standard_power_of_binary hkind]

theorem call {callee : Expr} (hkind : token.kind = .openParen)
    (hcallee : callee.Written (Joins power token.kind) before)
    (h : Begins Expr.WrittenAll used) : Expr.Begun power (before ++ ([token] ++ used)) := by
  obtain ⟨arguments, more, h⟩ := h
  rw [hkind] at hcallee
  have hall := Expr.Bare.call (hcallee.mono Expr.Joins.fitsCallee) hkind h
    (kind_filler .closeParen)
  exact .of_start (.bare hall trivial) ⟨more ++ [filler .closeParen], by simp⟩

end Expr.Begun

/-! Names and values between parentheses. -/

theorem Identifier.WrittenRest.begins_cons {name : Token} (hcomma : token.kind = .comma)
    (hname : name.kind = .identifier) (h : Begins Identifier.WrittenRest used) :
    Begins Identifier.WrittenRest ([token, name] ++ used) := by
  obtain ⟨names, more, h⟩ := h
  exact .of_start (.cons hcomma hname h) ⟨more, rfl⟩

theorem Identifier.WrittenRest.begins_comma (hcomma : token.kind = .comma) :
    Begins Identifier.WrittenRest [token] :=
  (begins_cons hcomma (kind_filler .identifier) (.of_form .nil)).shorten ⟨_, rfl⟩

theorem Identifier.WrittenAll.begins_cons (hname : token.kind = .identifier)
    (h : Begins Identifier.WrittenRest used) :
    Begins Identifier.WrittenAll ([token] ++ used) := by
  obtain ⟨names, more, h⟩ := h
  exact .of_start (.cons hname h) ⟨more, rfl⟩

theorem Expr.WrittenRest.begins_cons (hcomma : token.kind = .comma) {first : Expr}
    {firsts : List Token} (hfirst : first.Written Expr.FitsInside firsts)
    (h : Begins Expr.WrittenRest used) :
    Begins Expr.WrittenRest ([token] ++ firsts ++ used) := by
  obtain ⟨exprs, more, h⟩ := h
  exact .of_start (.cons hcomma hfirst h) ⟨more, by simp⟩

theorem Expr.WrittenRest.begins_first (hcomma : token.kind = .comma)
    (h : Expr.BegunInside used) : Begins Expr.WrittenRest ([token] ++ used) := by
  obtain ⟨first, more, h⟩ := h
  exact .of_start (.cons hcomma h .nil) ⟨more, by simp⟩

theorem Expr.WrittenAll.begins_cons {first : Expr} {firsts : List Token}
    (hfirst : first.Written Expr.FitsInside firsts) (h : Begins Expr.WrittenRest used) :
    Begins Expr.WrittenAll (firsts ++ used) := by
  obtain ⟨exprs, more, h⟩ := h
  exact .of_start (.cons hfirst h) ⟨more, by simp⟩

theorem Expr.WrittenAll.begins_first (h : Expr.BegunInside used) :
    Begins Expr.WrittenAll used := by
  obtain ⟨first, more, h⟩ := h
  exact .of_start (.cons h .nil) ⟨more, by simp⟩

/-! Blocks and statements. -/

theorem Block.begins_statements (hopening : opening.kind = .openCurly)
    (h : Stmt.BegunAll used) : Begins Block.Written ([opening] ++ used) := by
  obtain ⟨stmts, more, h, -⟩ := h
  exact .of_start (.braces hopening h (kind_filler .closeCurly))
    ⟨more ++ [filler .closeCurly], by simp⟩

theorem Block.begins_else (hword : token.kind = .elseWord) (h : Begins Block.Written used) :
    Begins Block.WrittenElse ([token] ++ used) := by
  obtain ⟨body, more, h⟩ := h
  exact .of_start (.some hword h) ⟨more, rfl⟩

namespace Stmt

theorem begins_value {name sign : Token} (hkind : token.kind = .letWord)
    (hname : name.kind = .identifier) (hsign : sign.kind = .assignment)
    (h : Expr.BegunInside used) : Begins Stmt.Written ([token, name, sign] ++ used) := by
  obtain ⟨value, more, h⟩ := h
  exact .of_start (.letBinding hkind hname hsign h) ⟨more, rfl⟩

theorem begins_sign {name : Token} (hkind : token.kind = .letWord)
    (hname : name.kind = .identifier) : Begins Stmt.Written [token, name] :=
  (begins_value hkind hname (kind_filler .assignment)
    (Expr.begun_nil .lowest).inside).shorten ⟨_, rfl⟩

theorem begins_name (hkind : token.kind = .letWord) : Begins Stmt.Written [token] :=
  (begins_sign hkind (kind_filler .identifier)).shorten ⟨_, rfl⟩

theorem begins_returnedValue (hkind : token.kind = .returnWord) (h : Expr.BegunInside used) :
    Begins Stmt.Written ([token] ++ used) := by
  obtain ⟨value, more, h⟩ := h
  exact .of_start (.returningValue hkind h) ⟨more, rfl⟩

theorem begins_expression (h : Expr.BegunInside used) : Begins Stmt.Written used := by
  obtain ⟨value, more, h⟩ := h
  generalize htokens : used ++ more = tokens at h
  cases tokens with
  | nil => exact absurd rfl h.starts.ne_eof
  | cons first rest => exact .of_start (.expression h) ⟨more, htokens⟩

theorem begins_block (h : Begins Block.Written used) : Begins Stmt.Written used := by
  obtain ⟨body, more, h⟩ := h
  exact .of_start (.block h) ⟨more, rfl⟩

theorem begunAll_of_begins (h : Begins Stmt.Written used) : Stmt.BegunAll used := by
  cases used with
  | nil => exact ⟨[], [], .nil, fun _ => rfl⟩
  | cons first rest =>
      obtain ⟨stmt, more, h⟩ := h
      have hall := Stmt.WrittenAll.abutting h stmt.mayAbut_nil .nil
      rw [List.append_nil] at hall
      exact ⟨[stmt], more, hall, fun hnil => absurd hnil (List.cons_ne_nil _ _)⟩

end Stmt

end MonkeySyntax
