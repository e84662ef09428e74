import Mathlib.Data.List.Basic
import MonkeySyntax.Proofs.Written.Joins

namespace MonkeySyntax

/-! Programs that stand one after the other.  What comes first is a program still, and where a
token that starts an expression also goes on with one, the first statement of the second program
turns into the rest of the last statement of the first. -/

namespace Expr

variable {expr before : Expr} {tokens befores more : List Token} {power operator : BindingPower}
  {next : Kind}

theorem Written.fitsRight_lowest (h : expr.Written FitsInside tokens) :
    expr.Written (FitsRight .lowest) tokens := by
  have hend : Grammar.standard.power .eof = .lowest := rfl
  exact h.mono fun hbare _ => (hbare.joins_lowest hend).fitsRight

/-- Any expression that ends where a token of the kind comes next can be the left part of a
longer one, which has the tokens at its end. -/
def GoesOn (next : Kind) (more : List Token) : Prop :=
  ∀ {left : Expr} {lefts : List Token}, left.Written (Joins .lowest next) lefts →
    ∃ longer : Expr, longer.Bare (lefts ++ more) ∧
      ∀ power, power < Grammar.standard.power next → longer.FitsRight power

theorem goesOn_binary {token : Token} {right : Expr} {rights : List Token}
    (hkind : Grammar.standard.operator? token.kind = some ⟨operator, .binary⟩)
    (hright : right.Written (FitsRight operator) rights) :
    GoesOn token.kind (token :: rights) := by
  intro left lefts hleft
  have hlefts := hleft.mono fun _ hjoins => hjoins.fitsLeft hkind
  exact ⟨.binary token left token.text right, .binary hkind hlefts hright, fun _ hlt => hlt⟩

theorem goesOn_call {opening closing : Token} {arguments : List Expr} {values : List Token}
    (hopening : opening.kind = .openParen) (harguments : Expr.WrittenAll arguments values)
    (hclosing : closing.kind = .closeParen) :
    GoesOn opening.kind (opening :: (values ++ [closing])) := by
  intro left lefts hleft
  rw [hopening] at hleft
  have hlefts := hleft.mono Joins.fitsCallee
  exact ⟨.call opening left arguments, .call hlefts hopening harguments hclosing,
    fun _ _ => trivial⟩

/-- The tokens go on with the innermost expression at the end that binds less tightly than the
first of them: all that is around it keeps its place. -/
theorem exists_longer (hmore : GoesOn next more) (expr : Expr) {power : BindingPower}
    {tokens : List Token} (hlt : power < Grammar.standard.power next)
    (h : expr.Written (FitsRight power) tokens) :
    ∃ longer : Expr, longer.Written (FitsRight power) (tokens ++ more) := by
  have hwhole (hjoins : expr.Written (Joins .lowest next) tokens) :
      ∃ longer : Expr, longer.Written (FitsRight power) (tokens ++ more) := by
    obtain ⟨longer, hlonger, hfits⟩ := hmore hjoins
    exact ⟨longer, .bare hlonger (hfits power hlt)⟩
  cases h with
  | grouped hopening h hclosing => exact hwhole (.grouped hopening h hclosing)
  | bare hbare hfits =>
      have hself := hbare
      cases hbare with
      | @binary token operator left right lefts rights hkind hleft hright =>
          by_cases hinner : operator < Grammar.standard.power next
          · obtain ⟨longer, hlonger⟩ := exists_longer hmore right hinner hright
            refine ⟨.binary token left token.text longer, ?_⟩
            rw [List.append_assoc, List.cons_append]
            exact .bare (.binary hkind hleft hlonger) hfits
          · have hbounds := Grammar.standard_binary_bounds hkind
            rw [← Grammar.standard_power_of_binary hkind] at hinner hbounds
            exact hwhole (.bare hself ⟨hbounds.1, hinner⟩)
      | @unary token operand operands hkind hoperand =>
          by_cases hinner : .unary < Grammar.standard.power next
          · have hoperands : operand.Written (FitsRight .unary) operands :=
              hoperand.mono fun _ hfits => hfits.fitsRight
            obtain ⟨longer, hlonger⟩ := exists_longer hmore operand hinner hoperands
            refine ⟨.unary token token.text longer, ?_⟩
            exact .bare (.unary hkind (hlonger.mono FitsRight.fitsOperand)) trivial
          · refine hwhole (.bare hself ?_)
            rintro rfl
            exact hinner (by decide)
      | _ => exact hwhole (.bare hself trivial)

theorem exists_longer_inside (hmore : GoesOn next more)
    (hlt : .lowest < Grammar.standard.power next) (h : before.Written FitsInside befores) :
    ∃ joined : Expr, joined.Written FitsInside (befores ++ more) := by
  obtain ⟨joined, hjoined⟩ := exists_longer hmore before hlt h.fitsRight_lowest
  exact ⟨joined, hjoined.mono fun _ _ => trivial⟩

theorem exists_longer_binary {token : Token} {right : Expr} {rights : List Token}
    (h : before.Written FitsInside befores)
    (hkind : Grammar.standard.operator? token.kind = some ⟨operator, .binary⟩)
    (hright : right.Written (FitsRight operator) rights) :
    ∃ joined : Expr, joined.Written FitsInside (befores ++ token :: rights) := by
  refine exists_longer_inside (goesOn_binary hkind hright) ?_ h
  rw [Grammar.standard_power_of_binary hkind]
  exact (Grammar.standard_binary_bounds hkind).1

theorem exists_longer_call {opening closing : Token} {arguments : List Expr}
    {values : List Token} (h : before.Written FitsInside befores)
    (hopening : opening.kind = .openParen) (harguments : Expr.WrittenAll arguments values)
    (hclosing : closing.kind = .closeParen) :
    ∃ joined : Expr,
      joined.Written FitsInside (befores ++ opening :: (values ++ [closing])) := by
  refine exists_longer_inside (goesOn_call hopening harguments hclosing) ?_ h
  rw [hopening]
  decide

end Expr

/-- The kinds of the tokens that start an expression, and that also go on with one. -/
def Kind.Joining (kind : Kind) : Prop :=
  kind = .openParen ∨ kind = .dash

namespace Expr

variable {before : Expr} {befores : List Token}

/-! Only the leftmost part of the second expression is taken in a new role, a sign as an operator
or a group as arguments.  What comes after it goes on with the joined expression one operator or
call at a time. -/

mutual

theorem Bare.exists_join {other : Expr} {others : List Token} (h : other.Bare others)
    (hbefore : before.Written FitsInside befores)
    (hjoining : (Token.firstKind others).Joining) :
    ∃ joined : Expr, joined.Written FitsInside (befores ++ others) :=
  match h with
  | .identifier hkind => by simp [Kind.Joining, hkind] at hjoining
  | .integer hkind _ => by simp [Kind.Joining, hkind] at hjoining
  | .boolean hkind => by rcases hkind with hkind | hkind <;> simp [Kind.Joining, hkind] at hjoining
  | @Bare.unary token operand operands hkind hoperand => by
      have hdash : Grammar.standard.operator? token.kind = some ⟨.additive, .binary⟩ := by
        rcases hkind with hkind | hkind
        · simp [Kind.Joining, hkind] at hjoining
        · rw [hkind]
          rfl
      exact exists_longer_binary hbefore hdash (hoperand.mono fun _ hfits => hfits.fitsRight)
  | .binary hkind hleft hright => by
      rw [Token.firstKind_append _ hleft.starts.ne_eof] at hjoining
      obtain ⟨joined, hjoined⟩ := hleft.exists_join hbefore hjoining
      rw [← List.append_assoc]
      exact exists_longer_binary hjoined hkind hright
  | .ifElse hkind _ _ _ _ _ => by simp [Kind.Joining, hkind] at hjoining
  | .function hkind _ _ _ _ => by simp [Kind.Joining, hkind] at hjoining
  | .call hcallee hkind harguments hclosing => by
      rw [Token.firstKind_append _ hcallee.starts.ne_eof] at hjoining
      obtain ⟨joined, hjoined⟩ := hcallee.exists_join hbefore hjoining
      rw [← List.append_assoc]
      exact exists_longer_call hjoined hkind harguments hclosing

theorem Written.exists_join {fits : Expr → Prop} {other : Expr} {others : List Token}
    (h : other.Written fits others) (hbefore : before.Written FitsInside befores)
    (hjoining : (Token.firstKind others).Joining) :
    ∃ joined : Expr, joined.Written FitsInside (befores ++ others) :=
  match h with
  | .bare h _ => h.exists_join hbefore hjoining
  | .grouped hopening h hclosing => by
      have hargument := WrittenAll.cons h .nil
      rw [List.append_nil] at hargument
      exact exists_longer_call hbefore hopening hargument hclosing

end

end Expr

/-- A word to return with does not come last. -/
def Token.NoReturnLast (tokens : List Token) : Prop :=
  ∀ last ∈ tokens.getLast?, last.kind ≠ .returnWord

theorem Token.NoReturnLast.of_append {passed rest : List Token}
    (h : NoReturnLast (passed ++ rest)) : NoReturnLast rest :=
  fun last hlast => h last (List.mem_getLast?_append_of_mem_getLast? hlast)

open Token (NoReturnLast)

namespace Stmt

variable {stmt : Stmt} {stmts stmts' : List Stmt} {tokens tokens' : List Token}

/-- The program starts with an expression, and any statement may stand in its place that leaves
what follows as free as an expression does. -/
theorem WrittenAll.exists_expression (h : WrittenAll stmts tokens)
    (hjoining : (Token.firstKind tokens).Joining) :
    ∃ token value rest values others, stmts = .expression token value :: rest ∧
      tokens = values ++ others ∧ Expr.Written Expr.FitsInside value values ∧
      (Token.firstKind values).Joining ∧
      ∀ {stmt : Stmt} {firsts : List Token}, stmt.Written firsts →
        (∀ following, (expression token value).MayAbut following → stmt.MayAbut following) →
        WrittenAll (stmt :: rest) (firsts ++ others) := by
  have hexpression {first : Stmt} {firsts : List Token} (hfirst : first.Written firsts)
      (hjoining : (Token.firstKind firsts).Joining) :
      ∃ token value, first = expression token value ∧
        Expr.Written Expr.FitsInside value firsts := by
    cases hfirst with
    | expression hvalue => exact ⟨_, _, rfl, hvalue⟩
    | letBinding hkind => simp [Kind.Joining, hkind] at hjoining
    | returning hkind => simp [Kind.Joining, hkind] at hjoining
    | returningValue hkind => simp [Kind.Joining, hkind] at hjoining
    | block hbody => simp [Kind.Joining, hbody.firstKind] at hjoining
  cases h with
  | nil => simp [Kind.Joining] at hjoining
  | @closed first rest semicolon firsts others hfirst hsemicolon hrest =>
      rw [Token.firstKind_append _ hfirst.starts.ne_eof] at hjoining
      obtain ⟨token, value, rfl, hvalue⟩ := hexpression hfirst hjoining
      exact ⟨token, value, rest, firsts, semicolon :: others, rfl, rfl, hvalue, hjoining,
        fun hstmt _ => .closed hstmt hsemicolon hrest⟩
  | @abutting first rest firsts others hfirst habut hrest =>
      rw [Token.firstKind_append _ hfirst.starts.ne_eof] at hjoining
      obtain ⟨token, value, rfl, hvalue⟩ := hexpression hfirst hjoining
      exact ⟨token, value, rest, firsts, others, rfl, rfl, hvalue, hjoining,
        fun hstmt hfollowing => .abutting hstmt (hfollowing others habut) hrest⟩

/-- What two programs are together when one comes right after the other: their statements, or
one statement in place of the last and the first, where a joining token comes between them. -/
def Merges (stmts stmts' : List Stmt) (tokens' : List Token) (joined : List Stmt) : Prop :=
  joined = stmts ++ stmts' ∨
    (Token.firstKind tokens').Joining ∧ ∃ before last merged first after,
      stmts = before ++ [last] ∧ stmts' = first :: after ∧ joined = before ++ merged :: after

theorem Merges.cons {joined : List Stmt} (h : Merges stmts stmts' tokens' joined) (first : Stmt) :
    Merges (first :: stmts) stmts' tokens' (first :: joined) := by
  rcases h with rfl | ⟨hjoining, before, last, merged, other, after, rfl, rfl, rfl⟩
  · exact .inl rfl
  · exact .inr ⟨hjoining, first :: before, last, merged, other, after, rfl, rfl, rfl⟩

theorem Written.mayAbut (h : stmt.Written tokens) (hreturn : NoReturnLast tokens)
    (hjoining : ¬ (Token.firstKind tokens').Joining) : stmt.MayAbut tokens' := by
  cases h with
  | returning hkind => exact absurd hkind (hreturn _ rfl)
  | block => trivial
  | _ => exact not_or.mp hjoining

/-- The value at the end of a statement takes in what follows it. -/
theorem Written.exists_longer {more : List Token} (h : stmt.Written tokens)
    (hreturn : NoReturnLast tokens)
    (hmore : ∀ {before : Expr} {befores : List Token}, before.Written Expr.FitsInside befores →
      ∃ joined : Expr, joined.Written Expr.FitsInside (befores ++ more)) :
    stmt.MayAbut tokens' ∨ ∃ longer : Stmt, longer.Written (tokens ++ more) ∧
      ∀ token value following, (Stmt.expression token value).MayAbut following →
        longer.MayAbut following := by
  cases h with
  | @letBinding token name sign value values hkind hname hsign hvalue =>
      obtain ⟨joined, hjoined⟩ := hmore hvalue
      exact .inr ⟨.letBinding token ⟨name, name.text⟩ joined,
        .letBinding hkind hname hsign hjoined, fun _ _ _ hmay => hmay⟩
  | returning hkind => exact absurd hkind (hreturn _ rfl)
  | @returningValue token value values hkind hvalue =>
      obtain ⟨joined, hjoined⟩ := hmore hvalue
      exact .inr ⟨.returning token (some joined), .returningValue hkind hjoined,
        fun _ _ _ hmay => hmay⟩
  | @expression token value values hvalue =>
      obtain ⟨joined, hjoined⟩ := hmore hvalue
      exact .inr ⟨.expression token joined, .expression hjoined, fun _ _ _ hmay => hmay⟩
  | block => exact .inl trivial

theorem Written.exists_join (h : stmt.Written tokens) (hreturn : NoReturnLast tokens)
    (h' : WrittenAll stmts' tokens') :
    ∃ joined, WrittenAll joined (tokens ++ tokens') ∧ Merges [stmt] stmts' tokens' joined := by
  have habutting (habut : stmt.MayAbut tokens') :
      ∃ joined, WrittenAll joined (tokens ++ tokens') ∧ Merges [stmt] stmts' tokens' joined :=
    ⟨stmt :: stmts', .abutting h habut h', .inl rfl⟩
  by_cases hjoining : (Token.firstKind tokens').Joining
  · obtain ⟨token, value, rest, values, others, rfl, htokens, hvalue, hstarts, hreplace⟩ :=
      h'.exists_expression hjoining
    rcases h.exists_longer hreturn fun hbefore => hvalue.exists_join hbefore hstarts with
      habut | ⟨longer, hlonger, hmay⟩
    · exact habutting habut
    · refine ⟨longer :: rest, ?_, .inr ⟨hjoining, [], stmt, longer, _, rest, rfl, rfl, rfl⟩⟩
      rw [htokens, ← List.append_assoc]
      exact hreplace hlonger (hmay token value)
  · exact habutting (h.mayAbut hreturn hjoining)

theorem MayAbut.append {following : List Token} (h : stmt.MayAbut following)
    (hne : Token.firstKind following ≠ .eof) (more : List Token) :
    stmt.MayAbut (following ++ more) := by
  have hfirst := Token.firstKind_append more hne
  cases stmt with
  | block => trivial
  | returning token value? =>
      cases value? with
      | none => exact absurd (congrArg Token.firstKind h) hne
      | some value => exact ⟨hfirst ▸ h.1, hfirst ▸ h.2⟩
  | _ => exact ⟨hfirst ▸ h.1, hfirst ▸ h.2⟩

theorem WrittenAll.eq_nil (h : WrittenAll stmts []) : stmts = [] := by
  generalize htokens : ([] : List Token) = tokens at h
  cases h with
  | nil => rfl
  | closed => exact absurd htokens.symm (List.append_ne_nil_of_right_ne_nil _ nofun)
  | abutting hfirst _ _ =>
      have hstarts := hfirst.starts.ne_eof
      rw [(List.append_eq_nil_iff.mp htokens.symm).1] at hstarts
      exact absurd rfl hstarts

/-- Nothing is missing between two programs, unless the first ends with a bare return. -/
theorem WrittenAll.exists_join {stmts : List Stmt} {tokens : List Token}
    (h : WrittenAll stmts tokens) (hreturn : NoReturnLast tokens)
    (h' : WrittenAll stmts' tokens') :
    ∃ joined, WrittenAll joined (tokens ++ tokens') ∧ Merges stmts stmts' tokens' joined :=
  match h with
  | .nil => ⟨stmts', h', .inl rfl⟩
  | @WrittenAll.closed first rest semicolon firsts others hfirst hsemicolon hrest => by
      have hothers : NoReturnLast ([semicolon] ++ others) := hreturn.of_append
      obtain ⟨joined, hjoined, hmerges⟩ := hrest.exists_join hothers.of_append h'
      refine ⟨first :: joined, ?_, hmerges.cons first⟩
      rw [List.append_assoc, List.cons_append]
      exact .closed hfirst hsemicolon hjoined
  | @WrittenAll.abutting first rest firsts others hfirst habut hrest => by
      rcases hrest.starts with rfl | hstarts
      · obtain rfl := hrest.eq_nil
        rw [List.append_nil] at hreturn ⊢
        exact hfirst.exists_join hreturn h'
      · obtain ⟨joined, hjoined, hmerges⟩ := hrest.exists_join hreturn.of_append h'
        refine ⟨first :: joined, ?_, hmerges.cons first⟩
        rw [List.append_assoc]
        exact .abutting hfirst (habut.append hstarts.ne_eof tokens') hjoined

end Stmt

end MonkeySyntax
