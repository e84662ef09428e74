import Mathlib.Data.List.TakeWhile
import MonkeySyntax.Proofs.Parser.Termination
import MonkeySyntax.Proofs.Productions.Climb

namespace MonkeySyntax

/-! Expressions under grammars to which binary operators have been added, whatever the powers. -/

namespace Grammar

/-- A binary operator for each of the kinds. -/
def binaryOperators (powers : List (Kind × BindingPower)) : List Extension :=
  powers.map fun entry => .operator entry.1 ⟨entry.2, .binary⟩

/-- The operator of the link binds more tightly than the power. -/
def tighter (grammar : Grammar) (power : BindingPower) (link : Link) : Bool :=
  decide (power < grammar.power link.operator.kind)

variable {grammar : Grammar} {powers : List (Kind × BindingPower)} {kind : Kind}
  {power : BindingPower}

theorem operand?_extend_binaryOperators :
    (grammar.extend (binaryOperators powers)).operand? = grammar.operand? := by
  induction powers generalizing grammar with
  | nil => rfl
  | cons entry powers ih => exact ih

theorem operator?_extend_binaryOperators (h : ∀ entry ∈ powers, entry.1 ≠ kind) :
    (grammar.extend (binaryOperators powers)).operator? kind = grammar.operator? kind := by
  induction powers generalizing grammar with
  | nil => rfl
  | cons entry powers ih =>
      rw [List.forall_mem_cons] at h
      exact (ih h.2).trans (if_neg h.1.symm)

theorem operator?_extend_eq_none
    (hkinds : ∀ entry ∈ powers, entry.1 ≠ .semicolon ∧ entry.1 ≠ .eof)
    (hkind : kind = .semicolon ∨ kind = .eof) :
    (standard.extend (binaryOperators powers)).operator? kind = none := by
  rw [operator?_extend_binaryOperators]
  · rcases hkind with rfl | rfl <;> rfl
  · rintro entry hentry rfl
    exact hkind.elim (hkinds entry hentry).1 (hkinds entry hentry).2

theorem LeavesEnd.extend_binaryOperators (h : grammar.LeavesEnd)
    (hkinds : ∀ entry ∈ powers, entry.1 ≠ .eof) :
    (grammar.extend (binaryOperators powers)).LeavesEnd := by
  refine h.extend fun extension hextension => ?_
  obtain ⟨entry, hentry, rfl⟩ := List.mem_map.mp hextension
  exact hkinds entry hentry

theorem not_lt_power_of_none (h : grammar.operator? kind = none) :
    ¬ power < grammar.power kind := by
  rw [Grammar.power, h]
  exact Nat.not_lt_zero _

theorem of_mem_takeWhile_tighter {links : List Link} {link : Link}
    (h : link ∈ links.takeWhile (grammar.tighter power)) :
    link ∈ links ∧ power < grammar.power link.operator.kind := by
  have htighter : grammar.tighter power link := List.mem_takeWhile_imp h
  exact ⟨(List.takeWhile_sublist _).mem h, of_decide_eq_true htighter⟩

/-- Nothing binds more tightly after the links that do. -/
theorem not_lt_power_dropWhile {links : List Link} {rest : List Token}
    (hrest : grammar.operator? (Token.firstKind rest) = none) :
    ¬ power < grammar.power
      (Token.firstKind (Link.tokens (links.dropWhile (grammar.tighter power)) ++ rest)) := by
  induction links with
  | nil => exact not_lt_power_of_none hrest
  | cons link links ih =>
      rw [List.dropWhile_cons]
      split
      · exact ih
      · next hstop =>
          intro hlt
          exact hstop (decide_eq_true hlt)

end Grammar

open Productions

/-- An expression is read at any power from a chain of binary operators, whatever binary operators
have been added to the grammar.  It has the links up to the first that binds no more tightly than
the power, its last operand is current afterwards, and no other tree of those links has each
operator at its rank. -/
theorem Parser.read_expression_climbs {σ : Type} [TokenSource σ] [BoundedTokenSource σ]
    {parser : Parser σ} {powers : List (Kind × BindingPower)}
    (hgrammar : parser.grammar = Grammar.standard.extend (Grammar.binaryOperators powers))
    (hkinds : ∀ entry ∈ powers, entry.1 ≠ .semicolon ∧ entry.1 ≠ .eof) (power : BindingPower)
    {first : Token} {links : List Link} {rest : List Token} {finish : Token}
    (hfirst : first.operand?.isSome) (hoperands : ∀ link ∈ links, link.operand.operand?.isSome)
    (hlinks : parser.grammar.Chains links)
    (hrest : Token.firstKind rest = .semicolon ∨ Token.firstKind rest = .eof)
    (hholds : parser.cursor.Holds (first :: (Link.tokens links ++ rest)) finish) :
    let taken := links.takeWhile (parser.grammar.tighter power)
    let others := links.dropWhile (parser.grammar.tighter power)
    ∃ expr cursor,
      parser.read (fun productions => productions.expression power) =
        (.ok expr, { parser with cursor }) ∧
      cursor.Holds (Link.last first taken :: (Link.tokens others ++ rest)) finish ∧
      cursor.current = Link.last first taken ∧
      expr.InOrder first taken ∧ expr.Ranked parser.grammar ∧
      ∀ other : Expr, other.InOrder first taken → other.Ranked parser.grammar → other = expr := by
  intro taken others
  have hnone {kind : Kind} (hkind : kind = .semicolon ∨ kind = .eof) :
      parser.grammar.operator? kind = none :=
    hgrammar ▸ Grammar.operator?_extend_eq_none hkinds hkind
  have hends : parser.grammar.LeavesEnd :=
    hgrammar ▸ Grammar.standard_leavesEnd.extend_binaryOperators fun entry hentry =>
      (hkinds entry hentry).2
  have hoperand : parser.grammar.operand? = Grammar.standard.operand? := by
    rw [hgrammar, Grammar.operand?_extend_binaryOperators]
  have htaken (link : Link) (hlink : link ∈ taken) :
      link ∈ links ∧ power < parser.grammar.power link.operator.kind :=
    Grammar.of_mem_takeWhile_tighter hlink
  have hread {other : Expr} (hother : other.InOrder first taken)
      (hranked : other.Ranked parser.grammar) :
      ∃ cursor, (tied parser.grammar).expression power parser.cursor = .ok other cursor ∧
        cursor.Holds (Link.last first taken :: (Link.tokens others ++ rest)) finish := by
    have hsplit : taken ++ others = links := List.takeWhile_append_dropWhile
    rw [← hsplit, Link.tokens_append, List.append_assoc] at hholds
    exact exists_tied_expression_eq_ok hends hoperand (hnone (.inl rfl)) hother hranked
      (fun link hlink => hlinks link (htaken link hlink).1)
      (fun link hlink => (htaken link hlink).2)
      (Grammar.not_lt_power_dropWhile (hnone hrest)) hholds
  obtain ⟨expr, hexpr, hranked⟩ : ∃ expr : Expr, expr.InOrder first taken ∧ expr.Ranked _ :=
    Expr.exists_ranked parser.grammar hfirst fun link hlink => hoperands link (htaken link hlink).1
  obtain ⟨cursor, hok, hcursor⟩ := hread hexpr hranked
  refine ⟨expr, cursor, ?_, hcursor, hcursor.current, hexpr, hranked, ?_⟩
  · have hdeep : (toDepth parser.grammar (sufficientDepth parser.cursor)).expression power
        parser.cursor = .ok expr cursor := hok
    simp only [read, readTo, hdeep]
  · intro other hother hrankedOther
    obtain ⟨cursor', hok', -⟩ := hread hother hrankedOther
    rw [hok] at hok'
    injection hok' with hsame
    exact hsame.symm

/-- Where comparisons bind like products, `a + b < c == d` has a sum of a comparison in it. -/
def Link.sumOfComparison : List Link :=
  [⟨.unplaced .plus "+", .unplaced .identifier "b"⟩,
    ⟨.unplaced .less "<", .unplaced .identifier "c"⟩,
    ⟨.unplaced .equals "==", .unplaced .identifier "d"⟩]

def Expr.sumOfComparison : Expr :=
  .binary (.unplaced .plus "+") (.identifier ⟨.unplaced .identifier "a", "a"⟩) "+"
    (.binary (.unplaced .less "<") (.identifier ⟨.unplaced .identifier "b", "b"⟩) "<"
      (.identifier ⟨.unplaced .identifier "c", "c"⟩))

theorem Expr.inOrder_sumOfComparison :
    sumOfComparison.InOrder (.unplaced .identifier "a") (Link.sumOfComparison.take 2) := by
  have hname (name : String) : InOrder (.identifier ⟨.unplaced .identifier name, name⟩)
      (.unplaced .identifier name) [] := .operand rfl
  have hcomparison := @InOrder.binary (.unplaced .less "<") _ _ _ _ _ _ (hname "b") (hname "c")
  exact @InOrder.binary (.unplaced .plus "+") _ _ _ _ _ _ (hname "a") hcomparison

theorem Parser.read_expression_climbs_sumOfComparison :
    let powers := [(Kind.less, BindingPower.multiplicative)]
    let first := Token.unplaced .identifier "a"
    let semicolon := Token.unplaced .semicolon ";"
    let tokens := first :: (Link.tokens Link.sumOfComparison ++ [semicolon])
    let parser := (ofSource (TokenQueue.ofTokens tokens)).extend (Grammar.binaryOperators powers)
    let finish := (TokenQueue.ofTokens tokens).finish
    (∀ entry ∈ powers, entry.1 ≠ .semicolon ∧ entry.1 ≠ .eof) ∧
      first.operand?.isSome ∧ (∀ link ∈ Link.sumOfComparison, link.operand.operand?.isSome) ∧
      parser.grammar.Chains Link.sumOfComparison ∧ parser.cursor.Holds tokens finish ∧
      ∃ cursor, parser.read (fun productions => productions.expression .equality) =
          (.ok Expr.sumOfComparison, { parser with cursor }) ∧
        cursor.Holds [.unplaced .identifier "c", .unplaced .equals "==",
          .unplaced .identifier "d", semicolon] finish := by
  intro powers first semicolon tokens parser finish
  have hkinds : ∀ entry ∈ powers, entry.1 ≠ .semicolon ∧ entry.1 ≠ .eof := by decide
  have hoperands : ∀ link ∈ Link.sumOfComparison, link.operand.operand?.isSome := by decide
  have hlinks : parser.grammar.Chains Link.sumOfComparison := by
    simp only [Grammar.Chains, Link.sumOfComparison, List.forall_mem_cons]
    exact ⟨⟨.additive, rfl⟩, ⟨.multiplicative, rfl⟩, ⟨.equality, rfl⟩, List.forall_mem_nil _⟩
  have hends : ∀ token ∈ tokens, token.kind ≠ .eof := by decide
  have hholds : parser.cursor.Holds tokens finish := @holds_ofTokens tokens hends
  obtain ⟨expr, cursor, hread, hcursor, -, -, -, hunique⟩ :=
    read_expression_climbs rfl hkinds .equality rfl hoperands hlinks (.inl rfl) hholds
  have hranked : Expr.sumOfComparison.Ranked parser.grammar := by
    have hname (name : String) (property : BindingPower → Prop) :
        ∀ power ∈ (Expr.identifier ⟨.unplaced .identifier name, name⟩).power? parser.grammar,
          property power :=
      @Expr.forall_power?_of_operand? _ _ (.unplaced .identifier name) rfl property
    refine ⟨trivial, ⟨trivial, trivial, hname "b" _, hname "c" _⟩, hname "a" _, ?_⟩
    rintro power ⟨⟩
    exact (by decide : BindingPower.additive < .multiplicative)
  obtain rfl := hunique _ Expr.inOrder_sumOfComparison hranked
  exact ⟨hkinds, rfl, hoperands, hlinks, hholds, cursor, hread, hcursor⟩

end MonkeySyntax
