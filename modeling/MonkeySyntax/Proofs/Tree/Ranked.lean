import Mathlib.Data.List.Induction
import MonkeySyntax.Grammar
import MonkeySyntax.Numeral
import MonkeySyntax.Tree

namespace MonkeySyntax

/-! Operands with binary operators between them, and a tree that they stand for when each operator
binds as a grammar has it and equal powers go to the left. -/

/-- The expression that one token is enough for. -/
def Token.operand? (token : Token) : Option Expr :=
  match token.kind with
  | .identifier => some (.identifier ⟨token, token.text⟩)
  | .integer => (Numeral.value? token.text).map fun value => .integer token value
  | .trueWord | .falseWord => some (.boolean token (token.kind == .trueWord))
  | _ => none

theorem Token.operand?_cases {token : Token} {expr : Expr} (h : token.operand? = some expr) :
    (token.kind = .identifier ∧ expr = .identifier ⟨token, token.text⟩) ∨
      (token.kind = .integer ∧ ∃ value, Numeral.value? token.text = some value ∧
        expr = .integer token value) ∨
      ((token.kind = .trueWord ∨ token.kind = .falseWord) ∧
        expr = .boolean token (token.kind == .trueWord)) := by
  unfold operand? at h
  split at h
  · exact .inl ⟨‹_›, (Option.some.inj h).symm⟩
  · obtain ⟨value, hvalue, rfl⟩ := Option.map_eq_some_iff.mp h
    exact .inr (.inl ⟨‹_›, value, hvalue, rfl⟩)
  · exact .inr (.inr ⟨.inl ‹_›, (Option.some.inj h).symm⟩)
  · exact .inr (.inr ⟨.inr ‹_›, (Option.some.inj h).symm⟩)
  · cases h

/-- An operator and the operand that comes after it. -/
structure Link where
  operator : Token
  operand : Token
deriving DecidableEq, Repr

namespace Link

def tokens (links : List Link) : List Token :=
  links.flatMap fun link => [link.operator, link.operand]

@[simp] theorem tokens_nil : tokens [] = [] := rfl

@[simp] theorem tokens_cons (link : Link) (links : List Link) :
    tokens (link :: links) = link.operator :: link.operand :: tokens links := rfl

@[simp] theorem tokens_append (links links' : List Link) :
    tokens (links ++ links') = tokens links ++ tokens links' :=
  List.flatMap_append

/-- The operand at the end of a chain. -/
def last (first : Token) : List Link → Token
  | [] => first
  | link :: links => last link.operand links

theorem last_append_cons (first : Token) (links : List Link) (link : Link) (links' : List Link) :
    last first (links ++ link :: links') = last link.operand links' := by
  induction links generalizing first with
  | nil => rfl
  | cons link' links ih => exact ih link'.operand

end Link

namespace Expr

/-- From left to right, the tree reads as an operand and the links after it. -/
inductive InOrder : Expr → Token → List Link → Prop
  | operand {expr : Expr} {token : Token} (h : token.operand? = some expr) :
      InOrder expr token []
  | binary {token first second : Token} {left right : Expr} {lefts rights : List Link}
      (hleft : InOrder left first lefts) (hright : InOrder right second rights) :
      InOrder (.binary token left token.text right) first (lefts ++ ⟨token, second⟩ :: rights)

/-- The power of the operator on top, where there is one. -/
def power? (grammar : Grammar) : Expr → Option BindingPower
  | .binary token .. => some (grammar.power token.kind)
  | _ => none

/-- No operator on the left of another binds less tightly than it, and each on the right binds
more tightly. -/
def Ranked (grammar : Grammar) : Expr → Prop
  | .binary token left _ right =>
    left.Ranked grammar ∧ right.Ranked grammar ∧
      (∀ power ∈ left.power? grammar, ¬ power < grammar.power token.kind) ∧
      ∀ power ∈ right.power? grammar, grammar.power token.kind < power
  | _ => True

variable {grammar : Grammar} {expr operand : Expr} {token first : Token} {links : List Link}
  {link : Link}

theorem power?_of_operand? (h : token.operand? = some expr) : expr.power? grammar = none := by
  rcases Token.operand?_cases h with ⟨-, rfl⟩ | ⟨-, value, -, rfl⟩ | ⟨-, rfl⟩
  · rfl
  · rfl
  · rfl

theorem forall_power?_of_operand? (h : token.operand? = some expr)
    (property : BindingPower → Prop) : ∀ power ∈ expr.power? grammar, property power := by
  rw [power?_of_operand? h]
  exact nofun

theorem ranked_of_power?_eq_none (h : expr.power? grammar = none) : expr.Ranked grammar := by
  cases expr with
  | binary => cases h
  | _ => trivial

theorem InOrder.forall_power? {property : BindingPower → Prop} (h : expr.InOrder first links)
    (hlinks : ∀ link ∈ links, property (grammar.power link.operator.kind)) :
    ∀ power ∈ expr.power? grammar, property power := by
  cases h with
  | operand h => exact forall_power?_of_operand? h property
  | @binary token _ second _ _ lefts rights hleft hright =>
      intro power hpower
      obtain rfl := Option.some.inj hpower
      exact hlinks ⟨token, second⟩ (List.mem_append_right lefts List.mem_cons_self)

/-- One more link has room at the right end of the tree, under all operators that bind less
tightly than it. -/
theorem InOrder.exists_link (h : expr.InOrder first links) (hranked : expr.Ranked grammar)
    (hoperand : link.operand.operand? = some operand) :
    ∃ longer : Expr, longer.InOrder first (links ++ [link]) ∧ longer.Ranked grammar ∧
      ∀ power, power < grammar.power link.operator.kind →
        (∀ top ∈ expr.power? grammar, power < top) →
        ∀ top ∈ longer.power? grammar, power < top := by
  have hleaf : operand.Ranked grammar := ranked_of_power?_eq_none (power?_of_operand? hoperand)
  induction h with
  | @operand expr token htoken =>
      refine ⟨.binary link.operator expr link.operator.text operand,
        .binary (.operand htoken) (.operand hoperand), ?_, ?_⟩
      · exact ⟨hranked, hleaf, forall_power?_of_operand? htoken _,
          forall_power?_of_operand? hoperand _⟩
      · rintro power hlt - top ⟨⟩
        exact hlt
  | @binary token first second left right lefts rights hleft hright _ ih =>
      obtain ⟨hrankedLeft, hrankedRight, hlefts, hrights⟩ := hranked
      -- An operator that binds no more tightly than the new one has it on top, and goes left.
      by_cases hunder : grammar.power token.kind < grammar.power link.operator.kind
      · obtain ⟨longer, hlonger, hrankedLonger, htop⟩ := ih hrankedRight
        refine ⟨.binary token left token.text longer, ?_, ?_, fun _ _ habove => habove⟩
        · rw [List.append_assoc]
          exact .binary hleft hlonger
        · exact ⟨hrankedLeft, hrankedLonger, hlefts, htop _ hunder hrights⟩
      · refine ⟨.binary link.operator (.binary token left token.text right)
          link.operator.text operand, .binary (.binary hleft hright) (.operand hoperand), ?_, ?_⟩
        · refine ⟨⟨hrankedLeft, hrankedRight, hlefts, hrights⟩, hleaf, ?_,
            forall_power?_of_operand? hoperand _⟩
          rintro top ⟨⟩
          exact hunder
        · rintro power hlt - top ⟨⟩
          exact hlt

theorem exists_ranked (grammar : Grammar) (hfirst : first.operand?.isSome)
    (hlinks : ∀ link ∈ links, link.operand.operand?.isSome) :
    ∃ expr : Expr, expr.InOrder first links ∧ expr.Ranked grammar := by
  induction links using List.reverseRecOn with
  | nil =>
      obtain ⟨expr, hexpr⟩ := Option.isSome_iff_exists.mp hfirst
      exact ⟨expr, .operand hexpr, ranked_of_power?_eq_none (power?_of_operand? hexpr)⟩
  | append_singleton links link ih =>
      rw [List.forall_mem_append, List.forall_mem_singleton] at hlinks
      obtain ⟨expr, hexpr, hranked⟩ := ih hlinks.1
      obtain ⟨operand, hoperand⟩ := Option.isSome_iff_exists.mp hlinks.2
      obtain ⟨longer, hlonger, hrankedLonger, -⟩ := hexpr.exists_link hranked hoperand
      exact ⟨longer, hlonger, hrankedLonger⟩

end Expr

end MonkeySyntax
