import MonkeySyntax.Diagnostic
import MonkeySyntax.Token

namespace MonkeySyntax

/-! Sources of tokens, read one token at a time. -/

class TokenSource (σ : Type) where
  next : σ → Token × σ
  /-- No more than so many tokens come before the end. -/
  remaining : σ → Nat
  /-- What the journal notes when a token has been read. -/
  notice : σ → Token → Option Journal.Entry

/-- The bound of a source holds. -/
class BoundedTokenSource (σ : Type) [TokenSource σ] : Prop where
  weight_next_add_remaining_le (source : σ) :
    (TokenSource.next source).1.weight + TokenSource.remaining (TokenSource.next source).2 ≤
      TokenSource.remaining source

/-- A source that has ended hands out its end for ever. -/
class LawfulTokenSource (σ : Type) [TokenSource σ] : Prop extends BoundedTokenSource σ where
  next_next (source : σ) (h : (TokenSource.next source).1.kind = .eof) :
    TokenSource.next (TokenSource.next source).2 = TokenSource.next source

namespace TokenSource

variable {σ : Type} [TokenSource σ]

/-- The first so many tokens. -/
def take : Nat → σ → List Token
  | 0, _ => []
  | count + 1, source => (next source).1 :: take count (next source).2

/-- The tokens up to and with the end, unless more than `count` come before it. -/
def drain : Nat → σ → List Token
  | 0, source => [(next source).1]
  | count + 1, source =>
    let (token, rest) := next source
    if token.kind = .eof then [token] else token :: drain count rest

def tokens (source : σ) : List Token :=
  drain (remaining source) source

end TokenSource

end MonkeySyntax
