import MonkeySyntax.Text

namespace MonkeySyntax.Numeral

/-! The values of integer literals: decimal digits, or digits of another base
after `0x`, `0o` or `0b`.  A value has to fit in a signed word of 64 bits. -/

def digit? (radix : Nat) (c : Char) : Option Nat :=
  let value :=
    if c.isDigit then c.toNat - '0'.toNat
    else if 'a' ≤ c ∧ c ≤ 'z' then c.toNat - 'a'.toNat + 10
    else if 'A' ≤ c ∧ c ≤ 'Z' then c.toNat - 'A'.toNat + 10
    else radix
  if value < radix then some value else none

/-- The largest value of a signed word. -/
def limit : Nat := 0x7fffffffffffffff

/-- The number itself, if it is one of those of a signed word. -/
def fit? (number : Int) : Option Int :=
  if -(limit : Int) - 1 ≤ number ∧ number ≤ limit then some number else none

/-- Reads on after a number has been read, and joins each digit to it.  Fails at
the first character that is no digit, and where a step leads out of the word. -/
def accumulate (radix : Nat) (join : Int → Int → Int) : Int → List Char → Option Int
  | number, [] => some number
  | number, c :: rest => do
    let product ← fit? (number * radix)
    let digit ← digit? radix c
    let number ← fit? (join product digit)
    accumulate radix join number rest

/-- The number that a text stands for, with a sign or without one.  The digits
after a minus are taken away, so that the least number of the word is reached. -/
def signed? (radix : Nat) : List Char → Option Int
  | [] | ['+'] | ['-'] => none
  | '+' :: digits => accumulate radix (· + ·) 0 digits
  | '-' :: digits => accumulate radix (· - ·) 0 digits
  | digits => accumulate radix (· + ·) 0 digits

def startsWithSign (text : List Char) : Bool :=
  text.head?.any fun c => c == '+' || c == '-'

/-- The base that a literal is written in, and its digits.  There are none if the
literal would have to be cut inside a character. -/
def radixAndDigits? (text : List Char) : Option (Nat × List Char) :=
  match Text.takeBytes? 2 text with
  | some ['0', 'x'] | some ['0', 'X'] => (Text.dropBytes? 2 text).map (16, ·)
  | some ['0', 'o'] | some ['0', 'O'] => (Text.dropBytes? 2 text).map (8, ·)
  | some ['0', 'b'] | some ['0', 'B'] => (Text.dropBytes? 2 text).map (2, ·)
  | _ => some (10, text)

/-- The value of a literal, or that it has none: it has no sign, so a sign before
the digits is refused before they are read.  Nothing comes of a bad cut. -/
def read? (text : String) : Option (Option Int64) := do
  let (radix, digits) ← radixAndDigits? text.toList
  if digits.isEmpty ∨ startsWithSign digits then
    return none
  else
    return (signed? radix digits).map .ofInt

def value? (text : String) : Option Int64 :=
  (read? text).join

end MonkeySyntax.Numeral
