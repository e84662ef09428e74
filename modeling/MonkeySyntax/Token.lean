namespace MonkeySyntax

/-! Places in source files.  Offsets count bytes and keep 32 bits. -/

structure Position where
  offset : UInt32
  file : String
deriving DecidableEq, Repr, Inhabited

structure Span where
  start : Position
  stop : Position
deriving DecidableEq, Repr, Inhabited

namespace Position

/-- The place of a token that was made by hand. -/
def nowhere : Position := ⟨0, "<null>"⟩

end Position

namespace Span

def nowhere : Span := ⟨.nowhere, .nowhere⟩

/-- The span of `size` bytes from a byte offset on. -/
def ofRange (file : String) (offset size : Nat) : Span :=
  ⟨⟨offset.toUInt32, file⟩, ⟨(offset + size).toUInt32, file⟩⟩

@[simp] theorem ofRange_start (file : String) (offset size : Nat) :
    (ofRange file offset size).start = ⟨offset.toUInt32, file⟩ := rfl

@[simp] theorem ofRange_stop (file : String) (offset size : Nat) :
    (ofRange file offset size).stop = ⟨(offset + size).toUInt32, file⟩ := rfl

theorem toNat_start_ofRange {file : String} {offset size : Nat}
    (h : offset < UInt32.size) :
    (ofRange file offset size).start.offset.toNat = offset := by
  simpa using Nat.mod_eq_of_lt h

theorem toNat_stop_ofRange {file : String} {offset size : Nat}
    (h : offset + size < UInt32.size) :
    (ofRange file offset size).stop.offset.toNat = offset + size := by
  simpa using Nat.mod_eq_of_lt h

end Span

/-! The kinds of tokens. -/

inductive Kind where
  | eof
  | illegal
  | integer
  | identifier
  | openCurly
  | closeCurly
  | openParen
  | closeParen
  | assignment
  | equals
  | not
  | notEquals
  | less
  | greater
  | semicolon
  | comma
  | plus
  | dash
  | slash
  | star
  | letWord
  | fnWord
  | returnWord
  | ifWord
  | elseWord
  | trueWord
  | falseWord
deriving DecidableEq, Repr, Inhabited

namespace Kind

def all : List Kind :=
  [.eof, .illegal, .integer, .identifier, .openCurly, .closeCurly, .openParen, .closeParen,
    .assignment, .equals, .not, .notEquals, .less, .greater, .semicolon, .comma, .plus, .dash,
    .slash, .star, .letWord, .fnWord, .returnWord, .ifWord, .elseWord, .trueWord, .falseWord]

theorem mem_all (kind : Kind) : kind ∈ all := by
  cases kind <;> decide

/-- The name of a kind in diagnostics. -/
def name : Kind → String
  | .eof => "EOF"
  | .illegal => "Illegal"
  | .integer => "Integer"
  | .identifier => "Identifier"
  | .openCurly => "OpenCurly"
  | .closeCurly => "CloseCurly"
  | .openParen => "OpenParen"
  | .closeParen => "CloseParen"
  | .assignment => "Assignment"
  | .equals => "Equals"
  | .not => "Not"
  | .notEquals => "NotEquals"
  | .less => "Less"
  | .greater => "Greater"
  | .semicolon => "Semicolon"
  | .comma => "Comma"
  | .plus => "Plus"
  | .dash => "Dash"
  | .slash => "Slash"
  | .star => "Star"
  | .letWord => "Let"
  | .fnWord => "Fn"
  | .returnWord => "Return"
  | .ifWord => "If"
  | .elseWord => "Else"
  | .trueWord => "True"
  | .falseWord => "False"

/-- The reserved words; any other word is an identifier. -/
def reserved? : String → Option Kind
  | "let" => some .letWord
  | "fn" => some .fnWord
  | "return" => some .returnWord
  | "if" => some .ifWord
  | "else" => some .elseWord
  | "true" => some .trueWord
  | "false" => some .falseWord
  | _ => none

def ofWord (word : String) : Kind :=
  (reserved? word).getD .identifier

end Kind

/-! Tokens: a kind, the source text and the place it was read from. -/

structure Token where
  kind : Kind
  text : String
  span : Span
deriving DecidableEq, Repr, Inhabited

namespace Token

/-- A token made by hand, which lies in no source. -/
def unplaced (kind : Kind) (text : String) : Token :=
  ⟨kind, text, .nowhere⟩

/-- The end of the input, at a given place. -/
def endAt (position : Position) : Token :=
  ⟨.eof, "", ⟨position, position⟩⟩

@[simp] theorem kind_endAt (position : Position) : (endAt position).kind = .eof := rfl

/-- How much a token counts in the length of an input: the end adds nothing. -/
def weight (token : Token) : Nat :=
  if token.kind = .eof then 0 else 1

theorem weight_of_eof {token : Token} (h : token.kind = .eof) : token.weight = 0 := by
  simp [weight, h]

theorem weight_of_ne_eof {token : Token} (h : token.kind ≠ .eof) : token.weight = 1 := by
  simp [weight, h]

def describe (token : Token) : String :=
  "Token \x7b\nkind: " ++ token.kind.name ++ ",\nvalue: " ++ token.text ++ "\x7d"

end Token

end MonkeySyntax
