import MonkeySyntax.Text
import MonkeySyntax.Text.Quoted
import MonkeySyntax.Token

namespace MonkeySyntax

/-! What can be wrong with a program, and where. -/

inductive Fault where
  | unexpectedToken (expected found : Kind)
  | noOperand (kind : Kind)
  | malformedInteger (text : String)
  | unclosedDelimiter (expected found : Kind)
deriving DecidableEq, Repr

namespace Fault

def name : Fault → String
  | .unexpectedToken .. => "UnexpectedToken"
  | .noOperand .. => "NoPrefixParseFn"
  | .malformedInteger .. => "IntegerParseError"
  | .unclosedDelimiter .. => "UnclosedDelimiter"

def message : Fault → String
  | .unexpectedToken expected found =>
    "expected next token to be " ++ expected.name ++ ", got " ++ found.name ++ " instead"
  | .noOperand kind => "no prefix parse function for " ++ kind.name ++ " found"
  | .malformedInteger text => "could not parse " ++ Text.quoteString text ++ " as integer"
  | .unclosedDelimiter expected found =>
    "expected closing " ++ expected.name ++ ", got " ++ found.name ++ " instead"

/-- Advice that says more than the message, where there is any. -/
def tip? : Fault → Option String
  | .unexpectedToken .. => none
  | .noOperand kind => some ("`" ++ kind.name ++ "` cannot start an expression")
  | .malformedInteger text =>
    some ("Invalid integer: `" ++ text ++ "`, is it above the integer limit?")
  | .unclosedDelimiter expected _ => some ("missing closing " ++ expected.name)

/-- The fault of finding one kind of token where another has to follow.  A
bracket that has to close is told apart. -/
def ofMismatch (expected found : Kind) : Fault :=
  match expected with
  | .closeParen | .closeCurly => .unclosedDelimiter expected found
  | _ => .unexpectedToken expected found

end Fault

structure Diagnostic where
  fault : Fault
  position : Position
deriving DecidableEq, Repr

namespace Diagnostic

def message (diagnostic : Diagnostic) : String :=
  diagnostic.fault.message

/-! The report: a headline, the file, and the line at fault
with a caret below the place.

    Error: UnexpectedToken (expected next token to be Assignment, got Integer instead)
    -> main.mk
      |
    1 | let x 5;
      | ------^
-/

def headline (diagnostic : Diagnostic) : String :=
  "Error: " ++ diagnostic.fault.name ++
    " (" ++ diagnostic.fault.tip?.getD diagnostic.message ++ ")\n" ++
    "-> " ++ diagnostic.position.file ++ "\n"

/-- The bar that continues the margin below a line number of the given width. -/
def margin (width : Nat) : String :=
  String.ofList (List.replicate (width + 1) ' ' ++ ['|'])

/-- The line without its indentation, and the caret below the offset that the
spot gives.  A caret inside the indentation moves to the start of the line. -/
def snippet (spot : Text.LineSpot) : String :=
  let number := toString spot.number
  let line := spot.text.toList
  let indent := (line.takeWhile (· == ' ')).length
  let shown := Text.trimRight (line.drop indent)
  let dashes := List.replicate (spot.column - indent) '-'
  margin number.length ++ "\n" ++
    number ++ " | " ++ String.ofList shown ++ "\n" ++
    margin number.length ++ " " ++ String.ofList dashes ++ "^\n"

def report (diagnostic : Diagnostic) (source : String) : String :=
  match Text.lineAt? source diagnostic.position.offset.toNat with
  | some spot => diagnostic.headline ++ snippet spot
  | none => diagnostic.headline

end Diagnostic

namespace Journal

/-! What reading a program notes on the way, for whoever follows it. -/

inductive Level where
  | trace
  | debug
deriving DecidableEq, Repr

inductive Entry where
  | illegalCharacter (c : Char) (offset : Nat)
  | statement (kind : Kind) (text : String)
  | fault (diagnostic : Diagnostic)
  | skipped (count : Nat)
deriving DecidableEq, Repr

namespace Entry

def level : Entry → Level
  | .illegalCharacter .. | .statement .. => .trace
  | .fault .. | .skipped .. => .debug

def message : Entry → String
  | .illegalCharacter c offset =>
    "illegal character " ++ Text.quoteChar c ++ " at offset " ++ toString offset
  | .statement kind text =>
    "parsing statement at " ++ kind.name ++ " (" ++ Text.quoteString text ++ ")"
  | .fault diagnostic =>
    "parse error at offset " ++ toString diagnostic.position.offset.toNat ++ ": " ++
      diagnostic.message
  | .skipped count => "skipped " ++ toString count ++ " token(s) to resynchronize"

end Entry

end Journal

end MonkeySyntax
