import MonkeySyntax.CommandLine.Disk
import MonkeySyntax.Diagnostic
import MonkeySyntax.Parser
import MonkeySyntax.Token.Scanner
import MonkeySyntax.Tree

namespace MonkeySyntax

/-! The command: it reads one program, from a file or from the standard input,
and prints it with all grouping made explicit, or reports what is wrong. -/

namespace CommandLine

inductive Input where
  | standardInput
  | file (path : String)
deriving DecidableEq, Repr

/-- What the arguments ask for; more than one cannot be served. -/
def Input.ofArguments? : List String → Option Input
  | [] => some .standardInput
  | [path] => some (.file path)
  | _ => none

def Input.name : Input → String
  | .standardInput => "stdin"
  | .file path => fileName path

structure Outcome where
  code : Nat
  output : String
  errors : String
deriving DecidableEq, Repr

namespace Outcome

def usage : Outcome :=
  ⟨64, "", "Usage: monkey-parse [script]\n"⟩

def unreadable (fault : ReadFault) : Outcome :=
  ⟨1, "", "Error: " ++ fault.message ++ "\n"⟩

def malformed (diagnostics : List Diagnostic) (source : String) : Outcome :=
  ⟨65, "", String.join (diagnostics.map fun diagnostic => diagnostic.report source)⟩

def success (program : Program) : Outcome :=
  ⟨0, program.render ++ "\n", ""⟩

end Outcome

def readText (bytes : ByteArray) : Except ReadFault String :=
  match String.fromUTF8? bytes with
  | some text => .ok text
  | none => .error .malformedText

def answer (input : Input) (content : Except ReadFault ByteArray) : Outcome :=
  match content >>= readText with
  | .error fault => .unreadable fault
  | .ok source =>
    match parse (Scanner.ofSource source input.name) with
    | (program, []) => .success program
    | (_, diagnostics) => .malformed diagnostics source

/-- One run of the command, given what can be read. -/
def run (arguments : List String) (read : Input → Except ReadFault ByteArray) : Outcome :=
  match Input.ofArguments? arguments with
  | none => .usage
  | some input => answer input (read input)

end CommandLine

end MonkeySyntax
