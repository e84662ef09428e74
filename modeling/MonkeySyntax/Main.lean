import MonkeySyntax.CommandLine

namespace MonkeySyntax.CommandLine

/-! The command on a real system. -/

/-- The number of a fault comes as it is or negated. -/
def ReadFault.ofSystem (fault : IO.Error) : ReadFault :=
  let other := ReadFault.system 0 "Other" (toString fault)
  match fault with
  | .noFileOrDirectory .. => .notFound
  | .permissionDenied .. => .permissionDenied
  | .inappropriateType _ code _ => if code = 20 ∨ code = -20 then .notDirectory else .isDirectory
  | .invalidArgument _ code _ => if code = 36 ∨ code = -36 then .nameTooLong else other
  | _ => other

def Input.read : Input → IO (Except ReadFault ByteArray)
  | .standardInput => do
    try
      return .ok (← (← IO.getStdin).readBinToEnd)
    catch fault =>
      return .error (.ofSystem fault)
  | .file path => do
    try
      return .ok (← IO.FS.readBinFile path)
    catch fault =>
      return .error (.ofSystem fault)

def Outcome.emit (outcome : Outcome) : IO UInt32 := do
  (← IO.getStdout).putStr outcome.output
  (← IO.getStderr).putStr outcome.errors
  return outcome.code.toUInt32

end MonkeySyntax.CommandLine

open MonkeySyntax.CommandLine in
def main (arguments : List String) : IO UInt32 := do
  match Input.ofArguments? arguments with
  | none => Outcome.usage.emit
  | some input => (answer input (← input.read)).emit
