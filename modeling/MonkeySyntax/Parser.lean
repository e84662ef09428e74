import MonkeySyntax.Parser.Recursion

namespace MonkeySyntax

/-! Reading programs.  A statement that is at fault leaves one diagnostic behind,
and reading goes on after it. -/

/-- What a program is read with, by rules that no reader changes. -/
structure Parser (σ : Type) where
  cursor : Cursor σ
  grammar : Grammar

variable {σ : Type} [TokenSource σ]

/-- The number of open blocks after a token. -/
def Cursor.depthAfter (depth : Nat) : Kind → Nat
  | .openCurly => depth + 1
  | .closeCurly => depth - 1
  | _ => depth

/-- Skips to the next semicolon that lies outside all blocks, or to the end, and
counts the tokens on the way.  The depth starts with the blocks that the fault
left open. -/
def Cursor.skipStatement : Nat → Nat → Nat → Cursor σ → Nat × Cursor σ
  | 0, _, skipped, cursor => (skipped, cursor)
  | limit + 1, depth, skipped, cursor =>
    let kind := cursor.current.kind
    if kind = .eof ∨ (kind = .semicolon ∧ depth = 0) then
      (skipped, cursor)
    else
      skipStatement limit (depthAfter depth kind) (skipped + 1) cursor.advance

/-- Gets past a statement at fault, outside of all blocks. -/
def Cursor.resynchronize (limit : Nat) (cursor : Cursor σ) : Cursor σ :=
  let depth := .outside cursor.depth.greatest?
  let (skipped, cursor) := cursor.skipStatement limit cursor.depth.blocks 0
  let cursor := { cursor with depth }
  if skipped = 0 then cursor else cursor.note (.skipped skipped)

namespace Parser

def ofSource (source : σ) : Parser σ :=
  ⟨.ofSource source, .standard⟩

def diagnostics (parser : Parser σ) : Array Diagnostic :=
  parser.cursor.diagnostics

/-- What a reader gives at the cursor when its calls go so deep, and the parser afterwards.  What
stopped the reader is not recorded. -/
def readTo {α : Type} (depth : Nat) (reader : Productions σ → Reader σ α) (parser : Parser σ) :
    Except Stop α × Parser σ :=
  match reader (.toDepth parser.grammar depth) parser.cursor with
  | .ok value cursor => (.ok value, { parser with cursor })
  | .error stop cursor => (.error stop, { parser with cursor })

def read {α : Type} (reader : Productions σ → Reader σ α) (parser : Parser σ) :
    Except Stop α × Parser σ :=
  parser.readTo (Productions.sufficientDepth parser.cursor) reader

/-- Records what is wrong and gets past the statement at fault. -/
def recover (limit : Nat) (diagnostic : Diagnostic) (parser : Parser σ) : Parser σ :=
  { parser with cursor := (parser.cursor.record diagnostic).resynchronize limit }

/-- Reads one statement, which a fault leaves out, and leaves its last token
current; nothing if the reader is exhausted. -/
def attempt (productions : Productions σ) (limit : Nat) (parser : Parser σ) :
    Option (Option Stmt × Parser σ) :=
  match productions.statement parser.cursor with
  | .ok stmt cursor => some (some stmt, { parser with cursor })
  | .error (.fault diagnostic) cursor =>
    some (none, recover limit diagnostic { parser with cursor })
  | .error .exhausted _ => none

def advance (parser : Parser σ) : Parser σ :=
  { parser with cursor := parser.cursor.advance }

/-- Reads statements up to the end, no more than the limit, and puts them before
the ones that have been read, the last one first. -/
def statements (productions : Productions σ) :
    Nat → List Stmt → Parser σ → List Stmt × Parser σ
  | 0, done, parser => (done, parser)
  | limit + 1, done, parser =>
    if parser.cursor.current.kind = .eof then
      (done, parser)
    else
      match attempt productions (limit + 1) parser with
      | some (some stmt, parser) => statements productions limit (stmt :: done) parser.advance
      | some (none, parser) => statements productions limit done parser.advance
      | none => (done, parser)

def program (parser : Parser σ) : Program × Parser σ :=
  let productions := .toDepth parser.grammar (Productions.sufficientDepth parser.cursor)
  let start := parser.cursor.current.span.start
  let (done, parser) := statements productions (parser.cursor.left + 1) [] parser
  (⟨done.reverse, ⟨start, parser.cursor.current.span.start⟩⟩, parser)

end Parser

/-- The program that a source holds, with the diagnostics in the order in which
the faults lie in the source. -/
def parse (source : σ) : Program × List Diagnostic :=
  let (program, parser) := (Parser.ofSource source).program
  (program, parser.diagnostics.toList)

end MonkeySyntax
