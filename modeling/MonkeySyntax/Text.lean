namespace MonkeySyntax.Text

/-! Sizes and offsets counted in bytes of UTF-8. -/

def byteSize (text : List Char) : Nat :=
  text.foldr (fun c size => c.utf8Size + size) 0

@[simp] theorem byteSize_nil : byteSize [] = 0 := rfl

@[simp] theorem byteSize_cons (c : Char) (text : List Char) :
    byteSize (c :: text) = c.utf8Size + byteSize text := rfl

@[simp] theorem byteSize_append (left right : List Char) :
    byteSize (left ++ right) = byteSize left + byteSize right := by
  induction left with
  | nil => simp
  | cons c left ih => simp [ih, Nat.add_assoc]

theorem byteSize_eq_zero_iff {text : List Char} : byteSize text = 0 ↔ text = [] := by
  cases text with
  | nil => simp
  | cons c text =>
      have := c.utf8Size_pos
      simp only [byteSize_cons, reduceCtorEq, iff_false]
      omega

/-- The first `count` bytes; nothing when they end inside a character or beyond
the text. -/
def takeBytes? : Nat → List Char → Option (List Char)
  | 0, _ => some []
  | _ + 1, [] => none
  | count, c :: text =>
    if c.utf8Size ≤ count then (takeBytes? (count - c.utf8Size) text).map (c :: ·) else none

/-- What follows the first `count` bytes; nothing when they end inside a
character or beyond the text. -/
def dropBytes? : Nat → List Char → Option (List Char)
  | 0, text => some text
  | _ + 1, [] => none
  | count, c :: text =>
    if c.utf8Size ≤ count then dropBytes? (count - c.utf8Size) text else none

@[simp] theorem dropBytes?_zero (text : List Char) : dropBytes? 0 text = some text := by
  unfold dropBytes?
  rfl

theorem dropBytes?_byteSize_append (left right : List Char) :
    dropBytes? (byteSize left) (left ++ right) = some right := by
  induction left with
  | nil => simp
  | cons c left ih =>
      have hpos := c.utf8Size_pos
      obtain ⟨size, hsize⟩ : ∃ size, byteSize (c :: left) = size + 1 :=
        ⟨byteSize (c :: left) - 1, by simp only [byteSize_cons]; omega⟩
      rw [hsize, List.cons_append, dropBytes?, ← hsize]
      · simpa using ih
      · omega

@[simp] theorem takeBytes?_zero (text : List Char) : takeBytes? 0 text = some [] := by
  unfold takeBytes?
  rfl

theorem takeBytes?_byteSize_append (left right : List Char) :
    takeBytes? (byteSize left) (left ++ right) = some left := by
  induction left with
  | nil => simp
  | cons c left ih =>
      have hpos := c.utf8Size_pos
      obtain ⟨size, hsize⟩ : ∃ size, byteSize (c :: left) = size + 1 :=
        ⟨byteSize (c :: left) - 1, by simp only [byteSize_cons]; omega⟩
      rw [hsize, List.cons_append, takeBytes?, ← hsize]
      · simpa using ih
      · omega

/-- Where a text can be cut, what is taken and what is left make it up. -/
theorem exists_append_of_takeBytes? {count : Nat} {text left : List Char}
    (h : takeBytes? count text = some left) :
    ∃ right, text = left ++ right ∧ byteSize left = count := by
  induction text generalizing count left with
  | nil =>
      cases count with
      | zero =>
          obtain rfl : left = [] := by simpa using h.symm
          exact ⟨[], rfl, rfl⟩
      | succ count => simp [takeBytes?] at h
  | cons c text ih =>
      cases count with
      | zero =>
          obtain rfl : left = [] := by simpa using h.symm
          exact ⟨c :: text, rfl, rfl⟩
      | succ count =>
          rw [takeBytes?] at h
          · split at h
            case isTrue hle =>
                obtain ⟨rest, hrest, rfl⟩ := Option.map_eq_some_iff.mp h
                obtain ⟨right, rfl, hsize⟩ := ih hrest
                exact ⟨right, rfl, by rw [byteSize_cons]; omega⟩
            case isFalse => cases h
          · omega

/-! Blank characters: those with the Unicode property `White_Space`. -/

def isBlank (c : Char) : Bool :=
  ('\t' ≤ c && c ≤ '\r') || c == ' ' || c == '\u0085' || c == '\u00a0' ||
    c == '\u1680' || ('\u2000' ≤ c && c ≤ '\u200a') || c == '\u2028' ||
    c == '\u2029' || c == '\u202f' || c == '\u205f' || c == '\u3000'

theorem isBlank_of_isWhitespace {c : Char} (h : c.isWhitespace = true) :
    isBlank c = true := by
  simp only [Char.isWhitespace, Bool.or_eq_true, decide_eq_true_eq] at h
  rcases h with ((rfl | rfl) | rfl) | rfl <;> decide

@[simp] theorem isBlank_newline : isBlank '\n' = true := by decide

@[simp] theorem isBlank_space : isBlank ' ' = true := by decide

/-! Dropping the blanks at the end of a text. -/

def trimRight (text : List Char) : List Char :=
  (text.reverse.dropWhile isBlank).reverse

/-! Lines of a text, and the line that holds a byte offset.  A line ends with
its newline character; only the last may lack one. -/

def prependToLines (c : Char) (lines : List (List Char)) : List (List Char) :=
  if c = '\n' then
    ['\n'] :: lines
  else
    match lines with
    | [] => [[c]]
    | line :: rest => (c :: line) :: rest

def lines (text : List Char) : List (List Char) :=
  text.foldr prependToLines []

@[simp] theorem lines_nil : lines [] = [] := rfl

@[simp] theorem lines_cons (c : Char) (text : List Char) :
    lines (c :: text) = prependToLines c (lines text) := rfl

theorem flatten_prependToLines (c : Char) (ls : List (List Char)) :
    (prependToLines c ls).flatten = c :: ls.flatten := by
  unfold prependToLines
  split
  · simp_all
  · cases ls <;> simp

theorem flatten_lines (text : List Char) : (lines text).flatten = text := by
  induction text with
  | nil => rfl
  | cons c text ih => rw [lines_cons, flatten_prependToLines, ih]

/-- A place in a text: the number of its line, counted from one, the line
itself, and the offset in bytes from the start of the line. -/
structure LineSpot where
  number : Nat
  text : String
  column : Nat
deriving DecidableEq, Repr

/-- Walks the lines that remain, of which the first has the given number; the
offset counts from the start of that line.  The end of the text belongs to the
last line. -/
def findLine (number offset : Nat) : List (List Char) → Option LineSpot
  | [] => if offset = 0 then some ⟨number, "", 0⟩ else none
  | [last] =>
    if offset ≤ byteSize last then some ⟨number, String.ofList last, offset⟩ else none
  | line :: next :: rest =>
    if offset < byteSize line then
      some ⟨number, String.ofList line, offset⟩
    else
      findLine (number + 1) (offset - byteSize line) (next :: rest)

def lineAt? (text : String) (offset : Nat) : Option LineSpot :=
  findLine 1 offset (lines text.toList)

end MonkeySyntax.Text
