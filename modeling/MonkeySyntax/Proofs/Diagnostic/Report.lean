import MonkeySyntax.Proofs.Diagnostic.Picture
import MonkeySyntax.Proofs.Parser.Diagnosis
import MonkeySyntax.Proofs.Scanner.Munch

namespace MonkeySyntax

/-! Reports tell where the token at fault lies: as many bytes come before the caret as before the
token in the line above it.  So the caret stands below the token if the characters before that are
of one byte each. -/

/-- The token stands in the line of a spot, at its column. -/
structure Token.StandsAt (source : List Char) (token : Token) (spot : Text.LineSpot)
    (before left right after : List Char) : Prop where
  locates : spot.Locates 1 source token.span.start.offset.toNat before after
  line : spot.text.toList = left ++ (token.text.toList ++ right)
  column : Text.byteSize left = spot.column
  indent : Text.indent spot.text.toList = Text.indent left
  not_blank : ∀ c ∈ token.text.toList, Text.isBlank c = false
  word : token.kind ≠ .eof → token.text.toList ≠ []

/-- The indentation of a line ends before the token. -/
theorem Token.StandsIn.indent_append {source before right after : List Char} {token : Token}
    (h : token.StandsIn source before (right ++ after)) (left : List Char) :
    Text.indent (left ++ (token.text.toList ++ right)) = Text.indent left := by
  refine Text.indent_append fun c hc => ?_
  by_cases heof : token.kind = .eof
  · obtain ⟨htext, hrest⟩ := h.finish heof
    rw [htext, (List.append_eq_nil_iff.mp hrest).1] at hc
    cases hc
  · rw [List.head?_append_of_ne_nil _ (h.word heof)] at hc
    rintro rfl
    exact absurd Text.isBlank_space (by simp [h.not_blank _ (List.mem_of_head? hc)])

theorem Token.exists_standsAt {source : String} {file? : Option String} {token : Token}
    (hsize : source.utf8ByteSize < 2 ^ 32) (hmem : token ∈ tokenize source file?) :
    ∃ spot before left right after,
      Text.lineAt? source token.span.start.offset.toNat = some spot ∧
        token.StandsAt source.toList spot before left right after := by
  obtain ⟨front, rest, h⟩ := exists_standsIn hmem
  have hbytes := congrArg Text.byteSize h.split
  rw [Text.byteSize_append, Text.byteSize_toList] at hbytes
  have hstart : token.span.start.offset.toNat = Text.byteSize front := by
    rw [h.start]
    exact Nat.mod_eq_of_lt (by omega)
  obtain ⟨spot, before, after, hspot, hlocates⟩ :=
    @Text.exists_lineAt? source (Text.byteSize front) (by rw [Text.byteSize_toList]; omega)
  have hnewline : '\n' ∉ token.text.toList := fun hmem =>
    absurd Text.isBlank_newline (by simp [h.not_blank _ hmem])
  obtain ⟨left, right, hleft, hline, -, rfl⟩ := hlocates.exists_append h.split rfl hnewline
  rw [← hstart] at hspot hlocates
  refine ⟨spot, before, left, right, after, hspot, hlocates, hline, hleft, ?_, h.not_blank, h.word⟩
  rw [hline, h.indent_append]

namespace Token.StandsAt

open Diagnostic (Picture)

variable {source before left right after : List Char} {token : Token} {spot : Text.LineSpot}

theorem indent_le (h : token.StandsAt source spot before left right after) :
    Text.indent spot.text.toList ≤ spot.column := by
  rw [h.indent, ← h.column]
  exact (Text.indent_le_length left).trans (Text.length_le_byteSize left)

theorem line_ofSpot (h : token.StandsAt source spot before left right after)
    (hkind : token.kind ≠ .eof) :
    (Picture.ofSpot spot).line = (Picture.ofSpot spot).shownBefore left ++
      (token.text.toList ++ Text.trimRight right) := by
  -- The token does not end in a blank, so that blanks are cut off behind it only.
  have hlast : ∀ c ∈ (left.drop (Text.indent left) ++ token.text.toList).getLast?,
      Text.isBlank c = false := by
    intro c hc
    rw [List.getLast?_append_of_ne_nil _ (h.word hkind)] at hc
    exact h.not_blank c (List.mem_of_getLast? hc)
  rw [Picture.shownBefore, Picture.line, List.append_assoc]
  congr 1
  change Text.trimRight (spot.text.toList.drop (Text.indent spot.text.toList)) = _
  rw [h.indent, h.line, List.drop_append_of_le_length (Text.indent_le_length left),
    ← List.append_assoc, Text.trimRight_append hlast, List.append_assoc]

theorem byteSize_shownBefore (h : token.StandsAt source spot before left right after) :
    Text.byteSize ((Picture.ofSpot spot).shownBefore left) =
      Text.byteSize (Picture.ofSpot spot).under := by
  have hleft := congrArg Text.byteSize (List.take_append_drop (Text.indent left) left)
  rw [Text.byteSize_append, Text.take_indent, Text.byteSize_replicate_space, h.column] at hleft
  rw [Picture.shownBefore, Text.byteSize_append, Picture.byteSize_label,
    Picture.byteSize_under_ofSpot, Picture.length_under_ofSpot, h.indent]
  omega

theorem length_shownBefore (h : token.StandsAt source spot before left right after) :
    (Picture.ofSpot spot).under.length + left.length =
      ((Picture.ofSpot spot).shownBefore left).length + Text.byteSize left := by
  have hle := h.indent_le
  have hindent := Text.indent_le_length left
  rw [Picture.shownBefore, List.length_append, List.length_drop, Picture.length_under_ofSpot,
    h.column]
  rw [h.indent] at hle ⊢
  omega

end Token.StandsAt

/-! The reports of a text. -/

theorem Diagnostic.report_eq {diagnostic : Diagnostic} {source : String} {spot : Text.LineSpot}
    (hspot : Text.lineAt? source diagnostic.position.offset.toNat = some spot) :
    diagnostic.report source = diagnostic.headline ++ snippet spot := by
  rw [report, hspot]

theorem exists_standsAt_of_mem_parse {source : String} {file? : Option String}
    (hsize : source.utf8ByteSize < 2 ^ 32) {diagnostic : Diagnostic}
    (hmem : diagnostic ∈ (parse (Scanner.ofSource source file?)).2) :
    ∃ token ∈ tokenize source file?, diagnostic.Tells token ∧ ∃ spot before left right after,
      (Diagnostic.Picture.ofSpot spot).Ends (diagnostic.report source) ∧
        token.StandsAt source.toList spot before left right after := by
  obtain ⟨tokens, finish, hyields⟩ := TokenSource.exists_yields (Scanner.ofSource source file?)
  have htokens : tokenize source file? = tokens ++ [finish] := hyields.tokens_eq
  obtain ⟨token, htoken, htells⟩ := exists_tells_of_mem_parse hyields hmem
  rw [← htokens] at htoken
  obtain ⟨spot, before, left, right, after, hspot, hstands⟩ := Token.exists_standsAt hsize htoken
  refine ⟨token, htoken, htells, spot, before, left, right, after, ?_, hstands⟩
  rw [← htells.position] at hspot
  rw [Diagnostic.report_eq hspot]
  exact Diagnostic.Picture.ends_ofSpot _ hstands.locates.inside

/-- The report tells the offset, in bytes: they are those of the lines before the one that is
shown, the spaces that it starts with, and those between its label and the caret.  The bytes of the
token lie above the caret. -/
def Diagnostic.TellsOffset (source : String) (diagnostic : Diagnostic) (token : Token) : Prop :=
  ∃ picture before line after distance,
    Picture.Ends (diagnostic.report source) picture ∧
      picture.Points source.toList diagnostic.position.offset.toNat before line after distance ∧
      (token.kind ≠ .eof → token.text ≠ "" ∧
        (String.ofList picture.line).toByteArray.extract (Text.byteSize picture.under)
          (Text.byteSize picture.under + token.text.utf8ByteSize) = token.text.toByteArray)

/-- Where a token lies can be told from the report of the fault at it. -/
theorem report_tellsOffset {source : String} (file? : Option String)
    (hsize : source.utf8ByteSize < 2 ^ 32) :
    ∀ diagnostic ∈ (parse (Scanner.ofSource source file?)).2,
      ∃ token ∈ tokenize source file?,
        diagnostic.Tells token ∧ diagnostic.TellsOffset source token := by
  intro diagnostic hmem
  obtain ⟨token, htoken, htells, spot, before, left, right, after, hends, h⟩ :=
    exists_standsAt_of_mem_parse hsize hmem
  have hpoints := Diagnostic.Picture.points_ofSpot h.locates h.indent_le
  rw [← htells.position] at hpoints
  refine ⟨token, htoken, htells, _, _, _, _, _, hends, hpoints, fun hkind => ⟨?_, ?_⟩⟩
  · exact fun htext => h.word hkind (String.toList_eq_nil_iff.mpr htext)
  · rw [h.line_ofSpot hkind, ← h.byteSize_shownBefore, ← Text.utf8ByteSize_ofList,
      ← List.append_assoc, String.ofList_append, String.ofList_append, String.ofList_toList]
    exact Text.extract_append ..

/-- Faults behind an indentation, at a character of two bytes before a blank of three that is cut
off, and at the end. -/
theorem report_tellsOffset_threeLines :
    let source := "a;\n   let é 5;\u3000\n\tif (b"
    let diagnostics := (parse (Scanner.ofSource source none)).2
    source.utf8ByteSize < 2 ^ 32 ∧ diagnostics.map (·.position.offset) = [10, 25] ∧
      ∀ diagnostic ∈ diagnostics, ∃ token ∈ tokenize source none,
        diagnostic.Tells token ∧ diagnostic.TellsOffset source token := by
  intro source diagnostics
  have hsize : source.utf8ByteSize < 2 ^ 32 := by decide
  exact ⟨hsize, by decide +kernel, report_tellsOffset none hsize⟩

/-- The character above the caret is the first one of the token. -/
def Diagnostic.CaretBelow (source : String) (diagnostic : Diagnostic) (token : Token) : Prop :=
  ∃ picture, Picture.Ends (diagnostic.report source) picture ∧
    picture.line[picture.under.length]? = token.text.toList.head?

/-- The caret stands behind the first character of the token by as many columns as the characters
before the token have bytes more than one.  So it stands below that character if there are none. -/
theorem caretBelow_of_singleBytes {source : String} (file? : Option String)
    (hsize : source.utf8ByteSize < 2 ^ 32) :
    ∀ diagnostic ∈ (parse (Scanner.ofSource source file?)).2,
      ∃ token ∈ tokenize source file?, diagnostic.Tells token ∧
        (token.kind ≠ .eof →
          ∃ spot before left right after picture back,
            token.StandsAt source.toList spot before left right after ∧
              Diagnostic.Picture.Ends (diagnostic.report source) picture ∧
              picture.line = picture.shownBefore left ++ (token.text.toList ++ back) ∧
              picture.under.length + left.length =
                (picture.shownBefore left).length + Text.byteSize left ∧
              (picture.under.length = (picture.shownBefore left).length ↔
                ∀ c ∈ left, c.utf8Size = 1) ∧
              ((∀ c ∈ left, c.utf8Size = 1) → diagnostic.CaretBelow source token)) := by
  intro diagnostic hmem
  obtain ⟨token, htoken, htells, spot, before, left, right, after, hends, h⟩ :=
    exists_standsAt_of_mem_parse hsize hmem
  refine ⟨token, htoken, htells, fun hkind => ?_⟩
  have hline := h.line_ofSpot hkind
  have hlength := h.length_shownBefore
  have hiff : (Diagnostic.Picture.ofSpot spot).under.length =
      ((Diagnostic.Picture.ofSpot spot).shownBefore left).length ↔ ∀ c ∈ left, c.utf8Size = 1 := by
    rw [← Text.byteSize_eq_length_iff]
    omega
  refine ⟨spot, before, left, right, after, _, _, h, hends, hline, hlength, hiff,
    fun hleft => ⟨_, hends, ?_⟩⟩
  rw [hline, hiff.mpr hleft, List.getElem?_append_right (Nat.le_refl _), Nat.sub_self,
    ← List.head?_eq_getElem?, List.head?_append_of_ne_nil _ (h.word hkind)]

/-- In a text of single bytes the caret stands below the token. -/
theorem caretBelow_of_singleBytes_twoFaults :
    let source := "let x 5;\n  (a; b"
    let diagnostics := (parse (Scanner.ofSource source none)).2
    source.utf8ByteSize < 2 ^ 32 ∧ diagnostics.map (·.position.offset) = [6, 13] ∧
      ∀ diagnostic ∈ diagnostics, ∃ token ∈ tokenize source none,
        diagnostic.Tells token ∧ (token.kind ≠ .eof → diagnostic.CaretBelow source token) := by
  intro source diagnostics
  have hsize : source.utf8ByteSize < 2 ^ 32 := by decide
  have hbytes : source.toList.all (·.utf8Size == 1) = true := by decide
  refine ⟨hsize, by decide +kernel, fun diagnostic hmem => ?_⟩
  obtain ⟨token, htoken, htells, hcaret⟩ := caretBelow_of_singleBytes none hsize diagnostic hmem
  refine ⟨token, htoken, htells, fun hkind => ?_⟩
  obtain ⟨spot, before, left, right, after, -, -, hstands, -, -, -, -, hbelow⟩ := hcaret hkind
  refine hbelow fun c hc => beq_iff_eq.mp (List.all_eq_true.mp hbytes c ?_)
  rw [hstands.locates.split, hstands.line]
  simp [hc]

/-- A character of two bytes moves the caret from the token at fault to behind the end of the
line. -/
theorem not_caretBelow_twoBytes :
    let source := "é; )"
    ∃ diagnostic ∈ (parse (Scanner.ofSource source none)).2, ∃ token ∈ tokenize source none,
      diagnostic.Tells token ∧ token.kind ≠ .eof ∧ ¬ diagnostic.CaretBelow source token := by
  intro source
  let diagnostic : Diagnostic := ⟨.noOperand .closeParen, ⟨4, "shell"⟩⟩
  have hdiagnostic : diagnostic ∈ (parse (Scanner.ofSource source none)).2 := by decide +kernel
  have htoken : ⟨.closeParen, ")", .ofRange "shell" 4 1⟩ ∈ tokenize source none := by
    decide +kernel
  refine ⟨diagnostic, hdiagnostic, _, htoken, ⟨rfl, rfl, rfl⟩, nofun, ?_⟩
  rintro ⟨picture, hends, hcaret⟩
  have hspot : Text.lineAt? source diagnostic.position.offset.toNat = some ⟨1, "é; )", 4⟩ := by
    decide
  have hpicture : (Diagnostic.Picture.ofSpot ⟨1, "é; )", 4⟩).Ends (diagnostic.report source) := by
    rw [Diagnostic.report_eq hspot]
    exact Diagnostic.Picture.ends_ofSpot _ (by decide)
  -- The line has eight characters, and eight come before the caret.
  rw [hends.unique hpicture] at hcaret
  exact absurd hcaret (by decide)

end MonkeySyntax
