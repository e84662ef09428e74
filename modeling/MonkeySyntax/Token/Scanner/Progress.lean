import MonkeySyntax.Token.Scanner

namespace MonkeySyntax.Scanner

/-! Every token but the end takes at least one character. -/

theorem length_skipTrivia_le (inComment : Bool) (offset : Nat) (text : List Char) :
    (skipTrivia inComment offset text).2.length ≤ text.length := by
  induction text generalizing inComment offset with
  | nil => simp [skipTrivia]
  | cons c text ih =>
      unfold skipTrivia
      repeat' split
      all_goals first
        | exact Nat.le_succ_of_le (ih ..)
        | exact Nat.le_refl _

theorem ofWord_ne_eof (word : String) : Kind.ofWord word ≠ .eof := by
  unfold Kind.ofWord Kind.reserved?
  split <;> simp

theorem symbol_progress (c : Char) (rest : List Char) :
    (symbol c rest).1 ≠ .eof ∧ 0 < (symbol c rest).2 ∧
      (symbol c rest).2 ≤ (c :: rest).length := by
  have hsymbols : ∀ symbol ∈ Symbol.all, symbol.kind ≠ .eof ∧ 0 < symbol.pattern.length := by
    decide
  rw [symbol]
  cases hfind : Symbol.find? (c :: rest) with
  | none => simp
  | some symbol =>
      obtain ⟨hkind, hpos⟩ := hsymbols symbol (Symbol.mem_of_find? hfind)
      obtain ⟨others, htext⟩ := Symbol.exists_append_of_find? hfind
      refine ⟨hkind, hpos, ?_⟩
      rw [htext, List.length_append]
      exact Nat.le_add_right _ _

theorem munch_progress (c : Char) (rest : List Char) :
    (munch (c :: rest)).1 ≠ .eof ∧ 0 < (munch (c :: rest)).2 ∧
      (munch (c :: rest)).2 ≤ (c :: rest).length := by
  have hle := (List.takeWhile_prefix isNamePart (l := rest)).length_le
  rw [munch]
  split
  · exact ⟨ofWord_ne_eof _, by simp, by simpa using hle⟩
  · split
    · exact ⟨nofun, by simp, by simpa using hle⟩
    · exact symbol_progress c rest

@[simp] theorem cut_nil (file : String) (offset : Nat) :
    cut file offset [] = (.endAt ⟨offset.toUInt32, file⟩, ⟨[], offset, file⟩) := rfl

theorem kind_cut_cons (file : String) (offset : Nat) (c : Char) (rest : List Char) :
    (cut file offset (c :: rest)).1.kind ≠ .eof :=
  (munch_progress c rest).1

theorem length_cut_cons (file : String) (offset : Nat) (c : Char) (rest : List Char) :
    (cut file offset (c :: rest)).2.rest.length < (c :: rest).length := by
  have h := munch_progress c rest
  simp only [cut, List.length_drop]
  omega

instance : LawfulTokenSource Scanner where
  weight_next_add_remaining_le scanner := by
    simp only [TokenSource.next, TokenSource.remaining, next]
    have hle := length_skipTrivia_le false scanner.offset scanner.rest
    generalize skipTrivia false scanner.offset scanner.rest = skipped at hle ⊢
    obtain ⟨offset, text⟩ := skipped
    cases text with
    | nil => simp [Token.weight_of_eof (Token.kind_endAt _)]
    | cons c rest =>
        have hlt := length_cut_cons scanner.file offset c rest
        rw [Token.weight_of_ne_eof (kind_cut_cons scanner.file offset c rest)]
        dsimp only at hle hlt ⊢
        omega
  next_next scanner h := by
    simp only [TokenSource.next, next] at h ⊢
    generalize skipTrivia false scanner.offset scanner.rest = skipped at h ⊢
    obtain ⟨offset, text⟩ := skipped
    cases text with
    | nil => rfl
    | cons c rest => exact absurd h (kind_cut_cons scanner.file offset c rest)

end MonkeySyntax.Scanner
