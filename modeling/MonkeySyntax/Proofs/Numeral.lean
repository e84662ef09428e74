import MonkeySyntax.Numeral
import Mathlib.Data.Nat.Digits.Defs
import Mathlib.Tactic.Ring

namespace MonkeySyntax.Numeral

/-! A literal is read as the number that its digits stand for in its base.  Nothing else is
read, and no number that does not fit in a signed word. -/

/-- The digits of all bases, each at the place of its value. -/
def alphabet : List Char := "0123456789abcdef".toList

/-- The value of a digit.  A capital letter has that of the small one. -/
def weight (c : Char) : Nat :=
  alphabet.idxOf c.toLower

/-- The character is one of the first `radix` digits. -/
def IsDigit (radix : Nat) (c : Char) : Prop :=
  c.toLower ∈ alphabet.take radix

instance (radix : Nat) (c : Char) : Decidable (IsDigit radix c) :=
  inferInstanceAs (Decidable (_ ∈ _))

/-- The letters that name a base, after a zero. -/
def bases : List (Char × Nat) :=
  [('x', 16), ('X', 16), ('o', 8), ('O', 8), ('b', 2), ('B', 2)]

/-- The base that the text names and what comes after it, or the base ten and all of the text. -/
inductive InBase : List Char → Nat → List Char → Prop
  | ten {digits : List Char} : InBase digits 10 digits
  | named {letter : Char} {radix : Nat} {digits : List Char} (hletter : (letter, radix) ∈ bases) :
      InBase ('0' :: letter :: digits) radix digits

/-- The digits stand for the number, the most significant one first. -/
structure Represents (radix : Nat) (digits : List Char) (number : Nat) : Prop where
  ne_nil : digits ≠ []
  isDigit : ∀ c ∈ digits, IsDigit radix c
  positional : number = Nat.ofDigits radix (digits.map weight).reverse

/-- The text is a literal of the number. -/
def Denotes (text : List Char) (number : Nat) : Prop :=
  ∃ radix digits, InBase text radix digits ∧ Represents radix digits number

/-! Single digits, in any of the bases. -/

def radices : List Nat := [10, 16, 8, 2]

theorem digit?_ofNat {radix code : Nat} (hradix : radix ∈ radices) (hcode : code < 128) :
    digit? radix (Char.ofNat code) =
      if IsDigit radix (Char.ofNat code) then some (weight (Char.ofNat code)) else none := by
  have hall : ∀ radix ∈ radices, ∀ code < 128, digit? radix (Char.ofNat code) =
      if IsDigit radix (Char.ofNat code) then some (weight (Char.ofNat code)) else none := by
    decide +kernel
  exact hall radix hradix code hcode

theorem digit?_of_not_ascii (radix : Nat) {c : Char} (h : 128 ≤ c.toNat) :
    digit? radix c = none := by
  have hdigit : c.isDigit = false := by
    simp only [Char.isDigit, Bool.and_eq_false_iff, decide_eq_false_iff_not, ge_iff_le,
      UInt32.le_iff_toNat_le, Nat.not_le]
    exact .inr (Nat.lt_of_lt_of_le (by decide) h)
  have hgreater (last : Char) (hlast : last.toNat < 128) : ¬ c ≤ last := by
    rw [Char.le_def, UInt32.le_iff_toNat_le, Nat.not_le]
    exact Nat.lt_of_lt_of_le hlast h
  simp [digit?, hdigit, hgreater 'z' (by decide), hgreater 'Z' (by decide)]

theorem not_isDigit_of_not_ascii (radix : Nat) {c : Char} (h : 128 ≤ c.toNat) :
    ¬ IsDigit radix c := by
  have hgreater : ¬ c.val ≤ 'Z'.val := by
    rw [UInt32.le_iff_toNat_le, Nat.not_le]
    exact Nat.lt_of_lt_of_le (by decide) h
  have hlower : c.toLower = c := dif_neg fun hupper => hgreater hupper.2
  have hascii : alphabet.all (fun digit => digit.toNat < 128) = true := by decide
  intro hdigit
  rw [IsDigit, hlower] at hdigit
  have hcode := List.all_eq_true.mp hascii c (List.mem_of_mem_take hdigit)
  exact absurd (of_decide_eq_true hcode) (Nat.not_lt.mpr h)

theorem digit?_eq {radix : Nat} (hradix : radix ∈ radices) (c : Char) :
    digit? radix c = if IsDigit radix c then some (weight c) else none := by
  rcases Nat.lt_or_ge c.toNat 128 with hcode | hcode
  · have hdigit := digit?_ofNat hradix hcode
    rwa [Char.ofNat_toNat] at hdigit
  · rw [digit?_of_not_ascii radix hcode, if_neg (not_isDigit_of_not_ascii radix hcode)]

/-! Digit by digit. -/

theorem fit?_natCast (number : Nat) :
    fit? number = if number ≤ limit then some (number : Int) else none := by
  unfold fit?
  exact if_congr (by omega) rfl rfl

theorem accumulate_cons {radix : Nat} (hradix : radix ∈ radices) (value : Nat) (c : Char)
    (rest : List Char) :
    accumulate radix (· + ·) value (c :: rest) =
      if IsDigit radix c ∧ value * radix + weight c ≤ limit then
        accumulate radix (· + ·) (value * radix + weight c : Nat) rest
      else none := by
  have hproduct : (value : Int) * radix = (value * radix : Nat) := (Int.natCast_mul ..).symm
  have hsum : ((value * radix : Nat) : Int) + (weight c : Nat) =
      (value * radix + weight c : Nat) := (Int.natCast_add ..).symm
  rw [accumulate, digit?_eq hradix, hproduct, fit?_natCast]
  by_cases hdigit : IsDigit radix c
  · by_cases hle : value * radix ≤ limit
    · simp only [hdigit, hle, if_true, true_and, Option.bind_eq_bind, Option.bind_some, hsum,
        fit?_natCast]
      split <;> rfl
    · have hgreater : ¬ value * radix + weight c ≤ limit := fun h =>
        hle (Nat.le_trans (Nat.le_add_right ..) h)
      simp only [hle, hgreater, and_false, if_false, Option.bind_eq_bind, Option.bind_none]
  · simp only [hdigit, false_and, if_false, Option.bind_eq_bind, Option.bind_none,
      Option.bind_fun_none]

/-- What has been read never gets less, so that the limit is passed at the end if it has been
passed on the way. -/
theorem accumulate_eq_some_iff {radix : Nat} (hradix : radix ∈ radices) {value : Nat}
    (hvalue : value ≤ limit) {digits : List Char} {result : Int} :
    accumulate radix (· + ·) value digits = some result ↔
      (∀ c ∈ digits, IsDigit radix c) ∧ ∃ number : Nat, result = number ∧ number ≤ limit ∧
        number = value * radix ^ digits.length +
          Nat.ofDigits radix (digits.map weight).reverse := by
  induction digits generalizing value with
  | nil =>
      simp only [accumulate, Option.some.injEq, List.not_mem_nil, false_implies, implies_true,
        true_and, List.length_nil, pow_zero, Nat.mul_one, List.map_nil, List.reverse_nil,
        Nat.ofDigits_nil, Nat.add_zero]
      constructor
      · rintro rfl
        exact ⟨value, rfl, hvalue, rfl⟩
      · rintro ⟨number, rfl, -, rfl⟩
        rfl
  | cons c rest ih =>
      have hsum : value * radix ^ (c :: rest).length +
            Nat.ofDigits radix ((c :: rest).map weight).reverse =
          (value * radix + weight c) * radix ^ rest.length +
            Nat.ofDigits radix (rest.map weight).reverse := by
        rw [List.map_cons, Nat.ofDigits_reverse_cons, List.length_map, List.length_cons]
        ring
      rw [accumulate_cons hradix, hsum, List.forall_mem_cons]
      by_cases hnext : value * radix + weight c ≤ limit
      · by_cases hdigit : IsDigit radix c
        · rw [if_pos ⟨hdigit, hnext⟩, ih hnext]
          simp only [hdigit, true_and]
        · simp only [hdigit, false_and, if_false, reduceCtorEq]
      · rw [if_neg fun h => hnext h.2]
        have hpos : 0 < radix ^ rest.length := by
          refine Nat.pow_pos (Nat.pos_of_ne_zero ?_)
          rintro rfl
          exact absurd hradix (by decide)
        have hle := Nat.le_mul_of_pos_right (value * radix + weight c) hpos
        simp only [reduceCtorEq, false_iff, not_and, not_exists]
        intro _ number _ hnumber
        omega

/-! The base and the digits of a text. -/

/-- A text is cut behind the letter that names its base, which is at the end of a character. -/
theorem radixAndDigits?_named {letter : Char} {radix : Nat} {digits : List Char}
    (hletter : (letter, radix) ∈ bases) :
    radixAndDigits? ('0' :: letter :: digits) = some (radix, digits) := by
  simp only [bases, List.mem_cons, Prod.mk.injEq, List.not_mem_nil, or_false] at hletter
  have htake := Text.takeBytes?_byteSize_append ['0', letter] digits
  have hdrop := Text.dropBytes?_byteSize_append ['0', letter] digits
  rcases hletter with ⟨rfl, rfl⟩ | ⟨rfl, rfl⟩ | ⟨rfl, rfl⟩ | ⟨rfl, rfl⟩ | ⟨rfl, rfl⟩ |
    ⟨rfl, rfl⟩
  all_goals
    rw [radixAndDigits?]
    change Text.takeBytes? 2 _ = _ at htake
    change Text.dropBytes? 2 _ = _ at hdrop
    rw [List.cons_append, List.singleton_append] at htake hdrop
    rw [htake, hdrop]
    rfl

theorem radixAndDigits?_cases (text : List Char) :
    radixAndDigits? text = some (10, text) ∨ ∃ letter radix digits, (letter, radix) ∈ bases ∧
      text = '0' :: letter :: digits := by
  have hcut {letter : Char} {radix : Nat} (hletter : (letter, radix) ∈ bases)
      (htake : Text.takeBytes? 2 text = some ['0', letter]) :
      ∃ letter radix digits, (letter, radix) ∈ bases ∧ text = '0' :: letter :: digits := by
    obtain ⟨digits, rfl, -⟩ := Text.exists_append_of_takeBytes? htake
    exact ⟨letter, radix, digits, hletter, rfl⟩
  unfold radixAndDigits?
  split
  case h_7 => exact .inl rfl
  all_goals
    rename_i htake
    exact .inr (hcut (by simp [bases]; rfl) htake)

/-- Nothing is cut inside a character. -/
theorem exists_radixAndDigits? (text : List Char) :
    ∃ radix digits, radixAndDigits? text = some (radix, digits) ∧ InBase text radix digits := by
  rcases radixAndDigits?_cases text with hten | ⟨letter, radix, digits, hletter, rfl⟩
  · exact ⟨10, text, hten, .ten⟩
  · exact ⟨radix, digits, radixAndDigits?_named hletter, .named hletter⟩

/-- No letter that names a base is a digit of the base ten, so digits of that base name none. -/
theorem InBase.radixAndDigits?_eq {text digits : List Char} {radix : Nat}
    (h : InBase text radix digits) (hdigits : ∀ c ∈ digits, IsDigit radix c) :
    radixAndDigits? text = some (radix, digits) := by
  cases h with
  | ten =>
      rcases radixAndDigits?_cases text with hten | ⟨letter, radix, others, hletter, rfl⟩
      · exact hten
      · have hbases : ∀ base ∈ bases, ¬ IsDigit 10 base.1 := by decide
        exact absurd (hdigits letter (by simp)) (hbases _ hletter)
  | named hletter => exact radixAndDigits?_named hletter

theorem InBase.mem_radices {text digits : List Char} {radix : Nat}
    (h : InBase text radix digits) : radix ∈ radices := by
  cases h with
  | ten => decide
  | named hletter =>
      have hbases : ∀ base ∈ bases, base.2 ∈ radices := by decide
      exact hbases _ hletter

theorem denotes_iff {text digits : List Char} {radix number : Nat}
    (hcut : radixAndDigits? text = some (radix, digits)) (hbase : InBase text radix digits) :
    Denotes text number ↔ Represents radix digits number := by
  constructor
  · rintro ⟨radix', digits', hbase', hdigits⟩
    have heq := hcut.symm.trans (hbase'.radixAndDigits?_eq hdigits.isDigit)
    rw [Option.some.injEq, Prod.mk.injEq] at heq
    obtain ⟨rfl, rfl⟩ := heq
    exact hdigits
  · exact fun hdigits => ⟨_, _, hbase, hdigits⟩

/-! Signs.  They are read before digits, but no literal has one. -/

theorem Represents.not_startsWithSign {radix : Nat} {digits : List Char} {number : Nat}
    (h : Represents radix digits number) : startsWithSign digits = false := by
  have hsign : '+' ∉ alphabet ∧ '-' ∉ alphabet := by decide
  cases digits with
  | nil => rfl
  | cons c rest =>
      have hmem := List.mem_of_mem_take (h.isDigit c (by simp))
      rw [Bool.eq_false_iff]
      intro hc
      have hc' : c = '+' ∨ c = '-' := by simpa [startsWithSign] using hc
      rcases hc' with rfl | rfl
      · exact hsign.1 hmem
      · exact hsign.2 hmem

theorem signed?_of_not_sign {digits : List Char} (radix : Nat) (hne : digits ≠ [])
    (hsign : startsWithSign digits = false) :
    signed? radix digits = accumulate radix (· + ·) 0 digits := by
  unfold signed?
  split
  case h_1 => exact absurd rfl hne
  case h_6 => rfl
  all_goals exact absurd hsign (by simp [startsWithSign])

theorem signed?_eq_some_iff {radix : Nat} (hradix : radix ∈ radices) {digits : List Char}
    (hne : digits ≠ []) (hsign : startsWithSign digits = false) {result : Int} :
    signed? radix digits = some result ↔
      ∃ number : Nat, result = number ∧ Represents radix digits number ∧ number ≤ limit := by
  rw [signed?_of_not_sign radix hne hsign, ← Int.natCast_zero,
    accumulate_eq_some_iff hradix (Nat.zero_le limit), Nat.zero_mul, Nat.zero_add]
  constructor
  · rintro ⟨hdigits, number, hresult, hlimit, hnumber⟩
    exact ⟨number, hresult, ⟨hne, hdigits, hnumber⟩, hlimit⟩
  · rintro ⟨number, hresult, ⟨-, hdigits, hnumber⟩, hlimit⟩
    exact ⟨hdigits, number, hresult, hlimit, hnumber⟩

theorem read?_eq {text : String} {radix : Nat} {digits : List Char}
    (hcut : radixAndDigits? text.toList = some (radix, digits)) :
    read? text = some (if digits = [] ∨ startsWithSign digits then none
      else (signed? radix digits).map .ofInt) := by
  rw [read?, hcut]
  simp only [Option.bind_eq_bind, Option.bind_some, List.isEmpty_iff]
  split <;> rfl

/-- A literal is never cut inside a character. -/
theorem read?_eq_value? (text : String) : read? text = some (value? text) := by
  obtain ⟨radix, digits, hcut, -⟩ := exists_radixAndDigits? text.toList
  rw [value?, read?_eq hcut]
  rfl

theorem value?_eq_some_iff {text : String} {value : Int64} :
    value? text = some value ↔
      ∃ number, Denotes text.toList number ∧ number ≤ limit ∧ .ofNat number = value := by
  obtain ⟨radix, digits, hcut, hbase⟩ := exists_radixAndDigits? text.toList
  rw [value?, read?_eq hcut, Option.join_some]
  simp only [denotes_iff hcut hbase]
  by_cases hrefused : digits = [] ∨ startsWithSign digits
  · rw [if_pos hrefused]
    simp only [reduceCtorEq, false_iff, not_exists, not_and]
    intro number hnumber
    rcases hrefused with hnil | hsign
    · exact absurd hnil hnumber.ne_nil
    · exact absurd (hsign.symm.trans hnumber.not_startsWithSign) Bool.noConfusion
  · obtain ⟨hne, hsign⟩ := not_or.mp hrefused
    rw [if_neg hrefused, Option.map_eq_some_iff]
    simp only [signed?_eq_some_iff hbase.mem_radices hne (Bool.eq_false_of_not_eq_true hsign)]
    constructor
    · rintro ⟨result, ⟨number, rfl, hnumber, hlimit⟩, rfl⟩
      exact ⟨number, hnumber, hlimit, rfl⟩
    · rintro ⟨number, hnumber, hlimit, rfl⟩
      exact ⟨number, ⟨number, rfl, hnumber, hlimit⟩, rfl⟩

theorem toInt_ofNat {number : Nat} (h : number ≤ limit) : (Int64.ofNat number).toInt = number :=
  Int64.toInt_ofNat_of_lt (Nat.lt_of_le_of_lt h (by decide))

/-- A text is read as a value exactly when it is a literal of that number, of ten digits or of
those of the base that it names, and the number fits.  It is refused otherwise: when it is no
literal at all, or one of a greater number.  Reading it comes to an end in any case: it is never
cut inside a character. -/
theorem value?_eq_some_iff_denotes (text : String) :
    (∀ value, value? text = some value ↔
      ∃ number, Denotes text.toList number ∧ number ≤ 2 ^ 63 - 1 ∧ value.toInt = number) ∧
    (value? text = none ↔ ∀ number, Denotes text.toList number → 2 ^ 63 - 1 < number) ∧
    read? text = some (value? text) := by
  refine ⟨fun value => ?_, ?_, read?_eq_value? text⟩
  · rw [value?_eq_some_iff]
    refine exists_congr fun number => and_congr_right fun _ => and_congr_right fun hlimit => ?_
    rw [← Int64.toInt_inj, toInt_ofNat hlimit, eq_comm]
  · rw [Option.eq_none_iff_forall_ne_some]
    constructor
    · intro hnone number hnumber
      by_contra hlimit
      exact hnone _ (value?_eq_some_iff.mpr ⟨number, hnumber, Nat.not_lt.mp hlimit, rfl⟩)
    · intro hgreater value hvalue
      obtain ⟨number, hnumber, hlimit, -⟩ := value?_eq_some_iff.mp hvalue
      exact Nat.not_lt.mpr hlimit (hgreater number hnumber)

/-- The last of the numbers that fit, and the first that does not. -/
example : value? "0x00007FFFFFFFFFFFFFFF" = some 9223372036854775807 ∧
    value? "9223372036854775808" = none := by decide +kernel

/-- A signed word could be read after the letter, and is not. -/
example : signed? 16 ['-', '1'] = some (-1) ∧ value? "0x-1" = none := by decide +kernel

end MonkeySyntax.Numeral
