/-
Digits and the numbers they stand for: writing a number and reading it back gives the number, with
zeros in front of it or without, and every integer of a fixed width is in the range of its width.
-/
import WorkItemQuery.Number.Decimal
import WorkItemQuery.Text.Scan

namespace WorkItemQuery.Number

open WorkItemQuery.Text

theorem ofDigits_eq (cs : List Char) : ofDigits cs = Nat.ofDigitChars 10 cs 0 := by
  rw [Nat.ofDigitChars_eq_foldl]; rfl

theorem ofDigits_digitsOf (n : Nat) : ofDigits (digitsOf n) = n := by
  rw [ofDigits_eq]; exact Nat.ofDigitChars_ten_toDigits

theorem ofDigits_padded (width n : Nat) : ofDigits (padded width n) = n := by
  rw [padded, ofDigits_eq, Nat.ofDigitChars_append, Nat.ofDigitChars_replicate_zero, Nat.mul_zero, ← ofDigits_eq,
    ofDigits_digitsOf]

theorem isDigit_of_mem_digitsOf {n : Nat} {c : Char} (h : c ∈ digitsOf n) : Scan.isDigit c = true := by
  have hd := Nat.isDigit_of_mem_toDigits (by decide) (by decide) h
  simpa [Char.isDigit, Scan.isDigit, Char.le_def, UInt32.le_iff_toNat_le] using hd

theorem isDigit_of_mem_padded {width n : Nat} {c : Char} (h : c ∈ padded width n) : Scan.isDigit c = true := by
  rcases List.mem_append.1 h with h | h
  · rw [List.eq_of_mem_replicate h]; decide
  · exact isDigit_of_mem_digitsOf h

theorem digitsOf_ne_nil (n : Nat) : digitsOf n ≠ [] := by
  intro h
  have hlength : 0 < (Nat.toDigits 10 n).length := Nat.length_toDigits_pos
  rw [show Nat.toDigits 10 n = [] from h] at hlength
  exact absurd hlength (by decide)

theorem head?_digitsOf {n : Nat} (h : 0 < n) : (digitsOf n).head? ≠ some '0' := by
  induction n using Nat.strongRecOn with
  | ind n ih =>
    by_cases hlt : n < 10
    · have hdigit : ∀ d < 10, 0 < d → Nat.digitChar d ≠ '0' := by decide
      rw [digitsOf, Nat.toDigits_of_lt_base hlt]
      exact fun hhead => hdigit n hlt h (Option.some.inj hhead)
    · -- the digits of a tenth stand in front
      obtain ⟨d, ds, hds⟩ := List.exists_cons_of_ne_nil (digitsOf_ne_nil (n / 10))
      have hih := ih (n / 10) (by omega) (by omega)
      rw [digitsOf, Nat.toDigits_of_base_le (by decide) (by omega), ← digitsOf, hds]
      rwa [hds] at hih

/-- A zero stands alone. -/
theorem digitsOf_ne_zero_cons (n : Nat) (d : Char) (ds : List Char) : digitsOf n ≠ '0' :: d :: ds := by
  intro hdigits
  rcases Nat.eq_zero_or_pos n with rfl | hpos
  · exact absurd hdigits (by simp [digitsOf])
  · exact head?_digitsOf hpos (by rw [hdigits]; rfl)

theorem padded_ne_nil (width n : Nat) : padded width n ≠ [] :=
  List.append_ne_nil_of_right_ne_nil _ (digitsOf_ne_nil n)

theorem length_padded {width n : Nat} (hw : 0 < width) (h : n < Nat.pow 10 width) :
    (padded width n).length = width := by
  have hle : (digitsOf n).length ≤ width := (Nat.length_toDigits_le_iff (by decide) hw).2 h
  rw [padded, List.length_append, List.length_replicate]
  omega

/-! ## Integers of a fixed width -/

theorem int16?_toInt (v : Int16) : int16? v.toInt = some v := by
  have hle := v.le_toInt
  have hlt := v.toInt_lt
  rw [int16?, if_pos ⟨by omega, by omega⟩, Int16.ofInt_toInt]

theorem int32?_toInt (v : Int32) : int32? v.toInt = some v := by
  have hle := v.le_toInt
  have hlt := v.toInt_lt
  rw [int32?, if_pos ⟨by omega, by omega⟩, Int32.ofInt_toInt]

theorem int64?_toInt (v : Int64) : int64? v.toInt = some v := by
  have hle := v.le_toInt
  have hlt := v.toInt_lt
  rw [int64?, if_pos ⟨by omega, by omega⟩, Int64.ofInt_toInt]

theorem int32?_eq_none {i : Int} : int32? i = none ↔ i < -2147483648 ∨ 2147483647 < i := by
  unfold int32?
  split
  · simp; omega
  · simp; omega

theorem toInt_of_int64? {i : Int} {v : Int64} (h : int64? i = some v) : v.toInt = i := by
  unfold int64? at h
  split at h
  · cases h
    exact Int64.toInt_ofInt_of_le (by omega) (by omega)
  · cases h

end WorkItemQuery.Number
