/-
The ways to write an instant in full, as RFC 3339 has them: the date and the clock of some place, a
fraction of the second in up to nine places, and how far the place is ahead of universal time. Each of
them is read back as the instant. The exact text of an instant is one of them if its year has four
digits.
-/
import WorkItemQuery.Proofs.Number.Digits
import WorkItemQuery.Proofs.Text.Scan
import WorkItemQuery.Time.Reading

namespace WorkItemQuery.Time

open WorkItemQuery.Number WorkItemQuery.Text

/-- The ways to write a fraction of a second. -/
inductive FractionText : Fin 1000000000 → List Char → Prop
  | none : FractionText 0 []
  | digits {n : Fin 1000000000} {ds : List Char} : ds ≠ [] → ds.length ≤ 9 → (∀ c ∈ ds, Scan.isDigit c = true) →
      n.val = ofDigits ds * Nat.pow 10 (9 - ds.length) → FractionText n ('.' :: ds)

/-- The ways to write an offset from universal time, given in minutes. -/
inductive OffsetText : Int → List Char → Prop
  | universal {c : Char} : c = 'Z' ∨ c = 'z' → OffsetText 0 [c]
  | ahead {hours minutes : Nat} : hours ≤ 23 → minutes ≤ 59 →
      OffsetText (hours * 60 + minutes) ('+' :: (padded 2 hours ++ ':' :: padded 2 minutes))
  | behind {hours minutes : Nat} : hours ≤ 23 → minutes ≤ 59 →
      OffsetText (-(hours * 60 + minutes)) ('-' :: (padded 2 hours ++ ':' :: padded 2 minutes))

/-- The years that four digits can write. -/
def Timestamp.HasShortYear (t : Timestamp) : Prop := 0 ≤ t.date.year ∧ t.date.year ≤ 9999

instance (t : Timestamp) : Decidable t.HasShortYear := inferInstanceAs (Decidable (_ ∧ _))

/-- The ways to write an instant in full. -/
inductive Rfc3339 (t : Timestamp) : List Char → Prop
  | mk {here : Timestamp} {offset : Int} {divider : Char} {fraction zone : List Char} : here.HasShortYear →
      isDivider divider = true → FractionText here.nanos fraction → OffsetText offset zone →
      here.ofLocal? offset = some t →
      Rfc3339 t (here.date.chars ++ divider :: (here.clockChars ++ (fraction ++ zone)))

/-! ## Scans -/

theorem digitsWithin_padded {low width n : Nat} (hlow : low ≤ width) (hwidth : 0 < width) (hn : n < Nat.pow 10 width)
    (rest : List Char) : Scan.digitsWithin low width (padded width n ++ rest) = some (padded width n, rest) :=
  digitsWithin_append hlow (length_padded hwidth hn) fun _ => isDigit_of_mem_padded

theorem scanTwo_padded {n : Nat} (hn : n < 100) (rest : List Char) :
    scanTwo (padded 2 n ++ rest) = some (n, rest) := by
  unfold scanTwo
  rw [scan_bind (digitsWithin_padded (by decide) (by decide) hn rest), ofDigits_padded]
  rfl

theorem scanYear_padded {n : Nat} (hn : n < 10000) (rest : List Char) :
    scanYear (padded 4 n ++ rest) = some ((n : Int), rest) := by
  unfold scanYear
  rw [scan_bind (digitsWithin_padded (by decide) (by decide) hn rest), ofDigits_padded]
  rfl

theorem offsetText_head {offset : Int} {zone : List Char} (h : OffsetText offset zone) :
    ∃ c cs, zone = c :: cs ∧ Scan.isDigit c = false ∧ c ≠ '.' := by
  cases h with
  | universal hc => rcases hc with rfl | rfl <;> exact ⟨_, _, rfl, by decide, by decide⟩
  | ahead => exact ⟨_, _, rfl, by decide, by decide⟩
  | behind => exact ⟨_, _, rfl, by decide, by decide⟩

theorem scanFraction_append {n : Fin 1000000000} {offset : Int} {fraction zone : List Char}
    (h : FractionText n fraction) (hz : OffsetText offset zone) :
    scanFraction (fraction ++ zone) = some (n, zone) := by
  obtain ⟨c, cs, rfl, hc, hp⟩ := offsetText_head hz
  unfold scanFraction
  rw [scan_bind (peek_eq _)]
  cases h with
  | none =>
    simp [hp]
    rfl
  | @digits _ ds hne hl hd hn =>
    have hdigits : Scan.digits (ds ++ c :: cs) = some (ds, c :: cs) :=
      digits_append hne hd (by rintro _ ⟨⟩; exact hc)
    show (Scan.char '.' >>= _) ('.' :: (ds ++ c :: cs)) = _
    rw [scan_bind (char_cons _ _), scan_bind hdigits, List.take_of_length_le hl]
    have hnanos : nanos (ofDigits ds * Nat.pow 10 (9 - ds.length)) = n := by
      apply Fin.ext
      show (ofDigits ds * Nat.pow 10 (9 - ds.length)) % 1000000000 = n.val
      rw [← hn]
      exact Nat.mod_eq_of_lt n.isLt
    rw [hnanos]
    rfl

theorem scanOffset_signed {c : Char} {hours minutes : Nat} (hc : c = '+' ∨ c = '-') (hh : hours ≤ 23)
    (hm : minutes ≤ 59) : scanOffset (c :: (padded 2 hours ++ ':' :: padded 2 minutes)) =
      some (if c = '+' then (hours * 60 + minutes : Int) else -(hours * 60 + minutes : Int), []) := by
  have hnext : Scan.satisfy (fun _ => true) (c :: (padded 2 hours ++ ':' :: padded 2 minutes)) =
    some (c, padded 2 hours ++ ':' :: padded 2 minutes) := rfl
  have hlast : scanTwo (padded 2 minutes) = some (minutes, []) := by
    simpa using scanTwo_padded (n := minutes) (by omega) []
  unfold scanOffset
  rw [scan_bind hnext, if_neg (by rcases hc with rfl | rfl <;> decide)]
  rw [if_neg (by rcases hc with rfl | rfl <;> decide)]
  refine (scan_bind (scanTwo_padded (by omega) _)).trans ?_
  refine (scan_bind (char_cons _ _)).trans ?_
  refine (scan_bind hlast).trans ?_
  simp only [if_neg (show ¬(23 < hours ∨ 59 < minutes) by omega)]
  rfl

theorem scanOffset_append {offset : Int} {zone : List Char} (h : OffsetText offset zone) :
    scanOffset zone = some (offset, []) := by
  cases h with
  | @universal c hc =>
    have hnext : Scan.satisfy (fun _ => true) [c] = some (c, []) := rfl
    unfold scanOffset
    rw [scan_bind hnext, if_pos hc]
    rfl
  | ahead hh hm => exact scanOffset_signed (.inl rfl) hh hm
  | behind hh hm => exact scanOffset_signed (.inr rfl) hh hm

/-! ## Timestamps -/

theorem isDate_bounds {year : Int} {month day : Nat} (h : IsDate year month day) : month < 100 ∧ day < 100 := by
  obtain ⟨-, ⟨-, hm⟩, -, hd⟩ := h
  have hdays : daysIn year month ≤ 31 := by
    unfold daysIn
    split <;> (try split) <;> omega
  omega

theorem of?_self (d : Date) : Date.of? d.year d.month d.day = some d := by
  rw [Date.of?, dif_pos d.valid]

theorem within_val {bound : Nat} (n : Fin bound) : within bound n.val = some n := by
  rw [within, dif_pos n.isLt]

theorem instant?_self (here : Timestamp) (offset : Int) :
    instant? here.date.year here.date.month here.date.day here.hour here.minute here.second here.nanos offset =
      here.ofLocal? offset := by
  unfold instant?
  rw [of?_self, within_val, within_val, within_val]
  rfl

theorem scanTimestamp_rfc3339 {t : Timestamp} {cs : List Char} (h : Rfc3339 t cs) :
    scanTimestamp cs = some (t, []) := by
  cases h with
  | @mk here offset divider fraction zone hy hd hf hz ht =>
    obtain ⟨hm, hday⟩ := isDate_bounds here.date.valid
    have hyear : (here.date.year.natAbs : Int) = here.date.year := Int.natAbs_of_nonneg hy.1
    have hdivider : ∀ cs, Scan.satisfy isDivider (divider :: cs) = some (divider, cs) := by
      intro cs
      rw [Scan.satisfy, if_pos hd]
    have hdate : here.date.chars = padded 4 here.date.year.natAbs ++ '-' :: padded 2 here.date.month ++
        '-' :: padded 2 here.date.day := by
      rw [Date.chars, Date.yearChars, if_pos ⟨hy.1, hy.2⟩]
    unfold scanTimestamp Timestamp.clockChars
    rw [hdate]
    simp only [List.append_assoc, List.cons_append]
    refine (scan_bind (scanYear_padded (by have := hy.2; omega) _)).trans ?_
    refine (scan_bind (char_cons _ _)).trans ?_
    refine (scan_bind (scanTwo_padded hm _)).trans ?_
    refine (scan_bind (char_cons _ _)).trans ?_
    refine (scan_bind (scanTwo_padded hday _)).trans ?_
    refine (scan_bind (hdivider _)).trans ?_
    refine (scan_bind (scanTwo_padded (by omega) _)).trans ?_
    refine (scan_bind (char_cons _ _)).trans ?_
    refine (scan_bind (scanTwo_padded (by omega) _)).trans ?_
    refine (scan_bind (char_cons _ _)).trans ?_
    refine (scan_bind (scanTwo_padded (by omega) _)).trans ?_
    refine (scan_bind (scanFraction_append hf hz)).trans ?_
    refine (scan_bind (scanOffset_append hz)).trans ?_
    rw [hyear, instant?_self, ht]
    rfl

/-- Every way to write an instant in full is read back. -/
theorem ofQueryText?_rfc3339 {t : Timestamp} {s : String} (h : Rfc3339 t s.toList) :
    Timestamp.ofQueryText? s = some t := by
  unfold Timestamp.ofQueryText?
  rw [whole_eq_some (scanTimestamp_rfc3339 h)]
  rfl

theorem ofLocal?_zero (t : Timestamp) : t.ofLocal? 0 = some t := by
  obtain ⟨date, hour, minute, second, nanos⟩ := t
  have hh := hour.isLt
  have hm := minute.isLt
  have hday : ((hour.val * 60 + minute.val - 0 : Int) % 1440).toNat = hour.val * 60 + minute.val := by omega
  have hhour : Fin.ofNat 24 ((hour.val * 60 + minute.val) / 60) = hour := by
    apply Fin.ext
    show (hour.val * 60 + minute.val) / 60 % 24 = hour.val
    omega
  have hminute : Fin.ofNat 60 ((hour.val * 60 + minute.val) % 60) = minute := by
    apply Fin.ext
    show (hour.val * 60 + minute.val) % 60 % 60 = minute.val
    omega
  unfold Timestamp.ofLocal?
  dsimp only
  rw [if_neg (by omega), if_neg (by omega), hday, hhour, hminute]
  rfl

/-- A fraction in as many places as lose nothing. -/
theorem fractionText_padded {n : Fin 1000000000} (places : Nat) (h0 : 0 < places) (h9 : places ≤ 9)
    (h : n.val % Nat.pow 10 (9 - places) = 0) :
    FractionText n ('.' :: padded places (n.val / Nat.pow 10 (9 - places))) := by
  have hpow : Nat.pow 10 places * Nat.pow 10 (9 - places) = 1000000000 := by
    have hadd := Nat.pow_add 10 places (9 - places)
    rw [Nat.add_sub_cancel' h9] at hadd
    exact hadd.symm
  have hlt : n.val / Nat.pow 10 (9 - places) < Nat.pow 10 places := by
    have hpos : 0 < Nat.pow 10 (9 - places) := Nat.pow_pos (by decide)
    rw [Nat.div_lt_iff_lt_mul hpos, hpow]
    exact n.isLt
  have hlen := length_padded h0 hlt
  refine .digits ?_ (by omega) (fun c => isDigit_of_mem_padded) ?_
  · intro hnil
    rw [hnil] at hlen
    simp at hlen
    omega
  · rw [ofDigits_padded, hlen, Nat.div_mul_cancel (Nat.dvd_of_mod_eq_zero h)]

theorem fractionText_chars (t : Timestamp) : FractionText t.nanos t.fractionChars := by
  unfold Timestamp.fractionChars
  dsimp only
  split
  · rename_i h
    rw [show t.nanos = 0 from Fin.ext h]
    exact .none
  · split
    · exact fractionText_padded 3 (by decide) (by decide) ‹_›
    · split
      · exact fractionText_padded 6 (by decide) (by decide) ‹_›
      · simpa using fractionText_padded (n := t.nanos) 9 (by decide) (by decide) (Nat.mod_one _)

/-- The exact text of an instant is one of the ways to write it. -/
theorem rfc3339_text {t : Timestamp} (h : t.HasShortYear) : Rfc3339 t t.text.toList := by
  have htext : Rfc3339 t (t.date.chars ++ 'T' :: (t.clockChars ++ (t.fractionChars ++ ['Z']))) :=
    .mk h rfl (fractionText_chars t) (.universal (.inl rfl)) (ofLocal?_zero t)
  simpa [Timestamp.text] using htext

end WorkItemQuery.Time
