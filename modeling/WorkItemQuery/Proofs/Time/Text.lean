/-
The exact text of an instant is read back as the instant: for every year in range, those with a sign among them, and
for every fraction of a second.
-/
import WorkItemQuery.Proofs.Time.Rfc3339

namespace WorkItemQuery.Time

open WorkItemQuery.Number WorkItemQuery.Text

/-! ## Parts that may stand after blanks -/

theorem not_isBlank_of_isDigit {c : Char} (h : Scan.isDigit c = true) : isBlank c = false := by
  have hall : ∀ c ∈ "0123456789".toList, (!isBlank c) = true := List.all_eq_true.1 (by decide)
  simpa using hall c (mem_of_isDigit h)

theorem skipBlanks_of_head {cs : List Char} (h : ∀ c ∈ cs.head?, isBlank c = false) :
    skipBlanks cs = some ((), cs) := by
  unfold skipBlanks
  rw [scan_bind (skip_of_head h)]
  rfl

theorem skipBlanks_padded (width n : Nat) (rest : List Char) :
    skipBlanks (padded width n ++ rest) = some ((), padded width n ++ rest) := by
  obtain ⟨d, ds, hds⟩ := List.exists_cons_of_ne_nil (padded_ne_nil width n)
  have hd : Scan.isDigit d = true := isDigit_of_mem_padded (hds ▸ List.mem_cons_self)
  rw [hds]
  exact skipBlanks_of_head (by rintro _ ⟨⟩; exact not_isBlank_of_isDigit hd)

theorem scanShort_padded {n : Nat} (hn : n < 100) (rest : List Char) :
    scanShort (padded 2 n ++ rest) = some (n, rest) := by
  unfold scanShort
  refine (scan_bind (skipBlanks_padded 2 n rest)).trans ?_
  rw [scan_bind (digitsWithin_padded (by decide) (by decide) hn rest), ofDigits_padded]
  rfl

theorem scanSpaced_cons {c : Char} (h : isBlank c = false) (rest : List Char) :
    scanSpaced c (c :: rest) = some ((), rest) := by
  unfold scanSpaced
  refine (scan_bind (skipBlanks_of_head (by rintro _ ⟨⟩; exact h))).trans ?_
  exact char_cons c rest

/-! ## Years -/

theorem match_sign {β : Type} {d : Char} (hplus : d ≠ '+') (hminus : d ≠ '-') (a b c : β) :
    (match some d with
      | some '+' => a
      | some '-' => b
      | _ => c) = c := by
  split
  · rename_i h
    exact absurd (Option.some.inj h) hplus
  · rename_i h
    exact absurd (Option.some.inj h) hminus
  · rfl

theorem scanAnyYear_short {n : Nat} (hn : n < 10000) (rest : List Char) :
    scanAnyYear (padded 4 n ++ rest) = some ((n : Int), rest) := by
  have hdigits : Scan.digitsWithin 1 4 (padded 4 n ++ rest) = some (padded 4 n, rest) :=
    digitsWithin_padded (by decide) (by decide) hn rest
  obtain ⟨d, ds, hds⟩ := List.exists_cons_of_ne_nil (padded_ne_nil 4 n)
  have hd : Scan.isDigit d = true := isDigit_of_mem_padded (hds ▸ List.mem_cons_self)
  have hplus : d ≠ '+' := by
    rintro rfl
    exact absurd hd (by decide)
  have hminus : d ≠ '-' := by
    rintro rfl
    exact absurd hd (by decide)
  unfold scanAnyYear
  refine (scan_bind (skipBlanks_padded 4 n rest)).trans ?_
  refine (scan_bind (peek_eq _)).trans ?_
  rw [hds, List.cons_append, List.head?_cons]
  refine (congrFun (match_sign hplus hminus _ _ _) _).trans ?_
  rw [← List.cons_append, ← hds]
  refine (scan_bind hdigits).trans ?_
  rw [ofDigits_padded]
  rfl

/-- A year of any length, with its sign if it has one. -/
theorem scanAnyYear_chars (year : Int) {rest : List Char} (hr : ∀ c ∈ rest.head?, Scan.isDigit c = false) :
    scanAnyYear (Date.yearChars year ++ rest) = some (year, rest) := by
  have hdigits : Scan.digits (padded 4 year.natAbs ++ rest) = some (padded 4 year.natAbs, rest) :=
    digits_append (padded_ne_nil 4 year.natAbs) (fun c => isDigit_of_mem_padded) hr
  unfold Date.yearChars
  -- four digits go without a sign, and any other year has one
  split
  · have hyear : (year.natAbs : Int) = year := by omega
    rw [scanAnyYear_short (by omega) rest, hyear]
  · unfold scanAnyYear
    by_cases hneg : year < 0
    · have hyear : -(year.natAbs : Int) = year := by omega
      rw [if_pos hneg, List.cons_append]
      refine (scan_bind (skipBlanks_of_head (by rintro _ ⟨⟩; decide))).trans ?_
      refine (scan_bind (peek_eq _)).trans ?_
      refine (scan_bind (char_cons '-' _)).trans ?_
      refine (scan_bind hdigits).trans ?_
      rw [ofDigits_padded, hyear]
      rfl
    · have hyear : (year.natAbs : Int) = year := by omega
      rw [if_neg hneg, List.cons_append]
      refine (scan_bind (skipBlanks_of_head (by rintro _ ⟨⟩; decide))).trans ?_
      refine (scan_bind (peek_eq _)).trans ?_
      refine (scan_bind (char_cons '+' _)).trans ?_
      refine (scan_bind hdigits).trans ?_
      rw [ofDigits_padded, hyear]
      rfl

/-! ## Instants -/

theorem scanLooseOffset_universal : scanLooseOffset ['Z'] = some (0, []) := by decide

theorem scanLoose_text (t : Timestamp) : scanLoose t.text.toList = some (t, []) := by
  obtain ⟨hm, hday⟩ := isDate_bounds t.date.valid
  have hdivider : ∀ cs, Scan.satisfy isDivider ('T' :: cs) = some ('T', cs) := fun _ => rfl
  have hzone : OffsetText 0 ['Z'] := .universal (.inl rfl)
  unfold scanLoose Timestamp.text Date.chars Timestamp.clockChars
  simp only [String.toList_ofList, List.append_assoc, List.cons_append]
  refine (scan_bind (scanAnyYear_chars t.date.year (by rintro _ ⟨⟩; decide))).trans ?_
  refine (scan_bind (scanSpaced_cons (by decide) _)).trans ?_
  refine (scan_bind (scanShort_padded hm _)).trans ?_
  refine (scan_bind (scanSpaced_cons (by decide) _)).trans ?_
  refine (scan_bind (scanShort_padded hday _)).trans ?_
  refine (scan_bind (hdivider _)).trans ?_
  refine (scan_bind (scanShort_padded (by omega) _)).trans ?_
  refine (scan_bind (scanSpaced_cons (by decide) _)).trans ?_
  refine (scan_bind (scanShort_padded (by omega) _)).trans ?_
  refine (scan_bind (scanSpaced_cons (by decide) _)).trans ?_
  refine (scan_bind (scanShort_padded (by omega) _)).trans ?_
  refine (scan_bind (scanFraction_append (fractionText_chars t) hzone)).trans ?_
  refine (scan_bind (skipBlanks_of_head (by rintro _ ⟨⟩; decide))).trans ?_
  refine (scan_bind scanLooseOffset_universal).trans ?_
  refine (scan_bind (skipBlanks_of_head (by rintro _ ⟨⟩))).trans ?_
  rw [instant?_self, ofLocal?_zero]
  rfl

/-- The exact text of an instant is read back. -/
theorem ofText?_text (t : Timestamp) : Timestamp.ofText? t.text = some t :=
  whole_eq_some (scanLoose_text t)

end WorkItemQuery.Time
