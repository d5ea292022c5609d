/-
Where a run of characters ends: a run that all satisfies a test, before a text that does not go on with
it, is taken off whole. What is taken off satisfies the test. Scans in a row go on where the one before
has stopped. Quoted text is read back as it was meant, provided that no further apostrophe follows it.
-/
import WorkItemQuery.Text.Scan

namespace WorkItemQuery.Text

theorem of_mem_takeWhile {p : Char → Bool} {c : Char} {cs : List Char} (h : c ∈ cs.takeWhile p) : p c = true :=
  List.all_eq_true.1 List.all_takeWhile c h

theorem takeWhile_append {p : Char → Bool} {a rest : List Char} (ha : ∀ c ∈ a, p c = true)
    (hr : ∀ c ∈ rest.head?, p c = false) : (a ++ rest).takeWhile p = a := by
  rw [List.takeWhile_append_of_pos ha]
  cases rest with
  | nil => simp
  | cons c cs => simp [hr c (by simp)]

theorem dropWhile_append {p : Char → Bool} {a rest : List Char} (ha : ∀ c ∈ a, p c = true)
    (hr : ∀ c ∈ rest.head?, p c = false) : (a ++ rest).dropWhile p = rest := by
  rw [List.dropWhile_append_of_pos ha]
  cases rest with
  | nil => simp
  | cons c cs => simp [hr c (by simp)]

theorem mem_of_isDigit {c : Char} (h : Scan.isDigit c = true) : c ∈ "0123456789".toList := by
  have hrange : 48 ≤ c.toNat ∧ c.toNat ≤ 57 := by
    simpa [Scan.isDigit, Char.le_def, UInt32.le_iff_toNat_le] using h
  have hall : ∀ n < 58, 48 ≤ n → Char.ofNat n ∈ "0123456789".toList := by decide
  have hmem := hall c.toNat (by omega) hrange.1
  rwa [Char.ofNat_toNat] at hmem

/-! ## Scans -/

theorem scan_bind {α β : Type} {p : Scan α} {f : α → Scan β} {cs rest : List Char} {a : α}
    (h : p cs = some (a, rest)) : (p >>= f) cs = f a rest := by
  show StateT.bind p f cs = _
  unfold StateT.bind
  rw [h]
  rfl

theorem scan_map {α β : Type} {p : Scan α} (f : α → β) {cs rest : List Char} {a : α} (h : p cs = some (a, rest)) :
    (f <$> p) cs = some (f a, rest) := by
  show StateT.map f p cs = _
  unfold StateT.map
  rw [h]
  rfl

theorem scan_bind_none {α β : Type} {p : Scan α} (f : α → Scan β) {cs : List Char} (h : p cs = none) :
    (p >>= f) cs = none := by
  show StateT.bind p f cs = _
  unfold StateT.bind
  rw [h]
  rfl

theorem scan_map_none {α β : Type} {p : Scan α} (f : α → β) {cs : List Char} (h : p cs = none) :
    (f <$> p) cs = none := by
  show StateT.map f p cs = _
  unfold StateT.map
  rw [h]
  rfl

theorem whole_eq_some {α : Type} {p : Scan α} {s : String} {a : α} (h : p s.toList = some (a, [])) :
    p.whole s = some a := by
  unfold Scan.whole
  rw [show p.run s.toList = some (a, []) from h]
  rfl

theorem char_cons (c : Char) (rest : List Char) : Scan.char c (c :: rest) = some ((), rest) := by
  have hsatisfy : Scan.satisfy (· == c) (c :: rest) = some (c, rest) := by simp [Scan.satisfy]
  unfold Scan.char
  rw [scan_bind hsatisfy]
  rfl

theorem peek_eq (cs : List Char) : Scan.peek cs = some (cs.head?, cs) := rfl

theorem run_append {p : Char → Bool} {a rest : List Char} (ha : ∀ c ∈ a, p c = true)
    (hr : ∀ c ∈ rest.head?, p c = false) : Scan.takeWhile p (a ++ rest) = some (a, rest) := by
  rw [Scan.takeWhile, takeWhile_append ha hr, dropWhile_append ha hr]

theorem run_all {p : Char → Bool} {a : List Char} (ha : ∀ c ∈ a, p c = true) : Scan.takeWhile p a = some (a, []) := by
  have hrun := run_append ha (show ∀ c ∈ ([] : List Char).head?, p c = false by simp)
  rwa [List.append_nil] at hrun

theorem skip_of_head {p : Char → Bool} {cs : List Char} (h : ∀ c ∈ cs.head?, p c = false) :
    Scan.takeWhile p cs = some ([], cs) :=
  run_append (show ∀ c ∈ ([] : List Char), p c = true by simp) h

theorem digits_append {ds rest : List Char} (hne : ds ≠ []) (hd : ∀ c ∈ ds, Scan.isDigit c = true)
    (hr : ∀ c ∈ rest.head?, Scan.isDigit c = false) : Scan.digits (ds ++ rest) = some (ds, rest) := by
  unfold Scan.digits
  rw [takeWhile_append hd hr, dropWhile_append hd hr]
  split
  · contradiction
  · rfl

theorem digitsWithin_append {low high : Nat} {ds rest : List Char} (hlow : low ≤ high) (hl : ds.length = high)
    (hd : ∀ c ∈ ds, Scan.isDigit c = true) : Scan.digitsWithin low high (ds ++ rest) = some (ds, rest) := by
  subst hl
  have htake : ((ds ++ rest).take ds.length).takeWhile Scan.isDigit = ds := by
    rw [List.take_left]
    simpa using takeWhile_append hd (show ∀ c ∈ ([] : List Char).head?, Scan.isDigit c = false by simp)
  unfold Scan.digitsWithin
  simp only [htake, hlow, if_true, List.drop_left]

/-! ## Quoted text -/

theorem readQuotedInside_double (rest : List Char) (hr : ∀ c ∈ rest.head?, c ≠ '\'') : ∀ cs : List Char,
    readQuotedInside (double cs ++ '\'' :: rest) = some (cs, rest)
  | [] => by
    rcases rest with _ | ⟨c, rest⟩
    · rfl
    · have hc : c ≠ '\'' := hr c (by simp)
      rw [double, List.nil_append, readQuotedInside]
      intro _ h; exact hc (List.cons.inj h).1
  | c :: cs => by
    rw [double]
    split
    · rename_i h
      subst h
      rw [List.cons_append, List.cons_append, readQuotedInside, readQuotedInside_double rest hr cs]
      rfl
    · rename_i h
      rw [List.cons_append, readQuotedInside, readQuotedInside_double rest hr cs]
      · rfl
      · intro _ h' _; exact h h'
      · exact h

theorem readQuoted_quoteChars {s : String} {rest : List Char} (hr : ∀ c ∈ rest.head?, c ≠ '\'') :
    readQuoted (quoteChars s.toList ++ rest) = some (s, rest) := by
  rw [quoteChars, List.cons_append, List.cons_append, readQuoted, List.append_assoc, List.singleton_append,
    readQuotedInside_double rest hr]
  simp [String.ofList_toList]

end WorkItemQuery.Text
