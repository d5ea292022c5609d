/-
Which constants the literals of numbers and lists stand for. An integer may have any number of digits, zeros in front
included; its value alone decides whether it stands for a 32-bit integer, for a 64-bit integer, or for nothing. A number
with a fraction stands for the double that its text is read as anywhere else. A list stands for its integers if it has
at least one item and all of them are 32-bit integers, and for its texts if all of them are strings. Otherwise the
leftmost number that is no 32-bit integer is to blame; if there is none, that integers and strings are mixed; and if
they are not, that the list is empty.
-/
import WorkItemQuery.Number.Reading
import WorkItemQuery.Proofs.Number.Digits
import WorkItemQuery.Proofs.Pipeline.Quoting
import Mathlib.Data.List.Forall2

namespace WorkItemQuery.Number

open WorkItemQuery.Text

/-! ## Ranges -/

def Fits32 (i : Int) : Prop := -2147483648 ≤ i ∧ i ≤ 2147483647

def Fits64 (i : Int) : Prop := -9223372036854775808 ≤ i ∧ i ≤ 9223372036854775807

instance (i : Int) : Decidable (Fits32 i) := inferInstanceAs (Decidable (_ ∧ _))

instance (i : Int) : Decidable (Fits64 i) := inferInstanceAs (Decidable (_ ∧ _))

theorem Fits32.fits64 {i : Int} (h : Fits32 i) : Fits64 i := by
  unfold Fits32 at h
  unfold Fits64
  omega

theorem fits32_toInt (w : Int32) : Fits32 w.toInt := by
  have hle := w.le_toInt
  have hlt := w.toInt_lt
  exact ⟨by omega, by omega⟩

theorem toInt_ofInt32 {i : Int} (h : Fits32 i) : (Int32.ofInt i).toInt = i :=
  Int32.toInt_ofInt_of_le (by have := h.1; omega) (by have := h.2; omega)

theorem toInt_ofInt64 {i : Int} (h : Fits64 i) : (Int64.ofInt i).toInt = i :=
  Int64.toInt_ofInt_of_le (by have := h.1; omega) (by have := h.2; omega)

/-! ## The value of digits -/

/-- The number that digits stand for: each of them as many times as the power of ten at its place says. -/
def placeValue : List Char → Nat
  | [] => 0
  | d :: ds => digitValue d * Nat.pow 10 ds.length + placeValue ds

theorem foldl_digits : ∀ (ds : List Char) (n : Nat),
    ds.foldl (fun n c => 10 * n + digitValue c) n = n * Nat.pow 10 ds.length + placeValue ds
  | [], n => by simp [placeValue]
  | d :: ds, n => by
    have hpow : Nat.pow 10 (d :: ds).length = Nat.pow 10 ds.length * 10 := rfl
    rw [List.foldl_cons, foldl_digits ds, placeValue, hpow]
    grind

theorem ofDigits_eq_placeValue (ds : List Char) : ofDigits ds = placeValue ds := by
  rw [ofDigits, foldl_digits, Nat.zero_mul, Nat.zero_add]

/-! ## Numbers in free text -/

section Reading

variable {c : Char} {whole fraction : List Char}

theorem scanSign_minus (cs : List Char) : scanSign ('-' :: cs) = some (true, cs) := rfl

theorem scanSign_digit (hc : Scan.isDigit c = true) (cs : List Char) : scanSign (c :: cs) = some (false, c :: cs) := by
  have hmem := mem_of_isDigit hc
  simp only [String.reduceToList, List.mem_cons, List.not_mem_nil, or_false] at hmem
  rcases hmem with rfl | rfl | rfl | rfl | rfl | rfl | rfl | rfl | rfl | rfl <;> rfl

theorem scanDecimal_whole (negative : Bool) (hne : whole ≠ []) (hd : ∀ c ∈ whole, Scan.isDigit c = true) :
    scanDecimal negative whole = some (.ofParts negative whole [] 0, []) := by
  obtain ⟨c, cs, rfl⟩ := List.exists_cons_of_ne_nil hne
  unfold scanDecimal
  rw [scan_bind (run_all hd)]
  rfl

theorem scanDecimal_fraction (negative : Bool) (hne : whole ≠ []) (hw : ∀ c ∈ whole, Scan.isDigit c = true)
    (hf : ∀ c ∈ fraction, Scan.isDigit c = true) :
    scanDecimal negative (whole ++ '.' :: fraction) = some (.ofParts negative whole fraction 0, []) := by
  obtain ⟨c, cs, rfl⟩ := List.exists_cons_of_ne_nil hne
  unfold scanDecimal
  rw [scan_bind (run_append hw (by simp [Scan.isDigit])), scan_bind (peek_eq _)]
  show (Scan.char '.' >>= fun _ => Scan.takeWhile Scan.isDigit >>= _) ('.' :: fraction) = _
  rw [scan_bind (char_cons _ _), scan_bind (run_all hf)]
  rfl

/-- A text that begins with a digit, after its sign, is none of the words and is read as a decimal. -/
theorem Double.ofText?_eq {s : String} {negative : Bool} {cs : List Char} {d : Decimal} (hc : Scan.isDigit c = true)
    (hsign : scanSign s.toList = some (negative, c :: cs)) (hd : scanDecimal negative (c :: cs) = some (d, [])) :
    ofText? s = some (ofDecimal d) := by
  have hi : c.toLower ≠ 'i' := Pipeline.toLower_of_isDigit hc (by decide)
  have hn : c.toLower ≠ 'n' := Pipeline.toLower_of_isDigit hc (by decide)
  unfold ofText?
  rw [show scanSign.run s.toList = _ from hsign]
  simp only [Option.bind_eq_bind, Option.bind_some]
  rw [if_neg (by simp [hi]), if_neg (by simp [hn]), show (scanDecimal negative).run (c :: cs) = _ from hd]
  rfl

end Reading

end WorkItemQuery.Number

namespace WorkItemQuery.Pipeline

open Number Rule WorkItemQuery.Text

/-! ## Literals as they are written -/

/-- An integer as it is written, and its value: one or more digits, maybe with a minus before them. -/
inductive WritesInteger : List Char → Int → Prop
  | plain {ds : List Char} : ds ≠ [] → (∀ c ∈ ds, Scan.isDigit c = true) → WritesInteger ds (placeValue ds)
  | minus {ds : List Char} : ds ≠ [] → (∀ c ∈ ds, Scan.isDigit c = true) →
      WritesInteger ('-' :: ds) (-(placeValue ds : Int))

/-- A string as it is written, and its text: what stands between the apostrophes around it, with one apostrophe for
each pair. -/
def WritesString (t : List Char) (s : String) : Prop :=
  ∃ inside, (writtenString t).result = some (inside, []) ∧ s = insideText inside

theorem writesString_iff {t : List Char} {s : String} : WritesString t s ↔ (string t).result = some (s, []) := by
  unfold WritesString
  simp only [result_writtenString_iff]
  constructor
  · rintro ⟨_, ⟨r, hr, rfl⟩, rfl⟩
    rw [insideText_double, hr]
  · intro h
    exact ⟨_, ⟨s, h, rfl⟩, (insideText_double s).symm⟩

theorem result_number_iff {t : List Char} {n : NumberText} :
    (number t).result = some (n, []) ↔ IsNumber n ∧ n.chars = t := by
  rw [result_number]
  constructor
  · intro h
    obtain ⟨hn, ht⟩ := readNumber_some h
    exact ⟨hn, by rw [ht, List.append_nil]⟩
  · rintro ⟨hn, rfl⟩
    have hread : readNumber (n.chars ++ []) = some (n, []) := readNumber_chars hn (by simp)
    rwa [List.append_nil] at hread

/-- An integer is a number without a fraction. -/
theorem writesInteger_iff {t : List Char} {v : Int} :
    WritesInteger t v ↔ ∃ n, (number t).result = some (n, []) ∧ n.fraction = [] ∧ n.intValue = v := by
  constructor
  · intro h
    cases h with
    | plain hne hd =>
      refine ⟨⟨false, t, []⟩, result_number_iff.2 ⟨⟨hne, hd, by simp⟩, ?_⟩, rfl, ?_⟩
      · simp [NumberText.chars]
      · simp [NumberText.intValue, ofDigits_eq_placeValue]
    | @minus ds hne hd =>
      refine ⟨⟨true, ds, []⟩, result_number_iff.2 ⟨⟨hne, hd, by simp⟩, ?_⟩, rfl, ?_⟩
      · simp [NumberText.chars]
      · simp [NumberText.intValue, ofDigits_eq_placeValue]
  · rintro ⟨⟨negative, whole, fraction⟩, hread, rfl, rfl⟩
    obtain ⟨hn, rfl⟩ := result_number_iff.1 hread
    cases negative with
    | false => simpa [NumberText.chars, NumberText.intValue, ofDigits_eq_placeValue] using .plain hn.some_digit hn.whole
    | true => simpa [NumberText.chars, NumberText.intValue, ofDigits_eq_placeValue] using .minus hn.some_digit hn.whole

/-- An integer has one value. -/
theorem WritesInteger.unique {t : List Char} {v w : Int} (hv : WritesInteger t v) (hw : WritesInteger t w) : v = w := by
  obtain ⟨n, hn, -, rfl⟩ := writesInteger_iff.1 hv
  obtain ⟨m, hm, -, rfl⟩ := writesInteger_iff.1 hw
  cases hn.symm.trans hm
  rfl

/-! ## Numbers -/

namespace NumberText

variable {n : NumberText}

theorem constant_of_fits32 (hn : n.fraction = []) (h : Fits32 n.intValue) :
    n.constant = .ok (.int32 (.ofInt n.intValue)) := by
  have h32 : int32? n.intValue = some (.ofInt n.intValue) := if_pos h
  rw [constant, hn, h32]
  rfl

theorem constant_of_fits64 (hn : n.fraction = []) (h : Fits64 n.intValue) (hmore : ¬Fits32 n.intValue) :
    n.constant = .ok (.int64 (.ofInt n.intValue)) := by
  have h32 : int32? n.intValue = none := if_neg hmore
  have h64 : int64? n.intValue = some (.ofInt n.intValue) := if_pos h
  rw [constant, hn, h32, h64]
  rfl

theorem constant_of_not_fits64 (hn : n.fraction = []) (h : ¬Fits64 n.intValue) :
    n.constant = .error (.numberTooLarge n.text) := by
  have h32 : int32? n.intValue = none := if_neg fun hfits => h (Fits32.fits64 hfits)
  have h64 : int64? n.intValue = none := if_neg h
  rw [constant, hn, h32, h64]
  rfl

theorem constant_of_fraction (hn : n.fraction ≠ []) : ∃ d, n.constant = .ok (.double d) := by
  rw [constant, if_neg (by simpa using hn)]
  exact ⟨_, rfl⟩

theorem listValue_eq_ok {w : Int32} (hn : n.fraction = []) (h : n.intValue = w.toInt) : n.listValue = .ok w := by
  rw [listValue, constant_of_fits32 hn (h ▸ fits32_toInt w), h, Int32.ofInt_toInt]

theorem listValue_of_not_fits64 (hn : n.fraction = []) (h : ¬Fits64 n.intValue) :
    n.listValue = .error (.numberTooLarge n.text) := by
  rw [listValue, constant_of_not_fits64 hn h]

theorem listValue_of_fraction (hn : n.fraction ≠ []) : n.listValue = .error (.listItem n.text) := by
  obtain ⟨d, hd⟩ := constant_of_fraction hn
  rw [listValue, hd]

theorem listValue_of_fits64 (hn : n.fraction = []) (h : Fits64 n.intValue) (hmore : ¬Fits32 n.intValue) :
    n.listValue = .error (.listItem n.text) := by
  rw [listValue, constant_of_fits64 hn h hmore]

theorem scanDecimal_chars (hn : IsNumber n) :
    scanDecimal n.negative (n.whole ++ if n.fraction.isEmpty then [] else '.' :: n.fraction) =
      some (.ofParts n.negative n.whole n.fraction 0, []) := by
  by_cases hf : n.fraction = []
  · rw [hf]
    simpa using scanDecimal_whole n.negative hn.some_digit hn.whole
  · rw [if_neg (by simpa using hf)]
    exact scanDecimal_fraction n.negative hn.some_digit hn.whole hn.fraction

/-- A number that is written in a pipeline is read alike from free text. -/
theorem ofText?_text (hn : IsNumber n) :
    Double.ofText? n.text = some (.ofDecimal (.ofParts n.negative n.whole n.fraction 0)) := by
  have hdecimal := scanDecimal_chars hn
  obtain ⟨c, cs, hcs⟩ := List.exists_cons_of_ne_nil hn.some_digit
  have hc : Scan.isDigit c = true := hn.whole c (by simp [hcs])
  have hchars : n.text.toList = (if n.negative then ['-'] else []) ++
      (n.whole ++ if n.fraction.isEmpty then [] else '.' :: n.fraction) := by
    rw [text, String.toList_ofList, chars, List.append_assoc]
  rw [hcs] at hdecimal hchars ⊢
  rw [List.cons_append] at hdecimal hchars
  refine Double.ofText?_eq hc ?_ hdecimal
  rw [hchars]
  cases n.negative with
  | false => exact scanSign_digit hc _
  | true => exact scanSign_minus _

/-- A number stands for a double if it has a fraction, and then for the one that its text is read as. -/
theorem constant_eq_double_iff (hn : IsNumber n) {d : Double} :
    n.constant = .ok (.double d) ↔ n.fraction ≠ [] ∧ Double.ofText? n.text = some d := by
  rw [ofText?_text hn]
  by_cases hf : n.fraction = []
  · have hno : n.constant ≠ .ok (.double d) := by
      rw [constant, hf]
      simp only [List.isEmpty_nil, if_true]
      split <;> simp
    simp [hf, hno]
  · rw [constant, if_neg (by simpa using hf)]
    simp [hf]

end NumberText

/-- The value of an integer decides what it stands for. -/
theorem constant_of_writesInteger {t : List Char} {v : Int} (h : WritesInteger t v) :
    ∃ n, (number t).result = some (n, []) ∧
      ((∃ w : Int32, w.toInt = v ∧ n.constant = .ok (.int32 w)) ↔ Fits32 v) ∧
      ((∃ w : Int64, w.toInt = v ∧ n.constant = .ok (.int64 w)) ↔ Fits64 v ∧ ¬Fits32 v) ∧
      (n.constant = .error (.numberTooLarge (String.ofList t)) ↔ ¬Fits64 v) := by
  obtain ⟨n, hread, hn, rfl⟩ := writesInteger_iff.1 h
  have htext : n.text = String.ofList t := congrArg String.ofList (result_number_iff.1 hread).2
  refine ⟨n, hread, ?_⟩
  by_cases h32 : Fits32 n.intValue
  · have h64 : Fits64 n.intValue := h32.fits64
    have hw := toInt_ofInt32 h32
    rw [NumberText.constant_of_fits32 hn h32]
    simp [h32, h64, hw, -Int32.toInt_ofInt]
  · by_cases h64 : Fits64 n.intValue
    · have hw := toInt_ofInt64 h64
      rw [NumberText.constant_of_fits64 hn h64 h32]
      simp [h32, h64, hw, -Int64.toInt_ofInt]
    · rw [NumberText.constant_of_not_fits64 hn h64]
      simp [h32, h64, htext]

/-! ## Items of lists -/

/-- A number as it is written, with a fraction or without. -/
def WritesNumber (t : List Char) : Prop := ∃ n, IsNumber n ∧ n.chars = t

/-- An item that a list takes, a 32-bit integer or a string, and what it adds to the list. -/
inductive WritesEntry (t : List Char) : Int32 ⊕ String → Prop
  | int32 {w : Int32} : WritesInteger t w.toInt → WritesEntry t (.inl w)
  | string {s : String} : WritesString t s → WritesEntry t (.inr s)

/-- A number that is no 32-bit integer. -/
def Misfit (t : List Char) : Prop := WritesNumber t ∧ ∀ v, WritesInteger t v → ¬Fits32 v

theorem WritesInteger.writesNumber {t : List Char} {v : Int} (h : WritesInteger t v) : WritesNumber t := by
  obtain ⟨n, hn, -⟩ := writesInteger_iff.1 h
  exact ⟨n, result_number_iff.1 hn⟩

theorem string_none_of_number {t : List Char} {n : NumberText} (h : (number t).result = some (n, [])) :
    (string t).result = none := by
  obtain ⟨hn, rfl⟩ := result_number_iff.1 h
  obtain ⟨c, cs, hcs, hc⟩ := number_head hn
  rw [result_string, hcs]
  refine readQuoted_none ?_ cs
  rintro rfl
  revert hc
  decide

theorem not_writesString_of_number {t : List Char} {n : NumberText} {s : String}
    (h : (number t).result = some (n, [])) : ¬WritesString t s := by
  rw [writesString_iff, string_none_of_number h]
  exact nofun

theorem WritesInteger.not_writesString {t : List Char} {v : Int} {s : String} (h : WritesInteger t v) :
    ¬WritesString t s := by
  obtain ⟨n, hn, -⟩ := writesInteger_iff.1 h
  exact not_writesString_of_number hn

theorem result_scalar_iff {t : List Char} {x : Scalar} :
    (scalar t).result = some (x, []) ↔
      (∃ s, WritesString t s ∧ x = .string s) ∨ ∃ n, (number t).result = some (n, []) ∧ x = .number n := by
  unfold scalar
  rw [result_named, result_orElse, result_map, result_map]
  simp only [writesString_iff]
  constructor
  · intro h
    rcases hs : (string t).result with _ | ⟨s, rest⟩
    · rw [hs] at h
      obtain ⟨⟨n, rest⟩, hn, heq⟩ := Option.map_eq_some_iff.1 h
      cases heq
      exact .inr ⟨n, hn, rfl⟩
    · rw [hs] at h
      cases h
      exact .inl ⟨s, rfl, rfl⟩
  · rintro (⟨s, hs, rfl⟩ | ⟨n, hn, rfl⟩)
    · rw [hs]
      rfl
    · rw [string_none_of_number hn, hn]
      rfl

/-- The error of a number that is no 32-bit integer: beyond 64 bits it is no number at all, otherwise it is one that a
list does not take. -/
inductive ItemFault (t : List Char) : LiteralError → Prop
  | tooLarge {v : Int} : WritesInteger t v → ¬Fits64 v → ItemFault t (.numberTooLarge (String.ofList t))
  | noInt32 : Misfit t → (∀ v, WritesInteger t v → Fits64 v) → ItemFault t (.listItem (String.ofList t))

/-- What an item adds to its list. -/
def Scalar.entry : Scalar → Except LiteralError (Int32 ⊕ String)
  | .string s => .ok (.inr s)
  | .number n => n.listValue.map .inl

section Item

variable {t : List Char} {x : Scalar}

theorem eq_number_of_scalar {n : NumberText} (hx : (scalar t).result = some (x, []))
    (h : (number t).result = some (n, [])) : x = .number n := by
  have heq := hx.symm.trans (result_scalar_iff.2 (.inr ⟨n, h, rfl⟩))
  cases heq
  rfl

theorem eq_string_of_scalar {s : String} (hx : (scalar t).result = some (x, [])) (h : WritesString t s) :
    x = .string s := by
  have heq := hx.symm.trans (result_scalar_iff.2 (.inl ⟨s, h, rfl⟩))
  cases heq
  rfl

theorem entry_of_writesEntry {e : Int32 ⊕ String} (hx : (scalar t).result = some (x, [])) (h : WritesEntry t e) :
    x.entry = .ok e := by
  cases h with
  | int32 h =>
    obtain ⟨n, hread, hn, hv⟩ := writesInteger_iff.1 h
    rw [eq_number_of_scalar hx hread, Scalar.entry, NumberText.listValue_eq_ok hn hv]
    rfl
  | string h =>
    rw [eq_string_of_scalar hx h]
    rfl

theorem entry_of_itemFault {e : LiteralError} (hx : (scalar t).result = some (x, [])) (h : ItemFault t e) :
    x.entry = .error e := by
  cases h with
  | tooLarge hv hlarge =>
    obtain ⟨n, hread, hn, rfl⟩ := writesInteger_iff.1 hv
    rw [eq_number_of_scalar hx hread, Scalar.entry, NumberText.listValue_of_not_fits64 hn hlarge, NumberText.text,
      (result_number_iff.1 hread).2]
    rfl
  | noInt32 h hsmall =>
    obtain ⟨⟨n, hn, rfl⟩, hmisfit⟩ := h
    have hread := result_number_iff.2 ⟨hn, rfl⟩
    have hvalue : n.listValue = .error (.listItem n.text) := by
      by_cases hf : n.fraction = []
      · have hv := writesInteger_iff.2 ⟨n, hread, hf, rfl⟩
        exact NumberText.listValue_of_fits64 hf (hsmall _ hv) (hmisfit _ hv)
      · exact NumberText.listValue_of_fraction hf
    rw [eq_number_of_scalar hx hread, Scalar.entry, hvalue]
    rfl

/-- An item is either an entry of its list or a number that is no 32-bit integer. -/
theorem not_misfit_iff (hx : (scalar t).result = some (x, [])) : ¬Misfit t ↔ ∃ e, WritesEntry t e := by
  constructor
  · intro h
    rcases result_scalar_iff.1 hx with ⟨s, hs, -⟩ | ⟨n, hn, -⟩
    · exact ⟨_, .string hs⟩
    · have hint : ∃ v, WritesInteger t v ∧ Fits32 v := by
        by_contra hno
        exact h ⟨⟨n, result_number_iff.1 hn⟩, fun v hv hfits => hno ⟨v, hv, hfits⟩⟩
      obtain ⟨v, hv, hfits⟩ := hint
      exact ⟨_, .int32 (by rwa [toInt_ofInt32 hfits])⟩
  · -- a text is not both a number and a string, so a string is no misfit
    rintro ⟨e, he⟩ ⟨⟨n, hn⟩, hmisfit⟩
    cases he with
    | int32 h => exact hmisfit _ h (fits32_toInt _)
    | string h => exact not_writesString_of_number (result_number_iff.2 hn) h

end Item

theorem Misfit.fault {t : List Char} (h : Misfit t) : ∃ e, ItemFault t e := by
  by_cases hsmall : ∀ v, WritesInteger t v → Fits64 v
  · exact ⟨_, .noInt32 h hsmall⟩
  · push Not at hsmall
    obtain ⟨v, hv, hlarge⟩ := hsmall
    exact ⟨_, .tooLarge hv hlarge⟩

/-! ## Lists -/

/-- The integers among the entries of a list. -/
def integers (es : List (Int32 ⊕ String)) : List Int32 := es.filterMap Sum.getLeft?

/-- The strings among the entries of a list. -/
def strings (es : List (Int32 ⊕ String)) : List String := es.filterMap Sum.getRight?

theorem integers_cons (e : Int32 ⊕ String) (es : List (Int32 ⊕ String)) :
    integers (e :: es) = integers [e] ++ integers es := by
  cases e <;> rfl

theorem strings_cons (e : Int32 ⊕ String) (es : List (Int32 ⊕ String)) :
    strings (e :: es) = strings [e] ++ strings es := by
  cases e <;> rfl

theorem integers_map_inl (vs : List Int32) : integers (vs.map .inl) = vs := by
  rw [integers, List.filterMap_map]
  exact List.filterMap_some

theorem strings_map_inl (vs : List Int32) : strings (vs.map .inl) = [] := by
  simp [strings]

theorem integers_map_inr (ss : List String) : integers (ss.map .inr) = [] := by
  simp [integers]

theorem strings_map_inr (ss : List String) : strings (ss.map .inr) = ss := by
  rw [strings, List.filterMap_map]
  exact List.filterMap_some

theorem splitScalars_cons (x : Scalar) (rest : List Scalar) :
    splitScalars (x :: rest) =
      x.entry.bind fun e => (splitScalars rest).map fun p => (integers [e] ++ p.1, strings [e] ++ p.2) := by
  cases x with
  | string s =>
    rw [splitScalars]
    cases splitScalars rest <;> rfl
  | number n =>
    rw [splitScalars, Scalar.entry]
    cases n.listValue with
    | error e => rfl
    | ok v => cases splitScalars rest <;> rfl

/-- Items as they are written, and the scalars that are read from them. -/
abbrev ReadsScalars (texts : List (List Char)) (items : List Scalar) : Prop :=
  List.Forall₂ (fun t x => (scalar t).result = some (x, [])) texts items

/-- Integers of 32 bits only, and at least one. -/
def AreInt32s (texts : List (List Char)) : Prop := texts ≠ [] ∧ ∀ t ∈ texts, ∃ v, WritesInteger t v ∧ Fits32 v

/-- Strings only, and at least one. -/
def AreStrings (texts : List (List Char)) : Prop := texts ≠ [] ∧ ∀ t ∈ texts, ∃ s, WritesString t s

/-- Why a list stands for nothing: its leftmost number that is no 32-bit integer, and if there is none, that it has
both integers and strings, or neither. -/
inductive ListFault (texts : List (List Char)) : LiteralError → Prop
  | item {before after : List (List Char)} {t : List Char} {e : LiteralError} : texts = before ++ t :: after →
      (∀ u ∈ before, ¬Misfit u) → ItemFault t e → ListFault texts e
  | mixed {t u : List Char} {v : Int} {s : String} : (∀ t ∈ texts, ¬Misfit t) → t ∈ texts → WritesInteger t v →
      u ∈ texts → WritesString u s → ListFault texts .mixedList
  | empty : texts = [] → ListFault texts .emptyList

theorem exists_forall₂ {α β : Type} {R : α → β → Prop} : ∀ {xs : List α}, (∀ x ∈ xs, ∃ y, R x y) →
    ∃ ys, List.Forall₂ R xs ys
  | [], _ => ⟨[], .nil⟩
  | x :: xs, h => by
    obtain ⟨y, hy⟩ := h x List.mem_cons_self
    obtain ⟨ys, hys⟩ := exists_forall₂ fun z hz => h z (List.mem_cons_of_mem x hz)
    exact ⟨y :: ys, .cons hy hys⟩

theorem exists_of_mem_left {α β : Type} {R : α → β → Prop} {xs : List α} {ys : List β} {x : α}
    (h : List.Forall₂ R xs ys) (hx : x ∈ xs) : ∃ y ∈ ys, R x y := by
  induction h with
  | nil => cases hx
  | @cons a b _ _ hab _ ih =>
    rcases List.mem_cons.1 hx with rfl | hx
    · exact ⟨b, List.mem_cons_self, hab⟩
    · obtain ⟨y, hy, hxy⟩ := ih hx
      exact ⟨y, List.mem_cons_of_mem b hy, hxy⟩

section Lists

variable {texts : List (List Char)} {items : List Scalar}

theorem splitScalars_of_entries {es : List (Int32 ⊕ String)} (hread : ReadsScalars texts items)
    (h : List.Forall₂ WritesEntry texts es) : splitScalars items = .ok (integers es, strings es) := by
  induction hread generalizing es with
  | nil =>
    cases h
    rfl
  | cons hx _ ih =>
    cases h with
    | @cons _ e _ es he hes =>
      rw [splitScalars_cons, entry_of_writesEntry hx he, ih hes, integers_cons e es, strings_cons e es]
      rfl

/-- Nothing is read beyond the leftmost item at fault. -/
theorem splitScalars_of_itemFault {before after : List (List Char)} {t : List Char} {e : LiteralError}
    (hread : ReadsScalars (before ++ t :: after) items) (hbefore : ∀ u ∈ before, ¬Misfit u) (h : ItemFault t e) :
    splitScalars items = .error e := by
  -- the items before it are entries, so each of them is passed and the error comes from further on
  induction before generalizing items with
  | nil =>
    cases hread with
    | cons hx _ =>
      rw [splitScalars_cons, entry_of_itemFault hx h]
      rfl
  | cons u before ih =>
    cases hread with
    | cons hx hrest =>
      obtain ⟨entry, hentry⟩ := (not_misfit_iff hx).1 (hbefore u List.mem_cons_self)
      have hsplit := ih hrest fun u hu => hbefore u (List.mem_cons_of_mem _ hu)
      rw [splitScalars_cons, entry_of_writesEntry hx hentry, hsplit]
      rfl

/-- Without a number that is no 32-bit integer, every item is an entry. -/
theorem exists_entry (hread : ReadsScalars texts items) (h : ∀ t ∈ texts, ¬Misfit t) :
    ∀ t ∈ texts, ∃ e, WritesEntry t e := by
  intro t ht
  obtain ⟨x, -, hx⟩ := exists_of_mem_left hread ht
  exact (not_misfit_iff hx).1 (h t ht)

theorem listConstant_of_int32s (hread : ReadsScalars texts items) (h : AreInt32s texts) :
    ∃ vs, List.Forall₂ (fun t (w : Int32) => WritesInteger t w.toInt) texts vs ∧
      listConstant items = .ok (.intList vs) := by
  obtain ⟨hne, hall⟩ := h
  have hint : ∀ t ∈ texts, ∃ w : Int32, WritesInteger t w.toInt := by
    intro t ht
    obtain ⟨v, hv, hfits⟩ := hall t ht
    exact ⟨.ofInt v, by rwa [toInt_ofInt32 hfits]⟩
  obtain ⟨vs, hvs⟩ := exists_forall₂ hint
  have hentries : List.Forall₂ WritesEntry texts (vs.map .inl) :=
    List.forall₂_map_right_iff.2 (hvs.imp fun _ _ => .int32)
  refine ⟨vs, hvs, ?_⟩
  rw [listConstant, splitScalars_of_entries hread hentries, integers_map_inl, strings_map_inl]
  cases hvs with
  | nil => exact absurd rfl hne
  | cons _ _ => rfl

theorem listConstant_of_strings (hread : ReadsScalars texts items) (h : AreStrings texts) :
    ∃ ss, List.Forall₂ WritesString texts ss ∧ listConstant items = .ok (.stringList ss) := by
  obtain ⟨hne, hall⟩ := h
  obtain ⟨ss, hss⟩ := exists_forall₂ hall
  have hentries : List.Forall₂ WritesEntry texts (ss.map .inr) :=
    List.forall₂_map_right_iff.2 (hss.imp fun _ _ => .string)
  refine ⟨ss, hss, ?_⟩
  rw [listConstant, splitScalars_of_entries hread hentries, integers_map_inr, strings_map_inr]
  cases hss with
  | nil => exact absurd rfl hne
  | cons _ _ => rfl

theorem integers_ne_nil {es : List (Int32 ⊕ String)} {t : List Char} {v : Int} (h : List.Forall₂ WritesEntry texts es)
    (ht : t ∈ texts) (hv : WritesInteger t v) : integers es ≠ [] := by
  obtain ⟨e, hmem, he⟩ := exists_of_mem_left h ht
  cases he with
  | int32 _ => exact List.ne_nil_of_mem (List.mem_filterMap.2 ⟨_, hmem, rfl⟩)
  | string hs => exact absurd hs hv.not_writesString

theorem strings_ne_nil {es : List (Int32 ⊕ String)} {t : List Char} {s : String} (h : List.Forall₂ WritesEntry texts es)
    (ht : t ∈ texts) (hs : WritesString t s) : strings es ≠ [] := by
  obtain ⟨e, hmem, he⟩ := exists_of_mem_left h ht
  cases he with
  | int32 hv => exact absurd hs hv.not_writesString
  | string _ => exact List.ne_nil_of_mem (List.mem_filterMap.2 ⟨_, hmem, rfl⟩)

theorem listConstant_of_fault {e : LiteralError} (hread : ReadsScalars texts items) (h : ListFault texts e) :
    listConstant items = .error e := by
  cases h with
  | item htexts hbefore hfault =>
    subst htexts
    rw [listConstant, splitScalars_of_itemFault hread hbefore hfault]
    rfl
  | mixed hfit ht hv hu hs =>
    obtain ⟨es, hes⟩ := exists_forall₂ (exists_entry hread hfit)
    obtain ⟨w, ws, hints⟩ := List.exists_cons_of_ne_nil (integers_ne_nil hes ht hv)
    obtain ⟨r, rs, hstrings⟩ := List.exists_cons_of_ne_nil (strings_ne_nil hes hu hs)
    rw [listConstant, splitScalars_of_entries hread hes, hints, hstrings]
    rfl
  | empty htexts =>
    subst htexts
    cases hread
    rfl

theorem exists_leftmost_misfit (h : ∃ t ∈ texts, Misfit t) :
    ∃ before t after, texts = before ++ t :: after ∧ Misfit t ∧ ∀ u ∈ before, ¬Misfit u := by
  classical
  have hsome : (texts.find? fun t => decide (Misfit t)).isSome := List.find?_isSome.2 (by simpa using h)
  obtain ⟨t, ht⟩ := Option.isSome_iff_exists.1 hsome
  obtain ⟨hmisfit, before, after, htexts, hbefore⟩ := List.find?_eq_some_iff_append.1 ht
  exact ⟨before, t, after, htexts, by simpa using hmisfit, by simpa using hbefore⟩

/-- Every list stands for integers, for strings, or has a fault. -/
theorem list_cases (hread : ReadsScalars texts items) :
    AreInt32s texts ∨ AreStrings texts ∨ ∃ e, ListFault texts e := by
  by_cases hmisfit : ∃ t ∈ texts, Misfit t
  · obtain ⟨before, t, after, htexts, ht, hbefore⟩ := exists_leftmost_misfit hmisfit
    obtain ⟨e, he⟩ := ht.fault
    exact .inr (.inr ⟨e, .item htexts hbefore he⟩)
  · push Not at hmisfit
    have hentry := exists_entry hread hmisfit
    by_cases hne : texts = []
    · exact .inr (.inr ⟨_, .empty hne⟩)
    by_cases hint : ∀ t ∈ texts, ∃ v, WritesInteger t v ∧ Fits32 v
    · exact .inl ⟨hne, hint⟩
    by_cases hstring : ∀ t ∈ texts, ∃ s, WritesString t s
    · exact .inr (.inl ⟨hne, hstring⟩)
    -- some item is no integer, so it is a string; some item is no string, so it is an integer
    push Not at hint hstring
    obtain ⟨u, hu, hnoint⟩ := hint
    obtain ⟨t, ht, hnostring⟩ := hstring
    have hs : ∃ s, WritesString u s := by
      obtain ⟨e, he⟩ := hentry u hu
      cases he with
      | int32 h => exact absurd (fits32_toInt _) (hnoint _ h)
      | string h => exact ⟨_, h⟩
    have hv : ∃ v, WritesInteger t v := by
      obtain ⟨e, he⟩ := hentry t ht
      cases he with
      | int32 h => exact ⟨_, h⟩
      | string h => exact absurd h (hnostring _)
    obtain ⟨s, hs⟩ := hs
    obtain ⟨v, hv⟩ := hv
    exact .inr (.inr ⟨_, .mixed hmisfit ht hv hu hs⟩)

theorem areInt32s_of_intList {vs : List Int32} (hread : ReadsScalars texts items)
    (h : listConstant items = .ok (.intList vs)) : AreInt32s texts := by
  rcases list_cases hread with hints | hstrings | ⟨e, he⟩
  · exact hints
  · obtain ⟨ss, -, heq⟩ := listConstant_of_strings hread hstrings
    cases h.symm.trans heq
  · cases h.symm.trans (listConstant_of_fault hread he)

theorem areStrings_of_stringList {ss : List String} (hread : ReadsScalars texts items)
    (h : listConstant items = .ok (.stringList ss)) : AreStrings texts := by
  rcases list_cases hread with hints | hstrings | ⟨e, he⟩
  · obtain ⟨vs, -, heq⟩ := listConstant_of_int32s hread hints
    cases h.symm.trans heq
  · exact hstrings
  · cases h.symm.trans (listConstant_of_fault hread he)

theorem not_areInt32s_of_error {e : LiteralError} (hread : ReadsScalars texts items)
    (h : listConstant items = .error e) : ¬AreInt32s texts := by
  intro hints
  obtain ⟨vs, -, heq⟩ := listConstant_of_int32s hread hints
  cases h.symm.trans heq

theorem not_areStrings_of_error {e : LiteralError} (hread : ReadsScalars texts items)
    (h : listConstant items = .error e) : ¬AreStrings texts := by
  intro hstrings
  obtain ⟨ss, -, heq⟩ := listConstant_of_strings hread hstrings
  cases h.symm.trans heq

theorem listFault_of_error {e : LiteralError} (hread : ReadsScalars texts items)
    (h : listConstant items = .error e) : ListFault texts e := by
  rcases list_cases hread with hints | hstrings | ⟨e', he⟩
  · exact absurd hints (not_areInt32s_of_error hread h)
  · exact absurd hstrings (not_areStrings_of_error hread h)
  · cases h.symm.trans (listConstant_of_fault hread he)
    exact he

end Lists

/-- Every item that is written as a number or as a string is read. -/
theorem exists_readsScalars {texts : List (List Char)}
    (h : ∀ t ∈ texts, WritesNumber t ∨ ∃ s, WritesString t s) : ∃ items, ReadsScalars texts items := by
  refine exists_forall₂ fun t ht => ?_
  rcases h t ht with ⟨n, hn⟩ | ⟨s, hs⟩
  · exact ⟨.number n, result_scalar_iff.2 (.inr ⟨n, result_number_iff.2 hn, rfl⟩)⟩
  · exact ⟨.string s, result_scalar_iff.2 (.inl ⟨s, hs, rfl⟩)⟩

/-- An integer stands for the smaller of a 32-bit and a 64-bit integer that holds its value, and for nothing if neither
does. A list stands for all its integers or for all its texts, and if it does for neither, its first fault is told. -/
theorem literals_classified :
    (∀ {t : List Char} {v : Int}, WritesInteger t v →
      ∃ n, (number t).result = some (n, []) ∧
        ((∃ w : Int32, w.toInt = v ∧ n.constant = .ok (.int32 w)) ↔ Fits32 v) ∧
        ((∃ w : Int64, w.toInt = v ∧ n.constant = .ok (.int64 w)) ↔ Fits64 v ∧ ¬Fits32 v) ∧
        (n.constant = .error (.numberTooLarge (String.ofList t)) ↔ ¬Fits64 v)) ∧
    ∀ {texts : List (List Char)}, (∀ t ∈ texts, WritesNumber t ∨ ∃ s, WritesString t s) →
      ∃ items, ReadsScalars texts items ∧
        ((∃ vs, List.Forall₂ (fun t (w : Int32) => WritesInteger t w.toInt) texts vs ∧
          listConstant items = .ok (.intList vs)) ↔ AreInt32s texts) ∧
        ((∃ ss, List.Forall₂ WritesString texts ss ∧ listConstant items = .ok (.stringList ss)) ↔ AreStrings texts) ∧
        ((∃ e, listConstant items = .error e) ↔ ¬AreInt32s texts ∧ ¬AreStrings texts) ∧
        ∀ e, listConstant items = .error e ↔ ListFault texts e := by
  refine ⟨constant_of_writesInteger, fun htexts => ?_⟩
  obtain ⟨items, hread⟩ := exists_readsScalars htexts
  refine ⟨items, hread, ⟨?_, listConstant_of_int32s hread⟩, ⟨?_, listConstant_of_strings hread⟩, ⟨?_, ?_⟩,
    fun e => ⟨listFault_of_error hread, listConstant_of_fault hread⟩⟩
  · rintro ⟨vs, -, h⟩
    exact areInt32s_of_intList hread h
  · rintro ⟨ss, -, h⟩
    exact areStrings_of_stringList hread h
  · rintro ⟨e, h⟩
    exact ⟨not_areInt32s_of_error hread h, not_areStrings_of_error hread h⟩
  · rintro ⟨hints, hstrings⟩
    rcases list_cases hread with h | h | ⟨e, he⟩
    · exact absurd h hints
    · exact absurd h hstrings
    · exact ⟨e, listConstant_of_fault hread he⟩

/-- The least 32-bit integer with a zero before its digits, and a list whose leftmost misfit is followed by one that is
beyond 64 bits. -/
theorem literals_classified_limits :
    let texts := ["7".toList, "'a'".toList, "2147483648".toList, "9223372036854775808".toList]
    (WritesInteger "-02147483648".toList (-2147483648) ∧
      ∃ n, (number "-02147483648".toList).result = some (n, []) ∧
        ∃ w : Int32, w.toInt = -2147483648 ∧ n.constant = .ok (.int32 w)) ∧
    (∀ t ∈ texts, WritesNumber t ∨ ∃ s, WritesString t s) ∧
    ∃ items, ReadsScalars texts items ∧ listConstant items = .error (.listItem "2147483648") := by
  intro texts
  have hleast : WritesInteger "-02147483648".toList (-2147483648) := .minus (by decide) (by decide)
  have hseven : WritesInteger "7".toList 7 := .plain (by decide) (by decide)
  have hbeyond32 : WritesInteger "2147483648".toList 2147483648 := .plain (by decide) (by decide)
  have hbeyond64 : WritesInteger "9223372036854775808".toList 9223372036854775808 := .plain (by decide) (by decide)
  have hstring : WritesString "'a'".toList "a" := writesString_iff.2 (by decide)
  have htexts : ∀ t ∈ texts, WritesNumber t ∨ ∃ s, WritesString t s := by
    simp only [texts, List.forall_mem_cons]
    exact ⟨.inl hseven.writesNumber, .inr ⟨_, hstring⟩, .inl hbeyond32.writesNumber, .inl hbeyond64.writesNumber, nofun⟩
  have hbefore : ∀ u ∈ ["7".toList, "'a'".toList], ¬Misfit u := by
    simp only [List.forall_mem_cons]
    refine ⟨fun h => h.2 7 hseven (by decide), ?_, nofun⟩
    rintro ⟨⟨n, hn⟩, -⟩
    exact not_writesString_of_number (result_number_iff.2 hn) hstring
  have hfault : ItemFault "2147483648".toList (.listItem "2147483648") := by
    refine .noInt32 ⟨hbeyond32.writesNumber, fun v hv => ?_⟩ fun v hv => ?_
    all_goals rw [hv.unique hbeyond32]; decide
  obtain ⟨hints, hlists⟩ := literals_classified
  obtain ⟨n, hread, hint32, -⟩ := hints hleast
  obtain ⟨items, hitems, -, -, -, herror⟩ := hlists htexts
  exact ⟨⟨hleast, n, hread, hint32.2 (by decide)⟩, htexts, items, hitems, (herror _).2 (.item rfl hbefore hfault)⟩

end WorkItemQuery.Pipeline
