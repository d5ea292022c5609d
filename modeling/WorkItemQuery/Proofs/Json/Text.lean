/-
The text of a JSON value is read back as the value, whatever its strings hold, if its numbers are whole numbers of 64
bits and the reader has room for its nesting. A reader without a bound always has; a reader with a bound refuses the
text of every value that is nested deeper. Each kind of value is read from its text with any text behind it that can
stand behind a value; the steps that reading takes are bounded by the length of the text.
-/
import WorkItemQuery.Json.Reader
import WorkItemQuery.Json.Writer
import WorkItemQuery.Proofs.Number.Digits
import WorkItemQuery.Proofs.Number.Double
import WorkItemQuery.Proofs.Text.Scan

namespace WorkItemQuery.Json

open Number Text

/-! ## Strings -/

theorem hexValue_hexDigit : ∀ d < 16, hexValue (hexDigit d) = some d := by decide

theorem scanCode_control {c : Char} (h : c.toNat < 0x20) (rest : List Char) :
    scanCode ('0' :: '0' :: hexDigit (c.toNat / 16) :: hexDigit (c.toNat % 16) :: rest) = some (c, rest) := by
  have hhigh := hexValue_hexDigit (c.toNat / 16) (by omega)
  have hlow := hexValue_hexDigit (c.toNat % 16) (by omega)
  have hzero : hexValue '0' = some 0 := by decide
  have hunit : scanUnit ('0' :: '0' :: hexDigit (c.toNat / 16) :: hexDigit (c.toNat % 16) :: rest) =
      some (c.toNat, rest) := by
    simp only [scanUnit, hzero, hhigh, hlow]
    show some (((0 * 16 + 0) * 16 + c.toNat / 16) * 16 + c.toNat % 16, rest) = _
    rw [show ((0 * 16 + 0) * 16 + c.toNat / 16) * 16 + c.toNat % 16 = c.toNat by omega]
  unfold scanCode
  rw [hunit]
  show (if 0xD800 ≤ c.toNat ∧ c.toNat < 0xDC00 then _ else _) = _
  rw [if_neg (by omega), if_neg (by omega), Char.ofNat_toNat]

/-- How a character stands inside a string: behind a backslash by a letter of its own, by its code, or as it is. -/
theorem escapeChar_cases (c : Char) :
    (∃ e, escapeChar c = ['\\', e] ∧ e ≠ 'u' ∧ escaped e = some c) ∨
      (c.toNat < 0x20 ∧
        escapeChar c = ['\\', 'u', '0', '0', hexDigit (c.toNat / 16), hexDigit (c.toNat % 16)]) ∨
      (escapeChar c = [c] ∧ c ≠ '"' ∧ c ≠ '\\' ∧ ¬c.toNat < 0x20) := by
  unfold escapeChar
  by_cases hletter : c ∈ ['"', '\\', '\x08', '\t', '\n', '\x0c', '\r']
  · simp only [List.mem_cons, List.not_mem_nil, or_false] at hletter
    left
    rcases hletter with rfl | rfl | rfl | rfl | rfl | rfl | rfl <;> exact ⟨_, rfl, by decide, rfl⟩
  · simp only [List.mem_cons, List.not_mem_nil, or_false, not_or] at hletter
    right
    obtain ⟨hquote, hslash, hback, htab, hfeed, hform, hreturn⟩ := hletter
    rw [if_neg hquote, if_neg hslash, if_neg hback, if_neg htab, if_neg hfeed, if_neg hform, if_neg hreturn]
    by_cases hlow : c.toNat < 0x20
    · exact .inl ⟨hlow, if_pos hlow⟩
    · exact .inr ⟨if_neg hlow, hquote, hslash, hlow⟩

/-- One character of a string. -/
theorem scanInside_escapeChar (fuel : Nat) (done : List Char) (c : Char) (rest : List Char) :
    scanInside (fuel + 1) done (escapeChar c ++ rest) = scanInside fuel (c :: done) rest := by
  rcases escapeChar_cases c with ⟨e, hchar, hu, he⟩ | ⟨hlow, hchar⟩ | ⟨hchar, hquote, hslash, hlow⟩
  · have hscan : scanInside (fuel + 1) done ('\\' :: e :: rest) =
        (escaped e >>= fun c => scanInside fuel (c :: done) rest) := by
      rw [scanInside]
      exact hu
    rw [hchar]
    exact hscan.trans (by rw [he]; rfl)
  · rw [hchar]
    show (scanCode ('0' :: '0' :: hexDigit (c.toNat / 16) :: hexDigit (c.toNat % 16) :: rest) >>= _) = _
    rw [scanCode_control hlow]
    rfl
  · rw [hchar, List.singleton_append, scanInside]
    · rw [if_neg hlow]
    · exact fun h => hquote h
    · exact fun _ h => absurd h hslash
    · exact fun _ _ h => absurd h hslash

theorem length_le_escaped (cs : List Char) : cs.length ≤ (cs.flatMap escapeChar).length := by
  induction cs with
  | nil => exact Nat.le_refl 0
  | cons c cs ih =>
    have hpos : 0 < (escapeChar c).length := by
      rcases escapeChar_cases c with ⟨e, hchar, -⟩ | ⟨-, hchar⟩ | ⟨hchar, -⟩ <;> rw [hchar] <;> exact Nat.zero_lt_succ _
    rw [List.flatMap_cons, List.length_append, List.length_cons]
    omega

theorem scanInside_escaped : ∀ (cs : List Char) {fuel : Nat} (done rest : List Char), cs.length < fuel →
    scanInside fuel done (cs.flatMap escapeChar ++ '"' :: rest) = some (String.ofList (done.reverse ++ cs), rest)
  | [], fuel + 1, done, rest, _ => by
    rw [List.append_nil]
    rfl
  | c :: cs, fuel + 1, done, rest, h => by
    rw [List.flatMap_cons, List.append_assoc, scanInside_escapeChar,
      scanInside_escaped cs (c :: done) rest (Nat.lt_of_succ_lt_succ h), List.reverse_cons, List.append_assoc]
    rfl

theorem toList_stringText (s : String) : (stringText s).toList = '"' :: (s.toList.flatMap escapeChar ++ ['"']) := by
  rw [stringText, String.toList_ofList]
  rfl

theorem scanString_stringText (s : String) (rest : List Char) :
    scanString ((stringText s).toList ++ rest) = some (s, rest) := by
  rw [toList_stringText, List.cons_append, List.append_assoc, List.singleton_append]
  show scanInside _ [] (s.toList.flatMap escapeChar ++ '"' :: rest) = _
  have hfuel : s.toList.length < (s.toList.flatMap escapeChar ++ '"' :: rest).length + 1 := by
    have hle := length_le_escaped s.toList
    rw [List.length_append]
    omega
  rw [scanInside_escaped s.toList [] rest hfuel, List.reverse_nil, List.nil_append, String.ofList_toList]

/-! ## Numbers -/

/-- What may stand behind a value: a sign of the array or object around it, or nothing. -/
def EndsValue (rest : List Char) : Prop := ∀ c ∈ rest.head?, c = ',' ∨ c = ']' ∨ c = '\x7d'

section Digits

variable {ds rest : List Char}

theorem digits_endsValue (hne : ds ≠ []) (hd : ∀ c ∈ ds, Scan.isDigit c = true) (hr : EndsValue rest) :
    Scan.digits (ds ++ rest) = some (ds, rest) := by
  refine digits_append hne hd fun c hc => ?_
  rcases hr c hc with rfl | rfl | rfl <;> decide

theorem scanWhole_endsValue (hne : ds ≠ []) (hd : ∀ c ∈ ds, Scan.isDigit c = true)
    (halone : ∀ d more, ds ≠ '0' :: d :: more) (hr : EndsValue rest) : scanWhole (ds ++ rest) = some (ds, rest) := by
  unfold scanWhole
  refine (scan_bind (digits_endsValue hne hd hr)).trans ?_
  split
  · exact absurd rfl (halone _ _)
  · rfl

theorem match_minus {β : Type} {d : Char} (h : d ≠ '-') (a b : β) :
    (match some d with
      | some '-' => a
      | _ => b) = b := by
  split
  · rename_i hd
    exact absurd (Option.some.inj hd) h
  · rfl

/-- Digits with no point and no power of ten behind them. -/
theorem scanNumber_digits (hne : ds ≠ []) (hd : ∀ c ∈ ds, Scan.isDigit c = true)
    (halone : ∀ d more, ds ≠ '0' :: d :: more) (hr : EndsValue rest) :
    scanNumber (ds ++ rest) = limited (int (ofDigits ds)) (Decimal.ofParts false ds [] 0) rest := by
  have hwhole := scanWhole_endsValue hne hd halone hr
  obtain ⟨d, more, rfl⟩ := List.exists_cons_of_ne_nil hne
  have hminus : d ≠ '-' := by
    rintro rfl
    exact absurd (hd '-' List.mem_cons_self) (by decide)
  unfold scanNumber
  refine (scan_bind (peek_eq _)).trans ?_
  refine Eq.trans (congrFun (match_minus hminus _ _) _) ?_
  refine (scan_bind rfl).trans ?_
  refine (scan_bind hwhole).trans ?_
  refine (scan_bind (peek_eq _)).trans ?_
  -- what stands behind is neither a point nor the sign of a power of ten
  cases rest with
  | nil => rfl
  | cons c rest => rcases hr c rfl with rfl | rfl | rfl <;> rfl

theorem scanNumber_minus (hne : ds ≠ []) (hd : ∀ c ∈ ds, Scan.isDigit c = true)
    (halone : ∀ d more, ds ≠ '0' :: d :: more) (hr : EndsValue rest) (hzero : ofDigits ds ≠ 0) :
    scanNumber ('-' :: (ds ++ rest)) = limited (int (-(ofDigits ds : Int))) (Decimal.ofParts true ds [] 0) rest := by
  -- a zero behind a minus would be a decimal
  have hsign : ¬(true && ofDigits ds == 0) = true := by simpa using hzero
  have hend : (if (true && ofDigits ds == 0) = true then pure (decimal (Decimal.ofParts true ds [] 0))
      else limited (int (-(ofDigits ds : Int))) (Decimal.ofParts true ds [] 0)) rest =
      limited (int (-(ofDigits ds : Int))) (Decimal.ofParts true ds [] 0) rest := by rw [if_neg hsign]
  unfold scanNumber
  refine (scan_bind (peek_eq _)).trans ?_
  refine (scan_bind (char_cons '-' _)).trans ?_
  refine (scan_bind rfl).trans ?_
  refine (scan_bind (scanWhole_endsValue hne hd halone hr)).trans ?_
  refine (scan_bind (peek_eq _)).trans (.trans ?_ hend)
  cases rest with
  | nil => rfl
  | cons c rest => rcases hr c rfl with rfl | rfl | rfl <;> rfl

end Digits

theorem limited_digitsOf (negative : Bool) {n : Nat} (h : n < wordLimit) (j : Json) (rest : List Char) :
    limited j (Decimal.ofParts negative (digitsOf n) [] 0) rest = some (j, rest) := by
  have hsome : (Double.ofSteps? (Decimal.ofParts negative (digitsOf n) [] 0)).isSome = true := by
    rw [Decimal.ofParts, List.append_nil, ofDigits_digitsOf]
    exact Double.ofSteps?_isSome negative h
  rw [limited, if_pos hsome]
  rfl

/-- A whole number of 64 bits. -/
theorem scanNumber_intText {i : Int} (h : i.natAbs < wordLimit) {rest : List Char} (hr : EndsValue rest) :
    scanNumber ((intText i).toList ++ rest) = some (int i, rest) := by
  have hdigits : ∀ c ∈ digitsOf i.natAbs, Scan.isDigit c = true := fun c => isDigit_of_mem_digitsOf
  have hne := digitsOf_ne_nil i.natAbs
  have halone := digitsOf_ne_zero_cons i.natAbs
  unfold intText
  split
  · have hzero : ofDigits (digitsOf i.natAbs) ≠ 0 := by rw [ofDigits_digitsOf]; omega
    have hi : -(i.natAbs : Int) = i := by omega
    have htext : ("-" ++ String.ofList (digitsOf i.natAbs)).toList ++ rest = '-' :: (digitsOf i.natAbs ++ rest) := by
      simp
    rw [htext, scanNumber_minus hne hdigits halone hr hzero, limited_digitsOf true h, ofDigits_digitsOf, hi]
  · have hi : (i.natAbs : Int) = i := by omega
    rw [String.toList_ofList, scanNumber_digits hne hdigits halone hr, limited_digitsOf false h, ofDigits_digitsOf, hi]

/-! ## Values -/

mutual

/-- Whether all numbers of a value are whole numbers of 64 bits. -/
def IsWhole : Json → Prop
  | int i => i.natAbs < wordLimit
  | decimal _ => False
  | array items => AreWhole items
  | object members => HasWholeMembers members
  | null | bool _ | string _ => True

def AreWhole : List Json → Prop
  | [] => True
  | j :: rest => IsWhole j ∧ AreWhole rest

def HasWholeMembers : List (String × Json) → Prop
  | [] => True
  | (_, j) :: rest => IsWhole j ∧ HasWholeMembers rest

end

theorem skipSpace_cons {c : Char} (h : isSpace c = false) (cs : List Char) :
    skipSpace (c :: cs) = some ((), c :: cs) := by
  unfold skipSpace
  rw [scan_bind (skip_of_head (by rintro _ ⟨⟩; exact h))]
  rfl

theorem head_number {c : Char} (h : c ∈ "-0123456789".toList) : isSpace c = false ∧ c ≠ ']' := by
  have hall : ∀ c ∈ "-0123456789".toList, (!isSpace c && c != ']') = true := List.all_eq_true.1 (by decide)
  simpa using hall c h

theorem scanValue_number (fuel : Nat) (room : Option Nat) {c : Char} (h : c ∈ "-0123456789".toList) (cs : List Char) :
    scanValue (fuel + 1) room (c :: cs) = scanNumber (c :: cs) := by
  have hspace := (head_number h).1
  have hc : c ∈ ['-', '0', '1', '2', '3', '4', '5', '6', '7', '8', '9'] := h
  rw [scanValue]
  refine (scan_bind (skipSpace_cons hspace cs)).trans ?_
  refine (scan_bind (peek_eq _)).trans ?_
  simp only [List.mem_cons, List.not_mem_nil, or_false] at hc
  rcases hc with rfl | rfl | rfl | rfl | rfl | rfl | rfl | rfl | rfl | rfl | rfl <;> rfl

theorem intText_head (i : Int) : ∃ c ∈ "-0123456789".toList, ∃ cs, (intText i).toList = c :: cs := by
  obtain ⟨d, ds, hds⟩ := List.exists_cons_of_ne_nil (digitsOf_ne_nil i.natAbs)
  have hd : d ∈ "0123456789".toList := mem_of_isDigit (isDigit_of_mem_digitsOf (hds ▸ List.mem_cons_self))
  unfold intText
  split
  · exact ⟨'-', by decide, digitsOf i.natAbs, by simp⟩
  · exact ⟨d, List.mem_cons_of_mem '-' hd, ds, by simp [hds]⟩

theorem match_bracket {β : Type} {c : Char} (h : c ≠ ']') (a b : β) :
    (match some c with
      | some ']' => a
      | _ => b) = b := by
  split
  · rename_i hc
    exact absurd (Option.some.inj hc) h
  · rfl

/-- The text of a value starts with a sign of its own. -/
theorem text_head {j : Json} (h : j.IsWhole) : ∃ c cs, j.text.toList = c :: cs ∧ isSpace c = false ∧ c ≠ ']' := by
  cases j with
  | null => exact ⟨'n', _, by rw [text]; rfl, by decide, by decide⟩
  | bool b => cases b <;> rw [text] <;> exact ⟨_, _, rfl, by decide, by decide⟩
  | int i =>
    obtain ⟨c, hc, cs, hcs⟩ := intText_head i
    exact ⟨c, cs, by rw [text]; exact hcs, head_number hc⟩
  | decimal d => exact absurd h id
  | string s => exact ⟨'"', _, by rw [text, toList_stringText], by decide, by decide⟩
  | array items => exact ⟨'[', _, by rw [text]; simp; rfl, by decide, by decide⟩
  | object members => exact ⟨'\x7b', _, by rw [text]; simp; rfl, by decide, by decide⟩

/-- The text of the items of an array, without the brackets. -/
def itemsText (items : List Json) : List Char := (String.intercalate "," (textOfItems items)).toList

/-- The text of the members of an object, without the braces. -/
def membersText (members : List (String × Json)) : List Char :=
  (String.intercalate "," (textOfMembers members)).toList

theorem toList_array (items : List Json) : (array items).text.toList = '[' :: (itemsText items ++ [']']) := by
  simp [text, itemsText]

theorem toList_object (members : List (String × Json)) :
    (object members).text.toList = '\x7b' :: (membersText members ++ ['\x7d']) := by
  simp [text, membersText]

theorem itemsText_single (j : Json) : itemsText [j] = j.text.toList := by
  simp [itemsText, textOfItems, String.intercalate_singleton]

theorem itemsText_cons (j k : Json) (items : List Json) :
    itemsText (j :: k :: items) = j.text.toList ++ ',' :: itemsText (k :: items) := by
  simp [itemsText, textOfItems, String.intercalate_cons_cons]

theorem membersText_single (name : String) (j : Json) :
    membersText [(name, j)] = (stringText name).toList ++ ':' :: j.text.toList := by
  simp [membersText, textOfMembers, String.intercalate_singleton]

theorem membersText_cons (name : String) (j : Json) (m : String × Json) (members : List (String × Json)) :
    membersText ((name, j) :: m :: members) =
      (stringText name).toList ++ ':' :: (j.text.toList ++ ',' :: membersText (m :: members)) := by
  simp [membersText, textOfMembers, String.intercalate_cons_cons]

theorem itemsText_head {j : Json} (items : List Json) (h : j.IsWhole) :
    ∃ c cs, itemsText (j :: items) = c :: cs ∧ isSpace c = false ∧ c ≠ ']' := by
  obtain ⟨c, cs, hhead, hc⟩ := text_head h
  cases items with
  | nil => exact ⟨c, cs, by rw [itemsText_single, hhead], hc⟩
  | cons k items => exact ⟨c, cs ++ ',' :: itemsText (k :: items), by rw [itemsText_cons, hhead]; rfl, hc⟩

theorem membersText_head (name : String) (j : Json) (members : List (String × Json)) :
    ∃ cs, membersText ((name, j) :: members) = '"' :: cs := by
  cases members with
  | nil => exact ⟨_, by rw [membersText_single, toList_stringText]; rfl⟩
  | cons m members => exact ⟨_, by rw [membersText_cons, toList_stringText]; rfl⟩

theorem skipSpace_stringText (s : String) (rest : List Char) :
    skipSpace ((stringText s).toList ++ rest) = some ((), (stringText s).toList ++ rest) := by
  rw [toList_stringText]
  exact skipSpace_cons rfl _

theorem endsValue_comma (rest : List Char) : EndsValue (',' :: rest) := by
  rintro _ ⟨⟩
  exact .inl rfl

theorem endsValue_bracket (rest : List Char) : EndsValue (']' :: rest) := by
  rintro _ ⟨⟩
  exact .inr (.inl rfl)

theorem endsValue_brace (rest : List Char) : EndsValue ('\x7d' :: rest) := by
  rintro _ ⟨⟩
  exact .inr (.inr rfl)

/-! ## Room -/

/-- Whether there is room for so many arrays and objects in one another. -/
def Fits (n : Nat) (room : Option Nat) : Prop := ∀ limit ∈ room, n ≤ limit

theorem fits_zero (room : Option Nat) : Fits 0 room := fun limit _ => Nat.zero_le limit

theorem fits_none (n : Nat) : Fits n none := fun _ h => nomatch h

theorem fits_some {n limit : Nat} : Fits n (some limit) ↔ n ≤ limit := by
  simp [Fits]

theorem fits_max {m n : Nat} {room : Option Nat} : Fits (max m n) room ↔ Fits m room ∧ Fits n room := by
  simp only [Fits, Nat.max_le]
  exact ⟨fun h => ⟨fun limit hl => (h limit hl).1, fun limit hl => (h limit hl).2⟩,
    fun h limit hl => ⟨h.1 limit hl, h.2 limit hl⟩⟩

/-- Into an array or an object there is either no way, or the way leads to the room for one less. -/
theorem enter_cases (room : Option Nat) :
    ((∀ cs, enter room cs = none) ∧ ∀ n, ¬Fits (n + 1) room) ∨
      ∃ inner, (∀ cs, enter room cs = some (inner, cs)) ∧ ∀ n, Fits (n + 1) room ↔ Fits n inner := by
  match room with
  | none => exact .inr ⟨none, fun _ => rfl, fun n => ⟨fun _ => fits_none n, fun _ => fits_none (n + 1)⟩⟩
  | some 0 => exact .inl ⟨fun _ => rfl, fun n h => absurd (fits_some.1 h) (by omega)⟩
  | some (room + 1) =>
    refine .inr ⟨some room, fun _ => rfl, fun n => ?_⟩
    rw [fits_some, fits_some]
    omega

/-- With room for a value that holds others there is a way into it. -/
theorem enter_of_fits {n : Nat} {room : Option Nat} (h : Fits (n + 1) room) :
    ∃ inner, (∀ cs, enter room cs = some (inner, cs)) ∧ Fits n inner := by
  rcases enter_cases room with ⟨-, hnone⟩ | ⟨inner, henter, hfits⟩
  · exact absurd h (hnone n)
  · exact ⟨inner, henter, (hfits n).1 h⟩

section Brackets

variable {room inner : Option Nat} (fuel : Nat) (rest : List Char)

theorem scanValue_array_nil (h : ∀ cs, enter room cs = some (inner, cs)) :
    scanValue (fuel + 1) room ((array []).text.toList ++ rest) = some (array [], rest) := by
  rw [toList_array, scanValue]
  refine (scan_bind (skipSpace_cons rfl _)).trans ?_
  refine (scan_bind (peek_eq _)).trans ?_
  exact (scan_bind (h _)).trans rfl

theorem scanValue_array_cons {item : Json} {items : List Json} (h : ∀ cs, enter room cs = some (inner, cs))
    (hitem : item.IsWhole) :
    scanValue (fuel + 1) room ((array (item :: items)).text.toList ++ rest) =
      (array <$> scanItems fuel inner) (itemsText (item :: items) ++ ']' :: rest) := by
  obtain ⟨c, cs, hhead, hspace, hne⟩ := itemsText_head items hitem
  rw [toList_array, List.cons_append, List.append_assoc, List.singleton_append, scanValue]
  refine (scan_bind (skipSpace_cons rfl _)).trans ?_
  refine (scan_bind (peek_eq _)).trans ?_
  refine (scan_bind (h _)).trans ?_
  refine (scan_bind (char_cons '[' _)).trans ?_
  rw [hhead]
  refine (scan_bind (skipSpace_cons hspace _)).trans ?_
  refine (scan_bind (peek_eq _)).trans ?_
  exact congrFun (match_bracket hne _ _) _

theorem scanValue_array_none (items : List Json) (h : ∀ cs, enter room cs = none) :
    scanValue (fuel + 1) room ((array items).text.toList ++ rest) = none := by
  rw [toList_array, scanValue]
  refine (scan_bind (skipSpace_cons rfl _)).trans ?_
  refine (scan_bind (peek_eq _)).trans ?_
  exact scan_bind_none _ (h _)

theorem scanValue_object_nil (h : ∀ cs, enter room cs = some (inner, cs)) :
    scanValue (fuel + 1) room ((object []).text.toList ++ rest) = some (object [], rest) := by
  rw [toList_object, scanValue]
  refine (scan_bind (skipSpace_cons rfl _)).trans ?_
  refine (scan_bind (peek_eq _)).trans ?_
  exact (scan_bind (h _)).trans rfl

theorem scanValue_object_cons {name : String} {value : Json} {members : List (String × Json)}
    (h : ∀ cs, enter room cs = some (inner, cs)) :
    scanValue (fuel + 1) room ((object ((name, value) :: members)).text.toList ++ rest) =
      (object <$> scanMembers fuel inner) (membersText ((name, value) :: members) ++ '\x7d' :: rest) := by
  obtain ⟨cs, hhead⟩ := membersText_head name value members
  rw [toList_object, List.cons_append, List.append_assoc, List.singleton_append, scanValue]
  refine (scan_bind (skipSpace_cons rfl _)).trans ?_
  refine (scan_bind (peek_eq _)).trans ?_
  refine (scan_bind (h _)).trans ?_
  refine (scan_bind (char_cons '\x7b' _)).trans ?_
  rw [hhead]
  refine (scan_bind (skipSpace_cons rfl _)).trans ?_
  exact (scan_bind (peek_eq _)).trans rfl

theorem scanValue_object_none (members : List (String × Json)) (h : ∀ cs, enter room cs = none) :
    scanValue (fuel + 1) room ((object members).text.toList ++ rest) = none := by
  rw [toList_object, scanValue]
  refine (scan_bind (skipSpace_cons rfl _)).trans ?_
  refine (scan_bind (peek_eq _)).trans ?_
  exact scan_bind_none _ (h _)

end Brackets

/-! ## Values that fit -/

mutual

/-- A value that fits is read from its text, in as many steps as the text has characters twice over. -/
theorem scanValue_text : ∀ (j : Json) (fuel : Nat) (room : Option Nat) (rest : List Char), j.IsWhole →
    2 * j.text.toList.length ≤ fuel → Fits j.nesting room → EndsValue rest →
      scanValue (fuel + 1) room (j.text.toList ++ rest) = some (j, rest)
  | .null => by
    intro fuel room rest _ _ _ _
    rw [text, scanValue]
    exact (scan_bind (skipSpace_cons rfl _)).trans rfl
  | .bool b => by
    intro fuel room rest _ _ _ _
    rw [text, scanValue]
    cases b <;> exact (scan_bind (skipSpace_cons rfl _)).trans rfl
  | .int i => by
    intro fuel room rest h _ _ hr
    obtain ⟨c, hc, cs, hcs⟩ := intText_head i
    have hnumber := scanNumber_intText h hr
    rw [text]
    rw [hcs] at hnumber ⊢
    exact (scanValue_number fuel room hc _).trans hnumber
  | .decimal d => by
    intro fuel room rest h
    exact absurd h id
  | .string s => by
    intro fuel room rest _ _ _ _
    have hstring := scan_map Json.string (scanString_stringText s rest)
    rw [text, scanValue]
    rw [toList_stringText] at hstring ⊢
    refine (scan_bind (skipSpace_cons rfl _)).trans ?_
    exact (scan_bind (peek_eq _)).trans hstring
  | .array [] => by
    intro fuel room rest _ _ hfits _
    obtain ⟨inner, henter, -⟩ := enter_of_fits hfits
    exact scanValue_array_nil fuel rest henter
  | .array (item :: items) => by
    intro fuel room rest h hfuel hfits _
    obtain ⟨inner, henter, hinner⟩ := enter_of_fits hfits
    -- the brackets have paid for the steps into the items
    rw [toList_array, List.length_cons, List.length_append, List.length_singleton] at hfuel
    obtain ⟨fuel, rfl⟩ := Nat.exists_eq_add_of_le' (show 2 ≤ fuel by omega)
    have hitems := scanItems_text (item :: items) fuel inner rest (List.cons_ne_nil _ _) h (by omega) hinner
    exact (scanValue_array_cons _ rest henter h.1).trans (scan_map Json.array hitems)
  | .object [] => by
    intro fuel room rest _ _ hfits _
    obtain ⟨inner, henter, -⟩ := enter_of_fits hfits
    exact scanValue_object_nil fuel rest henter
  | .object ((name, value) :: members) => by
    intro fuel room rest h hfuel hfits _
    obtain ⟨inner, henter, hinner⟩ := enter_of_fits hfits
    rw [toList_object, List.length_cons, List.length_append, List.length_singleton] at hfuel
    obtain ⟨fuel, rfl⟩ := Nat.exists_eq_add_of_le' (show 2 ≤ fuel by omega)
    have hmembers :=
      scanMembers_text ((name, value) :: members) fuel inner rest (List.cons_ne_nil _ _) h (by omega) hinner
    exact (scanValue_object_cons _ rest henter).trans (scan_map Json.object hmembers)

theorem scanItems_text : ∀ (items : List Json) (fuel : Nat) (room : Option Nat) (rest : List Char), items ≠ [] →
    AreWhole items → 2 * (itemsText items).length ≤ fuel → Fits (nestingOfItems items) room →
      scanItems (fuel + 2) room (itemsText items ++ ']' :: rest) = some (items, rest)
  | [] => fun _ _ _ hne => absurd rfl hne
  | [j] => by
    intro fuel room rest _ h hfuel hfits
    rw [itemsText_single] at hfuel ⊢
    have hvalue := scanValue_text j fuel room (']' :: rest) h.1 hfuel (fits_max.1 hfits).1 (endsValue_bracket rest)
    rw [scanItems]
    refine (scan_bind hvalue).trans ?_
    exact (scan_bind (skipSpace_cons rfl _)).trans rfl
  | j :: k :: items => by
    intro fuel room rest _ h hfuel hfits
    obtain ⟨hj, hitems⟩ := fits_max.1 hfits
    rw [itemsText_cons, List.length_append, List.length_cons] at hfuel
    obtain ⟨fuel, rfl⟩ := Nat.exists_eq_add_of_le' (show 1 ≤ fuel by omega)
    have hvalue := scanValue_text j (fuel + 1) room (',' :: (itemsText (k :: items) ++ ']' :: rest)) h.1 (by omega)
      hj (endsValue_comma _)
    have hrest := scanItems_text (k :: items) fuel room rest (List.cons_ne_nil _ _) h.2 (by omega) hitems
    rw [itemsText_cons, List.append_assoc, List.cons_append, scanItems]
    refine (scan_bind hvalue).trans ?_
    refine (scan_bind (skipSpace_cons rfl _)).trans ?_
    refine (scan_bind (peek_eq _)).trans ?_
    refine (scan_bind (char_cons ',' _)).trans ?_
    exact (scan_bind hrest).trans rfl

theorem scanMembers_text : ∀ (members : List (String × Json)) (fuel : Nat) (room : Option Nat) (rest : List Char),
    members ≠ [] → HasWholeMembers members → 2 * (membersText members).length ≤ fuel →
      Fits (nestingOfMembers members) room →
        scanMembers (fuel + 2) room (membersText members ++ '\x7d' :: rest) = some (members, rest)
  | [] => fun _ _ _ hne => absurd rfl hne
  | [(name, j)] => by
    intro fuel room rest _ h hfuel hfits
    rw [membersText_single, List.length_append, List.length_cons] at hfuel
    have hvalue := scanValue_text j fuel room ('\x7d' :: rest) h.1 (by omega) (fits_max.1 hfits).1
      (endsValue_brace rest)
    rw [membersText_single, List.append_assoc, List.cons_append, scanMembers]
    refine (scan_bind (skipSpace_stringText name _)).trans ?_
    refine (scan_bind (scanString_stringText name _)).trans ?_
    refine (scan_bind (skipSpace_cons rfl _)).trans ?_
    refine (scan_bind (char_cons ':' _)).trans ?_
    refine (scan_bind hvalue).trans ?_
    exact (scan_bind (skipSpace_cons rfl _)).trans rfl
  | (name, j) :: m :: members => by
    intro fuel room rest _ h hfuel hfits
    obtain ⟨hj, hmembers⟩ := fits_max.1 hfits
    rw [membersText_cons, List.length_append, List.length_cons, List.length_append, List.length_cons] at hfuel
    obtain ⟨fuel, rfl⟩ := Nat.exists_eq_add_of_le' (show 1 ≤ fuel by omega)
    have hvalue := scanValue_text j (fuel + 1) room (',' :: (membersText (m :: members) ++ '\x7d' :: rest)) h.1
      (by omega) hj (endsValue_comma _)
    have hrest := scanMembers_text (m :: members) fuel room rest (List.cons_ne_nil _ _) h.2 (by omega) hmembers
    rw [membersText_cons, List.append_assoc, List.cons_append, List.append_assoc, List.cons_append, scanMembers]
    refine (scan_bind (skipSpace_stringText name _)).trans ?_
    refine (scan_bind (scanString_stringText name _)).trans ?_
    refine (scan_bind (skipSpace_cons rfl _)).trans ?_
    refine (scan_bind (char_cons ':' _)).trans ?_
    refine (scan_bind hvalue).trans ?_
    refine (scan_bind (skipSpace_cons rfl _)).trans ?_
    refine (scan_bind (peek_eq _)).trans ?_
    refine (scan_bind (char_cons ',' _)).trans ?_
    exact (scan_bind hrest).trans rfl

end

/-! ## Values that do not fit

The reader comes to the array or object that is one too many, since all that stands before it in the text is read.
-/

mutual

theorem scanValue_deep : ∀ (j : Json) (fuel : Nat) (room : Option Nat) (rest : List Char), j.IsWhole →
    2 * j.text.toList.length ≤ fuel → ¬Fits j.nesting room → scanValue (fuel + 1) room (j.text.toList ++ rest) = none
  | .null | .bool _ | .int _ | .decimal _ | .string _ => fun _ room _ _ _ hdeep => absurd (fits_zero room) hdeep
  | .array items => by
    intro fuel room rest h hfuel hdeep
    rcases enter_cases room with ⟨hnone, -⟩ | ⟨inner, henter, hfits⟩
    · exact scanValue_array_none fuel rest items hnone
    have hinner : ¬Fits (nestingOfItems items) inner := fun hin => hdeep ((hfits _).2 hin)
    match items with
    | [] => exact absurd (fits_zero inner) hinner
    | item :: items =>
      rw [toList_array, List.length_cons, List.length_append, List.length_singleton] at hfuel
      obtain ⟨fuel, rfl⟩ := Nat.exists_eq_add_of_le' (show 2 ≤ fuel by omega)
      have hitems := scanItems_deep (item :: items) fuel inner rest h (by omega) hinner
      exact (scanValue_array_cons _ rest henter h.1).trans (scan_map_none Json.array hitems)
  | .object members => by
    intro fuel room rest h hfuel hdeep
    rcases enter_cases room with ⟨hnone, -⟩ | ⟨inner, henter, hfits⟩
    · exact scanValue_object_none fuel rest members hnone
    have hinner : ¬Fits (nestingOfMembers members) inner := fun hin => hdeep ((hfits _).2 hin)
    match members with
    | [] => exact absurd (fits_zero inner) hinner
    | (name, value) :: members =>
      rw [toList_object, List.length_cons, List.length_append, List.length_singleton] at hfuel
      obtain ⟨fuel, rfl⟩ := Nat.exists_eq_add_of_le' (show 2 ≤ fuel by omega)
      have hmembers := scanMembers_deep ((name, value) :: members) fuel inner rest h (by omega) hinner
      exact (scanValue_object_cons _ rest henter).trans (scan_map_none Json.object hmembers)

theorem scanItems_deep : ∀ (items : List Json) (fuel : Nat) (room : Option Nat) (rest : List Char), AreWhole items →
    2 * (itemsText items).length ≤ fuel → ¬Fits (nestingOfItems items) room →
      scanItems (fuel + 2) room (itemsText items ++ ']' :: rest) = none
  | [] => fun _ room _ _ _ hdeep => absurd (fits_zero room) hdeep
  | [j] => by
    intro fuel room rest h hfuel hdeep
    have hj : ¬Fits j.nesting room := fun hj => hdeep (fits_max.2 ⟨hj, fits_zero room⟩)
    rw [itemsText_single] at hfuel ⊢
    rw [scanItems]
    exact scan_bind_none _ (scanValue_deep j fuel room _ h.1 hfuel hj)
  | j :: k :: items => by
    intro fuel room rest h hfuel hdeep
    rw [itemsText_cons, List.length_append, List.length_cons] at hfuel
    obtain ⟨fuel, rfl⟩ := Nat.exists_eq_add_of_le' (show 1 ≤ fuel by omega)
    rw [itemsText_cons, List.append_assoc, List.cons_append, scanItems]
    -- either this item is too deep, or it is read and one behind it is
    by_cases hj : Fits j.nesting room
    · have hitems : ¬Fits (nestingOfItems (k :: items)) room := fun hitems => hdeep (fits_max.2 ⟨hj, hitems⟩)
      refine (scan_bind (scanValue_text j (fuel + 1) room _ h.1 (by omega) hj (endsValue_comma _))).trans ?_
      refine (scan_bind (skipSpace_cons rfl _)).trans ?_
      refine (scan_bind (peek_eq _)).trans ?_
      refine (scan_bind (char_cons ',' _)).trans ?_
      exact scan_bind_none _ (scanItems_deep (k :: items) fuel room rest h.2 (by omega) hitems)
    · exact scan_bind_none _ (scanValue_deep j (fuel + 1) room _ h.1 (by omega) hj)

theorem scanMembers_deep : ∀ (members : List (String × Json)) (fuel : Nat) (room : Option Nat) (rest : List Char),
    HasWholeMembers members → 2 * (membersText members).length ≤ fuel → ¬Fits (nestingOfMembers members) room →
      scanMembers (fuel + 2) room (membersText members ++ '\x7d' :: rest) = none
  | [] => fun _ room _ _ _ hdeep => absurd (fits_zero room) hdeep
  | [(name, j)] => by
    intro fuel room rest h hfuel hdeep
    have hj : ¬Fits j.nesting room := fun hj => hdeep (fits_max.2 ⟨hj, fits_zero room⟩)
    rw [membersText_single, List.length_append, List.length_cons] at hfuel
    rw [membersText_single, List.append_assoc, List.cons_append, scanMembers]
    refine (scan_bind (skipSpace_stringText name _)).trans ?_
    refine (scan_bind (scanString_stringText name _)).trans ?_
    refine (scan_bind (skipSpace_cons rfl _)).trans ?_
    refine (scan_bind (char_cons ':' _)).trans ?_
    exact scan_bind_none _ (scanValue_deep j fuel room _ h.1 (by omega) hj)
  | (name, j) :: m :: members => by
    intro fuel room rest h hfuel hdeep
    rw [membersText_cons, List.length_append, List.length_cons, List.length_append, List.length_cons] at hfuel
    obtain ⟨fuel, rfl⟩ := Nat.exists_eq_add_of_le' (show 1 ≤ fuel by omega)
    rw [membersText_cons, List.append_assoc, List.cons_append, List.append_assoc, List.cons_append, scanMembers]
    refine (scan_bind (skipSpace_stringText name _)).trans ?_
    refine (scan_bind (scanString_stringText name _)).trans ?_
    refine (scan_bind (skipSpace_cons rfl _)).trans ?_
    refine (scan_bind (char_cons ':' _)).trans ?_
    by_cases hj : Fits j.nesting room
    · have hmembers : ¬Fits (nestingOfMembers (m :: members)) room :=
        fun hmembers => hdeep (fits_max.2 ⟨hj, hmembers⟩)
      refine (scan_bind (scanValue_text j (fuel + 1) room _ h.1 (by omega) hj (endsValue_comma _))).trans ?_
      refine (scan_bind (skipSpace_cons rfl _)).trans ?_
      refine (scan_bind (peek_eq _)).trans ?_
      refine (scan_bind (char_cons ',' _)).trans ?_
      exact scan_bind_none _ (scanMembers_deep (m :: members) fuel room rest h.2 (by omega) hmembers)
    · exact scan_bind_none _ (scanValue_deep j (fuel + 1) room _ h.1 (by omega) hj)

end

/-! ## Whole texts -/

theorem parseWithin?_fits {j : Json} {limit : Option Nat} (h : j.IsWhole) (hfits : Fits j.nesting limit) :
    parseWithin? limit j.text = some j := by
  have hvalue := scanValue_text j (2 * j.text.toList.length + 1) limit [] h (by omega) hfits (by rintro _ ⟨⟩)
  rw [List.append_nil] at hvalue
  unfold parseWithin?
  dsimp only
  rw [show (scanValue (2 * j.text.toList.length + 2) limit).run j.text.toList = some (j, []) from hvalue]
  rfl

theorem parseWithin?_deep {j : Json} {limit : Option Nat} (h : j.IsWhole) (hdeep : ¬Fits j.nesting limit) :
    parseWithin? limit j.text = none := by
  have hvalue := scanValue_deep j (2 * j.text.toList.length + 1) limit [] h (by omega) hdeep
  rw [List.append_nil] at hvalue
  unfold parseWithin?
  dsimp only
  rw [show (scanValue (2 * j.text.toList.length + 2) limit).run j.text.toList = none from hvalue]
  rfl

/-- A text of JSON whose numbers are whole is read back as the value by a reader without a bound. -/
theorem parse?_text {j : Json} (h : j.IsWhole) : parse? j.text = some j :=
  parseWithin?_fits h (fits_none j.nesting)

/-- A reader with a bound reads it back if it is nested within the bound, and refuses it otherwise. -/
theorem parseWithin?_text {j : Json} (h : j.IsWhole) (limit : Nat) :
    parseWithin? (some limit) j.text = if j.nesting ≤ limit then some j else none := by
  split
  · rename_i hle
    exact parseWithin?_fits h (fits_some.2 hle)
  · rename_i hle
    exact parseWithin?_deep h (mt fits_some.1 hle)

end WorkItemQuery.Json
