/-
The zones of a text. Reading it character by character, one knows whether a place is inside a comment, a key
in brackets or a string literal, without reading tokens. On layouts these zones are what the tokens say:
gaps and tokens start and end outside all of them, so a text that is a pipeline ends neither inside a
literal nor inside a key.
-/
import WorkItemQuery.Proofs.Pipeline.Accepted

namespace WorkItemQuery.Pipeline

open WorkItemQuery.Text

/-- What a place in a text is inside of. -/
inductive Zone where
  | code
  /-- Behind a hyphen, which starts a comment if another one follows. -/
  | hyphen
  | comment
  | key
  | literal
deriving DecidableEq

namespace Zone

/-- The zone behind a character that stands outside of everything. -/
def opened (c : Char) : Zone :=
  if c = '\'' then literal else if c = '[' then key else if c = '-' then hyphen else code

/-- The zone behind a character. An apostrophe that is written twice ends a literal and starts another. -/
def next : Zone → Char → Zone
  | code, c => opened c
  | hyphen, c => if c = '-' then comment else opened c
  | comment, c => if c = '\n' then code else comment
  | key, c => if c = ']' then code else key
  | literal, c => if c = '\'' then code else literal

/-- The zone behind a text. -/
def after (z : Zone) (cs : List Char) : Zone := cs.foldl next z

@[simp] theorem after_nil (z : Zone) : z.after [] = z := rfl

@[simp] theorem after_cons (z : Zone) (c : Char) (cs : List Char) : z.after (c :: cs) = (z.next c).after cs := rfl

@[simp] theorem after_append (z : Zone) (cs ds : List Char) : z.after (cs ++ ds) = (z.after cs).after ds :=
  List.foldl_append

end Zone

/-! ## Solid characters -/

/-- The characters that start nothing and end nothing, not even a line. -/
def IsSolid (c : Char) : Prop := c ∉ ['\'', '[', '-', '\r', '\n']

theorem isSolid_of {p : Char → Bool} {c : Char} (h : p c = true)
    (hall : ∀ d ∈ ['\'', '[', '-', '\r', '\n'], p d = false) : IsSolid c := by
  intro hmem
  rw [hall c hmem] at h
  cases h

theorem isSolid_of_isInName {c : Char} (h : isInName c = true) : IsSolid c := isSolid_of h (by decide)

theorem isSolid_of_isLetter {c : Char} (h : isLetter c = true) : IsSolid c := isSolid_of h (by decide)

theorem isSolid_of_isDigit {c : Char} (h : Scan.isDigit c = true) : IsSolid c := isSolid_of h (by decide)

theorem next_code_solid {c : Char} (h : IsSolid c) : Zone.code.next c = .code := by
  simp only [IsSolid, List.mem_cons, not_or] at h
  simp [Zone.next, Zone.opened, h]

theorem next_code_space {c : Char} (h : isSpace c = true) : Zone.code.next c = .code := by
  rcases isSpace_iff.1 h with rfl | rfl | rfl | rfl <;> rfl

theorem after_code {cs : List Char} (h : ∀ c ∈ cs, Zone.code.next c = .code) : Zone.code.after cs = .code := by
  induction cs with
  | nil => rfl
  | cons c cs ih =>
    rw [Zone.after_cons, h c List.mem_cons_self]
    exact ih fun d hd => h d (List.mem_cons_of_mem c hd)

/-! ## Gaps -/

theorem after_comment {t : List Char} (h : '\n' ∉ t) : Zone.comment.after t = .comment := by
  induction t with
  | nil => rfl
  | cons c t ih =>
    rw [List.mem_cons, not_or] at h
    rw [Zone.after_cons, Zone.next, if_neg (Ne.symm h.1), ih h.2]

theorem after_gap {g : List Char} (h : Gap g) : Zone.code.after g = .code := by
  induction h with
  | nil => rfl
  | blank hc _ ih => rw [Zone.after_cons, next_code_space hc, ih]
  | @comment t g ht _ ih =>
    show Zone.comment.after (t ++ '\n' :: g) = .code
    rw [Zone.after_append, after_comment ht]
    exact ih

theorem after_lastGap {g : List Char} (h : LastGap g) : Zone.code.after g = .code ∨ Zone.code.after g = .comment := by
  cases h with
  | gap hg => exact .inl (after_gap hg)
  | comment hg ht =>
    rw [Zone.after_append, after_gap hg]
    exact .inr (after_comment ht)

/-! ## Tokens -/

theorem after_double (s : List Char) : Zone.literal.after (double s ++ ['\'']) = .code := by
  induction s with
  | nil => rfl
  | cons c s ih =>
    rw [double]
    split
    · exact ih
    · rename_i hc
      rw [List.cons_append, Zone.after_cons, Zone.next, if_neg hc, ih]

theorem after_quoteChars (s : List Char) : Zone.code.after (quoteChars s) = .code := after_double s

theorem after_key {k : List Char} (h : ']' ∉ k) : Zone.key.after k = .key := by
  induction k with
  | nil => rfl
  | cons c k ih =>
    rw [List.mem_cons, not_or] at h
    rw [Zone.after_cons, Zone.next, if_neg (Ne.symm h.1), ih h.2]

theorem isLetter_of_keyword {v : String} (h : v ∈ keywords) : ∀ l ∈ v.toList, isLetter l = true := by
  have hall : ∀ v ∈ keywords, ∀ l ∈ v.toList, isLetter l = true := by decide
  exact hall v h

theorem isLetter_of_operatorWord {op : DomainOp} {v : String} (h : v ∈ operatorWords op) :
    ∀ l ∈ v.toList, isLetter l = true := by
  have hall : ∀ v ∈ operatorWords op, ∀ l ∈ v.toList, isLetter l = true := by cases op <;> decide
  exact hall v h

theorem letters_and_blanks : ∀ {ws : List String} {w : List Char}, (∀ v ∈ ws, ∀ l ∈ v.toList, isLetter l = true) →
    SpellsWords ws w → ∀ c ∈ w, isLetter c = true ∨ isSpace c = true
  | [], w, _, h, c, hc => by
    have h : w = [] := h
    rw [h] at hc
    cases hc
  | [v], w, hv, h, c, hc => .inl (isLetter_of_spells h (hv v List.mem_cons_self) c hc)
  | v :: u :: ws, w, hv, h, c, hc => by
    obtain ⟨a, b, rest, rfl, ha, -, hb, h⟩ := h
    rcases List.mem_append.1 hc with hc | hc
    · rcases List.mem_append.1 hc with hc | hc
      · exact .inl (isLetter_of_spells ha (hv v List.mem_cons_self) c hc)
      · exact .inr (hb c hc)
    · exact letters_and_blanks (fun v hmem => hv v (List.mem_cons_of_mem _ hmem)) h c hc

theorem mem_getLast?_append {α : Type} {as bs : List α} {a : α} (h : a ∈ (as ++ bs).getLast?) :
    a ∈ bs.getLast? ∨ bs = [] ∧ a ∈ as.getLast? := by
  rcases bs with _ | ⟨b, bs⟩
  · rw [List.append_nil] at h
    exact .inr ⟨rfl, h⟩
  · rw [List.getLast?_append, List.getLast?_cons, Option.some_or] at h
    rw [List.getLast?_cons]
    exact .inl h

theorem isLetter_getLast : ∀ {ws : List String} {w : List Char},
    (∀ v ∈ ws, (∃ l, l ∈ v.toList.head? ∧ isLetter l = true) ∧ ∀ l ∈ v.toList, isLetter l = true) →
      SpellsWords ws w → ∀ c ∈ w.getLast?, isLetter c = true
  | [], w, _, h, c, hc => by
    have h : w = [] := h
    rw [h] at hc
    cases hc
  | [v], w, hv, h, c, hc => isLetter_of_spells h (hv v List.mem_cons_self).2 c (List.mem_of_getLast? hc)
  | v :: u :: ws, w, hv, h, c, hc => by
    obtain ⟨a, b, rest, rfl, -, -, -, h⟩ := h
    have hv := fun v hmem => hv v (List.mem_cons_of_mem _ hmem)
    rcases mem_getLast?_append hc with hc | ⟨rfl, -⟩
    · exact isLetter_getLast hv h c hc
    · obtain ⟨l, hl, -⟩ := (hv u List.mem_cons_self).1
      obtain ⟨_, _, hnil, -⟩ := spellsWords_cons h hl
      cases hnil

namespace Token

/-- The tokens whose texts are made of solid characters. -/
def HasSolidText : Token → Prop
  | word _ | sign _ | comparison _ | name _ => True
  | _ => False

theorem isSolid_of_mem {t : Token} {w : List Char} (h : t.Spelled w) (ht : t.HasSolidText) : ∀ c ∈ w, IsSolid c := by
  intro c hc
  cases t with
  | word v => exact isSolid_of_isLetter (isLetter_of_spells h.2 (isLetter_of_keyword h.1) c hc)
  | sign s =>
    have hall : ∀ s ∈ signs, IsSolid s := by
      unfold IsSolid
      decide
    obtain ⟨hs, rfl⟩ := h
    rw [List.mem_singleton.1 hc]
    exact hall s hs
  | comparison op =>
    obtain ⟨s, hs, rfl⟩ := h
    have hall : ∀ s ∈ comparisonSigns op, ∀ c ∈ s.toList, IsSolid c := by
      unfold IsSolid
      cases op <;> decide
    exact hall s hs c hc
  | name n =>
    obtain ⟨hn, rfl⟩ := h
    exact isSolid_of_isInName (isInName_of_name hn c hc)
  | operator _ | key _ | number _ | string _ | date _ => cases ht

theorem isSolid_of_digits {n : NumberText} (h : IsNumber n) :
    ∀ c ∈ n.whole ++ (if n.fraction.isEmpty then [] else '.' :: n.fraction), IsSolid c := by
  intro c hc
  rcases List.mem_append.1 hc with hc | hc
  · exact isSolid_of_isDigit (h.whole c hc)
  · split at hc
    · cases hc
    · rcases List.mem_cons.1 hc with rfl | hc
      · unfold IsSolid; decide
      · exact isSolid_of_isDigit (h.fraction c hc)

/-- A token ends where it started, outside of everything. -/
theorem after_spelled {t : Token} {w : List Char} (h : t.Spelled w) : Zone.code.after w = .code := by
  cases t with
  | word _ | sign _ | comparison _ | name _ =>
    exact after_code fun c hc => next_code_solid (isSolid_of_mem h trivial c hc)
  | operator op =>
    refine after_code fun c hc => ?_
    rcases letters_and_blanks (fun v hv => isLetter_of_operatorWord hv) h c hc with hl | hs
    · exact next_code_solid (isSolid_of_isLetter hl)
    · exact next_code_space hs
  | key k =>
    obtain ⟨hk, rfl⟩ := h
    rw [Zone.after_cons, Zone.after_append]
    show (Zone.key.after k.toList).after [']'] = .code
    rw [after_key hk.2]
    rfl
  | number n =>
    obtain ⟨hn, rfl⟩ := h
    have hdigits := after_code fun c hc => next_code_solid (isSolid_of_digits hn c hc)
    unfold NumberText.chars
    rw [List.append_assoc]
    cases n.negative with
    | false => exact hdigits
    | true =>
      -- behind the minus comes a digit, as if there were no minus
      obtain ⟨d, ds, hds⟩ := List.exists_cons_of_ne_nil hn.some_digit
      have hd : d ≠ '-' := by
        rintro rfl
        exact absurd (hn.whole '-' (by rw [hds]; exact List.mem_cons_self)) (by decide)
      rw [hds, List.cons_append, Zone.after_cons] at hdigits
      rw [if_pos rfl, hds, List.singleton_append, List.cons_append, Zone.after_cons, Zone.after_cons]
      show (Zone.hyphen.next d).after _ = .code
      rw [Zone.next, if_neg hd]
      exact hdigits
  | string s =>
    have h : w = quoteChars s.toList := h
    rw [h, after_quoteChars]
  | date s =>
    obtain ⟨v, hv, rfl⟩ := h
    have hword := after_code fun c hc => next_code_solid (isSolid_of_isLetter (isLetter_of_spells hv (by decide) c hc))
    rw [Zone.after_append, hword, after_quoteChars]

/-- A token does not end with a character of a line break. -/
theorem spelled_getLast {t : Token} {w : List Char} (h : t.Spelled w) : ∀ c ∈ w.getLast?, c ≠ '\r' ∧ c ≠ '\n' := by
  have hsolid : ∀ {c : Char}, IsSolid c → c ≠ '\r' ∧ c ≠ '\n' := by
    intro c hc
    simp only [IsSolid, List.mem_cons, not_or] at hc
    exact ⟨hc.2.2.2.1, hc.2.2.2.2.1⟩
  intro c hc
  cases t with
  | word _ | sign _ | comparison _ | name _ => exact hsolid (isSolid_of_mem h trivial c (List.mem_of_getLast? hc))
  | operator op =>
    have hletter := isLetter_getLast (fun v hv => ⟨operatorWords_head hv, isLetter_of_operatorWord hv⟩) h c hc
    exact hsolid (isSolid_of_isLetter hletter)
  | key k =>
    obtain ⟨-, rfl⟩ := h
    rw [← List.cons_append, List.getLast?_concat] at hc
    cases hc
    decide
  | number n =>
    obtain ⟨hn, rfl⟩ := h
    unfold NumberText.chars at hc
    rw [List.append_assoc] at hc
    rcases mem_getLast?_append hc with hc | ⟨hnil, -⟩
    · exact hsolid (isSolid_of_digits hn c (List.mem_of_getLast? hc))
    · exact absurd (List.append_eq_nil_iff.1 hnil).1 hn.some_digit
  | string s =>
    have h : w = quoteChars s.toList := h
    rw [h, quoteChars, List.getLast?_concat] at hc
    cases hc
    decide
  | date s =>
    obtain ⟨v, -, rfl⟩ := h
    rw [quoteChars, ← List.append_assoc, List.getLast?_concat] at hc
    cases hc
    decide

end Token

/-! ## Layouts -/

/-- A token may stand before another text if that one starts with a blank or as the first one does. -/
theorem Token.Apart.mono {t : Token} {cs ds : List Char} (h : t.Apart cs)
    (hhead : ∀ c ∈ ds.head?, c ∈ cs.head? ∨ isSpace c = true) : t.Apart ds := by
  have hspace : ∀ {c : Char}, isSpace c = true → isInName c = false := by
    intro c hs
    rcases isSpace_iff.1 hs with rfl | rfl | rfl | rfl <;> decide
  cases t with
  | word _ | operator _ =>
    intro c hc
    rcases hhead c hc with hc | hs
    · exact h c hc
    · have hname := hspace hs
      rw [isInName, Bool.or_eq_false_iff] at hname
      exact hname.1
  | name _ =>
    intro c hc
    rcases hhead c hc with hc | hs
    · exact h c hc
    · exact hspace hs
  | _ => trivial

/-- The tokens of a layout, apart from what follows them. -/
theorem Laid.change {ts : List Token} {cs rest : List Char} (h : Laid ts cs rest) :
    ∃ w, cs = w ++ rest ∧ Zone.code.after w = .code ∧ (∀ c ∈ w.getLast?, c ≠ '\r' ∧ c ≠ '\n') ∧
      ∀ ds : List Char, (∀ c ∈ ds.head?, c ∈ rest.head? ∨ isSpace c = true) → Laid ts (w ++ ds) ds := by
  induction h with
  | nil => exact ⟨[], rfl, rfl, by simp, fun _ _ => .nil⟩
  | @cons t ts g w mid rest hg hw ha _ ih =>
    obtain ⟨v, rfl, hzone, hlast, hchange⟩ := ih
    refine ⟨g ++ w ++ v, by simp, ?_, ?_, fun ds hds => ?_⟩
    · rw [Zone.after_append, Zone.after_append, after_gap hg, Token.after_spelled hw, hzone]
    · intro c hc
      rcases mem_getLast?_append hc with hc | ⟨-, hc⟩
      · exact hlast c hc
      · rcases mem_getLast?_append hc with hc | ⟨rfl, -⟩
        · exact Token.spelled_getLast hw c hc
        · obtain ⟨_, _, hnil, -⟩ := Token.spelled_starts hw
          cases hnil
    · rw [List.append_assoc]
      refine .cons hg hw (ha.mono fun c hc => ?_) (hchange ds hds)
      cases v with
      | nil => exact hds c hc
      | cons d v => exact .inl hc

/-- A text that is a pipeline ends neither inside a literal nor inside a key. -/
theorem after_layout {ts : List Token} {cs : List Char} (h : Layout ts cs) :
    Zone.code.after cs = .code ∨ Zone.code.after cs = .comment := by
  obtain ⟨rest, h, hrest⟩ := h
  obtain ⟨w, rfl, hzone, -⟩ := h.change
  rw [Zone.after_append, hzone]
  exact after_lastGap hrest

end WorkItemQuery.Pipeline
