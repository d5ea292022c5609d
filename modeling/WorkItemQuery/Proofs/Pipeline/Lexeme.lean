/-
Every token is read back from each way to write it, and nothing beyond it is taken. Words and names end
where their layout says so; numbers, strings and signs need a text behind them that does not go on
with them (`EndsValue` and the like), which no token that can follow them does.
-/
import WorkItemQuery.Proofs.Pipeline.Layout
import WorkItemQuery.Proofs.Text.Scan

namespace WorkItemQuery.Pipeline

open WorkItemQuery.Text

/-! ## Words, names and keys -/

theorem readLetters_append (rest : List Char) : ∀ (ws cs : List Char), cs.map Char.toLower = ws →
    readLetters ws (cs ++ rest) = some rest
  | _, [], h => by subst h; rfl
  | _, c :: cs, h => by
    subst h
    rw [List.map_cons, List.cons_append, readLetters, if_pos rfl]
    exact readLetters_append rest _ cs rfl

/-- The letters of a word are found only where they stand. -/
theorem readLetters_some {rest : List Char} : ∀ (ws cs : List Char), readLetters ws cs = some rest →
    ∃ a, cs = a ++ rest ∧ a.map Char.toLower = ws
  | [], cs, h => by cases h; exact ⟨[], rfl, rfl⟩
  | _ :: _, [], h => by cases h
  | w :: ws, c :: cs, h => by
    rw [readLetters] at h
    split at h
    · rename_i hc
      obtain ⟨a, rfl, ha⟩ := readLetters_some ws cs h
      exact ⟨c :: a, rfl, by rw [List.map_cons, hc, ha]⟩
    · cases h

theorem readLetters_ne {w : String} {l c : Char} (hl : l ∈ w.toList.head?) (h : c.toLower ≠ l) (cs : List Char) :
    readLetters w.toList (c :: cs) = none := by
  obtain ⟨ls, hw⟩ := List.head?_eq_some_iff.1 hl
  rw [hw, readLetters, if_neg h]

theorem endsWord_iff {cs : List Char} : endsWord cs = true ↔ ∀ c ∈ cs.head?, isNameChar c = false := by
  cases cs <;> simp [endsWord]

theorem readWord_spelled {w : String} {cs rest : List Char} (h : SpellsWord w cs)
    (hr : ∀ c ∈ rest.head?, isNameChar c = false) : readWord w.toList (cs ++ rest) = some ((), rest) := by
  rw [readWord, readLetters_append rest _ cs h]
  simp [endsWord_iff.2 hr]

/-- A word starts with its own first letter only. -/
theorem readWord_ne {w : String} {l c : Char} (hl : l ∈ w.toList.head?) (h : c.toLower ≠ l) (cs : List Char) :
    readWord w.toList (c :: cs) = none := by
  rw [readWord, readLetters_ne hl h]

theorem readWords_cons {w v : String} {ws : List (List Char)} {a b rest : List Char} (h : SpellsWord w a)
    (hb : b ≠ []) (hs : ∀ c ∈ b, isSpace c = true) (hr : ∀ c ∈ rest.head?, isSpace c = false) :
    readWords (w.toList :: v.toList :: ws) (a ++ b ++ rest) = readWords (v.toList :: ws) rest := by
  rw [readWords, List.append_assoc, readLetters_append _ _ a h]
  · obtain ⟨c, b, rfl⟩ := List.exists_cons_of_ne_nil hb
    have hc := hs c List.mem_cons_self
    simp only [List.cons_append, hc, if_true]
    rw [← List.cons_append, dropWhile_append hs hr]
  · simp

theorem readWords_ne {w : String} {l c : Char} (hl : l ∈ w.toList.head?) (h : c.toLower ≠ l)
    (ws : List (List Char)) (cs : List Char) : readWords (w.toList :: ws) (c :: cs) = none := by
  cases ws with
  | nil => exact readWord_ne hl h cs
  | cons v ws => rw [readWords, readLetters_ne hl h]; simp

theorem readName_append {n : List Char} {rest : List Char} (hn : IsNameChars n)
    (hr : ∀ c ∈ rest.head?, isInName c = false) : readName (n ++ rest) = some (String.ofList n, rest) := by
  rcases n with _ | ⟨c, cs⟩
  · cases hn
  · obtain ⟨hc, hcs⟩ := hn
    rw [List.cons_append, readName, if_pos hc, takeWhile_append hcs hr, dropWhile_append hcs hr]

theorem readKey_append {k : String} {rest : List Char} (hk : IsKey k) :
    readKey (k.toList ++ ']' :: rest) = some (k, ']' :: rest) := by
  have ha : ∀ c ∈ k.toList, (c != ']') = true := by
    intro c hc; rw [bne_iff_ne]; rintro rfl; exact hk.2 hc
  have hr : ∀ c ∈ (']' :: rest).head?, (c != ']') = false := by simp
  unfold readKey
  rw [takeWhile_append ha hr, dropWhile_append ha hr]
  split
  · rename_i h; exact absurd h hk.1
  · rw [String.ofList_toList]

/-! ## Numbers -/

theorem readFraction_append {ds rest : List Char} (hd : ∀ c ∈ ds, Scan.isDigit c = true)
    (hr : ∀ c ∈ rest.head?, Scan.isDigit c = false ∧ c ≠ '.') :
    readFraction ((if ds.isEmpty then [] else '.' :: ds) ++ rest) = (ds, rest) := by
  rcases ds with _ | ⟨d, ds⟩
  · rw [List.isEmpty_nil, if_pos rfl, List.nil_append, readFraction]
    rintro cs rfl
    exact (hr '.' rfl).2 rfl
  · rw [List.isEmpty_cons, if_neg (by decide), List.cons_append, readFraction,
      takeWhile_append hd fun c hc => (hr c hc).1, dropWhile_append hd fun c hc => (hr c hc).1]

theorem readUnsigned_append {n : NumberText} {rest : List Char} (hn : IsNumber n)
    (hr : ∀ c ∈ rest.head?, Scan.isDigit c = false ∧ c ≠ '.') :
    readUnsigned n.negative (n.whole ++ (if n.fraction.isEmpty then [] else '.' :: n.fraction) ++ rest) =
      some (n, rest) := by
  have hstop : ∀ c ∈ ((if n.fraction.isEmpty then [] else '.' :: n.fraction) ++ rest).head?,
      Scan.isDigit c = false := by
    rcases n.fraction with _ | ⟨d, ds⟩
    · simpa using fun c hc => (hr c hc).1
    · simp [Scan.isDigit]
  unfold readUnsigned
  rw [List.append_assoc, takeWhile_append hn.whole hstop, dropWhile_append hn.whole hstop,
    readFraction_append hn.fraction hr]
  split
  · rename_i h; exact absurd h hn.some_digit
  · rfl

theorem readNumber_chars {n : NumberText} {rest : List Char} (hn : IsNumber n)
    (hr : ∀ c ∈ rest.head?, Scan.isDigit c = false ∧ c ≠ '.') : readNumber (n.chars ++ rest) = some (n, rest) := by
  have h := readUnsigned_append hn hr
  unfold NumberText.chars
  rcases hneg : n.negative with _ | _
  · rw [hneg] at h
    rw [if_neg (by decide), List.nil_append, readNumber, h]
    -- a digit comes first, so the text does not start with a minus
    obtain ⟨d, ds, hw⟩ := List.exists_cons_of_ne_nil hn.some_digit
    have hd := hn.whole d (by simp [hw])
    rintro cs hcs
    rw [hw, List.cons_append, List.cons_append] at hcs
    cases hcs
    exact absurd hd (by decide)
  · rw [hneg] at h
    rw [if_pos rfl, List.singleton_append, List.cons_append, List.cons_append, readNumber, h]

/-! ## Comparisons -/

theorem readComparison_append {op : BinaryOp} {s : String} {rest : List Char} (hs : s ∈ comparisonSigns op)
    (hr : ∀ c ∈ rest.head?, c ≠ '>' ∧ c ≠ '=') : readComparison (s.toList ++ rest) = some (op, rest) := by
  have hgt : ∀ cs, rest ≠ '>' :: cs := by rintro cs rfl; exact (hr '>' rfl).1 rfl
  have heq : ∀ cs, rest ≠ '=' :: cs := by rintro cs rfl; exact (hr '=' rfl).2 rfl
  cases op <;> simp only [comparisonSigns, List.mem_cons, List.not_mem_nil, or_false] at hs
  case lessThan =>
    subst hs
    show readComparison ('<' :: rest) = _
    rw [readComparison]
    · exact hgt
    · exact heq
  case greaterThan =>
    subst hs
    show readComparison ('>' :: rest) = _
    rw [readComparison]
    exact heq
  case notEqual => rcases hs with rfl | rfl <;> rfl
  all_goals subst hs; rfl

/-! ## First characters -/

theorem isLetter_iff {c : Char} : isLetter c = true ↔ ('a' ≤ c ∧ c ≤ 'z') ∨ ('A' ≤ c ∧ c ≤ 'Z') := by
  simp [isLetter]

theorem isLetter_of_toLower {c : Char} (h : isLetter c.toLower = true) : isLetter c = true := by
  unfold Char.toLower at h
  split at h
  · rename_i hc
    exact isLetter_iff.2 (.inr hc)
  · exact h

theorem isLetter_of_spells {v : String} {w : List Char} (h : SpellsWord v w) (hv : ∀ l ∈ v.toList, isLetter l = true) :
    ∀ c ∈ w, isLetter c = true := by
  intro c hc
  refine isLetter_of_toLower (hv _ ?_)
  rw [← h]
  exact List.mem_map_of_mem hc

theorem not_isDigit_of_isLetter {c : Char} (h : isLetter c = true) : Scan.isDigit c = false := by
  rw [isLetter_iff] at h
  simp only [Scan.isDigit, Bool.and_eq_false_iff, decide_eq_false_iff_not, Char.le_def, UInt32.le_iff_toNat_le] at *
  simp at *
  omega

theorem not_isSpace_of_isDigit {c : Char} (h : Scan.isDigit c = true) : isSpace c = false := by
  refine Bool.eq_false_iff.2 fun hs => ?_
  rcases isSpace_iff.1 hs with rfl | rfl | rfl | rfl <;> exact absurd h (by decide)

theorem not_isSpace_of_isLetter {c : Char} (h : isLetter c = true) : isSpace c = false := by
  refine Bool.eq_false_iff.2 fun hs => ?_
  rcases isSpace_iff.1 hs with rfl | rfl | rfl | rfl <;> exact absurd h (by decide)

theorem spellsWord_cons {v : String} {w : List Char} {l : Char} (h : SpellsWord v w) (hl : l ∈ v.toList.head?) :
    ∃ c cs, w = c :: cs ∧ c.toLower = l := by
  obtain ⟨ls, hv⟩ := List.head?_eq_some_iff.1 hl
  unfold SpellsWord at h
  rw [hv] at h
  obtain ⟨c, cs, rfl, hc, -⟩ := List.map_eq_cons_iff.1 h
  exact ⟨c, cs, rfl, hc⟩

theorem spellsWords_cons {v : String} {ws : List String} {w : List Char} {l : Char} (h : SpellsWords (v :: ws) w)
    (hl : l ∈ v.toList.head?) : ∃ c cs, w = c :: cs ∧ c.toLower = l := by
  cases ws with
  | nil => exact spellsWord_cons h hl
  | cons u ws =>
    obtain ⟨a, b, rest, rfl, ha, -⟩ := h
    obtain ⟨c, cs, rfl, hc⟩ := spellsWord_cons ha hl
    exact ⟨c, cs ++ b ++ rest, rfl, hc⟩

theorem keywords_head {v : String} (h : v ∈ keywords) : ∃ l, l ∈ v.toList.head? ∧ isLetter l = true := by
  have hall : ∀ v ∈ keywords, v.toList.head?.any isLetter = true := by decide
  exact (Option.any_eq_true _ _).1 (hall v h)

theorem operatorWords_head {op : DomainOp} {v : String} (h : v ∈ operatorWords op) :
    ∃ l, l ∈ v.toList.head? ∧ isLetter l = true := by
  have hall : ∀ v ∈ operatorWords op, v.toList.head?.any isLetter = true := by cases op <;> decide
  exact (Option.any_eq_true _ _).1 (hall v h)

namespace Token

/-- The characters that the text of a token may start with. -/
def Starts : Token → Char → Prop
  | word w, c => isLetter c = true ∧ c.toLower ∈ w.toList.head?
  | sign s, c => c ∈ signs ∧ c = s
  | comparison _, c => c = '=' ∨ c = '<' ∨ c = '>' ∨ c = '!'
  | operator op, c => isLetter c = true ∧ ∃ w ∈ (operatorWords op).head?, c.toLower ∈ w.toList.head?
  | name _, c => (isLetter c || c == '_') = true
  | key _, c => c = '['
  | number _, c => Scan.isDigit c = true ∨ c = '-'
  | string _, c => c = '\''
  | date _, c => isLetter c = true ∧ c.toLower = 'd'

theorem spelled_starts {t : Token} {w : List Char} (h : t.Spelled w) : ∃ c cs, w = c :: cs ∧ t.Starts c := by
  cases t with
  | word v =>
    obtain ⟨l, hl, hl'⟩ := keywords_head h.1
    obtain ⟨c, cs, rfl, rfl⟩ := spellsWord_cons h.2 hl
    exact ⟨c, cs, rfl, isLetter_of_toLower hl', hl⟩
  | sign s => exact ⟨s, [], h.2, h.1, rfl⟩
  | comparison op =>
    obtain ⟨s, hs, rfl⟩ := h
    have hall : ∀ s ∈ comparisonSigns op, s.toList.head?.any (· ∈ ['=', '<', '>', '!']) = true := by
      cases op <;> decide
    obtain ⟨c, hc, hc'⟩ := (Option.any_eq_true _ _).1 (hall s hs)
    obtain ⟨cs, hcs⟩ := List.head?_eq_some_iff.1 hc
    exact ⟨c, cs, hcs, by simpa [Starts] using hc'⟩
  | operator op =>
    obtain ⟨v, ws, hws⟩ : ∃ v ws, operatorWords op = v :: ws := by cases op <;> exact ⟨_, _, rfl⟩
    obtain ⟨l, hl, hl'⟩ := operatorWords_head (hws ▸ List.mem_cons_self)
    have h : SpellsWords (operatorWords op) w := h
    rw [hws] at h
    obtain ⟨c, cs, rfl, rfl⟩ := spellsWords_cons h hl
    exact ⟨c, cs, rfl, isLetter_of_toLower hl', v, by rw [hws]; rfl, hl⟩
  | name n =>
    obtain ⟨hn, rfl⟩ := h
    unfold IsName at hn
    rcases hcs : n.toList with _ | ⟨c, cs⟩
    · rw [hcs] at hn; cases hn
    · rw [hcs] at hn; exact ⟨c, cs, rfl, hn.1⟩
  | key k => exact ⟨'[', _, h.2, rfl⟩
  | number n =>
    obtain ⟨hn, rfl⟩ := h
    obtain ⟨d, ds, hw⟩ := List.exists_cons_of_ne_nil hn.some_digit
    unfold NumberText.chars
    rw [hw]
    cases n.negative with
    | false => exact ⟨d, _, rfl, .inl (hn.whole d (by simp [hw]))⟩
    | true => exact ⟨'-', _, rfl, .inr rfl⟩
  | string s => exact ⟨'\'', _, h, rfl⟩
  | date s =>
    obtain ⟨v, hv, rfl⟩ := h
    obtain ⟨c, cs, rfl, hc⟩ := spellsWord_cons (l := 'd') hv rfl
    exact ⟨c, _, rfl, isLetter_of_toLower (by rw [hc]; decide), hc⟩

end Token

/-! ## Tokens off a layout -/

theorem skipGap_cons {c : Char} (hs : isSpace c = false) (hc : c ≠ '-') (cs : List Char) :
    skipGap false (c :: cs) = c :: cs := by
  rw [skipGap, if_neg (by simp [hs])]
  rintro _ rfl
  exact absurd rfl hc

theorem skipGap_minus {d : Char} (hd : d ≠ '-') (cs : List Char) :
    skipGap false ('-' :: d :: cs) = '-' :: d :: cs := by
  rw [skipGap, if_neg (by decide)]
  rintro _ - h
  exact hd (List.cons.inj h).1

theorem Token.starts_not_space {t : Token} {c : Char} (h : t.Starts c) : isSpace c = false := by
  cases t with
  | word _ | operator _ | date _ => exact not_isSpace_of_isLetter h.1
  | sign s =>
    have hall : ∀ s ∈ signs, isSpace s = false := by decide
    exact hall c h.1
  | comparison _ => rcases h with rfl | rfl | rfl | rfl <;> decide
  | name _ =>
    rcases Bool.or_eq_true_iff.1 h with hl | hu
    · exact not_isSpace_of_isLetter hl
    · rw [beq_iff_eq] at hu; subst hu; decide
  | key _ | string _ => cases h; decide
  | number n =>
    rcases h with hd | rfl
    · exact not_isSpace_of_isDigit hd
    · decide

theorem Token.starts_ne_minus {t : Token} {c : Char} (h : t.Starts c) (ht : ∀ n, t ≠ number n) : c ≠ '-' := by
  rintro rfl
  cases t with
  | word _ | operator _ | date _ => exact absurd h.1 (by decide)
  | sign s => exact absurd h.1 (by decide)
  | comparison _ => exact absurd h (by simp [Starts])
  | name _ => exact absurd h (by simp [Starts, isLetter])
  | key _ | string _ => cases h
  | number n => exact ht n rfl

/-- No gap is passed over before the text of a token. -/
theorem Token.spelled_solid {t : Token} {w : List Char} (h : t.Spelled w) (cs : List Char) :
    skipGap false (w ++ cs) = w ++ cs := by
  obtain ⟨c, w, rfl, hc⟩ := spelled_starts h
  by_cases ht : ∃ n, t = number n
  · -- a minus is followed by a digit, so it starts no comment
    obtain ⟨n, rfl⟩ := ht
    obtain ⟨hn, hw⟩ := h
    obtain ⟨d, ds, hds⟩ := List.exists_cons_of_ne_nil hn.some_digit
    have hd : d ≠ '-' := by
      rintro rfl; exact absurd (hn.whole '-' (by simp [hds])) (by decide)
    rw [hw, NumberText.chars, hds]
    cases n.negative with
    | false => exact skipGap_cons (not_isSpace_of_isDigit (hn.whole d (by simp [hds]))) hd _
    | true => exact skipGap_minus hd _
  · exact skipGap_cons (starts_not_space hc) (starts_ne_minus hc fun n h => ht ⟨n, h⟩) _

namespace Laid

/-- What is left of a layout once its first token is reached. -/
theorem uncons {t : Token} {ts : List Token} {cs rest : List Char} (h : Laid (t :: ts) cs rest) :
    ∃ w mid, skipGap false cs = w ++ mid ∧ t.Spelled w ∧ t.Apart mid ∧ Laid ts mid rest ∧
      mid.length < cs.length := by
  cases h with
  | @cons _ _ g w mid _ hg hw ha h =>
    refine ⟨w, mid, ?_, hw, ha, h, ?_⟩
    · rw [List.append_assoc, skipGap_gap hg, Token.spelled_solid hw]
    · obtain ⟨c, w, rfl, -⟩ := Token.spelled_starts hw
      simp only [List.length_append, List.length_cons]
      omega

/-- The first character of a layout belongs to a gap or to the first token. -/
theorem head {t : Token} {ts : List Token} {cs rest : List Char} (h : Laid (t :: ts) cs rest) {c : Char}
    (hc : c ∈ cs.head?) : isSpace c = true ∨ c = '-' ∨ t.Starts c := by
  cases h with
  | cons hg hw ha h =>
    obtain ⟨d, w, rfl, hd⟩ := Token.spelled_starts hw
    rw [List.append_assoc] at hc
    rcases gap_head hg hc with hs | hm | hc
    · exact .inl hs
    · exact .inr (.inl hm)
    · cases hc; exact .inr (.inr hd)

/-- After the blanks at its front a layout goes on with a comment or with the first token. -/
theorem head_dropWhile {t : Token} {ts : List Token} {cs rest : List Char} (h : Laid (t :: ts) cs rest) {c : Char}
    (hc : c ∈ (cs.dropWhile isSpace).head?) : c = '-' ∨ t.Starts c := by
  cases h with
  | cons hg hw ha h =>
    obtain ⟨d, w, rfl, hd⟩ := Token.spelled_starts hw
    rw [List.append_assoc] at hc
    rcases gap_dropWhile hg (by rintro _ ⟨⟩; exact Token.starts_not_space hd) hc with hm | hc
    · exact .inl hm
    · cases hc; exact .inr hd

/-- There are no more tokens than characters. -/
theorem length_le {ts : List Token} {cs rest : List Char} (h : Laid ts cs rest) :
    ts.length + rest.length ≤ cs.length := by
  induction h with
  | nil => simp
  | cons hg hw ha h ih =>
    obtain ⟨c, w, rfl, -⟩ := Token.spelled_starts hw
    simp only [List.length_append, List.length_cons] at *
    omega

theorem length_le_skipGap {ts : List Token} {cs rest : List Char} (h : Laid ts cs rest) :
    ts.length ≤ (skipGap false cs).length := by
  cases ts with
  | nil => simp
  | cons t ts =>
    obtain ⟨w, mid, hskip, hw, -, h, -⟩ := h.uncons
    obtain ⟨c, w, rfl, -⟩ := Token.spelled_starts hw
    have := h.length_le
    rw [hskip]
    simp only [List.length_append, List.length_cons]
    omega

end Laid

end WorkItemQuery.Pipeline
