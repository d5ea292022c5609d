/-
Lists with commas, values, and tests of an operand against a value are read off their layout.
-/
import WorkItemQuery.Proofs.Pipeline.Relation

namespace WorkItemQuery.Pipeline

open Rule WorkItemQuery.Text

/-! ## Lists with commas -/

/-- The tokens of a list with commas between its items. -/
def listed {α : Type} (tokens : α → List Token) : List α → List Token
  | [] => []
  | a :: more => tokens a ++ more.flatMap fun b => .sign ',' :: tokens b

/-- The ways to write items with `sep` before each of them, given the ways to write an item. -/
inductive Preceded {α : Type} (sep : Token) (W : α → List Token → Prop) : List α → List Token → Prop
  | nil : Preceded sep W [] []
  | cons {a : α} {as : List α} {ts us : List Token} : W a ts → Preceded sep W as us →
      Preceded sep W (a :: as) (sep :: (ts ++ us))

theorem Preceded.append {α : Type} {sep : Token} {W : α → List Token → Prop} {as bs : List α} {ts us : List Token}
    (h : Preceded sep W as ts) (h' : Preceded sep W bs us) : Preceded sep W (as ++ bs) (ts ++ us) := by
  induction h with
  | nil => exact h'
  | cons ha _ ih =>
    rw [List.cons_append, List.cons_append, List.append_assoc]
    exact .cons ha ih

/-- The ways to write a list with commas between its items, at least one. -/
inductive Commas {α : Type} (W : α → List Token → Prop) : List α → List Token → Prop
  | cons {a : α} {as : List α} {ts us : List Token} : W a ts → Preceded (.sign ',') W as us →
      Commas W (a :: as) (ts ++ us)

theorem Commas.exists_cons {α : Type} {W : α → List Token → Prop} {as : List α} {ts : List Token}
    (h : Commas W as ts) : ∃ b bs, as = b :: bs := by
  cases h with
  | cons _ _ => exact ⟨_, _, rfl⟩

theorem preceded_iff {α : Type} {sep : Token} {tokens : α → List Token} : ∀ {as : List α} {ts : List Token},
    Preceded sep (fun a ts => ts = tokens a) as ts ↔ ts = as.flatMap fun a => sep :: tokens a
  | [], ts => by
    constructor
    · rintro ⟨⟩; rfl
    · rintro rfl; exact .nil
  | a :: as, ts => by
    constructor
    · intro h
      cases h with
      | cons ha h => rw [ha, preceded_iff.1 h]; rfl
    · rintro rfl; exact .cons rfl (preceded_iff.2 rfl)

theorem commas_iff {α : Type} {tokens : α → List Token} {as : List α} {ts : List Token} :
    Commas (fun a ts => ts = tokens a) as ts ↔ as ≠ [] ∧ ts = listed tokens as := by
  constructor
  · intro h
    cases h with
    | cons ha h => rw [ha, preceded_iff.1 h]; exact ⟨List.cons_ne_nil _ _, rfl⟩
  · rintro ⟨hne, rfl⟩
    obtain ⟨a, as, rfl⟩ := List.exists_cons_of_ne_nil hne
    exact .cons rfl (preceded_iff.2 rfl)

/-- A rule reads an item off its tokens, if the text behind them ends the item. -/
def ReadsItem {α : Type} (item : Rule α) (W : α → List Token → Prop) (Ends : List Char → Prop) : Prop :=
  ∀ {a : α} {ts : List Token} {cs rest : List Char}, W a ts → Laid ts cs rest → Ends rest →
    (item (skipGap false cs)).result = some (a, rest)

theorem result_separated {α : Type} {separator : Rule Unit} {item : Rule α} {a : α} {as : List α}
    {cs mid rest : List Char} (hfirst : (item cs).result = some (a, mid))
    (hmore : (many (do gap; separator; gap; item) mid).result = some (as, rest)) :
    (separated separator item cs).result = some ((a, as), rest) := by
  unfold separated
  rw [result_bind, hfirst]
  refine (result_bind (many _) _ mid).trans ?_
  rw [hmore]
  rfl

section Commas

variable {α : Type} {item : Rule α} {W : α → List Token → Prop} {Ends : List Char → Prop} {rest : List Char}

theorem ends_more (hcomma : ∀ {ts cs}, Laid (.sign ',' :: ts) cs rest → Ends cs) (hr : Ends rest) {as : List α}
    {ts : List Token} {cs : List Char} (hw : Preceded (.sign ',') W as ts) (h : Laid ts cs rest) : Ends cs := by
  cases hw with
  | nil => cases h; exact hr
  | cons _ _ => exact hcomma h

theorem result_more (hcomma : ∀ {ts cs}, Laid (.sign ',' :: ts) cs rest → Ends cs) (hr : Ends rest)
    (hstop : ∀ mid, skipGap false rest ≠ ',' :: mid) (hitem : ReadsItem item W Ends) {as : List α} {ts : List Token}
    (hw : Preceded (.sign ',') W as ts) : ∀ {cs : List Char}, Laid ts cs rest →
      (many (do gap; symbol ','; gap; item) cs).result = some (as, rest) := by
  induction hw with
  | nil =>
    intro cs h
    cases h
    refine result_many_none ?_
    simp only [result_bind, result_gap, result_symbol, Option.bind_some]
    rcases hskip : skipGap false rest with _ | ⟨c, cs⟩
    · rfl
    · have hc : c ≠ ',' := by rintro rfl; exact hstop cs hskip
      simp [hc]
  | @cons a as ts us ha hmore ih =>
    intro cs h
    obtain ⟨mid, hskip, h, hlt⟩ := symbol_laid h
    obtain ⟨last, hfirst, h⟩ := h.of_append
    have hread : ((do gap; symbol ','; gap; item : Rule α) cs).result = some (a, last) := by
      simp [hskip, hitem ha hfirst (ends_more hcomma hr hmore h)]
    have hle := hfirst.length_le
    rw [result_many_some hread (by omega), ih h]
    rfl

theorem result_commaList (hcomma : ∀ {ts cs}, Laid (.sign ',' :: ts) cs rest → Ends cs) (hr : Ends rest)
    (hstop : ∀ mid, skipGap false rest ≠ ',' :: mid) (hitem : ReadsItem item W Ends) {as : List α} {ts : List Token}
    {cs : List Char} (hw : Commas W as ts) (h : Laid ts cs rest) :
    (commaList item (skipGap false cs)).result = some (as, rest) := by
  cases hw with
  | cons ha hmore =>
    obtain ⟨mid, hfirst, h⟩ := h.of_append
    have hread := hitem ha hfirst (ends_more hcomma hr hmore h)
    unfold commaList
    rw [result_bind, result_separated hread (result_more hcomma hr hstop hitem hmore h)]
    rfl

end Commas

/-! ## Values -/

namespace Scalar

def token : Scalar → Token
  | string s => .string s
  | number n => .number n

end Scalar

namespace Literal

def tokens : Literal → List Token
  | list items => .sign '(' :: listed (fun x : Scalar => [x.token]) items ++ [.sign ')']
  | timestamp s => [.date s]
  | string s => [.string s]
  | number n => [.number n]
  | null => [.word "null"]

end Literal

theorem readQuoted_none {c : Char} (h : c ≠ '\'') (cs : List Char) : readQuoted (c :: cs) = none := by
  unfold readQuoted
  split
  · rename_i heq; cases heq; exact absurd rfl h
  · rfl

theorem readNumber_none {c : Char} (hd : Scan.isDigit c = false) (hm : c ≠ '-') (cs : List Char) :
    readNumber (c :: cs) = none := by
  unfold readNumber
  split
  · rename_i heq; cases heq; exact absurd rfl hm
  · unfold readUnsigned
    rw [List.takeWhile_cons_of_neg (by simp [hd])]

theorem number_head {n : NumberText} (hn : IsNumber n) :
    ∃ c cs, n.chars = c :: cs ∧ (Scan.isDigit c = true ∨ c = '-') :=
  Token.spelled_starts (t := .number n) ⟨hn, rfl⟩

theorem result_scalar : ReadsItem scalar (fun (x : Scalar) ts => ts = [x.token]) EndsValue := by
  intro x ts cs rest hts h hr
  subst hts
  obtain ⟨w, mid, hskip, hw, -, h, -⟩ := h.uncons
  cases h
  rw [hskip]
  unfold scalar
  cases x with
  | string s =>
    cases hw
    simp [readQuoted_quoteChars fun c hc => (hr c hc).2]
  | number n =>
    obtain ⟨hn, rfl⟩ := hw
    have hread := readNumber_chars hn fun c hc => (hr c hc).1
    obtain ⟨c, cs, hcs, hc⟩ := number_head hn
    have hq : c ≠ '\'' := by
      rcases hc with hd | rfl
      · rintro rfl; exact absurd hd (by decide)
      · decide
    rw [hcs, List.cons_append] at hread ⊢
    simp [readQuoted_none hq, hread]

theorem result_scalar_none {c : Char} (hq : c ≠ '\'') (hd : Scan.isDigit c = false) (hm : c ≠ '-') (cs : List Char) :
    (scalar (c :: cs)).result = none := by
  unfold scalar
  simp [readQuoted_none hq, readNumber_none hd hm]

/-- A list in parentheses, the empty one among them. -/
theorem result_list {items : List Scalar} {cs rest : List Char} (h : Laid (Literal.list items).tokens cs rest) :
    (list (skipGap false cs)).result = some (items, rest) := by
  obtain ⟨mid, hopen, h, -⟩ := symbol_laid h
  obtain ⟨last, hitems, h⟩ := h.of_append
  have hlast := endsValue_sign h
  obtain ⟨stop, hclose, h, -⟩ := symbol_laid h
  cases h
  unfold list
  rw [hopen]
  cases items with
  | nil =>
    cases hitems
    have hnone : (commaList scalar (')' :: rest)).result = none := by
      unfold commaList separated
      rw [result_bind, result_bind, result_scalar_none (by decide) (by decide) (by decide)]
      rfl
    simp [hclose, hnone]
  | cons x items =>
    have hstop : ∀ mid, skipGap false last ≠ ',' :: mid := by rw [hclose]; simp
    have hread := result_commaList endsValue_sign hlast hstop result_scalar
      (commas_iff.2 ⟨List.cons_ne_nil x items, rfl⟩) hitems
    simp [hread, hclose]

theorem result_list_none {c : Char} (h : c ≠ '(') (cs : List Char) : (list (c :: cs)).result = none := by
  unfold list
  simp [h]

theorem result_timestamp_none {c : Char} (h : c.toLower ≠ 'd') (cs : List Char) :
    (timestamp (c :: cs)).result = none := by
  unfold timestamp
  rw [result_named, result_bind, result_ofScan, readLetters_ne (l := 'd') rfl h]
  rfl

theorem result_timestamp {w rest : List Char} {s : String} (hw : SpellsWord "date" w) (hr : EndsValue rest) :
    (timestamp (w ++ (quoteChars s.toList ++ rest))).result = some (s, rest) := by
  unfold timestamp
  rw [result_named, result_bind, result_ofScan, readLetters_append _ _ w hw]
  simp [readQuoted_quoteChars fun c hc => (hr c hc).2]

theorem toLower_of_isDigit {c : Char} (h : Scan.isDigit c = true) {l : Char} (hl : isLetter l = true) :
    c.toLower ≠ l := by
  rintro rfl
  rw [not_isDigit_of_isLetter (isLetter_of_toLower hl)] at h
  cases h

theorem result_value_eq (cs : List Char) :
    (value cs).result =
      ((list cs).result.map (fun r => (.list r.1, r.2)) <|>
        (timestamp cs).result.map (fun r => (.timestamp r.1, r.2)) <|>
        (readQuoted cs).map (fun r => (.string r.1, r.2)) <|>
        (readNumber cs).map (fun r => (.number r.1, r.2)) <|>
        (readWord "null".toList cs).map fun r => (.null, r.2)) := by
  unfold value
  simp only [result_named, result_orElse, result_map, result_string, result_number, result_bind, result_keyword,
    result_pure, Option.map_eq_bind]
  rfl

theorem result_value {v : Literal} {cs rest : List Char} (h : Laid v.tokens cs rest) (hr : EndsValue rest) :
    (value (skipGap false cs)).result = some (v, rest) := by
  rw [result_value_eq]
  -- the alternatives before the right one fail on its first character
  cases v with
  | list items => rw [result_list h]; rfl
  | timestamp s =>
    obtain ⟨w, mid, hskip, ⟨v, hv, rfl⟩, -, h, -⟩ := h.uncons
    cases h
    have hread := result_timestamp (s := s) hv hr
    obtain ⟨c, cs, rfl, hc⟩ := spellsWord_cons (l := 'd') hv rfl
    have hp : c ≠ '(' := by rintro rfl; exact absurd hc (by decide)
    rw [List.cons_append] at hread
    rw [hskip, List.append_assoc, List.cons_append, result_list_none hp, hread]
    rfl
  | string s =>
    obtain ⟨w, mid, hskip, rfl, -, h, -⟩ := h.uncons
    cases h
    have hread := readQuoted_quoteChars (s := s) fun c hc => (hr c hc).2
    rw [quoteChars, List.cons_append, List.cons_append] at hread hskip
    rw [hskip, result_list_none (by decide), result_timestamp_none (by decide), hread]
    rfl
  | number n =>
    obtain ⟨w, mid, hskip, ⟨hn, rfl⟩, -, h, -⟩ := h.uncons
    cases h
    have hread := readNumber_chars hn fun c hc => (hr c hc).1
    obtain ⟨c, cs, hcs, hc⟩ := number_head hn
    obtain ⟨hp, hl, hq⟩ : c ≠ '(' ∧ c.toLower ≠ 'd' ∧ c ≠ '\'' := by
      rcases hc with hd | rfl
      · exact ⟨by rintro rfl; exact absurd hd (by decide), toLower_of_isDigit hd (by decide),
          by rintro rfl; exact absurd hd (by decide)⟩
      · decide
    rw [hcs, List.cons_append] at hread hskip
    rw [hskip, result_list_none hp, result_timestamp_none hl, readQuoted_none hq, hread]
    rfl
  | null =>
    obtain ⟨w, mid, hskip, ⟨-, hw⟩, ha, h, -⟩ := h.uncons
    cases h
    have hread := readWord_spelled hw ha
    obtain ⟨c, cs, rfl, hc⟩ := spellsWord_cons (l := 'n') hw rfl
    have hl : isLetter c = true := isLetter_of_toLower (by rw [hc]; decide)
    have hp : c ≠ '(' := by rintro rfl; exact absurd hl (by decide)
    have hq : c ≠ '\'' := by rintro rfl; exact absurd hl (by decide)
    have hm : c ≠ '-' := by rintro rfl; exact absurd hl (by decide)
    rw [List.cons_append] at hread hskip
    rw [hskip, result_list_none hp, result_timestamp_none (by rw [hc]; decide), readQuoted_none hq,
      readNumber_none (not_isDigit_of_isLetter hl) hm, hread]
    rfl

/-! ## Tests -/

/-- The characters that a value may start with. -/
def StartsValue (c : Char) : Prop :=
  c = '(' ∨ c = '\'' ∨ Scan.isDigit c = true ∨ c = '-' ∨ isLetter c = true ∧ (c.toLower = 'd' ∨ c.toLower = 'n')

theorem tokens_starts (v : Literal) : ∃ t ts, v.tokens = t :: ts ∧ ∀ c, t.Starts c → StartsValue c := by
  cases v with
  | list items => exact ⟨_, _, rfl, fun c h => .inl h.2⟩
  | timestamp s => exact ⟨_, _, rfl, fun c h => .inr (.inr (.inr (.inr ⟨h.1, .inl h.2⟩)))⟩
  | string s => exact ⟨_, _, rfl, fun c h => .inr (.inl h)⟩
  | number n =>
    refine ⟨_, _, rfl, fun c h => ?_⟩
    rcases h with hd | hm
    · exact .inr (.inr (.inl hd))
    · exact .inr (.inr (.inr (.inl hm)))
  | null => exact ⟨_, _, rfl, fun c h => .inr (.inr (.inr (.inr ⟨h.1, .inr (Option.some.inj h.2).symm⟩)))⟩

/-- Neither a sign of comparison nor a point starts a value, nor does a word of an operator save `not`. -/
theorem startsValue_ne {c : Char} (h : StartsValue c) :
    c ∉ ['=', '<', '>', '!', '.'] ∧ ∀ l ∈ ['i', 'u', 'e', 'c', 'g'], c.toLower ≠ l := by
  rcases h with rfl | rfl | hd | rfl | ⟨hl, hc⟩
  · decide
  · decide
  · constructor
    · intro hc
      have hall : ∀ c ∈ ['=', '<', '>', '!', '.'], Scan.isDigit c = false := by decide
      rw [hall c hc] at hd; cases hd
    · intro l hl
      have hall : ∀ l ∈ ['i', 'u', 'e', 'c', 'g'], isLetter l = true := by decide
      exact toLower_of_isDigit hd (hall l hl)
  · decide
  · constructor
    · intro hc
      have hall : ∀ c ∈ ['=', '<', '>', '!', '.'], isLetter c = false := by decide
      rw [hall c hc] at hl; cases hl
    · rcases hc with hc | hc <;> rw [hc] <;> decide

section Values

variable {v : Literal} {cs rest : List Char}

theorem head_value (h : Laid v.tokens cs rest) {c : Char} (hc : c ∈ cs.head?) :
    isSpace c = true ∨ StartsValue c := by
  obtain ⟨t, ts, hv, ht⟩ := tokens_starts v
  rw [hv] at h
  rcases h.head hc with hs | rfl | hc
  · exact .inl hs
  · exact .inr (.inr (.inr (.inr (.inl rfl))))
  · exact .inr (ht c hc)

theorem dropWhile_value (h : Laid v.tokens cs rest) {c : Char} (hc : c ∈ (cs.dropWhile isSpace).head?) :
    StartsValue c := by
  obtain ⟨t, ts, hv, ht⟩ := tokens_starts v
  rw [hv] at h
  rcases h.head_dropWhile hc with rfl | hc
  · exact .inr (.inr (.inr (.inl rfl)))
  · exact ht c hc

/-- The word `null` is not the word `not`. -/
theorem readWords_null {w : List Char} (h : SpellsWord "null" w) (cs : List Char) :
    readWords ["not".toList, "in".toList, "group".toList] (w ++ cs) = none := by
  have h : w.map Char.toLower = ['n', 'u', 'l', 'l'] := h
  obtain ⟨c, w, rfl, hc, h⟩ := List.map_eq_cons_iff.1 h
  obtain ⟨d, w, rfl, hd, -⟩ := List.map_eq_cons_iff.1 h
  have hletters : readLetters "not".toList (c :: d :: w ++ cs) = none := by
    show readLetters ['n', 'o', 't'] (c :: d :: (w ++ cs)) = none
    rw [readLetters, if_pos hc, readLetters, if_neg (by rw [hd]; decide)]
  rw [readWords, hletters]
  simp

/-- A value is no relation. -/
theorem result_relation_value (h : Laid v.tokens cs rest) : (relation (skipGap false cs)).result = none := by
  obtain ⟨t, ts, hv, ht⟩ := tokens_starts v
  rw [hv] at h
  obtain ⟨w, mid, hskip, hw, -⟩ := h.uncons
  -- of all values only `null` starts with the letter of `not`
  have hnot : readWords ["not".toList, "in".toList, "group".toList] (w ++ mid) = none := by
    obtain ⟨c, w', rfl, hc⟩ := Token.spelled_starts hw
    cases v with
    | list items => cases hv; cases hc.2; exact readWords_ne (l := 'n') rfl (by decide) _ _
    | timestamp s => cases hv; exact readWords_ne (l := 'n') rfl (by rw [hc.2]; decide) _ _
    | string s => cases hv; cases hc; exact readWords_ne (l := 'n') rfl (by decide) _ _
    | number n =>
      cases hv
      rcases hc with hd | rfl
      · exact readWords_ne (l := 'n') rfl (toLower_of_isDigit hd (by decide)) _ _
      · exact readWords_ne (l := 'n') rfl (by decide) _ _
    | null => cases hv; exact readWords_null hw.2 mid
  obtain ⟨c, w, rfl, hc⟩ := Token.spelled_starts hw
  obtain ⟨hs, hl⟩ := startsValue_ne (ht c hc)
  rw [hskip]
  exact result_relation_none hnot (fun l h => hl l (List.mem_append_left ['g'] h))
    fun h => hs (List.mem_append_left ['.'] h)

theorem result_relation {r : Relation} {w : List Char} (hw : r.token.Spelled w) (ha : r.token.Apart cs)
    (h : Laid v.tokens cs rest) : (relation (w ++ cs)).result = some (r, cs) := by
  cases r with
  | compare op =>
    refine result_comparison hw fun c hc => ?_
    rcases head_value h hc with hs | hc
    · rcases isSpace_iff.1 hs with rfl | rfl | rfl | rfl <;> decide
    · have := (startsValue_ne hc).1
      simp only [List.mem_cons, not_or] at this
      exact ⟨this.2.2.1, this.1⟩
  | domain op => exact result_operator hw ha fun _ c hc => (startsValue_ne (dropWhile_value h hc)).2 'g' (by simp)

theorem result_predicate {o : Operand} {r : Relation} (h : Laid (o.token :: r.token :: v.tokens) cs rest)
    (hr : EndsValue rest) : (predicate (skipGap false cs)).result = some (.test o r v, rest) := by
  obtain ⟨w, mid, hskip, hw, ha, h, -⟩ := h.uncons
  obtain ⟨u, last, hskip', hu, hb, h, -⟩ := h.uncons
  unfold predicate
  rw [hskip]
  simp [result_operand hw ha, hskip', result_relation hu hb h, result_value h hr]

end Values

end WorkItemQuery.Pipeline
