/-
The texts that are pipelines are the layouts of pipelines and no others: what a rule reads off a text is
laid out there, gap by gap and token by token, in one of the ways to write it. Together with the reading
of layouts this makes `Layout` and the grammar two descriptions of one language.
-/
import WorkItemQuery.Proofs.Pipeline.Program

namespace WorkItemQuery.Text

theorem readQuotedInside_some {cs s rest : List Char} (h : readQuotedInside cs = some (s, rest)) :
    cs = double s ++ '\'' :: rest := by
  fun_induction readQuotedInside cs generalizing s with
  | case1 => cases h
  | case2 cs ih =>
    obtain ⟨⟨t, last⟩, ht, heq⟩ := Option.map_eq_some_iff.1 h
    cases heq
    rw [ih ht, double, if_pos rfl]
    rfl
  | case3 cs _ => cases h; rfl
  | case4 c cs _ hc ih =>
    obtain ⟨⟨t, last⟩, ht, heq⟩ := Option.map_eq_some_iff.1 h
    cases heq
    rw [ih ht, double, if_neg hc]
    rfl

theorem readQuoted_some {cs rest : List Char} {s : String} (h : readQuoted cs = some (s, rest)) :
    cs = quoteChars s.toList ++ rest := by
  unfold readQuoted at h
  split at h
  · obtain ⟨⟨t, last⟩, ht, heq⟩ := Option.map_eq_some_iff.1 h
    cases heq
    rw [readQuotedInside_some ht, quoteChars, String.toList_ofList]
    simp
  · cases h

end WorkItemQuery.Text

namespace WorkItemQuery.Pipeline

open Rule WorkItemQuery.Text

/-! ## Gaps -/

/-- What is passed over before a text that is left is a gap, and what is passed over up to the end is a last gap. -/
theorem skipGap_split (cs : List Char) :
    (∃ g, Gap g ∧ cs = g ++ skipGap false cs) ∨ LastGap cs ∧ skipGap false cs = [] := by
  rcases cs with _ | ⟨c, cs⟩
  · exact .inl ⟨[], .nil, rfl⟩
  by_cases hc : isSpace c = true
  · rw [skipGap_blank hc]
    rcases skipGap_split cs with ⟨g, hg, hcs⟩ | ⟨hlast, hcs⟩
    · exact .inl ⟨c :: g, .blank hc hg, by rw [List.cons_append, ← hcs]⟩
    · refine .inr ⟨?_, hcs⟩
      cases hlast with
      | gap hg => exact .gap (.blank hc hg)
      | comment hg ht => exact .comment (.blank hc hg) ht
  · by_cases hcomment : ∃ rest, c = '-' ∧ cs = '-' :: rest
    · obtain ⟨rest, rfl, rfl⟩ := hcomment
      by_cases hline : '\n' ∈ rest
      · obtain ⟨t, u, rfl, ht⟩ := List.eq_append_cons_of_mem hline
        rw [skipGap, skipGap_comment u t ht]
        rcases skipGap_split u with ⟨g, hg, hu⟩ | ⟨hlast, hu⟩
        · refine .inl ⟨_, .comment ht hg, ?_⟩
          rw [List.cons_append, List.cons_append, List.append_assoc, List.cons_append, ← hu]
        · refine .inr ⟨?_, hu⟩
          cases hlast with
          | gap hg => exact .gap (.comment ht hg)
          | comment hg hv => simpa using LastGap.comment (.comment ht hg) hv
      · rw [skipGap]
        exact .inr ⟨.comment .nil hline, skipGap_last_comment rest hline⟩
    · refine .inl ⟨[], .nil, ?_⟩
      rw [skipGap, if_neg hc]
      · rfl
      · rintro rest rfl rfl; exact hcomment ⟨rest, rfl, rfl⟩
termination_by cs.length
decreasing_by all_goals simp_all; try omega

theorem skipGap_skipGap (cs : List Char) : skipGap false (skipGap false cs) = skipGap false cs := by
  rcases skipGap_split cs with ⟨g, hg, hcs⟩ | ⟨-, hnil⟩
  · have h := skipGap_gap hg (skipGap false cs)
    rwa [← hcs, eq_comm] at h
  · rw [hnil]; rfl

theorem lastGap_of_skipGap {cs : List Char} (h : skipGap false cs = []) : LastGap cs := by
  rcases skipGap_split cs with ⟨g, hg, hcs⟩ | ⟨hlast, -⟩
  · rw [hcs, h, List.append_nil]; exact .gap hg
  · exact hlast

/-- Tokens behind a gap are laid out from the gap on. -/
theorem Laid.of_skipGap {t : Token} {ts : List Token} {cs rest : List Char}
    (h : Laid (t :: ts) (skipGap false cs) rest) : Laid (t :: ts) cs rest := by
  rcases skipGap_split cs with ⟨g, hg, hcs⟩ | ⟨-, hnil⟩
  · rw [hcs]; exact h.gap_append hg
  · rw [hnil] at h
    have := h.length_le
    simp at this

theorem Token.Spelled.laid {t : Token} {w rest : List Char} (hw : t.Spelled w) (ha : t.Apart rest) :
    Laid [t] (w ++ rest) rest :=
  .cons (g := []) .nil hw ha .nil

/-! ## What a rule takes -/

/-- On a text of at most so many characters, what a rule reads is laid out there in one of the given ways. -/
def Takes {α : Type} (rule : Rule α) (W : α → List Token → Prop) (n : Nat) : Prop :=
  ∀ ⦃cs : List Char⦄ ⦃a : α⦄ ⦃rest : List Char⦄, cs.length ≤ n → (rule cs).result = some (a, rest) →
    ∃ t ts, W a (t :: ts) ∧ Laid (t :: ts) cs rest

/-- What a rule that stands for one token takes. -/
def TakesToken (rule : Rule Unit) (t : Token) : Prop :=
  ∀ ⦃cs rest : List Char⦄, (rule cs).result = some ((), rest) → Laid [t] cs rest

section Lists

variable {α : Type} {rule item : Rule α} {W V : α → List Token → Prop} {separator : Rule Unit} {sep : Token} {n : Nat}

theorem length_skipGap_le (cs : List Char) : (skipGap false cs).length ≤ cs.length := by
  rcases skipGap_split cs with ⟨g, -, hcs⟩ | ⟨-, hnil⟩
  · have := congrArg List.length hcs
    rw [List.length_append] at this
    omega
  · simp [hnil]

/-- What is read after a gap. -/
theorem Takes.gap (h : Takes item W n) {cs rest : List Char} {a : α} (hn : cs.length ≤ n)
    (hread : (item (skipGap false cs)).result = some (a, rest)) : ∃ t ts, W a (t :: ts) ∧ Laid (t :: ts) cs rest := by
  obtain ⟨t, ts, hw, hlaid⟩ := h (Nat.le_trans (length_skipGap_le cs) hn) hread
  exact ⟨t, ts, hw, hlaid.of_skipGap⟩

theorem TakesToken.gap {t : Token} (h : TakesToken separator t) {cs rest : List Char}
    (hread : (separator (skipGap false cs)).result = some ((), rest)) : Laid [t] cs rest := (h hread).of_skipGap

/-- What is read by repetition is laid out item by item. -/
theorem takes_many (h : ∀ {cs rest : List Char} {a : α}, cs.length ≤ n → (rule cs).result = some (a, rest) →
    ∃ ts, W a ts ∧ Laid (sep :: ts) cs rest) : ∀ (cs rest : List Char) (as : List α), cs.length ≤ n →
      (many rule cs).result = some (as, rest) → ∃ ts, Preceded sep W as ts ∧ Laid ts cs rest := by
  intro cs
  fun_induction many rule cs with
  | case1 cs miss hread =>
    intro rest as _ has
    cases has
    exact ⟨[], .nil, .nil⟩
  | case2 cs miss a mid hread hlt reply ih =>
    intro rest as hn has
    obtain ⟨⟨more, last⟩, hmore, has⟩ := Option.map_eq_some_iff.1 has
    cases has
    obtain ⟨ts, hw, hlaid⟩ := h hn (show (rule cs).result = some (a, mid) by rw [hread])
    obtain ⟨us, hmore, hlast⟩ := ih _ _ (by omega) hmore
    exact ⟨_, .cons hw hmore, hlaid.append hlast⟩
  | case3 cs miss a mid hread hlt =>
    intro rest as hn has
    cases has
    obtain ⟨ts, hw, hlaid⟩ := h hn (show (rule cs).result = some (a, mid) by rw [hread])
    exact ⟨_, .cons hw .nil, by rwa [List.append_nil]⟩

theorem takes_more (hsep : TakesToken separator sep) (hitem : Takes item W n) {cs rest : List Char} {as : List α}
    (hn : cs.length ≤ n) (h : (many (do gap; separator; gap; item) cs).result = some (as, rest)) :
    ∃ ts, Preceded sep W as ts ∧ Laid ts cs rest := by
  refine takes_many (fun {cs rest a} hn h => ?_) cs rest as hn h
  obtain ⟨⟨⟩, _, ⟨⟩, h⟩ := bind_eq_some.1 h
  obtain ⟨⟨⟩, mid, hs, h⟩ := bind_eq_some.1 h
  obtain ⟨⟨⟩, _, ⟨⟩, h⟩ := bind_eq_some.1 h
  have hlaid := hsep.gap hs
  have hle := hlaid.length_le
  obtain ⟨t, ts, hw, hlast⟩ := hitem.gap (by omega) h
  exact ⟨t :: ts, hw, hlaid.append hlast⟩

theorem takes_separated (hsep : TakesToken separator sep) (hitem : Takes item W n) :
    Takes (separated separator item)
      (fun r ts => ∃ us vs, ts = us ++ vs ∧ W r.1 us ∧ Preceded sep W r.2 vs) n := by
  intro cs r rest hn h
  obtain ⟨a, mid, ha, h⟩ := bind_eq_some.1 h
  obtain ⟨as, last, has, ⟨⟩⟩ := bind_eq_some.1 h
  obtain ⟨t, ts, hw, hlaid⟩ := hitem hn ha
  have hle := hlaid.length_le
  obtain ⟨us, hmore, hlast⟩ := takes_more hsep hitem (by omega) has
  exact ⟨t, ts ++ us, ⟨t :: ts, us, rfl, hw, hmore⟩, hlaid.append hlast⟩

theorem symbol_some {s : Char} {cs rest : List Char} (h : (symbol s cs).result = some ((), rest)) :
    cs = s :: rest := by
  rw [result_symbol] at h
  split at h
  · split at h
    · rename_i hc; cases h; rw [hc]
    · cases h
  · cases h

theorem takes_symbol {s : Char} (hs : s ∈ signs) : TakesToken (symbol s) (.sign s) := by
  intro cs rest h
  rw [symbol_some h]
  exact Token.Spelled.laid (t := .sign s) (w := [s]) ⟨hs, rfl⟩ trivial

theorem takes_commaList (hitem : Takes item W n) : Takes (commaList item) (Commas W) n := by
  intro cs as rest hn h
  obtain ⟨⟨a, as⟩, mid, hread, ⟨⟩⟩ := bind_eq_some.1 h
  obtain ⟨t, ts, ⟨us, vs, hts, hw, hmore⟩, hlaid⟩ := takes_separated (takes_symbol (by decide)) hitem hn hread
  exact ⟨t, ts, by rw [hts]; exact .cons hw hmore, hlaid⟩

theorem Takes.map {β : Type} {f : α → β} {V : β → List Token → Prop} (h : Takes rule W n)
    (hf : ∀ {a ts}, W a ts → V (f a) ts) : Takes (f <$> rule) V n := by
  intro cs b rest hn hread
  rw [result_map] at hread
  obtain ⟨⟨a, mid⟩, ha, heq⟩ := Option.map_eq_some_iff.1 hread
  cases heq
  obtain ⟨t, ts, hw, hlaid⟩ := h hn ha
  exact ⟨t, ts, hf hw, hlaid⟩

theorem Takes.orElse (h : Takes rule W n) (h' : Takes item W n) : Takes (rule <|> item) W n := by
  intro cs a rest hn hread
  rw [result_orElse] at hread
  rcases hr : (rule cs).result with _ | r
  · rw [hr] at hread; exact h' hn hread
  · rw [hr] at hread; cases hread; exact h hn hr

theorem Takes.mono (h : Takes rule W n) (hwv : ∀ {a ts}, W a ts → V a ts) : Takes rule V n := by
  intro cs a rest hn hread
  obtain ⟨t, ts, hw, hlaid⟩ := h hn hread
  exact ⟨t, ts, hwv hw, hlaid⟩

/-- What a rule takes after a token and a gap, where the text is shorter. -/
theorem Takes.after {p : Rule Unit} {t : Token} (hp : TakesToken p t) (h : ∀ m < n, Takes rule W m) :
    Takes (do p; Pipeline.gap; rule) (fun a ts => ∃ us, ts = t :: us ∧ W a us) n := by
  intro cs a rest hn hread
  obtain ⟨⟨⟩, mid, hword, hread⟩ := bind_eq_some.1 hread
  obtain ⟨⟨⟩, _, ⟨⟩, hread⟩ := bind_eq_some.1 hread
  have hlaid := hp hword
  have hle := hlaid.length_le
  obtain ⟨u, us, hw, hlast⟩ := (h mid.length (by simp at hle; omega)).gap (Nat.le_refl _) hread
  exact ⟨t, u :: us, ⟨_, rfl, hw⟩, hlaid.append hlast⟩

theorem Takes.named (h : Takes rule W n) : Takes (Rule.named rule) W n := by
  intro cs a rest hn hread
  rw [result_named] at hread
  exact h hn hread

end Lists

/-! ## Lexemes -/

theorem readWord_some {w : String} {cs rest : List Char} (h : readWord w.toList cs = some ((), rest)) :
    ∃ v, cs = v ++ rest ∧ SpellsWord w v ∧ ∀ c ∈ rest.head?, isNameChar c = false := by
  unfold readWord at h
  split at h
  · rename_i r hr
    split at h
    · rename_i hends
      cases h
      obtain ⟨v, hcs, hv⟩ := readLetters_some _ _ hr
      exact ⟨v, hcs, hv, endsWord_iff.1 hends⟩
    · cases h
  · cases h

theorem takes_keyword {w : String} (hw : w ∈ keywords) : TakesToken (keyword w) (.word w) := by
  intro cs rest h
  rw [result_keyword] at h
  obtain ⟨v, rfl, hv, ha⟩ := readWord_some h
  exact Token.Spelled.laid (t := .word w) ⟨hw, hv⟩ ha

theorem readWords_some {rest : List Char} : ∀ {ws : List String} {cs : List Char}, ws ≠ [] →
    readWords (ws.map String.toList) cs = some ((), rest) →
      ∃ v, cs = v ++ rest ∧ SpellsWords ws v ∧ ∀ c ∈ rest.head?, isNameChar c = false
  | [], _, hne, _ => absurd rfl hne
  | [w], cs, _, h => readWord_some h
  | w :: u :: ws, cs, _, h => by
    rw [List.map_cons, List.map_cons, readWords] at h
    · split at h
      · rename_i mid hmid
        split at h
        · rename_i c last
          split at h
          · rename_i hc
            obtain ⟨a, rfl, ha⟩ := readLetters_some _ _ hmid
            obtain ⟨v, hv, hspell, hends⟩ := readWords_some (List.cons_ne_nil u ws) h
            -- the blanks between the first word and the others
            have hsplit : c :: last = (c :: last).takeWhile isSpace ++ (v ++ rest) := by
              rw [← hv, List.takeWhile_append_dropWhile]
            refine ⟨a ++ (c :: last).takeWhile isSpace ++ v, ?_, ⟨a, _, v, rfl, ha, ?_, ?_, hspell⟩, hends⟩
            · rw [List.append_assoc, List.append_assoc, ← hsplit]
            · rw [List.takeWhile_cons_of_pos hc]; simp
            · intro d hd; exact of_mem_takeWhile hd
          · cases h
        · cases h
      · cases h
    · simp

theorem readName_some {cs rest : List Char} {n : String} (h : readName cs = some (n, rest)) :
    cs = n.toList ++ rest ∧ IsName n ∧ ∀ c ∈ rest.head?, isInName c = false := by
  unfold readName at h
  split at h
  · rename_i c cs
    split at h
    · rename_i hc
      cases h
      refine ⟨?_, ?_, ?_⟩
      · rw [String.toList_ofList, List.cons_append, List.takeWhile_append_dropWhile]
      · unfold IsName
        rw [String.toList_ofList]
        exact ⟨hc, fun x hx => of_mem_takeWhile hx⟩
      · intro d hd
        have := List.head?_dropWhile_not isInName cs
        rw [hd] at this
        simpa using this
    · cases h
  · cases h

theorem readKey_some {cs rest : List Char} {k : String} (h : readKey cs = some (k, rest)) :
    cs = k.toList ++ rest ∧ IsKey k := by
  unfold readKey at h
  split at h
  · cases h
  · rename_i key hne
    cases h
    refine ⟨by rw [String.toList_ofList, List.takeWhile_append_dropWhile], ?_, ?_⟩
    · rw [String.toList_ofList]; exact hne
    · rw [String.toList_ofList]
      intro hmem
      exact absurd (of_mem_takeWhile hmem) (by decide)

theorem readFraction_eq {cs ds rest : List Char} (h : readFraction cs = (ds, rest)) :
    cs = (if ds.isEmpty then [] else '.' :: ds) ++ rest ∧ ∀ c ∈ ds, Scan.isDigit c = true := by
  unfold readFraction at h
  split at h
  · rename_i cs
    split at h
    · cases h; simp
    · rename_i ds' hne
      cases h
      refine ⟨?_, fun c hc => of_mem_takeWhile hc⟩
      rw [if_neg (by simpa using hne), List.cons_append, List.takeWhile_append_dropWhile]
  · cases h; simp

theorem readUnsigned_some {negative : Bool} {cs rest : List Char} {n : NumberText}
    (h : readUnsigned negative cs = some (n, rest)) :
    n.negative = negative ∧ IsNumber n ∧
      cs = n.whole ++ (if n.fraction.isEmpty then [] else '.' :: n.fraction) ++ rest := by
  unfold readUnsigned at h
  split at h
  · cases h
  · rename_i hne
    rcases hf : readFraction (cs.dropWhile Scan.isDigit) with ⟨ds, last⟩
    rw [hf] at h
    cases h
    obtain ⟨hsplit, hds⟩ := readFraction_eq hf
    refine ⟨rfl, ⟨hne, fun c hc => of_mem_takeWhile hc, hds⟩, ?_⟩
    rw [List.append_assoc, ← hsplit, List.takeWhile_append_dropWhile]

theorem readNumber_some {cs rest : List Char} {n : NumberText} (h : readNumber cs = some (n, rest)) :
    IsNumber n ∧ cs = n.chars ++ rest := by
  unfold NumberText.chars
  unfold readNumber at h
  split at h
  · obtain ⟨hneg, hn, hcs⟩ := readUnsigned_some h
    exact ⟨hn, by rw [hneg, if_pos rfl, hcs]; simp⟩
  · obtain ⟨hneg, hn, hcs⟩ := readUnsigned_some h
    exact ⟨hn, by rw [hneg, if_neg (by decide), hcs]; simp⟩

theorem readComparison_some {cs rest : List Char} {op : BinaryOp} (h : readComparison cs = some (op, rest)) :
    ∃ s ∈ comparisonSigns op, cs = s.toList ++ rest := by
  unfold readComparison at h
  split at h <;> cases h
  · exact ⟨"<>", by decide, rfl⟩
  · exact ⟨"!=", by decide, rfl⟩
  · exact ⟨"<=", by decide, rfl⟩
  · exact ⟨">=", by decide, rfl⟩
  · exact ⟨"=", by decide, rfl⟩
  · exact ⟨"<", by decide, rfl⟩
  · exact ⟨">", by decide, rfl⟩

/-! ## Operands, relations and values -/

section Values

variable {n : Nat}

theorem takes_ident : Takes ident (fun name ts => ts = [.name name]) n := by
  intro cs name rest _ h
  rw [result_ident] at h
  obtain ⟨rfl, hname, ha⟩ := readName_some h
  exact ⟨_, _, rfl, Token.Spelled.laid (t := .name name) ⟨hname, rfl⟩ ha⟩

theorem takes_indexer : Takes indexer (fun k ts => ts = [.key k]) n := by
  intro cs k rest _ h
  rw [indexer, result_named] at h
  obtain ⟨⟨⟩, mid, hopen, h⟩ := bind_eq_some.1 h
  obtain ⟨k, last, hkey, h⟩ := bind_eq_some.1 h
  obtain ⟨⟨⟩, stop, hclose, ⟨⟩⟩ := bind_eq_some.1 h
  rw [result_lexeme] at hkey
  obtain ⟨rfl, hk⟩ := readKey_some hkey
  obtain rfl := symbol_some hopen
  obtain rfl := symbol_some hclose
  have hlaid : Laid [.key k] ('[' :: (k.toList ++ [']']) ++ rest) rest :=
    Token.Spelled.laid (t := .key k) ⟨hk, rfl⟩ trivial
  exact ⟨_, _, rfl, by simpa using hlaid⟩

theorem takes_operand : Takes operand (fun o ts => ts = [o.token]) n :=
  .named (.orElse (takes_indexer.map fun h => h) (takes_ident.map fun h => h))

theorem takes_string : Takes string (fun s ts => ts = [.string s]) n := by
  intro cs s rest _ h
  rw [result_string] at h
  obtain rfl := readQuoted_some h
  exact ⟨_, _, rfl, Token.Spelled.laid (t := .string s) rfl trivial⟩

theorem takes_number : Takes number (fun x ts => ts = [.number x]) n := by
  intro cs x rest _ h
  rw [result_number] at h
  obtain ⟨hx, rfl⟩ := readNumber_some h
  exact ⟨_, _, rfl, Token.Spelled.laid (t := .number x) ⟨hx, rfl⟩ trivial⟩

theorem takes_timestamp : Takes timestamp (fun s ts => ts = [.date s]) n := by
  intro cs s rest _ h
  rw [timestamp, result_named] at h
  obtain ⟨⟨⟩, mid, hword, hread⟩ := bind_eq_some.1 h
  obtain ⟨last, hletters, ⟨⟩⟩ := Option.map_eq_some_iff.1 hword
  rw [result_string] at hread
  obtain ⟨w, rfl, hw⟩ := readLetters_some _ _ hletters
  obtain rfl := readQuoted_some hread
  rw [← List.append_assoc]
  exact ⟨_, _, rfl, Token.Spelled.laid (t := .date s) ⟨w, hw, rfl⟩ trivial⟩

theorem takes_domainWords (op : DomainOp) :
    Takes (domainWords op (operatorWords op)) (fun op ts => ts = [.operator op]) n := by
  intro cs op' rest _ h
  rw [result_domainWords] at h
  obtain ⟨⟨⟨⟩, mid⟩, hread, heq⟩ := Option.map_eq_some_iff.1 h
  cases heq
  obtain ⟨w, rfl, hw, ha⟩ := readWords_some (by cases op <;> simp [operatorWords]) hread
  exact ⟨_, _, rfl, Token.Spelled.laid (t := .operator op) hw ha⟩

theorem takes_domainOp : Takes domainOp (fun op ts => ts = [.operator op]) n :=
  .named (.orElse (takes_domainWords .notInGroup) (.orElse (takes_domainWords .inGroup)
    (.orElse (takes_domainWords .isIn) (.orElse (takes_domainWords .under)
      (.orElse (takes_domainWords .wasEver) (takes_domainWords .contains))))))

theorem takes_comparison : Takes comparison (fun op ts => ts = [.comparison op]) n := by
  intro cs op rest _ h
  unfold comparison at h
  rw [result_lexeme] at h
  obtain ⟨s, hs, rfl⟩ := readComparison_some h
  exact ⟨_, _, rfl, Token.Spelled.laid (t := .comparison op) ⟨s, hs, rfl⟩ trivial⟩

theorem takes_relation : Takes relation (fun r ts => ts = [r.token]) n :=
  .orElse (takes_domainOp.map fun h => h) (takes_comparison.map fun h => h)

theorem takes_scalar : Takes scalar (fun x ts => ts = [x.token]) n :=
  .named (.orElse (takes_string.map fun h => h) (takes_number.map fun h => h))

theorem takes_list : Takes list (fun items ts => ts = (Literal.list items).tokens) n := by
  intro cs items rest hn h
  rw [list, result_named] at h
  obtain ⟨⟨⟩, mid, hopen, h⟩ := bind_eq_some.1 h
  obtain ⟨found, last, hitems, h⟩ := bind_eq_some.1 h
  obtain ⟨⟨⟩, _, ⟨⟩, h⟩ := bind_eq_some.1 h
  obtain ⟨⟨⟩, stop, hclose, ⟨⟩⟩ := bind_eq_some.1 h
  have hopen := takes_symbol (by decide) hopen
  have hle := hopen.length_le
  have hclose := (takes_symbol (by decide)).gap hclose
  rw [result_optional, result_bind, result_gap, Option.bind_some] at hitems
  rcases hread : (commaList scalar (skipGap false mid)).result with _ | ⟨as, end_⟩
  · rw [hread] at hitems
    cases hitems
    exact ⟨_, _, rfl, hopen.append hclose⟩
  · rw [hread] at hitems
    cases hitems
    obtain ⟨t, ts, hw, hlaid⟩ := (takes_commaList takes_scalar).gap (Nat.le_trans (by omega) hn) hread
    obtain ⟨-, hts⟩ := commas_iff.1 hw
    rw [hts] at hlaid
    exact ⟨_, _, rfl, hopen.append (hlaid.append hclose)⟩

theorem takes_null : Takes (do keyword "null"; pure Literal.null) (fun v ts => ts = v.tokens) n := by
  intro cs v rest _ h
  obtain ⟨⟨⟩, mid, hread, ⟨⟩⟩ := bind_eq_some.1 h
  exact ⟨_, _, rfl, takes_keyword (by decide) hread⟩

theorem takes_value : Takes value (fun v ts => ts = v.tokens) n :=
  .named (.orElse (takes_list.map fun h => h) (.orElse (takes_timestamp.map fun h => h)
    (.orElse (takes_string.map fun h => h) (.orElse (takes_number.map fun h => h) takes_null))))

end Values

/-! ## Conditions -/

theorem predicate_some {cs rest : List Char} {c : Condition} (h : (predicate cs).result = some (c, rest)) :
    ∃ o mid r last v, c = .test o r v ∧ (operand cs).result = some (o, mid) ∧
      (relation (skipGap false mid)).result = some (r, last) ∧
      (value (skipGap false last)).result = some (v, rest) := by
  rw [predicate, result_named] at h
  obtain ⟨o, mid, ho, h⟩ := bind_eq_some.1 h
  obtain ⟨⟨⟩, _, ⟨⟩, h⟩ := bind_eq_some.1 h
  obtain ⟨r, last, hr, h⟩ := bind_eq_some.1 h
  obtain ⟨⟨⟩, _, ⟨⟩, h⟩ := bind_eq_some.1 h
  obtain ⟨v, _, hv, ⟨⟩⟩ := bind_eq_some.1 h
  exact ⟨o, mid, r, last, v, rfl, ho, hr, hv⟩

theorem predicate_laid {cs mid last rest : List Char} {o : Operand} {r : Relation} {v : Literal}
    (ho : (operand cs).result = some (o, mid)) (hr : (relation (skipGap false mid)).result = some (r, last))
    (hv : (value (skipGap false last)).result = some (v, rest)) :
    Laid (o.token :: r.token :: v.tokens) cs rest := by
  obtain ⟨_, _, ⟨⟩, ho⟩ := takes_operand (Nat.le_refl _) ho
  obtain ⟨_, _, ⟨⟩, hr⟩ := takes_relation.gap (Nat.le_refl _) hr
  obtain ⟨t, ts, hts, hv⟩ := takes_value.gap (Nat.le_refl _) hv
  rw [hts] at hv
  exact ho.append (hr.append hv)

theorem operand_name_some {cs mid : List Char} {n : String} (h : (operand cs).result = some (.name n, mid)) :
    readName cs = some (n, mid) := by
  rw [operand, result_named, result_orElse, result_map, result_map, result_ident] at h
  rcases hkey : (indexer cs).result with _ | r
  · rw [hkey] at h
    obtain ⟨⟨m, rest⟩, hread, ⟨⟩⟩ := Option.map_eq_some_iff.1 h
    exact hread
  · rw [hkey] at h; cases h

/-- A text that could be a test of the field `not` with the words `not in group` goes on, after its first word,
with a test of that field with the words `in group`. -/
theorem factor_notInGroup {o : Operand} {v : Literal} {cs mid last rest : List Char} (hnot : o.IsNot)
    (ho : (operand cs).result = some (o, mid))
    (hr : (relation (skipGap false mid)).result = some (.domain .notInGroup, last))
    (hv : (value (skipGap false last)).result = some (v, rest)) (depth : Nat) :
    (keyword "not" cs).result = some ((), mid) ∧ (factor (depth + 1) (skipGap false mid)).result ≠ none := by
  rcases o with n | k
  · obtain ⟨rfl, -, ha⟩ := readName_some (operand_name_some ho)
    have hword : readWord "not".toList (n.toList ++ mid) = some ((), mid) :=
      readWord_spelled hnot fun c hc => by
        have hname := ha c hc
        rw [isInName, Bool.or_eq_false_iff] at hname
        exact hname.1
    refine ⟨by rw [result_keyword, hword], ?_⟩
    -- the words are cut after the first of them: what follows it is an operator too
    obtain ⟨t, ts, ⟨⟩, hrel⟩ := takes_relation (Nat.le_refl _) hr
    obtain ⟨w, last', hskip, ⟨a, b, u, rfl, hfirst, hb, hs, hu⟩, hends, hnil, -⟩ := hrel.uncons
    cases hnil
    have hu : (Token.operator .inGroup).Spelled u := hu
    have hpred : (predicate (skipGap false mid)).result =
        some (.test (.name (String.ofList a)) (.domain .inGroup) v, rest) := by
      have hname : (operand (a ++ (b ++ (u ++ last)))).result = some (.name (String.ofList a), b ++ (u ++ last)) := by
        refine result_operand_name (isNameChars_of_spells hfirst (by decide) (by decide)).1 ?_
        obtain ⟨c, b, rfl⟩ := List.exists_cons_of_ne_nil hb
        rintro _ ⟨⟩
        rcases isSpace_iff.1 (hs c List.mem_cons_self) with rfl | rfl | rfl | rfl <;> decide
      have hrel : (relation (skipGap false (b ++ (u ++ last)))).result = some (.domain .inGroup, last) := by
        rw [skipGap_gap (gap_blanks hs), Token.spelled_solid hu]
        exact result_operator hu hends (by simp)
      rw [skipGap_skipGap] at hskip
      rw [hskip, List.append_assoc, List.append_assoc, predicate]
      simp [hname, hrel, hv]
    intro hnone
    rw [result_factor, hpred] at hnone
    simp at hnone
  · cases hnot

theorem takes_joined {connective : String} {join : Condition → Condition → Condition} {part : Rule Condition}
    {n : Nat} {V W : Condition → List Token → Prop} (hword : connective ∈ keywords) (hpart : Takes part V n)
    (hfirst : ∀ {c ts}, V c ts → W c ts)
    (hjoin : ∀ {c d ts us}, W c ts → V d us → W (join c d) (ts ++ .word connective :: us)) :
    Takes (joined connective join part) W n := by
  have hfold : ∀ {ds us}, Preceded (.word connective) V ds us → ∀ {c ts}, W c ts →
      W (ds.foldl join c) (ts ++ us) := by
    intro ds us h
    induction h with
    | nil => intro c ts hc; rwa [List.append_nil]
    | cons hd _ ih =>
      intro c ts hc
      have h := ih (hjoin hc hd)
      rwa [List.append_assoc, List.cons_append] at h
  intro cs c rest hn h
  rw [joined, result_named] at h
  obtain ⟨⟨first, more⟩, mid, hread, ⟨⟩⟩ := bind_eq_some.1 h
  obtain ⟨t, ts, ⟨us, vs, hts, hw, hmore⟩, hlaid⟩ := takes_separated (takes_keyword hword) hpart hn hread
  exact ⟨t, ts, by rw [hts]; exact hfold hmore (hfirst hw), hlaid⟩

theorem takes_conditionOf {factor : Rule Condition} {n : Nat} (h : Takes factor (Written .factor) n) :
    Takes (conditionOf factor) (Written .whole) n :=
  .named (takes_joined (by decide) (takes_joined (by decide) h .factor .and) .term .or)

/-- What a rule takes before a gap and a token. -/
theorem Takes.before {rule : Rule Condition} {W : Condition → List Token → Prop} {p : Rule Unit} {t : Token} {n : Nat}
    (h : Takes rule W n) (hp : TakesToken p t) :
    Takes (do let c ← rule; Pipeline.gap; p; pure c) (fun c ts => ∃ us, ts = us ++ [t] ∧ W c us) n := by
  intro cs c rest hn hread
  obtain ⟨c, mid, hc, hread⟩ := bind_eq_some.1 hread
  obtain ⟨⟨⟩, _, ⟨⟩, hread⟩ := bind_eq_some.1 hread
  obtain ⟨⟨⟩, _, hlast, ⟨⟩⟩ := bind_eq_some.1 hread
  obtain ⟨u, us, hw, hlaid⟩ := h hn hc
  exact ⟨u, us ++ [t], ⟨_, rfl, hw⟩, hlaid.append (hp.gap hlast)⟩

/-- A bound on the nesting that no text of `n` characters can reach does not matter. -/
theorem takes_factor : ∀ {depth n : Nat}, n < depth → Takes (factor depth) (Written .factor) n
  | depth + 1, n, hn, cs, c, rest, hcs, h => by
    have hneg : Takes (do keyword "not"; gap; Condition.not <$> factor depth) (Written .factor) n :=
      (Takes.after (takes_keyword (by decide)) fun m hm =>
        (takes_factor (by omega)).map (V := fun c ts => Written .factor c (.word "not" :: ts)) .not).mono
          fun ⟨_, hts, hw⟩ => hts ▸ hw
    have hparens : Takes (do symbol '('; gap; let c ← conditionOf (factor depth); gap; symbol ')'; pure c)
        (Written .factor) n :=
      (Takes.after (takes_symbol (by decide)) fun m hm =>
        (takes_conditionOf (takes_factor (by omega))).before (takes_symbol (by decide))).mono
          fun ⟨_, hts, _, hus, hw⟩ => by rw [hts, hus]; exact .parens hw
    rw [factor, result_named, result_orElse] at h
    rcases hread : ((do keyword "not"; gap; Condition.not <$> factor depth : Rule Condition) cs).result with _ | r
    · rw [hread] at h
      have h : (Rule.named (_ <|> predicate) cs).result = some (c, rest) := h
      rw [result_named, result_orElse] at h
      rcases hopen : ((do symbol '('; gap; let c ← conditionOf (factor depth); gap; symbol ')'; pure c :
          Rule Condition) cs).result with _ | r
      · rw [hopen] at h
        obtain ⟨o, mid, r, last, v, rfl, ho, hr, hv⟩ := predicate_some h
        have hlaid := predicate_laid ho hr hv
        refine ⟨_, _, .test ?_, hlaid⟩
        rintro hnot rfl
        -- the negation of a test was tried before, and would have been read
        have hlen := hlaid.length_le
        simp only [List.length_cons] at hlen
        obtain ⟨d, rfl⟩ : ∃ d, depth = d + 1 := ⟨depth - 1, by omega⟩
        obtain ⟨hword, hsome⟩ := factor_notInGroup hnot ho hr hv d
        rw [result_bind, hword, Option.bind_some, result_bind, result_gap, Option.bind_some, result_map,
          Option.map_eq_none_iff] at hread
        exact hsome hread
      · rw [hopen] at h
        cases h
        exact hparens hcs hopen
    · rw [hread] at h
      cases h
      exact hneg hcs hread

theorem takes_condition {n : Nat} : Takes condition (Written .whole) n := by
  intro cs c rest _ h
  exact takes_conditionOf (takes_factor (Nat.lt_succ_self cs.length)) (Nat.le_refl _) h

/-! ## Steps -/

section Steps

variable {n : Nat}

theorem takes_selectStep : Takes selectStep StepWritten n := by
  have hall : ∀ m, Takes wildcard (fun p ts => StepWritten (.select p) (.word "select" :: ts)) m := by
    intro m cs p rest _ h
    rw [wildcard, result_named] at h
    obtain ⟨⟨⟩, mid, hread, ⟨⟩⟩ := bind_eq_some.1 h
    exact ⟨_, _, .all, takes_symbol (by decide) hread⟩
  have hfields : ∀ m, Takes fieldList (fun p ts => StepWritten (.select p) (.word "select" :: ts)) m := by
    intro m
    refine Takes.map (.named (takes_commaList takes_ident)) fun {ns ts} hw => ?_
    obtain ⟨hne, rfl⟩ := commas_iff.1 hw
    obtain ⟨n, ns, rfl⟩ := List.exists_cons_of_ne_nil hne
    exact .fields
  exact .named ((Takes.after (takes_keyword (by decide)) fun m _ => ((hall m).orElse (hfields m)).map
    (V := fun s ts => StepWritten s (.word "select" :: ts)) fun hw => hw).mono fun ⟨_, hts, hw⟩ => hts ▸ hw)

theorem takes_filterStep : Takes filterStep StepWritten n :=
  .named ((Takes.after (takes_keyword (by decide)) fun m _ => takes_condition.map
    (V := fun s ts => StepWritten s (.word "where" :: ts)) .filter).mono fun ⟨_, hts, hw⟩ => hts ▸ hw)

theorem takes_asOfStep : Takes asOfStep StepWritten n := by
  have hdate : ∀ m, Takes timestamp (fun s ts => StepWritten (.asOf s) (.word "asof" :: ts)) m :=
    fun m => takes_timestamp.mono fun hts => hts ▸ .asOfDate
  have hstring : ∀ m, Takes string (fun s ts => StepWritten (.asOf s) (.word "asof" :: ts)) m :=
    fun m => takes_string.mono fun hts => hts ▸ .asOfString
  exact .named ((Takes.after (takes_keyword (by decide)) fun m _ => ((hdate m).orElse (hstring m)).map
    (V := fun s ts => StepWritten s (.word "asof" :: ts)) fun hw => hw).mono fun ⟨_, hts, hw⟩ => hts ▸ hw)

theorem takes_direction : Takes direction (fun d ts => ts = [.word (if d then "desc" else "asc")]) n := by
  intro cs d rest _ h
  rw [direction, result_named, result_orElse] at h
  rcases hasc : ((do keyword "asc"; pure false : Rule Bool) cs).result with _ | r
  · rw [hasc] at h
    obtain ⟨⟨⟩, mid, hread, ⟨⟩⟩ := bind_eq_some.1 h
    exact ⟨_, _, rfl, takes_keyword (by decide) hread⟩
  · rw [hasc] at h
    cases h
    obtain ⟨⟨⟩, mid, hread, ⟨⟩⟩ := bind_eq_some.1 hasc
    exact ⟨_, _, rfl, takes_keyword (by decide) hread⟩

theorem takes_sortKey : Takes sortKey SortKey.Written n := by
  intro cs k rest hn h
  rw [sortKey, result_named] at h
  obtain ⟨o, mid, ho, h⟩ := bind_eq_some.1 h
  obtain ⟨found, last, hd, ⟨⟩⟩ := bind_eq_some.1 h
  obtain ⟨_, _, ⟨⟩, hlaid⟩ := takes_operand hn ho
  rw [result_optional, result_bind, result_gap, Option.bind_some] at hd
  rcases hread : (direction (skipGap false mid)).result with _ | ⟨d, stop⟩
  · rw [hread] at hd
    cases hd
    exact ⟨_, _, .plain, hlaid⟩
  · rw [hread] at hd
    cases hd
    obtain ⟨_, _, ⟨⟩, hword⟩ := takes_direction.gap (Nat.le_refl _) hread
    exact ⟨_, _, .directed, hlaid.append hword⟩

/-- The word `by` would be read off a name that starts with it. -/
theorem not_startsBy {k : SortKey} {ks : List SortKey} {ts : List Token} {cs rest : List Char}
    (hw : Commas SortKey.Written (k :: ks) ts) (h : Laid ts cs rest)
    (hby : (keyword "by" (skipGap false cs)).result = none) : ¬k.operand.StartsBy := by
  intro hstarts
  obtain ⟨us, rfl⟩ := SortKey.commas_head hw
  obtain ⟨w, mid, hskip, hw, ha, -⟩ := h.uncons
  rcases ho : k.operand with n | key
  · rw [ho] at hstarts hw ha
    obtain ⟨v, u, hn, hv, hu⟩ := hstarts
    obtain ⟨-, rfl⟩ := hw
    have hends : ∀ c ∈ (u ++ mid).head?, isNameChar c = false := by
      intro c hc
      cases u with
      | nil =>
        have hname := ha c hc
        rw [isInName, Bool.or_eq_false_iff] at hname
        exact hname.1
      | cons d u => cases hc; rw [hu c rfl]; decide
    rw [hskip, hn, List.append_assoc, result_keyword, readWord_spelled hv hends] at hby
    cases hby
  · rw [ho] at hstarts; cases hstarts

theorem takes_orderStep : Takes orderStep StepWritten n := by
  intro cs s rest hn h
  rw [orderStep, result_named] at h
  obtain ⟨⟨⟩, mid, hword, h⟩ := bind_eq_some.1 h
  obtain ⟨found, last, hby, h⟩ := bind_eq_some.1 h
  obtain ⟨⟨⟩, _, ⟨⟩, h⟩ := bind_eq_some.1 h
  rw [result_map] at h
  obtain ⟨⟨ks, _⟩, hkeys, ⟨⟩⟩ := Option.map_eq_some_iff.1 h
  have hword := takes_keyword (by decide) hword
  obtain ⟨t, ts, hw, hlaid⟩ := (takes_commaList takes_sortKey).gap (Nat.le_refl _) hkeys
  rw [result_optional, result_bind, result_gap, Option.bind_some] at hby
  rcases hread : (keyword "by" (skipGap false mid)).result with _ | ⟨⟨⟩, stop⟩
  · rw [hread] at hby
    cases hby
    obtain ⟨k, ks, rfl⟩ := hw.exists_cons
    exact ⟨_, _, .order (not_startsBy hw hlaid hread) hw, hword.append hlaid⟩
  · rw [hread] at hby
    cases hby
    have hby := (takes_keyword (by decide)).gap hread
    exact ⟨_, _, .orderBy hw, hword.append (hby.append hlaid)⟩

theorem takes_step : Takes step StepWritten n :=
  .named (takes_selectStep.orElse (takes_filterStep.orElse (takes_orderStep.orElse takes_asOfStep)))

end Steps

/-! ## Pipelines -/

theorem takes_pipeline {n : Nat} : Takes pipeline
    (fun p ts => ∃ us, ts = .word "from" :: .name p.entity :: us ∧ StepsWritten p.steps us) n := by
  intro cs p rest hn h
  rw [pipeline, result_named] at h
  obtain ⟨entity, mid, hsource, h⟩ := bind_eq_some.1 h
  obtain ⟨steps, last, hsteps, ⟨⟩⟩ := bind_eq_some.1 h
  obtain ⟨t, ts, ⟨us, hts, hus⟩, hlaid⟩ :=
    (Takes.named (Takes.after (takes_keyword (by decide)) fun m _ => takes_ident)) hn hsource
  obtain ⟨vs, hw, hlast⟩ := takes_more (takes_symbol (by decide)) takes_step (Nat.le_refl _) hsteps
  refine ⟨t, ts ++ vs, ⟨vs, ?_, hw⟩, hlaid.append hlast⟩
  rw [← List.cons_append, hts, hus]
  rfl

/-- A text is a pipeline if and only if it is a layout of the pipeline's tokens, written in one of the ways there
are. -/
theorem ofText_ok_iff {cs : List Char} {p : Pipeline} :
    ofText cs = .ok p ↔ ∃ ts, StepsWritten p.steps ts ∧ Layout (.word "from" :: .name p.entity :: ts) cs := by
  constructor
  · intro h
    obtain ⟨rest, h⟩ := ofText_eq_ok_iff.1 h
    rw [result_program] at h
    obtain ⟨⟨q, last⟩, hread, h⟩ := Option.bind_eq_some_iff.1 h
    split at h
    · rename_i hend
      cases h
      obtain ⟨t, ts, ⟨us, hts, hw⟩, hlaid⟩ := takes_pipeline.gap (Nat.le_refl _) hread
      rw [hts] at hlaid
      exact ⟨us, hw, last, hlaid, lastGap_of_skipGap hend⟩
    · cases h
  · rintro ⟨ts, hs, h⟩
    exact ofText_layout hs h

end WorkItemQuery.Pipeline
