/-
Line breaks in a pipeline. Written as line feeds they leave every token in its place: those that are part of a
gap or stand between the words of an operator change nothing, and those in literals and keys change the texts
there. So a text that is a pipeline still is one, the same but for the line breaks in its texts.

The lines of a text, joined with line feeds, are laid out as the whole text with such line breaks.
-/
import WorkItemQuery.Proofs.Pipeline.Zone
import WorkItemQuery.Proofs.Text.Lines

namespace WorkItemQuery.Pipeline

open WorkItemQuery.Text

/-! ## Tokens -/

theorem head_double (s : List Char) : (double s ++ ['\'']).head? = some '\n' ↔ s.head? = some '\n' := by
  rcases s with _ | ⟨c, s⟩
  · decide
  · rw [double]
    split
    · rename_i hc
      rw [hc]
      exact iff_of_false (by simp) (by simp)
    · rfl

theorem unix_double (s : List Char) : unix (double s ++ ['\'']) = double (unix s) ++ ['\''] := by
  induction s with
  | nil => rfl
  | cons c s ih =>
    by_cases hc : c = '\''
    · rw [double, if_pos hc, List.cons_append, List.cons_append, unix_cons fun h => absurd h (by decide),
        unix_cons fun h => absurd h (by decide), ih, hc, unix_cons fun h => absurd h (by decide), double, if_pos rfl]
      rfl
    · rw [double, if_neg hc, List.cons_append]
      by_cases hbreak : c = '\r' ∧ s.head? = some '\n'
      · rw [unix, if_pos ⟨hbreak.1, (head_double s).2 hbreak.2⟩, unix, if_pos hbreak, ih]
      · rw [unix, if_neg fun h => hbreak ⟨h.1, (head_double s).1 h.2⟩, unix, if_neg hbreak, ih, double, if_neg hc,
          List.cons_append]

theorem unix_quoteChars (s : List Char) : unix (quoteChars s) = quoteChars (unix s) := by
  rw [quoteChars, List.cons_append, unix_cons fun h => absurd h (by decide), unix_double]
  rfl

theorem mem_of_mem_unix {c : Char} {cs : List Char} (h : c ∈ unix cs) : c ∈ cs := by
  induction cs with
  | nil => exact h
  | cons d cs ih =>
    rw [unix] at h
    split at h
    · exact List.mem_cons_of_mem d (ih h)
    · rcases List.mem_cons.1 h with rfl | h
      · exact List.mem_cons_self
      · exact List.mem_cons_of_mem d (ih h)

theorem isKey_unixText {k : String} (h : IsKey k) : IsKey (unixText k) := by
  refine ⟨?_, ?_⟩
  · rw [toList_unixText]
    exact fun hnil => h.1 (unix_eq_nil.1 hnil)
  · rw [toList_unixText]
    exact fun hmem => h.2 (mem_of_mem_unix hmem)

theorem not_feed_of_isLetter {c : Char} (h : isLetter c = true) : c ≠ '\n' := by
  rintro rfl
  revert h
  decide

theorem unix_spells {v : String} {a : List Char} (h : SpellsWord v a) (hv : ∀ l ∈ v.toList, isLetter l = true) :
    unix a = a :=
  unix_of_not_mem fun hf => not_feed_of_isLetter (isLetter_of_spells h hv _ hf) rfl

theorem spellsWords_unix : ∀ {ws : List String} {w : List Char},
    (∀ v ∈ ws, (∃ l, l ∈ v.toList.head? ∧ isLetter l = true) ∧ ∀ l ∈ v.toList, isLetter l = true) →
      SpellsWords ws w → SpellsWords ws (unix w)
  | [], w, _, h => by
    have h : w = [] := h
    rw [h]
    rfl
  | [v], w, hv, h => by
    rw [unix_spells h (hv v List.mem_cons_self).2]
    exact h
  | v :: u :: ws, w, hv, h => by
    obtain ⟨a, b, rest, rfl, ha, hb, hbs, h⟩ := h
    have hvs := fun v hmem => hv v (List.mem_cons_of_mem _ hmem)
    have hlast : a.getLast? = some '\r' → b.head? ≠ some '\n' := fun hr =>
      absurd (isLetter_of_spells ha (hv v List.mem_cons_self).2 _ (List.mem_of_getLast? hr)) (by decide)
    have hhead : (a ++ b).getLast? = some '\r' → rest.head? ≠ some '\n' := by
      intro _ hf
      obtain ⟨l, hl, hlet⟩ := (hvs u List.mem_cons_self).1
      obtain ⟨c, cs, rfl, rfl⟩ := spellsWords_cons h hl
      cases hf
      revert hlet
      decide
    rw [unix_append hhead, unix_append hlast, unix_spells ha (hv v List.mem_cons_self).2]
    exact ⟨a, unix b, unix rest, rfl, ha, fun hnil => hb (unix_eq_nil.1 hnil), fun c hc => hbs c (mem_of_mem_unix hc),
      spellsWords_unix hvs h⟩

namespace Token

/-- The token with the line breaks of its text written as line feeds. -/
def unixTexts : Token → Token
  | key k => key (unixText k)
  | string s => string (unixText s)
  | date s => date (unixText s)
  | t => t

theorem apart_unixTexts {t : Token} {cs : List Char} : t.unixTexts.Apart cs ↔ t.Apart cs := by
  cases t <;> rfl

theorem spelled_unix {t : Token} {w : List Char} (h : t.Spelled w) : t.unixTexts.Spelled (unix w) := by
  have hsolid : ∀ {cs : List Char}, (∀ c ∈ cs, IsSolid c) → unix cs = cs := fun hcs =>
    unix_of_not_mem fun hf => hcs _ hf (by decide)
  cases t with
  | word _ | sign _ | comparison _ | name _ =>
    rw [hsolid (isSolid_of_mem h trivial)]
    exact h
  | operator op => exact spellsWords_unix (fun v hv => ⟨operatorWords_head hv, isLetter_of_operatorWord hv⟩) h
  | key k =>
    obtain ⟨hk, rfl⟩ := h
    refine ⟨isKey_unixText hk, ?_⟩
    rw [unix_cons fun h => absurd h (by decide), unix_append fun _ => by decide, toList_unixText]
    rfl
  | number n =>
    obtain ⟨hn, rfl⟩ := h
    refine ⟨hn, unix_of_not_mem fun hf => ?_⟩
    unfold NumberText.chars at hf
    rw [List.append_assoc] at hf
    rcases List.mem_append.1 hf with hf | hf
    · cases hneg : n.negative <;> simp [hneg] at hf
    · exact isSolid_of_digits hn _ hf (by decide)
  | string s =>
    have h : w = quoteChars s.toList := h
    show unix w = quoteChars (unixText s).toList
    rw [h, unix_quoteChars, toList_unixText]
  | date s =>
    obtain ⟨v, hv, rfl⟩ := h
    refine ⟨v, hv, ?_⟩
    rw [unix_append fun _ => by simp [quoteChars], unix_spells hv (by decide), unix_quoteChars, toList_unixText]

end Token

/-! ## Gaps -/

theorem unix_comment (g : List Char) : ∀ {t : List Char}, '\n' ∉ t →
    ∃ u, '\n' ∉ u ∧ unix (t ++ '\n' :: g) = u ++ '\n' :: unix g
  | [], _ => ⟨[], List.not_mem_nil, unix_feed g⟩
  | c :: t, h => by
    rw [List.mem_cons, not_or] at h
    obtain ⟨u, hu, ht⟩ := unix_comment g h.2
    rw [List.cons_append, unix, ht]
    split
    · exact ⟨u, hu, rfl⟩
    · exact ⟨c :: u, by simp [h.1, hu], rfl⟩

theorem gap_unix {g : List Char} (h : Gap g) : Gap (unix g) := by
  induction h with
  | nil => exact .nil
  | blank hc _ ih =>
    rw [unix]
    split
    · exact ih
    · exact .blank hc ih
  | @comment t g ht _ ih =>
    obtain ⟨u, hu, hcomment⟩ := unix_comment g ht
    rw [unix_cons fun h => absurd h (by decide), unix_cons fun h => absurd h (by decide), hcomment]
    exact .comment hu ih

theorem lastGap_unix {g : List Char} (h : LastGap g) : LastGap (unix g) := by
  cases h with
  | gap hg => exact .gap (gap_unix hg)
  | @comment g t hg ht =>
    have hhyphen : ∀ cs, unix ('-' :: cs) = '-' :: unix cs := fun cs => unix_cons fun h => absurd h (by decide)
    rw [unix_append fun _ h => absurd h (by simp), hhyphen, hhyphen, unix_of_not_mem ht]
    exact .comment (gap_unix hg) ht

/-- A feed ends the comment that a text may end with. -/
theorem LastGap.feed {g : List Char} (h : LastGap g) : Gap (g ++ ['\n']) := by
  cases h with
  | gap hg => exact gap_append hg (.blank (by decide) .nil)
  | comment hg ht =>
    rw [List.append_assoc]
    exact gap_append hg (.comment ht .nil)

theorem head_append_feed (g ds : List Char) : ∀ c ∈ (g ++ '\n' :: ds).head?, c ∈ g.head? ∨ isSpace c = true := by
  intro c hc
  rcases g with _ | ⟨d, g⟩
  · cases hc
    exact .inr (by decide)
  · exact .inl hc

/-- What comes first behind a gap comes first in every longer text, unless a hyphen makes a comment of it. -/
theorem head_skipGap_append {c d : Char} (hd : d ≠ '-') (rest : List Char) (inside : Bool) (cs : List Char)
    (h : c ∈ (skipGap inside cs).head?) : c ∈ (skipGap inside (cs ++ d :: rest)).head? := by
  fun_induction skipGap inside cs with
  | case1 => cases h
  | case2 cs ih =>
    rw [List.cons_append, skipGap, if_pos rfl]
    exact ih h
  | case3 e cs he ih =>
    rw [List.cons_append, skipGap, if_neg he]
    exact ih h
  | case4 cs ih => exact ih h
  | case5 e cs hcomment he ih =>
    rw [List.cons_append, skipGap_blank he]
    exact ih h
  | case6 e cs hcomment he =>
    rw [List.cons_append, skipGap, if_neg he]
    · exact h
    · rintro mid rfl hmid
      rcases cs with _ | ⟨f, cs⟩
      · exact hd (List.cons.inj hmid).1
      · cases hmid
        exact hcomment cs rfl rfl

/-- The characters that line breaks are made of. -/
def IsBreak (c : Char) : Prop := c = '\r' ∨ c = '\n'

theorem IsBreak.isSpace {c : Char} (h : IsBreak c) : isSpace c = true := by
  rcases h with rfl | rfl <;> decide

theorem lastGap_concat_iff {g : List Char} {c : Char} (hc : IsBreak c) : LastGap (g ++ [c]) ↔ LastGap g := by
  constructor
  · intro h
    refine lastGap_of_skipGap ?_
    rcases hg : skipGap false g with _ | ⟨d, ds⟩
    · rfl
    · have hminus : c ≠ '-' := by rcases hc with rfl | rfl <;> decide
      have hd := head_skipGap_append (c := d) hminus [] false g (by rw [hg]; rfl)
      rw [skipGap_last h] at hd
      cases hd
  · intro h
    cases h with
    | gap hg => exact .gap (gap_append hg (.blank hc.isSpace .nil))
    | @comment g t hg ht =>
      rcases hc with rfl | rfl
      · rw [List.append_assoc, List.cons_append, List.cons_append]
        exact .comment hg (by simp [ht])
      · exact .gap (LastGap.comment hg ht).feed

/-! ## Layouts -/

theorem Laid.unix {ts : List Token} {cs rest : List Char} (h : Laid ts cs rest) :
    Laid (ts.map Token.unixTexts) (unix cs) (unix rest) := by
  induction h with
  | nil => exact .nil
  | @cons t ts g w mid rest hg hw ha _ ih =>
    have hlast : (g ++ w).getLast? = some '\r' → mid.head? ≠ some '\n' := by
      intro hr
      rcases mem_getLast?_append hr with hr | ⟨rfl, -⟩
      · exact absurd rfl (Token.spelled_getLast hw _ hr).1
      · obtain ⟨_, _, hnil, -⟩ := Token.spelled_starts hw
        cases hnil
    have hfirst : g.getLast? = some '\r' → w.head? ≠ some '\n' := by
      intro _ hf
      obtain ⟨c, cs, rfl, hc⟩ := Token.spelled_starts hw
      cases hf
      exact absurd (Token.starts_not_space hc) (by decide)
    rw [unix_append hlast, unix_append hfirst]
    refine .cons (gap_unix hg) (Token.spelled_unix hw) (Token.apart_unixTexts.2 (ha.mono fun c hc => ?_)) ih
    rcases head_unix hc with hc | rfl
    · exact .inl hc
    · exact .inr (by decide)

/-- A line break at the end of a text is part of no token. -/
theorem layout_concat_iff {ts : List Token} {cs : List Char} {c : Char} (hc : IsBreak c) :
    Layout ts (cs ++ [c]) ↔ Layout ts cs := by
  constructor
  · rintro ⟨rest, h, hrest⟩
    obtain ⟨w, hw, -, hlast, hchange⟩ := h.change
    rcases List.eq_nil_or_concat rest with rfl | ⟨r, d, rfl⟩
    · rw [List.append_nil] at hw
      have hne := hlast c (by rw [← hw]; simp)
      rcases hc with rfl | rfl
      · exact absurd rfl hne.1
      · exact absurd rfl hne.2
    · rw [List.concat_eq_append, ← List.append_assoc] at hw
      obtain ⟨rfl, hd⟩ := List.append_inj' hw rfl
      cases hd
      rw [List.concat_eq_append] at hrest hchange
      refine ⟨r, hchange r fun d hd => .inl ?_, (lastGap_concat_iff hc).1 hrest⟩
      rw [List.head?_append, hd, Option.some_or]
      rfl
  · rintro ⟨rest, h, hrest⟩
    obtain ⟨w, rfl, -, -, hchange⟩ := h.change
    refine ⟨rest ++ [c], ?_, (lastGap_concat_iff hc).2 hrest⟩
    rw [List.append_assoc]
    refine hchange _ fun d hd => ?_
    rcases rest with _ | ⟨r, rest⟩
    · cases hd
      exact .inr hc.isSpace
    · exact .inl hd

/-- The joined lines of a text are laid out as the text with its line breaks written as line feeds. -/
theorem layout_lines_iff {ts : List Token} {cs : List Char} :
    Layout ts (List.intercalate ['\n'] (lines cs)) ↔ Layout ts (unix cs) := by
  rw [intercalate_lines]
  rcases dropBreak_eq (unix cs) with heq | heq
  · rw [heq]
  · rw [← layout_concat_iff (.inr rfl), ← heq]

/-- A line feed at the end of a text makes one line break with a return before it, which is part of no token either. -/
theorem layout_unix_feed_iff {ts : List Token} {cs : List Char} :
    Layout ts (unix (cs ++ ['\n'])) ↔ Layout ts (unix cs) := by
  by_cases hlast : cs.getLast? = some '\r'
  · obtain ⟨ds, rfl⟩ := List.getLast?_eq_some_iff.1 hlast
    have hreturn : unix (ds ++ ['\r']) = unix ds ++ ['\r'] := unix_append fun _ => by decide
    have hboth : unix (ds ++ ['\r', '\n']) = unix ds ++ ['\n'] := unix_append fun _ => by decide
    rw [List.append_assoc, List.singleton_append, hboth, hreturn, layout_concat_iff (.inl rfl),
      layout_concat_iff (.inr rfl)]
  · rw [unix_append fun h => absurd h hlast]
    exact layout_concat_iff (.inr rfl)

/-! ## Pipelines -/

namespace Operand

def unixTexts : Operand → Operand
  | name n => name n
  | key k => key (unixText k)

theorem token_unixTexts (o : Operand) : o.unixTexts.token = o.token.unixTexts := by
  cases o <;> rfl

theorem isNot_unixTexts {o : Operand} : o.unixTexts.IsNot ↔ o.IsNot := by
  cases o <;> rfl

theorem startsBy_unixTexts {o : Operand} : o.unixTexts.StartsBy ↔ o.StartsBy := by
  cases o <;> rfl

end Operand

namespace Scalar

def unixTexts : Scalar → Scalar
  | string s => string (unixText s)
  | number n => number n

theorem token_unixTexts (x : Scalar) : x.unixTexts.token = x.token.unixTexts := by
  cases x <;> rfl

end Scalar

/-- Mapping the tokens of listed items maps the items. -/
theorem listed_unixTexts (items : List Scalar) : listed (fun x : Scalar => [x.token]) (items.map Scalar.unixTexts) =
    (listed (fun x : Scalar => [x.token]) items).map Token.unixTexts := by
  rcases items with _ | ⟨x, items⟩
  · rfl
  · simp [listed, Scalar.token_unixTexts, List.map_flatMap, List.flatMap_map, Token.unixTexts]

namespace Literal

def unixTexts : Literal → Literal
  | list items => list (items.map Scalar.unixTexts)
  | timestamp s => timestamp (unixText s)
  | string s => string (unixText s)
  | v => v

theorem tokens_unixTexts (v : Literal) : v.unixTexts.tokens = v.tokens.map Token.unixTexts := by
  cases v with
  | list items =>
    show _ :: listed _ (items.map Scalar.unixTexts) ++ _ = _
    rw [listed_unixTexts, tokens, List.map_append, List.map_cons]
    rfl
  | timestamp _ | string _ | number _ | null => rfl

end Literal

theorem Relation.token_unixTexts (r : Relation) : r.token.unixTexts = r.token := by
  cases r <;> rfl

def Condition.unixTexts : Condition → Condition
  | .test o r v => .test o.unixTexts r v.unixTexts
  | .not c => .not c.unixTexts
  | .and c d => .and c.unixTexts d.unixTexts
  | .or c d => .or c.unixTexts d.unixTexts

theorem Written.unixTexts {level : Level} {c : Condition} {ts : List Token} (h : Written level c ts) :
    Written level c.unixTexts (ts.map Token.unixTexts) := by
  induction h with
  | @test o r v hnot =>
    rw [List.map_cons, List.map_cons, ← o.token_unixTexts, r.token_unixTexts, ← v.tokens_unixTexts]
    exact .test fun h => hnot (Operand.isNot_unixTexts.1 h)
  | not _ ih => exact .not ih
  | parens _ ih =>
    rw [List.map_cons, List.map_append]
    exact .parens ih
  | factor _ ih => exact .factor ih
  | and _ _ ihc ihd =>
    rw [List.map_append, List.map_cons]
    exact .and ihc ihd
  | term _ ih => exact .term ih
  | or _ _ ihc ihd =>
    rw [List.map_append, List.map_cons]
    exact .or ihc ihd

theorem Preceded.unixTexts {α : Type} {f : α → α} {s : Char} {W : α → List Token → Prop}
    (hW : ∀ {a : α} {ts : List Token}, W a ts → W (f a) (ts.map Token.unixTexts)) {as : List α} {ts : List Token}
    (h : Preceded (.sign s) W as ts) : Preceded (.sign s) W (as.map f) (ts.map Token.unixTexts) := by
  induction h with
  | nil => exact .nil
  | cons ha _ ih =>
    rw [List.map_cons, List.map_cons, List.map_append]
    exact .cons (hW ha) ih

namespace SortKey

def unixTexts (k : SortKey) : SortKey := ⟨k.operand.unixTexts, k.descending⟩

theorem written_unixTexts {k : SortKey} {ts : List Token} (h : k.Written ts) :
    k.unixTexts.Written (ts.map Token.unixTexts) := by
  cases h with
  | @plain o =>
    rw [List.map_singleton, ← o.token_unixTexts]
    exact .plain
  | directed =>
    rw [tokens, List.map_cons, ← k.operand.token_unixTexts]
    exact .directed

theorem commas_unixTexts {ks : List SortKey} {ts : List Token} (h : Commas Written ks ts) :
    Commas Written (ks.map unixTexts) (ts.map Token.unixTexts) := by
  cases h with
  | cons hk hks =>
    rw [List.map_cons, List.map_append]
    exact .cons (written_unixTexts hk) (hks.unixTexts written_unixTexts)

end SortKey

def Step.unixTexts : Step → Step
  | .filter c => .filter c.unixTexts
  | .order ks => .order (ks.map SortKey.unixTexts)
  | .asOf s => .asOf (unixText s)
  | .select projection => .select projection

theorem StepWritten.unixTexts {s : Step} {ts : List Token} (h : StepWritten s ts) :
    StepWritten s.unixTexts (ts.map Token.unixTexts) := by
  cases h with
  | all => exact .all
  | @fields n ns =>
    have hnames : (listed (fun n => [.name n]) (n :: ns)).map Token.unixTexts =
        listed (fun n => [.name n]) (n :: ns) := by
      simp [listed, List.map_flatMap, Token.unixTexts]
    rw [List.map_cons, hnames]
    exact .fields
  | filter h => exact .filter h.unixTexts
  | orderBy h => exact .orderBy (SortKey.commas_unixTexts h)
  | order hby h => exact .order (fun h => hby (Operand.startsBy_unixTexts.1 h)) (SortKey.commas_unixTexts h)
  | asOfString => exact .asOfString
  | asOfDate => exact .asOfDate

/-- The pipeline with the line breaks of its literals and keys written as line feeds. -/
def unixTexts (p : Pipeline) : Pipeline := ⟨p.entity, p.steps.map Step.unixTexts⟩

/-- With its line breaks written as line feeds a text still is a pipeline, the same but for its literals and keys. -/
theorem ofText_unix {cs : List Char} {p : Pipeline} (h : ofText cs = .ok p) : ofText (unix cs) = .ok p.unixTexts := by
  obtain ⟨ts, hs, rest, hlaid, hrest⟩ := ofText_ok_iff.1 h
  exact ofText_ok_iff.2 ⟨ts.map Token.unixTexts, hs.unixTexts StepWritten.unixTexts, unix rest, hlaid.unix,
    lastGap_unix hrest⟩

end WorkItemQuery.Pipeline
