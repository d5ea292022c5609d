/-
Splitting a text into queries agrees with the grammar, up to stray apostrophes and line breaks in literals. Stray
apostrophes are those in comments and in keys, which mark no literal and are counted all the same. Queries that
are joined by blank lines are found again if and only if the number of stray apostrophes is even at every blank
line, inside a query and behind it, and no query changes when its line breaks are written as line feeds.

A text is read line by line, both in the zones of the grammar and by counting apostrophes; what the count tells
differs from the zone by the parity of the stray apostrophes so far.
-/
import WorkItemQuery.Batch.Split
import WorkItemQuery.Proofs.Pipeline.Breaks
import WorkItemQuery.Proofs.Pipeline.Meaning

namespace WorkItemQuery.Batch

open Text Pipeline

/-- How far a text is read: where one is, and whether the stray apostrophes before are odd in number. -/
structure Reading where
  zone : Zone
  stray : Bool
deriving DecidableEq

namespace Reading

/-- Before the first character of a text. -/
def start : Reading := ⟨.code, false⟩

/-- Reads a character. An apostrophe in a comment or a key is stray. -/
def next (r : Reading) (c : Char) : Reading :=
  ⟨r.zone.next c, r.stray != (c == '\'' && (r.zone == .comment || r.zone == .key))⟩

def after (r : Reading) (cs : List Char) : Reading := cs.foldl next r

/-- Reads a line with its line break. -/
def afterLine (r : Reading) (line : List Char) : Reading := (r.after line).next '\n'

def afterLines (r : Reading) (ls : List (List Char)) : Reading := ls.foldl afterLine r

/-- Whether one is inside a literal, by the number of all apostrophes before. -/
def inside (r : Reading) : Bool := (r.zone == .literal) != r.stray

@[simp] theorem after_nil (r : Reading) : r.after [] = r := rfl

@[simp] theorem after_cons (r : Reading) (c : Char) (cs : List Char) : r.after (c :: cs) = (r.next c).after cs := rfl

theorem after_append (r : Reading) (cs ds : List Char) : r.after (cs ++ ds) = (r.after cs).after ds :=
  List.foldl_append

@[simp] theorem afterLines_nil (r : Reading) : r.afterLines [] = r := rfl

@[simp] theorem afterLines_cons (r : Reading) (l : List Char) (ls : List (List Char)) :
    r.afterLines (l :: ls) = (r.afterLine l).afterLines ls := rfl

theorem zone_after (r : Reading) (cs : List Char) : (r.after cs).zone = r.zone.after cs := by
  induction cs generalizing r with
  | nil => rfl
  | cons c cs ih => exact ih (r.next c)

theorem next_return_feed (r : Reading) : (r.next '\r').next '\n' = r.next '\n' := by
  rcases r with ⟨z, s⟩
  cases z <;> cases s <;> rfl

theorem next_feed_feed (r : Reading) : (r.next '\n').next '\n' = r.next '\n' := by
  rcases r with ⟨z, s⟩
  cases z <;> cases s <;> rfl

/-! ## Counting apostrophes -/

theorem inside_next (r : Reading) (c : Char) : (r.next c).inside = (r.inside != (c == '\'')) := by
  rcases r with ⟨z, s⟩
  by_cases hc : c = '\''
  · subst hc
    cases z <;> cases s <;> rfl
  · have hzone : (z.next c == .literal) = (z == .literal) := by
      cases z <;> simp only [Zone.next, Zone.opened, if_neg hc] <;> (repeat' split) <;> rfl
    simp [next, inside, hc, hzone]

theorem hasOddQuotes_cons (c : Char) (cs : List Char) :
    hasOddQuotes (c :: cs) = ((c == '\'') != hasOddQuotes cs) := by
  unfold hasOddQuotes
  rw [List.count_cons]
  rcases Nat.mod_two_eq_zero_or_one (cs.count '\'') with h | h <;> by_cases hc : c = '\'' <;>
    simp [h, hc, Nat.add_mod]

theorem inside_after (r : Reading) (cs : List Char) : (r.after cs).inside = (r.inside != hasOddQuotes cs) := by
  induction cs generalizing r with
  | nil => simp [hasOddQuotes]
  | cons c cs ih => rw [after_cons, ih, inside_next, hasOddQuotes_cons, Bool.bne_assoc]

/-- A line changes what the count tells if its apostrophes are odd in number. -/
theorem inside_afterLine (r : Reading) (l : List Char) : (r.afterLine l).inside = (r.inside != hasOddQuotes l) := by
  rw [afterLine, inside_next, inside_after]
  exact Bool.bne_false _

theorem inside_of_literal {r : Reading} (hz : r.zone = .literal) (hs : r.stray = false) : r.inside = true := by
  rw [inside, hz, hs]
  rfl

/-! ## Lines -/

/-- The lines of a text, read one by one, are the text with a line break at its end. -/
theorem afterLines_lines (r : Reading) (cs : List Char) :
    r.afterLines (lines (cs ++ ['\n'])) = (r.after cs).next '\n' := by
  induction cs using line_induction generalizing r with
  | nil => rfl
  | feed cs ih => exact ih (r.next '\n')
  | pair cs ih =>
    rw [after_cons, after_cons, next_return_feed]
    exact ih r
  | char c cs hc hr ih =>
    rcases lines_char hc hr [] with ⟨rfl, rfl⟩ | hlines
    · exact (next_return_feed r).symm
    · obtain ⟨l, ls, hls⟩ := List.exists_cons_of_ne_nil (lines_feed_ne_nil cs)
      rw [after_cons, ← ih, hlines, hls]
      rfl

theorem afterLines_intercalate (r : Reading) : ∀ {ls : List (List Char)}, ls ≠ [] →
    r.afterLines ls = (r.after (List.intercalate ['\n'] ls)).next '\n'
  | [], h => absurd rfl h
  | [l], _ => by
    rw [List.intercalate_singleton]
    rfl
  | l :: m :: ls, _ => by
    rw [afterLines_cons, afterLines_intercalate _ (List.cons_ne_nil m ls), intercalate_cons l (List.cons_ne_nil m ls),
      after_append]
    rfl

theorem afterLine_sameLine (r : Reading) {l m : List Char} (h : SameLine l m) : r.afterLine l = r.afterLine m := by
  rcases h with rfl | rfl
  · rfl
  · rw [afterLine, afterLine, after_append]
    exact (next_return_feed _).symm

end Reading

theorem isBlankLine_sameLine {l m : List Char} (h : SameLine l m) : isBlankLine l = isBlankLine m := by
  rcases h with rfl | rfl
  · rfl
  · have hreturn : isBlank '\r' = true := by decide
    simp [isBlankLine, hreturn]

/-- Something holds where blank lines start, in lines that are read from `r` on. -/
def AtBlankLines (P : Reading → Prop) : Reading → List (List Char) → Prop
  | _, [] => True
  | r, l :: ls => (isBlankLine l = true → P r) ∧ AtBlankLines P (r.afterLine l) ls

instance decidableAtBlankLines {P : Reading → Prop} [DecidablePred P] :
    (r : Reading) → (ls : List (List Char)) → Decidable (AtBlankLines P r ls)
  | _, [] => inferInstanceAs (Decidable True)
  | r, l :: ls =>
    have := decidableAtBlankLines (P := P) (r.afterLine l) ls
    inferInstanceAs (Decidable (_ ∧ _))

theorem atBlankLines_sameLines {P : Reading → Prop} {ls ms : List (List Char)} (h : List.Forall₂ SameLine ls ms) :
    ∀ r : Reading, AtBlankLines P r ls ↔ AtBlankLines P r ms := by
  induction h with
  | nil => exact fun _ => Iff.rfl
  | cons h _ ih =>
    intro r
    rw [AtBlankLines, AtBlankLines, isBlankLine_sameLine h, r.afterLine_sameLine h, ih]

/-! ## Separators -/

/-- Lines are kept together if their blank lines are inside literals, by the count. -/
theorem markSeparators_append {ls : List (List Char)} (rest : List (List Char)) :
    ∀ {r : Reading}, AtBlankLines (·.inside = true) r ls →
      markSeparators r.inside (ls ++ rest) = ls.map some ++ markSeparators (r.afterLines ls).inside rest := by
  induction ls with
  | nil => exact fun _ => rfl
  | cons l ls ih =>
    rintro r ⟨hl, hls⟩
    have hkept : ¬(isBlankLine l && !r.inside) = true := by
      cases hblank : isBlankLine l with
      | false => simp
      | true => simp [hl hblank]
    rw [List.cons_append, markSeparators, if_neg hkept, ← r.inside_afterLine, ih hls]
    rfl

theorem markSeparators_blank (inside : Bool) (rest : List (List Char)) :
    markSeparators inside ([] :: rest) = (if inside then some [] else none) :: markSeparators inside rest := by
  cases inside <;> rfl

theorem markSeparators_blanks (inside : Bool) (rest : List (List Char)) : ∀ n : Nat,
    markSeparators inside (List.replicate n [] ++ rest) =
      List.replicate n (if inside then some [] else none) ++ markSeparators inside rest
  | 0 => rfl
  | n + 1 => by
    rw [List.replicate_succ, List.cons_append, markSeparators_blank, markSeparators_blanks inside rest n]
    rfl

/-- The first run of lines ends before a blank line or with the text. -/
theorem exists_front (inside : Bool) (ls : List (List Char)) : ∃ front back marks, front ++ back = ls ∧
    (∀ l ∈ back.head?, isBlankLine l = true) ∧ markSeparators inside ls = front.map some ++ marks ∧
      ∀ m ∈ marks.head?, m = none := by
  induction ls generalizing inside with
  | nil => exact ⟨[], [], [], rfl, nofun, rfl, nofun⟩
  | cons l ls ih =>
    rw [markSeparators]
    split
    · rename_i h
      rw [Bool.and_eq_true] at h
      exact ⟨[], l :: ls, _, rfl, fun m hm => by cases hm; exact h.1, rfl, fun m hm => by cases hm; rfl⟩
    · obtain ⟨front, back, marks, rfl, hback, hmarks, hnone⟩ := ih (inside != hasOddQuotes l)
      exact ⟨l :: front, back, marks, rfl, hback, by rw [hmarks]; rfl, hnone⟩

/-! ## Runs -/

theorem runs_cons {α : Type} (a : α) {as : List α} {ms : List (Option α)} {more : List (List α)}
    (h : runs ms = as :: more) (hhead : ∀ m ∈ ms.head?, m ≠ none) : runs (some a :: ms) = (a :: as) :: more := by
  rw [runs, h]
  rintro rest rfl
  exact hhead none rfl rfl

theorem exists_runs {α : Type} {ms : List (Option α)} (hms : ∀ m ∈ ms.head?, m = none) : ∀ {as : List α}, as ≠ [] →
    runs (as.map some ++ ms) = as :: runs ms
  | [], h => absurd rfl h
  | [a], _ => by
    rcases ms with _ | ⟨m, ms⟩
    · rfl
    · cases hms m rfl
      rfl
  | a :: b :: as, _ => runs_cons a (exists_runs hms (List.cons_ne_nil b as)) (by simp)

theorem runs_separators {α : Type} (ms : List (Option α)) (n : Nat) : runs (List.replicate n none ++ ms) = runs ms := by
  induction n with
  | zero => rfl
  | succ n ih => exact ih

/-! ## Joined queries -/

/-- The text with a line feed at its end. -/
def closed (cs : List Char) : List Char := if cs.getLast? = some '\n' then cs else cs ++ ['\n']

theorem closed_cases (cs : List Char) :
    (∃ ds, cs = ds ++ ['\n'] ∧ closed cs = cs) ∨ cs.getLast? ≠ some '\n' ∧ closed cs = cs ++ ['\n'] := by
  unfold closed
  split
  · rename_i h
    obtain ⟨ds, rfl⟩ := List.getLast?_eq_some_iff.1 h
    exact .inl ⟨ds, rfl, rfl⟩
  · rename_i h
    exact .inr ⟨h, rfl⟩

/-- A blank line between two texts, or two of them if the first text ends with a line break. -/
theorem lines_joined (cs ds : List Char) : ∃ n, lines (cs ++ '\n' :: '\n' :: ds) =
    lines (closed cs) ++ (List.replicate (n + 1) [] ++ lines ds) := by
  rcases closed_cases cs with ⟨as, rfl, h⟩ | ⟨-, h⟩
  · refine ⟨1, ?_⟩
    rw [h, List.append_assoc, List.singleton_append, lines_append_break]
    rfl
  · refine ⟨0, ?_⟩
    rw [h, lines_append_break]
    rfl

theorem sameLines_closed {cs : List Char} (h : cs ≠ []) : List.Forall₂ SameLine (lines (closed cs)) (lines cs) := by
  rcases closed_cases cs with ⟨-, -, heq⟩ | ⟨hlast, heq⟩
  · rw [heq]
    exact List.forall₂_same.2 fun l _ => .inl rfl
  · rw [heq]
    exact lines_append_feed h hlast

/-- Behind the lines of a query one is outside of everything. -/
theorem afterLines_closed {ts : List Token} {cs : List Char} (h : Layout ts cs) :
    Reading.start.afterLines (lines (closed cs)) = ⟨.code, (Reading.start.after cs).stray⟩ := by
  have hlines : Reading.start.afterLines (lines (closed cs)) = (Reading.start.after cs).next '\n' := by
    rcases closed_cases cs with ⟨ds, rfl, heq⟩ | ⟨-, heq⟩
    · rw [heq, Reading.afterLines_lines, Reading.after_append]
      exact (Reading.next_feed_feed _).symm
    · rw [heq, Reading.afterLines_lines]
  have hzone : (Reading.start.after cs).zone.next '\n' = .code := by
    rw [Reading.zone_after]
    show (Zone.code.after cs).next '\n' = .code
    rcases after_layout h with h | h <;> rw [h] <;> rfl
  rw [hlines, Reading.next, hzone]
  exact congrArg _ (Bool.bne_false _)

/-- The lines that a query has among those of a joined text: they are the query up to its line breaks. -/
structure IsBody (cs : List Char) (ls : List (List Char)) : Prop where
  layout : ∀ {ts : List Token}, Layout ts (List.intercalate ['\n'] ls) ↔ Layout ts (unix cs)
  same : List.Forall₂ SameLine ls (lines cs)

theorem isBody_lines (cs : List Char) : IsBody cs (lines cs) where
  layout := layout_lines_iff
  same := List.forall₂_same.2 fun _ _ => .inl rfl

theorem isBody_closed {cs : List Char} (hne : cs ≠ []) : IsBody cs (lines (closed cs)) where
  layout := by
    rcases closed_cases cs with ⟨-, -, heq⟩ | ⟨-, heq⟩
    · rw [heq]
      exact layout_lines_iff
    · rw [heq]
      exact layout_lines_iff.trans layout_unix_feed_iff
  same := sameLines_closed hne

/-! ## Runs of a joined text -/

theorem atBlankLines_inside {r : Reading} {ls : List (List Char)} (hz : AtBlankLines (·.zone = .literal) r ls)
    (hs : AtBlankLines (·.stray = false) r ls) : AtBlankLines (·.inside = true) r ls := by
  induction ls generalizing r with
  | nil => trivial
  | cons l ls ih =>
    exact ⟨fun hl => Reading.inside_of_literal (hz.1 hl) (hs.1 hl), ih hz.2 hs.2⟩

/-- The first blank line that stray apostrophes before it move out of its literal. -/
theorem exists_cut {ls : List (List Char)} : ∀ {r : Reading}, AtBlankLines (·.zone = .literal) r ls →
    ¬AtBlankLines (·.stray = false) r ls → ∃ front l back, ls = front ++ l :: back ∧ isBlankLine l = true ∧
      AtBlankLines (·.inside = true) r front ∧ r.afterLines front = ⟨.literal, true⟩ := by
  induction ls with
  | nil => exact fun _ h => absurd trivial h
  | cons l ls ih =>
    intro r hz hs
    by_cases hl : isBlankLine l = true ∧ r.stray = true
    · exact ⟨[], l, ls, rfl, hl.1, trivial, by rw [← hz.1 hl.1, ← hl.2]; rfl⟩
    · have heven : isBlankLine l = true → r.stray = false := fun hblank => by simpa [hblank] using hl
      obtain ⟨front, m, back, rfl, hm, hfront, hend⟩ := ih hz.2 fun h => hs ⟨heven, h⟩
      exact ⟨l :: front, m, back, rfl, hm, ⟨fun h => Reading.inside_of_literal (hz.1 h) (heven h), hfront⟩, hend⟩

/-- A blank line that is moved out of its literal cuts a query in two. -/
theorem runs_cut {ls : List (List Char)} (rest : List (List Char)) (hz : AtBlankLines (·.zone = .literal) .start ls)
    (hs : ¬AtBlankLines (·.stray = false) .start ls) : ∃ front more, front ≠ [] ∧
      runs (markSeparators false (ls ++ rest)) = front :: more ∧ (Reading.start.afterLines front).zone = .literal := by
  obtain ⟨front, l, back, rfl, hl, hfront, hend⟩ := exists_cut hz hs
  have hne : front ≠ [] := by
    rintro rfl
    cases hend
  have hmarks := markSeparators_append (l :: (back ++ rest)) hfront
  rw [hend, markSeparators, if_pos (by rw [hl]; rfl)] at hmarks
  have hruns := (congrArg runs hmarks).trans (exists_runs (fun m hm => by cases hm; rfl) hne)
  rw [← List.cons_append, ← List.append_assoc] at hruns
  exact ⟨front, _, hne, hruns, by rw [hend]⟩

/-- Lines with an even number of stray apostrophes are a run of their own before a blank line. -/
theorem runs_even {ls : List (List Char)} (n : Nat) (rest : List (List Char)) (hne : ls ≠ [])
    (h : AtBlankLines (·.inside = true) .start ls) (hend : (Reading.start.afterLines ls).inside = false) :
    runs (markSeparators false (ls ++ (List.replicate (n + 1) [] ++ rest))) =
      ls :: runs (markSeparators false rest) := by
  have hmarks := markSeparators_append (List.replicate (n + 1) [] ++ rest) h
  rw [hend, markSeparators_blanks] at hmarks
  refine (congrArg runs hmarks).trans ((exists_runs (fun m hm => by cases hm; rfl) hne).trans ?_)
  exact congrArg _ (runs_separators _ (n + 1))

/-- With an odd number they are in one run with what follows, up to a blank line there. -/
theorem runs_odd {ls : List (List Char)} (n : Nat) (rest : List (List Char)) (hne : ls ≠ [])
    (h : AtBlankLines (·.inside = true) .start ls) (hend : (Reading.start.afterLines ls).inside = true) :
    ∃ front back more, front ++ back = rest ∧ (∀ l ∈ back.head?, isBlankLine l = true) ∧
      runs (markSeparators false (ls ++ (List.replicate (n + 1) [] ++ rest))) =
        (ls ++ (List.replicate (n + 1) [] ++ front)) :: more := by
  obtain ⟨front, back, marks, hrest, hback, hfront, hnone⟩ := exists_front true rest
  have hmarks := markSeparators_append (List.replicate (n + 1) [] ++ rest) h
  rw [hend, markSeparators_blanks, hfront] at hmarks
  refine ⟨front, back, runs marks, hrest, hback, (congrArg runs hmarks).trans ?_⟩
  rw [← exists_runs hnone (by simp [hne])]
  simp

/-! ## Pieces that are no queries -/

/-- No text that ends inside a literal is a query. -/
theorem parse_ne_ok_of_literal {ls : List (List Char)} (hne : ls ≠ [])
    (h : (Reading.start.afterLines ls).zone = .literal) (e : Expr) : parse (joinLines ls) ≠ .ok e := by
  intro hparse
  obtain ⟨p, hp, -⟩ := parse_ok_iff.1 hparse
  rw [joinLines, String.toList_ofList] at hp
  obtain ⟨ts, -, hlayout⟩ := ofText_ok_iff.1 hp
  rw [Reading.afterLines_intercalate _ hne] at h
  have hzone : ((Reading.start.after (List.intercalate ['\n'] ls)).zone).next '\n' = .literal := h
  rw [Reading.zone_after] at hzone
  rcases after_layout hlayout with hend | hend
  · exact absurd ((congrArg (Zone.next · '\n') hend).symm.trans hzone) (by decide)
  · exact absurd ((congrArg (Zone.next · '\n') hend).symm.trans hzone) (by decide)

theorem head_from {ts : List Token} {cs : List Char} (h : Layout (.word "from" :: ts) cs) :
    ∃ c, c ∈ (skipGap false cs).head? ∧ c.toLower = 'f' := by
  obtain ⟨rest, h, -⟩ := h
  obtain ⟨w, mid, hskip, ⟨-, hw⟩, -⟩ := h.uncons
  obtain ⟨c, cs, rfl, hc⟩ := spellsWord_cons hw rfl
  exact ⟨c, by rw [hskip]; rfl, hc⟩

theorem skipGap_intercalate_cons {l : List Char} (h : skipGap false l = []) (ls : List (List Char)) :
    skipGap false (List.intercalate ['\n'] (l :: ls)) = skipGap false (List.intercalate ['\n'] ls) := by
  rcases ls with _ | ⟨m, ls⟩
  · rw [List.intercalate_singleton, h]
    rfl
  · have hgap := skipGap_gap (lastGap_of_skipGap h).feed (List.intercalate ['\n'] (m :: ls))
    rwa [intercalate_cons l (List.cons_ne_nil m ls), ← List.singleton_append, ← List.append_assoc]

theorem head_intercalate_cons {c : Char} {l : List Char} (h : c ∈ (skipGap false l).head?) (ls : List (List Char)) :
    c ∈ (skipGap false (List.intercalate ['\n'] (l :: ls))).head? := by
  rcases ls with _ | ⟨m, ls⟩
  · rwa [List.intercalate_singleton]
  · rw [intercalate_cons l (List.cons_ne_nil m ls)]
    exact head_skipGap_append (by decide) _ false l h

theorem skipGap_intercalate_blanks (ls : List (List Char)) : ∀ n : Nat,
    skipGap false (List.intercalate ['\n'] (List.replicate n [] ++ ls)) = skipGap false (List.intercalate ['\n'] ls)
  | 0 => rfl
  | n + 1 => (skipGap_intercalate_cons rfl (List.replicate n [] ++ ls)).trans (skipGap_intercalate_blanks ls n)

/-- A pipeline does not go on with another one behind a line break. -/
theorem ofText_ne_ok_of_from {p : Pipeline} {cs ds : List Char} {c : Char} (h : ofText cs = .ok p)
    (hc : c ∈ (skipGap false ds).head?) (hf : c.toLower = 'f') (q : Pipeline) : ofText (cs ++ '\n' :: ds) ≠ .ok q := by
  obtain ⟨ts, hs, rest, hlaid, hrest⟩ := ofText_ok_iff.1 h
  obtain ⟨w, rfl, -, -, hchange⟩ := hlaid.change
  have hhead := head_append_feed rest ds
  have hskip : skipGap false (rest ++ '\n' :: ds) = skipGap false ds := by
    have h := skipGap_gap hrest.feed ds
    rwa [List.append_assoc] at h
  have hends : EndsStep (rest ++ '\n' :: ds) := by
    refine ⟨fun d hd => ?_, fun d hd => ?_⟩
    · rcases hhead d hd with hd | hd
      · exact (endsStep_last hrest).1 d hd
      · exact endsValue_gap (.inl hd)
    · rw [hskip, Option.mem_def.1 hc] at hd
      cases hd
      refine ⟨?_, by rw [hf]; decide⟩
      rintro rfl
      exact absurd hf (by decide)
  have hbar : ∀ mid, skipGap false (rest ++ '\n' :: ds) ≠ '|' :: mid := by
    intro mid hmid
    rw [← hskip, hmid] at hc
    cases hc
    exact absurd hf (by decide)
  have hread := result_pipeline hs (hchange _ hhead) hends hbar
  intro hq
  obtain ⟨left, hq⟩ := ofText_eq_ok_iff.1 hq
  rw [List.append_assoc, result_program, hread, Option.bind_some, hskip] at hq
  split at hq
  · rename_i hnil
    rw [hnil] at hc
    cases hc
  · cases hq

/-- What comes first in a query comes first in every piece that starts with the query's first line, as the lines
before it are not blank. -/
theorem head_front {c : Char} {ls : List (List Char)} : ∀ {more front back : List (List Char)} {r : Reading},
    r.zone = .code → AtBlankLines (·.zone = .literal) r ls → front ++ back = ls ++ more →
      (∀ l ∈ back.head?, isBlankLine l = true) → c ∈ (skipGap false (List.intercalate ['\n'] ls)).head? →
        c ∈ (skipGap false (List.intercalate ['\n'] front)).head? := by
  induction ls with
  | nil =>
    intro _ _ _ _ _ _ _ _ hc
    cases hc
  | cons l ls ih =>
    intro more front back r hr hz heq hback hc
    rcases front with _ | ⟨m, front⟩
    · have hl : isBlankLine l = true := by
        rw [List.nil_append] at heq
        exact hback l (by rw [heq]; rfl)
      have hliteral : r.zone = .literal := hz.1 hl
      rw [hr] at hliteral
      cases hliteral
    · obtain ⟨rfl, hrest⟩ := List.cons.inj heq
      rcases hm : skipGap false m with _ | ⟨d, ds⟩
      · -- a line that is all gap is passed over, and the next one starts outside of everything again
        have hzone : (r.afterLine m).zone = .code := by
          show ((r.after m).zone).next '\n' = .code
          rw [r.zone_after, hr]
          rcases after_lastGap (lastGap_of_skipGap hm) with h | h <;> rw [h] <;> rfl
        rw [skipGap_intercalate_cons hm] at hc ⊢
        exact ih hzone hz.2 hrest hback hc
      · have hd : d ∈ (skipGap false m).head? := by rw [hm]; rfl
        have heq := Option.mem_unique hc (head_intercalate_cons hd ls)
        rw [heq]
        exact head_intercalate_cons hd front

/-! ## Queries among the runs -/

theorem toList_joined (q r : String) (qs : List String) : ("\n\n".intercalate (q :: r :: qs)).toList =
    q.toList ++ '\n' :: '\n' :: ("\n\n".intercalate (r :: qs)).toList := by
  rw [String.toList_intercalate, String.toList_intercalate, List.map_cons, List.map_cons, List.intercalate_cons_cons,
    List.append_assoc]
  rfl

theorem exists_layout {q : String} {e : Expr} (h : parse q = .ok e) :
    ∃ (p : Pipeline) (ts : List Token), StepsWritten p.steps ts ∧
      Layout (.word "from" :: .name p.entity :: ts) q.toList ∧ p.toExpr = .ok e := by
  obtain ⟨p, hp, he⟩ := parse_ok_iff.1 h
  obtain ⟨ts, hs, hlayout⟩ := ofText_ok_iff.1 hp
  exact ⟨p, ts, hs, hlayout, he⟩

theorem toList_ne_nil {q : String} {e : Expr} (h : parse q = .ok e) : q.toList ≠ [] := by
  intro hnil
  obtain ⟨_, _, -, hlayout, -⟩ := exists_layout h
  obtain ⟨c, hc, -⟩ := head_from hlayout
  rw [hnil] at hc
  cases hc

/-- A joined text starts with the lines of its first query. -/
theorem exists_body {q : String} {e : Expr} (h : parse q = .ok e) : ∀ qs : List String,
    ∃ ls more, lines ("\n\n".intercalate (q :: qs)).toList = ls ++ more ∧ IsBody q.toList ls
  | [] => by
    refine ⟨lines q.toList, [], ?_, isBody_lines _⟩
    rw [List.append_nil, String.toList_intercalate, List.map_singleton, List.intercalate_singleton]
  | r :: qs => by
    obtain ⟨n, hn⟩ := lines_joined q.toList ("\n\n".intercalate (r :: qs)).toList
    rw [toList_joined]
    exact ⟨_, _, hn, isBody_closed (toList_ne_nil h)⟩

namespace IsBody

variable {q : String} {e : Expr} {ls : List (List Char)}

theorem ne_nil (hbody : IsBody q.toList ls) (he : parse q = .ok e) : ls ≠ [] := by
  rintro rfl
  have hlines := List.forall₂_nil_left_iff.1 hbody.same
  exact toList_ne_nil he (lines_eq_nil.1 hlines)

theorem ofText_iff (hbody : IsBody q.toList ls) {p : Pipeline} :
    ofText (List.intercalate ['\n'] ls) = .ok p ↔ ofText (unix q.toList) = .ok p := by
  rw [ofText_ok_iff, ofText_ok_iff]
  exact exists_congr fun ts => and_congr_right fun _ => hbody.layout

/-- The lines of a query mean what it does if and only if it means the same with line feeds as line breaks. -/
theorem parse_eq_iff (hbody : IsBody q.toList ls) (he : parse q = .ok e) :
    parse (joinLines ls) = parse q ↔ parse (unixText q) = parse q := by
  rw [he, parse_ok_iff, parse_ok_iff, joinLines, String.toList_ofList, toList_unixText]
  exact exists_congr fun p => and_congr_left fun _ => hbody.ofText_iff

/-- The lines of a query are a pipeline, whatever line breaks the query has. -/
theorem exists_ofText (hbody : IsBody q.toList ls) (he : parse q = .ok e) :
    ∃ p, ofText (List.intercalate ['\n'] ls) = .ok p := by
  obtain ⟨p, hp, -⟩ := parse_ok_iff.1 he
  exact ⟨p.unixTexts, hbody.ofText_iff.2 (ofText_unix hp)⟩

/-- With an even number of stray apostrophes at every blank line, a query at the end of a text is found. -/
theorem map_runs_last (hbody : IsBody q.toList ls) (he : parse q = .ok e)
    (hz : AtBlankLines (·.zone = .literal) .start (lines q.toList))
    (hs : AtBlankLines (·.stray = false) .start (lines q.toList)) :
    (runs (markSeparators false ls)).map (parse ∘ joinLines) = [parse q] ↔ parse (unixText q) = parse q := by
  have hin := (atBlankLines_sameLines hbody.same _).2 (atBlankLines_inside hz hs)
  have hmarks := markSeparators_append [] hin
  rw [List.append_nil] at hmarks
  have hruns : runs (markSeparators false ls) = [ls] :=
    (congrArg runs hmarks).trans (exists_runs (fun m hm => by cases hm) (hbody.ne_nil he))
  rw [hruns, List.map_singleton, List.singleton_inj]
  exact hbody.parse_eq_iff he

/-- A query with an odd number of stray apostrophes at a blank line is not found. -/
theorem map_runs_cut (hbody : IsBody q.toList ls) (he : parse q = .ok e)
    (hz : AtBlankLines (·.zone = .literal) .start (lines q.toList))
    (hs : ¬AtBlankLines (·.stray = false) .start (lines q.toList)) (rest : List (List Char))
    (more : List (Except ParseError Expr)) :
    (runs (markSeparators false (ls ++ rest))).map (parse ∘ joinLines) ≠ parse q :: more := by
  have hsame := fun P => atBlankLines_sameLines (P := P) hbody.same .start
  obtain ⟨front, runs, hne, hruns, hend⟩ := runs_cut rest ((hsame _).2 hz) (fun h => hs ((hsame _).1 h))
  rw [hruns, List.map_cons]
  intro heq
  exact parse_ne_ok_of_literal hne hend e ((List.cons.inj heq).1.trans he)

end IsBody

section

variable {q : String} {e : Expr} (he : parse q = .ok e)
  (hz : AtBlankLines (·.zone = .literal) .start (lines q.toList))
  (hs : AtBlankLines (·.stray = false) .start (lines q.toList))

include he hz hs

/-- With an even number at its end too, a query is found before others. -/
theorem map_runs_joined_even (hend : (Reading.start.after q.toList).stray = false) (n : Nat)
    (rest : List (List Char)) (more : List (Except ParseError Expr)) :
    (runs (markSeparators false (lines (closed q.toList) ++ (List.replicate (n + 1) [] ++ rest)))).map
        (parse ∘ joinLines) = parse q :: more ↔
      parse (unixText q) = parse q ∧ (runs (markSeparators false rest)).map (parse ∘ joinLines) = more := by
  have hbody := isBody_closed (toList_ne_nil he)
  have hin := (atBlankLines_sameLines hbody.same _).2 (atBlankLines_inside hz hs)
  obtain ⟨_, _, -, hlayout, -⟩ := exists_layout he
  have hruns := runs_even n rest (hbody.ne_nil he) hin (by rw [afterLines_closed hlayout, hend]; rfl)
  rw [hruns, List.map_cons, List.cons.injEq, Function.comp_apply, hbody.parse_eq_iff he]

/-- A query with an odd number of stray apostrophes at its end is not found if another one follows. -/
theorem map_runs_joined_odd (hend : (Reading.start.after q.toList).stray = true) {r : String} {d : Expr}
    (hr : parse r = .ok d) (hrz : AtBlankLines (·.zone = .literal) .start (lines r.toList)) (n : Nat)
    (qs : List String) (more : List (Except ParseError Expr)) :
    (runs (markSeparators false (lines (closed q.toList) ++ (List.replicate (n + 1) [] ++
      lines ("\n\n".intercalate (r :: qs)).toList)))).map (parse ∘ joinLines) ≠ parse q :: more := by
  have hbody := isBody_closed (toList_ne_nil he)
  have hin := (atBlankLines_sameLines hbody.same _).2 (atBlankLines_inside hz hs)
  obtain ⟨_, _, -, hlayout, -⟩ := exists_layout he
  obtain ⟨p, hp⟩ := hbody.exists_ofText he
  -- the run goes on into the next query, far enough for its first word
  obtain ⟨ls, _, hls, hnext⟩ := exists_body hr qs
  obtain ⟨p', hp'⟩ := hnext.exists_ofText hr
  obtain ⟨_, -, hfirst⟩ := ofText_ok_iff.1 hp'
  obtain ⟨c, hc, hf⟩ := head_from hfirst
  obtain ⟨front, back, _, hfront, hback, hruns⟩ :=
    runs_odd n (lines ("\n\n".intercalate (r :: qs)).toList) (hbody.ne_nil he) hin
      (by rw [afterLines_closed hlayout, hend]; rfl)
  have hc := head_front rfl ((atBlankLines_sameLines hnext.same .start).2 hrz) (hfront.trans hls) hback hc
  rw [hruns, List.map_cons]
  intro heq
  obtain ⟨o, ho, -⟩ := parse_ok_iff.1 ((List.cons.inj heq).1.trans he)
  rw [joinLines, String.toList_ofList, intercalate_append (by simp) (hbody.ne_nil he)] at ho
  refine ofText_ne_ok_of_from hp ?_ hf o ho
  rw [skipGap_intercalate_blanks]
  exact hc

end

/-- Queries that are joined by blank lines are found again, each with its meaning, if and only if the stray
apostrophes are even in number at all blank lines inside of them and at their ends, save for the end of the last
one, and the queries mean the same with line feeds as line breaks. -/
theorem map_parse_splitQueries_iff {qs : List String} (hparse : ∀ q ∈ qs, ∃ e, parse q = .ok e)
    (hblank : ∀ q ∈ qs, AtBlankLines (·.zone = .literal) .start (lines q.toList)) :
    (splitQueries ("\n\n".intercalate qs)).map parse = qs.map parse ↔
      (∀ q ∈ qs, AtBlankLines (·.stray = false) .start (lines q.toList)) ∧
        (∀ q ∈ qs.dropLast, (Reading.start.after q.toList).stray = false) ∧
          ∀ q ∈ qs, parse (unixText q) = parse q := by
  unfold splitQueries
  rw [List.map_map]
  induction qs with
  | nil => simp [markSeparators, runs, lines]
  | cons q qs ih =>
    obtain ⟨e, he⟩ := hparse q List.mem_cons_self
    have hz := hblank q List.mem_cons_self
    have ih := ih (fun r hr => hparse r (List.mem_cons_of_mem q hr)) fun r hr => hblank r (List.mem_cons_of_mem q hr)
    by_cases hs : AtBlankLines (·.stray = false) .start (lines q.toList)
    · cases qs with
      | nil =>
        rw [String.toList_intercalate, List.map_singleton, List.intercalate_singleton]
        refine ((isBody_lines q.toList).map_runs_last he hz hs).trans ?_
        exact ⟨fun h => ⟨List.forall_mem_singleton.2 hs, by simp, List.forall_mem_singleton.2 h⟩,
          fun h => h.2.2 q List.mem_cons_self⟩
      | cons r qs =>
        obtain ⟨n, hn⟩ := lines_joined q.toList ("\n\n".intercalate (r :: qs)).toList
        rw [toList_joined, hn, List.map_cons]
        cases hend : (Reading.start.after q.toList).stray with
        | false =>
          rw [map_runs_joined_even he hz hs hend, ih, List.dropLast_cons_cons]
          constructor
          · rintro ⟨hq, hstray, hends, hunix⟩
            exact ⟨List.forall_mem_cons.2 ⟨hs, hstray⟩, List.forall_mem_cons.2 ⟨hend, hends⟩,
              List.forall_mem_cons.2 ⟨hq, hunix⟩⟩
          · rintro ⟨hstray, hends, hunix⟩
            obtain ⟨hq, hunix⟩ := List.forall_mem_cons.1 hunix
            exact ⟨hq, (List.forall_mem_cons.1 hstray).2, (List.forall_mem_cons.1 hends).2, hunix⟩
        | true =>
          obtain ⟨d, hr⟩ := hparse r (by simp)
          refine iff_of_false (map_runs_joined_odd he hz hs hend hr (hblank r (by simp)) n qs _) ?_
          rintro ⟨-, hends, -⟩
          have hq := hends q (by simp)
          rw [hend] at hq
          cases hq
    · obtain ⟨ls, more, hls, hbody⟩ := exists_body he qs
      rw [hls, List.map_cons]
      exact iff_of_false (hbody.map_runs_cut he hz hs more _) fun h => hs (h.1 q List.mem_cons_self)

/-- Stray apostrophes that are even in number do no harm, and neither does one in the last query or a line break
between tokens. One in the first query joins it with the second, and a return is lost from a literal. -/
theorem map_parse_splitQueries_iff_stray :
    (splitQueries "from Bug -- 'x'\r\n| where Title = 'a\n\n''b'\n\nfrom Task -- it's").map parse =
        ["from Bug -- 'x'\r\n| where Title = 'a\n\n''b'", "from Task -- it's"].map parse ∧
      (splitQueries "from Task -- it's\n\nfrom Bug").map parse ≠ ["from Task -- it's", "from Bug"].map parse ∧
      (splitQueries "from Bug | where Title = '\r\n'").map parse ≠ ["from Bug | where Title = '\r\n'"].map parse := by
  let titled (s : String) : Pipeline := ⟨"Bug", [.filter (.test (.name "Title") (.compare .equal) (.string s))]⟩
  let found (s : String) : Expr := .filter (Expr.table "Bug")
    (Expr.itLambda (.binary .equal (Expr.field "Title") (.constant (.string s))))
  have hmeans {q s : String} (h : ofText q.toList = .ok (titled s)) : parse q = .ok (found s) :=
    parse_ok_iff.2 ⟨titled s, h, rfl⟩
  have hplain {q n : String} (h : ofText q.toList = .ok ⟨n, []⟩) : parse q = .ok (Expr.table n) :=
    parse_ok_iff.2 ⟨⟨n, []⟩, h, rfl⟩
  have hbug : parse "from Bug -- 'x'\r\n| where Title = 'a\n\n''b'" = .ok (found "a\n\n'b") :=
    hmeans (by decide +kernel)
  have hbugUnix : parse (unixText "from Bug -- 'x'\r\n| where Title = 'a\n\n''b'") = .ok (found "a\n\n'b") :=
    hmeans (by decide +kernel)
  have htask : parse "from Task -- it's" = .ok (Expr.table "Task") := hplain (by decide +kernel)
  have htaskUnix : parse (unixText "from Task -- it's") = .ok (Expr.table "Task") := hplain (by decide +kernel)
  have hsecond : parse "from Bug" = .ok (Expr.table "Bug") := hplain (by decide +kernel)
  have hreturn : parse "from Bug | where Title = '\r\n'" = .ok (found "\r\n") := hmeans (by decide +kernel)
  have hfeed : parse (unixText "from Bug | where Title = '\r\n'") = .ok (found "\n") := hmeans (by decide +kernel)
  refine ⟨?_, fun h => ?_, fun h => ?_⟩
  · exact (map_parse_splitQueries_iff (List.forall_mem_cons.2 ⟨⟨_, hbug⟩, List.forall_mem_singleton.2 ⟨_, htask⟩⟩)
      (by decide +kernel)).2 ⟨by decide +kernel, by decide +kernel, List.forall_mem_cons.2
        ⟨hbugUnix.trans hbug.symm, List.forall_mem_singleton.2 (htaskUnix.trans htask.symm)⟩⟩
  · have hends := ((map_parse_splitQueries_iff
      (List.forall_mem_cons.2 ⟨⟨_, htask⟩, List.forall_mem_singleton.2 ⟨_, hsecond⟩⟩) (by decide +kernel)).1 h).2.1
    exact absurd hends (by decide +kernel)
  · have hsame := ((map_parse_splitQueries_iff (List.forall_mem_singleton.2 ⟨_, hreturn⟩) (by decide +kernel)).1 h).2.2
      _ List.mem_cons_self
    rw [hfeed, hreturn] at hsame
    simp [found, Expr.itLambda] at hsame

end WorkItemQuery.Batch
