/-
The lines of a text. Joined with line feeds they are the text again, with every line break written as
a line feed and without the line break that may stand at its end. A line feed inside a text splits its
lines in two: those that end before it, and those of what follows.
-/
import Mathlib.Data.List.Forall2
import WorkItemQuery.Text.Lines

namespace WorkItemQuery.Text

/-- The text with all its line breaks written as line feeds. -/
def unix : List Char → List Char
  | [] => []
  | c :: cs => if c = '\r' ∧ cs.head? = some '\n' then unix cs else c :: unix cs

def unixText (s : String) : String := String.ofList (unix s.toList)

@[simp] theorem toList_unixText (s : String) : (unixText s).toList = unix s.toList := String.toList_ofList

/-- The text without the line feed at its end. -/
def dropBreak : List Char → List Char
  | [] => []
  | c :: cs => if c = '\n' ∧ cs = [] then [] else c :: dropBreak cs

theorem dropBreak_eq (cs : List Char) : dropBreak cs = cs ∨ cs = dropBreak cs ++ ['\n'] := by
  induction cs with
  | nil => exact .inl rfl
  | cons c cs ih =>
    rw [dropBreak]
    split
    · rename_i h
      rw [h.1, h.2]
      exact .inr rfl
    · rcases ih with ih | ih
      · exact .inl (by rw [ih])
      · exact .inr (by rw [List.cons_append, ← ih])

/-! ## Line breaks as line feeds -/

theorem unix_cons {c : Char} {cs : List Char} (h : c = '\r' → cs.head? ≠ some '\n') :
    unix (c :: cs) = c :: unix cs := by
  rw [unix, if_neg fun hc => h hc.1 hc.2]

theorem unix_feed (cs : List Char) : unix ('\n' :: cs) = '\n' :: unix cs := unix_cons fun h => absurd h (by decide)

theorem unix_break (cs : List Char) : unix ('\r' :: '\n' :: cs) = unix ('\n' :: cs) := by
  rw [unix, if_pos ⟨rfl, rfl⟩]

theorem unix_of_not_mem {cs : List Char} (h : '\n' ∉ cs) : unix cs = cs := by
  induction cs with
  | nil => rfl
  | cons c cs ih =>
    rw [List.mem_cons, not_or] at h
    rw [unix_cons fun _ hhead => h.2 (List.mem_of_head? hhead), ih h.2]

theorem unix_append {as bs : List Char} (h : as.getLast? = some '\r' → bs.head? ≠ some '\n') :
    unix (as ++ bs) = unix as ++ unix bs := by
  induction as with
  | nil => rfl
  | cons a as ih =>
    cases as with
    | nil =>
      have ha : unix [a] = [a] := unix_cons fun _ => nofun
      rw [ha, List.singleton_append, unix_cons fun ha => h (by rw [ha]; rfl), List.singleton_append]
    | cons b as =>
      rw [List.getLast?_cons_cons] at h
      have hhead : (b :: as ++ bs).head? = (b :: as).head? := rfl
      rw [List.cons_append, unix.eq_2 a (b :: as ++ bs), unix.eq_2 a (b :: as), ih h, hhead]
      split <;> rfl

theorem head_unix {cs : List Char} {c : Char} (h : c ∈ (unix cs).head?) : c ∈ cs.head? ∨ c = '\n' := by
  rcases cs with _ | ⟨d, cs⟩
  · exact .inl h
  · by_cases hd : d = '\r' ∧ cs.head? = some '\n'
    · obtain ⟨rfl, hcs⟩ := hd
      obtain ⟨cs, rfl⟩ := List.head?_eq_some_iff.1 hcs
      rw [unix_break, unix_feed] at h
      cases h
      exact .inr rfl
    · rw [unix, if_neg hd] at h
      exact .inl h

theorem unix_eq_nil {cs : List Char} : unix cs = [] ↔ cs = [] := by
  refine ⟨fun h => ?_, fun h => by rw [h, unix]⟩
  rcases cs with _ | ⟨c, cs⟩
  · rfl
  · rw [unix] at h
    split at h
    · rename_i hc
      obtain ⟨cs, rfl⟩ := List.head?_eq_some_iff.1 hc.2
      rw [unix_feed] at h
      cases h
    · cases h

/-! ## Lines -/

theorem lines_cons {c : Char} {cs : List Char} (hc : c ≠ '\n') (hr : c = '\r' → cs.head? ≠ some '\n') :
    lines (c :: cs) = (c :: (lines cs).headD []) :: (lines cs).tail := by
  rw [lines]
  · split <;> rename_i h <;> rw [h] <;> rfl
  · exact hc
  · rintro cs rfl rfl
    exact hr rfl rfl

theorem lines_eq_nil {cs : List Char} : lines cs = [] ↔ cs = [] := by
  refine ⟨fun h => ?_, fun h => by rw [h, lines]⟩
  fun_cases lines cs <;> simp_all [lines]

theorem intercalate_cons {ls : List (List Char)} (l : List Char) (h : ls ≠ []) :
    List.intercalate ['\n'] (l :: ls) = l ++ '\n' :: List.intercalate ['\n'] ls := by
  obtain ⟨m, ls, rfl⟩ := List.exists_cons_of_ne_nil h
  rw [List.intercalate_cons_cons, List.append_assoc, List.singleton_append]

theorem intercalate_append {ls ms : List (List Char)} (hms : ms ≠ []) (hls : ls ≠ []) :
    List.intercalate ['\n'] (ls ++ ms) = List.intercalate ['\n'] ls ++ '\n' :: List.intercalate ['\n'] ms := by
  induction ls with
  | nil => exact absurd rfl hls
  | cons l ls ih =>
    rw [List.cons_append, intercalate_cons l (by simp [hms])]
    rcases ls with _ | ⟨m, ls⟩
    · rw [List.nil_append, List.intercalate_singleton]
    · rw [ih (List.cons_ne_nil m ls), intercalate_cons l (List.cons_ne_nil m ls), List.append_assoc, List.cons_append]

theorem intercalate_head (c : Char) (ls : List (List Char)) :
    List.intercalate ['\n'] ((c :: ls.headD []) :: ls.tail) = c :: List.intercalate ['\n'] ls := by
  rcases ls with _ | ⟨l, _ | ⟨m, ls⟩⟩ <;> rfl

theorem intercalate_break (cs : List Char) (ih : List.intercalate ['\n'] (lines cs) = dropBreak (unix cs)) :
    List.intercalate ['\n'] ([] :: lines cs) = dropBreak (unix ('\n' :: cs)) := by
  rw [unix_feed, dropBreak]
  by_cases hcs : cs = []
  · rw [if_pos ⟨rfl, unix_eq_nil.2 hcs⟩, lines_eq_nil.2 hcs]
    rfl
  · rw [if_neg fun h => hcs (unix_eq_nil.1 h.2), intercalate_cons [] fun h => hcs (lines_eq_nil.1 h), ih]
    rfl

/-- Texts by their lines: a text is empty, starts with a line break or starts with a character of a line. -/
@[elab_as_elim]
theorem line_induction {P : List Char → Prop} (nil : P []) (feed : ∀ cs, P cs → P ('\n' :: cs))
    (pair : ∀ cs, P ('\n' :: cs) → P ('\r' :: '\n' :: cs))
    (char : ∀ c cs, c ≠ '\n' → (c = '\r' → cs.head? ≠ some '\n') → P cs → P (c :: cs)) : ∀ cs, P cs
  | [] => nil
  | c :: cs => by
    have ih := line_induction nil feed pair char cs
    by_cases hc : c = '\n'
    · exact hc ▸ feed cs ih
    · by_cases hr : c = '\r' ∧ cs.head? = some '\n'
      · obtain ⟨rfl, hr⟩ := hr
        obtain ⟨cs, rfl⟩ := List.head?_eq_some_iff.1 hr
        exact pair cs ih
      · exact char c cs hc (fun h h' => hr ⟨h, h'⟩) ih

/-- The lines of a text, joined again. -/
theorem intercalate_lines (cs : List Char) : List.intercalate ['\n'] (lines cs) = dropBreak (unix cs) := by
  induction cs using line_induction with
  | nil => rfl
  | feed cs ih => exact intercalate_break cs ih
  | pair cs ih =>
    rw [unix_break]
    exact ih
  | char c cs hc hr ih => rw [lines_cons hc hr, intercalate_head, ih, unix_cons hr, dropBreak, if_neg fun h => hc h.1]

/-- The first line before a line feed, character by character. A return is no character of it if it is the last. -/
theorem lines_char {c : Char} {cs : List Char} (hc : c ≠ '\n') (hr : c = '\r' → cs.head? ≠ some '\n') (ds : List Char) :
    (c = '\r' ∧ cs = []) ∨ lines (c :: cs ++ '\n' :: ds) =
      (c :: (lines (cs ++ '\n' :: ds)).headD []) :: (lines (cs ++ '\n' :: ds)).tail := by
  by_cases hcs : c = '\r' ∧ cs = []
  · exact .inl hcs
  · refine .inr (lines_cons hc fun h => ?_)
    obtain ⟨d, cs, rfl⟩ := List.exists_cons_of_ne_nil fun h' => hcs ⟨h, h'⟩
    exact hr h

theorem lines_feed_ne_nil (cs : List Char) : lines (cs ++ ['\n']) ≠ [] := by
  simp [lines_eq_nil]

/-- The lines of two texts with a line feed between them. -/
theorem lines_append_break (as bs : List Char) :
    lines (as ++ '\n' :: bs) = lines (as ++ ['\n']) ++ lines bs := by
  induction as using line_induction with
  | nil => rfl
  | feed as ih =>
    show [] :: lines (as ++ '\n' :: bs) = [] :: lines (as ++ ['\n']) ++ lines bs
    rw [ih, List.cons_append]
  | pair as ih => exact ih
  | char c as hc hr ih =>
    rcases lines_char hc hr bs with ⟨rfl, rfl⟩ | hbs
    · rfl
    · rcases lines_char hc hr [] with ⟨rfl, rfl⟩ | hnil
      · rfl
      · obtain ⟨l, ls, hls⟩ := List.exists_cons_of_ne_nil (lines_feed_ne_nil as)
        rw [hbs, hnil, ih, hls]
        rfl

/-- Two forms of one line: a carriage return at the end of a text belongs to its last line until a line feed
follows. -/
def SameLine (l m : List Char) : Prop := m = l ∨ m = l ++ ['\r']

theorem sameLines_cons {ls ms : List (List Char)} (c : Char) (h : List.Forall₂ SameLine ls ms) :
    List.Forall₂ SameLine ((c :: ls.headD []) :: ls.tail) ((c :: ms.headD []) :: ms.tail) := by
  cases h with
  | nil => exact .cons (.inl rfl) .nil
  | cons h hs =>
    rcases h with rfl | rfl
    · exact .cons (.inl rfl) hs
    · exact .cons (.inr rfl) hs

theorem lines_append_feed {cs : List Char} (hcs : cs ≠ []) (hlast : cs.getLast? ≠ some '\n') :
    List.Forall₂ SameLine (lines (cs ++ ['\n'])) (lines cs) := by
  induction cs using line_induction with
  | nil => exact absurd rfl hcs
  | feed cs ih =>
    rcases cs with _ | ⟨d, cs⟩
    · exact absurd rfl hlast
    · rw [List.getLast?_cons_cons] at hlast
      exact .cons (.inl rfl) (ih (List.cons_ne_nil d cs) hlast)
  | pair cs ih =>
    rw [List.getLast?_cons_cons] at hlast
    exact ih (List.cons_ne_nil _ cs) hlast
  | char c cs hc hr ih =>
    rcases cs with _ | ⟨d, cs⟩
    · by_cases hret : c = '\r'
      · rw [hret]
        exact .cons (.inr rfl) .nil
      · rw [List.singleton_append, lines_cons hc fun h => absurd h hret, lines_cons hc fun h => absurd h hret]
        exact .cons (.inl rfl) .nil
    · rw [List.getLast?_cons_cons] at hlast
      have ih := ih (List.cons_ne_nil d cs) hlast
      have hfeed : c = '\r' → (d :: cs ++ ['\n']).head? ≠ some '\n' := hr
      rw [List.cons_append, lines_cons hc hfeed, lines_cons hc hr]
      exact sameLines_cons c ih

theorem feed_not_mem_line (cs : List Char) : ∀ l ∈ lines cs, '\n' ∉ l := by
  induction cs using line_induction with
  | nil => exact nofun
  | feed cs ih => exact List.forall_mem_cons.2 ⟨List.not_mem_nil, ih⟩
  | pair cs ih => exact ih
  | char c cs hc hr ih =>
    rw [lines_cons hc hr]
    rcases hcs : lines cs with _ | ⟨l, ls⟩
    · exact List.forall_mem_singleton.2 (by simpa using hc.symm)
    · rw [hcs, List.forall_mem_cons] at ih
      exact List.forall_mem_cons.2 ⟨by simpa using ⟨hc.symm, ih.1⟩, ih.2⟩

theorem lines_of_not_mem {l : List Char} (hl : '\n' ∉ l) (hne : l ≠ []) : lines l = [l] := by
  induction l with
  | nil => exact absurd rfl hne
  | cons c cs ih =>
    rw [List.mem_cons, not_or] at hl
    rw [lines_cons (Ne.symm hl.1) fun _ hhead => hl.2 (List.mem_of_head? hhead)]
    by_cases hcs : cs = []
    · rw [hcs, lines]
      rfl
    · rw [ih hl.2 hcs]
      rfl

end WorkItemQuery.Text
