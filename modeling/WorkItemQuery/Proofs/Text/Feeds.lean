/-
Line feeds in texts. Numbers and instants have none, a quoted text has those of the text inside, and JSON has none
at all. Texts that are each followed by a line feed have one line apiece if and only if there is none inside them.
-/
import WorkItemQuery.Proofs.Json.Text
import WorkItemQuery.Proofs.Text.Lines
import WorkItemQuery.Text.Scan
import WorkItemQuery.Time.Timestamp

namespace WorkItemQuery.Text

open Number Time

/-- Whether a text holds a line feed. -/
def HasFeed (s : String) : Prop := '\n' ∈ s.toList

instance (s : String) : Decidable (HasFeed s) := inferInstanceAs (Decidable ('\n' ∈ s.toList))

/-- Whether one of some texts holds a line feed. -/
def AnyFeed (ss : List String) : Prop := ∃ s ∈ ss, HasFeed s

@[simp] theorem anyFeed_nil : ¬AnyFeed [] := nofun

@[simp] theorem anyFeed_cons (s : String) (ss : List String) : AnyFeed (s :: ss) ↔ HasFeed s ∨ AnyFeed ss := by
  simp [AnyFeed]

@[simp] theorem anyFeed_append (ss ts : List String) : AnyFeed (ss ++ ts) ↔ AnyFeed ss ∨ AnyFeed ts := by
  simp [AnyFeed, or_and_right, exists_or]

@[simp] theorem hasFeed_append (s t : String) : HasFeed (s ++ t) ↔ HasFeed s ∨ HasFeed t := by
  simp [HasFeed]

theorem hasFeed_intercalate {separator : String} (h : ¬HasFeed separator) : ∀ ss : List String,
    HasFeed (separator.intercalate ss) ↔ AnyFeed ss
  | [] => by simp [HasFeed]
  | [s] => by simp [String.intercalate_singleton]
  | s :: t :: ss => by
    rw [String.intercalate_cons_cons, hasFeed_append, hasFeed_append, hasFeed_intercalate h (t :: ss), anyFeed_cons]
    simp [h]

/-! ## Numbers, instants and quoted texts -/

theorem feed_not_mem_digitsOf (n : Nat) : '\n' ∉ digitsOf n := fun h =>
  absurd (isDigit_of_mem_digitsOf h) (by decide)

theorem feed_not_mem_padded (width n : Nat) : '\n' ∉ padded width n := fun h =>
  absurd (isDigit_of_mem_padded h) (by decide)

theorem not_hasFeed_intText (i : Int) : ¬HasFeed (intText i) := by
  unfold intText
  split <;> simp [HasFeed, feed_not_mem_digitsOf]

theorem not_hasFeed_positional (d : Decimal) : ¬HasFeed d.positional := by
  have hzeros (n : Nat) : '\n' ∉ List.replicate n '0' := fun h => absurd (List.eq_of_mem_replicate h) (by decide)
  have hfull (n : Nat) : '\n' ∉ List.replicate n '0' ++ digitsOf d.digits := by
    simp [hzeros, feed_not_mem_digitsOf]
  have htake (n k : Nat) : '\n' ∉ (List.replicate n '0' ++ digitsOf d.digits).take k := fun h =>
    hfull n (List.mem_of_mem_take h)
  have hdrop (n k : Nat) : '\n' ∉ (List.replicate n '0' ++ digitsOf d.digits).drop k := fun h =>
    hfull n (List.mem_of_mem_drop h)
  unfold HasFeed Decimal.positional
  rw [String.toList_ofList]
  split <;> split <;> simp [hzeros, feed_not_mem_digitsOf, htake, hdrop]

theorem not_hasFeed_double (d : Double) : ¬HasFeed d.text := by
  unfold Double.text
  split
  · exact not_hasFeed_positional d.shortest
  · split
    · decide
    · split <;> decide

theorem feed_not_mem_yearChars (year : Int) : '\n' ∉ Date.yearChars year := by
  unfold Date.yearChars
  split
  · exact feed_not_mem_padded 4 year.natAbs
  · split <;> simp [feed_not_mem_padded]

theorem not_hasFeed_statementText (t : Timestamp) : ¬HasFeed t.statementText := by
  simp [HasFeed, Timestamp.statementText, Date.chars, Timestamp.clockChars, Timestamp.millisChars,
    feed_not_mem_padded, feed_not_mem_yearChars]

theorem feed_mem_double (cs : List Char) : '\n' ∈ double cs ↔ '\n' ∈ cs := by
  induction cs with
  | nil => rfl
  | cons c cs ih =>
    rw [double]
    split
    · rename_i hc
      simp [hc, ih]
    · simp [ih]

@[simp] theorem hasFeed_quote (s : String) : HasFeed (quote s) ↔ HasFeed s := by
  simp [HasFeed, quote, quoteChars, feed_mem_double]

/-! ## JSON -/

theorem feed_not_mem_escapeChar (c : Char) : '\n' ∉ Json.escapeChar c := by
  have hhex : ∀ n < 16, Json.hexDigit n ≠ '\n' := by decide
  rcases Json.escapeChar_cases c with ⟨e, hchar, -, he⟩ | ⟨hlow, hchar⟩ | ⟨hchar, -, -, hlow⟩
  · have hne : e ≠ '\n' := by
      rintro rfl
      cases he
    simp [hchar, hne.symm]
  · have hhigh := hhex (c.toNat / 16) (by omega)
    have hrest := hhex (c.toNat % 16) (by omega)
    simp [hchar, hhigh.symm, hrest.symm]
  · have hne : c ≠ '\n' := by
      rintro rfl
      exact hlow (by decide)
    simp [hchar, hne.symm]

theorem not_hasFeed_stringText (s : String) : ¬HasFeed (Json.stringText s) := by
  simp [HasFeed, Json.stringText, feed_not_mem_escapeChar]

mutual

/-- The text of a JSON value is one line: line feeds in its strings are escaped. -/
theorem not_hasFeed_json : ∀ j : Json, ¬HasFeed j.text
  | .null => by rw [Json.text]; decide
  | .bool b => by rw [Json.text]; split <;> decide
  | .int i => by rw [Json.text]; exact not_hasFeed_intText i
  | .decimal d => by rw [Json.text]; exact not_hasFeed_positional d
  | .string s => by rw [Json.text]; exact not_hasFeed_stringText s
  | .array items => by
    rw [Json.text, hasFeed_append, hasFeed_append, hasFeed_intercalate (by decide)]
    have hopen : ¬HasFeed "[" := by decide
    have hclose : ¬HasFeed "]" := by decide
    simp [hopen, hclose, not_anyFeed_items items]
  | .object members => by
    rw [Json.text, hasFeed_append, hasFeed_append, hasFeed_intercalate (by decide)]
    have hopen : ¬HasFeed "\x7b" := by decide
    have hclose : ¬HasFeed "\x7d" := by decide
    simp [hopen, hclose, not_anyFeed_members members]

theorem not_anyFeed_items : ∀ items : List Json, ¬AnyFeed (Json.textOfItems items)
  | [] => by simp [Json.textOfItems]
  | j :: items => by simp [Json.textOfItems, not_hasFeed_json j, not_anyFeed_items items]

theorem not_anyFeed_members : ∀ members : List (String × Json), ¬AnyFeed (Json.textOfMembers members)
  | [] => by simp [Json.textOfMembers]
  | (name, j) :: members => by
    have hcolon : ¬HasFeed ":" := by decide
    simp [Json.textOfMembers, hcolon, not_hasFeed_stringText name, not_hasFeed_json j, not_anyFeed_members members]

end

/-! ## Texts on lines of their own -/

/-- Whether a text ends in a character that a line feed after it cannot join. -/
def EndsFirm (s : String) : Prop := ∃ c ∈ s.toList.getLast?, c ≠ '\r'

theorem EndsFirm.append {t : String} (h : EndsFirm t) (s : String) : EndsFirm (s ++ t) := by
  obtain ⟨c, hc, hne⟩ := h
  refine ⟨c, ?_, hne⟩
  rw [String.toList_append, List.getLast?_append, Option.mem_def.1 hc]
  rfl

theorem endsFirm_intercalate {separator : String} : ∀ {ss : List String}, ss ≠ [] → (∀ s ∈ ss, EndsFirm s) →
    EndsFirm (separator.intercalate ss)
  | [s], _, h => by simpa [String.intercalate_singleton] using h s List.mem_cons_self
  | s :: t :: ss, _, h => by
    rw [String.intercalate_cons_cons]
    exact (endsFirm_intercalate (List.cons_ne_nil t ss) fun u hu => h u (List.mem_cons_of_mem s hu)).append _

theorem length_lines_feed (cs : List Char) : (lines (cs ++ ['\n'])).length = cs.count '\n' + 1 := by
  induction cs using line_induction with
  | nil => rfl
  | feed cs ih =>
    show (lines (cs ++ ['\n'])).length + 1 = _
    rw [ih, List.count_cons_self]
  | pair cs ih =>
    rw [List.count_cons_of_ne (by decide), ← ih]
    rfl
  | char c cs hc hr ih =>
    rw [List.count_cons_of_ne hc]
    rcases lines_char hc hr [] with ⟨rfl, rfl⟩ | h
    · rfl
    · rw [h, List.length_cons, List.length_tail, ih]
      rfl

theorem lines_feed {cs : List Char} (hfeed : '\n' ∉ cs) (hlast : cs.getLast? ≠ some '\r') :
    lines (cs ++ ['\n']) = [cs] := by
  induction cs with
  | nil => rfl
  | cons c cs ih =>
    rw [List.mem_cons, not_or] at hfeed
    have hr : c = '\r' → (cs ++ ['\n']).head? ≠ some '\n' := by
      rintro rfl
      rcases cs with _ | ⟨d, cs⟩
      · exact absurd rfl hlast
      · exact fun h => hfeed.2 (List.mem_of_head? h)
    have hrest : cs.getLast? ≠ some '\r' := by
      rcases cs with _ | ⟨d, cs⟩
      · exact nofun
      · rwa [List.getLast?_cons_cons] at hlast
    rw [List.cons_append, lines_cons (fun h => hfeed.1 h.symm) hr, ih hfeed.2 hrest]
    rfl

/-- The lines of texts that are each followed by a line feed. -/
theorem lines_join (ss : List String) :
    lines (String.join (ss.map (· ++ "\n"))).toList = ss.flatMap fun s => lines (s.toList ++ ['\n']) := by
  induction ss with
  | nil => rfl
  | cons s ss ih =>
    rw [List.map_cons, String.join_cons, String.toList_append, String.toList_append, List.append_assoc,
      List.flatMap_cons, ← ih]
    exact lines_append_break s.toList _

/-- There is a line for every text, and one more for every line feed inside a text. -/
theorem length_lines_join (ss : List String) :
    (lines (String.join (ss.map (· ++ "\n"))).toList).length =
      ss.length + (ss.flatMap String.toList).count '\n' := by
  rw [lines_join]
  induction ss with
  | nil => rfl
  | cons s ss ih =>
    rw [List.flatMap_cons, List.flatMap_cons, List.length_append, List.count_append, List.length_cons, ih,
      length_lines_feed]
    omega

/-- Texts with a firm end have one line apiece if and only if none of them holds a line feed. -/
theorem lines_join_eq_iff {ss : List String} (hfirm : ∀ s ∈ ss, EndsFirm s) :
    lines (String.join (ss.map (· ++ "\n"))).toList = ss.map String.toList ↔ ¬AnyFeed ss := by
  constructor
  · rintro h ⟨s, hs, hfeed⟩
    -- a line feed inside would make a line too many
    have hlength := congrArg List.length h
    rw [length_lines_join, List.length_map] at hlength
    have hzero : (ss.flatMap String.toList).count '\n' = 0 := by omega
    exact List.count_eq_zero.1 hzero (List.mem_flatMap.2 ⟨s, hs, hfeed⟩)
  · intro h
    rw [lines_join]
    induction ss with
    | nil => rfl
    | cons s ss ih =>
      rw [anyFeed_cons, not_or] at h
      obtain ⟨c, hc, hne⟩ := hfirm s List.mem_cons_self
      have hlast : s.toList.getLast? ≠ some '\r' := by
        rw [Option.mem_def.1 hc]
        exact fun h => hne (Option.some.inj h)
      rw [List.flatMap_cons, lines_feed h.1 hlast, ih (fun t ht => hfirm t (List.mem_cons_of_mem s ht)) h.2]
      rfl

end WorkItemQuery.Text
