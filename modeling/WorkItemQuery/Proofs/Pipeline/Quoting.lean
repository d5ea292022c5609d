/-
Strings cannot be broken out of. The grammar reads a string in two stages. It takes an apostrophe, then pairs of
apostrophes and other characters as long as there are any, then an apostrophe; and of what stands inside, each pair,
from left to right, is replaced by one apostrophe. Quoting goes the other way and replaces each apostrophe by a pair.
The two are inverse: a quoted text is taken whole and gives the text back, whatever follows it, so long as that is not
an apostrophe; and whatever is taken is the quoted form of the text that it gives.
-/
import WorkItemQuery.Proofs.Pipeline.Accepted

namespace WorkItemQuery.Text

/-- Reading goes on as long as it can, so no apostrophe is left behind a quoted text. -/
theorem head_of_readQuotedInside {cs s rest : List Char} (h : readQuotedInside cs = some (s, rest)) :
    rest.head? ≠ some '\'' := by
  fun_induction readQuotedInside cs generalizing s with
  | case1 => cases h
  | case2 cs ih | case4 c cs _ _ ih =>
    obtain ⟨⟨t, last⟩, ht, heq⟩ := Option.map_eq_some_iff.1 h
    cases heq
    exact ih ht
  | case3 cs hnext =>
    cases h
    intro hhead
    obtain ⟨more, rfl⟩ := List.head?_eq_some_iff.1 hhead
    exact hnext more rfl

theorem head_of_readQuoted {cs rest : List Char} {s : String} (h : readQuoted cs = some (s, rest)) :
    rest.head? ≠ some '\'' := by
  unfold readQuoted at h
  split at h
  · obtain ⟨⟨t, last⟩, ht, heq⟩ := Option.map_eq_some_iff.1 h
    cases heq
    exact head_of_readQuotedInside ht
  · cases h

/-! ## Replacement -/

/-- A text with each occurrence of a pattern replaced, from left to right; an occurrence that overlaps with one that
is replaced does not count. A pattern is not empty: it is given by its first character and the others. -/
def replaceAll (first : Char) (others new : List Char) : List Char → List Char
  | [] => []
  | c :: cs =>
    if c = first ∧ others <+: cs then new ++ replaceAll first others new (cs.drop others.length)
    else c :: replaceAll first others new cs
termination_by cs => cs.length

/-- The text with a pair of apostrophes in place of each apostrophe is the inside of its quoted form. -/
theorem replaceAll_quote (cs : List Char) : replaceAll '\'' [] ['\'', '\''] cs = double cs := by
  induction cs with
  | nil => rw [replaceAll, double]
  | cons c cs ih =>
    rw [replaceAll, double]
    by_cases hc : c = '\'' <;> simp [hc, ih]

theorem replaceAll_pair_cons (cs : List Char) :
    replaceAll '\'' ['\''] ['\''] ('\'' :: '\'' :: cs) = '\'' :: replaceAll '\'' ['\''] ['\''] cs := by
  rw [replaceAll]
  simp

theorem replaceAll_other_cons {c : Char} (hc : c ≠ '\'') (cs : List Char) :
    replaceAll '\'' ['\''] ['\''] (c :: cs) = c :: replaceAll '\'' ['\''] ['\''] cs := by
  rw [replaceAll]
  simp [hc]

/-- No pair that quoting makes is missed, and none is found across two of them. -/
theorem replaceAll_double (cs : List Char) : replaceAll '\'' ['\''] ['\''] (double cs) = cs := by
  induction cs with
  | nil => rw [double, replaceAll]
  | cons c cs ih =>
    rw [double]
    split
    · rename_i hc
      rw [replaceAll_pair_cons, ih, hc]
    · rename_i hc
      rw [replaceAll_other_cons hc, ih]

end WorkItemQuery.Text

namespace WorkItemQuery.Pipeline

open Rule WorkItemQuery.Text

/-! ## Rules that report no misses -/

namespace Rule

variable {α β : Type}

/-- A rule that never reports a miss. -/
def IsSilent (p : Rule α) : Prop := ∀ cs, (p cs).miss = none

namespace IsSilent

theorem ofScan (scan : List Char → Option (α × List Char)) : IsSilent (Rule.ofScan scan) := fun _ => rfl

theorem pure (a : α) : IsSilent (Pure.pure a) := fun _ => rfl

theorem bind {p : Rule α} {f : α → Rule β} (hp : IsSilent p) (hf : ∀ a, IsSilent (f a)) : IsSilent (p >>= f) := by
  intro cs
  show (andThen p f cs).miss = none
  unfold andThen
  rcases hcs : p cs with ⟨miss, _ | ⟨a, rest⟩⟩
  · simpa [hcs] using hp cs
  · obtain rfl : miss = none := by simpa [hcs] using hp cs
    exact hf a rest

theorem orElse {p q : Rule α} (hp : IsSilent p) (hq : IsSilent q) : IsSilent (p <|> q) := by
  intro cs
  show (Rule.orElse p (fun _ => q) cs).miss = none
  unfold Rule.orElse
  rcases hcs : p cs with ⟨miss, _ | r⟩
  · obtain rfl : miss = none := by simpa [hcs] using hp cs
    exact hq cs
  · simpa [hcs] using hp cs

theorem many {p : Rule α} (hp : IsSilent p) : IsSilent (Rule.many p) := by
  intro cs
  fun_induction Rule.many p cs with
  | case1 cs miss hcs => simpa [hcs] using hp cs
  | case2 cs miss a rest hcs hlt reply ih =>
    obtain rfl : miss = none := by simpa [hcs] using hp cs
    exact ih
  | case3 cs miss a rest hcs hlt => simpa [hcs] using hp cs

end IsSilent

theorem ext_of_isSilent {p q : Rule α} (hp : IsSilent p) (hq : IsSilent q) (h : ∀ cs, (p cs).result = (q cs).result) :
    p = q := by
  funext cs
  have hmiss : (p cs).miss = (q cs).miss := (hp cs).trans (hq cs).symm
  rcases hpc : p cs with ⟨miss, r⟩
  rcases hqc : q cs with ⟨miss', r'⟩
  have hresult := h cs
  rw [hpc, hqc] at hmiss hresult
  cases hmiss
  cases hresult
  rfl

end Rule

/-! ## A string in two stages -/

/-- A pair of apostrophes, or one other character. -/
def stringPart : Rule (List Char) :=
  (do symbol '\''; symbol '\''; pure ['\'', '\'']) <|> ofScan fun
    | c :: rest => if c = '\'' then none else some ([c], rest)
    | [] => none

/-- The parts of a string, as many as there are. -/
def stringParts : Rule (List (List Char)) := many stringPart

/-- What follows the opening apostrophe of a string: the inside, and the closing apostrophe. -/
def stringInside : Rule (List Char) := do
  let parts ← stringParts
  symbol '\''
  pure parts.flatten

/-- A string as it is written; gives what stands between the apostrophes around it. -/
def writtenString : Rule (List Char) := do
  symbol '\''
  stringInside

/-- The text that the inside of a string stands for. -/
def insideText (inside : List Char) : String := String.ofList (replaceAll '\'' ['\''] ['\''] inside)

theorem insideText_double (s : String) : insideText (double s.toList) = s := by
  rw [insideText, replaceAll_double, String.ofList_toList]

/-- A part is taken off the front, and the inside goes on behind it. -/
theorem result_stringInside_part {cs rest part : List Char} (h : (stringPart cs).result = some (part, rest))
    (hlt : rest.length < cs.length) :
    (stringInside cs).result = (stringInside rest).result.map fun r => (part ++ r.1, r.2) := by
  have hparts : (stringParts cs).result = (stringParts rest).result.map fun r => (part :: r.1, r.2) :=
    result_many_some h hlt
  unfold stringInside
  rw [result_bind, result_bind, hparts]
  rcases (stringParts rest).result with _ | ⟨parts, last⟩
  · rfl
  · simp only [Option.map_some, Option.bind_some, result_bind, result_pure, List.flatten_cons]
    cases (symbol '\'' last).result <;> rfl

/-- Without a part to take off, the inside ends here or nowhere. -/
theorem result_stringInside_end {cs : List Char} (h : (stringPart cs).result = none) :
    (stringInside cs).result = (symbol '\'' cs).result.map fun r => ([], r.2) := by
  have hparts : (stringParts cs).result = some ([], cs) := result_many_none h
  unfold stringInside
  rw [result_bind, hparts]
  simp only [Option.bind_some, result_bind, result_pure, List.flatten_nil]
  cases (symbol '\'' cs).result <;> rfl

/-- The rule for the inside takes what reading on takes, and leaves the apostrophes doubled. -/
theorem result_stringInside (cs : List Char) :
    (stringInside cs).result = (readQuotedInside cs).map fun r => (double r.1, r.2) := by
  fun_induction readQuotedInside cs with
  | case1 => rw [result_stringInside_end rfl]; rfl
  | case2 rest ih =>
    have hpart : (stringPart ('\'' :: '\'' :: rest)).result = some (['\'', '\''], rest) := rfl
    rw [result_stringInside_part hpart (by simp only [List.length_cons]; omega), ih]
    cases readQuotedInside rest <;> simp [double]
  | case3 rest hnext =>
    have hpart : (stringPart ('\'' :: rest)).result = none := by
      cases rest with
      | nil => rfl
      | cons c rest =>
        have hc : c ≠ '\'' := fun hc => hnext rest (by rw [hc])
        simp [stringPart, hc]
    rw [result_stringInside_end hpart]
    rfl
  | case4 c rest hpair hc ih =>
    replace hc : c ≠ '\'' := hc
    have hpart : (stringPart (c :: rest)).result = some ([c], rest) := by
      simp [stringPart, hc]
    rw [result_stringInside_part hpart (by simp), ih]
    cases readQuotedInside rest <;> simp [double, hc]

theorem result_writtenString (cs : List Char) :
    (writtenString cs).result = (readQuoted cs).map fun r => (double r.1.toList, r.2) := by
  unfold writtenString readQuoted
  rw [result_bind]
  split
  · rename_i rest
    rw [result_symbol_self, Option.bind_some, result_stringInside]
    cases readQuotedInside rest <;> simp
  · rename_i hcs
    have hsymbol : (symbol '\'' cs).result = none := by
      cases cs with
      | nil => rfl
      | cons c rest => exact result_symbol_ne (fun hc => hcs rest (by rw [hc])) rest
    rw [hsymbol]
    rfl

/-- The rule for strings, with its two stages apart. -/
theorem string_eq : string = named (insideText <$> writtenString) := by
  have hsymbol : IsSilent (symbol '\'') := .ofScan _
  have hpart : IsSilent stringPart :=
    .orElse (hsymbol.bind fun _ => hsymbol.bind fun _ => .pure _) (.ofScan _)
  have hwritten : IsSilent writtenString :=
    hsymbol.bind fun _ => hpart.many.bind fun _ => hsymbol.bind fun _ => .pure _
  have hstages : ofScan readQuoted = insideText <$> writtenString := by
    refine ext_of_isSilent (.ofScan _) (hwritten.bind fun _ => .pure _) fun cs => ?_
    rw [result_ofScan, result_map, result_writtenString, Option.map_map]
    cases readQuoted cs <;> simp [insideText_double]
  unfold string lexeme
  rw [hstages]

/-! ## Both ways -/

theorem result_string_iff {cs rest : List Char} {s : String} :
    (string cs).result = some (s, rest) ↔ cs = (quote s).toList ++ rest ∧ rest.head? ≠ some '\'' := by
  rw [result_string, quote, String.toList_ofList]
  constructor
  · intro h
    exact ⟨readQuoted_some h, head_of_readQuoted h⟩
  · rintro ⟨rfl, hrest⟩
    exact readQuoted_quoteChars fun c hc heq => hrest (by rw [← heq]; exact hc)

theorem result_writtenString_iff {cs inside rest : List Char} :
    (writtenString cs).result = some (inside, rest) ↔
      ∃ s, (string cs).result = some (s, rest) ∧ inside = double s.toList := by
  rw [result_writtenString, result_string, Option.map_eq_some_iff, Prod.exists]
  constructor
  · rintro ⟨s, last, hread, heq⟩
    cases heq
    exact ⟨s, hread, rfl⟩
  · rintro ⟨s, hread, rfl⟩
    exact ⟨s, rest, hread, rfl⟩

/-- Quoting and the rule for strings are inverse. The rule takes a text off the front exactly if the quoted form of the
text stands there and no apostrophe follows, and what the first stage takes is the quoted form of what the second stage
makes of it. -/
theorem string_iff_quote (cs inside rest : List Char) (s : String) :
    string = named (insideText <$> writtenString) ∧
    (quote s).toList = '\'' :: replaceAll '\'' [] ['\'', '\''] s.toList ++ ['\''] ∧
    ((string cs).result = some (s, rest) ↔ cs = (quote s).toList ++ rest ∧ rest.head? ≠ some '\'') ∧
    ((writtenString cs).result = some (inside, rest) ↔
      cs = '\'' :: inside ++ '\'' :: rest ∧ (quote (insideText inside)).toList = '\'' :: inside ++ ['\''] ∧
        rest.head? ≠ some '\'') := by
  refine ⟨string_eq, ?_, result_string_iff, ?_⟩
  · rw [replaceAll_quote, quote, quoteChars, String.toList_ofList]
  rw [result_writtenString_iff]
  constructor
  · rintro ⟨t, ht, rfl⟩
    obtain ⟨rfl, hrest⟩ := result_string_iff.1 ht
    simp [quote, quoteChars, insideText_double, hrest]
  · rintro ⟨rfl, hquote, hrest⟩
    refine ⟨insideText inside, result_string_iff.2 ⟨?_, hrest⟩, ?_⟩
    · simp [hquote]
    · simpa [quote, quoteChars] using hquote.symm

/-- A text that tries to end the string it stands in is read back as it is, with the rest of the query behind it. -/
example :
    let text := "' or Title <> ''"
    (string ((quote text).toList ++ " | asof '2024-06-01'".toList)).result =
      some (text, " | asof '2024-06-01'".toList) := by
  decide

end WorkItemQuery.Pipeline
