/-
The layout of pipeline text. A text is a list of tokens written out with gaps before them. A token
leaves its writer some freedom: words may be in any letter case, and the words of one operator may
have any blanks between them. Gaps are made of blanks and comments and may be empty, save where a
word or a name would run into what follows.

Reading a token off its layout takes the gap before it and the token, and nothing else.
-/
import WorkItemQuery.Pipeline.Grammar

namespace WorkItemQuery.Pipeline

open WorkItemQuery.Text

/-! ## Gaps -/

/-- Blanks and comments before a token. A comment ends with its line. -/
inductive Gap : List Char → Prop
  | nil : Gap []
  | blank {c : Char} {g : List Char} : isSpace c = true → Gap g → Gap (c :: g)
  | comment {t g : List Char} : '\n' ∉ t → Gap g → Gap ('-' :: '-' :: (t ++ '\n' :: g))

/-- Blanks and comments after the last token. The last line of a text may be a comment. -/
inductive LastGap : List Char → Prop
  | gap {g : List Char} : Gap g → LastGap g
  | comment {g t : List Char} : Gap g → '\n' ∉ t → LastGap (g ++ '-' :: '-' :: t)

theorem skipGap_comment (rest : List Char) : ∀ t : List Char, '\n' ∉ t →
    skipGap true (t ++ '\n' :: rest) = skipGap false rest
  | [], _ => by simp [skipGap]
  | c :: t, h => by
    rw [List.mem_cons, not_or] at h
    rw [List.cons_append, skipGap, if_neg (Ne.symm h.1)]
    exact skipGap_comment rest t h.2

theorem skipGap_last_comment : ∀ t : List Char, '\n' ∉ t → skipGap true t = []
  | [], _ => rfl
  | c :: t, h => by
    rw [List.mem_cons, not_or] at h
    rw [skipGap, if_neg (Ne.symm h.1)]
    exact skipGap_last_comment t h.2

theorem isSpace_iff {c : Char} : isSpace c = true ↔ c = ' ' ∨ c = '\t' ∨ c = '\r' ∨ c = '\n' := by
  simp [isSpace, or_assoc]

theorem skipGap_blank {c : Char} (h : isSpace c = true) (rest : List Char) :
    skipGap false (c :: rest) = skipGap false rest := by
  rcases isSpace_iff.1 h with rfl | rfl | rfl | rfl <;> simp [skipGap, isSpace]

/-- A gap is passed over. -/
theorem skipGap_gap {g : List Char} (h : Gap g) (rest : List Char) :
    skipGap false (g ++ rest) = skipGap false rest := by
  induction h with
  | nil => rfl
  | blank hc _ ih => rw [List.cons_append, skipGap_blank hc, ih]
  | @comment t g ht _ ih =>
    rw [List.cons_append, List.cons_append, List.append_assoc, List.cons_append, skipGap,
      skipGap_comment _ t ht, ih]

theorem skipGap_last {cs : List Char} (h : LastGap cs) : skipGap false cs = [] := by
  cases h with
  | gap hg => simpa [skipGap] using skipGap_gap hg []
  | comment hg ht => rw [skipGap_gap hg, skipGap, skipGap_last_comment _ ht]

theorem gap_blanks : ∀ {b : List Char}, (∀ c ∈ b, isSpace c = true) → Gap b
  | [], _ => .nil
  | c :: _, h => .blank (h c List.mem_cons_self) (gap_blanks fun d hd => h d (List.mem_cons_of_mem c hd))

theorem gap_append {g h : List Char} (hg : Gap g) (hh : Gap h) : Gap (g ++ h) := by
  induction hg with
  | nil => exact hh
  | blank hc _ ih => exact .blank hc ih
  | comment ht _ ih => simpa using Gap.comment ht ih

/-- A gap starts with a blank or a hyphen. -/
theorem gap_head {g rest : List Char} (h : Gap g) {c : Char} (hc : c ∈ (g ++ rest).head?) :
    isSpace c = true ∨ c = '-' ∨ c ∈ rest.head? := by
  cases h with
  | nil => exact .inr (.inr hc)
  | blank hs _ => cases hc; exact .inl hs
  | comment _ _ => cases hc; exact .inr (.inl rfl)

/-- After the blanks that a gap starts with there comes a comment or what follows the gap. -/
theorem gap_dropWhile {g rest : List Char} (h : Gap g) (hr : ∀ c ∈ rest.head?, isSpace c = false) {c : Char}
    (hc : c ∈ ((g ++ rest).dropWhile isSpace).head?) : c = '-' ∨ c ∈ rest.head? := by
  induction h with
  | nil =>
    rcases rest with _ | ⟨d, rest⟩
    · cases hc
    · rw [List.nil_append, List.dropWhile_cons_of_neg (by simp [hr d rfl])] at hc
      exact .inr hc
  | blank hs _ ih =>
    rw [List.cons_append, List.dropWhile_cons_of_pos hs] at hc
    exact ih hc
  | comment _ _ =>
    rw [List.cons_append, List.dropWhile_cons_of_neg (by decide)] at hc
    cases hc; exact .inl rfl

/-! ## Tokens -/

/-- A test of all items of a list goes through the list, and not through all values of their type. -/
scoped instance (priority := high) decidableForallMem {α : Type} (p : α → Prop) [DecidablePred p] (l : List α) :
    Decidable (∀ a ∈ l, p a) := List.decidableBAll p l

/-- A letter or an underscore, then letters, digits, underscores and points. -/
def IsNameChars : List Char → Prop
  | [] => False
  | c :: cs => (isLetter c || c == '_') = true ∧ ∀ x ∈ cs, isInName x = true

instance : (cs : List Char) → Decidable (IsNameChars cs)
  | [] => inferInstanceAs (Decidable False)
  | _ :: _ => inferInstanceAs (Decidable (_ ∧ _))

/-- A text that is a name. -/
def IsName (n : String) : Prop := IsNameChars n.toList

instance (n : String) : Decidable (IsName n) := inferInstanceAs (Decidable (IsNameChars _))

/-- A text that can stand between brackets. -/
def IsKey (k : String) : Prop := k.toList ≠ [] ∧ ']' ∉ k.toList

instance (k : String) : Decidable (IsKey k) := inferInstanceAs (Decidable (_ ∧ _))

/-- A number that can be written: digits, at least one of them before the point. -/
structure IsNumber (n : NumberText) : Prop where
  some_digit : n.whole ≠ []
  whole : ∀ c ∈ n.whole, Scan.isDigit c = true
  fraction : ∀ c ∈ n.fraction, Scan.isDigit c = true

/-- The signs of a comparison. -/
def comparisonSigns : BinaryOp → List String
  | .equal => ["="]
  | .notEqual => ["<>", "!="]
  | .lessThan => ["<"]
  | .lessThanOrEqual => ["<="]
  | .greaterThan => [">"]
  | .greaterThanOrEqual => [">="]
  | _ => []

/-- The words of an operator that only work item queries have. -/
def operatorWords : DomainOp → List String
  | .isIn => ["in"]
  | .under => ["under"]
  | .wasEver => ["ever"]
  | .contains => ["contains"]
  | .inGroup => ["in", "group"]
  | .notInGroup => ["not", "in", "group"]

/-- The pieces of pipeline text, by what they mean. -/
inductive Token where
  /-- A word of the language, given in small letters. -/
  | word (w : String)
  | sign (c : Char)
  | comparison (op : BinaryOp)
  | operator (op : DomainOp)
  | name (n : String)
  | key (k : String)
  | number (n : NumberText)
  | string (s : String)
  /-- A string with the word `date` before it. -/
  | date (s : String)

/-- The letters of a word, each small or capital. -/
def SpellsWord (w : String) (cs : List Char) : Prop := cs.map Char.toLower = w.toList

instance (w : String) (cs : List Char) : Decidable (SpellsWord w cs) := inferInstanceAs (Decidable (_ = _))

/-- Words with blanks between them. -/
def SpellsWords : List String → List Char → Prop
  | [], cs => cs = []
  | [w], cs => SpellsWord w cs
  | w :: ws, cs => ∃ a b rest : List Char, cs = a ++ b ++ rest ∧ SpellsWord w a ∧
      b ≠ [] ∧ (∀ c ∈ b, isSpace c = true) ∧ SpellsWords ws rest

/-- The words of the language other than those of its operators. -/
def keywords : List String :=
  ["from", "select", "where", "order", "by", "asof", "and", "or", "not", "asc", "desc", "null"]

/-- The signs of the language other than those of comparisons. -/
def signs : List Char := ['|', ',', '(', ')', '*']

namespace Token

/-- The ways to write a token. -/
def Spelled : Token → List Char → Prop
  | word w, cs => w ∈ keywords ∧ SpellsWord w cs
  | sign c, cs => c ∈ signs ∧ cs = [c]
  | comparison op, cs => ∃ s ∈ comparisonSigns op, cs = s.toList
  | operator op, cs => SpellsWords (operatorWords op) cs
  | name n, cs => IsName n ∧ cs = n.toList
  | key k, cs => IsKey k ∧ cs = '[' :: (k.toList ++ [']'])
  | number n, cs => IsNumber n ∧ cs = n.chars
  | string s, cs => cs = quoteChars s.toList
  | date s, cs => ∃ w : List Char, SpellsWord "date" w ∧ cs = w ++ quoteChars s.toList

/-- Whether there is a way to write a token: words and signs must be those of the language, names, keys and
numbers must look like it. -/
def Spellable (t : Token) : Prop := ∃ w, t.Spelled w

/-- Whether a token may stand right before the given text: words and names must not run into it. -/
def Apart : Token → List Char → Prop
  | word _, cs | operator _, cs => ∀ c ∈ cs.head?, isNameChar c = false
  | name _, cs => ∀ c ∈ cs.head?, isInName c = false
  | _, _ => True

end Token

/-! ## Layout -/

/-- A text starts with the given tokens, each after a gap, and goes on with `rest`. -/
inductive Laid : List Token → List Char → List Char → Prop
  | nil {rest : List Char} : Laid [] rest rest
  | cons {t : Token} {ts : List Token} {g w cs rest : List Char} : Gap g → t.Spelled w → t.Apart cs →
      Laid ts cs rest → Laid (t :: ts) (g ++ w ++ cs) rest

/-- A whole text made of the given tokens. -/
def Layout (ts : List Token) (cs : List Char) : Prop := ∃ rest, Laid ts cs rest ∧ LastGap rest

namespace Laid

theorem append {ts us : List Token} {cs mid rest : List Char} (h : Laid ts cs mid) (h' : Laid us mid rest) :
    Laid (ts ++ us) cs rest := by
  induction h with
  | nil => exact h'
  | cons hg hw ha _ ih => exact .cons hg hw ha (ih h')

theorem of_append {us : List Token} {rest : List Char} : ∀ {ts : List Token} {cs : List Char},
    Laid (ts ++ us) cs rest → ∃ mid, Laid ts cs mid ∧ Laid us mid rest
  | [], cs, h => ⟨cs, .nil, h⟩
  | t :: ts, _, .cons hg hw ha h => by
    obtain ⟨mid, h1, h2⟩ := of_append h
    exact ⟨mid, .cons hg hw ha h1, h2⟩

/-- A gap before the first token may be longer. -/
theorem gap_append {t : Token} {ts : List Token} {g cs rest : List Char} (hg : Gap g)
    (h : Laid (t :: ts) cs rest) : Laid (t :: ts) (g ++ cs) rest := by
  cases h with
  | cons hg' hw ha h =>
    rw [← List.append_assoc, ← List.append_assoc]
    exact .cons (Pipeline.gap_append hg hg') hw ha h

end Laid

theorem Token.apart_blank {cs : List Char} (h : ∀ c ∈ cs.head?, c = ' ') (t : Token) : t.Apart cs := by
  cases t with
  | word _ | operator _ | name _ => intro c hc; rw [h c hc]; decide
  | _ => trivial

/-- Tokens that can be written can be laid out, with a blank before each of them. -/
theorem exists_layout {ts : List Token} (h : ∀ t ∈ ts, t.Spellable) : ∃ cs, Layout ts cs := by
  suffices hlaid : ∃ cs, Laid ts cs [] ∧ ∀ c ∈ cs.head?, c = ' ' by
    obtain ⟨cs, hcs, -⟩ := hlaid
    exact ⟨cs, [], hcs, .gap .nil⟩
  induction ts with
  | nil => exact ⟨[], .nil, by simp⟩
  | cons t ts ih =>
    obtain ⟨w, hw⟩ := h t List.mem_cons_self
    obtain ⟨cs, hcs, hblank⟩ := ih fun u hu => h u (List.mem_cons_of_mem t hu)
    exact ⟨[' '] ++ w ++ cs, .cons (.blank rfl .nil) hw (t.apart_blank hblank) hcs, by simp⟩

end WorkItemQuery.Pipeline
