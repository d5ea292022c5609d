/-
Splitting a text parts its lines. A line separates queries if it is blank and the lines before it hold an even number of
apostrophes. The queries are the longest runs of the other lines, in their order: each of these lines is in exactly one
run. A run starts with a line that is not blank, and holds an even number of apostrophes unless it is the last one.
-/
import WorkItemQuery.Proofs.Batch.Split

namespace WorkItemQuery.Batch

open Text

/-- The line at an index separates queries. -/
def IsSeparator (ls : List (List Char)) (k : Nat) : Prop :=
  (∃ l, ls[k]? = some l ∧ isBlankLine l = true) ∧ (ls.take k).flatten.count '\'' % 2 = 0

/-- From `i` up to `j` there is a longest run of indices below `n` that do not separate. -/
structure IsRun (separates : Nat → Prop) (n i j : Nat) : Prop where
  nonempty : i < j
  le : j ≤ n
  kept : ∀ k, i ≤ k → k < j → ¬separates k
  starts : i = 0 ∨ separates (i - 1)
  ends : j = n ∨ separates j

namespace IsRun

variable {separates : Nat → Prop} {n i j i' j' k : Nat}

theorem exists_end (h : IsRun separates n i j) : ∃ k, j = k + 1 := ⟨j - 1, by have hlt := h.nonempty; omega⟩

/-- No run starts inside another one. -/
theorem start_le (h : IsRun separates n i j) (h' : IsRun separates n i' j') (hk : k < j) (hk' : i' ≤ k) : i' ≤ i := by
  by_contra hlt
  rcases h'.starts with hzero | hsep
  · omega
  · exact h.kept (i' - 1) (by omega) (by omega) hsep

/-- No run ends inside another one. -/
theorem end_le (h : IsRun separates n i j) (h' : IsRun separates n i' j') (hk : i ≤ k) (hk' : k < j') : j ≤ j' := by
  by_contra hlt
  rcases h'.ends with hlast | hsep
  · have hle := h.le
    omega
  · exact h.kept j' (by omega) (by omega) hsep

/-- No index is in two runs. -/
theorem unique (h : IsRun separates n i j) (h' : IsRun separates n i' j') (hk : i ≤ k ∧ k < j)
    (hk' : i' ≤ k ∧ k < j') : i = i' ∧ j = j' :=
  ⟨Nat.le_antisymm (h'.start_le h hk'.2 hk.1) (h.start_le h' hk.2 hk'.1),
    Nat.le_antisymm (h.end_le h' hk.1 hk'.2) (h'.end_le h hk'.1 hk.2)⟩

end IsRun

/-! ## Runs between marks -/

section

variable {α : Type}

/-- The value at an index has been replaced. -/
def IsGap (ms : List (Option α)) (k : Nat) : Prop := ms[k]? = some none

/-- One place further on. -/
def later (s : Nat × Nat) : Nat × Nat := (s.1 + 1, s.2 + 1)

/-- Where the runs between the gaps begin and end. -/
def spans : List (Option α) → List (Nat × Nat)
  | [] => []
  | none :: rest => (spans rest).map later
  | some _ :: rest =>
    match spans rest with
    | (0, j) :: more => (0, j + 1) :: more.map later
    | more => (0, 1) :: more.map later

theorem isGap_succ (m : Option α) (rest : List (Option α)) (k : Nat) : IsGap (m :: rest) (k + 1) ↔ IsGap rest k := by
  rw [IsGap, IsGap, List.getElem?_cons_succ]

theorem isGap_zero (m : Option α) (rest : List (Option α)) : IsGap (m :: rest) 0 ↔ m = none := by
  rw [IsGap, List.getElem?_cons_zero, Option.some_inj]

theorem isRun_succ {m : Option α} {rest : List (Option α)} {n i j : Nat} :
    IsRun (IsGap (m :: rest)) (n + 1) (i + 1) (j + 1) ↔ IsRun (IsGap rest) n i j ∧ (i = 0 → m = none) := by
  constructor
  · intro h
    refine ⟨⟨Nat.lt_of_succ_lt_succ h.nonempty, Nat.le_of_succ_le_succ h.le, fun k hi hj => ?_, ?_, ?_⟩, ?_⟩
    · have hkept := h.kept (k + 1) (by omega) (by omega)
      rwa [isGap_succ] at hkept
    · rcases h.starts with hzero | hsep
      · omega
      · cases i with
        | zero => exact .inl rfl
        | succ i => exact .inr ((isGap_succ m rest i).1 hsep)
    · exact h.ends.imp Nat.succ.inj (isGap_succ m rest j).1
    · rintro rfl
      exact (isGap_zero m rest).1 (h.starts.resolve_left (Nat.succ_ne_zero 0))
  · rintro ⟨h, hfirst⟩
    refine ⟨Nat.succ_lt_succ h.nonempty, Nat.succ_le_succ h.le, fun k hi hj => ?_, .inr ?_, ?_⟩
    · obtain ⟨k, rfl⟩ : ∃ l, k = l + 1 := ⟨k - 1, by omega⟩
      rw [isGap_succ]
      exact h.kept k (by omega) (by omega)
    · cases i with
      | zero => exact (isGap_zero m rest).2 (hfirst rfl)
      | succ i => exact (isGap_succ m rest i).2 (h.starts.resolve_left (Nat.succ_ne_zero i))
    · exact h.ends.imp (congrArg Nat.succ) (isGap_succ m rest j).2

/-- A run at the front goes on as long as what follows does. -/
theorem isRun_zero {m : Option α} {rest : List (Option α)} {n j : Nat} :
    IsRun (IsGap (m :: rest)) (n + 1) 0 (j + 1) ↔
      m ≠ none ∧ (IsRun (IsGap rest) n 0 j ∨ j = 0 ∧ (n = 0 ∨ IsGap rest 0)) := by
  constructor
  · intro h
    refine ⟨fun hm => h.kept 0 (Nat.le_refl 0) h.nonempty ((isGap_zero m rest).2 hm), ?_⟩
    have hends : j = n ∨ IsGap rest j := h.ends.imp Nat.succ.inj (isGap_succ m rest j).1
    cases j with
    | zero => exact .inr ⟨rfl, hends.imp Eq.symm id⟩
    | succ j =>
      refine .inl ⟨Nat.succ_pos j, Nat.le_of_succ_le_succ h.le, fun k _ hj => ?_, .inl rfl, hends⟩
      have hkept := h.kept (k + 1) (by omega) (by omega)
      rwa [isGap_succ] at hkept
  · rintro ⟨hm, hrest⟩
    have hkept : (∀ k, k < j → ¬IsGap rest k) → ∀ k, 0 ≤ k → k < j + 1 → ¬IsGap (m :: rest) k := by
      intro hrest k _ hj
      cases k with
      | zero => rwa [isGap_zero]
      | succ k =>
        rw [isGap_succ]
        exact hrest k (by omega)
    rcases hrest with h | ⟨rfl, hends⟩
    · exact ⟨Nat.succ_pos j, Nat.succ_le_succ h.le, hkept fun k => h.kept k (Nat.zero_le k), .inl rfl,
        h.ends.imp (congrArg Nat.succ) (isGap_succ m rest j).2⟩
    · exact ⟨Nat.one_pos, Nat.succ_le_succ (Nat.zero_le n), hkept fun k hk => absurd hk (Nat.not_lt_zero k), .inl rfl,
        hends.imp (fun h => by rw [h]) (isGap_succ m rest 0).2⟩

theorem mem_map_later {l : List (Nat × Nat)} {i j : Nat} :
    (i, j) ∈ l.map later ↔ ∃ i' j', i = i' + 1 ∧ j = j' + 1 ∧ (i', j') ∈ l := by
  rw [List.mem_map]
  constructor
  · rintro ⟨⟨i', j'⟩, h, heq⟩
    cases heq
    exact ⟨i', j', rfl, rfl, h⟩
  · rintro ⟨i', j', rfl, rfl, h⟩
    exact ⟨(i', j'), h, rfl⟩

/-- A value extends the run that starts right behind it, or is a run of its own. -/
theorem exists_spans_some (a : α) {rest : List (Option α)} (h : (spans rest).Pairwise fun s t => s.2 < t.1) :
    ∃ j more, spans (some a :: rest) = (0, j + 1) :: more.map later ∧ (∀ s ∈ more, j < s.1) ∧
      (spans rest = (0, j) :: more ∨ j = 0 ∧ spans rest = more) := by
  rw [spans]
  split
  · rename_i j more heq
    rw [heq, List.pairwise_cons] at h
    exact ⟨j, more, rfl, h.1, .inl heq⟩
  · rename_i hzero
    refine ⟨0, spans rest, rfl, fun s hs => ?_, .inr ⟨rfl, rfl⟩⟩
    rcases heq : spans rest with _ | ⟨⟨i, j⟩, more⟩
    · rw [heq] at hs
      cases hs
    · rw [heq, List.pairwise_cons] at h
      rw [heq, List.mem_cons] at hs
      rcases hs with rfl | hs
      · exact Nat.pos_of_ne_zero fun hi => hzero j more (heq.trans (by rw [show i = 0 from hi]))
      · exact Nat.zero_lt_of_lt (h.1 s hs)

/-- The runs follow each other, with gaps between them. -/
theorem pairwise_spans : ∀ ms : List (Option α), (spans ms).Pairwise fun s t => s.2 < t.1
  | [] => .nil
  | none :: rest => List.pairwise_map.2 ((pairwise_spans rest).imp Nat.succ_lt_succ)
  | some a :: rest => by
    have ih := pairwise_spans rest
    obtain ⟨j, more, heq, hfirst, hrest⟩ := exists_spans_some a ih
    have hmore : more.Pairwise fun s t => s.2 < t.1 := by
      rcases hrest with hrest | ⟨-, hrest⟩
      · rw [hrest] at ih
        exact ih.of_cons
      · rwa [hrest] at ih
    rw [heq, List.pairwise_cons]
    refine ⟨fun s hs => ?_, List.pairwise_map.2 (hmore.imp Nat.succ_lt_succ)⟩
    obtain ⟨t, ht, rfl⟩ := List.mem_map.1 hs
    exact Nat.succ_lt_succ (hfirst t ht)

theorem exists_span_zero (b : α) (rest : List (Option α)) : ∃ j, (0, j) ∈ spans (some b :: rest) := by
  obtain ⟨j, more, heq, -⟩ := exists_spans_some b (pairwise_spans rest)
  exact ⟨j + 1, by rw [heq]; exact List.mem_cons_self⟩

/-- The spans are the longest runs. -/
theorem mem_spans {i j : Nat} : ∀ {ms : List (Option α)}, (i, j) ∈ spans ms ↔ IsRun (IsGap ms) ms.length i j
  | [] => ⟨nofun, fun h => absurd (Nat.lt_of_lt_of_le h.nonempty h.le) (Nat.not_lt_zero i)⟩
  | none :: rest => by
    rw [spans, mem_map_later]
    constructor
    · rintro ⟨i, j, rfl, rfl, h⟩
      exact isRun_succ.2 ⟨mem_spans.1 h, fun _ => rfl⟩
    · intro h
      obtain ⟨j, rfl⟩ := h.exists_end
      cases i with
      | zero => exact absurd rfl (isRun_zero.1 h).1
      | succ i => exact ⟨i, j, rfl, rfl, mem_spans.2 (isRun_succ.1 h).1⟩
  | some a :: rest => by
    obtain ⟨j₀, more, heq, hmore, hrest⟩ := exists_spans_some a (pairwise_spans rest)
    have hmem (s : Nat × Nat) : s ∈ spans rest ↔ s ∈ more ∨ s = (0, j₀) ∧ spans rest = (0, j₀) :: more := by
      rcases hrest with hrest | ⟨-, hrest⟩ <;> simp [hrest, or_comm]
    have hlater {i j : Nat} (h : (i, j) ∈ more) : i ≠ 0 := Nat.ne_zero_of_lt (hmore (i, j) h)
    rw [heq, List.mem_cons, mem_map_later]
    constructor
    · rintro (h | ⟨i, j, rfl, rfl, h⟩)
      · cases h
        refine isRun_zero.2 ⟨nofun, ?_⟩
        rcases hrest with hrest | ⟨rfl, hrest⟩
        · exact .inl (mem_spans.1 ((hmem _).2 (.inr ⟨rfl, hrest⟩)))
        · refine .inr ⟨rfl, ?_⟩
          rcases rest with _ | ⟨_ | b, rest⟩
          · exact .inl rfl
          · exact .inr rfl
          · obtain ⟨j, hj⟩ := exists_span_zero b rest
            exact absurd rfl (hlater (hrest ▸ hj))
      · exact isRun_succ.2 ⟨mem_spans.1 ((hmem _).2 (.inl h)), fun hi => absurd hi (hlater h)⟩
    · intro h
      obtain ⟨j, rfl⟩ := h.exists_end
      cases i with
      | zero =>
        left
        rcases (isRun_zero.1 h).2 with hrun | ⟨rfl, hend⟩
        · rcases (hmem _).1 (mem_spans.2 hrun) with hj | ⟨hj, -⟩
          · exact absurd rfl (hlater hj)
          · cases hj
            rfl
        · rcases hrest with hrest | ⟨rfl, -⟩
          -- A run that starts right behind the value leaves no gap there.
          · have hrun : IsRun (IsGap rest) rest.length 0 j₀ := mem_spans.1 ((hmem _).2 (.inr ⟨rfl, hrest⟩))
            rcases hend with hnil | hgap
            · exact absurd (Nat.lt_of_lt_of_le hrun.nonempty hrun.le) (by omega)
            · exact absurd hgap (hrun.kept 0 (Nat.le_refl 0) hrun.nonempty)
          · rfl
      | succ i =>
        right
        obtain ⟨hrun, hi⟩ := isRun_succ.1 h
        rcases (hmem _).1 (mem_spans.2 hrun) with hj | ⟨hj, -⟩
        · exact ⟨i, j, rfl, rfl, hj⟩
        · cases hj
          cases hi rfl

/-- Every value is in a run. -/
theorem exists_span : ∀ {ms : List (Option α)} {k : Nat}, k < ms.length → ¬IsGap ms k →
    ∃ s ∈ spans ms, s.1 ≤ k ∧ k < s.2
  | [], _, hk, _ => absurd hk (Nat.not_lt_zero _)
  | none :: rest, 0, _, h => absurd rfl h
  | none :: rest, k + 1, hk, h => by
    obtain ⟨s, hs, hlo, hhi⟩ := exists_span (Nat.lt_of_succ_lt_succ hk) (mt (isGap_succ none rest k).2 h)
    exact ⟨later s, List.mem_map_of_mem hs, Nat.succ_le_succ hlo, Nat.succ_lt_succ hhi⟩
  | some a :: rest, k, hk, h => by
    obtain ⟨j, more, heq, -, hrest⟩ := exists_spans_some a (pairwise_spans rest)
    rw [heq]
    cases k with
    | zero => exact ⟨(0, j + 1), List.mem_cons_self, Nat.le_refl 0, Nat.succ_pos j⟩
    | succ k =>
      obtain ⟨s, hs, hlo, hhi⟩ := exists_span (Nat.lt_of_succ_lt_succ hk) (mt (isGap_succ (some a) rest k).2 h)
      have hs : s ∈ more ∨ s = (0, j) := by
        rcases hrest with hrest | ⟨-, hrest⟩ <;> rw [hrest] at hs
        · exact (List.mem_cons.1 hs).symm
        · exact .inl hs
      rcases hs with hs | rfl
      · exact ⟨later s, List.mem_cons_of_mem _ (List.mem_map_of_mem hs), Nat.succ_le_succ hlo, Nat.succ_lt_succ hhi⟩
      · exact ⟨(0, j + 1), List.mem_cons_self, Nat.zero_le _, Nat.succ_lt_succ hhi⟩

theorem extract_later (l : α) (ls : List α) (s : Nat × Nat) :
    (l :: ls).extract (later s).1 (later s).2 = ls.extract s.1 s.2 := by
  simp [later, List.extract_eq_take_drop]

/-- The runs of some marked values are cut out of these values. -/
theorem runs_eq_map_extract {ms : List (Option α)} {ls : List α} (h : List.Forall₂ (fun l m => ∀ a ∈ m, a = l) ls ms) :
    runs ms = (spans ms).map fun s => ls.extract s.1 s.2 := by
  induction h with
  | nil => rfl
  | @cons l m ls ms hm _ ih =>
    have hmap (more : List (Nat × Nat)) :
        (more.map later).map (fun s => (l :: ls).extract s.1 s.2) = more.map fun s => ls.extract s.1 s.2 := by
      rw [List.map_map]
      exact List.map_congr_left fun s _ => extract_later l ls s
    rcases m with _ | a
    · rw [spans, hmap, ← ih, runs]
    · cases hm a rfl
      obtain ⟨j, more, heq, hmore, hrest⟩ := exists_spans_some l (pairwise_spans ms)
      rw [heq, List.map_cons, hmap]
      rcases hrest with hrest | ⟨rfl, hrest⟩
      -- A run right behind the value is extended by it.
      · have hrun : IsRun (IsGap ms) ms.length 0 j := mem_spans.1 (by rw [hrest]; exact List.mem_cons_self)
        rw [hrest, List.map_cons] at ih
        refine runs_cons l ih fun m hm hnone => hrun.kept 0 (Nat.le_refl 0) hrun.nonempty ?_
        rw [IsGap, ← List.head?_eq_getElem?, ← hnone]
        exact hm
      · rw [hrest] at ih
        rcases ms with _ | ⟨_ | b, ms⟩
        · rw [← ih]
          rfl
        · rw [← ih]
          rfl
        · obtain ⟨j, hj⟩ := exists_span_zero b ms
          exact absurd (hmore _ (hrest ▸ hj)) (Nat.lt_irrefl 0)

end

/-! ## Separators -/

theorem count_quote_blank {l : List Char} (h : isBlankLine l = true) : l.count '\'' = 0 := by
  rw [List.count_eq_zero]
  intro hmem
  exact absurd (List.all_eq_true.1 h _ hmem) (by decide)

theorem forall₂_markSeparators (ls : List (List Char)) : ∀ inside : Bool,
    List.Forall₂ (fun l m => ∀ a ∈ m, a = l) ls (markSeparators inside ls) := by
  induction ls with
  | nil => exact fun _ => .nil
  | cons l ls ih =>
    intro inside
    rw [markSeparators]
    split
    · exact .cons (fun _ h => by cases h) (ih _)
    · exact .cons (fun _ h => (Option.some_inj.1 h).symm) (ih _)

/-- Behind `n` apostrophes, a line is replaced if it is blank and the number of apostrophes before it is even. -/
theorem isGap_markSeparators {ls : List (List Char)} : ∀ {n k : Nat},
    IsGap (markSeparators (n % 2 == 1) ls) k ↔
      (∃ l, ls[k]? = some l ∧ isBlankLine l = true) ∧ (n + (ls.take k).flatten.count '\'') % 2 = 0 := by
  induction ls with
  | nil => simp [markSeparators, IsGap]
  | cons l ls ih =>
    intro n k
    rw [markSeparators]
    split
    · rename_i hsep
      obtain ⟨hblank, heven⟩ : isBlankLine l = true ∧ n % 2 = 0 := by simpa using hsep
      cases k with
      | zero => simp [isGap_zero, hblank, heven]
      | succ k => simp [isGap_succ, ih, count_quote_blank hblank]
    · rename_i hkept
      cases k with
      | zero => simpa [isGap_zero] using hkept
      | succ k =>
        have hinside : ((n % 2 == 1) != hasOddQuotes l) = ((n + l.count '\'') % 2 == 1) := by
          rcases Nat.mod_two_eq_zero_or_one n with hn | hn <;>
            rcases Nat.mod_two_eq_zero_or_one (l.count '\'') with hl | hl <;> simp [hasOddQuotes, Nat.add_mod, hn, hl]
        simp [isGap_succ, hinside, ih, Nat.add_assoc]

theorem isGap_markSeparators_false (ls : List (List Char)) : IsGap (markSeparators false ls) = IsSeparator ls := by
  funext k
  have h := @isGap_markSeparators ls 0 k
  rw [Nat.zero_add] at h
  exact propext h

/-! ## Runs of lines -/

section

variable {ls : List (List Char)} {i j k : Nat}

theorem mem_spans_markSeparators :
    (i, j) ∈ spans (markSeparators false ls) ↔ IsRun (IsSeparator ls) ls.length i j := by
  rw [mem_spans, isGap_markSeparators_false, (forall₂_markSeparators ls false).length_eq]

/-- A line that does not separate is in exactly one run. -/
theorem existsUnique_span (hk : k < ls.length) (hkept : ¬IsSeparator ls k) :
    ∃! s, s ∈ spans (markSeparators false ls) ∧ s.1 ≤ k ∧ k < s.2 := by
  rw [← isGap_markSeparators_false] at hkept
  obtain ⟨s, hs, hspan⟩ := exists_span ((forall₂_markSeparators ls false).length_eq ▸ hk) hkept
  refine ⟨s, ⟨hs, hspan⟩, fun t ⟨ht, htspan⟩ => ?_⟩
  obtain ⟨hstart, hend⟩ := (mem_spans_markSeparators.1 ht).unique (mem_spans_markSeparators.1 hs) htspan hspan
  exact Prod.ext hstart hend

/-- Behind every run but the last there is a separator. -/
theorem isSeparator_of_mem_dropLast (h : (i, j) ∈ (spans (markSeparators false ls)).dropLast) : IsSeparator ls j := by
  have hmem := List.dropLast_subset _ h
  have hne := List.ne_nil_of_mem hmem
  have hlast := mem_spans_markSeparators.1 (List.getLast_mem hne)
  have hpair := pairwise_spans (markSeparators false ls)
  rw [← List.dropLast_concat_getLast hne, List.pairwise_append] at hpair
  have hlt := hpair.2.2 _ h _ (List.mem_singleton_self _)
  exact (mem_spans_markSeparators.1 hmem).ends.resolve_left
    (Nat.ne_of_lt (Nat.lt_trans hlt (Nat.lt_of_lt_of_le hlast.nonempty hlast.le)))

end

namespace IsRun

variable {ls : List (List Char)} {i j : Nat}

/-- A run starts outside of literals. -/
theorem even_before (h : IsRun (IsSeparator ls) ls.length i j) : (ls.take i).flatten.count '\'' % 2 = 0 := by
  rcases h.starts with rfl | ⟨⟨l, hl, hblank⟩, heven⟩
  · rfl
  · cases i with
    | zero => rfl
    | succ i =>
      rw [Nat.add_sub_cancel] at hl heven
      rw [List.take_add_one, hl, List.flatten_append, List.count_append, Nat.add_mod, heven]
      simp [count_quote_blank hblank]

/-- The first line of a run is not blank, or it would separate. -/
theorem exists_first (h : IsRun (IsSeparator ls) ls.length i j) :
    ∃ l more, ls.extract i j = l :: more ∧ isBlankLine l = false := by
  have hi : i < ls.length := Nat.lt_of_lt_of_le h.nonempty h.le
  obtain ⟨n, hn⟩ : ∃ n, j - i = n + 1 := ⟨j - i - 1, by have hlt := h.nonempty; omega⟩
  refine ⟨ls[i], (ls.drop (i + 1)).take n, ?_, ?_⟩
  · rw [List.extract_eq_take_drop, hn, List.drop_eq_getElem_cons hi, List.take_succ_cons]
  · rw [← Bool.not_eq_true]
    intro hblank
    exact h.kept i (Nat.le_refl i) h.nonempty ⟨⟨ls[i], List.getElem?_eq_getElem hi, hblank⟩, h.even_before⟩

/-- A run that ends at a separator ends outside of literals. -/
theorem even_of_separator (h : IsRun (IsSeparator ls) ls.length i j) (hj : IsSeparator ls j) :
    (ls.extract i j).flatten.count '\'' % 2 = 0 := by
  have hbefore := h.even_before
  have hend := hj.2
  have hsplit : ls.take j = ls.take i ++ ls.extract i j := by
    rw [List.extract_eq_take_drop, ← List.take_add, Nat.add_sub_cancel' (Nat.le_of_lt h.nonempty)]
  rw [hsplit, List.flatten_append, List.count_append] at hend
  omega

end IsRun

/-! ## The text of a run -/

theorem count_quote_joinLines : ∀ ls : List (List Char), (joinLines ls).toList.count '\'' = ls.flatten.count '\'' := by
  intro ls
  rw [joinLines, String.toList_ofList]
  induction ls with
  | nil => rfl
  | cons l ls ih =>
    by_cases hls : ls = []
    · rw [hls, List.intercalate_singleton, List.flatten_singleton]
    · rw [intercalate_cons l hls, List.count_append, List.count_cons_of_ne (by decide), ih, List.flatten_cons,
        List.count_append]

/-- The first of some lines is the first line of their text, up to a return at its end. -/
theorem exists_head_joinLines {l : List Char} (ls : List (List Char)) (hne : l ≠ []) (hl : '\n' ∉ l) :
    ∃ m, (lines (joinLines (l :: ls)).toList).head? = some m ∧ SameLine m l := by
  rw [joinLines, String.toList_ofList]
  by_cases hls : ls = []
  · rw [hls, List.intercalate_singleton, lines_of_not_mem hl hne]
    exact ⟨l, rfl, .inl rfl⟩
  · have hlast : l.getLast? ≠ some '\n' := fun h => hl (List.mem_of_getLast? h)
    have hsame := lines_append_feed hne hlast
    rw [lines_of_not_mem hl hne] at hsame
    obtain ⟨m, _, hm, -, heq⟩ := List.forall₂_cons_right_iff.1 hsame
    refine ⟨m, ?_, hm⟩
    rw [intercalate_cons l hls, lines_append_break, heq]
    rfl

theorem exists_head_of_run {cs : List Char} {i j : Nat} (h : IsRun (IsSeparator (lines cs)) (lines cs).length i j) :
    ∃ l, (lines (joinLines ((lines cs).extract i j)).toList).head? = some l ∧ isBlankLine l = false := by
  obtain ⟨l, more, heq, hblank⟩ := h.exists_first
  have hmem : l ∈ lines cs := by
    have hl : l ∈ (lines cs).extract i j := by rw [heq]; exact List.mem_cons_self
    rw [List.extract_eq_take_drop] at hl
    exact List.mem_of_mem_drop (List.mem_of_mem_take hl)
  have hne : l ≠ [] := by
    rintro rfl
    cases hblank
  obtain ⟨m, hm, hsame⟩ := exists_head_joinLines more hne (feed_not_mem_line cs l hmem)
  exact ⟨m, by rw [heq, hm], (isBlankLine_sameLine hsame).trans hblank⟩

/-- For every text, the queries are the longest runs of lines that do not separate, in their order. Each such line is in
exactly one query, a query starts with a line that is not blank, and only the last one may end inside a literal. -/
theorem splitQueries_partition (text : String) :
    ∃ places : List (Nat × Nat),
      splitQueries text = places.map (fun s => joinLines ((lines text.toList).extract s.1 s.2)) ∧
      (∀ i j, (i, j) ∈ places ↔ IsRun (IsSeparator (lines text.toList)) (lines text.toList).length i j) ∧
      places.Pairwise (fun s t => s.2 < t.1) ∧
      (∀ k < (lines text.toList).length, ¬IsSeparator (lines text.toList) k →
        ∃! s, s ∈ places ∧ s.1 ≤ k ∧ k < s.2) ∧
      (∀ q ∈ splitQueries text, ∃ l, (lines q.toList).head? = some l ∧ isBlankLine l = false) ∧
      ∀ q ∈ (splitQueries text).dropLast, q.toList.count '\'' % 2 = 0 := by
  have hsplit : splitQueries text = (spans (markSeparators false (lines text.toList))).map fun s =>
      joinLines ((lines text.toList).extract s.1 s.2) := by
    rw [splitQueries, runs_eq_map_extract (forall₂_markSeparators _ false), List.map_map]
    rfl
  refine ⟨_, hsplit, fun i j => mem_spans_markSeparators, pairwise_spans _, fun k => existsUnique_span, ?_, ?_⟩
  · rw [hsplit, List.forall_mem_map]
    intro s hs
    exact exists_head_of_run (mem_spans_markSeparators.1 hs)
  · rw [hsplit, ← List.map_dropLast, List.forall_mem_map]
    intro s hs
    rw [count_quote_joinLines]
    have hrun := mem_spans_markSeparators.1 (List.dropLast_subset _ hs)
    exact hrun.even_of_separator (isSeparator_of_mem_dropLast hs)

example : splitQueries "\n a\n'b\n\nc'\n\t\n\n'd\n\n" = [" a\n'b\n\nc'", "'d\n"] := by decide +kernel

end WorkItemQuery.Batch
