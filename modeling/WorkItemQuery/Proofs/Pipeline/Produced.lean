/-
What a text can be read as at all: conditions hold the operators of comparisons and no other binary
operators. A rule produces values with a property if all its results have it, whatever the text.
-/
import WorkItemQuery.Proofs.Pipeline.Meaning

namespace WorkItemQuery.Pipeline

open Rule

/-- Whatever a rule reads has the property. -/
def Produces {α : Type} (P : α → Prop) (rule : Rule α) : Prop :=
  ∀ (cs rest : List Char) (a : α), (rule cs).result = some (a, rest) → P a

namespace Produces

variable {α β : Type} {P : α → Prop} {Q : β → Prop}

theorem anything (rule : Rule α) : Produces (fun _ => True) rule := fun _ _ _ _ => trivial

theorem pure {a : α} (h : P a) : Produces P (Pure.pure a : Rule α) := by
  intro cs rest b hb
  cases hb
  exact h

theorem bind {p : Rule α} {f : α → Rule β} (hp : Produces P p) (hf : ∀ a, P a → Produces Q (f a)) :
    Produces Q (p >>= f) := by
  intro cs rest b hb
  rw [result_bind] at hb
  obtain ⟨⟨a, mid⟩, ha, hb⟩ := Option.bind_eq_some_iff.1 hb
  exact hf a (hp _ _ _ ha) _ _ _ hb

/-- What comes first does not matter. -/
theorem after {p : Rule α} {f : α → Rule β} (hf : ∀ a, Produces Q (f a)) : Produces Q (p >>= f) :=
  bind (anything p) fun a _ => hf a

theorem map {p : Rule α} {f : α → β} (hp : Produces P p) (hf : ∀ a, P a → Q (f a)) : Produces Q (f <$> p) := by
  intro cs rest b hb
  rw [result_map] at hb
  obtain ⟨⟨a, mid⟩, ha, hb⟩ := Option.map_eq_some_iff.1 hb
  cases hb
  exact hf a (hp _ _ _ ha)

theorem orElse {p q : Rule α} (hp : Produces P p) (hq : Produces P q) : Produces P (p <|> q) := by
  intro cs rest a ha
  rw [result_orElse] at ha
  rcases h : (p cs).result with _ | r
  · rw [h] at ha; exact hq _ _ _ ha
  · rw [h] at ha; cases ha; exact hp _ _ _ h

theorem named {p : Rule α} (hp : Produces P p) : Produces P (Rule.named p) := by
  intro cs rest a ha
  rw [result_named] at ha
  exact hp _ _ _ ha

theorem many {p : Rule α} (hp : Produces P p) : Produces (fun as => ∀ a ∈ as, P a) (Rule.many p) := by
  intro cs
  fun_induction Rule.many p cs with
  | case1 cs miss h =>
    intro rest as has
    cases has
    simp
  | case2 cs miss a mid h hlt reply ih =>
    intro rest as has
    obtain ⟨⟨more, last⟩, hmore, has⟩ := Option.map_eq_some_iff.1 has
    cases has
    exact List.forall_mem_cons.2 ⟨hp cs mid a (by rw [h]), ih _ _ hmore⟩
  | case3 cs miss a mid h hlt =>
    intro rest as has
    cases has
    exact List.forall_mem_singleton.2 (hp cs mid a (by rw [h]))

theorem separated {separator : Rule Unit} {item : Rule α} (h : Produces P item) :
    Produces (fun r => P r.1 ∧ ∀ a ∈ r.2, P a) (separated separator item) :=
  .bind h fun _ hfirst => .bind (.many (.after fun _ => .after fun _ =>
    .after fun _ => h)) fun _ hmore => .pure ⟨hfirst, hmore⟩

end Produces

/-! ## Conditions -/

namespace Condition

/-- The tests of a condition compare with the operators of comparisons. -/
def HasComparisons : Condition → Prop
  | test _ (.compare op) _ => op.IsComparison
  | test _ (.domain _) _ => True
  | not c => c.HasComparisons
  | and c d | or c d => c.HasComparisons ∧ d.HasComparisons

end Condition

theorem produces_comparison : Produces BinaryOp.IsComparison comparison := by
  intro cs rest op h
  unfold comparison at h
  rw [result_lexeme] at h
  unfold readComparison at h
  split at h <;> cases h <;> trivial

theorem produces_predicate : Produces Condition.HasComparisons predicate := by
  have hrelation : Produces (fun r => ∀ o v, (Condition.test o r v).HasComparisons) relation :=
    .orElse (.map (.anything _) fun op _ o v => trivial) (.map produces_comparison fun op hop o v => hop)
  exact .named (.after fun o => .after fun _ => .bind hrelation fun r hr =>
    .after fun _ => .after fun v => .pure (hr o v))

theorem produces_joined {connective : String} {join : Condition → Condition → Condition} {part : Rule Condition}
    (hjoin : ∀ c d : Condition, c.HasComparisons → d.HasComparisons → (join c d).HasComparisons)
    (hpart : Produces Condition.HasComparisons part) :
    Produces Condition.HasComparisons (joined connective join part) := by
  refine .named (.bind hpart.separated fun r hr => .pure ?_)
  obtain ⟨first, more⟩ := r
  obtain ⟨hfirst, hmore⟩ := hr
  show (more.foldl join first).HasComparisons
  induction more generalizing first with
  | nil => exact hfirst
  | cons c more ih =>
    obtain ⟨hc, hmore⟩ := List.forall_mem_cons.1 hmore
    exact ih (join first c) (hjoin _ _ hfirst hc) hmore

theorem produces_conditionOf {part : Rule Condition} (h : Produces Condition.HasComparisons part) :
    Produces Condition.HasComparisons (conditionOf part) :=
  .named (produces_joined (fun _ _ hc hd => ⟨hc, hd⟩) (produces_joined (fun _ _ hc hd => ⟨hc, hd⟩) h))

theorem produces_factor : ∀ depth : Nat, Produces Condition.HasComparisons (factor depth)
  | 0 => fun _ _ _ h => by cases h
  | depth + 1 => by
    have ih := produces_factor depth
    refine .named (.orElse (.after fun _ => .after fun _ => .map ih fun _ hc => hc)
      (.named (.orElse ?_ produces_predicate)))
    exact .after fun _ => .after fun _ => .bind (produces_conditionOf ih) fun c hc =>
      .after fun _ => .after fun _ => .pure hc

/-! ## Pipelines -/

namespace Step

/-- The conditions of a step compare with the operators of comparisons. -/
def HasComparisons : Step → Prop
  | filter c => c.HasComparisons
  | _ => True

end Step

theorem produces_step : Produces Step.HasComparisons step := by
  have hcondition : Produces Condition.HasComparisons condition := fun cs =>
    produces_conditionOf (produces_factor _) cs
  refine .named (.orElse ?_ (.orElse ?_ (.orElse ?_ ?_)))
  · exact .named (.after fun _ => .after fun _ => .map (.anything _) fun _ _ => trivial)
  · exact .named (.after fun _ => .after fun _ => .map hcondition fun _ hc => hc)
  · exact .named (.after fun _ => .after fun _ => .after fun _ =>
      .map (.anything _) fun _ _ => trivial)
  · exact .named (.after fun _ => .after fun _ => .map (.anything _) fun _ _ => trivial)

/-- Whatever a text is read as compares with the operators of comparisons. -/
theorem hasComparisons_of_ofText {cs : List Char} {p : Pipeline} (h : ofText cs = .ok p) :
    ∀ s ∈ p.steps, s.HasComparisons := by
  have hpipeline : Produces (fun p : Pipeline => ∀ s ∈ p.steps, s.HasComparisons) pipeline :=
    .named (.after fun entity => .bind (.many (.after fun _ =>
      .after fun _ => .after fun _ => produces_step)) fun steps hsteps => .pure hsteps)
  have hprogram : Produces (fun p : Pipeline => ∀ s ∈ p.steps, s.HasComparisons) program :=
    .named (.after fun _ => .bind hpipeline fun p hp => .after fun _ =>
      .after fun _ => .pure hp)
  unfold ofText at h
  split at h
  · rename_i hreply
    cases h
    exact hprogram _ _ _ (by rw [hreply])
  · cases h

end WorkItemQuery.Pipeline
