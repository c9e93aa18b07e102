import Mathlib.Data.List.Basic

/-! A running maximum that starts from a sentinel and replaces it only by what
exceeds it. The comparison need not be total: it has to order the scores of the
candidates, put them all above the sentinel, and let nothing else exceed
anything. -/

namespace Odorobo.RunningMax

variable {α β σ : Type}

/-- One comparison: the name of the best item so far, with its score. -/
def step (name : α → β) (score : α → σ) (exceeds : σ → σ → Bool) (best : Option β × σ) (a : α) :
    Option β × σ :=
  if exceeds (score a) best.2 then (some (name a), score a) else best

/-- Whatever the comparison is, an item that is named has exceeded something. -/
theorem exceeds_of_foldl_step {name : α → β} {score : α → σ} {exceeds : σ → σ → Bool}
    {items : List α} {best : Option β × σ} {b : β}
    (h : (items.foldl (step name score exceeds) best).1 = some b) :
    best.1 = some b ∨ ∃ a ∈ items, name a = b ∧ ∃ beaten, exceeds (score a) beaten = true := by
  induction items generalizing best with
  | nil => exact Or.inl h
  | cons first items ih =>
    cases ih h with
    | inr hlater =>
      obtain ⟨a, hmem, ha⟩ := hlater
      exact Or.inr ⟨a, List.mem_cons_of_mem first hmem, ha⟩
    | inl hfirst =>
      unfold step at hfirst
      split at hfirst
      · next hexceeds =>
        exact Or.inr ⟨first, List.mem_cons_self, Option.some.inj hfirst, best.2, hexceeds⟩
      · exact Or.inl hfirst

/-- What the comparison has to do with the candidates. -/
structure Orders (score : α → σ) (exceeds : σ → σ → Bool) (sentinel : σ) (Candidate : α → Prop) :
    Prop where
  others : ∀ a, ¬ Candidate a → ∀ t, exceeds (score a) t = false
  above : ∀ a, Candidate a → exceeds (score a) sentinel = true
  irrefl : ∀ a, Candidate a → exceeds (score a) (score a) = false
  trans : ∀ a b c, Candidate a → Candidate b → Candidate c →
    exceeds (score a) (score b) = true → exceeds (score b) (score c) = true →
      exceeds (score a) (score c) = true

/-- The item is a candidate among those seen that no other candidate exceeds. -/
structure Maximal (score : α → σ) (exceeds : σ → σ → Bool) (Candidate : α → Prop) (seen : List α)
    (a : α) : Prop where
  mem : a ∈ seen
  candidate : Candidate a
  le : ∀ other ∈ seen, Candidate other → exceeds (score other) (score a) = false

/-- The sentinel stands until there is a candidate, a maximal one from then on. -/
def Leads (name : α → β) (score : α → σ) (exceeds : σ → σ → Bool) (sentinel : σ)
    (Candidate : α → Prop) (seen : List α) (best : Option β × σ) : Prop :=
  (best = (none, sentinel) ∧ ∀ a ∈ seen, ¬ Candidate a) ∨
    ∃ a, Maximal score exceeds Candidate seen a ∧ best = (some (name a), score a)

variable {name : α → β} {score : α → σ} {exceeds : σ → σ → Bool} {sentinel : σ}
  {Candidate : α → Prop}

theorem maximal_single {a : α} (orders : Orders score exceeds sentinel Candidate) {seen : List α}
    (ha : Candidate a) (hnone : ∀ other ∈ seen, ¬ Candidate other) :
    Maximal score exceeds Candidate (seen ++ [a]) a := by
  refine ⟨by simp, ha, ?_⟩
  intro other hmem hother
  cases List.mem_append.mp hmem with
  | inl hseen => exact absurd hother (hnone other hseen)
  | inr hlast =>
    rw [List.mem_singleton.mp hlast]
    exact orders.irrefl a ha

/-- A candidate that exceeds a maximal one takes its place. -/
theorem Maximal.exceeded {best a : α} (orders : Orders score exceeds sentinel Candidate)
    {seen : List α} (hbest : Maximal score exceeds Candidate seen best) (ha : Candidate a)
    (hexceeds : exceeds (score a) (score best) = true) :
    Maximal score exceeds Candidate (seen ++ [a]) a := by
  refine ⟨by simp, ha, ?_⟩
  intro other hmem hother
  cases List.mem_append.mp hmem with
  | inl hseen =>
    by_contra habove
    rw [Bool.not_eq_false] at habove
    have hover := orders.trans other a best hother ha hbest.candidate habove hexceeds
    rw [hbest.le other hseen hother] at hover
    cases hover
  | inr hlast =>
    rw [List.mem_singleton.mp hlast]
    exact orders.irrefl a ha

theorem Maximal.kept {best a : α} {seen : List α}
    (hbest : Maximal score exceeds Candidate seen best)
    (hnot : exceeds (score a) (score best) = false) :
    Maximal score exceeds Candidate (seen ++ [a]) best := by
  refine ⟨List.mem_append_left _ hbest.mem, hbest.candidate, ?_⟩
  intro other hmem hother
  cases List.mem_append.mp hmem with
  | inl hseen => exact hbest.le other hseen hother
  | inr hlast =>
    rw [List.mem_singleton.mp hlast]
    exact hnot

theorem leads_step (orders : Orders score exceeds sentinel Candidate) {seen : List α}
    {best : Option β × σ} (h : Leads name score exceeds sentinel Candidate seen best) (a : α) :
    Leads name score exceeds sentinel Candidate (seen ++ [a]) (step name score exceeds best a) := by
  unfold step
  cases h with
  | inl hnone =>
    obtain ⟨rfl, hnone⟩ := hnone
    by_cases ha : Candidate a
    · rw [if_pos (orders.above a ha)]
      exact .inr ⟨a, maximal_single orders ha hnone, rfl⟩
    · rw [orders.others a ha, if_neg (by simp)]
      refine .inl ⟨rfl, ?_⟩
      intro other hmem
      cases List.mem_append.mp hmem with
      | inl hseen => exact hnone other hseen
      | inr hlast => exact List.mem_singleton.mp hlast ▸ ha
  | inr hsome =>
    obtain ⟨leader, hleader, rfl⟩ := hsome
    cases hexceeds : exceeds (score a) (score leader) with
    | true =>
      have ha : Candidate a := by
        by_contra hnot
        rw [orders.others a hnot] at hexceeds
        cases hexceeds
      exact .inr ⟨a, hleader.exceeded orders ha hexceeds, rfl⟩
    | false => exact .inr ⟨leader, hleader.kept hexceeds, rfl⟩

theorem leads_foldl (orders : Orders score exceeds sentinel Candidate) (items : List α) :
    ∀ {seen : List α} {best : Option β × σ},
      Leads name score exceeds sentinel Candidate seen best →
        Leads name score exceeds sentinel Candidate (seen ++ items)
          (items.foldl (step name score exceeds) best) := by
  induction items with
  | nil =>
    intro seen best h
    rw [List.append_nil]
    exact h
  | cons a items ih =>
    intro seen best h
    rw [List.foldl_cons, List.append_cons]
    exact ih (leads_step orders h a)

/-- From the sentinel, the maximum is missing just when there is no candidate. -/
theorem foldl_step_spec (orders : Orders score exceeds sentinel Candidate) (items : List α) :
    Leads name score exceeds sentinel Candidate items
      (items.foldl (step name score exceeds) (none, sentinel)) := by
  have hstart : Leads name score exceeds sentinel Candidate [] (none, sentinel) :=
    .inl ⟨rfl, by simp⟩
  exact leads_foldl orders items hstart

end Odorobo.RunningMax
