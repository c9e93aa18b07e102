import Mathlib.Data.List.Basic

/-! Labelled transition systems and their finite runs. A run is the list of
labels taken together with the state each of them leads to; conditions on runs
are conditions on every state passed or on every step taken. Nothing here
depends on what the states are. -/

namespace Odorobo.Transition

variable {S L : Type}

/-- `IsRun step s run`: the labels of `run` can be taken one after the other
from `s`, reaching exactly the states written beside them. -/
def IsRun (step : S → L → S → Prop) : S → List (L × S) → Prop
  | _, [] => True
  | s, (l, t) :: rest => step s l t ∧ IsRun step t rest

def final : S → List (L × S) → S
  | s, [] => s
  | _, (_, t) :: rest => final t rest

def AllStates (P : S → Prop) (s : S) (run : List (L × S)) : Prop :=
  P s ∧ ∀ p ∈ run, P p.2

/-- The run starts in the state or passes it. -/
def Visits (s : S) (run : List (L × S)) (t : S) : Prop := t = s ∨ ∃ p ∈ run, p.2 = t

/-- Every label of the run is taken in a state where `C` allows it. -/
def AllSteps (C : S → L → Prop) : S → List (L × S) → Prop
  | _, [] => True
  | s, (l, t) :: rest => C s l ∧ AllSteps C t rest

instance decidableAllSteps {C : S → L → Prop} [∀ s l, Decidable (C s l)] :
    (s : S) → (run : List (L × S)) → Decidable (AllSteps C s run)
  | _, [] => inferInstanceAs (Decidable True)
  | s, (l, t) :: rest => @instDecidableAnd (C s l) (AllSteps C t rest) _ (decidableAllSteps t rest)

def Reachable (step : S → L → S → Prop) (init t : S) : Prop :=
  ∃ run, IsRun step init run ∧ final init run = t

variable {step : S → L → S → Prop} {P : S → Prop} {C : S → L → Prop}

@[simp] theorem allStates_nil (s : S) :
    AllStates P s ([] : List (L × S)) ↔ P s := by
  simp [AllStates]

@[simp] theorem allStates_cons (s t : S) (l : L) (rest : List (L × S)) :
    AllStates P s ((l, t) :: rest) ↔ P s ∧ AllStates P t rest := by
  simp [AllStates]

theorem allStates_mono {Q : S → Prop} (h : ∀ s, P s → Q s) {s : S} {run : List (L × S)}
    (all : AllStates P s run) : AllStates Q s run :=
  ⟨h s all.1, fun p hp => h p.2 (all.2 p hp)⟩

theorem isRun_append (s : S) (xs ys : List (L × S)) :
    IsRun step s (xs ++ ys) ↔ IsRun step s xs ∧ IsRun step (final s xs) ys := by
  induction xs generalizing s with
  | nil => simp [IsRun, final]
  | cons x xs ih =>
    simp only [List.cons_append, IsRun, final, ih, and_assoc]

theorem final_append (s : S) (xs ys : List (L × S)) :
    final s (xs ++ ys) = final (final s xs) ys := by
  induction xs generalizing s with
  | nil => rfl
  | cons x xs ih => simp only [List.cons_append, final, ih]

/-- The invariant rule: what every allowed step preserves holds in every state
of a run whose steps are all allowed. -/
theorem allStates_of_step
    (preserved : ∀ s l t, P s → C s l → step s l t → P t)
    (s : S) (run : List (L × S)) (start : P s)
    (isRun : IsRun step s run) (allowed : AllSteps C s run) : AllStates P s run := by
  induction run generalizing s with
  | nil => simpa using start
  | cons x rest ih =>
    obtain ⟨l, t⟩ := x
    obtain ⟨hstep, hrest⟩ := isRun
    obtain ⟨hc, hall⟩ := allowed
    rw [allStates_cons]
    exact ⟨start, ih t (preserved s l t start hc hstep) hrest hall⟩

/-- The converse: a run that stays in `P` takes only steps that `C` allows,
when a step that is not allowed leaves `P`. -/
theorem allSteps_of_states
    (leaves : ∀ s l t, P s → ¬ C s l → step s l t → ¬ P t)
    (s : S) (run : List (L × S)) (isRun : IsRun step s run)
    (stays : AllStates P s run) : AllSteps C s run := by
  induction run generalizing s with
  | nil => trivial
  | cons x rest ih =>
    obtain ⟨l, t⟩ := x
    obtain ⟨hstep, hrest⟩ := isRun
    rw [allStates_cons] at stays
    have ht : P t := by
      cases rest with
      | nil => simpa using stays.2
      | cons y ys => exact stays.2.1
    refine ⟨?_, ih t hrest stays.2⟩
    by_contra hc
    exact leaves s l t stays.1 hc hstep ht

/-- The same for runs that an invariant accompanies as long as steps are allowed. -/
theorem allSteps_of_invariant {Inv : S → Prop}
    (kept : ∀ s l t, Inv s → C s l → step s l t → Inv t)
    (leaves : ∀ s l t, Inv s → ¬ C s l → step s l t → ¬ P t)
    (s : S) (run : List (L × S)) (start : Inv s) (isRun : IsRun step s run)
    (stays : AllStates P s run) : AllSteps C s run := by
  induction run generalizing s with
  | nil => trivial
  | cons x rest ih =>
    obtain ⟨l, t⟩ := x
    rw [allStates_cons] at stays
    have hc : C s l := by
      by_contra hc
      exact leaves s l t start hc isRun.1 stays.2.1
    exact ⟨hc, ih t (kept s l t start hc isRun.1) isRun.2 stays.2⟩

theorem final_of_allStates (s : S) (run : List (L × S)) (h : AllStates P s run) :
    P (final s run) := by
  induction run generalizing s with
  | nil => simpa [final] using h
  | cons x rest ih =>
    obtain ⟨l, t⟩ := x
    rw [allStates_cons] at h
    exact ih t h.2

theorem allSteps_true (s : S) (run : List (L × S)) : AllSteps (fun _ _ => True) s run := by
  induction run generalizing s with
  | nil => trivial
  | cons x rest ih => exact ⟨trivial, ih x.2⟩

theorem allSteps_and {D : S → L → Prop} (s : S) (run : List (L × S)) (hc : AllSteps C s run)
    (hd : AllSteps D s run) : AllSteps (fun s l => C s l ∧ D s l) s run := by
  induction run generalizing s with
  | nil => trivial
  | cons x rest ih => exact ⟨⟨hc.1, hd.1⟩, ih x.2 hc.2 hd.2⟩

theorem allSteps_and_iff {D : S → L → Prop} (s : S) (run : List (L × S)) :
    AllSteps (fun s l => C s l ∧ D s l) s run ↔ AllSteps C s run ∧ AllSteps D s run := by
  induction run generalizing s with
  | nil => simp [AllSteps]
  | cons x rest ih =>
    simp only [AllSteps, ih]
    tauto

theorem allSteps_append (s : S) (xs ys : List (L × S)) :
    AllSteps C s (xs ++ ys) ↔ AllSteps C s xs ∧ AllSteps C (final s xs) ys := by
  induction xs generalizing s with
  | nil => simp [AllSteps, final]
  | cons x xs ih => simp only [List.cons_append, AllSteps, final, ih, and_assoc]

theorem allStates_and_iff {Q : S → Prop} (s : S) (run : List (L × S)) :
    AllStates (fun s => P s ∧ Q s) s run ↔ AllStates P s run ∧ AllStates Q s run := by
  unfold AllStates
  constructor
  · intro h
    exact ⟨⟨h.1.1, fun p hp => (h.2 p hp).1⟩, ⟨h.1.2, fun p hp => (h.2 p hp).2⟩⟩
  · intro h
    exact ⟨⟨h.1.1, h.2.1⟩, fun p hp => ⟨h.1.2 p hp, h.2.2 p hp⟩⟩

/-- What holds of every step out of a state of `P` holds along a run in `P`. -/
theorem allSteps_of_allStates (h : ∀ s l, P s → C s l) (s : S) (run : List (L × S))
    (stays : AllStates P s run) : AllSteps C s run := by
  induction run generalizing s with
  | nil => trivial
  | cons x rest ih =>
    rw [allStates_cons] at stays
    exact ⟨h s x.1 stays.1, ih x.2 stays.2⟩

/-- What holds of every step taken in a state of `P` holds along a run in `P`. -/
theorem allSteps_of_taken (h : ∀ s l t, P s → step s l t → C s l) (s : S) (run : List (L × S))
    (isRun : IsRun step s run) (stays : AllStates P s run) : AllSteps C s run := by
  induction run generalizing s with
  | nil => trivial
  | cons x rest ih =>
    obtain ⟨l, t⟩ := x
    rw [allStates_cons] at stays
    exact ⟨h s l t stays.1 isRun.1, ih t isRun.2 stays.2⟩

theorem AllStates.visited {s t : S} {run : List (L × S)} (all : AllStates P s run)
    (h : Visits s run t) : P t := by
  cases h with
  | inl heq => exact heq ▸ all.1
  | inr hmem =>
    obtain ⟨p, hp, rfl⟩ := hmem
    exact all.2 p hp

theorem Visits.cons {s t : S} {x : L × S} {rest : List (L × S)} (h : Visits x.2 rest t) :
    Visits s (x :: rest) t := by
  cases h with
  | inl heq => exact Or.inr ⟨x, List.mem_cons_self, heq.symm⟩
  | inr hmem =>
    obtain ⟨p, hp, heq⟩ := hmem
    exact Or.inr ⟨p, List.mem_cons_of_mem x hp, heq⟩

theorem visits_final (s : S) (run : List (L × S)) : Visits s run (final s run) := by
  induction run generalizing s with
  | nil => exact Or.inl rfl
  | cons x rest ih => exact (ih x.2).cons

/-- Every state of a run is related to its final state by what relates the two
ends of a step. -/
theorem allStates_final {R : S → S → Prop} (refl : ∀ s, R s s)
    (trans : ∀ s t u, R s t → R t u → R s u) (one : ∀ s l t, step s l t → R s t)
    (s : S) (run : List (L × S)) (isRun : IsRun step s run) :
    AllStates (fun t => R t (final s run)) s run := by
  induction run generalizing s with
  | nil => simpa [final] using refl s
  | cons x rest ih =>
    obtain ⟨l, t⟩ := x
    have hrest := ih t isRun.2
    rw [allStates_cons]
    exact ⟨trans s t _ (one s l t isRun.1) hrest.1, hrest⟩

/-- The run of the labels by a partial step function, up to the first label that
it does not take. -/
def play (next : S → L → Option S) : S → List L → List (L × S)
  | _, [] => []
  | s, l :: rest =>
    match next s l with
    | some t => (l, t) :: play next t rest
    | none => []

theorem isRun_play {next : S → L → Option S} (taken : ∀ s l t, next s l = some t → step s l t)
    (s : S) (labels : List L) : IsRun step s (play next s labels) := by
  induction labels generalizing s with
  | nil => trivial
  | cons l rest ih =>
    unfold play
    split
    · next t hnext => exact ⟨taken s l t hnext, ih t⟩
    · trivial

/-- What an invariant and the condition on steps give for each step of a run. -/
theorem isRun_of_invariant {step' : S → L → S → Prop}
    (kept : ∀ s l t, P s → C s l → step s l t → P t)
    (shown : ∀ s l t, P s → C s l → step s l t → step' s l t)
    (s : S) (run : List (L × S)) (start : P s) (isRun : IsRun step s run)
    (allowed : AllSteps C s run) : IsRun step' s run := by
  induction run generalizing s with
  | nil => trivial
  | cons x rest ih =>
    obtain ⟨l, t⟩ := x
    have ht := kept s l t start allowed.1 isRun.1
    exact ⟨shown s l t start allowed.1 isRun.1, ih t ht isRun.2 allowed.2⟩

theorem Visits.append {s t : S} {xs ys : List (L × S)} (h : Visits (final s xs) ys t) :
    Visits s (xs ++ ys) t := by
  induction xs generalizing s with
  | nil => exact h
  | cons x xs ih => exact (ih h).cons

/-- Simulation: when each step is matched by allowed steps of another system, a run is
matched by a run of it, which passes a counterpart of every state. -/
theorem exists_simulation {T M : Type} {step' : T → M → T → Prop} {D : T → M → Prop}
    {R : S → T → Prop}
    (one : ∀ s l t u, R s u → step s l t →
      ∃ run, IsRun step' u run ∧ AllSteps D u run ∧ R t (final u run))
    (s : S) (run : List (L × S)) (isRun : IsRun step s run) {u : T} (start : R s u) :
    ∃ run', IsRun step' u run' ∧ AllSteps D u run' ∧
      ∀ t, Visits s run t → ∃ t', Visits u run' t' ∧ R t t' := by
  induction run generalizing s u with
  | nil =>
    refine ⟨[], trivial, trivial, ?_⟩
    rintro t (rfl | ⟨p, hp, -⟩)
    · exact ⟨u, Or.inl rfl, start⟩
    · simp at hp
  | cons x rest ih =>
    obtain ⟨l, t⟩ := x
    obtain ⟨first, hfirst, hallowed, hnext⟩ := one s l t u start isRun.1
    obtain ⟨later, hlater, hlaterAllowed, hvisits⟩ := ih t isRun.2 hnext
    refine ⟨first ++ later, (isRun_append u first later).mpr ⟨hfirst, hlater⟩,
      (allSteps_append u first later).mpr ⟨hallowed, hlaterAllowed⟩, ?_⟩
    rintro v (rfl | ⟨p, hp, rfl⟩)
    · exact ⟨u, Or.inl rfl, start⟩
    · have hpast : Visits t rest p.2 := by
        cases List.mem_cons.mp hp with
        | inl heq => exact Or.inl (by rw [heq])
        | inr hmem => exact Or.inr ⟨p, hmem, rfl⟩
      obtain ⟨v', hv', hrel⟩ := hvisits p.2 hpast
      exact ⟨v', hv'.append, hrel⟩

theorem Reachable.refl (init : S) : Reachable step init init :=
  ⟨[], trivial, rfl⟩

theorem Reachable.tail {init s t : S} {l : L} (h : Reachable step init s)
    (hstep : step s l t) : Reachable step init t := by
  obtain ⟨run, hrun, rfl⟩ := h
  refine ⟨run ++ [(l, t)], ?_, ?_⟩
  · exact (isRun_append init run _).mpr ⟨hrun, hstep, trivial⟩
  · rw [final_append]
    rfl

/-- Induction over the run that reaches a state. -/
theorem Reachable.invariant {init t : S} (h : Reachable step init t)
    (start : P init) (preserved : ∀ s l t, P s → step s l t → P t) : P t := by
  obtain ⟨run, hrun, rfl⟩ := h
  apply final_of_allStates
  exact allStates_of_step (fun s l t hs _ => preserved s l t hs) init run start hrun
    (allSteps_true init run)

end Odorobo.Transition
