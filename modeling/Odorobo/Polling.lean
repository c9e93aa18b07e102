import Odorobo.Program
import Odorobo.Saturating
import Odorobo.Transition
import Mathlib.Data.List.Induction

/-! Loops of programs, and tasks that poll until too many polls fail in a row. A run
of a loop is one of its rounds; what each round keeps holds of all calls made so far. -/

namespace Odorobo.Program

variable {C : Type} {R : C → Type} {S : Type}

/-- A round goes on with a new state or ends the loop. -/
def Round (body : S → Program C R (Option S)) (x : Option S) (trace : Trace C R)
    (y : Option S) : Prop :=
  ∃ s, x = some s ∧ Runs (body s) trace y

def callsOf (run : List (Trace C R × Option S)) : Trace C R := (run.map Prod.fst).flatten

theorem round_invariant {body : S → Program C R (Option S)}
    {inv : Trace C R → Option S → Prop}
    (kept : ∀ before s trace y, inv before (some s) → Runs (body s) trace y →
      inv (before ++ trace) y)
    {before : Trace C R} {x : Option S} (start : inv before x)
    {run : List (Trace C R × Option S)} (h : Transition.IsRun (Round body) x run) :
    inv (before ++ callsOf run) (Transition.final x run) := by
  induction run generalizing before x with
  | nil => simpa [callsOf, Transition.final] using start
  | cons head rest ih =>
    obtain ⟨trace, y⟩ := head
    obtain ⟨⟨s, rfl, hround⟩, hrest⟩ := h
    have hnext := ih (kept before s trace y start hround) hrest
    simpa [callsOf, Transition.final] using hnext

/-- The rounds in which the calls are answered as given, up to the end of the loop. -/
def playRounds (body : S → Program C R (Option S)) :
    S → List ((c : C) → R c) → List (Trace C R × Option S)
  | _, [] => []
  | s, answer :: rest =>
    let round := (body s).run answer
    (round.1, round.2) :: match round.2 with
      | some next => playRounds body next rest
      | none => []

theorem isRun_playRounds (body : S → Program C R (Option S)) (s : S)
    (answers : List ((c : C) → R c)) :
    Transition.IsRun (Round body) (some s) (playRounds body s answers) := by
  induction answers generalizing s with
  | nil => trivial
  | cons answer rest ih =>
    refine ⟨⟨s, rfl, runs_run answer (body s)⟩, ?_⟩
    cases ((body s).run answer).2 with
    | none => trivial
    | some next => exact ih next

/-! Failures in a row. -/

/-- How many of the last outcomes are failures. -/
def streak (outcomes : List Bool) : Nat :=
  outcomes.foldl (fun failures ok => if ok then 0 else failures + 1) 0

@[simp] theorem streak_nil : streak [] = 0 := rfl

theorem streak_snoc (outcomes : List Bool) (ok : Bool) :
    streak (outcomes ++ [ok]) = if ok then 0 else streak outcomes + 1 := by
  rw [streak, List.foldl_append]
  rfl

theorem replicate_suffix_iff (n : Nat) (outcomes : List Bool) :
    List.replicate n false <:+ outcomes ↔ n ≤ streak outcomes := by
  induction outcomes using List.reverseRecOn generalizing n with
  | nil => simp
  | append_singleton outcomes ok ih =>
    rw [streak_snoc, List.suffix_concat_iff]
    cases n with
    | zero => simp
    | succ n =>
      cases ok with
      | true => simp [List.replicate_succ']
      | false => simp [List.replicate_succ', ih]

/-- An outcome completes a row of failures, or there was one before. -/
theorem replicate_infix_snoc (n : Nat) (outcomes : List Bool) (ok : Bool) :
    List.replicate n false <:+: outcomes ++ [ok] ↔
      n ≤ streak (outcomes ++ [ok]) ∨ List.replicate n false <:+: outcomes := by
  rw [List.infix_concat_iff, replicate_suffix_iff]

/-! Polling. -/

/-- What a poll comes to: an answer that was passed on, no answer, or an answer that
could not be passed on. -/
inductive Polled (S : Type) where
  | answered (next : S)
  | missed
  | silenced

def Polled.isAnswered : Polled S → Bool
  | missed => false
  | _ => true

section Rounds

variable (limit : Fin (2 ^ 8)) (stop tick : C)

/-- The end of a round: give notice and end, or wait. -/
def settle (s : S) (fails : Fin (2 ^ 8)) : Program C R (Option (S × Fin (2 ^ 8))) :=
  if limit < fails then .call stop fun _ => .done none
  else .call tick fun _ => .done (some (s, fails))

def pollRound (poll : S → Program C R (Polled S)) (x : S × Fin (2 ^ 8)) :
    Program C R (Option (S × Fin (2 ^ 8))) :=
  (poll x.1).bind fun
    | .silenced => .done none
    | .answered next => settle limit stop tick next 0
    | .missed => settle limit stop tick x.1 (Saturating.add x.2 1)

/-- How the entries of a trace are read: a poll has one outcome, and is silenced by a
notice that got lost. -/
structure Observed (poll : S → Program C R (Polled S)) (outcome : (c : C) × R c → Option Bool)
    (lost : (c : C) × R c → Bool) : Prop where
  outcomes : ∀ s trace polled, Runs (poll s) trace polled →
    trace.filterMap outcome = [polled.isAnswered]
  silenced : ∀ s trace polled, Runs (poll s) trace polled →
    ((∃ entry ∈ trace, lost entry = true) ↔ polled = .silenced)
  unstopped : ∀ s trace polled, Runs (poll s) trace polled → ∀ entry ∈ trace, entry.1 ≠ stop
  distinct : stop ≠ tick
  settles : ∀ c, c = stop ∨ c = tick → ∀ r, outcome ⟨c, r⟩ = none ∧ lost ⟨c, r⟩ = false

variable {limit stop tick} {poll : S → Program C R (Polled S)}
  {outcome : (c : C) × R c → Option Bool} {lost : (c : C) × R c → Bool}

theorem runs_settle {s : S} {fails : Fin (2 ^ 8)} {trace : Trace C R}
    {y : Option (S × Fin (2 ^ 8))} :
    Runs (settle limit stop tick s fails) trace y ↔
      (limit < fails ∧ y = none ∧ ∃ r, trace = [⟨stop, r⟩]) ∨
        (fails ≤ limit ∧ y = some (s, fails) ∧ ∃ r, trace = [⟨tick, r⟩]) := by
  unfold settle
  split
  · next hover =>
    have hnot : ¬ fails ≤ limit := Fin.not_le.mpr hover
    rw [runs_call]
    constructor
    · rintro ⟨r, rest, rfl, hdone⟩
      obtain ⟨rfl, rfl⟩ := runs_done.mp hdone
      exact Or.inl ⟨hover, rfl, r, rfl⟩
    · rintro (⟨-, rfl, r, rfl⟩ | ⟨hle, -⟩)
      · exact ⟨r, [], rfl, .done none⟩
      · exact absurd hle hnot
  · next hunder =>
    rw [runs_call]
    constructor
    · rintro ⟨r, rest, rfl, hdone⟩
      obtain ⟨rfl, rfl⟩ := runs_done.mp hdone
      exact Or.inr ⟨Fin.not_lt.mp hunder, rfl, r, rfl⟩
    · rintro (⟨hlt, -⟩ | ⟨-, rfl, r, rfl⟩)
      · exact absurd hlt hunder
      · exact ⟨r, [], rfl, .done _⟩

variable (limit stop outcome)

/-- No row of failures was too long so far, and no notice was given. -/
structure Patient (trace : Trace C R) : Prop where
  within : ¬ List.replicate (limit.val + 1) false <:+: trace.filterMap outcome
  unstopped : ∀ entry ∈ trace, entry.1 ≠ stop

/-- Notice was given at the end, after too long a row of failures. -/
def GaveUp (trace : Trace C R) : Prop :=
  ∃ before r, trace = before ++ [⟨stop, r⟩] ∧ (∀ entry ∈ before, entry.1 ≠ stop) ∧
    List.replicate (limit.val + 1) false <:+ before.filterMap outcome

variable (lost)

def Watch (trace : Trace C R) : Option (S × Fin (2 ^ 8)) → Prop
  | some (_, fails) => Patient limit stop outcome trace ∧ (∀ entry ∈ trace, lost entry = false) ∧
      fails.val = streak (trace.filterMap outcome)
  | none => (Patient limit stop outcome trace ∧ ∃ entry ∈ trace, lost entry = true) ∨
      (GaveUp limit stop outcome trace ∧ ∀ entry ∈ trace, lost entry = false)

variable {limit stop outcome lost}

theorem Patient.append {before after : Trace C R} (h : Patient limit stop outcome before)
    (hafter : ∀ entry ∈ after, entry.1 ≠ stop) {ok : Bool}
    (houtcome : after.filterMap outcome = [ok])
    (hwithin : streak (before.filterMap outcome ++ [ok]) ≤ limit.val) :
    Patient limit stop outcome (before ++ after) where
  within := by
    rw [List.filterMap_append, houtcome, replicate_infix_snoc]
    rintro (hlong | hearlier)
    · omega
    · exact h.within hearlier
  unstopped entry hentry := by
    cases List.mem_append.mp hentry with
    | inl hbefore => exact h.unstopped entry hbefore
    | inr hnew => exact hafter entry hnew

theorem Patient.settled {trace : Trace C R} (h : Patient limit stop outcome trace) (r : R tick)
    (hdistinct : stop ≠ tick) (htick : outcome ⟨tick, r⟩ = none) :
    Patient limit stop outcome (trace ++ [⟨tick, r⟩]) where
  within := by simpa [htick] using h.within
  unstopped entry hentry := by
    cases List.mem_append.mp hentry with
    | inl hbefore => exact h.unstopped entry hbefore
    | inr hnew =>
      obtain rfl := List.mem_singleton.mp hnew
      exact hdistinct.symm

theorem Patient.streak_le {trace : Trace C R} (h : Patient limit stop outcome trace) :
    streak (trace.filterMap outcome) ≤ limit.val := by
  by_contra hover
  have hsuffix := (replicate_suffix_iff (limit.val + 1) (trace.filterMap outcome)).mpr (by omega)
  exact h.within hsuffix.isInfix

/-- The task goes on after a poll that leaves the row of failures short enough. -/
theorem Patient.watch {before asked : Trace C R} (hpatient : Patient limit stop outcome before)
    (hunlost : ∀ entry ∈ before ++ asked, lost entry = false)
    (hasked : ∀ entry ∈ asked, entry.1 ≠ stop) {ok : Bool}
    (houtcome : asked.filterMap outcome = [ok]) {fails : Fin (2 ^ 8)}
    (hfails : fails.val = streak (before.filterMap outcome ++ [ok])) (hle : fails ≤ limit)
    (hdistinct : stop ≠ tick) {r : R tick}
    (htick : outcome ⟨tick, r⟩ = none ∧ lost ⟨tick, r⟩ = false) (s : S) :
    Watch limit stop outcome lost (before ++ (asked ++ [⟨tick, r⟩])) (some (s, fails)) := by
  have hwithin : streak (before.filterMap outcome ++ [ok]) ≤ limit.val := by
    rw [← hfails]
    exact hle
  rw [← List.append_assoc]
  refine ⟨(hpatient.append hasked houtcome hwithin).settled r hdistinct htick.1, ?_, ?_⟩
  · intro entry hentry
    cases List.mem_append.mp hentry with
    | inl hbefore => exact hunlost entry hbefore
    | inr hnew =>
      obtain rfl := List.mem_singleton.mp hnew
      exact htick.2
  · simp [houtcome, htick.1, hfails]

/-- A round keeps the watch: the task counts failures exactly, and gives notice when
they are one more than the limit. -/
theorem watch_round (hlimit : limit.val < 2 ^ 8 - 1)
    (h : Observed stop tick poll outcome lost) {before trace : Trace C R} {s : S}
    {fails : Fin (2 ^ 8)} {y : Option (S × Fin (2 ^ 8))}
    (hwatch : Watch limit stop outcome lost before (some (s, fails)))
    (hround : Runs (pollRound limit stop tick poll (s, fails)) trace y) :
    Watch limit stop outcome lost (before ++ trace) y := by
  obtain ⟨hpatient, hunlost, hfails⟩ := hwatch
  unfold pollRound at hround
  obtain ⟨asked, polled, settled, rfl, hasked, hsettled⟩ := runs_bind.mp hround
  have houtcome := h.outcomes s asked polled hasked
  have hsilenced := h.silenced s asked polled hasked
  have hunstopped := h.unstopped s asked polled hasked
  have hkept : polled ≠ .silenced → ∀ entry ∈ before ++ asked, lost entry = false := by
    intro hnot entry hentry
    cases List.mem_append.mp hentry with
    | inl hbefore => exact hunlost entry hbefore
    | inr hnew =>
      by_contra hlost
      exact hnot (hsilenced.mp ⟨entry, hnew, by simpa using hlost⟩)
  cases polled with
  | silenced =>
    obtain ⟨rfl, rfl⟩ := runs_done.mp hsettled
    obtain ⟨entry, hentry, hlost⟩ := hsilenced.mpr rfl
    rw [List.append_nil]
    refine Or.inl ⟨hpatient.append hunstopped houtcome ?_, entry, ?_, hlost⟩
    · simp [Polled.isAnswered, streak_snoc]
    · exact List.mem_append_right _ hentry
  | answered next =>
    rcases runs_settle.mp hsettled with ⟨hover, -⟩ | ⟨hle, rfl, r, rfl⟩
    · exact absurd hover (Fin.not_lt_zero limit)
    · refine hpatient.watch (hkept (by simp)) hunstopped houtcome ?_ hle h.distinct
        (h.settles tick (Or.inr rfl) r) next
      simp [Polled.isAnswered, streak_snoc]
  | missed =>
    have hle := hpatient.streak_le
    have hnext : (Saturating.add fails 1).val = streak (before.filterMap outcome ++ [false]) := by
      rw [streak_snoc, Saturating.val_add, hfails]
      simp only [Bool.false_eq_true, if_false, Fin.val_one]
      omega
    rcases runs_settle.mp hsettled with ⟨hover, rfl, r, rfl⟩ | ⟨hle, rfl, r, rfl⟩
    · refine Or.inr ⟨⟨before ++ asked, r, (List.append_assoc ..).symm, ?_, ?_⟩, ?_⟩
      · intro entry hentry
        cases List.mem_append.mp hentry with
        | inl hbefore => exact hpatient.unstopped entry hbefore
        | inr hnew => exact hunstopped entry hnew
      · rw [List.filterMap_append, houtcome, replicate_suffix_iff]
        change _ ≤ streak (before.filterMap outcome ++ [false])
        rw [← hnext]
        exact hover
      · intro entry hentry
        rw [← List.append_assoc] at hentry
        cases List.mem_append.mp hentry with
        | inl hbefore => exact hkept (by simp) entry hbefore
        | inr hnew =>
          obtain rfl := List.mem_singleton.mp hnew
          exact (h.settles stop (Or.inl rfl) r).2
    · exact hpatient.watch (hkept (by simp)) hunstopped houtcome hnext hle h.distinct
        (h.settles tick (Or.inr rfl) r) s

theorem watch_run (hlimit : limit.val < 2 ^ 8 - 1) (h : Observed stop tick poll outcome lost)
    {s : S} {run : List (Trace C R × Option (S × Fin (2 ^ 8)))}
    (hrun : Transition.IsRun (Round (pollRound limit stop tick poll)) (some (s, 0)) run) :
    Watch limit stop outcome lost (callsOf run) (Transition.final (some (s, 0)) run) := by
  have hstart : Watch limit stop outcome lost [] (some (s, (0 : Fin (2 ^ 8)))) :=
    ⟨⟨by simp, by simp⟩, by simp, rfl⟩
  rw [← List.nil_append (callsOf run)]
  refine round_invariant ?_ hstart hrun
  intro before x trace y hwatch hround
  exact watch_round hlimit h hwatch hround

section Watched

variable {trace : Trace C R} {y : Option (S × Fin (2 ^ 8))}

/-- Notice is given exactly when too many polls in a row have failed. -/
theorem Watch.stopped_iff (h : Watch limit stop outcome lost trace y) :
    (∃ entry ∈ trace, entry.1 = stop) ↔
      List.replicate (limit.val + 1) false <:+: trace.filterMap outcome := by
  have hpatient : Patient limit stop outcome trace → ((∃ entry ∈ trace, entry.1 = stop) ↔
      List.replicate (limit.val + 1) false <:+: trace.filterMap outcome) := by
    intro hpatient
    refine iff_of_false ?_ hpatient.within
    rintro ⟨entry, hentry, hstop⟩
    exact hpatient.unstopped entry hentry hstop
  rcases y with _ | ⟨s, fails⟩
  · rcases h with ⟨hpatient', -⟩ | ⟨⟨before, r, rfl, -, hsuffix⟩, -⟩
    · exact hpatient hpatient'
    · refine iff_of_true ⟨⟨stop, r⟩, by simp, rfl⟩ ?_
      rw [List.filterMap_append]
      exact hsuffix.isInfix.trans (List.prefix_append _ _).isInfix
  · exact hpatient h.1

/-- Nothing follows the notice, and the polls that failed are the last before it. -/
theorem Watch.stopped_last (h : Watch limit stop outcome lost trace y) {before after : Trace C R}
    {entry : (c : C) × R c} (hsplit : trace = before ++ entry :: after) (hstop : entry.1 = stop) :
    after = [] ∧ List.replicate (limit.val + 1) false <:+ before.filterMap outcome := by
  have hmem : entry ∈ trace := by simp [hsplit]
  rcases y with _ | ⟨s, fails⟩
  · rcases h with ⟨hpatient, -⟩ | ⟨⟨earlier, r, hgave, hfirst, hsuffix⟩, -⟩
    · exact absurd hstop (hpatient.unstopped entry hmem)
    · rw [hgave] at hsplit
      rcases List.eq_nil_or_concat' after with rfl | ⟨rest, last, rfl⟩
      · obtain ⟨rfl, -⟩ := List.append_inj' hsplit rfl
        exact ⟨rfl, hsuffix⟩
      · -- the notice is the last entry of the trace and the only one
        rw [← List.cons_append, ← List.append_assoc] at hsplit
        obtain ⟨rfl, -⟩ := List.append_inj' hsplit rfl
        exact absurd hstop (hfirst entry (by simp))
  · exact absurd hstop (h.1.unstopped entry hmem)

/-- The task ends by giving notice, or when a notice of it gets lost. -/
theorem Watch.ended_iff (h : Watch limit stop outcome lost trace y) :
    y = none ↔ (∃ entry ∈ trace, entry.1 = stop) ∨ ∃ entry ∈ trace, lost entry = true := by
  rcases y with _ | ⟨s, fails⟩
  · refine iff_of_true rfl ?_
    rcases h with ⟨-, hlost⟩ | ⟨⟨before, r, rfl, -⟩, -⟩
    · exact Or.inr hlost
    · exact Or.inl ⟨⟨stop, r⟩, by simp, rfl⟩
  · refine iff_of_false (by simp) ?_
    rintro (⟨entry, hentry, hstop⟩ | ⟨entry, hentry, hlost⟩)
    · exact h.1.unstopped entry hentry hstop
    · simp [h.2.1 entry hentry] at hlost

end Watched

end Rounds

end Odorobo.Program
