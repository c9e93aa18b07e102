import Mathlib.Data.List.Basic

/-! Programs that call the outside world. A program is a tree: it is done, or it
makes a call and goes on with whatever answer comes back. A trace lists the calls
with their answers, so that a statement about all traces is one about every
combination of outcomes. -/

namespace Odorobo

inductive Program (C : Type) (R : C → Type) (α : Type) where
  | done (result : α)
  | call (c : C) (next : R c → Program C R α)

namespace Program

variable {C : Type} {R : C → Type} {α β : Type}

def bind : Program C R α → (α → Program C R β) → Program C R β
  | done a, f => f a
  | call c next, f => call c fun r => (next r).bind f

theorem bind_assoc {γ : Type} (p : Program C R α) (f : α → Program C R β)
    (g : β → Program C R γ) : (p.bind f).bind g = p.bind fun a => (f a).bind g := by
  induction p with
  | done a => rfl
  | call c next ih =>
    rw [bind, bind, bind]
    congr 1
    funext r
    exact ih r

def ask (c : C) : Program C R (R c) := call c done

/-- Go on only after a success. -/
def andThen (p : Program C R (Except String α)) (f : α → Program C R (Except String β)) :
    Program C R (Except String β) :=
  p.bind fun
    | .error e => done (.error e)
    | .ok a => f a

/-- Report a failure by another message. -/
def wrapErr (message : String) (p : Program C R (Except String α)) : Program C R (Except String α) :=
  p.bind fun result => done (result.mapError fun _ => message)

/-- The calls of a run with their answers. -/
abbrev Trace (C : Type) (R : C → Type) := List ((c : C) × R c)

inductive Runs : Program C R α → Trace C R → α → Prop where
  | done (a : α) : Runs (.done a) [] a
  | call (c : C) (next : R c → Program C R α) (r : R c) (trace : Trace C R) (a : α)
      (rest : Runs (next r) trace a) : Runs (.call c next) (⟨c, r⟩ :: trace) a

@[simp] theorem runs_done {a b : α} {trace : Trace C R} :
    Runs (.done a) trace b ↔ trace = [] ∧ a = b := by
  constructor
  · intro h
    cases h
    exact ⟨rfl, rfl⟩
  · rintro ⟨rfl, rfl⟩
    exact .done a

theorem runs_call {c : C} {next : R c → Program C R α} {trace : Trace C R} {a : α} :
    Runs (.call c next) trace a ↔ ∃ r rest, trace = ⟨c, r⟩ :: rest ∧ Runs (next r) rest a := by
  constructor
  · intro h
    cases h with
    | call _ _ r rest _ hrest => exact ⟨r, rest, rfl, hrest⟩
  · rintro ⟨r, rest, rfl, hrest⟩
    exact .call c next r rest a hrest

theorem runs_bind {p : Program C R α} {f : α → Program C R β} {trace : Trace C R} {b : β} :
    Runs (p.bind f) trace b ↔
      ∃ before a after, trace = before ++ after ∧ Runs p before a ∧ Runs (f a) after b := by
  induction p generalizing trace with
  | done a => simp [bind]
  | call c next ih =>
    rw [bind, runs_call]
    constructor
    · rintro ⟨r, rest, rfl, hrest⟩
      obtain ⟨before, a, after, rfl, hbefore, hafter⟩ := (ih r).mp hrest
      exact ⟨⟨c, r⟩ :: before, a, after, rfl, .call c next r before a hbefore, hafter⟩
    · rintro ⟨before, a, after, rfl, hbefore, hafter⟩
      obtain ⟨r, rest, rfl, hrest⟩ := runs_call.mp hbefore
      exact ⟨r, rest ++ after, rfl, (ih r).mpr ⟨rest, a, after, rfl, hrest, hafter⟩⟩

/-- A program whose result is passed on. -/
theorem runs_bind_done {p : Program C R α} {g : α → β} {trace : Trace C R} {b : β} :
    Runs (p.bind fun a => .done (g a)) trace b ↔ ∃ a, Runs p trace a ∧ g a = b := by
  rw [runs_bind]
  constructor
  · rintro ⟨before, a, after, rfl, hrun, hdone⟩
    obtain ⟨rfl, rfl⟩ := runs_done.mp hdone
    exact ⟨a, by simpa using hrun, rfl⟩
  · rintro ⟨a, hrun, rfl⟩
    exact ⟨trace, a, [], by simp, hrun, by simp⟩

@[simp] theorem runs_ask {c : C} {trace : Trace C R} {r : R c} :
    Runs (ask c) trace r ↔ trace = [⟨c, r⟩] := by
  simp [ask, runs_call]

/-- A sequence fails with its first part, or goes on after it. -/
theorem runs_andThen {p : Program C R (Except String α)} {f : α → Program C R (Except String β)}
    {trace : Trace C R} {result : Except String β} :
    Runs (p.andThen f) trace result ↔
      (∃ e, result = .error e ∧ Runs p trace (.error e)) ∨
        ∃ before a after, trace = before ++ after ∧ Runs p before (.ok a) ∧
          Runs (f a) after result := by
  rw [andThen, runs_bind]
  constructor
  · rintro ⟨before, r, after, rfl, hbefore, hafter⟩
    cases r with
    | error e =>
      obtain ⟨rfl, rfl⟩ := runs_done.mp hafter
      exact Or.inl ⟨e, rfl, by simpa using hbefore⟩
    | ok a => exact Or.inr ⟨before, a, after, rfl, hbefore, hafter⟩
  · rintro (⟨e, rfl, hrun⟩ | ⟨before, a, after, rfl, hbefore, hafter⟩)
    · exact ⟨trace, .error e, [], by simp, hrun, by simp⟩
    · exact ⟨before, .ok a, after, rfl, hbefore, hafter⟩

theorem runs_wrapErr {message : String} {p : Program C R (Except String α)} {trace : Trace C R}
    {result : Except String α} :
    Runs (p.wrapErr message) trace result ↔
      ∃ inner, Runs p trace inner ∧ result = inner.mapError fun _ => message := by
  rw [wrapErr, runs_bind_done]
  simp only [eq_comm]

theorem andThen_done (p : Program C R (Except String α)) (g : α → β) :
    (p.andThen fun a => .done (.ok (g a))) = p.bind fun inner => .done (inner.map g) := by
  unfold andThen
  congr 1
  funext inner
  cases inner <;> rfl

theorem runs_andThen_done {p : Program C R (Except String α)} {g : α → β} {trace : Trace C R}
    {result : Except String β} :
    Runs (p.andThen fun a => .done (.ok (g a))) trace result ↔
      ∃ inner, Runs p trace inner ∧ inner.map g = result := by
  rw [andThen_done, runs_bind_done]

/-! Which calls a program can make, and in which order. -/

/-- However the calls are answered, only calls of `P` are made. -/
def Only (P : C → Prop) : Program C R α → Prop
  | done _ => True
  | call c next => P c ∧ ∀ r, Only P (next r)

theorem Only.runs {P : C → Prop} {p : Program C R α} (h : p.Only P) {trace : Trace C R} {a : α}
    (run : Runs p trace a) : ∀ entry ∈ trace, P entry.1 := by
  induction run with
  | done a => simp
  | call c next r trace a rest ih =>
    intro entry hentry
    cases List.mem_cons.mp hentry with
    | inl heq => exact heq ▸ h.1
    | inr hlater => exact ih (h.2 r) entry hlater

theorem only_ask {P : C → Prop} {c : C} (h : P c) : (ask c : Program C R (R c)).Only P :=
  ⟨h, fun _ => trivial⟩

theorem only_bind {P : C → Prop} {p : Program C R α} {f : α → Program C R β} (hp : p.Only P)
    (hf : ∀ a, (f a).Only P) : (p.bind f).Only P := by
  induction p with
  | done a => exact hf a
  | call c next ih => exact ⟨hp.1, fun r => ih r (hp.2 r)⟩

theorem only_andThen {P : C → Prop} {p : Program C R (Except String α)}
    {f : α → Program C R (Except String β)} (hp : p.Only P) (hf : ∀ a, (f a).Only P) :
    (p.andThen f).Only P := by
  apply only_bind hp
  intro result
  cases result with
  | error e => trivial
  | ok a => exact hf a

theorem only_wrapErr {P : C → Prop} {message : String} {p : Program C R (Except String α)}
    (hp : p.Only P) : (p.wrapErr message).Only P :=
  only_bind hp fun _ => trivial

theorem only_mono {P Q : C → Prop} (h : ∀ c, P c → Q c) {p : Program C R α} (hp : p.Only P) :
    p.Only Q := by
  induction p with
  | done a => trivial
  | call c next ih => exact ⟨h c hp.1, fun r => ih r (hp.2 r)⟩

/-- A call of `later` is made only once a call of `first` has been made. -/
def Ordered (first later : C → Prop) : Program C R α → Prop → Prop
  | done _, _ => True
  | call c next, seen => (later c → seen) ∧ ∀ r, Ordered first later (next r) (seen ∨ first c)

theorem Ordered.runs {first later : C → Prop} {seen : Prop} {p : Program C R α}
    (h : p.Ordered first later seen) {trace : Trace C R} {a : α} (run : Runs p trace a)
    {before after : Trace C R} {entry : (c : C) × R c} (split : trace = before ++ entry :: after)
    (hlater : later entry.1) : seen ∨ ∃ earlier ∈ before, first earlier.1 := by
  induction run generalizing seen before with
  | done a => simp at split
  | call c next r trace a rest ih =>
    cases before with
    | nil =>
      obtain ⟨rfl, rfl⟩ := List.cons.inj split
      exact Or.inl (h.1 hlater)
    | cons head before =>
      obtain ⟨rfl, hrest⟩ := List.cons.inj split
      obtain (hseen | hfirst) | ⟨earlier, hmem, hfirst⟩ := ih (h.2 r) hrest
      · exact Or.inl hseen
      · exact Or.inr ⟨_, List.mem_cons_self, hfirst⟩
      · exact Or.inr ⟨earlier, List.mem_cons_of_mem _ hmem, hfirst⟩

/-- The run in which a call is answered by what it is. -/
def run (answer : (c : C) → R c) : Program C R α → Trace C R × α
  | done a => ([], a)
  | call c next =>
    let rest := (next (answer c)).run answer
    (⟨c, answer c⟩ :: rest.1, rest.2)

theorem runs_run (answer : (c : C) → R c) (p : Program C R α) :
    Runs p (p.run answer).1 (p.run answer).2 := by
  induction p with
  | done a => exact .done a
  | call c next ih => exact .call c next (answer c) _ _ (ih (answer c))

/-- The program after the answer to a call, if it is at that call. -/
def resume [DecidableEq C] (c : C) (r : R c) : Program C R α → Option (Program C R α)
  | done _ => none
  | call c' next => if h : c = c' then some (next (h ▸ r)) else none

theorem eq_call_of_resume [DecidableEq C] {c : C} {r : R c} {p q : Program C R α}
    (h : p.resume c r = some q) : ∃ next, p = call c next ∧ q = next r := by
  cases p with
  | done a => simp [resume] at h
  | call c' next =>
    rw [resume] at h
    by_cases heq : c = c'
    · subst heq
      rw [dif_pos rfl] at h
      exact ⟨next, rfl, (Option.some.inj h).symm⟩
    · simp [dif_neg heq] at h

/-- A result and whether one of the answers gave something: `post` holds of both at
the end, however the calls are answered. -/
def Earns (gives : (c : C) → R c → Bool) (post : α → Bool → Prop) : Program C R α → Bool → Prop
  | done a, given => post a given
  | call c next, given => ∀ r, Earns gives post (next r) (given || gives c r)

theorem earns_bind {gives : (c : C) → R c → Bool} {post : β → Bool → Prop} {p : Program C R α}
    {f : α → Program C R β} {given : Bool}
    (h : p.Earns gives (fun a given => (f a).Earns gives post given) given) :
    (p.bind f).Earns gives post given := by
  induction p generalizing given with
  | done a => exact h
  | call c next ih => exact fun r => ih r (h r)

theorem earns_mono {gives : (c : C) → R c → Bool} {post post' : α → Bool → Prop}
    (h : ∀ a given, post a given → post' a given) {p : Program C R α} {given : Bool}
    (hp : p.Earns gives post given) : p.Earns gives post' given := by
  induction p generalizing given with
  | done a => exact h a given hp
  | call c next ih => exact fun r => ih r (hp r)

theorem earns_andThen {gives : (c : C) → R c → Bool} {post : Except String β → Bool → Prop}
    {p : Program C R (Except String α)} {f : α → Program C R (Except String β)} {given : Bool}
    (h : p.Earns gives (fun result given => (∀ e, result = .error e → post (.error e) given) ∧
      ∀ a, result = .ok a → (f a).Earns gives post given) given) :
    (p.andThen f).Earns gives post given := by
  apply earns_bind
  refine earns_mono ?_ h
  intro result given hresult
  cases result with
  | error e => exact hresult.1 e rfl
  | ok a => exact hresult.2 a rfl

/-- What was given stays given. -/
theorem earns_of_given {gives : (c : C) → R c → Bool} {post : α → Bool → Prop}
    (h : ∀ a, post a true) (p : Program C R α) : p.Earns gives post true := by
  induction p with
  | done a => exact h a
  | call c next ih => exact fun r => ih r

end Program

end Odorobo
