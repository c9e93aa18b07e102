import Odorobo.Program

/-! Programs run against a world. The world answers each call, maybe in several ways,
and may change with the answer. -/

namespace Odorobo.Program

variable {C : Type} {R : C → Type} {S α β : Type}

/-- From `s` the program can end in `s'` with a result, when `env s c r s'` says that
the world may answer `c` by `r` and become `s'`. -/
inductive Execs (env : S → (c : C) → R c → S → Prop) : S → Program C R α → S → α → Prop where
  | done (s : S) (a : α) : Execs env s (.done a) s a
  | call {s u s' : S} {c : C} {r : R c} {next : R c → Program C R α} {a : α}
      (answer : env s c r u) (rest : Execs env u (next r) s' a) :
      Execs env s (.call c next) s' a

variable {env : S → (c : C) → R c → S → Prop} {s s' : S}

@[simp] theorem execs_done {a b : α} : Execs env s (.done a) s' b ↔ s = s' ∧ a = b := by
  constructor
  · intro h
    cases h
    exact ⟨rfl, rfl⟩
  · rintro ⟨rfl, rfl⟩
    exact .done s a

theorem execs_call {c : C} {next : R c → Program C R α} {a : α} :
    Execs env s (.call c next) s' a ↔ ∃ r u, env s c r u ∧ Execs env u (next r) s' a := by
  constructor
  · intro h
    cases h with
    | call answer rest => exact ⟨_, _, answer, rest⟩
  · rintro ⟨r, u, answer, rest⟩
    exact .call answer rest

theorem execs_bind {p : Program C R α} {f : α → Program C R β} {b : β} :
    Execs env s (p.bind f) s' b ↔ ∃ u a, Execs env s p u a ∧ Execs env u (f a) s' b := by
  induction p generalizing s with
  | done a => simp [bind]
  | call c next ih =>
    rw [bind, execs_call]
    constructor
    · rintro ⟨r, u, answer, rest⟩
      obtain ⟨v, a, hfirst, hthen⟩ := (ih r).mp rest
      exact ⟨v, a, .call answer hfirst, hthen⟩
    · rintro ⟨v, a, hfirst, hthen⟩
      obtain ⟨r, u, answer, rest⟩ := execs_call.mp hfirst
      exact ⟨r, u, answer, (ih r).mpr ⟨v, a, rest, hthen⟩⟩

@[simp] theorem execs_ask {c : C} {r : R c} : Execs env s (ask c) s' r ↔ env s c r s' := by
  simp [ask, execs_call]

theorem execs_andThen {p : Program C R (Except String α)} {f : α → Program C R (Except String β)}
    {result : Except String β} :
    Execs env s (p.andThen f) s' result ↔
      (∃ e, result = .error e ∧ Execs env s p s' (.error e)) ∨
        ∃ u a, Execs env s p u (.ok a) ∧ Execs env u (f a) s' result := by
  rw [andThen, execs_bind]
  constructor
  · rintro ⟨u, first, hfirst, hthen⟩
    cases first with
    | error e =>
      obtain ⟨rfl, rfl⟩ := execs_done.mp hthen
      exact Or.inl ⟨e, rfl, hfirst⟩
    | ok a => exact Or.inr ⟨u, a, hfirst, hthen⟩
  · rintro (⟨e, rfl, hfirst⟩ | ⟨u, a, hfirst, hthen⟩)
    · exact ⟨s', .error e, hfirst, .done s' _⟩
    · exact ⟨u, .ok a, hfirst, hthen⟩

/-- A program whose result is passed on. -/
theorem execs_bind_done {p : Program C R α} {g : α → β} {b : β} :
    Execs env s (p.bind fun a => .done (g a)) s' b ↔ ∃ a, Execs env s p s' a ∧ b = g a := by
  rw [execs_bind]
  constructor
  · rintro ⟨u, a, hrun, hdone⟩
    obtain ⟨rfl, rfl⟩ := execs_done.mp hdone
    exact ⟨a, hrun, rfl⟩
  · rintro ⟨a, hrun, rfl⟩
    exact ⟨s', a, hrun, .done s' _⟩

theorem execs_wrapErr {message : String} {p : Program C R (Except String α)}
    {result : Except String α} :
    Execs env s (p.wrapErr message) s' result ↔
      ∃ inner, Execs env s p s' inner ∧ result = inner.mapError fun _ => message :=
  execs_bind_done

theorem execs_wrapErr_ok {message : String} {p : Program C R (Except String α)} {a : α} :
    Execs env s (p.wrapErr message) s' (.ok a) ↔ Execs env s p s' (.ok a) := by
  rw [execs_wrapErr]
  constructor
  · rintro ⟨inner, hrun, heq⟩
    cases inner with
    | error e => cases heq
    | ok b =>
      obtain rfl := Except.ok.inj heq
      exact hrun
  · intro h
    exact ⟨.ok a, h, rfl⟩

/-- What the answers to the calls a program makes all keep, the program keeps. -/
theorem Execs.keeps {Q : C → Prop} {P : S → Prop} {p : Program C R α} {a : α}
    (step : ∀ s c r s', Q c → env s c r s' → P s → P s') (only : p.Only Q)
    (h : Execs env s p s' a) (hs : P s) : P s' := by
  induction h with
  | done s a => exact hs
  | call answer rest ih => exact ih (only.2 _) (step _ _ _ _ only.1 answer hs)

end Odorobo.Program
