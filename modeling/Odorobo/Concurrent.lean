import Odorobo.HashMap
import Odorobo.Program
import Odorobo.Transition

/-! Programs that run side by side against one world. In a step one of them makes its
next call, goes on after its end, is started, or is killed wherever it is; the world may
also change by itself. An invariant of the world and an assertion about each program are
kept over runs when the calls of a program keep its own assertion and do not disturb
those of the others. -/

namespace Odorobo.Program

variable {I C : Type} [DecidableEq I] {R : C → Type} {W α : Type}

/-- What is left of each program that was started and not killed. -/
structure Pool (I C : Type) (R : C → Type) (W α : Type) where
  world : W
  threads : AHashMap I (Program C R α)

namespace Pool

/-- `starts id p w` says which programs may be started, `env id w c r w'` how the world
answers a call, `resumes id a p` what a program that has ended goes on with, `kills id`
which programs may be killed, and `outside` how the world changes by itself. -/
structure System (I C : Type) (R : C → Type) (W α : Type) where
  starts : I → Program C R α → W → Prop
  env : I → W → (c : C) → R c → W → Prop
  resumes : I → α → Program C R α → Prop
  kills : I → Prop
  outside : W → W → Prop

inductive Act (I C : Type) (R : C → Type) where
  | start (id : I)
  | work (id : I) (entry : (c : C) × R c)
  | resume (id : I)
  | kill (id : I)
  | outside

inductive Step (sys : System I C R W α) (x : Pool I C R W α) :
    Act I C R → Pool I C R W α → Prop where
  | start (id : I) (p : Program C R α) (fresh : x.threads.get id = none)
      (started : sys.starts id p x.world) :
      Step sys x (.start id) { x with threads := x.threads.insert id p }
  | work (id : I) (c : C) (next : R c → Program C R α) (r : R c) (w : W)
      (running : x.threads.get id = some (.call c next)) (answer : sys.env id x.world c r w) :
      Step sys x (.work id ⟨c, r⟩) ⟨w, x.threads.insert id (next r)⟩
  | resume (id : I) (a : α) (p : Program C R α) (ended : x.threads.get id = some (.done a))
      (again : sys.resumes id a p) :
      Step sys x (.resume id) { x with threads := x.threads.insert id p }
  | kill (id : I) (killed : sys.kills id) :
      Step sys x (.kill id) { x with threads := x.threads.erase id }
  | outside (w : W) (change : sys.outside x.world w) : Step sys x .outside { x with world := w }

/-- The world satisfies `J`, and every program what is asserted of it, also those that
are not there. -/
structure Holds (J : W → Prop) (assertion : I → Option (Program C R α) → W → Prop)
    (x : Pool I C R W α) : Prop where
  world : J x.world
  threads : ∀ id, assertion id (x.threads.get id) x.world

variable {sys : System I C R W α} {J : W → Prop}
  {assertion : I → Option (Program C R α) → W → Prop} {x y : Pool I C R W α}

theorem Holds.running (h : Holds J assertion x) {id : I} {p : Program C R α}
    (hget : x.threads.get id = some p) : assertion id (some p) x.world :=
  hget ▸ h.threads id

theorem Holds.insert (h : Holds J assertion x) {id : I} {p : Program C R α}
    (hp : assertion id (some p) x.world) :
    Holds J assertion { x with threads := x.threads.insert id p } := by
  refine ⟨h.world, fun other => ?_⟩
  rw [AHashMap.get_insert]
  split
  · next hid => exact hid ▸ hp
  · exact h.threads other

/-- A step keeps the invariant and the assertions, when the answer to a call establishes
the next assertion of its caller and leaves those of the others alone. -/
theorem Holds.step (h : Holds J assertion x)
    (starts : ∀ id p w, J w → assertion id none w → sys.starts id p w → assertion id (some p) w)
    (called : ∀ id c next r w u, J w → assertion id (some (.call c next)) w →
      sys.env id w c r u → J u ∧ assertion id (some (next r)) u)
    (undisturbed : ∀ id c next r w u, J w → assertion id (some (.call c next)) w →
      sys.env id w c r u → ∀ other p, other ≠ id → assertion other p w → assertion other p u)
    (resumed : ∀ id a p w, assertion id (some (.done a)) w → sys.resumes id a p →
      assertion id (some p) w)
    (killed : ∀ id p w, assertion id p w → sys.kills id → assertion id none w)
    {act : Act I C R} (calm : act = .outside → ∀ w, sys.outside x.world w →
      Holds J assertion { x with world := w })
    (hstep : Step sys x act y) : Holds J assertion y := by
  cases hstep with
  | start id p fresh started =>
    have habsent := h.threads id
    rw [fresh] at habsent
    exact h.insert (starts id p x.world h.world habsent started)
  | work id c next r w running answer =>
    have hcaller := h.running running
    have hcalled := called id c next r x.world w h.world hcaller answer
    refine ⟨hcalled.1, fun other => ?_⟩
    rw [AHashMap.get_insert]
    split
    · next hid => exact hid ▸ hcalled.2
    · next hid =>
      exact undisturbed id c next r x.world w h.world hcaller answer other _ hid (h.threads other)
  | resume id a p ended again => exact h.insert (resumed id a p x.world (h.running ended) again)
  | kill id hkills =>
    refine ⟨h.world, fun other => ?_⟩
    rw [AHashMap.get_erase]
    split
    · next hid => exact hid ▸ killed id _ x.world (h.threads id) hkills
    · exact h.threads other
  | outside w change => exact calm rfl w change

theorem Step.call {id : I} {p q : Program C R α} {c : C} {next : R c → Program C R α} {r : R c}
    {w : W} (running : x.threads.get id = some p) (heq : p = .call c next) (after : q = next r)
    (answer : sys.env id x.world c r w) :
    Step sys x (.work id ⟨c, r⟩) ⟨w, x.threads.insert id q⟩ := by
  subst heq after
  exact .work id c next r w running answer

end Pool

end Odorobo.Program
