import Odorobo.HashMap
import Mathlib.Data.Finset.Insert

/-! Sets that change one element at a time. A change is an element and whether it
was added; the log of all changes determines the set after any number of them.
A reader who holds the set as it was at one point needs only the last word on
each element changed since. -/

namespace Odorobo.ChangeLog

variable {α : Type} [DecidableEq α]

def apply (held : Finset α) (change : α × Bool) : Finset α :=
  if change.2 then insert change.1 held else held.erase change.1

def replay (log : List (α × Bool)) : Finset α := log.foldl apply ∅

/-- The set after the first `n` changes. -/
def heldAt (log : List (α × Bool)) (n : Nat) : Finset α := replay (log.take n)

/-- The last change of an element, if it changed at all. -/
def lastWord : List (α × Bool) → α → Option Bool
  | [], _ => none
  | change :: rest, a => (lastWord rest a).or (if change.1 = a then some change.2 else none)

theorem mem_apply {held : Finset α} {change : α × Bool} {a : α} :
    a ∈ apply held change ↔ if change.1 = a then change.2 = true else a ∈ held := by
  unfold apply
  by_cases heq : change.1 = a
  · subst heq
    cases change.2 <;> simp
  · have hne : a ≠ change.1 := fun h => heq h.symm
    cases change.2 <;> simp [heq, hne]

theorem mem_foldl_apply {changes : List (α × Bool)} {held : Finset α} {a : α} :
    a ∈ changes.foldl apply held ↔ (lastWord changes a).getD (decide (a ∈ held)) = true := by
  induction changes generalizing held with
  | nil => simp [lastWord]
  | cons change rest ih =>
    rw [List.foldl_cons, ih, lastWord]
    cases lastWord rest a with
    | some added => simp
    | none =>
      rw [Option.getD_none, decide_eq_true_eq, mem_apply]
      by_cases heq : change.1 = a <;> simp [heq]

theorem replay_append (log changes : List (α × Bool)) :
    replay (log ++ changes) = changes.foldl apply (replay log) :=
  List.foldl_append

@[simp] theorem heldAt_length (log : List (α × Bool)) : heldAt log log.length = replay log := by
  rw [heldAt, List.take_length]

/-- Later changes do not alter the past. -/
theorem heldAt_append {log : List (α × Bool)} (changes : List (α × Bool)) {n : Nat}
    (h : n ≤ log.length) : heldAt (log ++ changes) n = heldAt log n := by
  rw [heldAt, heldAt, List.take_append_of_le_length h]

/-- The added and the removed elements are the two last words. -/
structure Summarises (added removed : List α) (changes : List (α × Bool)) : Prop where
  added : ∀ a, a ∈ added ↔ lastWord changes a = some true
  removed : ∀ a, a ∈ removed ↔ lastWord changes a = some false

/-- A summary of what changed since brings a reader up to date. -/
theorem mem_replay_of_summary {log : List (α × Bool)} {since : Nat} {added removed : List α}
    (h : Summarises added removed (log.drop since)) (a : α) :
    a ∈ replay log ↔ a ∈ added ∨ (a ∈ heldAt log since ∧ a ∉ removed) := by
  have hsplit : replay log = (log.drop since).foldl apply (heldAt log since) := by
    rw [heldAt, ← replay_append, List.take_append_drop]
  rw [hsplit, mem_foldl_apply, h.added, h.removed]
  cases lastWord (log.drop since) a with
  | none => simp
  | some added => cases added <;> simp

/-- Inserting the changes one after the other leaves the last words in the map. -/
theorem get_foldl_insert (changes : List (α × Bool)) (m : AHashMap α Bool) (a : α) :
    (changes.foldl (fun m change => m.insert change.1 change.2) m).get a =
      (lastWord changes a).or (m.get a) := by
  induction changes generalizing m with
  | nil => rfl
  | cons change rest ih =>
    rw [List.foldl_cons, ih, AHashMap.get_insert, lastWord, Option.or_assoc]
    congr 1
    by_cases heq : change.1 = a
    · simp [heq]
    · have hne : a ≠ change.1 := fun h => heq h.symm
      simp [heq, hne]

end Odorobo.ChangeLog
