import Mathlib.Algebra.BigOperators.Group.List.Defs
import Mathlib.Data.List.Infix

/-! Cutting a list at a separator: at the first or at the last occurrence. An
occurrence never reaches over an item that the separator does not have. -/

namespace Odorobo.Separator

variable {α : Type}

/-- An occurrence that does not end before a foreign item begins after it. -/
theorem begins_after {sep front xs before after : List α} {d : α} (hd : d ∉ sep)
    (hfront : ¬ sep <:+: front) (h : front ++ d :: xs = before ++ sep ++ after) :
    ∃ between, before = front ++ d :: between ∧ xs = between ++ sep ++ after := by
  have hne : sep ≠ [] := fun hnil => hfront (hnil ▸ List.nil_infix)
  rw [List.append_assoc] at h
  obtain ⟨gap, hbefore, hgap⟩ | ⟨gap, hbefore, hgap⟩ := List.append_eq_append_iff.mp h
  · cases gap with
    | nil =>
      obtain ⟨s, rest, rfl⟩ := List.exists_cons_of_ne_nil hne
      obtain rfl : d = s := (List.cons.inj hgap).1
      exact absurd List.mem_cons_self hd
    | cons g gap =>
      obtain ⟨rfl, rfl⟩ := List.cons.inj hgap
      exact ⟨gap, hbefore, (List.append_assoc _ _ _).symm⟩
  · -- the occurrence begins in `front`
    obtain ⟨rest, hgap', _⟩ | ⟨rest, hsep, hrest⟩ := List.append_eq_append_iff.mp hgap
    · exact absurd ⟨before, rest, by rw [hbefore, hgap', List.append_assoc]⟩ hfront
    · cases rest with
      | nil =>
        rw [List.append_nil] at hsep
        exact absurd ⟨before, [], by rw [hbefore, hsep, List.append_nil]⟩ hfront
      | cons r rest =>
        obtain rfl : d = r := (List.cons.inj hrest).1
        exact absurd (hsep ▸ List.mem_append_right gap List.mem_cons_self) hd

theorem infix_append_cons_iff {sep front xs : List α} {d : α} (hd : d ∉ sep) :
    sep <:+: front ++ d :: xs ↔ sep <:+: front ∨ sep <:+: xs := by
  constructor
  · rintro ⟨before, after, hcut⟩
    by_cases hfront : sep <:+: front
    · exact Or.inl hfront
    · obtain ⟨between, _, hxs⟩ := begins_after hd hfront hcut.symm
      exact Or.inr ⟨between, after, hxs.symm⟩
  · rintro (hfront | hxs)
    · exact hfront.trans (List.prefix_append _ _).isInfix
    · exact hxs.trans ((List.suffix_cons d xs).trans (List.suffix_append front _)).isInfix

variable [BEq α] [LawfulBEq α]

theorem not_mem_of_mem_splitOn {a : α} {xs part : List α} (h : part ∈ xs.splitOn a) :
    a ∉ part := by
  induction xs generalizing part with
  | nil =>
    rw [List.splitOn_nil, List.mem_singleton] at h
    rw [h]
    exact List.not_mem_nil
  | cons x xs ih =>
    rw [List.splitOn_cons_eq_if_modifyHead] at h
    split at h
    · cases List.mem_cons.mp h with
      | inl hempty => exact hempty ▸ List.not_mem_nil
      | inr hlater => exact ih hlater
    · next hx =>
      cases hparts : xs.splitOn a with
      | nil => exact absurd hparts (List.splitOn_ne_nil a xs)
      | cons first parts =>
        rw [hparts, List.modifyHead_cons, List.mem_cons] at h
        cases h with
        | inl hfirst =>
          have hxs := ih (hparts ▸ List.mem_cons_self)
          rw [hfirst, List.mem_cons, not_or]
          exact ⟨fun heq => hx (beq_iff_eq.mpr heq.symm), hxs⟩
        | inr hlater => exact ih (hparts ▸ List.mem_cons_of_mem first hlater)

def splitOnce (sep xs : List α) : Option (List α × List α) := xs.dropInfix? sep

def rsplitOnce (sep xs : List α) : Option (List α × List α) :=
  (splitOnce sep.reverse xs.reverse).map fun cut => (cut.2.reverse, cut.1.reverse)

theorem splitOnce_eq_some_iff {sep xs before after : List α} :
    splitOnce sep xs = some (before, after) ↔
      xs = before ++ sep ++ after ∧
        ∀ before' after', xs = before' ++ sep ++ after' → before.length ≤ before'.length := by
  rw [splitOnce, List.dropInfix?_eq_some_iff]
  constructor
  · rintro ⟨⟨sep', hcut, hsep⟩, hfirst⟩
    obtain rfl : sep' = sep := eq_of_beq hsep
    exact ⟨hcut, fun before' after' hcut' => hfirst before' sep' after' hcut' hsep⟩
  · rintro ⟨hcut, hfirst⟩
    refine ⟨⟨sep, hcut, beq_self_eq_true sep⟩, ?_⟩
    intro before' sep' after' hcut' hsep
    obtain rfl : sep' = sep := eq_of_beq hsep
    exact hfirst before' after' hcut'

theorem rsplitOnce_eq_some_iff {sep xs before after : List α} :
    rsplitOnce sep xs = some (before, after) ↔
      xs = before ++ sep ++ after ∧
        ∀ before' after', xs = before' ++ sep ++ after' → after.length ≤ after'.length := by
  have hreverse : rsplitOnce sep xs = some (before, after) ↔
      splitOnce sep.reverse xs.reverse = some (after.reverse, before.reverse) := by
    rw [rsplitOnce, Option.map_eq_some_iff]
    constructor
    · rintro ⟨cut, hcut, heq⟩
      rw [hcut, ← (Prod.mk.inj heq).1, ← (Prod.mk.inj heq).2, List.reverse_reverse,
        List.reverse_reverse]
    · intro hcut
      exact ⟨_, hcut, by rw [List.reverse_reverse, List.reverse_reverse]⟩
  have hmirror : ∀ before after : List α,
      xs.reverse = after.reverse ++ sep.reverse ++ before.reverse ↔ xs = before ++ sep ++ after := by
    intro before after
    rw [List.reverse_eq_iff]
    simp only [List.reverse_append, List.reverse_reverse, List.append_assoc]
  rw [hreverse, splitOnce_eq_some_iff, hmirror]
  refine and_congr_right fun _ => ?_
  constructor
  · intro hlast before' after' hcut
    simpa using hlast after'.reverse before'.reverse ((hmirror before' after').mpr hcut)
  · intro hlast after' before' hcut
    have hcut' := hmirror before'.reverse after'.reverse
    rw [List.reverse_reverse, List.reverse_reverse] at hcut'
    simpa using hlast before'.reverse after'.reverse (hcut'.mp hcut)

/-- What comes before the separator is read back when it has no occurrence and ends
with a foreign item. -/
theorem splitOnce_append {sep front : List α} {d : α} (hd : d ∉ sep)
    (hfront : ¬ sep <:+: front) (after : List α) :
    splitOnce sep (front ++ [d] ++ sep ++ after) = some (front ++ [d], after) := by
  refine splitOnce_eq_some_iff.mpr ⟨rfl, ?_⟩
  intro before' after' hcut
  rw [List.append_assoc, List.append_assoc, List.singleton_append] at hcut
  obtain ⟨between, rfl, _⟩ := begins_after hd hfront hcut
  simp only [List.length_append, List.length_cons, List.length_nil]
  omega

/-- What comes after the separator is read back when it does not have its last item. -/
theorem rsplitOnce_append {sep after : List α} {d : α} (hafter : d ∉ after) (before : List α) :
    rsplitOnce (sep ++ [d]) (before ++ (sep ++ [d]) ++ after) = some (before, after) := by
  refine rsplitOnce_eq_some_iff.mpr ⟨rfl, ?_⟩
  intro before' after' hcut
  obtain ⟨gap, hends, hgap⟩ | ⟨gap, _, rfl⟩ := List.append_eq_append_iff.mp hcut
  · obtain rfl | ⟨gap', g, rfl⟩ := gap.eq_nil_or_concat
    · exact Nat.le_of_eq (congrArg List.length hgap)
    · rw [List.concat_eq_append, ← List.append_assoc, ← List.append_assoc] at hends
      obtain ⟨_, hlast⟩ := List.append_inj' hends rfl
      obtain rfl : d = g := (List.cons.inj hlast).1
      exact absurd (by simp [hgap]) hafter
  · rw [List.length_append]
    omega

/-- A cut at the first separator is short when the separator occurs early. -/
theorem length_of_splitOnce {sep front xs before after : List α} (h : sep <:+: front)
    (hcut : splitOnce sep (front ++ xs) = some (before, after)) :
    before.length ≤ front.length := by
  obtain ⟨before', after', rfl⟩ := h
  have hfirst := (splitOnce_eq_some_iff.mp hcut).2 before' (after' ++ xs) (by simp)
  simp only [List.length_append]
  omega

end Odorobo.Separator
