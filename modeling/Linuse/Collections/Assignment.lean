import Mathlib.Logic.Basic
import Mathlib.Tactic.ByContra

/-!
# Resources and their holders

Each holder has at most one resource, and some resources are marked as used.
`Covered` says that no two holders have the same resource and that what is held is
used; `Exact` says moreover that what is used is held. A holder takes a resource that
nobody holds, or releases the one that it has.
-/

namespace Assignment

variable {α β : Type*} {holds holds' : α → Option β} {used used' : β → Prop} {a : α} {b : β}

/-- No two holders have the same resource, and what is held is used. -/
structure Covered (holds : α → Option β) (used : β → Prop) : Prop where
  injective : ∀ a a' b, holds a = some b → holds a' = some b → a = a'
  used_of_holds : ∀ a b, holds a = some b → used b

/-- The resources in use are those that somebody holds. -/
structure Exact (holds : α → Option β) (used : β → Prop) : Prop extends Covered holds used where
  holds_of_used : ∀ b, used b → ∃ a, holds a = some b

/-- A holder takes a resource that nobody holds. -/
theorem Covered.take (h : Covered holds used) (hfree : ∀ a', a' ≠ a → holds a' ≠ some b)
    (hself : holds' a = some b) (hother : ∀ a', a' ≠ a → holds' a' = holds a')
    (hused : ∀ b', used b' → used' b') (hb : used' b) : Covered holds' used' where
  injective x y c hx hy := by
    by_cases hxa : x = a
    · subst hxa
      cases hself.symm.trans hx
      by_contra hne
      rw [hother y (Ne.symm hne)] at hy
      exact hfree y (Ne.symm hne) hy
    · rw [hother x hxa] at hx
      by_cases hya : y = a
      · subst hya
        cases hself.symm.trans hy
        exact absurd hx (hfree x hxa)
      · rw [hother y hya] at hy
        exact h.injective x y c hx hy
  used_of_holds x c hx := by
    by_cases hxa : x = a
    · subst hxa
      cases hself.symm.trans hx
      exact hb
    · rw [hother x hxa] at hx
      exact hused c (h.used_of_holds x c hx)

/-- A holder releases the resource that it has, if any; what the others have stays in
use. -/
theorem Covered.release (h : Covered holds used) (hself : holds' a = none)
    (hother : ∀ a', a' ≠ a → holds' a' = holds a')
    (hused : ∀ a' b', a' ≠ a → holds a' = some b' → used' b') : Covered holds' used' := by
  have hholds : ∀ x c, holds' x = some c → x ≠ a ∧ holds x = some c := by
    intro x c hx
    have hxa : x ≠ a := by
      rintro rfl
      rw [hself] at hx
      cases hx
    exact ⟨hxa, by rw [← hother x hxa]; exact hx⟩
  constructor
  · intro x y c hx hy
    exact h.injective x y c (hholds x c hx).2 (hholds y c hy).2
  · intro x c hx
    exact hused x c (hholds x c hx).1 (hholds x c hx).2

/-- A holder without a resource takes one that is not used. -/
theorem Exact.take (h : Exact holds used) (hnone : holds a = none) (hfree : ¬ used b)
    (hself : holds' a = some b) (hother : ∀ a', a' ≠ a → holds' a' = holds a')
    (hused : ∀ b', used' b' ↔ used b' ∨ b' = b) : Exact holds' used' where
  toCovered := by
    refine h.toCovered.take (a := a) (b := b) (fun a' _ ha' => hfree ?_) hself hother ?_ ?_
    · exact h.used_of_holds a' b ha'
    · exact fun b' hb' => (hused b').2 (Or.inl hb')
    · exact (hused b).2 (Or.inr rfl)
  holds_of_used c hc := by
    rcases (hused c).1 hc with hc | rfl
    · obtain ⟨x, hx⟩ := h.holds_of_used c hc
      have hxa : x ≠ a := by
        rintro rfl
        rw [hnone] at hx
        cases hx
      exact ⟨x, by rw [hother x hxa]; exact hx⟩
    · exact ⟨a, hself⟩

/-- A holder releases its resource, which is not used any more. -/
theorem Exact.release (h : Exact holds used) (ha : holds a = some b) (hself : holds' a = none)
    (hother : ∀ a', a' ≠ a → holds' a' = holds a')
    (hused : ∀ b', used' b' ↔ used b' ∧ b' ≠ b) : Exact holds' used' where
  toCovered := by
    refine h.toCovered.release hself hother fun a' b' hne hb' => (hused b').2 ⟨?_, ?_⟩
    · exact h.used_of_holds a' b' hb'
    · rintro rfl
      exact hne (h.injective a' a b' hb' ha)
  holds_of_used c hc := by
    obtain ⟨hc, hne⟩ := (hused c).1 hc
    obtain ⟨x, hx⟩ := h.holds_of_used c hc
    have hxa : x ≠ a := by
      rintro rfl
      cases ha.symm.trans hx
      exact hne rfl
    exact ⟨x, by rw [hother x hxa]; exact hx⟩

end Assignment
