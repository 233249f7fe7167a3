import Mathlib.Data.List.Perm.Basic
import Mathlib.Data.Set.Insert
import Mathlib.Logic.Function.Basic

/-!
# Items that move between places

`contents l` lists the items that stand in the place `l`. `Placement contents S`
says that every item of `S` stands in exactly one place and only once there, and
that nothing else stands anywhere. A program that moves an item from one list to
another takes it out (`Placement.take`) and puts it back (`Placement.push`); the
set `S` in between records that the item is in nobody's list. `Placement.move`
is the two together, `Placement.perm` reorders a list and `Placement.clear`
drops whole places.
-/

/-- The items of `S`, each standing once in exactly one place of `contents`. -/
structure Placement {Place Item : Type*} (contents : Place → List Item)
    (S : Set Item) : Prop where
  nodup : ∀ l, (contents l).Nodup
  unique : ∀ x l l', x ∈ contents l → x ∈ contents l' → l = l'
  mem_iff : ∀ x, x ∈ S ↔ ∃ l, x ∈ contents l

namespace Placement

open Function (update update_self update_of_ne)

variable {Place Item : Type*} {c : Place → List Item} {S : Set Item}

theorem existsUnique (h : Placement c S) {x : Item} (hx : x ∈ S) :
    ∃! l, x ∈ c l := by
  obtain ⟨l, hl⟩ := (h.mem_iff x).1 hx
  exact ⟨l, hl, fun l' hl' => h.unique x l' l hl' hl⟩

theorem mem (h : Placement c S) {x : Item} {l : Place} (hx : x ∈ c l) : x ∈ S :=
  (h.mem_iff x).2 ⟨l, hx⟩

/-- An item that stands in one place does not stand in another. -/
theorem not_mem_of_ne (h : Placement c S) {x : Item} {l l' : Place}
    (hx : x ∈ c l) (hne : l' ≠ l) : x ∉ c l' :=
  fun hx' => hne (h.unique x l' l hx' hx)

/-- Dropping every place of `P` with all the items that stand there. -/
theorem clear (h : Placement c S) {c' : Place → List Item} (P : Place → Prop)
    (hP : ∀ l, P l → c' l = []) (hother : ∀ l, ¬ P l → c' l = c l) :
    Placement c' {x | ∃ l, ¬ P l ∧ x ∈ c l} := by
  have hmem : ∀ y l, y ∈ c' l ↔ ¬ P l ∧ y ∈ c l := by
    intro y l
    by_cases hl : P l
    · simp [hP l hl, hl]
    · simp [hother l hl, hl]
  refine ⟨?_, ?_, ?_⟩
  · intro l
    by_cases hl : P l
    · simp [hP l hl]
    · rw [hother l hl]
      exact h.nodup l
  · intro x l l' hl hl'
    exact h.unique x l l' ((hmem x l).1 hl).2 ((hmem x l').1 hl').2
  · intro x
    simp only [hmem, Set.mem_ofPred_eq]

variable [DecidableEq Place]

/-- Putting an item that stands nowhere at the end of one list. -/
theorem push (h : Placement c S) {x : Item} (l : Place) (hx : x ∉ S) :
    Placement (update c l (c l ++ [x])) (insert x S) := by
  have hnot : ∀ l', x ∉ c l' := fun l' hl => hx (h.mem hl)
  have hmem : ∀ y l', y ∈ update c l (c l ++ [x]) l' ↔
      y ∈ c l' ∨ (l' = l ∧ y = x) := by
    intro y l'
    by_cases hl : l' = l
    · subst hl
      simp
    · simp [hl]
  refine ⟨?_, ?_, ?_⟩
  · intro l'
    by_cases hl : l' = l
    · subst hl
      rw [update_self, List.nodup_append]
      refine ⟨h.nodup l', by simp, ?_⟩
      intro a ha b hb hab
      rw [List.mem_singleton] at hb
      subst hb
      subst hab
      exact hnot l' ha
    · rw [update_of_ne hl]
      exact h.nodup l'
  · intro y l₁ l₂ hl₁ hl₂
    rw [hmem] at hl₁ hl₂
    rcases hl₁ with hl₁ | ⟨rfl, hy₁⟩ <;> rcases hl₂ with hl₂ | ⟨rfl, hy₂⟩
    · exact h.unique y l₁ l₂ hl₁ hl₂
    · exact absurd (hy₂ ▸ hl₁) (hnot l₁)
    · exact absurd (hy₁ ▸ hl₂) (hnot l₂)
    · rfl
  · intro y
    simp only [hmem, Set.mem_insert_iff, h.mem_iff]
    constructor
    · rintro (hy | ⟨l', hl⟩)
      · exact ⟨l, Or.inr ⟨rfl, hy⟩⟩
      · exact ⟨l', Or.inl hl⟩
    · rintro ⟨l', hl | ⟨-, hy⟩⟩
      · exact Or.inr ⟨l', hl⟩
      · exact Or.inl hy

/-- Taking one item out of the list where it stands. -/
theorem take (h : Placement c S) {x : Item} {l : Place} {a b : List Item}
    (hl : c l = a ++ x :: b) : Placement (update c l (a ++ b)) (S \ {x}) := by
  have hnd : (a ++ x :: b).Nodup := hl ▸ h.nodup l
  have hxab : x ∉ a ++ b := by
    have hperm : (a ++ x :: b).Perm (x :: (a ++ b)) := List.perm_middle
    exact (List.nodup_cons.1 (hperm.nodup_iff.1 hnd)).1
  have hx : x ∈ c l := by simp [hl]
  have hmem : ∀ y l', y ∈ update c l (a ++ b) l' ↔ y ∈ c l' ∧ y ≠ x := by
    intro y l'
    by_cases hl' : l' = l
    · subst hl'
      rw [update_self, hl]
      by_cases hy : y = x
      · subst hy
        simpa using hxab
      · simp [hy]
    · rw [update_of_ne hl']
      refine ⟨fun hy => ⟨hy, ?_⟩, fun hy => hy.1⟩
      intro heq
      subst heq
      exact hl' (h.unique y l' l hy hx)
  refine ⟨?_, ?_, ?_⟩
  · intro l'
    by_cases hl' : l' = l
    · subst hl'
      rw [update_self]
      exact hnd.sublist ((List.sublist_cons_self x b).append_left a)
    · rw [update_of_ne hl']
      exact h.nodup l'
  · intro y l₁ l₂ hl₁ hl₂
    exact h.unique y l₁ l₂ ((hmem y l₁).1 hl₁).1 ((hmem y l₂).1 hl₂).1
  · intro y
    simp only [hmem, Set.mem_sdiff, Set.mem_singleton_iff, h.mem_iff]
    constructor
    · rintro ⟨⟨l', hl'⟩, hy⟩
      exact ⟨l', hl', hy⟩
    · rintro ⟨l', hl', hy⟩
      exact ⟨⟨l', hl'⟩, hy⟩

/-- Moving one item from a list to the end of another. -/
theorem move (h : Placement c S) {x : Item} {l l' : Place} {a b : List Item}
    (hne : l' ≠ l) (hl : c l = a ++ x :: b) :
    Placement (update (update c l (a ++ b)) l' (c l' ++ [x])) S := by
  have hx : x ∈ S := h.mem (l := l) (by simp [hl])
  have hpush := (h.take hl).push l' (x := x) (by simp)
  rw [update_of_ne hne] at hpush
  have hS : insert x (S \ {x}) = S := by
    ext y
    by_cases hy : y = x <;> simp [hy, hx]
  rwa [hS] at hpush

/-- Reordering a list. -/
theorem perm (h : Placement c S) {l : Place} {a : List Item} (ha : a.Perm (c l)) :
    Placement (update c l a) S := by
  have hperm : ∀ l', (update c l a l').Perm (c l') := by
    intro l'
    by_cases hl : l' = l
    · subst hl
      rw [update_self]
      exact ha
    · rw [update_of_ne hl]
  refine ⟨?_, ?_, ?_⟩
  · intro l'
    exact (hperm l').nodup_iff.2 (h.nodup l')
  · intro x l₁ l₂ hl₁ hl₂
    exact h.unique x l₁ l₂ ((hperm l₁).mem_iff.1 hl₁) ((hperm l₂).mem_iff.1 hl₂)
  · intro x
    rw [h.mem_iff]
    exact exists_congr fun l' => (hperm l').mem_iff.symm

end Placement
