import Linuse.Collections.Placement
import Mathlib.Logic.Relation

/-!
# Sequences of moves between places

`Moves may lose c c'` says that the contents `c'` of the places come from `c` by
moving items one at a time, where `may x l l'` holds of each move of `x` from
`l` to `l'`, by reordering lists, and by losing items, where `lose x l` holds of
each item `x` lost from `l`. It keeps a partition (`Moves.partition`, which may
shrink, and `Moves.partition_of_lossless`), and every item in `c'` has a place
in `c` from which it came (`Moves.origin`).
-/

open Function (update update_self update_of_ne)

/-- Contents reached from `c` by moves that `may` allows, by reordering, and by
losses that `lose` allows. -/
inductive Moves {Place Item : Type*} [DecidableEq Place]
    (may : Item → Place → Place → Prop) (lose : Item → Place → Prop)
    (c : Place → List Item) : (Place → List Item) → Prop
  | refl : Moves may lose c c
  | move {c' : Place → List Item} {x : Item} {l l' : Place} {a b : List Item} :
      Moves may lose c c' → may x l l' → l' ≠ l → c' l = a ++ x :: b →
      Moves may lose c (update (update c' l (a ++ b)) l' (c' l' ++ [x]))
  | perm {c' : Place → List Item} {l : Place} {a : List Item} :
      Moves may lose c c' → a.Perm (c' l) → Moves may lose c (update c' l a)
  | drop {c' : Place → List Item} {x : Item} {l : Place} {a b : List Item} :
      Moves may lose c c' → lose x l → c' l = a ++ x :: b →
      Moves may lose c (update c' l (a ++ b))

namespace Moves

variable {Place Item : Type*} [DecidableEq Place]
  {may : Item → Place → Place → Prop} {lose : Item → Place → Prop}
  {c c' c'' : Place → List Item} {S : Set Item}

/-- Taking the head of a list to the end of another. -/
theorem head (lose : Item → Place → Prop) {x : Item} {l l' : Place} {b : List Item}
    (hmay : may x l l') (hne : l' ≠ l) (hl : c l = x :: b) :
    Moves may lose c (update (update c l b) l' (c l' ++ [x])) :=
  Moves.move (a := []) .refl hmay hne hl

theorem trans (h : Moves may lose c c') (h' : Moves may lose c' c'') :
    Moves may lose c c'' := by
  induction h' with
  | refl => exact h
  | move _ hmay hne hl ih => exact .move ih hmay hne hl
  | perm _ ha ih => exact .perm ih ha
  | drop _ hlose hl ih => exact .drop ih hlose hl

theorem mono {may' : Item → Place → Place → Prop} {lose' : Item → Place → Prop}
    (h : Moves may lose c c') (hmay : ∀ x l l', may x l l' → may' x l l')
    (hlose : ∀ x l, lose x l → lose' x l) : Moves may' lose' c c' := by
  induction h with
  | refl => exact .refl
  | move _ hm hne hl ih => exact .move ih (hmay _ _ _ hm) hne hl
  | perm _ ha ih => exact .perm ih ha
  | drop _ hd hl ih => exact .drop ih (hlose _ _ hd) hl

/-- Moves keep every item in exactly one place, except those they lose. -/
theorem partition (h : Moves may lose c c') (hp : Placement c S) :
    ∃ S' ⊆ S, Placement c' S' := by
  induction h with
  | refl => exact ⟨S, subset_rfl, hp⟩
  | move _ _ hne hl ih =>
      obtain ⟨S', hS, hp'⟩ := ih
      exact ⟨S', hS, hp'.move hne hl⟩
  | perm _ ha ih =>
      obtain ⟨S', hS, hp'⟩ := ih
      exact ⟨S', hS, hp'.perm ha⟩
  | @drop _ x _ _ _ _ _ hl ih =>
      obtain ⟨S', hS, hp'⟩ := ih
      exact ⟨_, fun y hy => hS hy.1, hp'.take hl⟩

/-- Moves that lose nothing keep the items. -/
theorem partition_of_lossless (h : Moves may (fun _ _ => False) c c')
    (hp : Placement c S) : Placement c' S := by
  induction h with
  | refl => exact hp
  | move _ _ hne hl ih => exact ih.move hne hl
  | perm _ ha ih => exact ih.perm ha
  | drop _ hlose _ _ => exact hlose.elim

/-- An item of the new contents stood in the old ones, and moved as `may`
allows. -/
theorem origin (h : Moves may lose c c') {x : Item} {l' : Place} (hx : x ∈ c' l') :
    ∃ l, x ∈ c l ∧ Relation.ReflTransGen (may x) l l' := by
  induction h generalizing l' with
  | refl => exact ⟨l', hx, .refl⟩
  | @move d y l₁ l₂ a b _ hmay hne hl ih =>
      by_cases h₂ : l' = l₂
      · subst h₂
        rw [update_self, List.mem_append, List.mem_singleton] at hx
        rcases hx with hx | hx
        · exact ih hx
        · subst hx
          obtain ⟨l, hxl, hpath⟩ := ih (show x ∈ d l₁ by simp [hl])
          exact ⟨l, hxl, hpath.tail hmay⟩
      · rw [update_of_ne h₂] at hx
        by_cases h₁ : l' = l₁
        · subst h₁
          rw [update_self] at hx
          apply ih
          rw [hl]
          rw [List.mem_append] at hx ⊢
          rcases hx with hx | hx
          · exact Or.inl hx
          · exact Or.inr (List.mem_cons_of_mem y hx)
        · rw [update_of_ne h₁] at hx
          exact ih hx
  | @perm d l a _ ha ih =>
      by_cases hl' : l' = l
      · subst hl'
        rw [update_self] at hx
        exact ih (ha.mem_iff.1 hx)
      · rw [update_of_ne hl'] at hx
        exact ih hx
  | @drop d y l a b _ _ hl ih =>
      by_cases hl' : l' = l
      · subst hl'
        rw [update_self] at hx
        apply ih
        rw [hl]
        rw [List.mem_append] at hx ⊢
        rcases hx with hx | hx
        · exact Or.inl hx
        · exact Or.inr (List.mem_cons_of_mem y hx)
      · rw [update_of_ne hl'] at hx
        exact ih hx

/-- A property of the place of an item that every allowed move keeps. -/
theorem keeps (h : Moves may lose c c') (P : Item → Place → Prop)
    (hmay : ∀ x l l', may x l l' → P x l → P x l')
    (hc : ∀ x l, x ∈ c l → P x l) : ∀ x l, x ∈ c' l → P x l := by
  intro x l hx
  obtain ⟨l₀, hx₀, hpath⟩ := h.origin hx
  have hl₀ : P x l₀ := hc x l₀ hx₀
  clear hx hx₀
  induction hpath with
  | refl => exact hl₀
  | tail _ hm ih => exact hmay x _ _ hm ih

end Moves
