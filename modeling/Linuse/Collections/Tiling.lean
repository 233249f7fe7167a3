import Mathlib.Data.List.Chain
import Mathlib.Data.List.Basic
import Mathlib.Order.Basic

/-!
# Blocks one after another

A list of blocks where each one starts where the previous one ends. No two of them overlap, and
all of them lie between the start of the first one and the end of the last one. The end of the
last block may change freely, and another one may follow it.
-/

/-- Each block starts where the previous one ends. -/
def Tiling {Block P : Type*} (start stop : Block → P) (l : List Block) : Prop :=
  l.IsChain fun a b => start b = stop a

namespace Tiling

variable {Block P : Type*} {start stop : Block → P} {l : List Block} {a b c : Block}

theorem append_last_iff :
    Tiling start stop (l ++ [a, b]) ↔ Tiling start stop (l ++ [a]) ∧ start b = stop a := by
  rw [Tiling, Tiling, List.append_cons, List.isChain_append]
  simp [List.getLast?_append]

/-- The last block may end elsewhere. -/
theorem change_last (h : Tiling start stop (l ++ [a])) (heq : start b = start a) :
    Tiling start stop (l ++ [b]) := by
  rw [Tiling, List.isChain_append] at h ⊢
  refine ⟨h.1, List.isChain_singleton b, ?_⟩
  intro x hx y hy
  cases hy
  rw [heq]
  exact h.2.2 x hx a rfl

/-- A block starts where the one at the place before it ends. -/
theorem start_eq (h : Tiling start stop l) {k : ℕ} (ha : l[k]? = some a)
    (hb : l[k + 1]? = some b) : start b = stop a := by
  obtain ⟨hk, rfl⟩ := List.getElem?_eq_some_iff.1 ha
  obtain ⟨hk', rfl⟩ := List.getElem?_eq_some_iff.1 hb
  exact List.isChain_iff_getElem.1 h k hk'

variable [Preorder P]

/-- Blocks that end after they start end before those that follow them. -/
theorem pairwise (h : Tiling start stop l) (hle : ∀ x ∈ l, start x ≤ stop x) :
    l.Pairwise fun a b => stop a ≤ start b := by
  induction l with
  | nil => exact List.Pairwise.nil
  | cons a l ih =>
      have hrest := ih h.tail fun x hx => hle x (List.mem_cons_of_mem a hx)
      refine List.Pairwise.cons ?_ hrest
      cases l with
      | nil => simp
      | cons b l =>
          have hab : start b = stop a := (List.isChain_cons_cons.1 h).1
          intro x hx
          rcases List.mem_cons.1 hx with rfl | hx
          · exact hab.ge
          · exact hab.ge.trans ((hle b (by simp)).trans ((List.pairwise_cons.1 hrest).1 x hx))

/-- No block starts before the first one. -/
theorem start_le (h : Tiling start stop l) (hle : ∀ x ∈ l, start x ≤ stop x)
    (hhead : l.head? = some a) (hb : b ∈ l) : start a ≤ start b := by
  obtain ⟨l', rfl⟩ := List.head?_eq_some_iff.1 hhead
  rcases List.mem_cons.1 hb with rfl | hb'
  · exact le_rfl
  · exact (hle a (by simp)).trans ((List.pairwise_cons.1 (h.pairwise hle)).1 b hb')

/-- No block ends after the last one. -/
theorem le_stop (h : Tiling start stop l) (hle : ∀ x ∈ l, start x ≤ stop x)
    (hlast : l.getLast? = some a) (hb : b ∈ l) : stop b ≤ stop a := by
  obtain ⟨l', rfl⟩ := List.getLast?_eq_some_iff.1 hlast
  rcases List.mem_append.1 hb with hb' | hb'
  · have hpairs := (List.pairwise_append.1 (h.pairwise hle)).2.2
    exact (hpairs b hb' a (by simp)).trans (hle a (by simp))
  · rw [List.mem_singleton.1 hb']

end Tiling
