import Mathlib.Data.Set.Basic

/-!
# Owners of resources

Owners share no resource (`Owned`), and each resource in use may have to have an owner (`Covers`).
A change of what one of them has keeps the first when it takes nothing of the others, and the
second when what is in use then is its own or was in use before and was not. When an owner has its
resources at slots, each in one, every resource in use is at exactly one slot
(`Owned.existsUnique_slot`).
-/

variable {ι β σ : Type*}

/-- Owners share nothing. -/
def Owned (own : ι → Set β) : Prop := ∀ i j b, b ∈ own i → b ∈ own j → i = j

/-- What is in use has an owner. -/
def Covers (own : ι → Set β) (used : Set β) : Prop := ∀ b ∈ used, ∃ i, b ∈ own i

variable {own own' : ι → Set β} {used used' : Set β}

namespace Owned

/-- Nobody has anything. -/
theorem of_empty (hown : ∀ i, own i = ∅) : Owned own := by
  intro i j b hb
  rw [hown] at hb
  exact hb.elim

theorem mono (h : Owned own) (hsub : ∀ i, own' i ⊆ own i) : Owned own' :=
  fun i j b hi hj => h i j b (hsub i hi) (hsub j hj)

/-- One owner has other resources. -/
theorem update (h : Owned own) (i : ι) (hother : ∀ j, j ≠ i → own' j ⊆ own j)
    (hnew : ∀ j, j ≠ i → ∀ b ∈ own' i, b ∉ own j) : Owned own' := by
  intro j k b hj hk
  rcases eq_or_ne j i with rfl | hji
  · by_contra hne
    exact hnew k (Ne.symm hne) b hj (hother k (Ne.symm hne) hk)
  · rcases eq_or_ne k i with rfl | hki
    · exact absurd (hother j hji hj) (hnew j hji b hk)
    · exact h j k b (hother j hji hj) (hother k hki hk)

end Owned

namespace Covers

theorem of_empty (hused : used = ∅) : Covers own used := by
  intro b hb
  rw [hused] at hb
  exact hb.elim

/-- One owner has other resources, and what is in use now is its own, or was in use before and was
not. -/
theorem update (h : Covers own used) (i : ι) (hother : ∀ j, j ≠ i → own j ⊆ own' j)
    (hused : ∀ b ∈ used', b ∈ own' i ∨ b ∈ used ∧ b ∉ own i) : Covers own' used' := by
  intro b hb
  rcases hused b hb with hnew | ⟨hold, hno⟩
  · exact ⟨i, hnew⟩
  · obtain ⟨j, hj⟩ := h b hold
    refine ⟨j, hother j ?_ hj⟩
    rintro rfl
    exact hno hj

end Covers

/-! ## Resources at slots -/

namespace Owned

section Slots

variable {live : σ → Prop} {owner : σ → ι} {place : σ → β} (h : Owned own)
  (hown : ∀ r, live r → place r ∈ own (owner r))
  (hinj : ∀ r r', live r → live r' → owner r = owner r' → place r = place r' → r = r')

include h hown hinj

/-- Two slots do not hold the same resource. -/
theorem slot_inj {r r' : σ} (hr : live r) (hr' : live r') (heq : place r = place r') : r = r' :=
  hinj r r' hr hr' (h _ _ _ (hown r hr) (heq ▸ hown r' hr')) heq

theorem existsUnique_slot (hcovers : Covers own used)
    (hslot : ∀ i, ∀ b ∈ own i, ∃ r, live r ∧ place r = b) {b : β} (hb : b ∈ used) :
    ∃! r, live r ∧ place r = b := by
  obtain ⟨i, hi⟩ := hcovers b hb
  obtain ⟨r, hr, heq⟩ := hslot i b hi
  refine ⟨r, ⟨hr, heq⟩, ?_⟩
  rintro r' ⟨hr', heq'⟩
  exact h.slot_inj hown hinj hr' hr (heq'.trans heq.symm)

end Slots

end Owned
