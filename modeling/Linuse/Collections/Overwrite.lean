import Mathlib.Data.List.Basic

/-!
# The contents of a file

What a write does to the contents of a file: the elements from an offset on are replaced, and the
contents get longer if the new ones pass their end. Two writes one after the other, the second
where the first ends, are one.
-/

/-- The list with other elements from a place on. -/
def overwrite {α : Type*} (l : List α) (off : ℕ) (b : List α) : List α :=
  l.take off ++ b ++ l.drop (off + b.length)

section Overwrite

variable {α : Type*} {l b b' : List α} {off : ℕ}

@[simp]
theorem overwrite_nil (l : List α) (off : ℕ) : overwrite l off [] = l := by
  rw [overwrite, List.append_nil, List.length_nil, Nat.add_zero, List.take_append_drop]

theorem length_overwrite (b : List α) (h : off ≤ l.length) :
    (overwrite l off b).length = max l.length (off + b.length) := by
  rw [overwrite, List.length_append, List.length_append, List.length_take, List.length_drop]
  omega

theorem getElem?_overwrite (b : List α) (h : off ≤ l.length) (x : ℕ) :
    (overwrite l off b)[x]? = if off ≤ x ∧ x < off + b.length then b[x - off]? else l[x]? := by
  have htake : (l.take off).length = off := List.length_take_of_le h
  rw [overwrite, List.append_assoc, List.getElem?_append, htake]
  split_ifs with hx hin hin
  · omega
  · exact List.getElem?_take_of_lt hx
  · rw [List.getElem?_append_left (by omega)]
  · rw [List.getElem?_append_right (by omega), List.getElem?_drop]
    congr 1
    omega

/-- A write where the one before it ends. -/
theorem overwrite_overwrite (b b' : List α) (h : off ≤ l.length) :
    overwrite (overwrite l off b) (off + b.length) b' = overwrite l off (b ++ b') := by
  have hlen : off + b.length ≤ (overwrite l off b).length := by
    rw [length_overwrite b h]
    exact Nat.le_max_right _ _
  refine List.ext_getElem? fun x => ?_
  rw [getElem?_overwrite b' hlen, getElem?_overwrite b h, getElem?_overwrite (b ++ b') h,
    List.length_append, List.getElem?_append]
  split_ifs <;> first
    | omega
    | rfl
    | (congr 1; omega)

end Overwrite
