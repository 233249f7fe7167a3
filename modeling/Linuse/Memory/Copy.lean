import Linuse.Memory.Flat

/-!
# Copies to scattered places

The positions of a range have places in a memory that need not follow each other, such as
those that a table of pages gives. A copy puts the bytes of a list at the places of the
positions from one on, and changes no other byte. Copies one after the other are a copy of
both lists (`Copied.append`), and a store is a copy where the places follow each other
(`copied_store`). A program that copies any list, whatever the memory has, and that puts
the byte `j` at an address, puts it at its place (`place_of_copied`).
-/

namespace Memory

/-- The bytes are at the places of the positions from `x` on, and the others do not change. -/
structure Copied (place : ℤ → ℤ → Prop) (x : ℤ) (l : List UInt8) (m m' : Mem) : Prop where
  bytes : ∀ i : ℕ, i < l.length → ∃ a, place (x + i) a ∧ l[i]? = some (m' a)
  rest : ∀ a, (∀ i : ℕ, i < l.length → ¬ place (x + i) a) → m' a = m a

variable {place : ℤ → ℤ → Prop} {x a : ℤ} {l l' : List UInt8} {m m' m'' : Mem}

theorem copied_nil (place : ℤ → ℤ → Prop) (x : ℤ) (m : Mem) : Copied place x [] m m :=
  ⟨fun _ hi => absurd hi (Nat.not_lt_zero _), fun _ _ => rfl⟩

/-- A store is a copy where the places follow each other. -/
theorem copied_store (h : ∀ i : ℕ, i < l.length → place (x + i) (a + i)) :
    Copied place x l m (store m a l) where
  bytes := by
    intro i hi
    exact ⟨a + i, h i hi, by rw [store_getElem hi, List.getElem?_eq_getElem hi]⟩
  rest := by
    intro b hb
    refine store_of_disjoint ?_
    by_contra hdentro
    have hi : (b - a).toNat < l.length := by omega
    have heq : a + (b - a).toNat = b := by omega
    have hplace := h (b - a).toNat hi
    rw [heq] at hplace
    exact hb _ hi hplace

@[simp]
theorem store_nil (m : Mem) (a : ℤ) : store m a [] = m := by
  funext y
  exact store_of_disjoint (by rw [List.length_nil]; omega)

section Injective

variable (hfun : ∀ x a b, place x a → place x b → a = b)
  (hinj : ∀ x y a, place x a → place y a → x = y)

include hfun in
theorem Copied.getElem (h : Copied place x l m m') {i : ℕ} (hi : i < l.length)
    (ha : place (x + i) a) : l[i]? = some (m' a) := by
  obtain ⟨b, hb, hbyte⟩ := h.bytes i hi
  rw [hfun _ a b ha hb]
  exact hbyte

include hinj in
/-- Copies one after the other are a copy of both lists. -/
theorem Copied.append (h : Copied place x l m m') (h' : Copied place (x + l.length) l' m' m'') :
    Copied place x (l ++ l') m m'' where
  bytes := by
    intro i hi
    by_cases hlt : i < l.length
    · obtain ⟨a, ha, hbyte⟩ := h.bytes i hlt
      refine ⟨a, ha, ?_⟩
      rw [List.getElem?_append_left hlt, hbyte, h'.rest a]
      intro j _ hj
      have heq := hinj _ _ _ ha hj
      omega
    · rw [List.length_append] at hi
      obtain ⟨a, ha, hbyte⟩ := h'.bytes (i - l.length) (by omega)
      have hpos : x + l.length + ((i - l.length : ℕ) : ℤ) = x + i := by omega
      rw [hpos] at ha
      exact ⟨a, ha, by rw [List.getElem?_append_right (by omega), hbyte]⟩
  rest := by
    intro a ha
    rw [h'.rest a, h.rest a]
    · intro i hi
      exact ha i (by rw [List.length_append]; omega)
    · intro i hi hplace
      refine ha (l.length + i) (by rw [List.length_append]; omega) ?_
      rwa [Nat.cast_add, ← add_assoc]

include hfun in
/-- The address where a program that copies any list puts a byte is the place of the byte. -/
theorem place_of_copied {n j : ℕ} (hj : j < n) {f : Mem → List UInt8 → Mem}
    (h : ∀ m l, l.length = n → Copied place x l m (f m l))
    (ha : ∀ m l, l.length = n → l[j]? = some (f m l a)) : place (x + j) a := by
  -- A list with one byte that no other has, in a memory without it.
  set l : List UInt8 := (List.range n).map fun i => if i = j then 1 else 0 with hl
  have hlen : l.length = n := by rw [hl, List.length_map, List.length_range]
  have hget : ∀ i < n, l[i]? = some (if i = j then 1 else 0) := by
    intro i hi
    rw [hl, List.getElem?_map, List.getElem?_range hi]
    rfl
  have hbyte : f (fun _ => 0) l a = 1 := by
    have heq := (ha (fun _ => 0) l hlen).symm.trans (hget j hj)
    rw [if_pos rfl] at heq
    exact Option.some.inj heq
  by_contra hno
  have hcopied := h (fun _ => 0) l hlen
  by_cases hplace : ∃ i, i < l.length ∧ place (x + (i : ℕ)) a
  · obtain ⟨i, hi, hi'⟩ := hplace
    have heq := hcopied.getElem hfun hi hi'
    rw [hget i (by omega), hbyte] at heq
    have hij : i = j := by
      by_contra hne
      rw [if_neg hne] at heq
      exact absurd (Option.some.inj heq) (by decide)
    exact hno (hij ▸ hi')
  · have hrest := hcopied.rest a fun i hi hi' => hplace ⟨i, hi, hi'⟩
    rw [hbyte] at hrest
    exact absurd hrest (by decide)

end Injective

end Memory
