import Linuse.Sac.Borrado

/-!
# Taking blocks

What setting and clearing a bit does to the other bits, which block the search of a
free one gives, and how a file gets a pointer to it.
-/

namespace Sac

open Memory

variable {m : Montaje} {s s' : Estado}

theorem setBit_byte (s : Estado) (b : ℤ) :
    (s.setBit m b).mem (bitmapStart + b / 8) =
      m.bits.set (s.mem (bitmapStart + b / 8)) (b % 8).toNat := by
  have h := store_getElem (m := s.mem) (a := bitmapStart + b / 8) (i := 0)
    (l := [m.bits.set (s.mem (bitmapStart + b / 8)) (b % 8).toNat]) (by simp)
  rwa [Nat.cast_zero, add_zero] at h

theorem setBit_of_ne (s : Estado) {b x : ℤ} (hx : x ≠ bitmapStart + b / 8) :
    (s.setBit m b).mem x = s.mem x := by
  apply store_of_disjoint
  rw [List.length_singleton]
  omega

@[simp]
theorem setBit_bitmapFreeBlocks (s : Estado) (b : ℤ) :
    (s.setBit m b).bitmapFreeBlocks = s.bitmapFreeBlocks := rfl

@[simp]
theorem setBit_delMode (s : Estado) (b : ℤ) : (s.setBit m b).delMode = s.delMode := rfl

/-- Setting a bit changes that bit only. -/
theorem testBit_setBit (s : Estado) (b c : ℤ) :
    (s.setBit m b).testBit m c = (decide (b = c) || s.testBit m c) := by
  have hb : (b % 8).toNat < 8 := by omega
  have hc : (c % 8).toNat < 8 := by omega
  rw [Estado.testBit, Estado.testBit]
  rcases eq_or_ne (c / 8) (b / 8) with heq | hne
  · rw [heq, setBit_byte, m.bits.test_set _ _ _ hb hc]
    congr 1
    rw [decide_eq_decide]
    omega
  · rw [setBit_of_ne s (by omega), decide_eq_false (by rintro rfl; exact hne rfl),
      Bool.false_or]

/-- Clearing a bit changes that bit only. -/
theorem testBit_cleanBit (s : Estado) (b c : ℤ) :
    (s.cleanBit m b).testBit m c = (!decide (b = c) && s.testBit m c) := by
  have hb : (b % 8).toNat < 8 := by omega
  have hc : (c % 8).toNat < 8 := by omega
  rw [Estado.testBit, Estado.testBit]
  rcases eq_or_ne (c / 8) (b / 8) with heq | hne
  · rw [heq, cleanBit_byte, m.bits.test_clean _ _ _ hb hc]
    congr 2
    rw [decide_eq_decide]
    omega
  · rw [cleanBit_of_ne s (by omega), decide_eq_false (by rintro rfl; exact hne rfl), Bool.not_false,
      Bool.true_and]

/-! ## The first free block -/

/-- The block that the search gives is free, and no data block before it is. -/
theorem primerLibre_eq_some {b : ℤ} (h : primerLibre m s = some b) :
    m.base ≤ b ∧ b < m.maxBit ∧ s.testBit m b = false ∧
      ∀ c, m.base ≤ c → c < b → s.testBit m c = true := by
  obtain ⟨n, hn, rfl⟩ := Option.map_eq_some_iff.1 h
  rw [List.find?_range'_eq_some] at hn
  obtain ⟨hlibre, hmem, hprimero⟩ := hn
  rw [List.mem_range'_1] at hmem
  have hbase : 0 ≤ m.base := by
    rw [Montaje.base]
    omega
  refine ⟨by omega, by omega, by simpa using hlibre, fun c hc hlt => ?_⟩
  have hocupado := hprimero c.toNat (by omega) (by omega)
  rwa [Int.toNat_of_nonneg (by omega), Bool.not_not] at hocupado

/-- When a data block is free the search gives one that is not after it. -/
theorem primerLibre_of_libre {b : ℤ} (hbase : m.base ≤ b) (hmax : b < m.maxBit)
    (hlibre : s.testBit m b = false) : ∃ c, primerLibre m s = some c ∧ c ≤ b := by
  have hpos : 0 ≤ m.base := by
    rw [Montaje.base]
    omega
  cases hfind : (List.range' m.base.toNat (m.maxBit - m.base.toNat)).find?
      fun b : ℕ => !s.testBit m b with
  | none =>
      rw [List.find?_eq_none] at hfind
      have hocupado := hfind b.toNat (by rw [List.mem_range'_1]; omega)
      rw [Int.toNat_of_nonneg (by omega), hlibre] at hocupado
      exact absurd rfl hocupado
  | some n =>
      have hprimero : primerLibre m s = some (n : ℤ) := by
        rw [primerLibre, hfind]
        rfl
      refine ⟨n, hprimero, ?_⟩
      by_contra hlt
      have hocupado := (primerLibre_eq_some hprimero).2.2.2 b hbase (not_le.1 hlt)
      rw [hlibre] at hocupado
      cases hocupado

theorem obtenerBloqueLibre_eq {b : ℤ} (h : primerLibre m s = some b) :
    obtenerBloqueLibre m s = some (b, s.setBit m b) := by
  rw [obtenerBloqueLibre, h, Option.map_some]

/-! ## The pointer to a block -/

/-- The writes of `agregarBloqueLibre` for a block that is the first of its pointer
block. -/
def conPunteros (m : Montaje) (i pointer nuevo nodeNumber : ℤ) (s : Estado) : Estado :=
  let s := s.conMem (fill s.mem (headerStart nuevo) 4096 0)
  let s := (s.ponerIndirecto m i pointer nuevo).ponerIndirecto m i (pointer + 1) 0
  s.ponerPuntero m nuevo 0 nodeNumber

theorem agregarBloqueLibre_primero {i pointer : ℤ} (nodeNumber : ℤ)
    (h : settearPosicion (s.tamanio m i) = (pointer, 0)) :
    agregarBloqueLibre m i nodeNumber s = (obtenerBloqueLibre m s).map fun r =>
      (0, conPunteros m i pointer r.1 nodeNumber r.2) := by
  rw [agregarBloqueLibre, h]
  cases obtenerBloqueLibre m s <;> simp [conPunteros]

theorem agregarBloqueLibre_siguiente {i pointer position : ℤ} (nodeNumber : ℤ)
    (h : settearPosicion (s.tamanio m i) = (pointer, position)) (hposition : position ≠ 0)
    (hultima : ¬ (pointer = 999 ∧ position = 1023)) :
    agregarBloqueLibre m i nodeNumber s =
      some (0, s.ponerPuntero m (s.indirecto m i pointer) position nodeNumber) := by
  rw [agregarBloqueLibre, h]
  simp [hposition, hultima]

end Sac
