import Linuse.Sac.Campos

/-!
# The blocks of a file and its bytes

The map of a file gives a data block for each position: the pointer blocks of its node
hold 1024 positions each. The contents of the file are read through it.
-/

namespace Sac

open Memory

namespace Estado

variable (m : Montaje) (s : Estado) (i : ℤ)

/-- The data block at a position of the file. -/
def dato (j : ℕ) : ℤ :=
  s.puntero m (s.indirecto m i (j / 1024 : ℕ)) (j % 1024 : ℕ)

/-- The byte of the file at an offset. -/
def byteDe (x : ℕ) : UInt8 := s.mem (m.bloque (s.dato m i (x / 4096)) + (x % 4096 : ℕ))

/-- The `n` bytes of the file from an offset on. -/
def contenido (desde n : ℕ) : List UInt8 :=
  (List.range n).map fun x : ℕ => s.byteDe m i (desde + x)

end Estado

/-- The first `k` positions of node `i` hold data blocks, which are not its pointer
blocks. -/
structure Mapa (m : Montaje) (s : Estado) (i : ℤ) (k : ℕ) : Prop where
  nodo_nonneg : 0 ≤ i
  nodo_lt : i < 1024
  tope : k ≤ 1024000
  base_le_indirecto : ∀ j < k, m.base ≤ s.indirecto m i (j / 1024 : ℕ)
  base_le_dato : ∀ j < k, m.base ≤ s.dato m i j
  aparte : ∀ j < k, ∀ j' < k, s.dato m i j ≠ s.indirecto m i (j' / 1024 : ℕ)

variable {m : Montaje} {s s' : Estado} {i : ℤ} {k : ℕ}

@[simp]
theorem length_contenido (desde n : ℕ) : (s.contenido m i desde n).length = n := by
  rw [Estado.contenido, List.length_map, List.length_range]

theorem contenido_getElem {desde n x : ℕ} (h : x < (s.contenido m i desde n).length) :
    (s.contenido m i desde n)[x] = s.byteDe m i (desde + x) := by
  simp only [Estado.contenido, List.getElem_map, List.getElem_range]

theorem contenido_add (desde n n' : ℕ) :
    s.contenido m i desde (n + n') =
      s.contenido m i desde n ++ s.contenido m i (desde + n) n' := by
  simp only [Estado.contenido, List.range_add, List.map_append, List.map_map]
  refine congrArg (_ ++ ·) (List.map_congr_left fun x _ => ?_)
  simp only [Function.comp_apply, Nat.add_assoc]

/-- The bytes inside a position are consecutive. -/
theorem contenido_bloque (j : ℕ) {r n : ℕ} (h : r + n ≤ 4096) :
    s.contenido m i (4096 * j + r) n = bytesAt s.mem (m.bloque (s.dato m i j) + r) n := by
  refine List.map_congr_left fun x hx => ?_
  have hlt := List.mem_range.1 hx
  have hdiv : (4096 * j + r + x) / 4096 = j := by omega
  have hmod : (4096 * j + r + x) % 4096 = r + x := by omega
  rw [Estado.byteDe, hdiv, hmod, Nat.cast_add, add_assoc]

theorem contenido_congr {desde n : ℕ}
    (h : ∀ x, desde ≤ x → x < desde + n → s'.byteDe m i x = s.byteDe m i x) :
    s'.contenido m i desde n = s.contenido m i desde n :=
  List.map_congr_left fun x hx => by
    have hlt := List.mem_range.1 hx
    exact h _ (by omega) (by omega)

/-! ## Where the blocks are -/

/-- A data block is after the table of nodes. -/
theorem enTabla_lt_bloque {b : ℤ} (hb : m.base ≤ b) : m.nodo 1024 + 4096 ≤ m.bloque b := by
  have h1024 := nodo_eq m 1024
  have hdatos := bloque_base m
  have hbloque := bloque_eq m b
  omega

/-- Different blocks do not overlap. -/
theorem bloque_lt_of_lt {b c : ℤ} (h : b < c) : m.bloque b + 4096 ≤ m.bloque c := by
  have hb := bloque_eq m b
  have hc := bloque_eq m c
  omega

/-- A write in a block of data keeps the size of every node. -/
theorem tamanio_store {l : List UInt8} {a b : ℤ} (hi : i < 1024) (hb : m.base ≤ b)
    (ha : m.bloque b ≤ a) (s : Estado) :
    (s.conMem (store s.mem a l)).tamanio m i = s.tamanio m i := by
  have hnodo := nodo_eq m i
  have h1024 := nodo_eq m 1024
  have hdatos := enTabla_lt_bloque hb
  rw [Estado.tamanio, Estado.tamanio]
  exact load32_congr fun x hx => store_of_lt (by rw [dirTamanio]; omega)

/-- A write in a block of data keeps the pointer blocks of every node. -/
theorem indirecto_store {l : List UInt8} {a b p : ℤ} (hi : i < 1024) (hp : p < 1000)
    (hb : m.base ≤ b) (ha : m.bloque b ≤ a) (s : Estado) :
    (s.conMem (store s.mem a l)).indirecto m i p = s.indirecto m i p := by
  have hnodo := nodo_eq m i
  have h1024 := nodo_eq m 1024
  have hdatos := enTabla_lt_bloque hb
  rw [Estado.indirecto, Estado.indirecto]
  exact load32_congr fun x hx => store_of_lt (by rw [dirIndirecto]; omega)

/-- A write inside a block keeps the pointers of the others. -/
theorem puntero_store {l : List UInt8} {a b c x : ℤ} (hne : c ≠ b) (hx : 0 ≤ x) (hx' : x < 1024)
    (ha : m.bloque b ≤ a) (hl : a + l.length ≤ m.bloque b + 4096) (s : Estado) :
    (s.conMem (store s.mem a l)).puntero m c x = s.puntero m c x := by
  rw [Estado.puntero, Estado.puntero]
  refine load32_congr fun y hy => store_of_disjoint ?_
  rcases lt_or_gt_of_ne hne with hlt | hgt
  · have hbloque := bloque_lt_of_lt (m := m) hlt
    omega
  · have hbloque := bloque_lt_of_lt (m := m) hgt
    omega

theorem Mapa.lt_mil (h : Mapa m s i k) {j : ℕ} (hj : j < k) : j / 1024 < 1000 := by
  have htope := h.tope
  omega

/-- A write inside a data block of the file keeps its map. -/
theorem Mapa.dato_store (h : Mapa m s i k) {l : List UInt8} {a : ℤ} {j j' : ℕ} (hj : j < k)
    (hj' : j' < k) (ha : m.bloque (s.dato m i j) ≤ a)
    (hl : a + l.length ≤ m.bloque (s.dato m i j) + 4096) :
    (s.conMem (store s.mem a l)).dato m i j' = s.dato m i j' := by
  have hmil := h.lt_mil hj'
  rw [Estado.dato, indirecto_store h.nodo_lt (by omega) (h.base_le_dato j hj) ha, Estado.dato]
  exact puntero_store (h.aparte j hj j' hj').symm (by omega) (by omega) ha hl s

/-! ## The map of a live file -/

/-- The bit of the block is in the bitmap. -/
def EnBitmap (m : Montaje) (b : ℤ) : Prop := 0 ≤ b ∧ b / 8 < 4096 * m.tamanioBitmap

/-- The first `k` positions of node `i` hold different data blocks; these and the pointer
blocks are marked as used in the bitmap. -/
structure MapaCompleto (m : Montaje) (s : Estado) (i : ℤ) (k : ℕ) : Prop
    extends Mapa m s i k where
  dato_inj : ∀ j < k, ∀ j' < k, s.dato m i j = s.dato m i j' → j = j'
  indirecto_inj : ∀ j < k, ∀ j' < k, s.indirecto m i (j / 1024 : ℕ) =
    s.indirecto m i (j' / 1024 : ℕ) → j / 1024 = j' / 1024
  dato_enBitmap : ∀ j < k, EnBitmap m (s.dato m i j)
  indirecto_enBitmap : ∀ j < k, EnBitmap m (s.indirecto m i (j / 1024 : ℕ))
  dato_usado : ∀ j < k, s.testBit m (s.dato m i j) = true
  indirecto_usado : ∀ j < k, s.testBit m (s.indirecto m i (j / 1024 : ℕ)) = true

/-- The map of one position. -/
theorem mapaCompleto_uno {d e : ℤ} (hi : 0 ≤ i) (hi' : i < 1024)
    (hindirecto : s.indirecto m i 0 = e) (hdato : s.dato m i 0 = d) (hne : d ≠ e)
    (hd : m.base ≤ d ∧ EnBitmap m d ∧ s.testBit m d = true)
    (he : m.base ≤ e ∧ EnBitmap m e ∧ s.testBit m e = true) : MapaCompleto m s i 1 := by
  have hdatos : ∀ j < 1, s.dato m i j = d := fun j hj => by rw [Nat.lt_one_iff.1 hj, hdato]
  have hpunteros : ∀ j < 1, s.indirecto m i (j / 1024 : ℕ) = e := fun j hj => by
    rw [Nat.lt_one_iff.1 hj]
    exact hindirecto
  refine ⟨⟨hi, hi', by decide, ?_, ?_, ?_⟩, ?_, ?_, ?_, ?_, ?_, ?_⟩
  · exact fun j hj => hpunteros j hj ▸ he.1
  · exact fun j hj => hdatos j hj ▸ hd.1
  · intro j hj j' hj'
    rw [hdatos j hj, hpunteros j' hj']
    exact hne
  · exact fun j hj j' hj' _ => (Nat.lt_one_iff.1 hj).trans (Nat.lt_one_iff.1 hj').symm
  · exact fun j hj j' hj' _ => by rw [Nat.lt_one_iff.1 hj, Nat.lt_one_iff.1 hj']
  · exact fun j hj => hdatos j hj ▸ hd.2.1
  · exact fun j hj => hpunteros j hj ▸ he.2.1
  · exact fun j hj => hdatos j hj ▸ hd.2.2
  · exact fun j hj => hpunteros j hj ▸ he.2.2

/-- The number of positions that a size takes. -/
def posiciones (tamanio : ℤ) : ℕ := ((tamanio + 4095) / 4096).toNat

/-- The number of blocks of a file of a size: an empty file has one. -/
def bloquesDe (tamanio : ℤ) : ℕ := max 1 (posiciones tamanio)

end Sac
