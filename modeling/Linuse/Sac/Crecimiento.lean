import Linuse.Sac.Bitmap
import Linuse.Sac.Campos
import Linuse.Sac.Cerrojos

/-!
# The loop that makes a file larger

When no block is free `obtenerBloqueLibre` returns a variable that it never set, and
`darleEspacioNuevo` goes on with it. Here the loop runs with any such value: whether it
ends depends on the size it is given only, which is compared without its sign.
-/

namespace Sac

open Memory Locks

section Ciegos

variable (m : Montaje) (basura : Estado → ℤ)

/-- `obtenerBloqueLibre`: without a free block it gives what its variable held. -/
def obtenerBloqueCiego (s : Estado) : ℤ × Estado :=
  (obtenerBloqueLibre m s).getD (basura s, s)

/-- `agregarBloqueLibre` with such a search; a negative block is an error for it. -/
def agregarBloqueCiego (i nodeNumber : ℤ) (s : Estado) : ℤ × Estado :=
  let (pointer, position) := settearPosicion (s.tamanio m i)
  if pointer = 999 ∧ position = 1023 then (enospc, s)
  else if position = 0 then
    let (nuevo, s) := obtenerBloqueCiego m basura s
    if nuevo < 0 then (nuevo, s)
    else
      let s := s.conMem (fill s.mem (headerStart nuevo) 4096 0)
      let s := s.ponerIndirecto m i pointer nuevo
      let s := s.ponerIndirecto m i (pointer + 1) 0
      (0, s.ponerPuntero m nuevo position nodeNumber)
  else
    (0, s.ponerPuntero m (s.indirecto m i pointer) position nodeNumber)

/-- The loop of `darleEspacioNuevo`, which looks at neither answer. -/
def agregarBloquesCiegos (i spaceInBlock : ℤ) : ℕ → ℤ → Estado → Option Estado
  | 0, _, _ => none
  | n + 1, size, s =>
      if spaceInBlock ≤ unsigned size then
        let (newNode, s) := obtenerBloqueCiego m basura s
        let s := (agregarBloqueCiego m basura i newNode s).2
        agregarBloquesCiegos i spaceInBlock n (size - 4096)
          (s.ponerTamanio m i (s.tamanio m i + 4096))
      else some (s.ponerTamanio m i (s.tamanio m i + size))

/-- `darleEspacioNuevo` for node `i`. -/
def darleEspacioCiego (fuel : ℕ) (i size : ℤ) (s : Estado) : Option (ℤ × Estado) :=
  let spaceInBlock := 4096 - s.tamanio m i % 4096
  if unsigned (s.bitmapFreeBlocks * 4096) < unsigned (size - spaceInBlock) then
    some (enospc, s)
  else if unsigned size ≤ spaceInBlock then
    some (0, s.ponerTamanio m i (s.tamanio m i + size))
  else
    (agregarBloquesCiegos m basura i spaceInBlock fuel size
      (s.ponerTamanio m i (s.tamanio m i + spaceInBlock))).map fun s => (0, s)

end Ciegos

variable {m : Montaje} {basura : Estado → ℤ} {i : ℤ} {s s' : Estado}

/-! ## While blocks are free -/

theorem obtenerBloqueCiego_eq {r : ℤ × Estado} (h : obtenerBloqueLibre m s = some r) :
    obtenerBloqueCiego m basura s = r := by
  rw [obtenerBloqueCiego, h, Option.getD_some]

theorem obtenerBloqueLibre_nonneg {r : ℤ × Estado} (h : obtenerBloqueLibre m s = some r) :
    0 ≤ r.1 := by
  obtain ⟨b, hb, rfl⟩ := Option.map_eq_some_iff.1 h
  obtain ⟨n, -, rfl⟩ := Option.map_eq_some_iff.1 hb
  exact Int.natCast_nonneg n

theorem agregarBloqueCiego_eq {nodeNumber : ℤ} {r : ℤ × Estado}
    (h : agregarBloqueLibre m i nodeNumber s = some r) :
    agregarBloqueCiego m basura i nodeNumber s = r := by
  rw [agregarBloqueLibre] at h
  rw [agregarBloqueCiego]
  dsimp only at h ⊢
  split_ifs at h with hultima hposition
  · rw [if_pos hultima]
    exact Option.some.inj h
  · rw [if_neg hultima, if_pos hposition]
    obtain ⟨⟨nuevo, s⟩, hr', h⟩ := Option.bind_eq_some_iff.1 h
    rw [obtenerBloqueCiego_eq hr']
    dsimp only at h ⊢
    rw [if_neg (not_lt.2 (obtenerBloqueLibre_nonneg hr'))]
    exact Option.some.inj h
  · rw [if_neg hultima, if_neg hposition]
    exact Option.some.inj h

theorem agregarBloquesCiegos_eq {spaceInBlock : ℤ} :
    ∀ {n : ℕ} {size : ℤ} {s : Estado}, agregarBloques m i spaceInBlock n size s = some s' →
      agregarBloquesCiegos m basura i spaceInBlock n size s = some s'
  | 0, _, _, h => by cases h
  | n + 1, size, s, h => by
      rw [agregarBloques] at h
      rw [agregarBloquesCiegos]
      split_ifs at h ⊢ with hspace
      · obtain ⟨⟨newNode, s⟩, hnuevo, h⟩ := Option.bind_eq_some_iff.1 h
        obtain ⟨⟨res, s⟩, hres, h⟩ := Option.bind_eq_some_iff.1 h
        rw [obtenerBloqueCiego_eq hnuevo]
        dsimp only at hres h ⊢
        rw [agregarBloqueCiego_eq hres]
        exact agregarBloquesCiegos_eq h
      · exact h

/-- As long as every search finds a block, nothing that was never set is used. -/
theorem darleEspacioCiego_eq {fuel : ℕ} {size : ℤ} {r : ℤ × Estado}
    (h : darleEspacioNuevo m fuel i size s = some r) :
    darleEspacioCiego m basura fuel i size s = some r := by
  rw [darleEspacioNuevo] at h
  rw [darleEspacioCiego]
  split_ifs at h ⊢
  · exact h
  · exact h
  · obtain ⟨s', hs', rfl⟩ := Option.map_eq_some_iff.1 h
    rw [agregarBloquesCiegos_eq hs', Option.map_some]

/-! ## When the loop ends -/

/-- From `4096 * k` above a size that ends it, the loop ends after `k` blocks. -/
theorem agregarBloquesCiegos_isSome {spaceInBlock : ℤ} (hspace : spaceInBlock ≤ 4096) {resto : ℤ}
    (hresto : 0 ≤ resto) (hlt : resto < spaceInBlock) :
    ∀ (k : ℕ) (s : Estado), resto + 4096 * k < 4294967296 →
      (agregarBloquesCiegos m basura i spaceInBlock (k + 1) (resto + 4096 * k) s).isSome
  | 0, s, hmax => by
      have hunsigned : unsigned (resto + 4096 * (0 : ℕ)) = resto := by
        rw [unsigned]
        omega
      rw [agregarBloquesCiegos, hunsigned, if_neg (not_le.2 hlt), Option.isSome_some]
  | k + 1, s, hmax => by
      have hunsigned : unsigned (resto + 4096 * (k + 1 : ℕ)) = resto + 4096 * (k + 1 : ℕ) := by
        rw [unsigned]
        omega
      have hsize : resto + 4096 * (k + 1 : ℕ) - 4096 = resto + 4096 * k := by
        push_cast
        ring
      rw [agregarBloquesCiegos, hunsigned, if_pos (by omega), hsize]
      exact agregarBloquesCiegos_isSome hspace hresto hlt k _ (by omega)

/-- What is left of the size below a block never changes: when it is not below the
space, nothing ends the loop. -/
theorem agregarBloquesCiegos_eq_none {spaceInBlock : ℤ} :
    ∀ (n : ℕ) (size : ℤ) (s : Estado), spaceInBlock ≤ size % 4096 →
      agregarBloquesCiegos m basura i spaceInBlock n size s = none
  | 0, _, _, _ => rfl
  | n + 1, size, s, hle => by
      have hspace : spaceInBlock ≤ unsigned size := by
        rw [unsigned]
        omega
      rw [agregarBloquesCiegos, if_pos hspace]
      exact agregarBloquesCiegos_eq_none n _ _ (by omega)

/-- The loop ends exactly when the size leaves a rest that is below the space. -/
theorem agregarBloquesCiegos_termina_iff {spaceInBlock size : ℤ} (hspace : spaceInBlock ≤ 4096)
    (hpos : 0 ≤ size) (hmax : size < 4294967296) (s : Estado) :
    (∃ fuel, (agregarBloquesCiegos m basura i spaceInBlock fuel size s).isSome) ↔
      size % 4096 < spaceInBlock := by
  constructor
  · rintro ⟨fuel, hsome⟩
    by_contra hle
    rw [agregarBloquesCiegos_eq_none fuel size s (not_lt.1 hle)] at hsome
    cases hsome
  · intro hlt
    have hsize : size = size % 4096 + 4096 * ((size / 4096).toNat : ℕ) := by omega
    refine ⟨(size / 4096).toNat + 1, ?_⟩
    have hsome : (agregarBloquesCiegos m basura i spaceInBlock ((size / 4096).toNat + 1)
        (size % 4096 + 4096 * ((size / 4096).toNat : ℕ)) s).isSome :=
      agregarBloquesCiegos_isSome hspace (by omega) hlt _ s (by omega)
    rwa [← hsize] at hsome

/-- Making a file larger by `g` ends exactly when the blocks counted as free are too
few, when `g` is the space of the last block, or when what `g` leaves below a block is
less than that space. -/
theorem darleEspacioCiego_termina_iff (m : Montaje) (basura : Estado → ℤ) (i : ℤ) (s : Estado)
    (g : ℤ) (hpos : 0 < g) (hmax : g < 2147483648) :
    (∃ fuel, (darleEspacioCiego m basura fuel i g s).isSome) ↔
      unsigned (s.bitmapFreeBlocks * 4096) < unsigned (g - (4096 - s.tamanio m i % 4096)) ∨
        g = 4096 - s.tamanio m i % 4096 ∨ g % 4096 < 4096 - s.tamanio m i % 4096 := by
  have hunsigned : unsigned g = g := by
    rw [unsigned]
    omega
  generalize hspace : 4096 - s.tamanio m i % 4096 = spaceInBlock
  have hle : spaceInBlock ≤ 4096 := by omega
  have hlt : 0 < spaceInBlock := by omega
  simp only [darleEspacioCiego, hspace, hunsigned]
  split_ifs with henospc hentra
  · exact iff_of_true ⟨0, rfl⟩ (.inl henospc)
  · refine iff_of_true ⟨0, rfl⟩ (.inr ?_)
    omega
  · have hne : g ≠ spaceInBlock := by omega
    simp only [Option.isSome_map, henospc, hne, false_or]
    exact agregarBloquesCiegos_termina_iff hle hpos.le (by omega) _

/-! ## A file that does not fit -/

/-- `/a` has the data block 1026 and the pointer block 1027, as `o_create` leaves it, and
this size. -/
def unArchivo (tamanio : ℤ) : Estado :=
  let s := (discoConArchivo.setBit montajeChico 1026).setBit montajeChico 1027
  let s := (s.ponerIndirecto montajeChico 0 0 1027).ponerPuntero montajeChico 1027 0 1026
  { s.ponerTamanio montajeChico 0 tamanio with bitmapFreeBlocks := 100 }

theorem tamanio_unArchivo_cien : (unArchivo 100).tamanio montajeChico 0 = 100 := by
  decide +kernel

theorem tamanio_unArchivo_lleno : (unArchivo 4096).tamanio montajeChico 0 = 4096 := by
  decide +kernel

/-- Eight bytes more are refused; with 8191 more the loop does not end. -/
theorem darleEspacioCiego_termina_iff_ocho :
    (∃ fuel, (darleEspacioCiego montajeChico (fun _ => 0) fuel 0 8 (unArchivo 100)).isSome) ∧
      ¬ ∃ fuel, (darleEspacioCiego montajeChico (fun _ => 0) fuel 0 8191
        (unArchivo 100)).isSome := by
  have hlibres : (unArchivo 100).bitmapFreeBlocks = 100 := rfl
  rw [darleEspacioCiego_termina_iff montajeChico (fun _ => 0) 0 (unArchivo 100) 8 (by decide)
      (by decide),
    darleEspacioCiego_termina_iff montajeChico (fun _ => 0) 0 (unArchivo 100) 8191 (by decide)
      (by decide), tamanio_unArchivo_cien, hlibres]
  decide

/-- From 100 bytes to 8291: after the last whole block 4095 bytes are left, more than the
3996 of the space. -/
theorem darleEspacioCiego_noTermina :
    ¬ ∀ (m : Montaje) (basura : Estado → ℤ) (i : ℤ) (s : Estado) (g : ℤ), 0 < g →
      g < 2147483648 → ∃ fuel, (darleEspacioCiego m basura fuel i g s).isSome := by
  intro hclaim
  obtain ⟨fuel, hsome⟩ := hclaim montajeChico (fun _ => 0) 0 (unArchivo 100) 8191 (by decide)
    (by decide)
  have htamanio := tamanio_unArchivo_cien
  have hlibres : (unArchivo 100).bitmapFreeBlocks = 100 := rfl
  rw [darleEspacioCiego, htamanio, hlibres] at hsome
  rw [if_neg (by decide), if_neg (by decide), Option.isSome_map,
    agregarBloquesCiegos_eq_none _ _ _ (by decide)] at hsome
  cases hsome

end Sac
