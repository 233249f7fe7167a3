import Linuse.Sac.Operaciones
import Linuse.Sac.Mapa
import Linuse.Sac.Crecimiento

/-!
# What a read gives

`o_read` finds the position of the offset by taking 4 MiB and 4096 bytes at a time from
it. It then copies up to a whole block from there, also when the offset is in the middle
of one, and goes on at the beginning of the next position.
-/

namespace Sac

open Memory

variable {m : Montaje} {s s' : Estado} {i : ℤ}

/-! ## A position at a time -/

theorem leerPunteros_pasa (b queda : ℤ) (buffer : List UInt8) (n : ℕ) (k : ℤ) {offset : ℤ}
    (h : 4096 ≤ offset) :
    leerPunteros m s b (n + 1) k ⟨offset, queda, buffer⟩ =
      leerPunteros m s b n (k + 1) ⟨offset - 4096, queda, buffer⟩ := by
  rw [leerPunteros]
  exact if_pos h

/-- The bytes come from the offset in the block on, up to a whole block. -/
theorem leerPunteros_lee (b queda : ℤ) (buffer : List UInt8) (n : ℕ) (k : ℤ) {r : ℤ}
    (hr : 0 ≤ r) (hlt : r < 4096) :
    leerPunteros m s b (n + 1) k ⟨r, queda, buffer⟩ =
      if queda ≤ 4096 then
        ⟨0, 0, buffer ++ bytesAt s.mem (m.bloque (s.puntero m b k) + r) queda.toNat⟩
      else
        leerPunteros m s b n (k + 1)
          ⟨0, queda - 4096, buffer ++ bytesAt s.mem (m.bloque (s.puntero m b k) + r) 4096⟩ := by
  have hdesde : (if 0 < r then r else 0) = r := by
    split_ifs <;> omega
  have hcero : (if 0 < r then 0 else r) = 0 := by
    split_ifs <;> omega
  rw [leerPunteros]
  dsimp only
  rw [if_neg (not_le.2 hlt), hdesde, hcero]
  rcases lt_trichotomy queda 4096 with hmenor | higual | hmayor
  · rw [if_pos hmenor, if_pos hmenor.le]
  · rw [if_neg (by omega), if_pos higual, if_pos higual.le, higual]
    rfl
  · rw [if_neg (by omega), if_neg (by omega), if_neg (not_le.2 hmayor)]

theorem leerPunteros_salta (b queda : ℤ) (buffer : List UInt8) :
    ∀ (c n : ℕ) (k offset : ℤ), 4096 * c ≤ offset →
      leerPunteros m s b (c + n) k ⟨offset, queda, buffer⟩ =
        leerPunteros m s b n (k + c) ⟨offset - 4096 * c, queda, buffer⟩
  | 0, n, k, offset, _ => by simp
  | c + 1, n, k, offset, h => by
      have hfuel : c + 1 + n = c + n + 1 := by omega
      have hpos : k + 1 + (c : ℤ) = k + (c + 1 : ℕ) := by
        push_cast
        ring
      have hoffset : offset - 4096 - 4096 * (c : ℤ) = offset - 4096 * (c + 1 : ℕ) := by
        push_cast
        ring
      rw [hfuel, leerPunteros_pasa b queda buffer _ k (by omega),
        leerPunteros_salta b queda buffer c n _ _ (by omega), hpos, hoffset]

/-- A pointer block that is wholly before the offset gives nothing, also when the offset is
its end. -/
theorem leerBloques_pasa {queda : ℤ} (hqueda : queda ≠ 0) (buffer : List UInt8) (n : ℕ) (p : ℤ)
    {offset : ℤ} (h : 4194304 ≤ offset) :
    leerBloques m s i (n + 1) p ⟨offset, queda, buffer⟩ =
      leerBloques m s i n (p + 1) ⟨offset - 4194304, queda, buffer⟩ := by
  rw [leerBloques]
  dsimp only
  rcases h.lt_or_eq with hmayor | rfl
  · rw [if_pos hmayor]
  · have hexacto := leerPunteros_salta (m := m) (s := s) (s.indirecto m i p) queda buffer
      1024 0 0 4194304 (by decide)
    rw [Nat.add_zero, leerPunteros] at hexacto
    rw [if_neg (lt_irrefl _), hexacto]
    dsimp only
    rw [if_neg hqueda]
    rfl

theorem leerBloques_salta {queda : ℤ} (hqueda : queda ≠ 0) (buffer : List UInt8) :
    ∀ (c n : ℕ) (p offset : ℤ), 4194304 * c ≤ offset →
      leerBloques m s i (c + n) p ⟨offset, queda, buffer⟩ =
        leerBloques m s i n (p + c) ⟨offset - 4194304 * c, queda, buffer⟩
  | 0, n, p, offset, _ => by simp
  | c + 1, n, p, offset, h => by
      have hfuel : c + 1 + n = c + n + 1 := by omega
      have hpos : p + 1 + (c : ℤ) = p + (c + 1 : ℕ) := by
        push_cast
        ring
      have hoffset : offset - 4194304 - 4194304 * (c : ℤ) = offset - 4194304 * (c + 1 : ℕ) := by
        push_cast
        ring
      rw [hfuel, leerBloques_pasa hqueda buffer _ p (by omega),
        leerBloques_salta hqueda buffer c n _ _ (by omega), hpos, hoffset]

/-- The position in a pointer block is a position of the file. -/
theorem dato_eq (p : ℕ) {k : ℕ} (hk : k < 1024) :
    s.dato m i (1024 * p + k) = s.puntero m (s.indirecto m i p) k := by
  have hdiv : (1024 * p + k) / 1024 = p := by omega
  have hmod : (1024 * p + k) % 1024 = k := by omega
  rw [Estado.dato, hdiv, hmod]

/-! ## Whole blocks -/

/-- What the positions of a pointer block give from the beginning of position `k` on. -/
theorem leerPunteros_alineado (p : ℕ) :
    ∀ (n k queda : ℕ) (buffer : List UInt8), k + n = 1024 →
      leerPunteros m s (s.indirecto m i p) n k ⟨0, queda, buffer⟩ =
        ⟨0, queda - min queda (4096 * n),
          buffer ++ s.contenido m i (4096 * (1024 * p + k)) (min queda (4096 * n))⟩
  | 0, k, queda, buffer, _ => by
      simp [leerPunteros, Estado.contenido]
  | n + 1, k, queda, buffer, h => by
      have hbloque : ∀ q ≤ 4096,
          bytesAt s.mem (m.bloque (s.puntero m (s.indirecto m i p) k) + 0) q =
          s.contenido m i (4096 * (1024 * p + k)) q := by
        intro q hq
        have hbytes := contenido_bloque (s := s) (m := m) (i := i) (1024 * p + k) (r := 0) (n := q)
          (by omega)
        rw [dato_eq p (by omega), Nat.cast_zero, add_zero] at hbytes
        exact hbytes.symm
      rw [leerPunteros_lee _ _ _ _ _ le_rfl (by decide)]
      by_cases hfin : (queda : ℤ) ≤ 4096
      · have hmin : min queda (4096 * (n + 1)) = queda := by omega
        rw [if_pos hfin, hmin, Int.toNat_natCast, hbloque queda (by omega), sub_self]
      · have hsigue := leerPunteros_alineado p n (k + 1) (queda - 4096)
          (buffer ++ s.contenido m i (4096 * (1024 * p + k)) 4096) (by omega)
        have hqueda : ((queda - 4096 : ℕ) : ℤ) = queda - 4096 := by omega
        have hmin : min queda (4096 * (n + 1)) = 4096 + min (queda - 4096) (4096 * n) := by omega
        have hdesde : 4096 * (1024 * p + k) + 4096 = 4096 * (1024 * p + (k + 1)) := by ring
        have hresto : (queda : ℤ) - 4096 - (min (queda - 4096) (4096 * n) : ℕ) =
            queda - (4096 + min (queda - 4096) (4096 * n) : ℕ) := by omega
        rw [hqueda, Nat.cast_add, Nat.cast_one] at hsigue
        rw [if_neg hfin, hbloque 4096 le_rfl, hsigue, hmin, contenido_add, hdesde,
          List.append_assoc, hresto]

/-- What the pointer blocks give from the beginning of pointer block `p` on. -/
theorem leerBloques_alineado :
    ∀ (n p queda : ℕ) (buffer : List UInt8), queda ≤ 4194304 * n →
      (leerBloques m s i n p ⟨0, queda, buffer⟩).buffer =
        buffer ++ s.contenido m i (4194304 * p) queda
  | 0, p, queda, buffer, h => by
      have hcero : queda = 0 := by omega
      simp [leerBloques, hcero, Estado.contenido]
  | n + 1, p, queda, buffer, h => by
      have hpunteros := leerPunteros_alineado (m := m) (s := s) (i := i) p 1024 0 queda buffer rfl
      rw [Nat.cast_zero] at hpunteros
      rw [leerBloques, if_neg (show ¬ (4194304 : ℤ) < 0 by decide), hpunteros]
      dsimp only
      have hdesde : 4096 * (1024 * p + 0) = 4194304 * p := by ring
      rw [hdesde]
      by_cases hfin : queda ≤ 4194304
      · have hmin : min queda (4096 * 1024) = queda := by omega
        rw [hmin, sub_self, if_pos rfl]
      · have hmin : min queda (4096 * 1024) = 4194304 := by omega
        have hqueda : (queda : ℤ) - (4194304 : ℕ) = ((queda - 4194304 : ℕ) : ℤ) := by omega
        have hmas : 4194304 * p + 4194304 = 4194304 * (p + 1) := by ring
        have htotal : queda = 4194304 + (queda - 4194304) := by omega
        have hsigue := leerBloques_alineado n (p + 1) (queda - 4194304)
          (buffer ++ s.contenido m i (4194304 * p) 4194304) (by omega)
        rw [Nat.cast_add, Nat.cast_one] at hsigue
        rw [hmin, hqueda, if_neg (by omega), hsigue, List.append_assoc, ← hmas, ← contenido_add,
          ← htotal]

/-- What is copied for `queda` bytes from byte `r` of position `j` on: up to a block from
there, and the rest from the beginning of the next position on. -/
def leido (m : Montaje) (s : Estado) (i : ℤ) (j r queda : ℕ) : List UInt8 :=
  if queda ≤ 4096 then bytesAt s.mem (m.bloque (s.dato m i j) + r) queda
  else
    bytesAt s.mem (m.bloque (s.dato m i j) + r) 4096 ++
      s.contenido m i (4096 * (j + 1)) (queda - 4096)

/-- What the positions of a pointer block give from byte `r` of position `k` on. -/
theorem leerPunteros_desde (p k r queda : ℕ) (buffer : List UInt8) (hk : k < 1024)
    (hr : r < 4096) :
    leerPunteros m s (s.indirecto m i p) 1024 0 ⟨4096 * k + r, queda, buffer⟩ =
      if queda ≤ 4096 then
        ⟨0, 0, buffer ++ bytesAt s.mem (m.bloque (s.dato m i (1024 * p + k)) + r) queda⟩
      else
        leerPunteros m s (s.indirecto m i p) (1023 - k) (k + 1 : ℕ)
          ⟨0, (queda - 4096 : ℕ),
            buffer ++ bytesAt s.mem (m.bloque (s.dato m i (1024 * p + k)) + r) 4096⟩ := by
  have hfuel : k + (1023 - k + 1) = 1024 := by omega
  have hsalta := leerPunteros_salta (m := m) (s := s) (s.indirecto m i p) queda buffer k
    (1023 - k + 1) 0 (4096 * k + r) (by omega)
  have hresto : 4096 * (k : ℤ) + r - 4096 * k = r := by ring
  rw [hfuel, zero_add, hresto] at hsalta
  rw [hsalta, leerPunteros_lee _ _ _ _ _ (Int.natCast_nonneg r) (by omega), ← dato_eq p hk]
  by_cases hfin : queda ≤ 4096
  · rw [if_pos (show (queda : ℤ) ≤ 4096 by omega), if_pos hfin, Int.toNat_natCast]
  · have hmenos : (queda : ℤ) - 4096 = ((queda - 4096 : ℕ) : ℤ) := by omega
    rw [if_neg (show ¬ (queda : ℤ) ≤ 4096 by omega), if_neg hfin, hmenos, Nat.cast_add,
      Nat.cast_one]

theorem leerBloques_desde (n p k r queda : ℕ) (buffer : List UInt8) (hk : k < 1024)
    (hr : r < 4096) (hqueda : 4096 * k + r + queda ≤ 4194304 * (n + 1)) :
    (leerBloques m s i (n + 1) p ⟨4096 * k + r, queda, buffer⟩).buffer =
      buffer ++ leido m s i (1024 * p + k) r queda := by
  have hlt : ¬ (4194304 : ℤ) < 4096 * k + r := by omega
  rw [leerBloques]
  dsimp only
  rw [if_neg hlt, leerPunteros_desde _ _ _ _ _ hk hr, leido]
  by_cases hfin : queda ≤ 4096
  · rw [if_pos hfin, if_pos hfin]
    exact congrArg Lectura.buffer (if_pos rfl)
  rw [if_neg hfin, if_neg hfin, leerPunteros_alineado p (1023 - k) (k + 1) (queda - 4096) _
    (by omega)]
  have hdesde : 4096 * (1024 * p + (k + 1)) = 4096 * (1024 * p + k + 1) := by ring
  dsimp only
  rw [hdesde]
  by_cases hultimo : queda - 4096 ≤ 4096 * (1023 - k)
  · have hmin : min (queda - 4096) (4096 * (1023 - k)) = queda - 4096 := by omega
    rw [hmin, sub_self, if_pos rfl, List.append_assoc]
  · have hmin : min (queda - 4096) (4096 * (1023 - k)) = 4096 * (1023 - k) := by omega
    have hsobra : ((queda - 4096 : ℕ) : ℤ) - (4096 * (1023 - k) : ℕ) =
        ((queda - 4096 - 4096 * (1023 - k) : ℕ) : ℤ) := by omega
    have hsigue := leerBloques_alineado (m := m) (s := s) (i := i) n (p + 1)
      (queda - 4096 - 4096 * (1023 - k))
      (buffer ++ bytesAt s.mem (m.bloque (s.dato m i (1024 * p + k)) + r) 4096 ++
        s.contenido m i (4096 * (1024 * p + k + 1)) (4096 * (1023 - k))) (by omega)
    have htotal : queda - 4096 =
        4096 * (1023 - k) + (queda - 4096 - 4096 * (1023 - k)) := by omega
    have hhasta : 4096 * (1024 * p + k + 1) + 4096 * (1023 - k) = 4194304 * (p + 1) := by omega
    rw [Nat.cast_add, Nat.cast_one] at hsigue
    rw [hmin, hsobra, if_neg (by omega), hsigue, htotal, contenido_add, hhasta]
    simp only [List.append_assoc, Nat.add_sub_cancel_left]

/-- The loops of `o_read` from an offset on. -/
theorem leerBloques_eq (offset queda : ℕ) (hqueda : queda ≠ 0)
    (hhasta : offset + queda ≤ 4194304000) :
    (leerBloques m s i 1000 0 ⟨offset, queda, []⟩).buffer =
      leido m s i (offset / 4096) (offset % 4096) queda := by
  set p := offset / 4194304 with hp
  set k := offset % 4194304 / 4096 with hk
  have hfuel : 1000 = p + (999 - p + 1) := by omega
  have hsalta := leerBloques_salta (m := m) (s := s) (i := i) (show (queda : ℤ) ≠ 0 by omega) [] p
    (999 - p + 1) 0 offset (by omega)
  have hresto : (offset : ℤ) - 4194304 * p = 4096 * k + (offset % 4096 : ℕ) := by omega
  have hposicion : 1024 * p + k = offset / 4096 := by omega
  rw [← hfuel, zero_add, hresto] at hsalta
  rw [hsalta, leerBloques_desde _ _ _ _ _ _ (by omega) (by omega) (by omega), List.nil_append,
    hposicion]

/-! ## Where the bytes come from -/

/-- Where the byte of the file at an offset is. -/
def dirByte (m : Montaje) (s : Estado) (i : ℤ) (x : ℕ) : ℤ :=
  m.bloque (s.dato m i (x / 4096)) + (x % 4096 : ℕ)

/-- Where the pointer of a position of the file is. -/
def dirDato (m : Montaje) (s : Estado) (i : ℤ) (j : ℕ) : ℤ :=
  m.bloque (s.indirecto m i (j / 1024 : ℕ)) + 4 * (j % 1024 : ℕ)

/-- Where byte `k` of a read from byte `r` of position `j` on is copied from. -/
def origen (m : Montaje) (s : Estado) (i : ℤ) (j r k : ℕ) : ℤ :=
  m.bloque (s.dato m i (j + k / 4096)) + (if k < 4096 then r + k else k % 4096 : ℕ)

theorem leido_eq_map (j r queda : ℕ) :
    leido m s i j r queda = (List.range queda).map fun k => s.mem (origen m s i j r k) := by
  have hprimero : ∀ n ≤ 4096, bytesAt s.mem (m.bloque (s.dato m i j) + r) n =
      (List.range n).map fun k => s.mem (origen m s i j r k) := by
    intro n hn
    refine List.map_congr_left fun k hk => ?_
    have hlt := List.mem_range.1 hk
    have hcero : k / 4096 = 0 := by omega
    rw [origen, if_pos (by omega), hcero, Nat.add_zero, Nat.cast_add, add_assoc]
  have hsiguientes : ∀ n, s.contenido m i (4096 * (j + 1)) n =
      (List.range n).map fun k => s.mem (origen m s i j r (4096 + k)) := by
    intro n
    refine List.map_congr_left fun k _ => ?_
    have hdiv : (4096 * (j + 1) + k) / 4096 = j + (4096 + k) / 4096 := by omega
    have hmod : (4096 * (j + 1) + k) % 4096 = (4096 + k) % 4096 := by omega
    rw [origen, if_neg (by omega), Estado.byteDe, hdiv, hmod]
  rw [leido]
  split_ifs with hfin
  · exact hprimero queda hfin
  · have htotal : (List.range queda).map (fun k => s.mem (origen m s i j r k)) =
        (List.range (4096 + (queda - 4096))).map fun k => s.mem (origen m s i j r k) := by
      rw [Nat.add_sub_cancel' (by omega)]
    rw [hprimero 4096 le_rfl, hsiguientes, htotal, List.range_add, List.map_append, List.map_map]
    rfl

/-! ## When the bytes are those of the file -/

/-- The number of bytes that a read gives. -/
def aLeer (m : Montaje) (s : Estado) (i size offset : ℤ) : ℤ :=
  min size (max 0 (s.tamanio m i - offset))

/-- The read gives the bytes of the file from the offset on, as many as there are, and takes
them from the mapping, whatever is outside. -/
structure LeeBien (m : Montaje) (i size offset : ℤ) (s : Estado) : Prop where
  bytes : leerArchivo m i size offset s = (aLeer m s i size offset,
    s.contenido m i offset.toNat (aLeer m s i size offset).toNat)
  dentro : ∀ t, AgreeOn m.enMapeo s.mem t.mem →
    leerArchivo m i size offset t = leerArchivo m i size offset s

/-- The file has the same size, the same pointer blocks and the same data blocks, whatever
these hold. -/
structure MismoMapa (m : Montaje) (i : ℤ) (s s' : Estado) : Prop where
  tamanio : s'.tamanio m i = s.tamanio m i
  indirecto : ∀ j < posiciones (s.tamanio m i),
    s'.indirecto m i (j / 1024 : ℕ) = s.indirecto m i (j / 1024 : ℕ)
  dato : ∀ j < posiciones (s.tamanio m i), s'.dato m i j = s.dato m i j

/-- Nothing to read, a read from the beginning of a block or inside one, or one of at most a
block that crosses to a block that is the next one of the disk too. -/
def LecturaSana (m : Montaje) (s : Estado) (i size offset : ℤ) : Prop :=
  s.tamanio m i ≤ offset ∨ offset % 4096 = 0 ∨
    offset % 4096 + aLeer m s i size offset ≤ 4096 ∨
    (aLeer m s i size offset ≤ 4096 ∧
      s.dato m i (offset.toNat / 4096 + 1) = s.dato m i (offset.toNat / 4096) + 1)

/-- The bytes of the file that are read, and the pointers that are followed to them, are inside
the mapping. -/
structure LecturaDentro (m : Montaje) (s : Estado) (i size offset : ℤ) : Prop where
  bytes : ∀ k < (aLeer m s i size offset).toNat, dirByte m s i (offset.toNat + k) < m.mapeo
  punteros : ∀ k < (aLeer m s i size offset).toNat,
    dirDato m s i (offset.toNat / 4096 + k / 4096) < m.mapeo

theorem leerArchivo_eq {size offset : ℤ} (hpos : 0 < size) (hsize : size < 2147483648)
    (hoffset : 0 ≤ offset) (hmax : offset < 2147483648)
    (htope : s.tamanio m i ≤ 4194304000) :
    leerArchivo m i size offset s = (aLeer m s i size offset,
      if s.tamanio m i ≤ offset then [] else
        leido m s i (offset.toNat / 4096) (offset.toNat % 4096)
          (aLeer m s i size offset).toNat) := by
  have hoff : unsigned offset = offset := unsigned_eq_self hoffset (by omega)
  have hsum : unsigned (offset + size) = offset + size := unsigned_eq_self (by omega) (by omega)
  rw [leerArchivo, hoff, hsum, aLeer]
  by_cases hfin : s.tamanio m i ≤ offset
  · have hcero : min size (max 0 (s.tamanio m i - offset)) = 0 := by omega
    rw [if_pos hfin, if_pos hfin, hcero]
  have hlee : (if s.tamanio m i ≤ offset + size then signed (s.tamanio m i - offset) else size) =
      min size (max 0 (s.tamanio m i - offset)) := by
    split_ifs with hcorta
    · rw [signed_eq_self (by omega) (by omega)]
      omega
    · omega
  have hcuantos : (((min size (max 0 (s.tamanio m i - offset))).toNat : ℕ) : ℤ) =
      min size (max 0 (s.tamanio m i - offset)) := by omega
  have hdesde : ((offset.toNat : ℕ) : ℤ) = offset := by omega
  have hbloques := leerBloques_eq (m := m) (s := s) (i := i) offset.toNat
    (min size (max 0 (s.tamanio m i - offset))).toNat (by omega) (by omega)
  rw [hcuantos, hdesde] at hbloques
  rw [if_neg hfin, if_neg hfin]
  dsimp only
  rw [hlee, unsigned_eq_self (by omega) (by omega), hbloques]

theorem MismoMapa.aLeer {size offset : ℤ} (h : MismoMapa m i s s') :
    aLeer m s' i size offset = aLeer m s i size offset := by
  rw [Sac.aLeer, h.tamanio, Sac.aLeer]

/-- A read of one of these forms copies each byte of the file from its place. -/
theorem origen_of_sana {size offset : ℤ} (hoffset : 0 ≤ offset) {k : ℕ}
    (hk : k < (aLeer m s i size offset).toNat) (h : LecturaSana m s i size offset) :
    origen m s i (offset.toNat / 4096) (offset.toNat % 4096) k =
      dirByte m s i (offset.toNat + k) := by
  have hrango : aLeer m s i size offset = min size (max 0 (s.tamanio m i - offset)) := rfl
  rw [origen, dirByte]
  rcases h with hnada | halineado | hdentro | ⟨hbloque, hsigue⟩
  · omega
  · have hresto : offset.toNat % 4096 = 0 := by omega
    have hdiv : (offset.toNat + k) / 4096 = offset.toNat / 4096 + k / 4096 := by omega
    have hmod : (if k < 4096 then offset.toNat % 4096 + k else k % 4096) =
        (offset.toNat + k) % 4096 := by split_ifs <;> omega
    rw [hdiv, hmod]
  · have hdiv : (offset.toNat + k) / 4096 = offset.toNat / 4096 := by omega
    have hmod : (offset.toNat + k) % 4096 = offset.toNat % 4096 + k := by omega
    have hcero : k / 4096 = 0 := by omega
    rw [hdiv, hmod, if_pos (by omega), hcero, Nat.add_zero]
  · have hcero : k / 4096 = 0 := by omega
    rw [if_pos (by omega), hcero, Nat.add_zero]
    by_cases hcruza : offset.toNat % 4096 + k < 4096
    · have hdiv : (offset.toNat + k) / 4096 = offset.toNat / 4096 := by omega
      have hmod : (offset.toNat + k) % 4096 = offset.toNat % 4096 + k := by omega
      rw [hdiv, hmod]
    · -- the block after the one read is the next one of the file
      have hdiv : (offset.toNat + k) / 4096 = offset.toNat / 4096 + 1 := by omega
      have hj := bloque_eq m (s.dato m i (offset.toNat / 4096))
      have hj1 := bloque_eq m (s.dato m i (offset.toNat / 4096) + 1)
      rw [hdiv, hsigue]
      omega

theorem MismoMapa.mapa (hs' : MismoMapa m i s s')
    (hmapa : Mapa m s i (posiciones (s.tamanio m i))) :
    Mapa m s' i (posiciones (s'.tamanio m i)) := by
  rw [hs'.tamanio]
  refine ⟨hmapa.nodo_nonneg, hmapa.nodo_lt, hmapa.tope, fun j hj => ?_, fun j hj => ?_,
    fun j hj j' hj' => ?_⟩
  · rw [hs'.indirecto j hj]
    exact hmapa.base_le_indirecto j hj
  · rw [hs'.dato j hj]
    exact hmapa.base_le_dato j hj
  · rw [hs'.dato j hj, hs'.indirecto j' hj']
    exact hmapa.aparte j hj j' hj'

theorem MismoMapa.sana {size offset : ℤ} (hs' : MismoMapa m i s s') (hoffset : 0 ≤ offset)
    (h : LecturaSana m s i size offset) : LecturaSana m s' i size offset := by
  have hrango : Sac.aLeer m s i size offset = min size (max 0 (s.tamanio m i - offset)) := rfl
  rw [LecturaSana, hs'.tamanio, hs'.aLeer]
  rcases h with hnada | halineado | hdentro | ⟨hbloque, hsigue⟩
  · exact Or.inl hnada
  · exact Or.inr (Or.inl halineado)
  · exact Or.inr (Or.inr (Or.inl hdentro))
  by_cases hfin : s.tamanio m i ≤ offset
  · exact Or.inl hfin
  by_cases hcruza : offset % 4096 + Sac.aLeer m s i size offset ≤ 4096
  · exact Or.inr (Or.inr (Or.inl hcruza))
  · have hj : offset.toNat / 4096 + 1 < posiciones (s.tamanio m i) := by
      rw [posiciones]
      omega
    rw [hs'.dato _ hj, hs'.dato _ (Nat.lt_of_succ_lt hj)]
    exact Or.inr (Or.inr (Or.inr ⟨hbloque, hsigue⟩))

theorem Mapa.tamanio_le (hmapa : Mapa m s i (posiciones (s.tamanio m i))) :
    s.tamanio m i ≤ 4194304000 := by
  have htope := hmapa.tope
  rw [posiciones] at htope
  omega

/-- A read of one of these forms gives what it should. -/
theorem leerArchivo_of_sana {size offset : ℤ} (htope : s.tamanio m i ≤ 4194304000)
    (hpos : 0 < size) (hsize : size < 2147483648) (hoffset : 0 ≤ offset)
    (hmax : offset < 2147483648) (h : LecturaSana m s i size offset) :
    leerArchivo m i size offset s = (aLeer m s i size offset,
      s.contenido m i offset.toNat (aLeer m s i size offset).toNat) := by
  have hrango : aLeer m s i size offset = min size (max 0 (s.tamanio m i - offset)) := rfl
  rw [leerArchivo_eq hpos hsize hoffset hmax htope]
  congr 1
  by_cases hfin : s.tamanio m i ≤ offset
  · have hcero : (aLeer m s i size offset).toNat = 0 := by omega
    rw [if_pos hfin, hcero]
    rfl
  · rw [if_neg hfin, leido_eq_map]
    refine List.map_congr_left fun k hk => ?_
    rw [origen_of_sana hoffset (List.mem_range.1 hk) h]
    rfl

/-- A position that is read is one of the file. -/
theorem lt_posiciones_of_leida {size offset : ℤ} (hoffset : 0 ≤ offset) {k : ℕ}
    (hk : k < (aLeer m s i size offset).toNat) :
    (offset.toNat + k) / 4096 < posiciones (s.tamanio m i) ∧
      offset.toNat / 4096 + k / 4096 < posiciones (s.tamanio m i) := by
  have hrango : aLeer m s i size offset = min size (max 0 (s.tamanio m i - offset)) := rfl
  rw [posiciones]
  omega

/-- A pointer before the end of the mapping is inside. -/
theorem load32_of_enMapeo {b q : ℤ} {t : Estado} (hb : m.base ≤ b) (hq : 0 ≤ q)
    (hlt : m.bloque b + 4 * q < m.mapeo) (h : AgreeOn m.enMapeo s.mem t.mem) :
    t.puntero m b q = s.puntero m b q := by
  have h0 := nodo_cero m
  have hbase := bloque_base m
  have hbloque := bloque_eq m b
  have hstart : bitmapStart = 4100 := rfl
  have hmapeo : m.mapeo = 4096 * m.bloques := rfl
  rw [Estado.puntero, Estado.puntero]
  refine load32_congr fun x hx => h _ ?_
  simp only [Montaje.enMapeo, Set.mem_ofPred_eq]
  omega

/-- A read of one of these forms that is inside the mapping does not look outside. -/
theorem leeBien_of_dentro {size offset : ℤ} (htabla : m.nodo 1024 ≤ m.mapeo)
    (hmapa : Mapa m s i (posiciones (s.tamanio m i))) (hpos : 0 < size)
    (hsize : size < 2147483648) (hoffset : 0 ≤ offset) (hmax : offset < 2147483648)
    (h : LecturaSana m s i size offset) (hdentro : LecturaDentro m s i size offset)
    (hs' : MismoMapa m i s s') : LeeBien m i size offset s' := by
  have htope' : s'.tamanio m i ≤ 4194304000 := hs'.tamanio.trans_le hmapa.tamanio_le
  refine ⟨leerArchivo_of_sana htope' hpos hsize hoffset hmax (hs'.sana hoffset h),
    fun t hagree => ?_⟩
  have h0 := nodo_cero m
  have hi := nodo_eq m i
  have h1024 := nodo_eq m 1024
  have hbase := bloque_base m
  have hstart : bitmapStart = 4100 := rfl
  have hnodo := hmapa.nodo_nonneg
  have hnodo' := hmapa.nodo_lt
  -- the fields of the node are in the mapping
  have hcampo : ∀ a : ℤ, m.nodo i ≤ a → a + 4 ≤ m.nodo i + 4096 →
      load32 t.mem a = load32 s'.mem a := by
    intro a ha ha'
    refine load32_congr fun x hx => hagree _ ?_
    simp only [Montaje.enMapeo, Set.mem_ofPred_eq]
    omega
  have htamanio : t.tamanio m i = s'.tamanio m i :=
    hcampo _ (by rw [dirTamanio]; omega) (by rw [dirTamanio]; omega)
  rw [leerArchivo_eq hpos hsize hoffset hmax (htamanio.trans_le htope'),
    leerArchivo_eq hpos hsize hoffset hmax htope']
  have hrango : aLeer m t i size offset = aLeer m s' i size offset := by
    rw [aLeer, htamanio, aLeer]
  rw [hrango, htamanio, leido_eq_map, leido_eq_map]
  congr 2
  refine List.map_congr_left fun k hk => ?_
  rw [List.mem_range, hs'.aLeer] at hk
  obtain ⟨hbyte, hj⟩ := lt_posiciones_of_leida hoffset hk
  have hmil := hmapa.lt_mil hj
  have hindirecto : t.indirecto m i ((offset.toNat / 4096 + k / 4096) / 1024 : ℕ) =
      s'.indirecto m i ((offset.toNat / 4096 + k / 4096) / 1024 : ℕ) :=
    hcampo _ (by rw [dirIndirecto]; omega) (by rw [dirIndirecto]; omega)
  have hpuntero := hdentro.punteros k hk
  rw [dirDato, ← hs'.indirecto _ hj] at hpuntero
  have hdato : t.dato m i (offset.toNat / 4096 + k / 4096) =
      s'.dato m i (offset.toNat / 4096 + k / 4096) := by
    rw [Estado.dato, hindirecto, Estado.dato]
    refine load32_of_enMapeo ?_ (Int.natCast_nonneg _) hpuntero hagree
    rw [hs'.indirecto _ hj]
    exact hmapa.base_le_indirecto _ hj
  have horigen : origen m t i (offset.toNat / 4096) (offset.toNat % 4096) k =
      origen m s' i (offset.toNat / 4096) (offset.toNat % 4096) k := by
    rw [origen, hdato, origen]
  rw [horigen, origen_of_sana hoffset (by rwa [hs'.aLeer]) (hs'.sana hoffset h)]
  have hlugar := hdentro.bytes k hk
  have hbloque := bloque_eq m (s.dato m i ((offset.toNat + k) / 4096))
  have hdatos := hmapa.base_le_dato _ hbyte
  refine hagree _ ?_
  rw [dirByte, hs'.dato _ hbyte]
  rw [dirByte] at hlugar
  simp only [Montaje.enMapeo, Set.mem_ofPred_eq]
  omega

/-- Other contents in a byte of a data block. -/
def conByte (m : Montaje) (i : ℤ) (j x : ℕ) (v : UInt8) (s : Estado) : Estado :=
  s.conMem (store s.mem (m.bloque (s.dato m i j) + x) [v])

theorem mismoMapa_conByte {j x : ℕ} {v : UInt8} (hmapa : Mapa m s i (posiciones (s.tamanio m i)))
    (hj : j < posiciones (s.tamanio m i)) (hx : x < 4096) :
    MismoMapa m i s (conByte m i j x v s) where
  tamanio := tamanio_store hmapa.nodo_lt (hmapa.base_le_dato j hj) (by omega) s
  indirecto j' hj' := by
    have hmil := hmapa.lt_mil hj'
    exact indirecto_store hmapa.nodo_lt (by omega) (hmapa.base_le_dato j hj) (by omega) s
  dato j' hj' := hmapa.dato_store hj hj' (by omega) (by rw [List.length_singleton]; omega)

theorem conByte_mem {j x : ℕ} {v : UInt8} {a : ℤ} (h : a ≠ m.bloque (s.dato m i j) + x) :
    (conByte m i j x v s).mem a = s.mem a :=
  store_of_disjoint (by rw [List.length_singleton]; omega)

theorem conByte_byte {j x : ℕ} {v : UInt8} :
    (conByte m i j x v s).mem (m.bloque (s.dato m i j) + x) = v := by
  have h := store_getElem (m := s.mem) (a := m.bloque (s.dato m i j) + x) (l := [v]) (i := 0)
    (by simp)
  rwa [Nat.cast_zero, add_zero] at h

/-- Each byte of a right read is the byte of the file at its place. -/
theorem LeeBien.byte {size offset : ℤ} {y : ℕ} (h : LeeBien m i size offset s) (hpos : 0 < size)
    (hsize : size < 2147483648) (hoffset : 0 ≤ offset) (hmax : offset < 2147483648)
    (htope : s.tamanio m i ≤ 4194304000) (hfin : offset < s.tamanio m i)
    (hy : (y : ℤ) < aLeer m s i size offset) :
    (leido m s i (offset.toNat / 4096) (offset.toNat % 4096)
      (aLeer m s i size offset).toNat)[y]? = some (s.byteDe m i (offset.toNat + y)) := by
  have hbytes := h.bytes
  rw [leerArchivo_eq hpos hsize hoffset hmax htope, if_neg (not_le.2 hfin),
    Prod.mk.injEq] at hbytes
  rw [hbytes.2, List.getElem?_eq_getElem (by rw [length_contenido]; omega), contenido_getElem]

/-- The byte that the read gives at a place is at another address than the byte of the file:
with other contents there the read is wrong. -/
theorem not_leeBien_conByte {size offset a : ℤ} {x y : ℕ}
    (hmapa : Mapa m s i (posiciones (s.tamanio m i)))
    (hpos : 0 < size) (hsize : size < 2147483648) (hoffset : 0 ≤ offset)
    (hmax : offset < 2147483648) (hfin : offset < s.tamanio m i)
    (hy : (y : ℤ) < aLeer m s i size offset) (hx : x < 4096)
    (hlugar : offset.toNat + y = 4096 * (offset.toNat / 4096 + 1) + x)
    (hleido : ∀ s', MismoMapa m i s s' →
      (leido m s' i (offset.toNat / 4096) (offset.toNat % 4096)
        (aLeer m s i size offset).toNat)[y]? = some (s'.mem a))
    (hne : a ≠ m.bloque (s.dato m i (offset.toNat / 4096 + 1)) + x) :
    ¬ LeeBien m i size offset
      (conByte m i (offset.toNat / 4096 + 1) x (s.mem a + 1) s) := by
  have hrango : aLeer m s i size offset = min size (max 0 (s.tamanio m i - offset)) := rfl
  have htope := hmapa.tope
  have hj : offset.toNat / 4096 + 1 < posiciones (s.tamanio m i) := by
    rw [posiciones]
    omega
  set s' := conByte m i (offset.toNat / 4096 + 1) x (s.mem a + 1) s with hs'
  have hmismo : MismoMapa m i s s' := mismoMapa_conByte hmapa hj hx
  have htamanio : s'.tamanio m i ≤ 4194304000 := by
    rw [hmismo.tamanio]
    rw [posiciones] at htope
    omega
  intro hbien
  have hbyte := hbien.byte (y := y) hpos hsize hoffset hmax htamanio (by rwa [hmismo.tamanio])
    (by rwa [hmismo.aLeer])
  rw [hmismo.aLeer, hleido s' hmismo, Estado.byteDe, hlugar, Nat.mul_add_mod, Nat.mod_eq_of_lt hx,
    Nat.mul_add_div (by decide), Nat.div_eq_of_lt hx, add_zero, hmismo.dato _ hj,
    Option.some.injEq, conByte_byte, conByte_mem hne] at hbyte
  exact absurd hbyte (by simp)

/-- A read that is right on every contents of the blocks of the file is of one of these forms. -/
theorem lecturaSana_of_leeBien {size offset : ℤ}
    (hmapa : Mapa m s i (posiciones (s.tamanio m i))) (hpos : 0 < size)
    (hsize : size < 2147483648) (hoffset : 0 ≤ offset) (hmax : offset < 2147483648)
    (hbien : ∀ s', MismoMapa m i s s' → LeeBien m i size offset s') :
    LecturaSana m s i size offset := by
  have hrango : aLeer m s i size offset = min size (max 0 (s.tamanio m i - offset)) := rfl
  by_contra hno
  simp only [LecturaSana, not_or, not_and, not_le] at hno
  obtain ⟨hfin, hresto, hcruza, hsalta⟩ := hno
  have hj : offset.toNat / 4096 + 1 < posiciones (s.tamanio m i) := by
    rw [posiciones]
    omega
  rcases le_or_gt (aLeer m s i size offset) 4096 with hcorta | hlarga
  · -- the byte after the block is not in the next one of the file
    have hdistinto := hsalta hcorta
    have hj0 := bloque_eq m (s.dato m i (offset.toNat / 4096))
    have hj1 := bloque_eq m (s.dato m i (offset.toNat / 4096 + 1))
    refine not_leeBien_conByte (y := 4096 - offset.toNat % 4096) (x := 0)
      (a := m.bloque (s.dato m i (offset.toNat / 4096)) + 4096) hmapa hpos hsize hoffset hmax
      hfin (by omega) (by decide) (by omega) ?_ (by omega)
      (hbien _ (mismoMapa_conByte hmapa hj (by decide)))
    intro s' hs'
    have hlugar : m.bloque (s.dato m i (offset.toNat / 4096)) + (offset.toNat % 4096 : ℕ) +
        (4096 - offset.toNat % 4096 : ℕ) =
          m.bloque (s.dato m i (offset.toNat / 4096)) + 4096 := by omega
    rw [leido, if_pos (by omega), List.getElem?_eq_getElem (by rw [length_bytesAt]; omega),
      hs'.dato _ (Nat.lt_of_succ_lt hj)]
    simp only [bytesAt, List.getElem_map, List.getElem_range, hlugar]
  · -- the second piece begins at the beginning of its block
    refine not_leeBien_conByte (y := 4096) (x := offset.toNat % 4096)
      (a := m.bloque (s.dato m i (offset.toNat / 4096 + 1))) hmapa hpos hsize hoffset hmax
      hfin (by omega) (by omega) (by omega) ?_ (by omega)
      (hbien _ (mismoMapa_conByte hmapa hj (by omega)))
    intro s' hs'
    rw [leido, if_neg (by omega), List.getElem?_append_right (by rw [length_bytesAt]),
      length_bytesAt, Nat.sub_self,
      List.getElem?_eq_getElem (by rw [length_contenido]; omega), contenido_getElem,
      Estado.byteDe, add_zero, Nat.mul_mod_right, Nat.mul_div_cancel_left _ (by decide),
      hs'.dato _ hj, Nat.cast_zero, add_zero]

/-- A read that is right on every contents of the blocks copies no byte from outside. -/
theorem dirByte_lt_of_leeBien {size offset : ℤ}
    (hmapa : Mapa m s i (posiciones (s.tamanio m i))) (hoffset : 0 ≤ offset)
    (hbien : ∀ s', MismoMapa m i s s' → LeeBien m i size offset s') {k : ℕ}
    (hk : k < (aLeer m s i size offset).toNat) : dirByte m s i (offset.toNat + k) < m.mapeo := by
  by_contra hfuera
  have hj := (lt_posiciones_of_leida hoffset hk).1
  have hresto : (offset.toNat + k) % 4096 < 4096 := Nat.mod_lt _ (by decide)
  set x := (offset.toNat + k) % 4096 with hx
  set j := (offset.toNat + k) / 4096 with hjdef
  have hmismo := mismoMapa_conByte (v := s.mem (dirByte m s i (offset.toNat + k)) + 1) hmapa hj
    hresto
  -- another byte at that place, outside the mapping, changes what the file has
  have hagree : AgreeOn m.enMapeo s.mem
      (conByte m i j x (s.mem (dirByte m s i (offset.toNat + k)) + 1) s).mem := by
    intro y hy
    refine conByte_mem fun heq => hfuera ?_
    rw [dirByte, ← hx, ← hjdef, ← heq]
    exact hy.2
  have hs := (hbien s ⟨rfl, fun _ _ => rfl, fun _ _ => rfl⟩)
  have hlee := (hbien _ hmismo).bytes.symm.trans ((hs.dentro _ hagree).trans hs.bytes)
  rw [Prod.mk.injEq, hmismo.aLeer] at hlee
  have hbyte := congrArg (·[k]?) hlee.2
  rw [List.getElem?_eq_getElem (by rwa [length_contenido]),
    List.getElem?_eq_getElem (by rwa [length_contenido]), contenido_getElem, contenido_getElem,
    Option.some.injEq, Estado.byteDe, ← hx, ← hjdef, hmismo.dato j hj, conByte_byte] at hbyte
  exact absurd hbyte (by simp [dirByte, Estado.byteDe, ← hx, ← hjdef])

/-- The byte that a read copies to a place, whatever pointers it follows. -/
theorem leido_getElem? {j r queda k : ℕ} (hk : k < queda) :
    (leido m s i j r queda)[k]? = some (s.mem (origen m s i j r k)) := by
  rw [leido_eq_map, List.getElem?_map, List.getElem?_range hk, Option.map_some]

/-- A write to a pointer of the file leaves its size and its pointer blocks. -/
theorem puntero_escrito {j : ℕ} (hmapa : Mapa m s i (posiciones (s.tamanio m i)))
    (hj : j < posiciones (s.tamanio m i)) (v : ℤ) :
    (s.ponerPuntero m (s.indirecto m i (j / 1024 : ℕ)) (j % 1024 : ℕ) v).tamanio m i =
        s.tamanio m i ∧
      (s.ponerPuntero m (s.indirecto m i (j / 1024 : ℕ)) (j % 1024 : ℕ) v).dato m i j =
        unsigned v := by
  have hmil := hmapa.lt_mil hj
  have hbase := hmapa.base_le_indirecto j hj
  have hdesde : m.bloque (s.indirecto m i (j / 1024 : ℕ)) ≤
      m.bloque (s.indirecto m i (j / 1024 : ℕ)) + 4 * (j % 1024 : ℕ) := by omega
  refine ⟨tamanio_store hmapa.nodo_lt hbase hdesde s, ?_⟩
  rw [Estado.dato]
  have hindirecto : (s.ponerPuntero m (s.indirecto m i (j / 1024 : ℕ)) (j % 1024 : ℕ) v).indirecto
      m i (j / 1024 : ℕ) = s.indirecto m i (j / 1024 : ℕ) :=
    indirecto_store hmapa.nodo_lt (by omega) hbase hdesde s
  rw [hindirecto, puntero_ponerPuntero]

/-- A read that is right on every contents of the blocks follows no pointer from outside. -/
theorem dirDato_lt_of_leeBien {size offset : ℤ}
    (hmapa : Mapa m s i (posiciones (s.tamanio m i))) (hpos : 0 < size)
    (hsize : size < 2147483648) (hoffset : 0 ≤ offset) (hmax : offset < 2147483648)
    (hbien : ∀ s', MismoMapa m i s s' → LeeBien m i size offset s') {k : ℕ}
    (hk : k < (aLeer m s i size offset).toNat) :
    dirDato m s i (offset.toNat / 4096 + k / 4096) < m.mapeo := by
  by_contra hfuera
  have hj := (lt_posiciones_of_leida hoffset hk).2
  set j := offset.toNat / 4096 + k / 4096 with hjdef
  have hrango : aLeer m s i size offset = min size (max 0 (s.tamanio m i - offset)) := rfl
  -- the first byte that is read of that position
  obtain ⟨x, c, hx, hc, horigen⟩ : ∃ x c : ℕ, x < (aLeer m s i size offset).toNat ∧ c < 4096 ∧
      ∀ u : Estado, origen m u i (offset.toNat / 4096) (offset.toNat % 4096) x =
        m.bloque (u.dato m i j) + c := by
    by_cases hprimera : k / 4096 = 0
    · refine ⟨0, offset.toNat % 4096, by omega, by omega, fun u => ?_⟩
      rw [origen, if_pos (by decide), Nat.zero_div, Nat.add_zero, Nat.add_zero, hjdef, hprimera,
        Nat.add_zero]
    · refine ⟨4096 * (k / 4096), 0, by omega, by decide, fun u => ?_⟩
      rw [origen, if_neg (by omega), Nat.mul_mod_right, Nat.mul_div_cancel_left _ (by decide)]
  -- with other contents there, and another pointer outside, the read would find them elsewhere
  set b := s.indirecto m i (j / 1024 : ℕ) with hb
  set v := unsigned (s.dato m i j + 1) with hv
  have hvne : v ≠ s.dato m i j := by
    have hnonneg : 0 ≤ s.dato m i j := load32_nonneg _ _
    rw [hv, unsigned]
    omega
  have hbloque := bloque_eq m v
  have hdato := bloque_eq m (s.dato m i j)
  set w := (s.ponerPuntero m b (j % 1024 : ℕ) (s.dato m i j + 1)).mem (m.bloque v + c) with hw
  have hs' := mismoMapa_conByte (v := w + 1) hmapa hj hc
  set s' := conByte m i j c (w + 1) s with hs'def
  obtain ⟨htamanio, hescrito⟩ := puntero_escrito (hs'.mapa hmapa) (by rwa [hs'.tamanio])
    (j := j) (s.dato m i j + 1)
  rw [hs'.indirecto j hj, ← hb] at htamanio hescrito
  have hagree : AgreeOn m.enMapeo s'.mem
      (s'.ponerPuntero m b (j % 1024 : ℕ) (s.dato m i j + 1)).mem := fun y hy => by
    rw [dirDato, ← hb] at hfuera
    have hylt := hy.2
    exact ponerPuntero_mem m s' (by omega)
  have hlee := (hbien s' hs').dentro _ hagree
  have htope := hs'.tamanio.trans_le hmapa.tamanio_le
  have haLeer : aLeer m s' i size offset = aLeer m s i size offset := hs'.aLeer
  have haLeer' : aLeer m (s'.ponerPuntero m b (j % 1024 : ℕ) (s.dato m i j + 1)) i size offset =
      aLeer m s' i size offset := by rw [aLeer, htamanio, aLeer]
  have hfin : ¬ s'.tamanio m i ≤ offset := by
    rw [hs'.tamanio]
    omega
  rw [leerArchivo_eq hpos hsize hoffset hmax (htamanio.trans_le htope),
    leerArchivo_eq hpos hsize hoffset hmax htope, htamanio, if_neg hfin, if_neg hfin, haLeer',
    haLeer, Prod.mk.injEq] at hlee
  have hbyte := congrArg (·[x]?) hlee.2
  rw [leido_getElem? hx, leido_getElem? hx, horigen, horigen, hescrito, hs'.dato j hj, hs'def,
    conByte_byte, Option.some.injEq] at hbyte
  have hmismo : (conByte m i j c (w + 1) s).mem (m.bloque v + c) = s.mem (m.bloque v + c) :=
    conByte_mem (by omega)
  have hw' : ((conByte m i j c (w + 1) s).ponerPuntero m b (j % 1024 : ℕ)
      (s.dato m i j + 1)).mem (m.bloque v + c) = w := by
    rw [hw]
    exact store_congr hmismo
  rw [hw'] at hbyte
  exact absurd hbyte (by simp)

/-- A read gives the right bytes, from inside the mapping, on every contents of the blocks of
the file exactly when it is of one of these forms and what it reads is there. -/
theorem leerArchivo_bien_iff (m : Montaje) (s : Estado) (i : ℤ)
    (htabla : m.nodo 1024 ≤ m.mapeo) (hmapa : Mapa m s i (posiciones (s.tamanio m i)))
    (size offset : ℤ) (hpos : 0 < size) (hsize : size < 2147483648) (hoffset : 0 ≤ offset)
    (hmax : offset < 2147483648) :
    (∀ s', MismoMapa m i s s' → LeeBien m i size offset s') ↔
      LecturaSana m s i size offset ∧ LecturaDentro m s i size offset := by
  constructor
  · intro hbien
    exact ⟨lecturaSana_of_leeBien hmapa hpos hsize hoffset hmax hbien,
      fun k => dirByte_lt_of_leeBien hmapa hoffset hbien,
      fun k => dirDato_lt_of_leeBien hmapa hpos hsize hoffset hmax hbien⟩
  · rintro ⟨hsana, hdentro⟩ s' hs'
    exact leeBien_of_dentro htabla hmapa hpos hsize hoffset hmax hsana hdentro hs'

/-- `o_read` reads the node to which its path resolves. -/
theorem eval_oRead {path : Ruta} {size offset : ℤ} (h : nodoDe m s path.cola ≠ -1) :
    (oRead m path size offset).eval s =
      some (leerArchivo m (nodoDe m s path.cola - 1) size offset s, s) := by
  simp [oRead, h]

/-! ## Two blocks that are not next to each other -/

/-- `/a` has two full blocks, 1026 and 1028, and the second begins with the byte 5. -/
def dosBloques : Estado :=
  let s := (unArchivo 8192).ponerPuntero montajeChico 1027 1 1028
  s.conMem (store s.mem (montajeChico.bloque 1028) [5])

theorem datos_dosBloques : dosBloques.tamanio montajeChico 0 = 8192 ∧
    (∀ j < 2, dosBloques.indirecto montajeChico 0 (j / 1024 : ℕ) = 1027) ∧
    dosBloques.dato montajeChico 0 0 = 1026 ∧ dosBloques.dato montajeChico 0 1 = 1028 := by
  decide +kernel

theorem tamanio_dosBloques : dosBloques.tamanio montajeChico 0 = 8192 := datos_dosBloques.1

theorem dato_dosBloques {j : ℕ} (hj : j < 2) :
    dosBloques.dato montajeChico 0 j = 1026 ∨ dosBloques.dato montajeChico 0 j = 1028 := by
  obtain rfl | rfl : j = 0 ∨ j = 1 := by omega
  · exact .inl datos_dosBloques.2.2.1
  · exact .inr datos_dosBloques.2.2.2

theorem mapa_dosBloques : Mapa montajeChico dosBloques 0 2 := by
  have hbase : montajeChico.base = 1026 := by decide
  have hindirecto := datos_dosBloques.2.1
  refine ⟨le_rfl, by decide, by decide, fun j hj => ?_, fun j hj => ?_, fun j hj j' hj' => ?_⟩
  · rw [hindirecto j hj, hbase]
    decide
  · have := dato_dosBloques hj
    omega
  · have := dato_dosBloques hj
    rw [hindirecto j' hj']
    omega

theorem mapa_posiciones_dosBloques :
    Mapa montajeChico dosBloques 0 (posiciones (dosBloques.tamanio montajeChico 0)) := by
  have hposiciones : posiciones 8192 = 2 := by decide
  rw [tamanio_dosBloques, hposiciones]
  exact mapa_dosBloques

/-- The read of the whole file, over both blocks. -/
theorem leerArchivo_bien_iff_dosBloques : LecturaDentro montajeChico dosBloques 0 8192 0 ∧
    ∀ s', MismoMapa montajeChico 0 dosBloques s' → LeeBien montajeChico 0 8192 0 s' := by
  have hdato : ∀ j < 2, dosBloques.dato montajeChico 0 j < 1029 ∧
      dosBloques.indirecto montajeChico 0 (j / 1024 : ℕ) < 1029 := by
    intro j hj
    have := dato_dosBloques hj
    rw [datos_dosBloques.2.1 j hj]
    omega
  have hmapeo : montajeChico.mapeo = 4915200 := by decide
  have hbase : montajeChico.bloque 1029 = 4218888 := by decide
  have hleer : aLeer montajeChico dosBloques 0 8192 0 = 8192 := by
    rw [aLeer, tamanio_dosBloques]
    decide
  have hdentro : LecturaDentro montajeChico dosBloques 0 8192 0 := by
    refine ⟨fun k hk => ?_, fun k hk => ?_⟩
    · rw [hleer] at hk
      have hlt := (hdato (((0 : ℤ).toNat + k) / 4096) (by omega)).1
      have hbloque := bloque_lt_of_lt (m := montajeChico) hlt
      rw [dirByte]
      omega
    · rw [hleer] at hk
      have hlt := (hdato ((0 : ℤ).toNat / 4096 + k / 4096) (by omega)).2
      have hbloque := bloque_lt_of_lt (m := montajeChico) hlt
      rw [dirDato]
      omega
  exact ⟨hdentro, (leerArchivo_bien_iff montajeChico dosBloques 0 (by decide)
    mapa_posiciones_dosBloques 8192 0 (by decide) (by decide) le_rfl (by decide)).2
      ⟨Or.inr (Or.inl (by decide)), hdentro⟩⟩

/-- The last byte of 4096 from byte 1 on is the first of block 1028; the read gives the
first of block 1027. -/
theorem leerArchivo_cruza :
    ¬ ∀ (m : Montaje) (s : Estado) (i : ℤ), m.nodo 1024 ≤ m.mapeo →
      Mapa m s i (posiciones (s.tamanio m i)) → ∀ size offset : ℤ, 0 < size →
        size < 2147483648 → 0 ≤ offset → offset < 2147483648 → LeeBien m i size offset s := by
  intro hclaim
  have htamanio := tamanio_dosBloques
  have hleer : aLeer montajeChico dosBloques 0 4096 1 = 4096 := by
    rw [aLeer, htamanio]
    decide
  have hbyte := (hclaim montajeChico dosBloques 0 (by decide)
    mapa_posiciones_dosBloques 4096 1 (by decide) (by decide) (by decide)
    (by decide)).byte (y := 4095) (by decide) (by decide) (by decide) (by decide)
    (by rw [htamanio]; decide) (by rw [htamanio]; decide) (by rw [hleer]; decide)
  have hdistintos : dosBloques.mem (montajeChico.bloque (dosBloques.dato montajeChico 0 0) +
      (1 : ℕ) + (4095 : ℕ)) ≠ dosBloques.byteDe montajeChico 0 4096 := by
    decide +kernel
  rw [hleer] at hbyte
  simp only [leido, bytesAt] at hbyte
  rw [if_pos (by decide), List.getElem?_map, List.getElem?_range (by decide), Option.map_some,
    Option.some.injEq] at hbyte
  exact hdistintos hbyte

end Sac
