import Linuse.Sac.Volcado

/-!
# A write is that of an ideal file

`o_write` should replace bytes of a file as an ideal file does (`overwrite`). It does while each
iteration of its loop puts its bytes in the block of the offset: a whole block at a multiple of
4096, inside the file or at its end, or less than a block that ends in the block of the offset or
fills the last one, and no pointer block is put where something is cleared that is in use. Less
than a block may pass the end of a block when the next one of the disk is the next one of the
file too (`escribeBien_of_encaja`).
-/

namespace Sac

open Memory Loop Locks Locks.Code

variable {m : Montaje} {s s' s'' : Estado} {i n : ℤ} {k : ℕ}

/-- Each iteration of a write of `t` bytes puts them in their places: whole blocks at multiples of
4096, inside the file or from its end on, or less than a block that goes on from the end of the
file or stays in the block of the offset. -/
def Directa (tamanioArchivo off t : ℤ) : Prop :=
  t = 0 ∨ off % 4096 = 0 ∧ (tamanioArchivo % 4096 = 0 ∨ off + 4096 * (t / 4096) ≤ tamanioArchivo) ∨
    t < 4096 ∧ (off = tamanioArchivo ∨ off % 4096 + t ≤ 4096)

/-- What is cleared for the pointer blocks that a file of `n` bytes takes has no byte of a block in
use. -/
def Limpia (m : Montaje) (s : Estado) (i n : ℤ) : Prop :=
  ∀ p : ℕ, bloquesDe (s.tamanio m i) ≤ 1024 * p → 1024 * p < bloquesDe n →
    Limpio m s (bloquePunteros m s i (bloquesDe (s.tamanio m i)) p)

/-- A file that needs no more positions takes no pointer blocks. -/
theorem limpia_of_bloquesDe (h : bloquesDe n ≤ bloquesDe (s.tamanio m i)) : Limpia m s i n :=
  fun _ hp hp' => absurd (lt_of_le_of_lt hp hp') (not_lt.2 h)

/-- A write of the buffer from an offset on may go on. -/
structure EnCurso (m : Montaje) (i : ℤ) (off : ℕ) (buf : List UInt8) (s : Estado) : Prop where
  desde : (off : ℤ) ≤ s.tamanio m i
  hasta : off + buf.length ≤ 2147483648
  mapa : MapaCompleto m s i (bloquesDe (s.tamanio m i))
  directa : Directa (s.tamanio m i) off buf.length
  lugar : faltan m s i (off + buf.length) ≤ (libres m s).length
  limpia : Limpia m s i (off + buf.length)

/-- The file of node `i` is an ideal file after the write, its map is complete, and the other
files are as they were. -/
structure Escrito (m : Montaje) (i : ℤ) (off : ℕ) (buf : List UInt8) (s s' : Estado) : Prop where
  tamanio : s'.tamanio m i = max (s.tamanio m i) (off + buf.length)
  archivo : s'.archivo m i = overwrite (s.archivo m i) off buf
  mapa : MapaCompleto m s' i (bloquesDe (s'.tamanio m i))
  extiende : Extiende m i (bloquesDe (s.tamanio m i)) (bloquesDe (s'.tamanio m i)) s s'

section Bucle

variable {off : ℕ} {buf buf' : List UInt8}

/-- Two writes, the second where the first ends. -/
theorem Escrito.trans (hdesde : (off : ℤ) ≤ s.tamanio m i) (h : Escrito m i off buf s s')
    (h' : Escrito m i (off + buf.length) buf' s' s'') : Escrito m i off (buf ++ buf') s s'' := by
  have hlen : off ≤ (s.archivo m i).length := by
    rw [← length_archivo m s i] at hdesde
    exact Int.ofNat_le.1 hdesde
  refine ⟨?_, ?_, h'.mapa, h.extiende.trans h'.extiende⟩
  · rw [h'.tamanio, h.tamanio, List.length_append]
    omega
  · rw [h'.archivo, h.archivo, overwrite_overwrite _ _ hlen]

/-- A block of the file, or the one that has been added to it, gets its bytes. -/
theorem escrito_volcado (buf : List UInt8) (hmapa : MapaCompleto m s i k) (hoff : off / 4096 < k)
    (hl : off % 4096 + buf.length ≤ 4096) (hdesde : (off : ℤ) ≤ s.tamanio m i)
    (hmax : off + buf.length ≤ 2147483648)
    (hk : bloquesDe (max (s.tamanio m i) (off + buf.length)) = k) :
    (s.volcado m i off buf).tamanio m i = max (s.tamanio m i) (off + buf.length) ∧
      (s.volcado m i off buf).archivo m i = overwrite (s.archivo m i) off buf ∧
      MapaCompleto m (s.volcado m i off buf) i (bloquesDe ((s.volcado m i off buf).tamanio m i)) ∧
      Extiende m i k (bloquesDe ((s.volcado m i off buf).tamanio m i)) s
        (s.volcado m i off buf) := by
  have htamanio : (s.volcado m i off buf).tamanio m i = max (s.tamanio m i) (off + buf.length) :=
    tamanio_volcado (by omega)
  have hcubre : s.tamanio m i ≤ 4096 * k := by
    rw [← hk, bloquesDe, posiciones]
    omega
  rw [htamanio, hk]
  exact ⟨rfl, archivo_volcado hmapa hoff hl hdesde hcubre (by omega),
    mapaCompleto_volcado hmapa hoff hl, extiende_volcado hmapa hoff hl⟩

theorem tamanio_ponerModificacion (m : Montaje) (s : Estado) (i : ℤ) (ahora : ℕ) :
    (s.ponerModificacion m i ahora).tamanio m i = s.tamanio m i :=
  load32_congr fun x hx => ponerModificacion_mem m s i
    (by rw [dirTamanio, dirModificacion]; omega)

theorem escrito_refl (hmapa : MapaCompleto m s i (bloquesDe (s.tamanio m i)))
    (hdesde : (off : ℤ) ≤ s.tamanio m i) : Escrito m i off [] s s where
  tamanio := by rw [List.length_nil, Nat.cast_zero, add_zero, max_eq_left hdesde]
  archivo := (overwrite_nil _ _).symm
  mapa := hmapa
  extiende := .refl m i _ s

/-- The end of the loop. -/
theorem escrito_ponerModificacion (ahora : ℕ)
    (hmapa : MapaCompleto m s i (bloquesDe (s.tamanio m i))) (hdesde : (off : ℤ) ≤ s.tamanio m i) :
    Escrito m i off [] s (s.ponerModificacion m i ahora) := by
  have hsolo := soloCampos_ponerModificacion m i s ahora
  have htamanio := tamanio_ponerModificacion m s i ahora
  refine ⟨?_, ?_, ?_, ?_⟩
  · rw [htamanio, List.length_nil, Nat.cast_zero, add_zero, max_eq_left hdesde]
  · rw [overwrite_nil]
    exact archivo_eq_of_bytes htamanio fun x hx => hsolo.byteDe hmapa.toMapa hx
  · rw [htamanio]
    exact hsolo.mapaCompleto hmapa
  · rw [htamanio]
    exact hsolo.extiende hmapa

/-- What is left of the write may go on after a block of the file has got its bytes. -/
theorem enCurso_volcado (hm : Formateado m) (hmapa : MapaCompleto m s i k) {w : ℕ}
    (hw : w ≤ buf.length) (hoff : off / 4096 < k) (hl : off % 4096 + w ≤ 4096)
    (hhasta : off + buf.length ≤ 2147483648)
    (hk : bloquesDe (max (s.tamanio m i) (off + w)) = k)
    (hdirecta : Directa (max (s.tamanio m i) (off + w)) (off + w) (buf.length - w))
    (hlugar : cuantos k (bloquesDe (off + buf.length) - k) ≤ (libres m s).length)
    (hlimpia : ∀ p : ℕ, k ≤ 1024 * p → 1024 * p < bloquesDe (off + buf.length) →
      Limpio m s (bloquePunteros m s i k p)) :
    EnCurso m i (off + w) (buf.drop w) (s.volcado m i off (buf.take w)) := by
  have htake : (buf.take w).length = w := List.length_take_of_le hw
  have hdrop : ((buf.drop w).length : ℤ) = buf.length - w := by
    rw [List.length_drop]
    omega
  have hfin : ((off + w : ℕ) : ℤ) + (buf.drop w).length = off + buf.length := by omega
  have htamanio : (s.volcado m i off (buf.take w)).tamanio m i = max (s.tamanio m i) (off + w) := by
    rw [tamanio_volcado (by omega), htake]
  have hmapa' := mapaCompleto_volcado (l := buf.take w) hmapa hoff (by omega)
  have hbits : ∀ x, EnBitmap m x →
      (s.volcado m i off (buf.take w)).testBit m x = s.testBit m x := fun x hx =>
    testBit_volcado hmapa hoff (by omega) hx
  refine ⟨?_, ?_, ?_, ?_, ?_, ?_⟩
  · rw [htamanio]
    omega
  · omega
  · rwa [htamanio, hk]
  · rw [htamanio, hdrop, Nat.cast_add]
    exact hdirecta
  · rwa [faltan, htamanio, hk, hfin, libres_congr hm hbits]
  · intro p hp hp'
    rw [htamanio, hk] at hp ⊢
    rw [hfin] at hp'
    exact limpio_congr hm hbits hp (hlimpia p hp hp')

/-- An iteration that writes in a block of the file. -/
theorem EnCurso.vuelta_vieja (hm : Formateado m) (h : EnCurso m i off buf s) {w : ℕ}
    (hw : w ≤ buf.length) (hoff : off / 4096 < bloquesDe (s.tamanio m i))
    (hl : off % 4096 + w ≤ 4096)
    (hdirecta : Directa (max (s.tamanio m i) (off + w)) (off + w) (buf.length - w)) :
    Escrito m i off (buf.take w) s (s.volcado m i off (buf.take w)) ∧
      EnCurso m i (off + w) (buf.drop w) (s.volcado m i off (buf.take w)) ∧
      bloquesDe ((s.volcado m i off (buf.take w)).tamanio m i) = bloquesDe (s.tamanio m i) := by
  have hhasta := h.hasta
  have hnonneg := tamanio_nonneg m s i
  have htake : (buf.take w).length = w := List.length_take_of_le hw
  have hbloques : bloquesDe (max (s.tamanio m i) (off + w)) = bloquesDe (s.tamanio m i) := by
    rw [bloquesDe, posiciones] at hoff
    rw [bloquesDe, bloquesDe, posiciones, posiciones]
    omega
  obtain ⟨htamanio, harchivo, hmapa, hextiende⟩ := escrito_volcado (buf.take w) h.mapa hoff
    (by omega) h.desde (by omega) (by rw [htake, hbloques])
  refine ⟨⟨htamanio, harchivo, hmapa, hextiende⟩,
    enCurso_volcado hm h.mapa hw hoff hl h.hasta hbloques hdirecta h.lugar h.limpia, ?_⟩
  rw [htamanio, htake, hbloques]

theorem cuantos_add (K a b : ℕ) : cuantos K (a + b) = cuantos K a + cuantos (K + a) b := by
  rw [cuantos, cuantos, cuantos]
  omega

/-- The clearing for a block does not reach the ones before it. -/
theorem not_pisa_of_lt {c d : ℤ} (hd : m.base ≤ d) (h : d < c) : ¬ Pisa m c d := by
  have hcabecera := headerStart_eq m c
  have hbloque := bloque_eq m d
  rintro ⟨hle, -⟩
  omega

/-- The size at which the loop asks for a block. -/
theorem bloquesDe_mul (hk : 0 < k) : bloquesDe (4096 * k) = k := by
  rw [bloquesDe, posiciones]
  omega

/-- At the end of a full last block the file gets one more position. -/
theorem exists_crecido (hm : Formateado m) (hmapa : MapaCompleto m s i k) (hk : 0 < k)
    (hmax : k < 524288) (hfin : s.tamanio m i = 4096 * k) (hlen : cuantos k 1 ≤ (libres m s).length)
    (hlimpio : k % 1024 = 0 → Limpio m s (bloquePunteros m s i k (k / 1024))) :
    ∃ b s₁, obtenerBloqueLibre m s = some (b, s.setBit m b) ∧
      agregarBloqueLibre m i b (s.setBit m b) = some (0, s₁) ∧ Crecido m i k b s s₁ := by
  have hlen' : cuantos k (k + 1 - k) ≤ (libres m s).length := by rwa [Nat.add_sub_cancel_left]
  obtain ⟨b, s₁, hb, hobtiene, hagrega, hagregado, hampliado⟩ :=
    (ampliado_refl m s i k).paso hm hmapa le_rfl hmax hfin hlen'
  exact ⟨b, s₁, hobtiene, hagrega,
    crecido_of_agregado hm hmapa hmax hk hfin hlen' hlimpio hb hagregado hampliado⟩

theorem EnCurso.crecido (hm : Formateado m) (h : EnCurso m i (4096 * k) buf s) (hk : 0 < k)
    (hfin : s.tamanio m i = 4096 * k) (hbuf : 0 < buf.length) :
    ∃ b s₁, obtenerBloqueLibre m s = some (b, s.setBit m b) ∧
      agregarBloqueLibre m i b (s.setBit m b) = some (0, s₁) ∧ Crecido m i k b s s₁ := by
  have hhasta := h.hasta
  have hmapa := h.mapa
  have hlugar := h.lugar
  have hlimpia := h.limpia
  have hbloques := bloquesDe_mul hk
  have hmas : k + 1 ≤ bloquesDe ((4096 * k : ℕ) + buf.length) := by
    rw [bloquesDe, posiciones]
    omega
  rw [hfin, hbloques] at hmapa
  rw [faltan, hfin, hbloques] at hlugar
  rw [Limpia, hfin, hbloques] at hlimpia
  refine exists_crecido hm hmapa hk (by omega) hfin ((cuantos_mono (by omega)).trans hlugar)
    fun hresto => hlimpia (k / 1024) ?_ ?_
  · omega
  · omega

/-- What is cleared later has no byte of a block that is in use by then. -/
theorem Crecido.limpia {b : ℤ} (h : Crecido m i k b s s') {L : ℕ}
    (hlugar : cuantos k (L - k) ≤ (libres m s).length)
    (hlimpia : ∀ p : ℕ, k ≤ 1024 * p → 1024 * p < L → Limpio m s (bloquePunteros m s i k p))
    {p : ℕ} (hp : k + 1 ≤ 1024 * p) (hp' : 1024 * p < L) :
    Limpio m s' (bloquePunteros m s' i (k + 1) p) := by
  have hsuma : cuantos k (1024 * p - k) = cuantos k 1 + cuantos (k + 1) (1024 * p - (k + 1)) := by
    rw [← cuantos_add]
    congr 1
    omega
  have hlt := cuantos_puntero_lt (K := k) hp' (by omega)
  have hmismo : bloquePunteros m s' i (k + 1) p = bloquePunteros m s i k p := by
    rw [bloquePunteros_nuevo hp, bloquePunteros_nuevo (by omega), h.libres_eq, hsuma,
      List.getD_eq_getElem?_getD, List.getD_eq_getElem?_getD, List.getElem?_drop, add_assoc]
  rw [hmismo]
  intro d hd hbitmap husado
  rcases h.tomados d hbitmap husado with hviejo | ⟨e, he, rfl⟩
  · exact hlimpia p (by omega) hp' d hd hbitmap hviejo
  · refine not_pisa_of_lt hd ?_
    obtain ⟨x, hx, rfl⟩ := List.mem_iff_getElem.1 he
    rw [List.length_take] at hx
    have hmenor := getD_libres_lt (m := m) (s := s) (n := x) (l := cuantos k (1024 * p - k) + 1)
      (by omega) (by omega)
    rw [bloquePunteros_nuevo (by omega), List.getElem_take]
    rw [List.getD_eq_getElem _ _ (by omega)] at hmenor
    exact Int.ofNat_lt.2 hmenor

/-- An iteration that writes in a block that has been added to the file. -/
theorem EnCurso.vuelta_nueva (hm : Formateado m) (h : EnCurso m i (4096 * k) buf s) (hk : 0 < k)
    (hfin : s.tamanio m i = 4096 * k) {b : ℤ} (hcrecido : Crecido m i k b s s') {w : ℕ}
    (hpos : 0 < w) (hw : w ≤ buf.length) (hl : w ≤ 4096)
    (hdirecta : Directa (4096 * k + w) (4096 * k + w) (buf.length - w)) :
    Escrito m i (4096 * k) (buf.take w) s (s'.volcado m i (4096 * k) (buf.take w)) ∧
      EnCurso m i (4096 * k + w) (buf.drop w) (s'.volcado m i (4096 * k) (buf.take w)) := by
  have hhasta := h.hasta
  have hlugar := h.lugar
  have hlimpia := h.limpia
  have hbloques := bloquesDe_mul hk
  rw [faltan, hfin, hbloques] at hlugar
  rw [Limpia, hfin, hbloques] at hlimpia
  have htake : (buf.take w).length = w := List.length_take_of_le hw
  have hmas : k + 1 ≤ bloquesDe ((4096 * k : ℕ) + buf.length) := by
    rw [bloquesDe, posiciones]
    omega
  have hmax : max (s'.tamanio m i) ((4096 * k : ℕ) + w) = 4096 * k + w := by
    rw [hcrecido.tamanio, hfin]
    omega
  have hbloques' : bloquesDe (max (s'.tamanio m i) ((4096 * k : ℕ) + w)) = k + 1 := by
    rw [hmax, bloquesDe, posiciones]
    omega
  have hoff : 4096 * k / 4096 < k + 1 := by omega
  have hdesde : ((4096 * k : ℕ) : ℤ) ≤ s'.tamanio m i := by
    rw [hcrecido.tamanio, hfin]
    omega
  obtain ⟨htamanio, harchivo, hmapa, hextiende⟩ := escrito_volcado (buf.take w) hcrecido.mapa
    hoff (by omega) hdesde (by omega) (by rw [htake, hbloques'])
  refine ⟨⟨?_, ?_, hmapa, ?_⟩, enCurso_volcado hm hcrecido.mapa hw hoff (by omega) hhasta
    hbloques' ?_ ?_ fun p hp hp' => hcrecido.limpia hlugar hlimpia hp hp'⟩
  · rw [htamanio, hcrecido.tamanio]
  · rw [harchivo, hcrecido.archivo]
  · rw [hfin, hbloques]
    exact hcrecido.extiende.trans hextiende
  · rw [hmax, Nat.cast_mul, Nat.cast_ofNat]
    exact hdirecta
  · have hsuma : bloquesDe ((4096 * k : ℕ) + buf.length) - k =
        1 + (bloquesDe ((4096 * k : ℕ) + buf.length) - (k + 1)) := by omega
    rw [hsuma, cuantos_add] at hlugar
    rw [hcrecido.libres_eq, List.length_drop]
    omega

/-! ## The iterations -/

variable {e e' : Escritura} {r : ℤ × Estado} {ahora fuel : ℕ} {size : ℤ}

theorem bloqueEscrito_eq (hmax : off < 2147483648) :
    bloqueEscrito m s i off = m.bloque (s.dato m i (off / 4096)) := by
  rw [bloqueEscrito, settearPosicion_eq (Int.natCast_nonneg off) (by omega), Int.toNat_natCast]
  rfl

/-- With nothing left, it is only the time that is set. -/
theorem bucleWrite_cero (h : e.tamanio = 0) (h' : e'.tamanio = 0) :
    bucleWrite m ahora i size fuel e s = bucleWrite m ahora i size fuel e' s := by
  cases fuel with
  | zero => rfl
  | succ n => rw [bucleWrite, bucleWrite, if_pos h, if_pos h']

theorem bucleWrite_vieja (htamanio : e.tamanio ≠ 0) (hpide : ¬ PideBloque e) :
    bucleWrite m ahora i size (fuel + 1) e s =
      bucleWrite m ahora i size fuel
        (volcar m i (espacioEnUltimo e.tamanioArchivo) (bloqueEscrito m s i e.off) e s).1
        (volcar m i (espacioEnUltimo e.tamanioArchivo) (bloqueEscrito m s i e.off) e s).2 := by
  rw [bucleWrite, if_neg htamanio]
  exact if_neg hpide

theorem bucleWrite_nueva (htamanio : e.tamanio ≠ 0) (hpide : PideBloque e)
    {b : ℤ} {s₁ s₂ : Estado} (hobtiene : obtenerBloqueLibre m s = some (b, s₁))
    (hagrega : agregarBloqueLibre m i b s₁ = some (0, s₂))
    (h : bucleWrite m ahora i size (fuel + 1) e s = some r) :
    s.bitmapFreeBlocks = 0 ∧ r = (-1, s) ∨ s.bitmapFreeBlocks ≠ 0 ∧
      bucleWrite m ahora i size fuel (volcar m i 4096 (m.bloque b) e s₂).1
        (volcar m i 4096 (m.bloque b) e s₂).2 = some r := by
  rw [bucleWrite, if_neg htamanio] at h
  replace h := (if_pos hpide).symm.trans h
  by_cases hlibres : s.bitmapFreeBlocks = 0
  · replace h := (if_pos hlibres).symm.trans h
    exact .inl ⟨hlibres, (Option.some.inj h).symm⟩
  refine .inr ⟨hlibres, ?_⟩
  replace h := (if_neg hlibres).symm.trans h
  obtain ⟨⟨c, t₁⟩, hc, h⟩ := Option.bind_eq_some_iff.1 h
  obtain ⟨⟨res, t₂⟩, hres, h⟩ := Option.bind_eq_some_iff.1 h
  rw [hobtiene] at hc
  obtain ⟨rfl, rfl⟩ := Prod.mk.inj (Option.some.inj hc)
  rw [hagrega] at hres
  obtain ⟨rfl, rfl⟩ := Prod.mk.inj (Option.some.inj hres)
  exact (if_neg (not_not.2 rfl)).symm.trans h

/-- The loop asks for a block at the end of a file whose last block is full. -/
theorem pideBloque_inicio_iff {t : ℤ} (ht : 0 ≤ t) (hmax : t ≤ 4194304000) (hoff : (off : ℤ) ≤ t) :
    PideBloque (Escritura.inicio t off buf) ↔ t ≠ 0 ∧ t % 4096 = 0 ∧ (off : ℤ) = t := by
  rw [PideBloque, Escritura.inicio]
  dsimp only
  rw [unsigned_eq_self (Int.natCast_nonneg off) (by omega), espacioEnUltimo]
  split_ifs with hcero hresto
  · omega
  · rw [unsigned_eq_self (by omega) (by omega)]
    omega
  · rw [unsigned_eq_self (by omega) (by omega)]
    omega

/-- Before the end of the file it asks for none. -/
theorem not_pideBloque_of_lt (hoff : 0 ≤ e.off) (hlt : e.off < e.tamanioArchivo)
    (hmax : e.tamanioArchivo ≤ 4294963200) : ¬ PideBloque e := by
  rintro ⟨hle, hcero⟩
  have hmultiplo := espacioEnUltimo_add hcero
  have hnonneg := espacioEnUltimo_nonneg e.tamanioArchivo
  rw [unsigned_eq_self hoff (by omega), unsigned_eq_self (by omega) (by omega)] at hle
  omega

/-- A whole block over bytes of the file goes to the beginning of a block, and no size changes. -/
theorem volcar_sobre (espacio bloque : ℤ) (hentero : 4096 ≤ e.tamanio) (hoff : 0 ≤ e.off)
    (hsize : (s.conMem (store s.mem bloque (e.buf.take 4096))).tamanio m i = s.tamanio m i)
    (hlt : e.off < s.tamanio m i) :
    volcar m i espacio bloque e s =
      (⟨e.tamanio - 4096, e.tamanioArchivo, e.off + 4096, 0, e.buf.drop 4096⟩,
        s.conMem (store s.mem bloque (e.buf.take 4096))) := by
  have hmax : s.tamanio m i < 4294967296 := load32_lt _ _
  rw [volcar, if_pos hentero]
  dsimp only
  rw [hsize, unsigned_eq_self hoff (by omega), if_neg (by omega), if_neg (by omega)]

/-- The largest file that the pointers of a node reach. -/
theorem tamanio_le_tope (hmapa : Mapa m s i (bloquesDe (s.tamanio m i))) :
    s.tamanio m i ≤ 4194304000 := by
  have htope := hmapa.tope
  rw [bloquesDe, posiciones] at htope
  omega

/-! ## A loop that runs aground -/

/-- A loop that is to run aground, and has not left the blocks of the file. -/
structure Encallada (m : Montaje) (i : ℤ) (x : Escritura × Estado) : Prop where
  sincrona : Sincrona m i x
  encalla : Encalla x.1.tamanioArchivo x.1.off x.1.tamanio
  hasta : x.1.off + 4096 * (x.1.tamanio / 4096) < 2147483648
  offset : 0 ≤ x.1.offsetEnBloque
  mapa : MapaCompleto m x.2 i (bloquesDe (x.2.tamanio m i))

theorem Encallada.vuelta (basura : Estado → ℤ) {x : Escritura × Estado} (h : Encallada m i x) :
    ∃ y, vueltaWrite m basura i x = some y ∧
      (Encallada m i y ∨ Atascado m i y ∧ 0 ≤ y.1.tamanio) := by
  obtain ⟨y, hy, hno⟩ := h.sincrona.sigue basura h.encalla
  have hpos := h.sincrona.tamanio_nonneg
  have hoff := h.sincrona.off_nonneg
  have hhasta := h.hasta
  have htope := h.mapa.tope
  have harchivo := h.sincrona.archivo
  obtain ⟨hlt, hespacio, hbajo⟩ := h.encalla
  obtain ⟨o, ho⟩ := Int.eq_ofNat_of_zero_le hoff
  have hoff' : o / 4096 < bloquesDe (x.2.tamanio m i) := div_lt_bloquesDe (by omega)
  have hnonneg := espacioEnUltimo_nonneg x.1.tamanioArchivo
  have hpide := not_pideBloque_of_lt hoff (by omega) hbajo
  have hbloque : bloqueEscrito m x.2 i x.1.off = m.bloque (x.2.dato m i (o / 4096)) := by
    rw [ho, bloqueEscrito_eq (by omega)]
  have hbase := h.mapa.base_le_dato _ hoff'
  have hintacto : Intacto m basura i x := by
    refine intacto_of_mapa h.mapa.nodo_lt hpide h.offset ?_
    rw [ho, settearPosicion_eq (Int.natCast_nonneg o) (by omega), Int.toNat_natCast]
    exact hbase
  obtain ⟨hsincrona, hencalla⟩ := (h.sincrona.vuelta hintacto hy).resolve_left hno
  have htamanio : 0 ≤ y.1.tamanio := hsincrona.tamanio_nonneg
  replace hencalla := hencalla.2 h.encalla
  obtain ⟨hcero, d, hd, rfl⟩ := vueltaWrite_cases hy
  have hsize := hintacto hcero d hd
  rw [elegirBloque_mapa hpide] at hd
  obtain rfl := Except.ok.inj hd
  dsimp only at hsize hy hno hsincrona hencalla htamanio ⊢
  refine ⟨_, hy, ?_⟩
  rcases le_or_gt 4096 x.1.tamanio with hentero | hresto
  · have hsolo : SoloBloque m (x.2.dato m i (o / 4096)) x.2
        (almacenar (espacioEnUltimo x.1.tamanioArchivo) (bloqueEscrito m x.2 i x.1.off) x.1
          x.2) := by
      rw [almacenar, if_pos hentero, hbloque]
      exact soloBloque_store le_rfl (by rw [List.length_take]; omega) _
    rw [almacenar, if_pos hentero] at hsolo hsize
    rw [volcar_sobre _ _ hentero hoff hsize (by omega)] at hsincrona hencalla ⊢
    refine .inl ⟨hsincrona, hencalla, ?_, le_rfl, ?_⟩
    · dsimp only
      omega
    · rw [hsize]
      exact hsolo.mapaCompleto h.mapa hoff'
  · obtain ⟨htamanio', hoff'', hfin, hnodo⟩ := volcar_parte (m := m) (i := i) (s := x.2)
      (espacioEnUltimo x.1.tamanioArchivo) (bloqueEscrito m x.2 i x.1.off) hresto (by omega)
    have hmultiplo := espacioEnUltimo_add (x := x.1.tamanioArchivo) (by omega)
    rw [hsize, ← harchivo, unsigned_eq_self (by omega) (by omega)] at hfin hnodo
    refine .inr ⟨⟨hno, by omega, ?_, ?_, by rw [hfin, hnodo]⟩, htamanio⟩
    · rintro ⟨hle, -⟩
      rw [hfin, hoff'', espacioEnUltimo_of_emod (by omega) hmultiplo.1, add_zero,
        unsigned_eq_self (by omega) (by omega), unsigned_eq_self (by omega) (by omega)] at hle
      omega
    · rw [hfin, espacioEnUltimo_of_emod (by omega) hmultiplo.1]

/-- It does not return. -/
theorem not_bucleWrite_of_encallada {x : Escritura × Estado} (h : Encallada m i x) :
    bucleWrite m ahora i size fuel x.1 x.2 ≠ some r := by
  intro heval
  have hciego : bucleCiego m (fun _ => 0) i ahora size fuel 0 x.1 x.2 = some r :=
    bucleCiego_eq heval
  have hends : EndsIn (vueltaWrite m (fun _ => 0) i) fuel (x.1, x.2) :=
    (bucleCiego_isSome ahora size fuel 0 x.1 x.2).1 (by rw [hciego]; rfl)
  refine not_endsIn (P := fun y => Encallada m i y ∨ Atascado m i y ∧ 0 ≤ y.1.tamanio) ?_ fuel
    (.inl h) hends
  rintro y (hy | ⟨hy, hpos⟩)
  · exact hy.vuelta _
  · obtain ⟨z, hz, hatascado⟩ := hy.vuelta _ hpos
    exact ⟨z, hz, .inr hatascado⟩

theorem encallada_inicio (hmapa : MapaCompleto m s i (bloquesDe (s.tamanio m i)))
    (hhasta : (off : ℤ) + 4096 * (buf.length / 4096) < 2147483648)
    (hencalla : Encalla (s.tamanio m i) off buf.length) :
    Encallada m i (Escritura.inicio (s.tamanio m i) off buf, s) where
  sincrona := ⟨rfl, Int.natCast_nonneg off, Int.natCast_nonneg _, by
    simp only [Escritura.inicio]
    omega⟩
  encalla := hencalla
  hasta := hhasta
  offset := Int.tmod_nonneg 4096 (Int.natCast_nonneg off)
  mapa := hmapa

/-! ## The whole loop -/

/-- The bytes of an iteration, the state after it and the rest of the loop. The file gets no
block when the counter is 0. -/
def Avanza (m : Montaje) (ahora fuel : ℕ) (i size : ℤ) (off : ℕ) (buf : List UInt8)
    (s : Estado) (r : ℤ × Estado) : Prop :=
  ∃ w ≤ buf.length, ∃ s₁, Escrito m i off (buf.take w) s s₁ ∧
    EnCurso m i (off + w) (buf.drop w) s₁ ∧ s₁.bitmapFreeBlocks = s.bitmapFreeBlocks ∧
    (s.bitmapFreeBlocks = 0 → bloquesDe (s₁.tamanio m i) = bloquesDe (s.tamanio m i)) ∧
    bucleWrite m ahora i size fuel
      (Escritura.inicio (s₁.tamanio m i) (off + w : ℕ) (buf.drop w)) s₁ = some r

/-- The loop stops at the end of a file whose blocks are full, when the counter is 0. -/
def Corta (m : Montaje) (i : ℤ) (off : ℕ) (s : Estado) (r : ℤ × Estado) : Prop :=
  s.bitmapFreeBlocks = 0 ∧ (off : ℤ) = 4096 * bloquesDe (s.tamanio m i) ∧ r = (-1, s)

/-- An iteration in a block that has been added, unless the counter is 0. -/
theorem EnCurso.avanza_nueva (hm : Formateado m) (h : EnCurso m i off buf s)
    (hbuf : 0 < buf.length)
    (hpide : PideBloque (Escritura.inicio (s.tamanio m i) off buf))
    (heval : bucleWrite m ahora i size (fuel + 1) (Escritura.inicio (s.tamanio m i) off buf) s =
      some r) : Corta m i off s r ∨ Avanza m ahora fuel i size off buf s r := by
  have htope := tamanio_le_tope h.mapa.toMapa
  have hhasta := h.hasta
  obtain ⟨hcero, hresto, hfin⟩ :=
    (pideBloque_inicio_iff (tamanio_nonneg m s i) htope h.desde).1 hpide
  obtain ⟨k, rfl⟩ : ∃ k, off = 4096 * k := ⟨off / 4096, by omega⟩
  have hk : 0 < k := by omega
  rw [Nat.cast_mul, Nat.cast_ofNat] at hfin
  obtain ⟨b, s₁, hobtiene, hagrega, hcrecido⟩ := h.crecido hm hk hfin.symm hbuf
  refine (bucleWrite_nueva (by simp only [Escritura.inicio]; omega) hpide hobtiene hagrega
    heval).imp (fun hcorta => ⟨hcorta.1, ?_, hcorta.2⟩) fun hsigue => ?_
  · rw [← hfin, bloquesDe_mul hk, Nat.cast_mul, Nat.cast_ofNat]
  obtain ⟨hlibres, hsigue⟩ := hsigue
  have hcontador : s₁.bitmapFreeBlocks = s.bitmapFreeBlocks := hcrecido.contador
  have htamanio := hcrecido.tamanio
  have hmapa := hcrecido.mapa.toMapa
  have hultimo : 4096 * k / 4096 < k + 1 := by omega
  have hbloque : m.bloque b = m.bloque (s₁.dato m i (4096 * k / 4096)) := by
    rw [Nat.mul_div_cancel_left _ (by decide), hcrecido.dato]
  rw [hbloque, ← htamanio] at hsigue
  rcases le_or_gt 4096 buf.length with hentero | hparte
  · obtain ⟨hescrito, hsigue'⟩ := h.vuelta_nueva hm hk hfin.symm hcrecido (w := 4096) (by omega)
      hentero le_rfl (by rw [Directa]; omega)
    refine ⟨4096, hentero, _, hescrito, hsigue', hcontador, fun hno => absurd hno hlibres, ?_⟩
    rw [volcar_entera hmapa hultimo _ hentero (by omega) (by omega) (.inl (by omega))] at hsigue
    rw [tamanio_volcado (by rw [List.length_take]; omega), List.length_take_of_le hentero]
    exact hsigue
  · obtain ⟨hescrito, hsigue'⟩ := h.vuelta_nueva hm hk hfin.symm hcrecido hbuf le_rfl (by omega)
      (by rw [Directa]; omega)
    obtain ⟨hnada, hestado⟩ := volcar_ultima hmapa hultimo hparte
      (show (buf.length : ℤ) ≤ 4096 by omega) (by omega) (by omega)
    refine ⟨buf.length, le_rfl, _, hescrito, hsigue', hcontador, fun hno => absurd hno hlibres,
      (bucleWrite_cero ?_ hnada).trans ?_⟩
    · rw [Escritura.inicio, List.drop_length]
      rfl
    · rw [hestado] at hsigue
      rwa [List.take_length]

/-- An iteration in a block that the file had. -/
theorem EnCurso.avanza_vieja (hm : Formateado m) (h : EnCurso m i off buf s)
    (hbuf : 0 < buf.length)
    (hpide : ¬ PideBloque (Escritura.inicio (s.tamanio m i) off buf))
    (heval : bucleWrite m ahora i size (fuel + 1) (Escritura.inicio (s.tamanio m i) off buf) s =
      some r) : Avanza m ahora fuel i size off buf s r := by
  have htope := tamanio_le_tope h.mapa.toMapa
  have hhasta := h.hasta
  have hdesde := h.desde
  have hnonneg := tamanio_nonneg m s i
  have hdirecta := h.directa
  have hmapa := h.mapa.toMapa
  have hsigue := heval
  rw [bucleWrite_vieja (by simp only [Escritura.inicio]; omega) hpide] at hsigue
  rw [pideBloque_inicio_iff hnonneg htope hdesde] at hpide
  have hoff : off / 4096 < bloquesDe (s.tamanio m i) := by
    rw [bloquesDe, posiciones]
    omega
  dsimp only [Escritura.inicio] at hsigue
  rw [bloqueEscrito_eq (by omega)] at hsigue
  rw [Directa] at hdirecta
  rcases le_or_gt 4096 buf.length with hentero | hparte
  · have hresto : off % 4096 = 0 := by omega
    have hcabe : (off : ℤ) = s.tamanio m i ∨ off + 4096 ≤ s.tamanio m i := by omega
    obtain ⟨hescrito, hsigue', hbloques⟩ := h.vuelta_vieja hm hentero hoff (by omega)
      (by rw [Directa]; omega)
    refine ⟨4096, hentero, _, hescrito, hsigue', rfl, fun _ => hbloques, ?_⟩
    rw [tamanio_volcado (by rw [List.length_take]; omega), List.length_take_of_le hentero]
    have hvolcar := volcar_entera hmapa hoff (espacioEnUltimo (s.tamanio m i)) hentero hresto
      (by omega) hcabe
    rw [Escritura.inicio] at hvolcar
    rw [hvolcar] at hsigue
    exact hsigue
  rcases le_or_gt (buf.length : ℤ) (espacioEnUltimo (s.tamanio m i)) with hcabe | hpasa
  · have hl : off % 4096 + buf.length ≤ 4096 := by
      rw [espacioEnUltimo] at hcabe
      split_ifs at hcabe <;> omega
    obtain ⟨hescrito, hsigue', hbloques⟩ :=
      h.vuelta_vieja hm le_rfl hoff hl (by rw [Directa]; omega)
    obtain ⟨hnada, hestado⟩ := volcar_ultima hmapa hoff hparte hcabe (by omega) hdesde
    rw [Escritura.inicio] at hnada hestado
    refine ⟨buf.length, le_rfl, _, hescrito, hsigue', rfl, fun _ => hbloques,
      (bucleWrite_cero ?_ hnada).trans ?_⟩
    · rw [Escritura.inicio, List.drop_length]
      rfl
    · rw [hestado] at hsigue
      rwa [List.take_length]
  rcases lt_or_eq_of_le hdesde with hantes | hfin
  · -- the bytes do not fit in the space of the last block, which is not the block of the offset
    refine absurd heval (not_bucleWrite_of_encallada (encallada_inicio h.mapa (by omega) ?_))
    rw [Encalla]
    omega
  · obtain ⟨w, hw⟩ : ∃ w, off % 4096 + w = 4096 := ⟨4096 - off % 4096, by omega⟩
    have hespacio : espacioEnUltimo (s.tamanio m i) = w := by
      rw [espacioEnUltimo] at hpasa ⊢
      split_ifs at hpasa ⊢ <;> omega
    rw [hespacio] at hpasa hsigue
    have hmenor : w < buf.length := Int.ofNat_lt.1 hpasa
    obtain ⟨hescrito, hsigue', hbloques⟩ :=
      h.vuelta_vieja hm hmenor.le hoff hw.le (by rw [Directa]; omega)
    refine ⟨w, hmenor.le, _, hescrito, hsigue', rfl, fun _ => hbloques, ?_⟩
    rw [tamanio_volcado (by rw [List.length_take]; omega), List.length_take_of_le hmenor.le]
    have hvolcar := volcar_llena hmapa hoff hparte hmenor hfin hw (by omega)
    rw [Escritura.inicio] at hvolcar
    rw [hvolcar] at hsigue
    exact hsigue

/-- How many bytes the loop writes: all of them, or, when the counter is 0, those that fit in the
blocks that the file has. -/
def Alcanza (m : Montaje) (i size : ℤ) (off : ℕ) (buf : List UInt8) (s : Estado) (n : ℕ)
    (res : ℤ) : Prop :=
  buf.length ≤ n ∧ res = size ∧ (s.bitmapFreeBlocks ≠ 0 ∨
      (off : ℤ) + buf.length ≤ 4096 * bloquesDe (s.tamanio m i)) ∨
    n < buf.length ∧ res = -1 ∧ s.bitmapFreeBlocks = 0 ∧
      (off : ℤ) + n = 4096 * bloquesDe (s.tamanio m i)

/-- After an iteration. -/
theorem Alcanza.avanza {w n : ℕ} {res : ℤ} {s₁ : Estado} (hw : w ≤ buf.length)
    (hcontador : s₁.bitmapFreeBlocks = s.bitmapFreeBlocks)
    (hbloques : s.bitmapFreeBlocks = 0 →
      bloquesDe (s₁.tamanio m i) = bloquesDe (s.tamanio m i))
    (h : Alcanza m i size (off + w) (buf.drop w) s₁ n res) :
    Alcanza m i size off buf s (w + n) res := by
  rw [Alcanza, List.length_drop, hcontador] at h
  rcases h with ⟨htodos, hres, hcabe⟩ | ⟨hfalta, hres, hcero, hfin⟩
  · refine .inl ⟨by omega, hres, or_iff_not_imp_left.2 fun hno => ?_⟩
    have hcero := not_not.1 hno
    have hcabe' := hcabe.resolve_left hno
    rw [hbloques hcero] at hcabe'
    omega
  · rw [hbloques hcero] at hfin
    exact .inr ⟨by omega, hres, hcero, by omega⟩

theorem tamanio_le_bloques (x : ℤ) : x ≤ 4096 * bloquesDe x := by
  rw [bloquesDe, posiciones]
  omega

/-- What the loop writes. -/
theorem EnCurso.escrito (hm : Formateado m) (fuel : ℕ) {off : ℕ} {buf : List UInt8} {s : Estado}
    (h : EnCurso m i off buf s)
    (heval : bucleWrite m ahora i size fuel (Escritura.inicio (s.tamanio m i) off buf) s =
      some r) : ∃ n, Escrito m i off (buf.take n) s r.2 ∧ Alcanza m i size off buf s n r.1 := by
  induction fuel generalizing off buf s with
  | zero => cases heval
  | succ n ih =>
      have hcubre := tamanio_le_bloques (s.tamanio m i)
      have hdesde := h.desde
      rcases eq_or_ne buf [] with rfl | hbuf
      · have hnada : (Escritura.inicio (s.tamanio m i) off []).tamanio = 0 := rfl
        rw [bucleWrite, if_pos hnada] at heval
        cases heval
        refine ⟨0, escrito_ponerModificacion ahora h.mapa h.desde, .inl ⟨le_rfl, rfl, .inr ?_⟩⟩
        rw [List.length_nil]
        omega
      have hpos := List.length_pos_iff.2 hbuf
      have havanza : Corta m i off s r ∨ Avanza m ahora n i size off buf s r := by
        by_cases hpide : PideBloque (Escritura.inicio (s.tamanio m i) off buf)
        · exact h.avanza_nueva hm hpos hpide heval
        · exact .inr (h.avanza_vieja hm hpos hpide heval)
      obtain ⟨hcero, hfin, rfl⟩ | ⟨w, hw, s₁, hescrito, hsigue, hcontador, hbloques, heval'⟩ :=
        havanza
      · exact ⟨0, escrito_refl h.mapa h.desde, .inr ⟨hpos, rfl, hcero, by omega⟩⟩
      · obtain ⟨l, hfin, halcanza⟩ := ih hsigue heval'
        have htake : off + (buf.take w).length = off + w := by rw [List.length_take_of_le hw]
        rw [← htake] at hfin
        refine ⟨w + l, ?_, halcanza.avanza hw hcontador hbloques⟩
        rw [List.take_add]
        exact hescrito.trans h.desde hfin

/-! ## Over the end of a block -/

/-- The position after that of the offset has the next block of the disk. -/
def Seguida (m : Montaje) (s : Estado) (i : ℤ) (off : ℕ) : Prop :=
  s.dato m i (off / 4096 + 1) = s.dato m i (off / 4096) + 1

/-- What passes the end of the block goes on in the next position. -/
theorem volcado_volcado (hmapa : Mapa m s i k) (hseguida : Seguida m s i off) {w : ℕ}
    (hk : off / 4096 + 1 < k) (hw : off % 4096 + w = 4096) (hbuf : w ≤ buf.length)
    (hdentro : (off : ℤ) + w ≤ s.tamanio m i) :
    (s.volcado m i off (buf.take w)).volcado m i (off + w) (buf.drop w) =
      s.volcado m i off buf := by
  have hoff : off / 4096 < k := by omega
  have htake : (buf.take w).length = w := List.length_take_of_le hbuf
  have hdrop : ((buf.drop w).length : ℤ) = buf.length - w := by
    rw [List.length_drop]
    omega
  have htamanio := tamanio_volcando (i := i) hmapa hoff (buf.take w)
    (le_add_of_nonneg_right (Int.natCast_nonneg (off % 4096)))
  have hdato := (soloBloque_volcado (m := m) (i := i) (l := buf.take w) (by omega) s).dato hmapa
    hoff hk
  have hdiv : (off + w) / 4096 = off / 4096 + 1 := by omega
  have hresto : (off + w) % 4096 = 0 := by omega
  have hlugar : m.bloque (s.dato m i (off / 4096) + 1) + ((0 : ℕ) : ℤ) =
      m.bloque (s.dato m i (off / 4096)) + (off % 4096 : ℕ) + (buf.take w).length := by
    have hbloque := bloque_eq m (s.dato m i (off / 4096))
    have hbloque' := bloque_eq m (s.dato m i (off / 4096) + 1)
    omega
  have hprimero : s.volcado m i off (buf.take w) = s.conMem (store s.mem
      (m.bloque (s.dato m i (off / 4096)) + (off % 4096 : ℕ)) (buf.take w)) :=
    ponerTamanio_self (by rw [htamanio, htake, max_eq_left hdentro])
  have hjunto := store_append s.mem (m.bloque (s.dato m i (off / 4096)) + (off % 4096 : ℕ))
    (buf.take w) (buf.drop w)
  rw [List.take_append_drop] at hjunto
  have hmax : max (s.tamanio m i) ((off + w : ℕ) + (buf.drop w).length) =
      max (s.tamanio m i) (off + buf.length) := by
    congr 1
    omega
  rw [hprimero, Estado.volcado, hdiv, hresto, hdato, hseguida, hlugar, htamanio, hmax,
    Estado.volcado, hjunto]
  rfl

theorem escrito_seguida (hmapa : MapaCompleto m s i (bloquesDe (s.tamanio m i)))
    (hseguida : Seguida m s i off) (hpasa : 4096 < off % 4096 + buf.length)
    (hbuf : buf.length < 4096)
    (hcabe : (buf.length : ℤ) ≤ espacioEnUltimo (s.tamanio m i))
    (hdesde : (off : ℤ) < s.tamanio m i) (hmax : off + buf.length ≤ 2147483648) :
    Escrito m i off buf s (s.volcado m i off buf) := by
  obtain ⟨w, hw⟩ : ∃ w, off % 4096 + w = 4096 := ⟨4096 - off % 4096, by omega⟩
  -- the block of the offset is not the last one, where there is room for all the bytes
  have hdentro : (off : ℤ) + w ≤ s.tamanio m i ∧ off / 4096 + 1 < bloquesDe (s.tamanio m i) := by
    rw [espacioEnUltimo] at hcabe
    rw [bloquesDe, posiciones]
    split_ifs at hcabe <;> omega
  have htake : (buf.take w).length = w := List.length_take_of_le (by omega)
  have hdrop : ((buf.drop w).length : ℤ) = buf.length - w := by
    rw [List.length_drop]
    omega
  obtain ⟨htamanio, harchivo, hmapa', hextiende⟩ := escrito_volcado (buf.take w) hmapa
    (by omega) (by omega) hdesde.le (by omega) (by rw [htake, max_eq_left hdentro.1])
  have hprimero : Escrito m i off (buf.take w) s (s.volcado m i off (buf.take w)) :=
    ⟨htamanio, harchivo, hmapa', hextiende⟩
  rw [htake, max_eq_left hdentro.1] at htamanio
  have hbloques : bloquesDe (max ((s.volcado m i off (buf.take w)).tamanio m i)
      ((off + w : ℕ) + (buf.drop w).length)) = bloquesDe (s.tamanio m i) := by
    rw [bloquesDe, posiciones] at hdentro
    rw [htamanio, bloquesDe, bloquesDe, posiciones, posiciones]
    omega
  rw [htamanio] at hmapa'
  obtain ⟨htamanio', harchivo', hmapa'', hextiende'⟩ := escrito_volcado (buf.drop w) hmapa'
    (by omega) (by omega) (by omega) (by omega) hbloques
  have hsegundo : Escrito m i (off + (buf.take w).length) (buf.drop w)
      (s.volcado m i off (buf.take w))
      ((s.volcado m i off (buf.take w)).volcado m i (off + w) (buf.drop w)) := by
    rw [htake]
    refine ⟨htamanio', harchivo', hmapa'', ?_⟩
    rwa [htamanio]
  have htodo := hprimero.trans hdesde.le hsegundo
  rwa [List.take_append_drop, volcado_volcado hmapa.toMapa hseguida hdentro.2 hw (by omega)
    hdentro.1] at htodo

/-- Less than a block from before the end of the file is written in one iteration, if it fits in
the space that the loop finds. -/
theorem bucleWrite_parte (hmapa : Mapa m s i (bloquesDe (s.tamanio m i))) (hpos : 0 < buf.length)
    (hbuf : buf.length < 4096) (hcabe : (buf.length : ℤ) ≤ espacioEnUltimo (s.tamanio m i))
    (hdesde : (off : ℤ) < s.tamanio m i) (hmax : off < 2147483648) :
    bucleWrite m ahora i size 1 (Escritura.inicio (s.tamanio m i) off buf) s = none ∧
      bucleWrite m ahora i size (fuel + 2) (Escritura.inicio (s.tamanio m i) off buf) s =
        some (size, (s.volcado m i off buf).ponerModificacion m i ahora) := by
  have hqueda : (Escritura.inicio (s.tamanio m i) off buf).tamanio ≠ 0 := by
    simp only [Escritura.inicio]
    omega
  have hpide : ¬ PideBloque (Escritura.inicio (s.tamanio m i) off buf) := by
    rw [pideBloque_inicio_iff (tamanio_nonneg m s i) (tamanio_le_tope hmapa) hdesde.le]
    omega
  obtain ⟨hnada, hestado⟩ := volcar_ultima hmapa (div_lt_bloquesDe hdesde) hbuf hcabe hmax hdesde.le
  rw [bucleWrite_vieja hqueda hpide, bucleWrite_vieja hqueda hpide]
  refine ⟨rfl, ?_⟩
  dsimp only [Escritura.inicio] at hnada hestado ⊢
  rw [bloqueEscrito_eq hmax, bucleWrite, if_pos hnada, hestado]

/-- The loop writes them in one iteration. -/
theorem escrito_of_seguida (hmapa : MapaCompleto m s i (bloquesDe (s.tamanio m i)))
    (hseguida : Seguida m s i off) (hpasa : 4096 < off % 4096 + buf.length)
    (hbuf : buf.length < 4096)
    (hcabe : (buf.length : ℤ) ≤ espacioEnUltimo (s.tamanio m i))
    (hdesde : (off : ℤ) < s.tamanio m i) (hmax : off + buf.length ≤ 2147483648)
    (heval : bucleWrite m ahora i size fuel (Escritura.inicio (s.tamanio m i) off buf) s =
      some r) : Escrito m i off buf s r.2 ∧ r.1 = size := by
  have hescrito := escrito_seguida hmapa hseguida hpasa hbuf hcabe hdesde hmax
  have hparte : ∀ n, _ ∧ bucleWrite m ahora i size (n + 2) _ s = _ := fun _ =>
    bucleWrite_parte hmapa.toMapa (by omega) hbuf hcabe hdesde (by omega)
  match fuel with
  | 0 => cases heval
  | 1 =>
      rw [(hparte 0).1] at heval
      cases heval
  | n + 2 =>
      rw [(hparte n).2] at heval
      cases heval
      have hdesde' : ((off + buf.length : ℕ) : ℤ) ≤ (s.volcado m i off buf).tamanio m i := by
        rw [hescrito.tamanio]
        omega
      have hfin := escrito_ponerModificacion ahora hescrito.mapa hdesde'
      have htodo := hescrito.trans hdesde.le hfin
      rw [List.append_nil] at htodo
      exact ⟨htodo, rfl⟩

end Bucle

/-! ## The request -/

section Pedido

variable (m : Montaje) (s : Estado) (path : Ruta) (off : ℕ) (buf : List UInt8)

/-- Whenever `o_write` returns the length of the buffer, the file of the path is an ideal file
after the write, and the other files are as they were. -/
def EscribeBien : Prop :=
  ∀ fuel ahora s', (oWrite m fuel ahora path off buf).eval s = some ((buf.length : ℤ), s') →
    s'.archivo m (nodoDe m s path.cola - 1) =
        overwrite (s.archivo m (nodoDe m s path.cola - 1)) off buf ∧
      s'.tamanio m (nodoDe m s path.cola - 1) =
        max (s.tamanio m (nodoDe m s path.cola - 1)) (off + buf.length) ∧
      ∀ j, Ajeno m s (nodoDe m s path.cola - 1)
          (bloquesDe (s.tamanio m (nodoDe m s path.cola - 1))) j →
        s'.archivo m j = s.archivo m j

/-- The write does not return; or it ends within the first 2 GiB, which is what the code counts
positions to, and its iterations put the bytes in their places without clearing anything in use,
or its only one goes on in the next block of the disk. -/
def Encaja (i t : ℤ) : Prop :=
  Encalla (s.tamanio m i) off t ∧ off + 4096 * (t / 4096) < 2147483648 ∨
    off + t ≤ 2147483648 ∧
      (Directa (s.tamanio m i) off t ∧ Limpia m s i (off + t) ∨
        off < s.tamanio m i ∧ t < 4096 ∧ Seguida m s i off)

variable {m s path off buf}

theorem eval_oWrite (fuel ahora : ℕ) : (oWrite m fuel ahora path off buf).eval s =
    bucleWrite m ahora (nodoDe m s path.cola - 1) buf.length fuel
      (Escritura.inicio (s.tamanio m (nodoDe m s path.cola - 1)) off buf) s := by
  simp [oWrite, Escritura.inicio]

/-- What the loop writes: all the bytes, or those for which the file has blocks. -/
theorem escrito_of_encaja {i : ℤ} (hm : Formateado m)
    (hmapa : MapaCompleto m s i (bloquesDe (s.tamanio m i))) (hoff : (off : ℤ) ≤ s.tamanio m i)
    (hlugar : faltan m s i (off + buf.length) ≤ (libres m s).length)
    (h : Encaja m s off i buf.length) {fuel ahora : ℕ} {r : ℤ × Estado}
    (heval : bucleWrite m ahora i buf.length fuel (Escritura.inicio (s.tamanio m i) off buf) s =
      some r) :
    ∃ n, Escrito m i off (buf.take n) s r.2 ∧ Alcanza m i buf.length off buf s n r.1 := by
  have hcurso : off + buf.length ≤ 2147483648 → Directa (s.tamanio m i) off buf.length →
      Limpia m s i (off + buf.length) → EnCurso m i off buf s := fun hhasta hdirecta hlimpia =>
    ⟨hoff, hhasta, hmapa, hdirecta, hlugar, hlimpia⟩
  rcases h with ⟨hencalla, hhasta⟩ | ⟨hhasta, ⟨hdirecta, hlimpia⟩ | ⟨hantes, hparte, hseguida⟩⟩
  · exact absurd heval (not_bucleWrite_of_encallada (encallada_inicio hmapa hhasta hencalla))
  · exact (hcurso (by omega) hdirecta hlimpia).escrito hm fuel heval
  have hbloque := div_lt_bloquesDe hantes
  rcases le_or_gt (off % 4096 + buf.length) 4096 with hcabe | hpasa
  · have hlimpia : Limpia m s i (off + buf.length) := limpia_of_bloquesDe (by
      rw [bloquesDe, posiciones]
      omega)
    exact (hcurso (by omega) (by rw [Directa]; omega) hlimpia).escrito hm fuel heval
  rcases le_or_gt (buf.length : ℤ) (espacioEnUltimo (s.tamanio m i)) with hlugar' | hencalla
  · obtain ⟨hescrito, hres⟩ := escrito_of_seguida hmapa hseguida hpasa (by omega) hlugar' hantes
      (by omega) heval
    refine ⟨buf.length, by rwa [List.take_length], .inl ⟨le_rfl, hres, .inr ?_⟩⟩
    have hcubre := tamanio_le_bloques (s.tamanio m i)
    rw [espacioEnUltimo] at hlugar'
    split_ifs at hlugar' <;> rw [bloquesDe, posiciones] at hcubre ⊢ <;> omega
  · have htope := tamanio_le_tope hmapa.toMapa
    refine absurd heval (not_bucleWrite_of_encallada (encallada_inicio hmapa (by omega) ?_))
    rw [Encalla]
    omega

/-- `o_write` on a file whose map is complete, with enough free blocks. -/
theorem escribeBien_of_encaja (m : Montaje) (s : Estado) (path : Ruta) (off : ℕ)
    (buf : List UInt8) (hm : Formateado m)
    (hmapa : MapaCompleto m s (nodoDe m s path.cola - 1)
      (bloquesDe (s.tamanio m (nodoDe m s path.cola - 1))))
    (hoff : (off : ℤ) ≤ s.tamanio m (nodoDe m s path.cola - 1))
    (hlugar : faltan m s (nodoDe m s path.cola - 1) (off + buf.length) ≤ (libres m s).length)
    (h : Encaja m s off (nodoDe m s path.cola - 1) buf.length) :
    EscribeBien m s path off buf := by
  intro fuel ahora s' heval
  rw [eval_oWrite] at heval
  obtain ⟨n, hescrito, halcanza⟩ := escrito_of_encaja hm hmapa hoff hlugar h heval
  have htodos : buf.length ≤ n := by
    rcases halcanza with ⟨htodos, -⟩ | ⟨-, hres, -⟩
    · exact htodos
    · omega
  rw [List.take_of_length_le htodos] at hescrito
  exact ⟨hescrito.archivo, hescrito.tamanio, fun j hj => hescrito.extiende.archivo hj⟩

end Pedido

end Sac
