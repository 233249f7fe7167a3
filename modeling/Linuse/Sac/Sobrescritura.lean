import Linuse.Sac.Ideal

/-!
# Writes over a file

When each iteration of a write begins before the end of the file, the loop of `o_write` asks for
no block, and what it leaves can be followed to its end: the whole blocks go to the beginnings of
their blocks and do not change the size. For these writes the condition under which `o_write` is
that of an ideal file is an exact one, over the buffers of a length (`escribeBien_iff`).
-/

namespace Sac

open Memory Locks Locks.Code

variable {m : Montaje} {s s' s'' : Estado} {i : ℤ} {k t off : ℕ} {e : Escritura}

/-- The file keeps its map and the bytes of its positions other than `p`. -/
structure GuardaOtras (m : Montaje) (i : ℤ) (k p : ℕ) (s s' : Estado) : Prop where
  mapa : MapaCompleto m s' i k
  bytes : ∀ x, x / 4096 < k → x / 4096 ≠ p → s'.byteDe m i x = s.byteDe m i x

theorem SoloBloque.guardaOtras {p : ℕ} (h : SoloBloque m (s.dato m i p) s s')
    (hmapa : MapaCompleto m s i k) (hp : p < k) : GuardaOtras m i k p s s' :=
  ⟨h.mapaCompleto hmapa hp, fun _ hx hne => h.byteDe hmapa hp hx hne⟩

theorem GuardaOtras.campos {p : ℕ} (h : GuardaOtras m i k p s s') (h' : SoloCampos m i s' s'') :
    GuardaOtras m i k p s s'' :=
  ⟨h'.mapaCompleto h.mapa, fun x hx hne => (h'.byteDe h.mapa.toMapa hx).trans (h.bytes x hx hne)⟩

/-- The loop has `t` bytes to write from an offset on, begins each iteration before the end of
the file, and has room in the last block for what is left after the whole blocks. -/
structure Sobre (m : Montaje) (i : ℤ) (off t : ℕ) (e : Escritura) (s : Estado) : Prop where
  archivo : e.tamanioArchivo = s.tamanio m i
  desde : e.off = off
  queda : e.tamanio = t
  bloque : t < 4096 → e.offsetEnBloque = 0
  dentro : off + 4096 * (((t : ℤ) - 1) / 4096) < s.tamanio m i
  cabe : (t % 4096 : ℕ) ≤ espacioEnUltimo (s.tamanio m i)
  hasta : off + t ≤ 2147483648
  mapa : MapaCompleto m s i (bloquesDe (s.tamanio m i))

namespace Sobre

theorem off_lt (h : Sobre m i off t e s) (ht : 0 < t) : (off : ℤ) < s.tamanio m i := by
  have hdentro := h.dentro
  omega

theorem not_pideBloque (h : Sobre m i off t e s) (ht : 0 < t) : ¬ PideBloque e := by
  have hoff := h.off_lt ht
  have htope := tamanio_le_tope h.mapa.toMapa
  refine not_pideBloque_of_lt ?_ ?_ ?_
  · rw [h.desde]
    exact Int.natCast_nonneg off
  · rwa [h.desde, h.archivo]
  · rw [h.archivo]
    omega

theorem bloque_eq (h : Sobre m i off t e s) (ht : 0 < t) :
    bloqueEscrito m s i e.off = m.bloque (s.dato m i (off / 4096)) := by
  have hhasta := h.hasta
  rw [h.desde, bloqueEscrito_eq (by omega)]

/-- A whole block, which leaves the size as it was. -/
theorem entera (h : Sobre m i off t e s) (ht : 4096 ≤ t) :
    volcar m i (espacioEnUltimo e.tamanioArchivo) (bloqueEscrito m s i e.off) e s =
      (⟨e.tamanio - 4096, e.tamanioArchivo, e.off + 4096, 0, e.buf.drop 4096⟩,
        s.conMem (store s.mem (m.bloque (s.dato m i (off / 4096))) (e.buf.take 4096))) ∧
      Sobre m i (off + 4096) (t - 4096)
        ⟨e.tamanio - 4096, e.tamanioArchivo, e.off + 4096, 0, e.buf.drop 4096⟩
        (s.conMem (store s.mem (m.bloque (s.dato m i (off / 4096))) (e.buf.take 4096))) := by
  have hoff := h.off_lt (by omega)
  have hbloque := div_lt_bloquesDe hoff
  have hdesde := h.desde
  have hqueda := h.queda
  have hdentro := h.dentro
  have hhasta := h.hasta
  have hcabe := h.cabe
  have hsize := tamanio_volcando h.mapa.toMapa hbloque (e.buf.take 4096) le_rfl
  have hsolo : SoloBloque m (s.dato m i (off / 4096)) s
      (s.conMem (store s.mem (m.bloque (s.dato m i (off / 4096))) (e.buf.take 4096))) :=
    soloBloque_store le_rfl (by rw [List.length_take]; omega) s
  have hresta : ((t - 4096 : ℕ) : ℤ) = t - 4096 := by
    rw [Nat.cast_sub ht, Nat.cast_ofNat]
  have hresto : (t - 4096) % 4096 = t % 4096 := (Nat.mod_eq_sub_mod ht).symm
  rw [h.bloque_eq (by omega), volcar_sobre _ _ (by omega) (by omega) hsize (by omega)]
  refine ⟨rfl, ?_, ?_, ?_, fun _ => rfl, ?_, ?_, ?_, ?_⟩
  · rw [hsize]
    exact h.archivo
  · rw [hdesde, Nat.cast_add, Nat.cast_ofNat]
  · rw [hqueda, hresta]
  · rw [hsize, hresta, Nat.cast_add, Nat.cast_ofNat]
    omega
  · rw [hsize, hresto]
    exact hcabe
  · omega
  · rw [hsize]
    exact hsolo.mapaCompleto h.mapa hbloque

/-- What is left after the whole blocks, at the beginning of a block. -/
theorem ultima (h : Sobre m i off t e s) (hpos : 0 < t) (ht : t < 4096) :
    ∃ e' s', volcar m i (espacioEnUltimo e.tamanioArchivo) (bloqueEscrito m s i e.off) e s =
        (e', s') ∧ e'.tamanio = 0 ∧
      GuardaOtras m i (bloquesDe (s.tamanio m i)) (off / 4096) s s' := by
  have hbloque := div_lt_bloquesDe (h.off_lt hpos)
  have hqueda := h.queda
  have hcabe : e.tamanio ≤ espacioEnUltimo e.tamanioArchivo := by
    have hcabe := h.cabe
    rw [Nat.mod_eq_of_lt ht] at hcabe
    rwa [hqueda, h.archivo]
  have hsolo : SoloBloque m (s.dato m i (off / 4096)) s
      (s.conMem (store s.mem (m.bloque (s.dato m i (off / 4096))) (e.buf.take e.tamanio.toNat))) :=
    soloBloque_store le_rfl (by rw [List.length_take]; omega) s
  have hguarda := hsolo.guardaOtras h.mapa hbloque
  rw [h.bloque_eq hpos, volcar, if_neg (by omega), if_pos hcabe, h.bloque ht, add_zero]
  dsimp only
  split_ifs
  · exact ⟨_, _, rfl, rfl, hguarda.campos (soloCampos_ponerTamanio m i _ _)⟩
  · exact ⟨_, _, rfl, rfl, hguarda.campos (soloCampos_ponerTamanio m i _ _)⟩
  · exact ⟨_, _, rfl, rfl, hguarda⟩

/-- With less than a block left, one iteration is enough. -/
theorem bucle_ultima (ahora : ℕ) (size : ℤ) (h : Sobre m i off t e s) (ht : t < 4096) :
    ∃ fuel s', bucleWrite m ahora i size fuel e s = some (size, s') ∧
      (∀ x, x / 4096 < bloquesDe (s.tamanio m i) → x / 4096 < off / 4096 →
        s'.byteDe m i x = s.byteDe m i x) ∧ (t = 0 → s'.tamanio m i = s.tamanio m i) := by
  have hqueda := h.queda
  rcases Nat.eq_zero_or_pos t with hcero | hpos
  · refine ⟨1, s.ponerModificacion m i ahora, ?_, fun x hx _ =>
      (soloCampos_ponerModificacion m i s ahora).byteDe h.mapa.toMapa hx,
      fun _ => tamanio_ponerModificacion m s i ahora⟩
    rw [bucleWrite, if_pos (by omega)]
  · obtain ⟨e', s', hvolcar, hnada, hguarda⟩ := h.ultima hpos ht
    refine ⟨2, s'.ponerModificacion m i ahora, ?_, fun x hx hlt =>
      (hguarda.campos (soloCampos_ponerModificacion m i s' ahora)).bytes x hx hlt.ne,
      fun hcero => by omega⟩
    rw [bucleWrite_vieja (by omega) (h.not_pideBloque hpos), hvolcar, bucleWrite, if_pos hnada]

/-- The loop returns. It keeps the bytes of the positions before the offset, and whole blocks
keep the size. -/
theorem bucle (ahora : ℕ) (size : ℤ) : ∀ (q : ℕ) {t off : ℕ} {e : Escritura} {s : Estado},
    t / 4096 = q → Sobre m i off t e s → ∃ fuel s',
      bucleWrite m ahora i size fuel e s = some (size, s') ∧
        (∀ x, x / 4096 < bloquesDe (s.tamanio m i) → x / 4096 < off / 4096 →
          s'.byteDe m i x = s.byteDe m i x) ∧
        (t % 4096 = 0 → s'.tamanio m i = s.tamanio m i)
  | 0, t, off, e, s, hq, h => by
      have ht : t < 4096 := by omega
      obtain ⟨fuel, s', heval, hbytes, hsize⟩ := h.bucle_ultima ahora size ht
      exact ⟨fuel, s', heval, hbytes, fun hresto => hsize (by omega)⟩
  | q + 1, t, off, e, s, hq, h => by
      have ht : 4096 ≤ t := by omega
      have hqueda := h.queda
      have hbloque := div_lt_bloquesDe (h.off_lt (by omega))
      obtain ⟨hvolcar, hsobre⟩ := h.entera ht
      obtain ⟨fuel, s', heval, hbytes, hsize⟩ := bucle ahora size q (by omega) hsobre
      have hsolo : SoloBloque m (s.dato m i (off / 4096)) s
          (s.conMem (store s.mem (m.bloque (s.dato m i (off / 4096))) (e.buf.take 4096))) :=
        soloBloque_store le_rfl (by rw [List.length_take]; omega) s
      have htamanio := tamanio_volcando h.mapa.toMapa hbloque (e.buf.take 4096) le_rfl
      rw [htamanio] at hbytes hsize
      refine ⟨fuel + 1, s', ?_, fun x hx hlt => ?_, fun hresto => hsize (by omega)⟩
      · rw [bucleWrite_vieja (by omega) (h.not_pideBloque (by omega)), hvolcar]
        exact heval
      · rw [hbytes x hx (by omega)]
        exact hsolo.byteDe h.mapa hbloque hx (by omega)

/-- The first byte of a whole block goes to the beginning of the block of the offset. -/
theorem primero (h : Sobre m i off t e s) (ht : 4096 ≤ t) {v : UInt8}
    (hbuf : e.buf = List.replicate t v) (ahora : ℕ) (size : ℤ) :
    ∃ fuel s', bucleWrite m ahora i size fuel e s = some (size, s') ∧
      s'.byteDe m i (4096 * (off / 4096)) = v := by
  have hbloque := div_lt_bloquesDe (h.off_lt (by omega))
  have hqueda := h.queda
  have hdiv : 4096 * (off / 4096) / 4096 = off / 4096 := Nat.mul_div_cancel_left _ (by decide)
  obtain ⟨hvolcar, hsobre⟩ := h.entera ht
  obtain ⟨fuel, s', heval, hbytes, -⟩ := hsobre.bucle ahora size _ rfl
  rw [tamanio_volcando h.mapa.toMapa hbloque (e.buf.take 4096) le_rfl] at hbytes
  refine ⟨fuel + 1, s', ?_, ?_⟩
  · rw [bucleWrite_vieja (by omega) (h.not_pideBloque (by omega)), hvolcar]
    exact heval
  · have hsolo : SoloBloque m (s.dato m i (off / 4096)) s
        (s.conMem (store s.mem (m.bloque (s.dato m i (off / 4096))) (e.buf.take 4096))) :=
      soloBloque_store le_rfl (by rw [List.length_take]; omega) s
    rw [hbytes _ (by omega) (by omega), Estado.byteDe, hdiv,
      hsolo.dato h.mapa.toMapa hbloque hbloque, Nat.mul_mod_right, hbuf]
    exact (store_getElem (by rw [List.length_take, List.length_replicate]; omega)).trans
      (by rw [List.getElem_take, List.getElem_replicate])

end Sobre

/-! ## Over the end of a block -/

/-- The next position has its pointer in a place other than the first byte of the next block of the
disk. -/
def PunteroAparte (m : Montaje) (s : Estado) (i : ℤ) (off : ℕ) : Prop :=
  (off / 4096 + 1) % 1024 = 0 →
    s.indirecto m i ((off / 4096 + 1) / 1024 : ℕ) ≠ s.dato m i (off / 4096) + 1

/-- A byte in the next block of the disk does not get to the next position, when that has another
block. -/
theorem byteDe_siguiente (hmapa : MapaCompleto m s i k) (hk : off / 4096 + 1 < k)
    (hseguida : ¬ Seguida m s i off) (hpuntero : PunteroAparte m s i off)
    (hmem : ∀ x, x ≠ m.bloque (s.dato m i (off / 4096) + 1) →
      x < m.nodo i + 72 ∨ m.nodo i + 96 ≤ x → s'.mem x = s.mem x) :
    s'.byteDe m i (4096 * (off / 4096 + 1)) = s.byteDe m i (4096 * (off / 4096 + 1)) := by
  have hoff : off / 4096 < k := by omega
  have hnodo := nodo_eq m i
  have h1024 := nodo_eq m 1024
  have hi := hmapa.nodo_lt
  have hmil := hmapa.lt_mil hk
  have hbloque := bloque_eq m (s.dato m i (off / 4096) + 1)
  have hdatos := enTabla_lt_bloque (m := m) (b := s.dato m i (off / 4096) + 1)
    ((hmapa.base_le_dato _ hoff).trans (by omega))
  have hindirecto : s'.indirecto m i ((off / 4096 + 1) / 1024 : ℕ) =
      s.indirecto m i ((off / 4096 + 1) / 1024 : ℕ) :=
    load32_congr fun x hx => hmem _ (by rw [dirIndirecto]; omega) (by rw [dirIndirecto]; omega)
  have hdato : s'.dato m i (off / 4096 + 1) = s.dato m i (off / 4096 + 1) := by
    have hpuntero' := bloque_eq m (s.indirecto m i ((off / 4096 + 1) / 1024 : ℕ))
    have hdatos' := enTabla_lt_bloque (hmapa.base_le_indirecto _ hk)
    rw [PunteroAparte] at hpuntero
    rw [Estado.dato, hindirecto, Estado.dato]
    exact load32_congr fun x hx => hmem _ (by omega) (by omega)
  have hdiv : 4096 * (off / 4096 + 1) / 4096 = off / 4096 + 1 :=
    Nat.mul_div_cancel_left _ (by decide)
  have hbloque' := bloque_eq m (s.dato m i (off / 4096 + 1))
  have hdatos' := enTabla_lt_bloque (hmapa.base_le_dato _ hk)
  rw [Seguida] at hseguida
  rw [Estado.byteDe, hdiv, hdato, Estado.byteDe, hdiv]
  exact hmem _ (by omega) (by omega)

/-! ## The condition is necessary -/

/-- Each iteration of a write of `t` bytes begins before the end of the file, and it ends within
the first 2 GiB. -/
def Dentro (m : Montaje) (s : Estado) (i : ℤ) (off t : ℕ) : Prop :=
  off + 4096 * (((t : ℤ) - 1) / 4096) < s.tamanio m i ∧ off + t ≤ 2147483648

/-- The loop leaves the file of an ideal write when it returns the size. -/
def BucleBien (m : Montaje) (s : Estado) (i : ℤ) (off : ℕ) (buf : List UInt8) : Prop :=
  ∀ fuel ahora s', bucleWrite m ahora i buf.length fuel
      (Escritura.inicio (s.tamanio m i) off buf) s = some ((buf.length : ℤ), s') →
    s'.archivo m i = overwrite (s.archivo m i) off buf ∧
      s'.tamanio m i = max (s.tamanio m i) (off + buf.length)

/-- A byte of an ideal file after the write. -/
theorem byteDe_of_bien {buf : List UInt8} (hdesde : (off : ℤ) ≤ s.tamanio m i)
    (harchivo : s'.archivo m i = overwrite (s.archivo m i) off buf)
    (htamanio : s'.tamanio m i = max (s.tamanio m i) (off + buf.length)) {x : ℕ}
    (hx : (x : ℤ) < s.tamanio m i) :
    s'.byteDe m i x = if off ≤ x ∧ x < off + buf.length then buf.getD (x - off) 0
      else s.byteDe m i x := by
  have hlen := length_archivo m s i
  have hget := archivo_getElem? m s' i x
  rw [if_pos (by omega), harchivo, getElem?_overwrite buf (by omega), archivo_getElem?,
    if_pos hx] at hget
  refine (Option.some.inj (hget.symm.trans ?_))
  split_ifs with hin
  · rw [List.getElem?_eq_getElem (by omega), List.getD_eq_getElem _ _ (by omega)]
  · rfl

theorem sobre_inicio {buf : List UInt8} (hmapa : MapaCompleto m s i (bloquesDe (s.tamanio m i)))
    (hdentro : Dentro m s i off t)
    (hcabe : (t % 4096 : ℕ) ≤ espacioEnUltimo (s.tamanio m i)) (hbuf : buf.length = t)
    (ht : 4096 ≤ t ∨ off % 4096 = 0) :
    Sobre m i off t (Escritura.inicio (s.tamanio m i) off buf) s where
  archivo := rfl
  desde := rfl
  queda := congrArg Nat.cast hbuf
  bloque := fun hlt => tmod_of_emod_eq_zero (ht.resolve_left (not_le.2 hlt))
  dentro := hdentro.1
  cabe := hcabe
  hasta := hdentro.2
  mapa := hmapa

/-- Whole blocks that pass the end of the file do not change its size. -/
theorem not_bien_entera {buf : List UInt8} (h : Sobre m i off t
    (Escritura.inicio (s.tamanio m i) off buf) s) (hbuf : buf.length = t) (hresto : t % 4096 = 0)
    (hpasa : s.tamanio m i < off + t) : ¬ BucleBien m s i off buf := by
  intro hbien
  obtain ⟨fuel, s', heval, -, hsize⟩ := h.bucle 0 buf.length _ rfl
  have htamanio := (hbien fuel 0 s' heval).2
  rw [hsize hresto, hbuf] at htamanio
  omega

/-- A whole block from the middle of a block is put at its beginning. -/
theorem exists_not_bien_desplazada (ht : 4096 ≤ t) (hoff : off % 4096 ≠ 0)
    (h : ∀ buf : List UInt8, buf.length = t →
      Sobre m i off t (Escritura.inicio (s.tamanio m i) off buf) s) :
    ∃ buf : List UInt8, buf.length = t ∧ ¬ BucleBien m s i off buf := by
  obtain ⟨v, hv⟩ := exists_byte_ne (s.byteDe m i (4096 * (off / 4096)))
  have hlen : (List.replicate t v).length = t := List.length_replicate
  have hsobre := h _ hlen
  have hdesde := hsobre.off_lt (by omega)
  refine ⟨List.replicate t v, hlen, fun hbien => hv ?_⟩
  obtain ⟨fuel, s', heval, hbyte⟩ := hsobre.primero ht rfl 0 (List.replicate t v).length
  obtain ⟨harchivo, htamanio⟩ := hbien fuel 0 s' heval
  rw [byteDe_of_bien hdesde.le harchivo htamanio (by omega), if_neg (by omega)] at hbyte
  exact hbyte.symm

/-- Less than a block that passes the end of its block is put in the next one of the disk: a byte
there that the memory did not have is not in the file. -/
theorem exists_not_bien_cruzada (hmapa : MapaCompleto m s i (bloquesDe (s.tamanio m i)))
    (hpasa : 4096 < off % 4096 + t) (ht : t < 4096)
    (hcabe : (t : ℤ) ≤ espacioEnUltimo (s.tamanio m i)) (hdesde : (off : ℤ) < s.tamanio m i)
    (hhasta : off + t ≤ 2147483648) (hseguida : ¬ Seguida m s i off)
    (hpuntero : PunteroAparte m s i off) :
    ∃ buf : List UInt8, buf.length = t ∧ ¬ BucleBien m s i off buf := by
  obtain ⟨v, hv⟩ := exists_byte_ne (s.byteDe m i (4096 * (off / 4096 + 1)))
  obtain ⟨a, ha⟩ : ∃ a, a = m.bloque (s.dato m i (off / 4096)) + (off % 4096 : ℕ) := ⟨_, rfl⟩
  have hlen : ((bytesAt s.mem a t).set (4096 - off % 4096) v).length = t := by
    rw [List.length_set, length_bytesAt]
  refine ⟨(bytesAt s.mem a t).set (4096 - off % 4096) v, hlen, fun hbien => hv ?_⟩
  -- the block of the offset is not the last one, where there is room for all the bytes
  have hdentro : ((4096 * (off / 4096 + 1) : ℕ) : ℤ) < s.tamanio m i := by
    rw [espacioEnUltimo] at hcabe
    split_ifs at hcabe <;> omega
  have hk : off / 4096 + 1 < bloquesDe (s.tamanio m i) := by
    rw [bloquesDe, posiciones]
    omega
  obtain ⟨harchivo, htamanio⟩ := hbien (0 + 2) 0 _ (bucleWrite_parte hmapa.toMapa (by omega)
    (hlen.symm ▸ ht) (hlen.symm ▸ hcabe) hdesde (by omega)).2
  have hbyte := byteDe_of_bien hdesde.le harchivo htamanio hdentro
  have hlugar : 4096 * (off / 4096 + 1) - off = 4096 - off % 4096 := by omega
  rw [if_pos (by omega), hlugar, List.getD_eq_getElem _ _ (by omega),
    List.getElem_set_self] at hbyte
  rw [← hbyte]
  have hbloque := bloque_eq m (s.dato m i (off / 4096))
  have hbloque' := bloque_eq m (s.dato m i (off / 4096) + 1)
  refine byteDe_siguiente hmapa hk hseguida hpuntero fun x hx hcampos => ?_
  refine (ponerModificacion_mem m _ i (by rw [dirModificacion]; omega)).trans
    ((ponerTamanio_mem m _ i (by rw [dirTamanio]; omega)).trans ?_)
  rw [← ha]
  exact store_set_bytesAt (by omega)

theorem encaja_of_bien (hmapa : MapaCompleto m s i (bloquesDe (s.tamanio m i)))
    (hoff : (off : ℤ) ≤ s.tamanio m i) (hdentro : Dentro m s i off t)
    (hpuntero : PunteroAparte m s i off)
    (h : ∀ buf : List UInt8, buf.length = t → BucleBien m s i off buf) : Encaja m s off i t := by
  have hnonneg := tamanio_nonneg m s i
  have htope := tamanio_le_tope hmapa.toMapa
  have hespacio := espacioEnUltimo_nonneg (s.tamanio m i)
  have hultimo := hdentro.1
  have hhasta := hdentro.2
  by_cases hencalla : Encalla (s.tamanio m i) off t
  · rw [Encalla] at hencalla
    exact .inl ⟨hencalla, by omega⟩
  have hcabe : (t % 4096 : ℕ) ≤ espacioEnUltimo (s.tamanio m i) := by
    rw [Encalla] at hencalla
    omega
  have hlimpia : bloquesDe (off + t) ≤ bloquesDe (s.tamanio m i) → Limpia m s i (off + t) :=
    limpia_of_bloquesDe
  rw [bloquesDe, bloquesDe, posiciones, posiciones] at hlimpia
  refine .inr ⟨by omega, ?_⟩
  rw [Directa]
  rcases le_or_gt 4096 t with hentero | hparte
  · have hsobre : ∀ buf : List UInt8, buf.length = t →
        Sobre m i off t (Escritura.inicio (s.tamanio m i) off buf) s := fun buf hbuf =>
      sobre_inicio hmapa hdentro hcabe hbuf (.inl hentero)
    by_cases hresto : off % 4096 = 0
    · by_cases hpasa : t % 4096 = 0 ∧ s.tamanio m i < off + t
      · have hlen : (List.replicate t (0 : UInt8)).length = t := List.length_replicate
        exact absurd (h _ hlen) (not_bien_entera (hsobre _ hlen) hlen hpasa.1 hpasa.2)
      · exact .inl ⟨by omega, hlimpia (by omega)⟩
    · obtain ⟨buf, hbuf, hno⟩ := exists_not_bien_desplazada hentero hresto hsobre
      exact absurd (h buf hbuf) hno
  · rcases Nat.eq_zero_or_pos t with hcero | hpos
    · exact .inl ⟨by omega, hlimpia (by omega)⟩
    have hdesde : (off : ℤ) < s.tamanio m i := by omega
    by_cases hpasa : 4096 < off % 4096 + t
    · by_cases hseguida : Seguida m s i off
      · exact .inr ⟨hdesde, by omega, hseguida⟩
      · obtain ⟨buf, hbuf, hno⟩ := exists_not_bien_cruzada hmapa hpasa hparte
          (by rwa [Nat.mod_eq_of_lt hparte] at hcabe) hdesde hhasta hseguida hpuntero
        exact absurd (h buf hbuf) hno
    · exact .inl ⟨by omega, hlimpia (by omega)⟩

theorem bucleBien_of_escribeBien {path : Ruta} {buf : List UInt8}
    (h : EscribeBien m s path off buf) : BucleBien m s (nodoDe m s path.cola - 1) off buf := by
  intro fuel ahora s' heval
  rw [← eval_oWrite] at heval
  obtain ⟨harchivo, htamanio, -⟩ := h fuel ahora s' heval
  exact ⟨harchivo, htamanio⟩

/-- `o_write` on a file whose map is complete, with enough free blocks: the condition is enough,
and it is necessary when each iteration begins before the end of the file. -/
theorem escribeBien_iff (m : Montaje) (s : Estado) (path : Ruta) (off t : ℕ) (hm : Formateado m)
    (hmapa : MapaCompleto m s (nodoDe m s path.cola - 1)
      (bloquesDe (s.tamanio m (nodoDe m s path.cola - 1))))
    (hoff : (off : ℤ) ≤ s.tamanio m (nodoDe m s path.cola - 1))
    (hlugar : faltan m s (nodoDe m s path.cola - 1) (off + t) ≤ (libres m s).length) :
    (Encaja m s off (nodoDe m s path.cola - 1) t →
        ∀ buf : List UInt8, buf.length = t → EscribeBien m s path off buf) ∧
      (Dentro m s (nodoDe m s path.cola - 1) off t →
        PunteroAparte m s (nodoDe m s path.cola - 1) off →
          (∀ buf : List UInt8, buf.length = t → EscribeBien m s path off buf) →
            Encaja m s off (nodoDe m s path.cola - 1) t) := by
  refine ⟨?_, fun hdentro hpuntero h => encaja_of_bien hmapa hoff hdentro hpuntero fun buf hbuf =>
    bucleBien_of_escribeBien (h buf hbuf)⟩
  rintro hencaja buf rfl
  exact escribeBien_of_encaja m s path off buf hm hmapa hoff hlugar hencaja

theorem nodoDe_unArchivo_cien : nodoDe montajeChico (unArchivo 100) rutaA.cola - 1 = 0 := by
  decide +kernel

/-- No block is missing for what its block has room for. -/
theorem faltan_unArchivo_cien {n : ℤ} (h : bloquesDe n = 1) :
    faltan montajeChico (unArchivo 100) 0 n = 0 := by
  rw [faltan, tamanio_unArchivo_cien, h]
  decide

/-- Twenty bytes inside a file of 100 bytes, and a whole block over all of them. -/
theorem escribeBien_iff_cien :
    EscribeBien montajeChico (unArchivo 100) rutaA 50 (List.replicate 20 7) ∧
      ¬ ∀ buf : List UInt8, buf.length = 4096 →
        EscribeBien montajeChico (unArchivo 100) rutaA 0 buf := by
  have h (off t : ℕ) := escribeBien_iff montajeChico (unArchivo 100) rutaA off t
    formateado_montajeChico
  simp only [nodoDe_unArchivo_cien] at h
  constructor
  · have hlugar : faltan montajeChico (unArchivo 100) 0 (50 + 20) ≤
        (libres montajeChico (unArchivo 100)).length := by
      rw [faltan_unArchivo_cien (by decide)]
      exact Nat.zero_le _
    refine (h 50 20 mapaCompleto_unArchivo_cien (by rw [tamanio_unArchivo_cien]; decide)
      hlugar).1 (.inr ⟨by decide, .inl ⟨?_, ?_⟩⟩) _ List.length_replicate
    · exact .inr (.inr ⟨by decide, .inr (by decide)⟩)
    · exact limpia_of_bloquesDe (by rw [tamanio_unArchivo_cien]; decide)
  · intro hbien
    have hlugar : faltan montajeChico (unArchivo 100) 0 (0 + 4096) ≤
        (libres montajeChico (unArchivo 100)).length := by
      rw [faltan_unArchivo_cien (by decide)]
      exact Nat.zero_le _
    have hdentro : Dentro montajeChico (unArchivo 100) 0 0 4096 := by
      rw [Dentro, tamanio_unArchivo_cien]
      decide
    have hencaja := (h 0 4096 mapaCompleto_unArchivo_cien
      (by rw [tamanio_unArchivo_cien]; decide) hlugar).2 hdentro (fun hresto =>
        absurd hresto (by decide)) hbien
    rw [Encaja, Encalla, Directa, tamanio_unArchivo_cien] at hencaja
    omega

/-- A block over the 100 bytes of a file: they are replaced, and the size stays. -/
theorem not_escribeBien :
    ¬ ∀ (m : Montaje) (s : Estado) (path : Ruta) (off : ℕ) (buf : List UInt8), Formateado m →
      MapaCompleto m s (nodoDe m s path.cola - 1)
        (bloquesDe (s.tamanio m (nodoDe m s path.cola - 1))) →
      (off : ℤ) ≤ s.tamanio m (nodoDe m s path.cola - 1) → off + buf.length < 4194304000 →
      faltan m s (nodoDe m s path.cola - 1) (off + buf.length) ≤ (libres m s).length →
        EscribeBien m s path off buf := by
  intro hclaim
  have hlen : (List.replicate 4096 (7 : UInt8)).length = 4096 := List.length_replicate
  have hbien := hclaim montajeChico (unArchivo 100) rutaA 0 (List.replicate 4096 7)
    formateado_montajeChico
  rw [nodoDe_unArchivo_cien, hlen] at hbien
  have hbucle := bucleBien_of_escribeBien (hbien mapaCompleto_unArchivo_cien
    (by rw [tamanio_unArchivo_cien]; decide) (by decide)
    (by rw [faltan_unArchivo_cien (by decide)]; exact Nat.zero_le _))
  rw [nodoDe_unArchivo_cien] at hbucle
  refine not_bien_entera (sobre_inicio mapaCompleto_unArchivo_cien ⟨?_, by decide⟩ ?_ hlen
    (.inl le_rfl)) hlen (by decide) ?_ hbucle
  · rw [tamanio_unArchivo_cien]
    decide
  · exact espacioEnUltimo_nonneg _
  · rw [tamanio_unArchivo_cien]
    decide

end Sac
