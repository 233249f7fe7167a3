import Linuse.Sac.Ampliacion
import Linuse.Sac.Operaciones

/-!
# Making a file larger

`o_truncate` to a larger size: when the blocks that the file takes are those that it needs,
when the request is refused, and when a pointer block is put where it clears an old one.
-/

namespace Sac

open Memory Locks

variable {m : Montaje} {basura : Estado → ℤ} {s s' : Estado} {i n : ℤ} {K k : ℕ}

/-! ## The map after taking blocks -/

theorem getD_libres_inj {x y : ℕ} (hx : x < (libres m s).length) (hy : y < (libres m s).length)
    (h : (libres m s).getD x 0 = (libres m s).getD y 0) : x = y := by
  rcases lt_trichotomy x y with hlt | heq | hgt
  · exact absurd h (getD_libres_lt hlt hy).ne
  · exact heq
  · exact absurd h (getD_libres_lt hgt hx).ne'

/-- The place of a new data block among the free ones. -/
theorem cuantos_lt_of_lt {j : ℕ} (hj : j < k) (hK : K ≤ j) :
    cuantos K (j - K) < cuantos K (k - K) := by
  rw [cuantos, cuantos]
  omega

/-- The place of a new pointer block comes after that of the data block of its first
position. -/
theorem cuantos_puntero_lt {p : ℕ} (hp : 1024 * p < k) (hK : K ≤ 1024 * p) :
    cuantos K (1024 * p - K) + 1 < cuantos K (k - K) := by
  rw [cuantos, cuantos]
  omega

theorem cuantos_ne {j p : ℕ} (hp : K ≤ 1024 * p) :
    cuantos K (j - K) ≠ cuantos K (1024 * p - K) + 1 := by
  rw [cuantos, cuantos]
  omega

theorem bloqueDatos_viejo {j : ℕ} (hj : j < K) : bloqueDatos m s i K j = s.dato m i j :=
  if_pos hj

theorem bloqueDatos_nuevo {j : ℕ} (hj : K ≤ j) :
    bloqueDatos m s i K j = ((libres m s).getD (cuantos K (j - K)) 0 : ℕ) :=
  if_neg (not_lt.2 hj)

theorem bloquePunteros_viejo {p : ℕ} (hp : 1024 * p < K) :
    bloquePunteros m s i K p = s.indirecto m i p :=
  if_pos hp

theorem bloquePunteros_nuevo {p : ℕ} (hp : K ≤ 1024 * p) :
    bloquePunteros m s i K p = ((libres m s).getD (cuantos K (1024 * p - K) + 1) 0 : ℕ) :=
  if_neg (not_lt.2 hp)

/-- What the file takes is exactly the blocks of its new positions. -/
theorem mem_take_iff {x : ℕ} (hK : K ≤ k) (hlen : cuantos K (k - K) ≤ (libres m s).length) :
    x ∈ (libres m s).take (cuantos K (k - K)) ↔
      (∃ j, K ≤ j ∧ j < k ∧ bloqueDatos m s i K j = x) ∨
        ∃ p, K ≤ 1024 * p ∧ 1024 * p < k ∧ bloquePunteros m s i K p = x := by
  induction k, hK using Nat.le_induction with
  | base =>
      rw [Nat.sub_self, cuantos]
      simp only [add_zero, Nat.sub_self, List.take_zero, List.not_mem_nil, false_iff]
      rintro (⟨j, hj, hj', -⟩ | ⟨p, hp, hp', -⟩) <;> omega
  | succ k hK ih =>
      have hmono := cuantos_mono (k := K) (n := k - K) (l := k + 1 - K) (by omega)
      rw [mem_take_cuantos hK hlen, ih (hmono.trans hlen)]
      constructor
      · rintro ((⟨j, hj, hjk, hx⟩ | ⟨p, hp, hpk, hx⟩) | rfl | ⟨hresto, rfl⟩)
        · exact .inl ⟨j, hj, by omega, hx⟩
        · exact .inr ⟨p, hp, by omega, hx⟩
        · exact .inl ⟨k, hK, by omega, bloqueDatos_nuevo hK⟩
        · have hk : 1024 * (k / 1024) = k := by omega
          refine .inr ⟨k / 1024, by omega, by omega, ?_⟩
          rw [bloquePunteros_nuevo (by omega), hk]
      · rintro (⟨j, hj, hjk, hx⟩ | ⟨p, hp, hpk, hx⟩)
        · rcases (Nat.lt_succ_iff.1 hjk).lt_or_eq with hlt | rfl
          · exact .inl (.inl ⟨j, hj, hlt, hx⟩)
          · rw [bloqueDatos_nuevo hj, Nat.cast_inj] at hx
            exact .inr (.inl hx.symm)
        · rcases (Nat.lt_succ_iff.1 hpk).lt_or_eq with hlt | heq
          · exact .inl (.inr ⟨p, hp, hlt, hx⟩)
          · rw [bloquePunteros_nuevo hp, Nat.cast_inj, heq] at hx
            exact .inr (.inr ⟨by omega, hx.symm⟩)

/-- A block that the file takes is free, and of the disk. -/
theorem libre_bloqueDatos {j : ℕ} (hK : K ≤ j) (hj : j < k)
    (hlen : cuantos K (k - K) ≤ (libres m s).length) :
    ∃ b ∈ libres m s, bloqueDatos m s i K j = (b : ℤ) := by
  have hlt := cuantos_lt_of_lt hj hK
  exact ⟨_, getD_libres_mem (by omega), bloqueDatos_nuevo hK⟩

theorem libre_bloquePunteros {p : ℕ} (hK : K ≤ 1024 * p) (hp : 1024 * p < k)
    (hlen : cuantos K (k - K) ≤ (libres m s).length) :
    ∃ b ∈ libres m s, bloquePunteros m s i K p = (b : ℤ) := by
  have hlt := cuantos_puntero_lt hp hK
  exact ⟨_, getD_libres_mem (by omega), bloquePunteros_nuevo hK⟩

/-- A used block is none of the free ones. -/
theorem ne_of_libre {b : ℕ} {x : ℤ} (hb : b ∈ libres m s) (hx : s.testBit m x = true) :
    x ≠ b := by
  rintro rfl
  rw [(mem_libres.1 hb).2.2] at hx
  cases hx

theorem bloqueDatos_inj (hmapa : MapaCompleto m s i K)
    (hlen : cuantos K (k - K) ≤ (libres m s).length) {j j' : ℕ} (hj : j < k) (hj' : j' < k)
    (h : bloqueDatos m s i K j = bloqueDatos m s i K j') : j = j' := by
  rcases lt_or_ge j K with hv | hn <;> rcases lt_or_ge j' K with hv' | hn'
  · rw [bloqueDatos_viejo hv, bloqueDatos_viejo hv'] at h
    exact hmapa.dato_inj j hv j' hv' h
  · obtain ⟨b, hb, heq⟩ := libre_bloqueDatos (i := i) hn' hj' hlen
    rw [bloqueDatos_viejo hv, heq] at h
    exact absurd h (ne_of_libre hb (hmapa.dato_usado j hv))
  · obtain ⟨b, hb, heq⟩ := libre_bloqueDatos (i := i) hn hj hlen
    rw [bloqueDatos_viejo hv', heq] at h
    exact absurd h.symm (ne_of_libre hb (hmapa.dato_usado j' hv'))
  · rw [bloqueDatos_nuevo hn, bloqueDatos_nuevo hn', Nat.cast_inj] at h
    have hlt := cuantos_lt_of_lt hj hn
    have hlt' := cuantos_lt_of_lt hj' hn'
    have heq := getD_libres_inj (by omega) (by omega) h
    rcases lt_trichotomy j j' with hlt | rfl | hgt
    · exact absurd heq (cuantos_lt_of_lt hlt hn).ne
    · rfl
    · exact absurd heq (cuantos_lt_of_lt hgt hn').ne'

theorem bloqueDatos_ne_bloquePunteros (hmapa : MapaCompleto m s i K)
    (hlen : cuantos K (k - K) ≤ (libres m s).length) {j p : ℕ} (hj : j < k) (hp : 1024 * p < k) :
    bloqueDatos m s i K j ≠ bloquePunteros m s i K p := by
  have husado : 1024 * p < K → s.testBit m (s.indirecto m i p) = true := fun hv => by
    have h := hmapa.indirecto_usado (1024 * p) hv
    rwa [Nat.mul_div_cancel_left p (by decide)] at h
  rcases lt_or_ge j K with hv | hn <;> rcases lt_or_ge (1024 * p) K with hv' | hn'
  · have h := hmapa.aparte j hv (1024 * p) hv'
    rw [Nat.mul_div_cancel_left p (by decide)] at h
    rwa [bloqueDatos_viejo hv, bloquePunteros_viejo hv']
  · obtain ⟨b, hb, heq⟩ := libre_bloquePunteros (i := i) hn' hp hlen
    rw [bloqueDatos_viejo hv, heq]
    exact ne_of_libre hb (hmapa.dato_usado j hv)
  · obtain ⟨b, hb, heq⟩ := libre_bloqueDatos (i := i) hn hj hlen
    rw [bloquePunteros_viejo hv', heq]
    exact (ne_of_libre hb (husado hv')).symm
  · rw [bloqueDatos_nuevo hn, bloquePunteros_nuevo hn', Ne, Nat.cast_inj]
    have hlt := cuantos_lt_of_lt hj hn
    have hlt' := cuantos_puntero_lt hp hn'
    exact fun h => cuantos_ne hn' (getD_libres_inj (by omega) (by omega) h)

theorem enBitmap_of_libre (hm : Formateado m) {b : ℕ} (hb : b ∈ libres m s) : EnBitmap m b := by
  have hbase := base_nonneg m
  obtain ⟨hle, hlt, -⟩ := mem_libres.1 hb
  exact hm.enBitmap (by omega) (by omega)

/-- The data blocks of the file, old and new, are marked. -/
theorem Ampliado.usado_datos (hm : Formateado m) (h : Ampliado m s i K k s')
    (hmapa : MapaCompleto m s i K) (hK : K ≤ k) (hlen : cuantos K (k - K) ≤ (libres m s).length)
    {j : ℕ} (hj : j < k) :
    EnBitmap m (bloqueDatos m s i K j) ∧ s'.testBit m (bloqueDatos m s i K j) = true := by
  rcases lt_or_ge j K with hv | hn
  · rw [bloqueDatos_viejo hv]
    have hbitmap := hmapa.dato_enBitmap j hv
    exact ⟨hbitmap, by rw [h.bits _ hbitmap, hmapa.dato_usado j hv, Bool.true_or]⟩
  · obtain ⟨b, hb, heq⟩ := libre_bloqueDatos (i := i) hn hj hlen
    have htoma := (mem_take_iff (i := i) hK hlen).2 (.inl ⟨j, hn, hj, heq⟩)
    rw [heq]
    have hbitmap := enBitmap_of_libre hm hb
    exact ⟨hbitmap, by rw [h.bits _ hbitmap, decide_eq_true ⟨b, htoma, rfl⟩, Bool.or_true]⟩

theorem Ampliado.usado_punteros (hm : Formateado m) (h : Ampliado m s i K k s')
    (hmapa : MapaCompleto m s i K) (hK : K ≤ k) (hlen : cuantos K (k - K) ≤ (libres m s).length)
    {p : ℕ} (hp : 1024 * p < k) :
    EnBitmap m (bloquePunteros m s i K p) ∧ s'.testBit m (bloquePunteros m s i K p) = true := by
  rcases lt_or_ge (1024 * p) K with hv | hn
  · have hbitmap := hmapa.indirecto_enBitmap (1024 * p) hv
    have husado := hmapa.indirecto_usado (1024 * p) hv
    rw [Nat.mul_div_cancel_left p (by decide)] at hbitmap husado
    rw [bloquePunteros_viejo hv]
    exact ⟨hbitmap, by rw [h.bits _ hbitmap, husado, Bool.true_or]⟩
  · obtain ⟨b, hb, heq⟩ := libre_bloquePunteros (i := i) hn hp hlen
    have htoma := (mem_take_iff (i := i) hK hlen).2 (.inr ⟨p, hn, hp, heq⟩)
    rw [heq]
    have hbitmap := enBitmap_of_libre hm hb
    exact ⟨hbitmap, by rw [h.bits _ hbitmap, decide_eq_true ⟨b, htoma, rfl⟩, Bool.or_true]⟩

/-- When no pointer has been cleared, the map of the file is complete. -/
theorem Ampliado.mapaCompleto (hm : Formateado m) (h : Ampliado m s i K k s')
    (hmapa : MapaCompleto m s i K) (hK : K ≤ k) (hk : k ≤ 1024000)
    (hlen : cuantos K (k - K) ≤ (libres m s).length) (hno : ∀ j < k, ¬ Borrado m s i K k j) :
    MapaCompleto m s' i k := by
  have hindirecto : ∀ j < k, s'.indirecto m i (j / 1024 : ℕ) =
      bloquePunteros m s i K (j / 1024) := fun j hj => h.indirecto _ (by omega)
  have hdato : ∀ j < k, s'.dato m i j = bloqueDatos m s i K j := fun j hj =>
    h.dato j hj (hno j hj)
  have hdatos := fun j (hj : j < k) => h.usado_datos hm hmapa hK hlen hj
  have hpunteros := fun j (hj : j < k) =>
    h.usado_punteros hm hmapa hK hlen (p := j / 1024) (by omega)
  refine ⟨⟨hmapa.nodo_nonneg, hmapa.nodo_lt, hk, ?_, ?_, ?_⟩, ?_, ?_, ?_, ?_, ?_, ?_⟩
  · intro j hj
    rw [hindirecto j hj]
    exact base_le_bloquePunteros (k := k) hmapa (by omega) hlen
  · intro j hj
    rw [hdato j hj]
    rcases lt_or_ge j K with hv | hn
    · rw [bloqueDatos_viejo hv]
      exact hmapa.base_le_dato j hv
    · obtain ⟨b, hb, heq⟩ := libre_bloqueDatos (i := i) hn hj hlen
      rw [heq]
      exact (mem_libres.1 hb).1
  · intro j hj j' hj'
    rw [hdato j hj, hindirecto j' hj']
    exact bloqueDatos_ne_bloquePunteros hmapa hlen hj (by omega)
  · intro j hj j' hj' heq
    rw [hdato j hj, hdato j' hj'] at heq
    exact bloqueDatos_inj hmapa hlen hj hj' heq
  · intro j hj j' hj' heq
    rw [hindirecto j hj, hindirecto j' hj'] at heq
    rcases lt_trichotomy (j / 1024) (j' / 1024) with hlt | hmismo | hgt
    · exact absurd heq (bloquePunteros_ne (k := k) hmapa hlt (by omega) hlen).1
    · exact hmismo
    · exact absurd heq.symm (bloquePunteros_ne (k := k) hmapa hgt (by omega) hlen).1
  · intro j hj
    rw [hdato j hj]
    exact (hdatos j hj).1
  · intro j hj
    rw [hindirecto j hj]
    exact (hpunteros j hj).1
  · intro j hj
    rw [hdato j hj]
    exact (hdatos j hj).2
  · intro j hj
    rw [hindirecto j hj]
    exact (hpunteros j hj).2

/-! ## The loop -/

/-- The loop of `darleEspacioNuevo`, when it ends, has added `t` positions, as long as so many
blocks are free. -/
theorem Ampliado.agregarBloques (hm : Formateado m) (hmapa : MapaCompleto m s i K)
    {espacio resto : ℤ} (hespacio : espacio ≤ 4096) (hresto : 0 ≤ resto) (hlt : resto < espacio) :
    ∀ (t fuel k : ℕ) (s₀ : Estado), Ampliado m s i K k s₀ → K ≤ k →
      s₀.tamanio m i = 4096 * k → k + t ≤ 524288 →
      cuantos K (k + t - K) ≤ (libres m s).length →
      agregarBloquesCiegos m basura i espacio fuel (resto + 4096 * t) s₀ = some s' →
        Ampliado m s i K (k + t) s'
  | _, 0, _, _, _, _, _, _, _, h => by cases h
  | 0, fuel + 1, k, s₀, hs₀, hK, _, _, hlen, h => by
      have hunsigned : unsigned (resto + 4096 * (0 : ℕ)) = resto := by
        rw [unsigned]
        omega
      rw [agregarBloquesCiegos, hunsigned, if_neg (not_le.2 hlt)] at h
      obtain rfl := Option.some.inj h
      exact hs₀.ponerTamanio hm hmapa hlen _
  | t + 1, fuel + 1, k, s₀, hs₀, hK, htamanio, hmax, hlen, h => by
      have hunsigned : unsigned (resto + 4096 * (t + 1 : ℕ)) = resto + 4096 * (t + 1 : ℕ) := by
        rw [unsigned]
        omega
      have hsize : resto + 4096 * (t + 1 : ℕ) - 4096 = resto + 4096 * t := by
        push_cast
        ring
      have hsuma : k + (t + 1) = k + 1 + t := by ring
      have hmono := cuantos_mono (k := K) (n := k + 1 - K) (l := k + (t + 1) - K) (by omega)
      obtain ⟨b, s₁, -, hobtiene, hagrega, hagregado, hs₁⟩ :=
        hs₀.paso hm hmapa hK (by omega) htamanio (hmono.trans hlen)
      rw [agregarBloquesCiegos, hunsigned, if_pos (by omega), hsize,
        obtenerBloqueCiego_eq hobtiene] at h
      dsimp only at h
      rw [agregarBloqueCiego_eq hagrega] at h
      rw [hsuma] at hlen hmax ⊢
      refine Ampliado.agregarBloques hm hmapa hespacio hresto hlt t fuel (k + 1) _
        (hs₁.ponerTamanio hm hmapa (hmono.trans (hsuma ▸ hlen)) _) (by omega) ?_ hmax hlen h
      rw [tamanio_ponerTamanio, hagregado.tamanio hmapa.nodo_nonneg hmapa.nodo_lt, htamanio,
        unsigned]
      omega

/-! ## The request -/

section Pedido

variable (m : Montaje) (basura : Estado → ℤ) (s : Estado) (i n : ℤ)

/-- What `o_truncate` does with node `i` for a size that is larger than the one it has, when
the search of a block may give what its variable held. -/
def agrandar (fuel : ℕ) : Option (ℤ × Estado) :=
  (darleEspacioCiego m basura fuel i (n - s.tamanio m i) s).map fun r =>
    if r.1 = 0 then (0, r.2.ponerTamanio m i n) else r

/-- The number of blocks that the file needs for `n` bytes and does not have. -/
def faltan : ℕ :=
  cuantos (bloquesDe (s.tamanio m i)) (bloquesDe n - bloquesDe (s.tamanio m i))

/-- The file has `n` bytes and a complete map; its positions are where they were, the blocks
of the new ones were free, and no other block has changed. -/
structure Agrandado (s' : Estado) : Prop where
  tamanio : s'.tamanio m i = n
  mapa : MapaCompleto m s' i (bloquesDe n)
  antes : ∀ j < bloquesDe (s.tamanio m i), s'.indirecto m i (j / 1024 : ℕ) =
    s.indirecto m i (j / 1024 : ℕ) ∧ s'.dato m i j = s.dato m i j
  eran_libres : ∀ b ∈ Sobrantes m s' i (bloquesDe (s.tamanio m i)) (bloquesDe n),
    s.testBit m b = false
  bits : ∀ b, EnBitmap m b → (s'.testBit m b = true ↔
    s.testBit m b = true ∨ b ∈ Sobrantes m s' i (bloquesDe (s.tamanio m i)) (bloquesDe n))

/-- Whenever it returns, it refuses exactly the sizes for which too few blocks are free, and
changes nothing then; otherwise the file has the size. -/
def AgrandaBien : Prop :=
  ∀ fuel r, agrandar m basura s i n fuel = some r →
    (r.1 = enospc ↔ (libres m s).length < faltan m s i n) ∧ (r.1 = enospc → r.2 = s) ∧
      (r.1 ≠ enospc → r.1 = 0 ∧ Agrandado m s i n r.2)

/-- The space that the code computes for the last block. -/
def espacioFinal : ℤ := 4096 - s.tamanio m i % 4096

/-- The test of `darleEspacioNuevo`: the free blocks as it counts them are less than the
request without that space, as numbers without sign. -/
def Rechaza : Prop :=
  unsigned (s.bitmapFreeBlocks * 4096) <
    unsigned (n - s.tamanio m i - espacioFinal m s i)

/-- The place that is cleared for block `c` has bytes of block `d`. -/
def Pisa (c d : ℤ) : Prop :=
  headerStart c < m.bloque d + 4096 ∧ m.bloque d < headerStart c + 4096

/-- What is cleared for the pointer blocks that the file takes has no byte of those that it
had. -/
def LimpiaAparte : Prop :=
  ∀ p q : ℕ, bloquesDe (s.tamanio m i) ≤ 1024 * p → 1024 * p < bloquesDe n →
    1024 * q < bloquesDe (s.tamanio m i) →
      ¬ Pisa m (bloquePunteros m s i (bloquesDe (s.tamanio m i)) p) (s.indirecto m i q)

/-- The request is refused and too few blocks are free; or it is accepted and either does not
return, or enough blocks are free, its first new position is the first that the loop adds, the
loop adds as many as are needed, and no pointer of the file is cleared. -/
def AgrandaSano : Prop :=
  (Rechaza m s i n ∧ (libres m s).length < faltan m s i n) ∨
    ¬ Rechaza m s i n ∧
      (espacioFinal m s i < n - s.tamanio m i ∧
          espacioFinal m s i ≤ (n - s.tamanio m i) % 4096 ∨
        faltan m s i n ≤ (libres m s).length ∧
          (s.tamanio m i % 4096 ≠ 0 ∨ s.tamanio m i = 0 ∧ (n = 4096 ∨ n % 4096 ≠ 0)) ∧
          LimpiaAparte m s i n)

end Pedido

/-- As long as every search finds a block, it is what `o_truncate` does. -/
theorem agrandar_eq {fuel : ℕ} {r : ℤ × Estado} (hlt : s.tamanio m i < n)
    (h : (cambiarTamanio m fuel i n).eval s = some r) :
    agrandar m basura s i n fuel = some r := by
  rw [cambiarTamanio] at h
  simp only [Code.eval_bind, Code.eval_read, Option.bind_some, if_pos hlt, Code.eval_attempt] at h
  obtain ⟨⟨res, s₁⟩, hespacio, h⟩ := Option.bind_eq_some_iff.1 h
  rw [agrandar, darleEspacioCiego_eq hespacio, Option.map_some]
  dsimp only at h ⊢
  by_cases hres : res = 0
  · rw [if_neg (not_not.2 hres)] at h
    rw [if_pos hres, ← h]
    simp [hres]
  · rw [if_pos hres] at h
    rw [if_neg hres, ← h]
    rfl

/-! ## The three ways -/

theorem espacioFinal_pos (m : Montaje) (s : Estado) (i : ℤ) :
    0 < espacioFinal m s i ∧ espacioFinal m s i ≤ 4096 := by
  rw [espacioFinal]
  omega

/-- A request below the space is taken for one of almost 4 GiB. -/
theorem rechaza_of_lt (hlt : s.tamanio m i < n)
    (hmenos : n - s.tamanio m i < espacioFinal m s i) : Rechaza m s i n := by
  have hespacio := espacioFinal_pos m s i
  rw [Rechaza, unsigned, unsigned]
  omega

theorem agrandar_rechaza (basura : Estado → ℤ) (fuel : ℕ) (h : Rechaza m s i n) :
    agrandar m basura s i n fuel = some (enospc, s) := by
  rw [Rechaza, espacioFinal] at h
  have hno : enospc ≠ 0 := by decide
  simp only [agrandar, darleEspacioCiego, if_pos h, Option.map_some, if_neg hno]

theorem unsigned_pedido (hlt : s.tamanio m i < n) (hmax : n < 2147483648) :
    unsigned (n - s.tamanio m i) = n - s.tamanio m i := by
  have hnonneg : 0 ≤ s.tamanio m i := load32_nonneg _ _
  exact unsigned_eq_self (by omega) (by omega)

theorem agrandar_justo (basura : Estado → ℤ) (fuel : ℕ) (h : ¬ Rechaza m s i n)
    (hlt : s.tamanio m i < n) (hmax : n < 2147483648)
    (heq : n - s.tamanio m i = espacioFinal m s i) :
    agrandar m basura s i n fuel = some (0, (s.ponerTamanio m i n).ponerTamanio m i n) := by
  rw [Rechaza, espacioFinal] at h
  rw [espacioFinal] at heq
  rw [agrandar, darleEspacioCiego, if_neg h, unsigned_pedido hlt hmax, if_pos heq.le,
    Option.map_some, if_pos rfl, add_sub_cancel]

theorem agrandar_bucle (basura : Estado → ℤ) (fuel : ℕ) (h : ¬ Rechaza m s i n)
    (hlt : s.tamanio m i < n) (hmax : n < 2147483648)
    (hmas : espacioFinal m s i < n - s.tamanio m i) :
    agrandar m basura s i n fuel = (agregarBloquesCiegos m basura i (espacioFinal m s i) fuel
      (n - s.tamanio m i) (s.ponerTamanio m i (s.tamanio m i + espacioFinal m s i))).map
        fun s' => (0, s'.ponerTamanio m i n) := by
  rw [Rechaza, espacioFinal] at h
  rw [espacioFinal] at hmas ⊢
  rw [agrandar, darleEspacioCiego, if_neg h, unsigned_pedido hlt hmax, if_neg (not_le.2 hmas),
    Option.map_map]
  exact congrArg (Option.map · _) (funext fun s' => by simp only [Function.comp_apply, if_true])

/-! ## When it is right -/

/-- Nothing that is cleared is a pointer of the file. -/
theorem not_borrado (hmapa : MapaCompleto m s i K)
    (hlen : cuantos K (k - K) ≤ (libres m s).length)
    (haparte : ∀ p q : ℕ, K ≤ 1024 * p → 1024 * p < k → 1024 * q < K →
      ¬ Pisa m (bloquePunteros m s i K p) (s.indirecto m i q)) {j : ℕ} (hj : j < k) :
    ¬ Borrado m s i K k j := by
  rintro ⟨p, hp, hpk, hjp, hborra⟩
  rcases lt_or_ge (1024 * (j / 1024)) K with hv | hn
  · rw [bloquePunteros_viejo hv, dirEntrada] at hborra
    refine haparte p (j / 1024) hp hpk hv ?_
    rw [Borra] at hborra
    rw [Pisa]
    omega
  · have hlt := (bloquePunteros_ne (q := j / 1024) (p := p) hmapa (by omega) hpk hlen).2 hn
    have hbase := base_le_bloquePunteros (p := j / 1024) hmapa (by omega) hlen
    refine not_borra_of_lt hbase hlt ?_ hborra
    rw [dirEntrada]
    omega

/-- A pointer block that is cleared loses the pointer of a position. -/
theorem exists_borrado {p q : ℕ} (hp : K ≤ 1024 * p) (hpk : 1024 * p < k) (hq : 1024 * q < K)
    (hpisa : Pisa m (bloquePunteros m s i K p) (s.indirecto m i q)) :
    ∃ j < k, Borrado m s i K k j := by
  have hcabecera := headerStart_eq m (bloquePunteros m s i K p)
  have hbloque := bloque_eq m (s.indirecto m i q)
  rw [Pisa] at hpisa
  obtain ⟨x, hx, hborra⟩ : ∃ x : ℕ, x < 1024 ∧
      Borra (bloquePunteros m s i K p) (m.bloque (s.indirecto m i q) + 4 * x) := by
    refine ⟨((headerStart (bloquePunteros m s i K p) - m.bloque (s.indirecto m i q)) / 4).toNat,
      by omega, ?_⟩
    rw [Borra]
    omega
  have hdiv : (1024 * q + x) / 1024 = q := by omega
  have hmod : (1024 * q + x) % 1024 = x := by omega
  refine ⟨1024 * q + x, by omega, p, hp, hpk, by omega, ?_⟩
  rwa [hdiv, bloquePunteros_viejo hq, dirEntrada, hmod]

/-- A file that has taken the blocks that it needs has grown. -/
theorem agrandado_of_ampliado (hm : Formateado m)
    (hmapa : MapaCompleto m s i (bloquesDe (s.tamanio m i))) (hlt : s.tamanio m i < n)
    (hmax : n < 2147483648) (hlen : faltan m s i n ≤ (libres m s).length)
    (h : Ampliado m s i (bloquesDe (s.tamanio m i)) (bloquesDe n) s')
    (haparte : LimpiaAparte m s i n) : Agrandado m s i n (s'.ponerTamanio m i n) := by
  have hnonneg : 0 ≤ s.tamanio m i := load32_nonneg _ _
  have hK : bloquesDe (s.tamanio m i) ≤ bloquesDe n := by
    rw [bloquesDe, bloquesDe, posiciones, posiciones]
    omega
  have htope : bloquesDe n ≤ 1024000 := by
    rw [bloquesDe, posiciones]
    omega
  have hno : ∀ j < bloquesDe n, ¬ Borrado m s i (bloquesDe (s.tamanio m i)) (bloquesDe n) j :=
    fun j hj => not_borrado hmapa hlen haparte hj
  have hs' := h.ponerTamanio hm hmapa hlen n
  generalize hfin : s'.ponerTamanio m i n = t at hs'
  have hsobran : ∀ b : ℤ, b ∈ Sobrantes m t i (bloquesDe (s.tamanio m i)) (bloquesDe n) ↔
      ∃ e ∈ (libres m s).take (cuantos (bloquesDe (s.tamanio m i))
        (bloquesDe n - bloquesDe (s.tamanio m i))), (e : ℤ) = b := by
    intro b
    constructor
    · rintro (⟨j, hj, hjn, rfl⟩ | ⟨p, hp, hpn, rfl⟩)
      · rw [hs'.dato j hjn (hno j hjn)]
        obtain ⟨e, -, heq⟩ := libre_bloqueDatos (i := i) hj hjn hlen
        exact ⟨e, (mem_take_iff (i := i) hK hlen).2 (.inl ⟨j, hj, hjn, heq⟩), heq.symm⟩
      · rw [hs'.indirecto p hpn]
        obtain ⟨e, -, heq⟩ := libre_bloquePunteros (i := i) hp hpn hlen
        exact ⟨e, (mem_take_iff (i := i) hK hlen).2 (.inr ⟨p, hp, hpn, heq⟩), heq.symm⟩
    · rintro ⟨e, he, rfl⟩
      rcases (mem_take_iff (i := i) hK hlen).1 he with ⟨j, hj, hjn, heq⟩ | ⟨p, hp, hpn, heq⟩
      · exact .inl ⟨j, hj, hjn, (hs'.dato j hjn (hno j hjn)).trans heq⟩
      · exact .inr ⟨p, hp, hpn, (hs'.indirecto p hpn).trans heq⟩
  refine ⟨?_, hs'.mapaCompleto hm hmapa hK htope hlen hno, ?_, ?_, ?_⟩
  · rw [← hfin, tamanio_ponerTamanio]
    exact unsigned_eq_self (by omega) (by omega)
  · intro j hj
    rw [hs'.indirecto _ (by omega), bloquePunteros_viejo (by omega),
      hs'.dato j (by omega) (hno j (by omega)), bloqueDatos_viejo hj]
    exact ⟨rfl, rfl⟩
  · intro b hb
    obtain ⟨e, he, rfl⟩ := (hsobran b).1 hb
    exact (mem_libres.1 (List.mem_of_mem_take he)).2.2
  · intro b hb
    rw [hs'.bits b hb, Bool.or_eq_true, decide_eq_true_iff, hsobran]

/-- The blocks from which the loop begins, when the last block is not full or the file is
empty. -/
theorem ampliado_inicio (hm : Formateado m)
    (hmapa : MapaCompleto m s i (bloquesDe (s.tamanio m i))) (v : ℤ) :
    Ampliado m s i (bloquesDe (s.tamanio m i)) (bloquesDe (s.tamanio m i))
      (s.ponerTamanio m i v) :=
  (ampliado_refl m s i _).ponerTamanio hm hmapa (by rw [Nat.sub_self, cuantos]; omega) v

/-- The loop adds a position for each whole block of the request. -/
theorem ampliado_bucle (hm : Formateado m)
    (hmapa : MapaCompleto m s i (bloquesDe (s.tamanio m i))) (hlt : s.tamanio m i < n)
    (hmax : n < 2147483648) (hfin : s.tamanio m i % 4096 ≠ 0 ∨ s.tamanio m i = 0) {fuel : ℕ}
    (hlen : cuantos (bloquesDe (s.tamanio m i)) ((n - s.tamanio m i) / 4096).toNat ≤
      (libres m s).length)
    (h : agregarBloquesCiegos m basura i (espacioFinal m s i) fuel (n - s.tamanio m i)
      (s.ponerTamanio m i (s.tamanio m i + espacioFinal m s i)) = some s') :
    (n - s.tamanio m i) % 4096 < espacioFinal m s i ∧
      Ampliado m s i (bloquesDe (s.tamanio m i))
        (bloquesDe (s.tamanio m i) + ((n - s.tamanio m i) / 4096).toNat) s' := by
  have hnonneg : 0 ≤ s.tamanio m i := load32_nonneg _ _
  have hespacio := espacioFinal_pos m s i
  have hresto : (n - s.tamanio m i) % 4096 < espacioFinal m s i := by
    by_contra hno
    rw [agregarBloquesCiegos_eq_none _ _ _ (not_lt.1 hno)] at h
    cases h
  have hpedido : n - s.tamanio m i =
      (n - s.tamanio m i) % 4096 + 4096 * (((n - s.tamanio m i) / 4096).toNat : ℕ) := by omega
  have hK : s.tamanio m i + espacioFinal m s i = 4096 * (bloquesDe (s.tamanio m i) : ℕ) := by
    rw [espacioFinal, bloquesDe, posiciones]
    omega
  refine ⟨hresto, ?_⟩
  rw [hpedido] at h
  refine Ampliado.agregarBloques hm hmapa hespacio.2 (by omega) hresto _ fuel _ _
    (ampliado_inicio hm hmapa _) le_rfl ?_ ?_ (by rwa [Nat.add_sub_cancel_left]) h
  · rw [tamanio_ponerTamanio, hK]
    exact unsigned_eq_self (by omega) (by rw [bloquesDe, posiciones]; omega)
  · rw [bloquesDe, posiciones]
    omega

/-- The positions that the loop adds are as many as are needed. -/
theorem bloquesDe_bucle (hlt : s.tamanio m i < n)
    (hresto : (n - s.tamanio m i) % 4096 < espacioFinal m s i)
    (h : s.tamanio m i % 4096 ≠ 0 ∨ s.tamanio m i = 0 ∧ n % 4096 ≠ 0) :
    bloquesDe (s.tamanio m i) + ((n - s.tamanio m i) / 4096).toNat = bloquesDe n := by
  have hnonneg : 0 ≤ s.tamanio m i := load32_nonneg _ _
  rw [espacioFinal] at hresto
  rw [bloquesDe, bloquesDe, posiciones, posiciones]
  omega

theorem agrandaBien_of_sano (hm : Formateado m)
    (hmapa : MapaCompleto m s i (bloquesDe (s.tamanio m i))) (hlt : s.tamanio m i < n)
    (hmax : n < 2147483648) (h : AgrandaSano m s i n) : AgrandaBien m basura s i n := by
  have hnonneg : 0 ≤ s.tamanio m i := load32_nonneg _ _
  intro fuel r hr
  obtain ⟨hrechaza, hfaltan⟩ | ⟨hacepta, hvuelve⟩ := h
  · rw [agrandar_rechaza basura fuel hrechaza] at hr
    obtain rfl := Option.some.inj hr
    exact ⟨iff_of_true rfl hfaltan, fun _ => rfl, fun h => absurd rfl h⟩
  -- it is enough that the answer is 0 and the file has grown
  suffices hbien : faltan m s i n ≤ (libres m s).length ∧ r.1 = 0 ∧ Agrandado m s i n r.2 by
    obtain ⟨hlen, hcero, hagrandado⟩ := hbien
    have hno : r.1 ≠ enospc := by
      rw [hcero]
      decide
    exact ⟨iff_of_false hno (not_lt.2 hlen), fun h => absurd h hno, fun _ => ⟨hcero, hagrandado⟩⟩
  rcases lt_trichotomy (n - s.tamanio m i) (espacioFinal m s i) with hmenos | hjusto | hmas
  · exact absurd (rechaza_of_lt hlt hmenos) hacepta
  · rw [agrandar_justo basura fuel hacepta hlt hmax hjusto] at hr
    obtain rfl := Option.some.inj hr
    obtain ⟨hno, -⟩ | ⟨hlen, hforma, haparte⟩ := hvuelve
    · omega
    · have hbloques : bloquesDe n = bloquesDe (s.tamanio m i) := by
        rw [espacioFinal] at hjusto
        rw [bloquesDe, bloquesDe, posiciones, posiciones]
        omega
      refine ⟨hlen, rfl, agrandado_of_ampliado hm hmapa hlt hmax hlen ?_ haparte⟩
      rw [hbloques]
      exact ampliado_inicio hm hmapa n
  · rw [agrandar_bucle basura fuel hacepta hlt hmax hmas] at hr
    obtain ⟨s', hs', rfl⟩ := Option.map_eq_some_iff.1 hr
    obtain ⟨-, hno⟩ | ⟨hlen, hforma, haparte⟩ := hvuelve
    · rw [agregarBloquesCiegos_eq_none _ _ _ hno] at hs'
      cases hs'
    · have hresto : (n - s.tamanio m i) % 4096 < espacioFinal m s i := by
        by_contra hno
        rw [agregarBloquesCiegos_eq_none _ _ _ (not_lt.1 hno)] at hs'
        cases hs'
      have hbloques := bloquesDe_bucle hlt hresto (by rw [espacioFinal] at hmas; omega)
      have hampliado := (ampliado_bucle hm hmapa hlt hmax (by omega)
        (by rw [faltan, ← hbloques, Nat.add_sub_cancel_left] at hlen; exact hlen) hs').2
      rw [hbloques] at hampliado
      exact ⟨hlen, rfl, agrandado_of_ampliado hm hmapa hlt hmax hlen hampliado haparte⟩

/-! ## Only then -/

/-- The loop leaves out the position at the size of the file, or adds one that an empty file
does not need when too few blocks are free for it. -/
def Salta (m : Montaje) (s : Estado) (i n : ℤ) : Prop :=
  s.tamanio m i % 4096 = 0 ∧ 4096 < n - s.tamanio m i ∧
    (s.tamanio m i ≠ 0 ∨ n % 4096 = 0 ∧ (libres m s).length < cuantos 1 (n / 4096).toNat)

/-- A file that has no new block has no position more. -/
theorem not_agrandado_justo (hm : Formateado m)
    (hmapa : MapaCompleto m s i (bloquesDe (s.tamanio m i)))
    (hmas : bloquesDe (s.tamanio m i) < bloquesDe n) (v w : ℤ) :
    ¬ Agrandado m s i n ((s.ponerTamanio m i v).ponerTamanio m i w) := by
  intro h
  have hs := (ampliado_inicio hm hmapa v).ponerTamanio hm hmapa
    (by rw [Nat.sub_self, cuantos]; omega) w
  have hbitmap := h.mapa.dato_enBitmap _ hmas
  have hlibre := h.eran_libres _ (.inl ⟨_, le_rfl, hmas, rfl⟩)
  have husado := h.mapa.dato_usado _ hmas
  rw [hs.bits _ hbitmap, hlibre, Nat.sub_self, cuantos] at husado
  simp at husado

/-- A file that has grown has lost none of its pointers. -/
theorem limpiaAparte_of_agrandado (hm : Formateado m)
    (hmapa : MapaCompleto m s i (bloquesDe (s.tamanio m i)))
    (hlen : faltan m s i n ≤ (libres m s).length)
    (h : Ampliado m s i (bloquesDe (s.tamanio m i)) (bloquesDe n) s')
    (hagrandado : Agrandado m s i n (s'.ponerTamanio m i n)) : LimpiaAparte m s i n := by
  intro p q hp hpn hq hpisa
  obtain ⟨j, hj, hborrado⟩ := exists_borrado hp hpn hq hpisa
  have hcero := (h.ponerTamanio hm hmapa hlen n).dato_borrado j hj hborrado
  have hbase := hagrandado.mapa.base_le_dato j hj
  rw [hcero, Montaje.base] at hbase
  omega

/-- The block of a position that is not needed has changed. -/
theorem not_agrandado_de_mas (hm : Formateado m)
    (hmapa : MapaCompleto m s i (bloquesDe (s.tamanio m i)))
    (hK : bloquesDe (s.tamanio m i) ≤ bloquesDe n)
    (hlen : cuantos (bloquesDe (s.tamanio m i))
      (bloquesDe n + 1 - bloquesDe (s.tamanio m i)) ≤ (libres m s).length)
    (h : Ampliado m s i (bloquesDe (s.tamanio m i)) (bloquesDe n + 1) s') :
    ¬ Agrandado m s i n (s'.ponerTamanio m i n) := by
  intro hagrandado
  have ht := h.ponerTamanio hm hmapa hlen n
  have hK' : bloquesDe (s.tamanio m i) ≤ bloquesDe n + 1 := hK.trans (Nat.le_succ _)
  obtain ⟨b, hb, heq⟩ := libre_bloqueDatos (i := i) hK (Nat.lt_succ_self _) hlen
  have hlibre := (mem_libres.1 hb).2.2
  have husado := ht.usado_datos hm hmapa hK' hlen (Nat.lt_succ_self _)
  rw [heq] at husado
  have hbase := (mem_libres.1 hb).1
  have hbase' := base_nonneg m
  have hcero : (b : ℤ) ≠ 0 := by
    rw [Montaje.base] at hbase
    omega
  rcases (hagrandado.bits b husado.1).1 husado.2 with hviejo | ⟨j, hj, hjn, hdato⟩ |
    ⟨p, hp, hpn, hpunteros⟩
  · rw [hlibre] at hviejo
    cases hviejo
  · by_cases hborrado : Borrado m s i (bloquesDe (s.tamanio m i)) (bloquesDe n + 1) j
    · rw [ht.dato_borrado j (by omega) hborrado] at hdato
      exact hcero hdato.symm
    · rw [ht.dato j (by omega) hborrado, ← heq] at hdato
      exact absurd (bloqueDatos_inj hmapa hlen (by omega) (Nat.lt_succ_self _) hdato) hjn.ne
  · rw [ht.indirecto p (by omega), ← heq] at hpunteros
    exact bloqueDatos_ne_bloquePunteros hmapa hlen (Nat.lt_succ_self _) (by omega) hpunteros.symm

theorem sano_of_agrandaBien (hm : Formateado m)
    (hmapa : MapaCompleto m s i (bloquesDe (s.tamanio m i))) (hlt : s.tamanio m i < n)
    (hmax : n < 2147483648) (h : AgrandaBien m basura s i n) (hsalta : ¬ Salta m s i n) :
    AgrandaSano m s i n := by
  have hnonneg : 0 ≤ s.tamanio m i := load32_nonneg _ _
  by_cases hrechaza : Rechaza m s i n
  · have hbien := h 0 _ (agrandar_rechaza basura 0 hrechaza)
    exact .inl ⟨hrechaza, hbien.1.1 rfl⟩
  refine .inr ⟨hrechaza, ?_⟩
  have hdos : ∀ {fuel : ℕ} {t : Estado}, agrandar m basura s i n fuel = some (0, t) →
      faltan m s i n ≤ (libres m s).length ∧ Agrandado m s i n t := by
    intro fuel t ht
    have hno : (0 : ℤ) ≠ enospc := by decide
    obtain ⟨hiff, -, hbien⟩ := h fuel _ ht
    exact ⟨not_lt.1 fun hlt => hno (hiff.2 hlt), (hbien hno).2⟩
  rcases lt_trichotomy (n - s.tamanio m i) (espacioFinal m s i) with hmenos | hjusto | hmas
  · exact absurd (rechaza_of_lt hlt hmenos) hrechaza
  · obtain ⟨hlen, hagrandado⟩ := hdos (agrandar_justo basura 0 hrechaza hlt hmax hjusto)
    have hforma : s.tamanio m i % 4096 ≠ 0 ∨ s.tamanio m i = 0 := by
      by_contra hno
      refine not_agrandado_justo hm hmapa ?_ _ _ hagrandado
      rw [bloquesDe, bloquesDe, posiciones, posiciones]
      omega
    rw [espacioFinal] at hjusto
    refine .inr ⟨hlen, by omega, fun p q hp hpn => ?_⟩
    rw [bloquesDe, posiciones] at hp hpn
    omega
  · rcases le_or_gt (espacioFinal m s i) ((n - s.tamanio m i) % 4096) with hno | hresto
    · exact .inl ⟨hmas, hno⟩
    right
    obtain ⟨fuel, hsome⟩ : ∃ fuel, (agregarBloquesCiegos m basura i (espacioFinal m s i) fuel
        (n - s.tamanio m i) (s.ponerTamanio m i (s.tamanio m i + espacioFinal m s i))).isSome :=
      (agregarBloquesCiegos_termina_iff (espacioFinal_pos m s i).2 (by omega) (by omega) _).2 hresto
    obtain ⟨s', hs'⟩ := Option.isSome_iff_exists.1 hsome
    have hagranda := agrandar_bucle basura fuel hrechaza hlt hmax hmas
    rw [hs', Option.map_some] at hagranda
    obtain ⟨hlen, hagrandado⟩ := hdos hagranda
    have hespacio : 4096 < n - s.tamanio m i ∨ s.tamanio m i % 4096 ≠ 0 := by
      rw [espacioFinal] at hmas
      omega
    rcases ne_or_eq (s.tamanio m i % 4096) 0 with hparte | hfin
    · have hbloques := bloquesDe_bucle hlt hresto (.inl hparte)
      have hampliado := (ampliado_bucle hm hmapa hlt hmax (.inl hparte)
        (by rwa [faltan, ← hbloques, Nat.add_sub_cancel_left] at hlen) hs').2
      rw [hbloques] at hampliado
      exact ⟨hlen, .inl hparte, limpiaAparte_of_agrandado hm hmapa hlen hampliado hagrandado⟩
    have hcero : s.tamanio m i = 0 := by
      by_contra hno
      exact hsalta ⟨hfin, by omega, .inl hno⟩
    rcases ne_or_eq (n % 4096) 0 with hresto' | hentero
    · have hbloques := bloquesDe_bucle hlt hresto (.inr ⟨hcero, hresto'⟩)
      have hampliado := (ampliado_bucle hm hmapa hlt hmax (.inr hcero)
        (by rwa [faltan, ← hbloques, Nat.add_sub_cancel_left] at hlen) hs').2
      rw [hbloques] at hampliado
      exact ⟨hlen, .inr ⟨hcero, .inr hresto'⟩,
        limpiaAparte_of_agrandado hm hmapa hlen hampliado hagrandado⟩
    · have huno : bloquesDe (s.tamanio m i) = 1 := by
        rw [hcero]
        decide
      have hcuantos : cuantos 1 (n / 4096).toNat ≤ (libres m s).length := by
        by_contra hpocos
        exact hsalta ⟨hfin, by omega, .inr ⟨hentero, not_le.1 hpocos⟩⟩
      have hbloques : 1 + (n / 4096).toNat = bloquesDe n + 1 := by
        rw [bloquesDe, posiciones]
        omega
      have hampliado := (ampliado_bucle hm hmapa hlt hmax (.inr hcero)
        (by rwa [huno, hcero, sub_zero]) hs').2
      rw [huno, hcero, sub_zero, hbloques] at hampliado
      have hlen' : cuantos 1 (bloquesDe n + 1 - 1) ≤ (libres m s).length := by
        rwa [← hbloques, Nat.add_sub_cancel_left]
      refine absurd hagrandado (not_agrandado_de_mas hm hmapa ?_ ?_ ?_)
      · rw [huno, bloquesDe]
        omega
      · rwa [huno]
      · rwa [huno]

/-- Making a file larger with `o_truncate` is right under that condition, and only then,
unless the loop leaves out a position: the old content of its pointer decides then. -/
theorem agrandaBien_iff (m : Montaje) (basura : Estado → ℤ) (s : Estado) (i n : ℤ)
    (hm : Formateado m) (hmapa : MapaCompleto m s i (bloquesDe (s.tamanio m i)))
    (hlt : s.tamanio m i < n) (hmax : n < 2147483648) :
    (AgrandaSano m s i n → AgrandaBien m basura s i n) ∧
      (¬ Salta m s i n → AgrandaBien m basura s i n → AgrandaSano m s i n) :=
  ⟨agrandaBien_of_sano hm hmapa hlt hmax,
    fun hsalta h => sano_of_agrandaBien hm hmapa hlt hmax h hsalta⟩

theorem formateado_montajeChico : Formateado montajeChico := ⟨by decide, by decide⟩

theorem lt_unArchivo_cien {n : ℤ} (h : 100 < n) :
    (unArchivo 100).tamanio montajeChico 0 < n := by
  rwa [tamanio_unArchivo_cien]

/-- A byte more is refused, though the block has room for it. -/
theorem not_agrandaSano_unByte : ¬ AgrandaSano montajeChico (unArchivo 100) 0 101 := by
  have hrechaza : Rechaza montajeChico (unArchivo 100) 0 101 :=
    rechaza_of_lt (lt_unArchivo_cien (by decide))
      (by rw [espacioFinal, tamanio_unArchivo_cien]; decide)
  have hfaltan : faltan montajeChico (unArchivo 100) 0 101 = 0 := by
    rw [faltan, tamanio_unArchivo_cien]
    decide
  rintro (⟨-, hpocos⟩ | ⟨hacepta, -⟩)
  · rw [hfaltan] at hpocos
    exact absurd hpocos (Nat.not_lt_zero _)
  · exact hacepta hrechaza

theorem agrandaSano_otroBloque : AgrandaSano montajeChico (unArchivo 100) 0 5000 := by
  have hbloques : bloquesDe 5000 = 2 ∧ bloquesDe 100 = 1 := by decide
  have hlibres : (unArchivo 100).bitmapFreeBlocks = 100 := rfl
  refine .inr ⟨?_, .inr ⟨?_, .inl ?_, ?_⟩⟩
  · rw [Rechaza, espacioFinal, tamanio_unArchivo_cien, hlibres]
    decide
  · have hlibre : 1028 ∈ libres montajeChico (unArchivo 100) :=
      mem_libres.2 ⟨by decide, by decide, by decide +kernel⟩
    have hfaltan : faltan montajeChico (unArchivo 100) 0 5000 = 1 := by
      rw [faltan, tamanio_unArchivo_cien]
      decide
    rw [hfaltan]
    exact List.length_pos_of_mem hlibre
  · rw [tamanio_unArchivo_cien]
    decide
  · intro p q hp hp'
    rw [tamanio_unArchivo_cien, hbloques.2] at hp
    rw [hbloques.1] at hp'
    omega

/-- A second block is given to a file of 100 bytes; a byte more is refused. -/
theorem agrandaBien_iff_cien :
    AgrandaBien montajeChico (fun _ => 0) (unArchivo 100) 0 5000 ∧
      ¬ AgrandaBien montajeChico (fun _ => 0) (unArchivo 100) 0 101 := by
  constructor
  · exact (agrandaBien_iff montajeChico (fun _ => 0) (unArchivo 100) 0 5000
      formateado_montajeChico mapaCompleto_unArchivo_cien (lt_unArchivo_cien (by decide))
      (by decide)).1 agrandaSano_otroBloque
  · intro hbien
    refine not_agrandaSano_unByte ((agrandaBien_iff montajeChico (fun _ => 0) (unArchivo 100) 0
      101 formateado_montajeChico mapaCompleto_unArchivo_cien (lt_unArchivo_cien (by decide))
      (by decide)).2 ?_ hbien)
    rintro ⟨hcero, -⟩
    rw [tamanio_unArchivo_cien] at hcero
    exact absurd hcero (by decide)

/-- One byte more in a file of 100 bytes is refused, though its block has room. -/
theorem agrandaBien_unByte :
    ¬ ∀ (m : Montaje) (basura : Estado → ℤ) (s : Estado) (i n : ℤ), Formateado m →
      MapaCompleto m s i (bloquesDe (s.tamanio m i)) → s.tamanio m i < n → n < 2147483648 →
        AgrandaBien m basura s i n := by
  intro hclaim
  have hsalta : ¬ Salta montajeChico (unArchivo 100) 0 101 := by
    rintro ⟨hcero, -⟩
    rw [tamanio_unArchivo_cien] at hcero
    exact absurd hcero (by decide)
  have hlt : (unArchivo 100).tamanio montajeChico 0 < 101 := lt_unArchivo_cien (by decide)
  exact not_agrandaSano_unByte (sano_of_agrandaBien formateado_montajeChico
    mapaCompleto_unArchivo_cien hlt (by decide)
    (hclaim montajeChico (fun _ => 0) (unArchivo 100) 0 101 formateado_montajeChico
      mapaCompleto_unArchivo_cien hlt (by decide)) hsalta)

end Sac
