import Linuse.Transition.Loop
import Linuse.Sac.Errores
import Linuse.Sac.Crecimiento

/-!
# The loop of a write

An iteration of the loop of `o_write` chooses a block, puts bytes there and updates the
size of the file. The loop does not end when it comes to a full last block with less than
a block to write before the end of the file: the space that it finds there is none.
-/

namespace Sac

open Memory Loop

instance (e : Escritura) : Decidable (PideBloque e) := inferInstanceAs (Decidable (_ ∧ _))

/-- Where an iteration writes: the space and the address of the block, and the state after
the block has been chosen. -/
structure Destino where
  espacio : ℤ
  bloqueDeDatos : ℤ
  estado : Estado

section Vueltas

variable (m : Montaje) (basura : Estado → ℤ) (i : ℤ)

/-- The first half of an iteration of `o_write`, when the search of a block may give what
its variable held: the block to write, or that it goes to `finalizar` with the answer so far
or with another one. -/
def elegirBloque (e : Escritura) (s : Estado) : Except (Option ℤ × Estado) Destino :=
  if PideBloque e then
    if s.bitmapFreeBlocks = 0 then .error (some (-1), s)
    else
      let nodoLibre := obtenerBloqueCiego m basura s
      if nodoLibre.1 < 0 then .error (none, nodoLibre.2)
      else
        let agregado := agregarBloqueCiego m basura i nodoLibre.1 nodoLibre.2
        if agregado.1 ≠ 0 then .error (some agregado.1, agregado.2)
        else .ok ⟨4096, m.bloque nodoLibre.1, agregado.2⟩
  else
    .ok ⟨espacioEnUltimo e.tamanioArchivo, bloqueEscrito m s i e.off, s⟩

/-- The loop of `o_write` with such a search; `res` is the answer so far. -/
def bucleCiego (ahora : ℕ) (size : ℤ) : ℕ → ℤ → Escritura → Estado → Option (ℤ × Estado)
  | 0, _, _, _ => none
  | n + 1, res, e, s =>
      if e.tamanio = 0 then some (size, s.ponerModificacion m i ahora)
      else
        match elegirBloque m basura i e s with
        | .error (salida, s) => some (salida.getD res, s)
        | .ok d =>
            let vuelta := volcar m i d.espacio d.bloqueDeDatos e d.estado
            bucleCiego ahora size n (if PideBloque e then 0 else res) vuelta.1 vuelta.2

/-- The state of the next iteration, when there is one. -/
def vueltaWrite (x : Escritura × Estado) : Option (Escritura × Estado) :=
  if x.1.tamanio = 0 then none
  else (elegirBloque m basura i x.1 x.2).toOption.map fun d =>
    volcar m i d.espacio d.bloqueDeDatos x.1 d.estado

/-- The state after an iteration has put the bytes and before it updates the size. -/
def almacenar (espacio bloqueDeDatos : ℤ) (e : Escritura) (s : Estado) : Estado :=
  if 4096 ≤ e.tamanio then s.conMem (store s.mem bloqueDeDatos (e.buf.take 4096))
  else
    s.conMem (store s.mem (bloqueDeDatos + e.offsetEnBloque)
      (e.buf.take (min e.tamanio espacio).toNat))

end Vueltas

variable {m : Montaje} {basura : Estado → ℤ} {i : ℤ} {e e' : Escritura} {s s' : Estado}

theorem bucleCiego_isSome (ahora : ℕ) (size : ℤ) :
    ∀ (n : ℕ) (res : ℤ) (e : Escritura) (s : Estado),
      (bucleCiego m basura i ahora size n res e s).isSome ↔
        EndsIn (vueltaWrite m basura i) n (e, s)
  | 0, _, _, _ => by simp [bucleCiego, EndsIn]
  | n + 1, res, e, s => by
      rw [bucleCiego, EndsIn, vueltaWrite]
      dsimp only
      by_cases htamanio : e.tamanio = 0
      · simp [htamanio]
      rw [if_neg htamanio, if_neg htamanio]
      cases elegirBloque m basura i e s with
      | error salida => simp [Except.toOption]
      | ok d =>
          simp only [Except.toOption, Option.map_some, Option.some.injEq, forall_eq']
          exact bucleCiego_isSome ahora size n _ _ _

/-- As long as every search finds a block, nothing that was never set is used. -/
theorem bucleCiego_eq {ahora : ℕ} {size : ℤ} {r : ℤ × Estado} :
    ∀ {n : ℕ} {res : ℤ} {e : Escritura} {s : Estado},
      bucleWrite m ahora i size n e s = some r →
        bucleCiego m basura i ahora size n res e s = some r
  | 0, _, _, _, h => by cases h
  | n + 1, res, e, s, h => by
      rw [bucleWrite] at h
      rw [bucleCiego, elegirBloque]
      by_cases htamanio : e.tamanio = 0
      · rwa [if_pos htamanio] at h ⊢
      rw [if_neg htamanio] at h ⊢
      by_cases hpide : PideBloque e
      · rw [if_pos hpide]
        replace h := (if_pos hpide).symm.trans h
        by_cases hlibres : s.bitmapFreeBlocks = 0
        · rwa [if_pos hlibres] at h ⊢
        rw [if_neg hlibres] at h ⊢
        obtain ⟨⟨nodoLibre, s1⟩, hnodo, h⟩ := Option.bind_eq_some_iff.1 h
        obtain ⟨⟨res', s2⟩, hres, h⟩ := Option.bind_eq_some_iff.1 h
        have hpos := obtenerBloqueLibre_nonneg hnodo
        dsimp only at hres h hpos
        rw [obtenerBloqueCiego_eq hnodo]
        dsimp only
        rw [if_neg (not_lt.2 hpos), agregarBloqueCiego_eq hres]
        dsimp only
        by_cases hcero : res' ≠ 0
        · rwa [if_pos hcero] at h ⊢
        · rw [if_neg hcero] at h ⊢
          exact bucleCiego_eq h
      · rw [if_neg hpide]
        replace h := (if_neg hpide).symm.trans h
        exact bucleCiego_eq h

/-! ## What an iteration does to its variables -/

@[simp]
theorem tamanio_sumarTamanio (s : Estado) (x : ℤ) :
    (s.sumarTamanio m i x).tamanio m i = unsigned (s.tamanio m i + x) :=
  tamanio_ponerTamanio m s i _

theorem volcar_entero (espacio bloque : ℤ) (h : 4096 ≤ e.tamanio) :
    (volcar m i espacio bloque e s).1.tamanio = e.tamanio - 4096 ∧
      (volcar m i espacio bloque e s).1.off = e.off + 4096 ∧
      (((almacenar espacio bloque e s).tamanio m i ≤ unsigned e.off ∧
          (volcar m i espacio bloque e s).1.tamanioArchivo =
            unsigned ((almacenar espacio bloque e s).tamanio m i + 4096) ∧
          (volcar m i espacio bloque e s).2.tamanio m i =
            unsigned ((almacenar espacio bloque e s).tamanio m i + 4096)) ∨
        (unsigned e.off < (almacenar espacio bloque e s).tamanio m i ∧
          (volcar m i espacio bloque e s).1.tamanioArchivo = e.tamanioArchivo ∧
          (volcar m i espacio bloque e s).2.tamanio m i =
            (almacenar espacio bloque e s).tamanio m i)) := by
  simp only [volcar, almacenar, if_pos h]
  refine ⟨trivial, trivial, ?_⟩
  by_cases hcrece : (s.conMem (store s.mem bloque (e.buf.take 4096))).tamanio m i ≤ unsigned e.off
  · simp only [if_pos hcrece, tamanio_sumarTamanio]
    exact .inl ⟨hcrece, trivial, trivial⟩
  · simp only [if_neg hcrece]
    exact .inr ⟨not_le.1 hcrece, trivial, trivial⟩

theorem volcar_resto (espacio bloque : ℤ) (h : e.tamanio < 4096) (hle : e.tamanio ≤ espacio) :
    (volcar m i espacio bloque e s).1.tamanio = 0 := by
  rw [volcar, if_neg (not_le.2 h), if_pos hle]
  dsimp only
  split_ifs <;> rfl

theorem volcar_parte (espacio bloque : ℤ) (h : e.tamanio < 4096) (hlt : espacio < e.tamanio) :
    (volcar m i espacio bloque e s).1.tamanio = e.tamanio - espacio ∧
      (volcar m i espacio bloque e s).1.off = e.off + espacio ∧
      (volcar m i espacio bloque e s).1.tamanioArchivo =
        unsigned ((almacenar espacio bloque e s).tamanio m i + espacio) ∧
      (volcar m i espacio bloque e s).2.tamanio m i =
        unsigned ((almacenar espacio bloque e s).tamanio m i + espacio) := by
  have hmin : min e.tamanio espacio = espacio := min_eq_right hlt.le
  simp only [volcar, almacenar, if_neg (not_le.2 h), if_neg (not_le.2 hlt), hmin,
    tamanio_sumarTamanio, and_self]

theorem espacioEnUltimo_nonneg (x : ℤ) : 0 ≤ espacioEnUltimo x := by
  rw [espacioEnUltimo]
  split_ifs <;> omega

/-! ## The iteration that does nothing -/

/-- The iteration has less than a block to write, finds no space and adds no block. -/
def Atascado (m : Montaje) (i : ℤ) (x : Escritura × Estado) : Prop :=
  x.1.tamanio ≠ 0 ∧ x.1.tamanio < 4096 ∧ ¬ PideBloque x.1 ∧
    espacioEnUltimo x.1.tamanioArchivo = 0 ∧ x.1.tamanioArchivo = x.2.tamanio m i

/-- How an iteration changes the number of bytes that are left and the offset. -/
theorem vueltaWrite_cases {x y : Escritura × Estado} (h : vueltaWrite m basura i x = some y) :
    x.1.tamanio ≠ 0 ∧ ∃ d, elegirBloque m basura i x.1 x.2 = .ok d ∧
      y = volcar m i d.espacio d.bloqueDeDatos x.1 d.estado := by
  rw [vueltaWrite] at h
  split_ifs at h with htamanio
  obtain ⟨d, hd, rfl⟩ := Option.map_eq_some_iff.1 h
  refine ⟨htamanio, d, ?_, rfl⟩
  cases helegir : elegirBloque m basura i x.1 x.2 with
  | error salida =>
      rw [helegir] at hd
      cases hd
  | ok d' =>
      rw [helegir] at hd
      rw [Option.some.inj hd]

theorem elegirBloque_pide {d : Destino} (hpide : PideBloque e)
    (h : elegirBloque m basura i e s = .ok d) : d.espacio = 4096 := by
  rw [elegirBloque, if_pos hpide] at h
  dsimp only at h
  split_ifs at h
  rw [← Except.ok.inj h]

theorem elegirBloque_mapa (hpide : ¬ PideBloque e) :
    elegirBloque m basura i e s =
      .ok ⟨espacioEnUltimo e.tamanioArchivo, bloqueEscrito m s i e.off, s⟩ :=
  if_neg hpide

/-- The next iteration finds the same, for ever. -/
theorem Atascado.vuelta (basura : Estado → ℤ) {x : Escritura × Estado} (h : Atascado m i x)
    (hpos : 0 ≤ x.1.tamanio) :
    ∃ y, vueltaWrite m basura i x = some y ∧ Atascado m i y ∧ 0 ≤ y.1.tamanio := by
  obtain ⟨e, s⟩ := x
  obtain ⟨hcero, hlt, hpide, hespacio, hfresco⟩ := h
  dsimp only at hcero hlt hpide hespacio hfresco hpos
  refine ⟨volcar m i 0 (bloqueEscrito m s i e.off) e s, ?_, ?_, ?_⟩
  · rw [vueltaWrite, if_neg hcero, elegirBloque_mapa hpide, hespacio, Except.toOption,
      Option.map_some]
  · have hsin : (almacenar 0 (bloqueEscrito m s i e.off) e s).tamanio m i = s.tamanio m i := by
      rw [almacenar, if_neg (not_le.2 hlt), min_eq_right hpos, Int.toNat_zero, List.take_zero]
      exact load32_congr fun _ _ => store_of_disjoint (by rw [List.length_nil]; omega)
    have hrango : unsigned (s.tamanio m i) = s.tamanio m i :=
      Int.emod_eq_of_lt (load32_nonneg _ _) (load32_lt _ _)
    obtain ⟨htamanio, hoff, harchivo, hnodo⟩ :=
      volcar_parte (m := m) (i := i) (s := s) 0 (bloqueEscrito m s i e.off) hlt (by omega)
    rw [hsin, add_zero, hrango] at harchivo hnodo
    rw [sub_zero] at htamanio
    rw [add_zero] at hoff
    refine ⟨by rwa [htamanio], by rwa [htamanio], ?_, ?_, by rw [harchivo, hnodo]⟩
    · rwa [PideBloque, hoff, harchivo, ← hfresco]
    · rwa [harchivo, ← hfresco]
  · rw [(volcar_parte (m := m) (i := i) (s := s) 0 (bloqueEscrito m s i e.off) hlt (by omega)).1]
    omega

/-- Twice what is left, and one more when the loop has not read the size again. -/
def pendiente (m : Montaje) (i : ℤ) (x : Escritura × Estado) : ℕ :=
  2 * x.1.tamanio.toNat + if x.1.tamanioArchivo = x.2.tamanio m i then 0 else 1

theorem pendiente_lt {x y : Escritura × Estado} (hpos : 0 ≤ x.1.tamanio)
    (hlibre : ¬ Atascado m i x) (h : vueltaWrite m basura i x = some y) :
    0 ≤ y.1.tamanio ∧ pendiente m i y < pendiente m i x := by
  obtain ⟨hcero, d, hd, rfl⟩ := vueltaWrite_cases h
  rw [pendiente, pendiente]
  rcases le_or_gt 4096 x.1.tamanio with hentero | hresto
  · rw [(volcar_entero d.espacio d.bloqueDeDatos hentero).1]
    constructor
    · omega
    · split_ifs <;> omega
  rcases le_or_gt x.1.tamanio d.espacio with hle | hlt
  · rw [volcar_resto d.espacio d.bloqueDeDatos hresto hle]
    constructor
    · exact le_rfl
    · split_ifs <;> omega
  have hpide : ¬ PideBloque x.1 := fun hpide => by
    rw [elegirBloque_pide hpide hd] at hlt
    omega
  rw [elegirBloque_mapa hpide] at hd
  obtain rfl := Except.ok.inj hd
  obtain ⟨htamanio, -, harchivo, hnodo⟩ := volcar_parte (m := m) (i := i) (s := x.2)
    (espacioEnUltimo x.1.tamanioArchivo) (bloqueEscrito m x.2 i x.1.off) hresto hlt
  have hespacio := espacioEnUltimo_nonneg x.1.tamanioArchivo
  dsimp only at hlt
  rw [htamanio, harchivo, hnodo, if_pos rfl]
  constructor
  · omega
  · by_cases hnulo : espacioEnUltimo x.1.tamanioArchivo = 0
    · have hviejo : x.1.tamanioArchivo ≠ x.2.tamanio m i := fun hfresco =>
        hlibre ⟨hcero, hresto, hpide, hnulo, hfresco⟩
      rw [if_neg hviejo]
      omega
    · split_ifs <;> omega

/-- The loop ends exactly when it does not come to an iteration that does nothing. -/
theorem termina_iff_atascado {x : Escritura × Estado} (hpos : 0 ≤ x.1.tamanio) :
    (∃ n, EndsIn (vueltaWrite m basura i) n x) ↔
      ∀ y, Reaches (vueltaWrite m basura i) x y → ¬ Atascado m i y := by
  constructor
  · intro hends y hy hatascado
    have hpos' : ∀ z, Reaches (vueltaWrite m basura i) x z → 0 ≤ z.1.tamanio := by
      intro z hz
      induction hz with
      | refl => exact hpos
      | @tail b c hxb hbc ih =>
          by_cases hb : Atascado m i b
          · obtain ⟨c', hc', -, hle⟩ := hb.vuelta basura ih
            rw [hbc] at hc'
            obtain rfl := Option.some.inj hc'
            exact hle
          · exact (pendiente_lt ih hb hbc).1
    obtain ⟨n, hn⟩ := EndsIn.exists_of_reaches hy hends
    refine not_endsIn (P := fun z => Atascado m i z ∧ 0 ≤ z.1.tamanio) ?_ n
      ⟨hatascado, hpos' y hy⟩ hn
    intro z hz
    obtain ⟨z', hz', hatascado', hpos''⟩ := hz.1.vuelta basura hz.2
    exact ⟨z', hz', hatascado', hpos''⟩
  · intro hlibre
    refine exists_endsIn (P := fun z => 0 ≤ z.1.tamanio ∧
      ∀ y, Reaches (vueltaWrite m basura i) z y → ¬ Atascado m i y) (pendiente m i) ?_
      ⟨hpos, hlibre⟩
    intro z w hz hw
    obtain ⟨hpos', hlt⟩ := pendiente_lt hz.1 (hz.2 z Relation.ReflTransGen.refl) hw
    exact ⟨⟨hpos', fun y hy => hz.2 y (hy.head hw)⟩, hlt⟩

/-! ## In terms of the size, the offset and the length -/

/-- What is left after the whole blocks begins before the end of the file and does not fit
in the space of its last block. The bound leaves out the sizes whose last block ends at
2³², where the code computes the end as 0. -/
def Encalla (tamanioArchivo off tamanio : ℤ) : Prop :=
  off + 4096 * (tamanio / 4096) < tamanioArchivo ∧
    espacioEnUltimo tamanioArchivo < tamanio % 4096 ∧ tamanioArchivo ≤ 4294963200

instance (tamanioArchivo off tamanio : ℤ) : Decidable (Encalla tamanioArchivo off tamanio) :=
  inferInstanceAs (Decidable (_ ∧ _ ∧ _))

/-- What the iteration stores leaves the size of the node as it was. -/
def Intacto (m : Montaje) (basura : Estado → ℤ) (i : ℤ) (x : Escritura × Estado) : Prop :=
  x.1.tamanio ≠ 0 → ∀ d, elegirBloque m basura i x.1 x.2 = .ok d →
    (almacenar d.espacio d.bloqueDeDatos x.1 d.estado).tamanio m i = x.2.tamanio m i

/-- The loop knows the size of the node, and the offsets are numbers of 32 bits. -/
structure Sincrona (m : Montaje) (i : ℤ) (x : Escritura × Estado) : Prop where
  archivo : x.1.tamanioArchivo = x.2.tamanio m i
  off_nonneg : 0 ≤ x.1.off
  tamanio_nonneg : 0 ≤ x.1.tamanio
  hasta : x.1.off + x.1.tamanio < 4294967296

/-- The end of the last block is a multiple of the size of a block. -/
theorem espacioEnUltimo_add {x : ℤ} (h : x ≠ 0) :
    (x + espacioEnUltimo x) % 4096 = 0 ∧ espacioEnUltimo x < 4096 := by
  rw [espacioEnUltimo, if_neg h]
  split_ifs <;> omega

theorem espacioEnUltimo_of_emod {x : ℤ} (h : x ≠ 0) (hmod : x % 4096 = 0) :
    espacioEnUltimo x = 0 := by
  rw [espacioEnUltimo, if_neg h, if_pos hmod]

theorem espacioEnUltimo_cero : espacioEnUltimo 0 = 4096 := rfl

theorem not_encalla_of_le {tamanioArchivo off tamanio : ℤ} (hpos : 0 ≤ tamanio)
    (h : tamanioArchivo ≤ off) : ¬ Encalla tamanioArchivo off tamanio := by
  rintro ⟨hlt, -, -⟩
  omega

theorem unsigned_le {x : ℤ} (h : 0 ≤ x) : unsigned x ≤ x := by
  rw [unsigned]
  omega

theorem Sincrona.archivo_nonneg {x : Escritura × Estado} (h : Sincrona m i x) :
    0 ≤ x.1.tamanioArchivo := by
  rw [h.archivo]
  exact load32_nonneg _ _

theorem Sincrona.archivo_lt {x : Escritura × Estado} (h : Sincrona m i x) :
    x.1.tamanioArchivo < 4294967296 := by
  rw [h.archivo]
  exact load32_lt _ _

/-- An iteration that leaves something to write keeps whether the loop runs aground. -/
theorem Sincrona.vuelta {x y : Escritura × Estado} (h : Sincrona m i x)
    (hintacto : Intacto m basura i x) (hxy : vueltaWrite m basura i x = some y) :
    y.1.tamanio = 0 ∨ Sincrona m i y ∧
      (Encalla y.1.tamanioArchivo y.1.off y.1.tamanio ↔
        Encalla x.1.tamanioArchivo x.1.off x.1.tamanio) := by
  obtain ⟨hcero, d, hd, rfl⟩ := vueltaWrite_cases hxy
  have hsize := hintacto hcero d hd
  have hoff := h.off_nonneg
  have hpos := h.tamanio_nonneg
  have hhasta := h.hasta
  have hA := h.archivo_nonneg
  rcases le_or_gt 4096 x.1.tamanio with hentero | hresto
  · right
    obtain ⟨htamanio, hoff', hcasos⟩ :=
      volcar_entero (m := m) (i := i) (s := d.estado) d.espacio d.bloqueDeDatos
      hentero
    rw [hsize, ← h.archivo, unsigned_eq_self hoff (by omega)] at hcasos
    obtain ⟨hle, harchivo, hnodo⟩ | ⟨hlt, harchivo, hnodo⟩ := hcasos
    · refine ⟨⟨by rw [harchivo, hnodo], by omega, by omega, by omega⟩, ?_⟩
      have hmenor := unsigned_le (x := x.1.tamanioArchivo + 4096) (by omega)
      rw [htamanio, hoff', harchivo]
      exact iff_of_false (not_encalla_of_le (by omega) (by omega))
        (not_encalla_of_le hpos hle)
    · refine ⟨⟨by rw [harchivo, hnodo], by omega, by omega, by omega⟩, ?_⟩
      have hoffs : x.1.off + 4096 + 4096 * ((x.1.tamanio - 4096) / 4096) =
          x.1.off + 4096 * (x.1.tamanio / 4096) := by omega
      have hrestos : (x.1.tamanio - 4096) % 4096 = x.1.tamanio % 4096 := by omega
      rw [htamanio, hoff', harchivo, Encalla, Encalla, hoffs, hrestos]
  rcases le_or_gt x.1.tamanio d.espacio with hle | hlt
  · exact .inl (volcar_resto d.espacio d.bloqueDeDatos hresto hle)
  right
  have hpide : ¬ PideBloque x.1 := fun hpide => by
    rw [elegirBloque_pide hpide hd] at hlt
    omega
  rw [elegirBloque_mapa hpide] at hd
  obtain rfl := Except.ok.inj hd
  dsimp only at hlt hsize ⊢
  obtain ⟨htamanio, hoff', harchivo, hnodo⟩ := volcar_parte (m := m) (i := i) (s := x.2)
    (espacioEnUltimo x.1.tamanioArchivo) (bloqueEscrito m x.2 i x.1.off) hresto hlt
  rw [hsize, ← h.archivo] at harchivo hnodo
  have hespacio := espacioEnUltimo_nonneg x.1.tamanioArchivo
  have hno : x.1.tamanioArchivo ≠ 0 := by
    intro hnulo
    rw [hnulo, espacioEnUltimo_cero] at hlt
    omega
  have hmultiplo := (espacioEnUltimo_add hno).1
  refine ⟨⟨by rw [harchivo, hnodo], by omega, by omega, by omega⟩, ?_⟩
  rw [htamanio, hoff', harchivo]
  rcases le_or_gt x.1.tamanioArchivo 4294963200 with hbajo | halto
  · have hfin : x.1.tamanioArchivo + espacioEnUltimo x.1.tamanioArchivo ≤ 4294963200 := by omega
    rw [unsigned_eq_self (by omega) (by omega), Encalla, Encalla,
      espacioEnUltimo_of_emod (by omega) hmultiplo]
    omega
  · have hmax := h.archivo_lt
    have hfin : unsigned (x.1.tamanioArchivo + espacioEnUltimo x.1.tamanioArchivo) = 0 := by
      rw [unsigned]
      omega
    rw [hfin]
    refine iff_of_false (not_encalla_of_le (by omega) (by omega)) ?_
    rintro ⟨-, -, hle⟩
    omega

/-- A loop that runs aground has something to write after every iteration. -/
theorem Sincrona.sigue (basura : Estado → ℤ) {x : Escritura × Estado} (h : Sincrona m i x)
    (hencalla : Encalla x.1.tamanioArchivo x.1.off x.1.tamanio) :
    ∃ y, vueltaWrite m basura i x = some y ∧ y.1.tamanio ≠ 0 := by
  obtain ⟨hlt, hespacio, hbajo⟩ := hencalla
  have hpos := h.tamanio_nonneg
  have hoff := h.off_nonneg
  have hnonneg := espacioEnUltimo_nonneg x.1.tamanioArchivo
  have hno : x.1.tamanioArchivo ≠ 0 := by omega
  have hmultiplo := (espacioEnUltimo_add hno).1
  have hpide : ¬ PideBloque x.1 := by
    rintro ⟨hle, -⟩
    rw [unsigned_eq_self hoff (by omega), unsigned_eq_self (by omega) (by omega)] at hle
    omega
  refine ⟨volcar m i (espacioEnUltimo x.1.tamanioArchivo) (bloqueEscrito m x.2 i x.1.off) x.1 x.2,
    ?_, ?_⟩
  · rw [vueltaWrite, if_neg (by omega), elegirBloque_mapa hpide, Except.toOption, Option.map_some]
  · rcases le_or_gt 4096 x.1.tamanio with hentero | hresto
    · rw [(volcar_entero _ _ hentero).1]
      omega
    · rw [(volcar_parte _ _ hresto (by omega)).1]
      omega

/-- The iteration that does nothing is aground. -/
theorem Atascado.encalla {x : Escritura × Estado} (h : Atascado m i x) (hx : Sincrona m i x) :
    Encalla x.1.tamanioArchivo x.1.off x.1.tamanio := by
  obtain ⟨hcero, hlt, hpide, hespacio, -⟩ := h
  have hpos := hx.tamanio_nonneg
  have hoff := hx.off_nonneg
  have hhasta := hx.hasta
  have hA := hx.archivo_nonneg
  have hmax := hx.archivo_lt
  have hno : x.1.tamanioArchivo ≠ 0 := by
    intro hnulo
    rw [hnulo, espacioEnUltimo_cero] at hespacio
    omega
  have hmultiplo := (espacioEnUltimo_add hno).1
  have hantes : x.1.off < x.1.tamanioArchivo := by
    by_contra hle
    refine hpide ⟨?_, hno⟩
    rw [hespacio, add_zero, unsigned_eq_self hA hmax, unsigned_eq_self hoff (by omega)]
    omega
  rw [hespacio, add_zero] at hmultiplo
  refine ⟨by omega, by omega, by omega⟩

theorem termina_iff_encalla {x : Escritura × Estado} (h : Sincrona m i x)
    (hintacto : ∀ y, Reaches (vueltaWrite m basura i) x y → Intacto m basura i y) :
    (∃ n, EndsIn (vueltaWrite m basura i) n x) ↔
      ¬ Encalla x.1.tamanioArchivo x.1.off x.1.tamanio := by
  constructor
  · rintro ⟨n, hn⟩ hencalla
    refine not_endsIn (P := fun z => Reaches (vueltaWrite m basura i) x z ∧ Sincrona m i z ∧
      Encalla z.1.tamanioArchivo z.1.off z.1.tamanio) ?_ n
      ⟨Relation.ReflTransGen.refl, h, hencalla⟩ hn
    rintro z ⟨hxz, hz, hencalla⟩
    obtain ⟨w, hw, hno⟩ := hz.sigue basura hencalla
    obtain ⟨hsincrona, hiff⟩ := (hz.vuelta (hintacto z hxz) hw).resolve_left hno
    exact ⟨w, hw, hxz.tail hw, hsincrona, hiff.2 hencalla⟩
  · intro hlibre
    refine (termina_iff_atascado h.tamanio_nonneg).2 fun y hxy hatascado => ?_
    have hinv : ∀ z, Reaches (vueltaWrite m basura i) x z → z.1.tamanio = 0 ∨
        Sincrona m i z ∧ ¬ Encalla z.1.tamanioArchivo z.1.off z.1.tamanio := by
      intro z hz
      induction hz with
      | refl => exact .inr ⟨h, hlibre⟩
      | @tail b c hxb hbc ih =>
          obtain ⟨hsincrona, hb⟩ := ih.resolve_left (vueltaWrite_cases hbc).1
          exact (hsincrona.vuelta (hintacto b hxb) hbc).imp_right fun hc =>
            ⟨hc.1, fun hencalla => hb (hc.2.1 hencalla)⟩
    obtain ⟨hsincrona, hno⟩ := (hinv y hxy).resolve_left hatascado.1
    exact hno (hatascado.encalla hsincrona)

/-- A write through the map to a data block leaves the table of nodes as it was. -/
theorem intacto_of_mapa {x : Escritura × Estado} (hi : i < 1024) (hpide : ¬ PideBloque x.1)
    (hoffset : 0 ≤ x.1.offsetEnBloque)
    (hbase : m.base ≤ x.2.puntero m (x.2.indirecto m i (settearPosicion x.1.off).1)
      (settearPosicion x.1.off).2) : Intacto m basura i x := by
  intro _ d hd
  rw [elegirBloque_mapa hpide] at hd
  obtain rfl := Except.ok.inj hd
  have hnodo := nodo_eq m i
  have hdatos := bloque_base m
  have hbloque := bloque_eq m (x.2.puntero m (x.2.indirecto m i (settearPosicion x.1.off).1)
    (settearPosicion x.1.off).2)
  rw [Estado.tamanio, Estado.tamanio]
  refine load32_congr fun k hk => ?_
  rw [almacenar]
  dsimp only
  split_ifs
  · refine store_of_lt ?_
    rw [dirTamanio, bloqueEscrito]
    omega
  · refine store_of_lt ?_
    rw [dirTamanio, bloqueEscrito]
    omega

/-- The variables of the loop when it begins. -/
def Escritura.inicio (tamanioArchivo offset : ℤ) (buf : List UInt8) : Escritura :=
  ⟨buf.length, tamanioArchivo, offset, offset.tmod 4096, buf⟩

theorem sincrona_inicio {offset : ℤ} {buf : List UInt8} (hoffset : 0 ≤ offset)
    (hmax : offset < 2147483648) (hlen : buf.length < 2147483648) (s : Estado) :
    Sincrona m i (Escritura.inicio (s.tamanio m i) offset buf, s) where
  archivo := rfl
  off_nonneg := hoffset
  tamanio_nonneg := Int.natCast_nonneg _
  hasta := by
    simp only [Escritura.inicio]
    omega

/-- The loop of `o_write` ends, on any disk, exactly when it does not come to an iteration
that does nothing. When its writes leave the size of the node alone, it comes to one exactly
if what is left after the whole blocks begins before the end of the file and does not fit in
the last block. -/
theorem bucleCiego_termina_iff (m : Montaje) (basura : Estado → ℤ) (ahora : ℕ) (i : ℤ)
    (s : Estado) (offset : ℤ) (buf : List UInt8) (hoffset : 0 ≤ offset)
    (hmax : offset < 2147483648) (hlen : buf.length < 2147483648) :
    ((∃ fuel, (bucleCiego m basura i ahora buf.length fuel buf.length
        (Escritura.inicio (s.tamanio m i) offset buf) s).isSome) ↔
      ∀ y, Reaches (vueltaWrite m basura i) (Escritura.inicio (s.tamanio m i) offset buf, s) y →
        ¬ Atascado m i y) ∧
    ((∀ y, Reaches (vueltaWrite m basura i) (Escritura.inicio (s.tamanio m i) offset buf, s) y →
        Intacto m basura i y) →
      ((∃ fuel, (bucleCiego m basura i ahora buf.length fuel buf.length
          (Escritura.inicio (s.tamanio m i) offset buf) s).isSome) ↔
        ¬ Encalla (s.tamanio m i) offset buf.length)) := by
  have hinicio := sincrona_inicio (m := m) (i := i) hoffset hmax hlen s
  simp only [bucleCiego_isSome]
  exact ⟨termina_iff_atascado hinicio.tamanio_nonneg, termina_iff_encalla hinicio⟩

/-! ## A full block -/

/-- The loop that puts a byte at the beginning of a file of 100 bytes. -/
def escribirUno : Escritura × Estado :=
  (Escritura.inicio ((unArchivo 100).tamanio montajeChico 0) 0 [7], unArchivo 100)

theorem intacto_escribirUno {y : Escritura × Estado}
    (h : Reaches (vueltaWrite montajeChico (fun _ => 0) 0) escribirUno y) :
    Intacto montajeChico (fun _ => 0) 0 y := by
  have hpide : ¬ PideBloque escribirUno.1 := by
    rw [escribirUno, tamanio_unArchivo_cien]
    decide
  have hbase : montajeChico.base ≤ escribirUno.2.puntero montajeChico
      (escribirUno.2.indirecto montajeChico 0 (settearPosicion escribirUno.1.off).1)
      (settearPosicion escribirUno.1.off).2 := by
    decide +kernel
  rcases Relation.ReflTransGen.cases_head h with rfl | ⟨z, hz, hzy⟩
  · exact intacto_of_mapa (by decide) hpide le_rfl hbase
  · obtain ⟨-, d, hd, rfl⟩ := vueltaWrite_cases hz
    rw [elegirBloque_mapa hpide] at hd
    obtain rfl := Except.ok.inj hd
    have hcero := volcar_resto (m := montajeChico) (i := 0) (e := escribirUno.1)
      (s := escribirUno.2) (espacioEnUltimo escribirUno.1.tamanioArchivo)
      (bloqueEscrito montajeChico escribirUno.2 0 escribirUno.1.off) (by decide)
      (by rw [escribirUno, tamanio_unArchivo_cien]; decide)
    rcases Relation.ReflTransGen.cases_head hzy with rfl | ⟨w, hw, -⟩
    · exact fun hno => absurd hcero hno
    · exact absurd hcero (vueltaWrite_cases hw).1

/-- A byte put over the first one of a file of 100 bytes. -/
theorem bucleCiego_termina_iff_escribirUno :
    ∃ fuel, (bucleCiego montajeChico (fun _ => 0) 0 0 1 fuel 1 escribirUno.1
        escribirUno.2).isSome := by
  refine ((bucleCiego_termina_iff montajeChico (fun _ => 0) 0 0 (unArchivo 100) 0 [7] (by decide)
    (by decide) (by decide)).2 fun _ hy => intacto_escribirUno hy).2 ?_
  rw [tamanio_unArchivo_cien]
  decide

/-- A hundred bytes at the beginning of a file of one full block. -/
theorem bucleCiego_noTermina :
    ¬ ∀ (m : Montaje) (basura : Estado → ℤ) (ahora : ℕ) (i : ℤ) (s : Estado) (offset : ℤ)
      (buf : List UInt8), 0 ≤ offset → offset < 2147483648 → buf.length < 2147483648 →
      ∃ fuel, (bucleCiego m basura i ahora buf.length fuel buf.length
        (Escritura.inicio (s.tamanio m i) offset buf) s).isSome := by
  intro hclaim
  have htamanio := tamanio_unArchivo_lleno
  obtain ⟨fuel, hsome⟩ := hclaim montajeChico (fun _ => 0) 0 0 (unArchivo 4096) 0
    (List.replicate 100 7) (by decide) (by decide) (by rw [List.length_replicate]; decide)
  rw [bucleCiego_isSome, htamanio] at hsome
  have hatascado : Atascado montajeChico 0
      (Escritura.inicio 4096 0 (List.replicate 100 7), unArchivo 4096) := by
    refine ⟨?_, ?_, ?_, rfl, htamanio.symm⟩
    · rw [Escritura.inicio, List.length_replicate]
      decide
    · rw [Escritura.inicio, List.length_replicate]
      decide
    · rw [Escritura.inicio]
      decide
  exact (termina_iff_atascado (Int.natCast_nonneg _)).1 ⟨fuel, hsome⟩ _
    Relation.ReflTransGen.refl hatascado

end Sac
