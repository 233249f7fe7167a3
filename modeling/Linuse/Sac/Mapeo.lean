import Linuse.Sac.Altas
import Mathlib.Data.List.Find

/-!
# A creation inside the mapping

A block of the header has 4100 bytes, and `o_create` clears the block of its pointers at
`&header_start[e]`. The last data blocks of the disk, and this place for some before them, are
after the end of the mapping: with only such blocks left `o_create` takes them and writes other
memory of the process. A creation returns what it should and writes inside the mapping if and
only if the second of the free data blocks is not one of them (`creaNodo_altas_iff`).
-/

namespace Sac

open Memory Locks Locks.Code

variable {m : Montaje} {s t t' : Estado} {path : Ruta}

/-- Whatever is outside the mapping, the code leaves it as it is. -/
def EscribeDentro (m : Montaje) (p : Codigo ℤ) (s : Estado) : Prop :=
  ∀ t, AgreeOn m.enMapeo s.mem t.mem → ∀ res t', p.eval t = some (res, t') →
    AgreeOn m.enMapeoᶜ t.mem t'.mem

/-- The code creates the node, and writes inside the mapping. -/
structure CreaNodoDentro (m : Montaje) (path : Ruta) (p : Codigo ℤ) (s : Estado) : Prop where
  crea : CreaNodo m path p s
  dentro : EscribeDentro m p s

/-- Two data blocks are free, and `&header_start[c]` for the second of them is a block inside
the mapping. -/
def DosLibresDentro (m : Montaje) (s : Estado) : Prop :=
  ∃ b c : ℤ, m.base ≤ b ∧ b < c ∧ c / 8 < 4096 * m.tamanioBitmap ∧
    headerStart c + 4096 ≤ m.mapeo ∧ s.testBit m b = false ∧ s.testBit m c = false

/-! ## What a creation writes -/

/-- Outside the table, the bitmap and the two blocks, `o_create` changes no byte. -/
theorem conBloques_mem {i : ℕ} {d e x : ℤ} {nombre : List UInt8} {padre : ℤ} {ahora : ℕ}
    (hi : i < cantidadNodos) (hnombre : nombre.length ≤ 70) (hd : 0 ≤ d) (he : 0 ≤ e)
    (hdbit : d / 8 < 4096 * m.tamanioBitmap) (hebit : e / 8 < 4096 * m.tamanioBitmap)
    (hx : x < 0 ∨ m.nodo 1024 ≤ x) (hdatos : x < m.bloque d ∨ m.bloque d + 4096 ≤ x)
    (hcabecera : x < headerStart e ∨ headerStart e + 4096 ≤ x)
    (hpuntero : x < m.bloque e ∨ m.bloque e + 4 ≤ x) :
    (conBloques m i d e (conFechas m i ahora (nodoNuevo m i ocupado nombre padre t))).mem x =
      t.mem x := by
  have h0 := nodo_cero m
  have hi0 := nodo_eq m i
  have hi1 := nodo_eq m (i + 1)
  have h1024 := nodo_eq m 1024
  have hstart : bitmapStart = 4100 := rfl
  rw [cantidadNodos] at hi
  have hbits : ∀ b, 0 ≤ b → b / 8 < 4096 * (m.tamanioBitmap : ℤ) → x ≠ bitmapStart + b / 8 := by
    clear hdatos hcabecera hpuntero
    omega
  have hnodo : x < m.nodo i ∨ m.nodo (i + 1) ≤ x := by
    clear hdatos hcabecera hpuntero hbits
    omega
  have hindirecto : ∀ p : ℤ, 0 ≤ p → p < 2 → x < dirIndirecto m i p ∨ dirIndirecto m i p + 4 ≤ x := by
    clear hx hdatos hcabecera hpuntero hbits
    intro p
    rw [dirIndirecto]
    omega
  have hfechas : (x < dirCreacion m i ∨ dirCreacion m i + 8 ≤ x) ∧
      (x < dirModificacion m i ∨ dirModificacion m i + 8 ≤ x) := by
    clear hx hdatos hcabecera hpuntero hbits hindirecto
    rw [dirCreacion, dirModificacion]
    omega
  rw [conBloques, conMem_fill_mem _ hdatos, conPunteros,
    ponerPuntero_mem _ _ (by rwa [mul_zero, add_zero]),
    ponerIndirecto_mem _ _ _ (hindirecto _ (by decide) (by decide)),
    ponerIndirecto_mem _ _ _ (hindirecto _ (by decide) (by decide)), conMem_fill_mem _ hcabecera,
    setBit_of_ne _ (hbits e he hebit), setBit_of_ne _ (hbits d hd hdbit), conFechas,
    ponerCreacion_mem _ _ _ hfechas.1, ponerModificacion_mem _ _ _ hfechas.2,
    ponerIndirecto_mem _ _ _ (hindirecto _ (by decide) (by decide)), nodoNuevo_mem hnombre hnodo]

/-- The place that `o_create` clears for the pointers. -/
theorem conBloques_cero {i : ℕ} {d e x : ℤ} (hi : i < cantidadNodos) (hx : m.nodo 1024 ≤ x)
    (hdesde : headerStart e ≤ x) (hhasta : x < headerStart e + 4096)
    (hpuntero : m.bloque e + 4 ≤ x) : (conBloques m i d e t).mem x = 0 := by
  have hi0 := nodo_eq m i
  have h1024 := nodo_eq m 1024
  rw [cantidadNodos] at hi
  have hantes : ∀ u : Estado, (conPunteros m i 0 e d u).mem x = 0 := by
    intro u
    rw [conPunteros, ponerPuntero_mem _ _ (by omega),
      ponerIndirecto_mem _ _ _ (by rw [dirIndirecto]; omega),
      ponerIndirecto_mem _ _ _ (by rw [dirIndirecto]; omega)]
    exact fill_of_mem hdesde hhasta
  rw [conBloques]
  by_cases hdatos : m.bloque d ≤ x ∧ x < m.bloque d + 4096
  · exact fill_of_mem hdatos.1 hdatos.2
  · rw [conMem_fill_mem _ (by omega), hantes]

/-- The components of a path are short, so that its parts are. -/
theorem length_nombre {madre nombre : List UInt8}
    (hpath : ∀ c ∈ componentes path.cola, 1 ≤ c.length ∧ c.length ≤ 70)
    (hpartes : dividirRuta path.cola = some (madre, nombre)) : nombre.length ≤ 70 :=
  (hpath nombre (by rw [componentes_eq hpartes]; simp)).2

theorem escribeDentro_oMkdir (htabla : m.nodo 1024 ≤ m.mapeo)
    (hpath : ∀ c ∈ componentes path.cola, 1 ≤ c.length ∧ c.length ≤ 70) :
    EscribeDentro m (oMkdir m path) s := by
  intro t _ res t' h x hx
  have h0 := nodo_cero m
  have h1024 := nodo_eq m 1024
  have hstart : bitmapStart = 4100 := rfl
  simp only [Montaje.enMapeo, Set.mem_compl_iff, Set.mem_ofPred_eq] at hx
  rcases oNuevo_cases h with rfl | ⟨-, ⟨madre, nombre⟩, hpartes, -, hcrear⟩
  · rfl
  · rw [crearDirectorio] at hcrear
    cases hlibre : nodoLibre m t with
    | none =>
        rw [hlibre] at hcrear
        cases hcrear
        rfl
    | some i =>
        rw [hlibre] at hcrear
        cases hcrear
        have hi := (nodoLibre_eq_some hlibre).1
        have hi0 := nodo_eq m i
        have hi1 := nodo_eq m (i + 1)
        rw [cantidadNodos] at hi
        exact nodoNuevo_mem (length_nombre hpath hpartes) (by omega) t

/-- The bits of two blocks that are in the bitmap are in the mapping. -/
theorem testBit_of_enMapeo {b : ℤ} (htabla : m.nodo 1024 ≤ m.mapeo) (hb : 0 ≤ b)
    (hbit : b / 8 < 4096 * m.tamanioBitmap) (h : AgreeOn m.enMapeo s.mem t.mem) :
    t.testBit m b = s.testBit m b := by
  have h0 := nodo_cero m
  have h1024 := nodo_eq m 1024
  have hstart : bitmapStart = 4100 := rfl
  refine testBit_of_mem_eq (h _ ?_)
  simp only [Montaje.enMapeo, Set.mem_ofPred_eq]
  omega

theorem bloques_of_enMapeo {c : ℤ} (hbase : m.base ≤ c) (h : headerStart c + 4096 ≤ m.mapeo) :
    c < m.bloques := by
  have hcero : 0 ≤ m.base := by
    rw [Montaje.base]
    omega
  rw [headerStart, tamanioHeader, Montaje.mapeo, tamanioBloque] at h
  omega

/-- The search of a node reads the table only. -/
theorem buscarNodo_of_agree (h : AgreeOn (enTabla m) s.mem t.mem) (padre : ℤ) {c : List UInt8}
    (hc : c.length ≤ 70) : buscarNodo m t padre c = buscarNodo m s padre c := by
  have hcampo : ∀ i < cantidadNodos, ∀ k : ℤ, 0 ≤ k → k < 4096 →
      t.mem (m.nodo i + k) = s.mem (m.nodo i + k) := by
    intro i hi k hk hk'
    have hi0 := nodo_eq m i
    have h1024 := nodo_eq m 1024
    rw [cantidadNodos] at hi
    exact h _ (by simp only [enTabla, Set.mem_ofPred_eq]; omega)
  have hcoincide : ∀ i ∈ List.range cantidadNodos,
      coincide m t padre c i = coincide m s padre c i := by
    intro i hi
    rw [List.mem_range] at hi
    have hestado : t.estado m i = s.estado m i := by
      have heq := hcampo i hi 0 le_rfl (by omega)
      rwa [add_zero] at heq
    have hpadre : t.padre m i = s.padre m i := by
      rw [Estado.padre, Estado.padre]
      refine load32_congr fun k hk => ?_
      rw [dirPadre, add_assoc]
      exact hcampo i hi _ (by omega) (by omega)
    have hnombre : isString t.mem (dirNombre m i) c = isString s.mem (dirNombre m i) c := by
      refine isString_congr fun k hk => ?_
      rw [dirNombre, add_assoc]
      exact hcampo i hi _ (by omega) (by omega)
    rw [coincide, coincide, hestado, hpadre, hnombre]
  rw [buscarNodo, buscarNodo, List.find?_congr hcoincide]

theorem nodoDe_of_agree (h : AgreeOn (enTabla m) s.mem t.mem) {cola : List UInt8}
    (hcola : ∀ c ∈ componentes cola, c.length ≤ 70) : nodoDe m t cola = nodoDe m s cola := by
  induction hn : cola.length using Nat.strong_induction_on generalizing cola with
  | _ n ih =>
      rcases eq_or_ne cola [] with rfl | hne
      · rw [nodoDe_nil, nodoDe_nil]
      · have hpartes := dividirRuta_of_ne_nil hne
        have hlt := length_super_lt hne
        generalize (sinBarraFinal cola).rdropWhile (· != 47) = superPath at hpartes hlt
        generalize (sinBarraFinal cola).rtakeWhile (· != 47) = c at hpartes
        rw [componentes_eq hpartes] at hcola
        rw [nodoDe_eq m t hpartes, nodoDe_eq m s hpartes,
          ih _ (hn ▸ hlt) (fun c' hc' => hcola c' (List.mem_append_left _ hc')) rfl,
          buscarNodo_of_agree h _ (hcola c (by simp))]

/-- Where a node can be created depends on the table only. -/
theorem creable_of_agree (h : AgreeOn (enTabla m) s.mem t.mem)
    (hpath : ∀ c ∈ componentes path.cola, 1 ≤ c.length ∧ c.length ≤ 70) :
    Creable m t path ↔ Creable m s path := by
  have hnodo := nodoDe_of_agree h fun c hc => (hpath c hc).2
  have hmadre : ∀ partes, dividirRuta path.cola = some partes →
      nodoDe m t partes.1 = nodoDe m s partes.1 := by
    rintro ⟨madre, nombre⟩ hpartes
    refine nodoDe_of_agree h fun c hc => (hpath c ?_).2
    rw [componentes_eq hpartes]
    exact List.mem_append_left _ hc
  have hestado : ∀ i < cantidadNodos, t.estado m i = s.estado m i := by
    intro i hi
    have hi0 := nodo_eq m i
    have h1024 := nodo_eq m 1024
    rw [cantidadNodos] at hi
    exact h _ (by simp only [enTabla, dirEstado, Set.mem_ofPred_eq]; omega)
  rw [Creable, Creable, hnodo]
  refine and_congr_right fun _ => and_congr ?_ ?_
  · exact exists_congr fun partes => and_congr_right fun hpartes => by rw [hmadre partes hpartes]
  · exact exists_congr fun i => and_congr_right fun hi => by rw [hestado i hi]

/-- The table of a disk is in the mapping. -/
theorem agreeOn_enTabla (htabla : m.nodo 1024 ≤ m.mapeo) (h : AgreeOn m.enMapeo s.mem t.mem) :
    AgreeOn (enTabla m) s.mem t.mem := by
  have h0 := nodo_cero m
  have hstart : bitmapStart = 4100 := rfl
  refine h.mono fun x hx => ?_
  simp only [enTabla, Montaje.enMapeo, Set.mem_ofPred_eq] at hx ⊢
  omega

theorem escribeDentro_oCreate (htabla : m.nodo 1024 ≤ m.mapeo)
    (hpath : ∀ c ∈ componentes path.cola, 1 ≤ c.length ∧ c.length ≤ 70)
    (hlibres : Creable m s path → DosLibresDentro m s) (ahora : ℕ) :
    EscribeDentro m (oCreate m ahora path) s := by
  intro t hagree res t' h x hx
  have hcero : 0 ≤ m.base := by
    rw [Montaje.base]
    omega
  simp only [Montaje.enMapeo, Set.mem_compl_iff, Set.mem_ofPred_eq] at hx
  rcases oNuevo_cases h with rfl | ⟨hfalta, ⟨madre, nombre⟩, hpartes, hmadre, hcrear⟩
  · rfl
  · cases hlibre : nodoLibre m t with
    | none =>
        rw [crearArchivo, hlibre] at hcrear
        cases hcrear
        rfl
    | some i =>
        obtain ⟨b, c, hb, hbc, hbit, hcabe, hlibreb, hlibrec⟩ :=
          hlibres ((creable_of_agree (agreeOn_enTabla htabla hagree) hpath).1
            ⟨hfalta, ⟨_, hpartes, hmadre⟩, i, nodoLibre_eq_some hlibre⟩)
        obtain ⟨d, e, hd, hdb, hde, hec, -, -, heq⟩ := crearArchivo_libres hlibre hb hbc
          (bloques_of_enMapeo (by omega) hcabe) hbit
          ((testBit_of_enMapeo htabla (by omega) (by omega) hagree).trans hlibreb)
          ((testBit_of_enMapeo htabla (by omega) (by omega) hagree).trans hlibrec)
          nombre (nodoDe m t madre) ahora
        rw [heq] at hcrear
        cases hcrear
        -- `&header_start[e]` is after both blocks
        have h0 := nodo_cero m
        have hbase := bloque_base m
        have hstart : bitmapStart = 4100 := rfl
        have hbloqued := bloque_eq m d
        have hbloquee := bloque_eq m e
        have hcabecera := headerStart_eq m e
        have hcabecerac := headerStart_eq m c
        exact conBloques_mem (nodoLibre_eq_some hlibre).1 (length_nombre hpath hpartes)
          (by omega) (by omega) (by omega) (by omega) (by omega) (by omega) (by omega) (by omega)

/-! ## A creation outside the mapping -/

/-- The memory of `s` inside the mapping, and ones outside. -/
def conUnos (m : Montaje) (s : Estado) : Estado :=
  s.conMem fun x => if 0 ≤ x ∧ x < m.mapeo then s.mem x else 1

theorem agreeOn_conUnos (m : Montaje) (s : Estado) :
    AgreeOn m.enMapeo s.mem (conUnos m s).mem := fun _ hx => if_pos hx

/-- A creation that writes inside the mapping takes a second block whose place is there. -/
theorem dosLibresDentro_of_escribeDentro {ahora : ℕ} (htabla : m.nodo 1024 ≤ m.mapeo)
    (hpath : ∀ c ∈ componentes path.cola, 1 ≤ c.length ∧ c.length ≤ 70)
    (hlibres : DosLibres m s) (hcreable : Creable m s path)
    (h : EscribeDentro m (oCreate m ahora path) s) : DosLibresDentro m s := by
  obtain ⟨b, c, hb, hbc, hc, hbit, hlibreb, hlibrec⟩ := hlibres
  have hcero : 0 ≤ m.base := by
    rw [Montaje.base]
    omega
  have h0 := nodo_cero m
  have h1024 := nodo_eq m 1024
  have hstart : bitmapStart = 4100 := rfl
  have hagree := agreeOn_conUnos m s
  -- with ones outside, a node can be created too, and the same blocks are free
  obtain ⟨hfalta, ⟨⟨madre, nombre⟩, hpartes, hmadre⟩, hlugar⟩ :=
    (creable_of_agree (agreeOn_enTabla htabla hagree) hpath).2 hcreable
  obtain ⟨i, hi⟩ : ∃ i, nodoLibre m (conUnos m s) = some i := by
    rw [← Option.ne_none_iff_exists']
    exact fun hlibre => nodoLibre_eq_none hlibre hlugar
  obtain ⟨d, e, hd, hdb, hde, hec, hdlibre, helibre, heq⟩ := crearArchivo_libres hi hb hbc hc hbit
    ((testBit_of_enMapeo htabla (by omega) (by omega) hagree).trans hlibreb)
    ((testBit_of_enMapeo htabla (by omega) (by omega) hagree).trans hlibrec) nombre
    (nodoDe m (conUnos m s) madre) ahora
  rw [testBit_of_enMapeo htabla (by omega) (by omega) hagree] at hdlibre helibre
  refine ⟨d, e, hd, hde, by omega, ?_, hdlibre, helibre⟩
  by_contra hfuera
  have hbloquee := bloque_eq m e
  have hcabecera := headerStart_eq m e
  have hbase := bloque_base m
  -- the last byte of the place is outside, and is cleared
  have hfin := h _ hagree 0 _ ((eval_oNuevo_of_falta hfalta hpartes hmadre).trans heq)
    (headerStart e + 4095)
    (by simp only [Montaje.enMapeo, Set.mem_compl_iff, Set.mem_ofPred_eq]; omega)
  rw [conBloques_cero (nodoLibre_eq_some hi).1 (by omega) (by omega) (by omega) (by omega)] at hfin
  have huno : (conUnos m s).mem (headerStart e + 4095) = 1 := if_neg (by omega)
  rw [huno] at hfin
  exact absurd hfin (by decide)

/-- On a disk that has the whole table of nodes, `o_mkdir` returns 0 exactly when nothing is at
the path, its directory resolves and a slot is not in use; then it creates a node there, and
otherwise it leaves the table as it was; and it writes inside the mapping. With two free data
blocks `o_create` does the same if and only if two of them are free whose places are inside the
mapping, or nothing can be created at the path. -/
theorem creaNodo_altas_iff (m : Montaje) (s : Estado) (hs : TablaValida m s)
    (htabla : m.nodo 1024 ≤ m.mapeo) (path : Ruta)
    (hpath : ∀ c ∈ componentes path.cola, 1 ≤ c.length ∧ c.length ≤ 70) :
    CreaNodoDentro m path (oMkdir m path) s ∧
      (DosLibres m s → ∀ ahora, CreaNodoDentro m path (oCreate m ahora path) s ↔
        (Creable m s path → DosLibresDentro m s)) := by
  refine ⟨⟨creaNodo_oMkdir hs hpath, escribeDentro_oMkdir htabla hpath⟩,
    fun hlibres ahora => ⟨fun h hcreable => ?_, fun h => ?_⟩⟩
  · exact dosLibresDentro_of_escribeDentro htabla hpath hlibres hcreable h.dentro
  · exact ⟨creaNodo_oCreate hs hlibres hpath ahora, escribeDentro_oCreate htabla hpath h ahora⟩

/-- On a disk of 1200 blocks with one file, `/d` can be created in both ways. -/
theorem creaNodo_altas_iff_rutaD :
    CreaNodoDentro montajeChico rutaD (oMkdir montajeChico rutaD) discoConArchivo ∧
      ∀ ahora, CreaNodoDentro montajeChico rutaD (oCreate montajeChico ahora rutaD)
        discoConArchivo :=
  have h := creaNodo_altas_iff montajeChico discoConArchivo tablaValida_discoConArchivo
    (by decide) rutaD (by decide)
  ⟨h.1, fun ahora => (h.2 dosLibres_discoConArchivo ahora).2 fun _ =>
    ⟨1026, 1027, by decide +kernel⟩⟩

/-- A disk of 1200 blocks without nodes, where the last two blocks are free. -/
def discoCasiLleno : Estado :=
  ⟨store (fill (fun _ => 0) bitmapStart 149 255) (bitmapStart + 149) [63], 0, false⟩

theorem estado_discoCasiLleno (k : ℕ) : discoCasiLleno.estado montajeChico k = borrado := by
  have hdir := nodo_eq montajeChico k
  have h0 : montajeChico.nodo 0 = 8200 := by decide
  have hstart : bitmapStart = 4100 := rfl
  have hstore : discoCasiLleno.estado montajeChico k =
      store (fill (fun _ => 0) bitmapStart 149 255) (bitmapStart + 149) [63]
        (dirEstado montajeChico k) := rfl
  rw [hstore, store_of_disjoint (by rw [List.length_singleton, dirEstado]; omega),
    fill_of_disjoint (by rw [dirEstado]; omega)]
  rfl

/-- The second free block is 1199, and its place is after the end of the mapping. -/
theorem not_creaNodo_altas : ¬ ∀ (m : Montaje) (s : Estado), TablaValida m s →
    m.nodo 1024 ≤ m.mapeo → ∀ path : Ruta,
      (∀ c ∈ componentes path.cola, 1 ≤ c.length ∧ c.length ≤ 70) → DosLibres m s →
        ∀ ahora, CreaNodoDentro m path (oCreate m ahora path) s := by
  intro h
  have hvalida : TablaValida montajeChico discoCasiLleno :=
    ⟨fun i _ hi => absurd (estado_discoCasiLleno i) hi,
      fun i _ _ _ hi => absurd (estado_discoCasiLleno i) hi,
      fun i _ hi => absurd (estado_discoCasiLleno i) hi⟩
  have hlibres : DosLibres montajeChico discoCasiLleno := ⟨1198, 1199, by decide +kernel⟩
  have hlibre : LibreDesde montajeChico discoCasiLleno 0 := fun k _ => estado_discoCasiLleno k
  have hcreable : Creable montajeChico discoCasiLleno rutaD :=
    ⟨hlibre.nodoDe_eq_neg_one [] [100] rfl fun k hk => absurd hk (Nat.not_lt_zero k),
      ⟨([], [100]), by decide⟩, 0, by decide, estado_discoCasiLleno 0⟩
  obtain ⟨b, c, hb, hbc, -, hcabe, hlibre, -⟩ :=
    dosLibresDentro_of_escribeDentro (by decide) (by decide) hlibres hcreable
      (h montajeChico discoCasiLleno hvalida (by decide) rutaD (by decide) hlibres 0).dentro
  have hbase : montajeChico.base = 1026 := by decide
  have hmapeo : montajeChico.mapeo = 4915200 := by decide
  rw [headerStart, tamanioHeader, hmapeo] at hcabe
  rw [hbase] at hb
  have hocupado : discoCasiLleno.testBit montajeChico b = true := by
    rcases lt_or_ge b 1192 with hlt | hge
    · apply testBit_of_unos
      rw [discoCasiLleno]
      dsimp only
      rw [store_of_disjoint (.inl (by omega)), fill_of_mem (by omega) (by omega)]
    · have hultimos : ∀ k < 6, discoCasiLleno.testBit montajeChico (1192 + (k : ℕ)) = true := by
        decide +kernel
      have hbit := hultimos (b - 1192).toNat (by omega)
      rwa [Int.toNat_of_nonneg (by omega), add_sub_cancel] at hbit
  rw [hlibre] at hocupado
  cases hocupado

end Sac
