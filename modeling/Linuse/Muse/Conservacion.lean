import Linuse.Muse.Invariantes

/-!
# Invariants of the server

`Invariante` lists what an invariant has to be kept by: bringing a page back from
swap, giving a frame number to a page, a new segment, and the list of a process that
gets a segment. Every request then keeps it (`Invariante.keeps_llamada`), if it says
that tables list common segments at their identifiers.
-/

namespace Muse

open Memory Marked

variable {cfg : Configuracion} {ok : Estado → Suceso → Prop} {I J : Estado → Prop}

/-- What an invariant of the server is kept by. -/
structure Invariante (cfg : Configuracion) (ok : Estado → Suceso → Prop) (I : Estado → Prop) : Prop
    extends Conservado cfg ok I where
  traer : ∀ p, Triple ok (fun s => I s ∧ Ausente p s) (traerPagina cfg p) fun _ => I
  numerar : ∀ (s : Estado) p (f : ℕ), Ausente p s → I s →
    I (s.modificarPagina p fun pag => { pag with numeroFrame := f })
  segmento : ∀ (s : Estado) seg, I s → I (s.agregarSegmento seg)
  tabla : ∀ (s : Estado) sd segmentos g, I s → s.tablasSegmentos.get sd = some segmentos →
    (rasgos s)[g]? = some ((segmentos.length : ℤ), true) → I (s.ponerTabla sd (segmentos ++ [g]))

/-- A process has this list of segments, and this segment is the one that comes after
them. -/
def PorListar (sd : ℕ) (segmentosProceso : List ℕ) (g : ℕ) (s : Estado) : Prop :=
  s.tablasSegmentos.get sd = some segmentosProceso ∧
    (rasgos s)[g]? = some ((segmentosProceso.length : ℤ), true)

theorem porListar_deTablas (sd : ℕ) (segmentosProceso : List ℕ) (g : ℕ) :
    DeTablas (PorListar sd segmentosProceso g) := by
  rintro s s' ht hr ⟨hget, hg⟩
  exact ⟨by rw [ht]; exact hget, by rw [hr]; exact hg⟩

theorem rasgos_agregarSegmento (s : Estado) (seg : Segmento) :
    rasgos (s.agregarSegmento seg) = rasgos s ++ [(seg.id, seg.esComun)] := by
  rw [rasgos, Estado.agregarSegmento, List.map_append]
  rfl

namespace Invariante

theorem and (h : Invariante cfg ok I) (h' : Invariante cfg ok J) :
    Invariante cfg ok fun s => I s ∧ J s where
  toConservado := h.toConservado.and h'.toConservado
  traer p := by
    refine triple_conseq (triple_and (h.traer p) (h'.traer p)) ?_ fun _ _ hs => hs
    rintro s ⟨⟨hI, hJ⟩, hp⟩
    exact ⟨⟨hI, hp⟩, hJ, hp⟩
  numerar s p f hp hs := ⟨h.numerar s p f hp hs.1, h'.numerar s p f hp hs.2⟩
  segmento s seg hs := ⟨h.segmento s seg hs.1, h'.segmento s seg hs.2⟩
  tabla s sd segmentos g hs hget hg :=
    ⟨h.tabla s sd segmentos g hs.1 hget hg, h'.tabla s sd segmentos g hs.2 hget hg⟩

/-! ## `musemalloc` -/

theorem keeps_crearSegmento (h : Invariante cfg ok I) (tamanio : ℤ) (sd : ℕ) :
    Keeps ok I (crearSegmento cfg tamanio sd) := by
  refine triple_read fun t => triple_orFail_bind fun segmentosProceso hget => ?_
  have hbase : Keeps ok (fun s => I s ∧ s = t) (baseNueva cfg segmentosProceso) := by
    refine keeps_ite (fun _ => keeps_pure _) fun _ => ?_
    refine keeps_bind (keeps_bind (keeps_obtener _ _) fun g => ?_) fun _ => keeps_pure _
    exact keeps_bind (keeps_segmento g) fun _ => keeps_pure _
  have hIK := h.toConservado.and
    (porListar_deTablas sd segmentosProceso t.segmentos.length).conservado
  refine triple_bind hbase fun base => ?_
  -- The new segment keeps its place, and the process its list, until the list gets it.
  refine triple_bind (Q := fun _ s => I s ∧ PorListar sd segmentosProceso t.segmentos.length s)
    (triple_modify _ ?_) fun _ => ?_
  · rintro s ⟨hs, rfl⟩
    refine ⟨h.segmento s _ hs, hget, ?_⟩
    rw [rasgos_agregarSegmento, List.getElem?_append_right (by simp [rasgos])]
    simp [rasgos]
  refine triple_bind (hIK.keeps_asignarPrimeraPaginaSegmento _ _) fun sePartio => ?_
  refine triple_bind (hIK.keeps_modificarUltimoHeap _ _) fun _ => ?_
  refine triple_bind (hIK.keeps_asignarPaginas _ _ _) fun _ => ?_
  refine triple_bind (Q := fun _ => I) (triple_modify _ ?_) fun _ => keeps_pure _
  intro s hs
  exact h.tabla s sd segmentosProceso _ hs.1 hs.2.1 hs.2.2

theorem keeps_reutilizar (h : Conservado cfg ok I) (segmentosProceso : List ℕ) (tamanio : ℤ) :
    Keeps ok I (reutilizar cfg segmentosProceso tamanio) := by
  refine keeps_bind (keeps_gets _) fun s => keeps_elim (fun _ => keeps_pure _) fun g _ => ?_
  refine keeps_bind (keeps_segmento g) fun seg => ?_
  refine keeps_elim (fun _ => keeps_pure _) fun heap _ => ?_
  exact keeps_bind (h.keeps_direccionDatos g heap) fun _ => keeps_pure _

theorem keeps_buscarExtendible (segmentosProceso : List ℕ) (tamanio : ℤ) (posiciones : List ℕ) :
    Keeps ok I (buscarExtendible cfg segmentosProceso tamanio posiciones) := by
  have hes : ∀ j, Keeps ok I (esExtendible cfg segmentosProceso j tamanio) := by
    intro j
    refine keeps_bind (keeps_obtener _ _) fun ultimo => keeps_bind (keeps_segmento _) fun _ => ?_
    refine keeps_bind (keeps_obtener _ _) fun g => keeps_bind (keeps_segmento _) fun seg => ?_
    refine keeps_ite (fun _ => keeps_pure _) fun _ => ?_
    exact keeps_bind (keeps_obtener _ _) fun heap => keeps_pure _
  induction posiciones with
  | nil => exact keeps_pure _
  | cons j posiciones ih =>
      refine keeps_bind (hes j) fun extendible => ?_
      exact keeps_ite (fun _ => keeps_pure _) fun _ => ih

theorem keeps_enSegmentoNuevo (h : Invariante cfg ok I) (tamanio : ℤ) (sd : ℕ) :
    Keeps ok I (enSegmentoNuevo cfg tamanio sd) := by
  refine keeps_bind (h.keeps_crearSegmento tamanio sd) fun g => ?_
  refine keeps_bind (keeps_segmento g) fun seg => keeps_bind (keeps_obtener _ _) fun heap => ?_
  exact h.keeps_direccionDatos g heap

theorem keeps_extender (h : Conservado cfg ok I) (g : ℕ) (tamanio : ℤ) :
    Keeps ok I (extender cfg g tamanio) := by
  refine keeps_bind (h.keeps_extenderSegmento g tamanio) fun _ => ?_
  refine keeps_bind (keeps_segmento g) fun seg => keeps_bind (keeps_obtener _ _) fun heap => ?_
  exact h.keeps_direccionDatos g heap

theorem keeps_musemalloc (h : Invariante cfg ok I) (tamanio : ℤ) (sd : ℕ) :
    Keeps ok I (musemalloc cfg tamanio sd) := by
  have hprimer : Keeps ok I (enPrimerSegmento cfg tamanio sd) := by
    refine keeps_bind (h.keeps_crearSegmento tamanio sd) fun g => ?_
    refine keeps_bind (keeps_segmento g) fun seg => keeps_bind (keeps_obtener _ _) fun p => ?_
    exact keeps_bind (h.posicion p) fun _ => keeps_pure _
  have hen : ∀ l, Keeps ok I (enSegmentos cfg l tamanio sd) := by
    intro l
    refine keeps_bind (keeps_reutilizar h.toConservado l tamanio) fun reutilizada => ?_
    refine keeps_elim (fun _ => ?_) fun _ _ => keeps_pure _
    refine keeps_bind (keeps_buscarExtendible l _ _) fun extendible => ?_
    refine keeps_elim (fun _ => h.keeps_enSegmentoNuevo tamanio sd) fun g _ => ?_
    exact keeps_extender h.toConservado g tamanio
  refine keeps_bind (keeps_gets _) fun s => keeps_elim (fun _ => keeps_pure _) fun l _ => ?_
  refine keeps_ite (fun _ => ?_) fun _ => ?_
  · exact keeps_bind hprimer fun _ => keeps_pure _
  · exact keeps_bind (hen l) fun _ => keeps_pure _

/-! ## `musefree` -/

theorem keeps_reescribirMetadata (h : Conservado cfg ok I) (seg : Segmento) (i : ℤ)
    (heap : HeapLista) : Keeps ok I (reescribirMetadata cfg seg i heap) := by
  refine keeps_bind (keeps_obtener _ _) fun p => keeps_bind (h.posicion p) fun pos => ?_
  refine keeps_ite (fun _ => ?_) fun _ => h.keeps_copiar _ _
  refine keeps_bind (keeps_obtener _ _) fun q => keeps_bind (h.keeps_copiar _ _) fun _ => ?_
  exact keeps_bind (h.posicion q) fun _ => h.keeps_copiar _ _

theorem keeps_musefree (h : Conservado cfg ok I) (sd : ℕ) (dir : ℤ) :
    Keeps ok I (musefree cfg sd dir) := by
  refine keeps_bind (keeps_gets _) fun s => keeps_elim (fun _ => keeps_pure _) fun l _ => ?_
  refine keeps_elim (fun _ => keeps_pure _) fun g _ => keeps_bind (keeps_segmento g) fun seg => ?_
  refine keeps_ite (fun _ => keeps_pure _) fun _ => keeps_bind (keeps_obtener _ _) fun p => ?_
  refine keeps_bind (keeps_pagina p) fun pag => keeps_bind (keeps_gets _) fun s => ?_
  refine keeps_bind (h.posicion p) fun _ => keeps_bind (keeps_orFail _) fun i => ?_
  refine keeps_bind (keeps_obtener _ _) fun heap => ?_
  refine keeps_bind (keeps_modify _ fun s hs => h.datos s g _ (fun _ => ⟨rfl, rfl, rfl⟩) hs)
    fun _ => ?_
  exact keeps_bind (keeps_reescribirMetadata h seg _ heap) fun _ => keeps_pure _

/-! ## `museget` and `musecpy` -/

/-- The page that is brought for a segment of the process is the one of its table. -/
theorem triple_traerAMemoriaPrincipal (h : Invariante cfg ok I) (seg : Segmento) (i : ℤ) (sd : ℕ) :
    Triple ok
      (fun s => (I s ∧ Vigente seg sd s) ∧ ∀ p, elemento seg.tablaPaginas i = some p → Ausente p s)
      (traerAMemoriaPrincipal cfg i seg.id sd)
      fun _ s => (I s ∧ Vigente seg sd s) ∧
        ∀ p, elemento seg.tablaPaginas i = some p → Presente p s := by
  refine triple_read fun t => triple_orFail_bind fun segmentos hget => ?_
  refine triple_bind (triple_obtener segmentos seg.id) fun g => ?_
  refine triple_bind (triple_segmento g) fun seg' => ?_
  refine triple_bind (triple_obtener seg'.tablaPaginas i) fun p => ?_
  rintro s a s' marcas ⟨⟨⟨⟨⟨hI, haus⟩, rfl⟩, hg⟩, hseg⟩, hp⟩ hr hok
  obtain ⟨segmentos', g', hget', hg', hseg'⟩ := hI.2
  cases hget.symm.trans hget'
  cases hg.symm.trans hg'
  cases hseg.symm.trans hseg'
  have hvig := (vigente_deSegmentos seg sd).keeps_traerPagina cfg p s a s' marcas hI.2 hr hok
  refine ⟨⟨h.traer p s a s' marcas ⟨hI.1, haus p hp⟩ hr hok, hvig⟩, fun p' hp' => ?_⟩
  cases hp.symm.trans hp'
  exact triple_traerPagina_presente (P := fun _ => True) cfg p s a s' marcas trivial hr hok

theorem modificarPagina_of_presente {s : Estado} {p : ℕ} (h : Presente p s) :
    (s.modificarPagina p fun pag => { pag with presencia := true }) = s := by
  have hpaginas : s.paginas.modify p (fun pag => { pag with presencia := true }) = s.paginas := by
    apply List.ext_getElem?
    intro q
    have hq := modificarPagina_getElem? s p q fun pag => { pag with presencia := true }
    rw [Estado.modificarPagina] at hq
    rw [hq]
    cases hpag : s.paginas[q]? with
    | none => rfl
    | some pag =>
        rw [Option.map_some]
        split_ifs with heq
        · subst heq
          rw [← h pag hpag]
        · rfl
  rw [Estado.modificarPagina, hpaginas]

/-- Giving a frame keeps what bringing a page back needs. -/
theorem keeps_asignarUnFrame_vigente (h : Conservado cfg ok I) (seg : Segmento) (sd p : ℕ) :
    Keeps ok (fun s => (I s ∧ Vigente seg sd s) ∧ Ausente p s) (asignarUnFrame cfg) :=
  (h.asignar.and ((vigente_deSegmentos seg sd).keeps_asignarUnFrame cfg)).and
    (keeps_ausente cfg p)

/-- The page that is read is in memory. -/
theorem triple_frameLeido (h : Invariante cfg ok I) {seg : Segmento} {i : ℤ} {p : ℕ}
    (hp : elemento seg.tablaPaginas i = some p) (sd : ℕ) :
    Triple ok (fun s => I s ∧ Vigente seg sd s) (frameLeido cfg i seg sd p)
      fun _ s => (I s ∧ Vigente seg sd s) ∧ Presente p s := by
  refine triple_bind (triple_pagina p) fun pag => triple_ite (fun hpres => ?_) fun hpres => ?_
  · refine triple_pure _ ?_
    rintro s ⟨hs, hpag⟩
    refine ⟨hs, fun pag' hpag' => ?_⟩
    cases hpag.symm.trans hpag'
    exact hpres
  · refine triple_conseq
      (triple_bind (keeps_asignarUnFrame_vigente h.toConservado seg sd p) fun f => ?_) ?_
      fun _ _ hs => hs
    · refine triple_bind (Q := fun _ s => (I s ∧ Vigente seg sd s) ∧ Presente p s) ?_
        fun _ => triple_pure _ fun _ hs => hs
      refine triple_conseq (h.triple_traerAMemoriaPrincipal seg i sd) ?_ ?_
      · rintro s ⟨hs, haus⟩
        refine ⟨hs, fun p' hp' => ?_⟩
        cases hp.symm.trans hp'
        exact haus
      · rintro _ s ⟨hs, hpres⟩
        exact ⟨hs, hpres p hp⟩
    · rintro s ⟨hs, hpag⟩
      exact ⟨hs, pag, hpag, by simpa using hpres⟩

theorem keeps_tocarFrame_vigente (h : Invariante cfg ok I) (seg : Segmento) (sd : ℕ) (i : ℤ)
    {f : Frame → Frame} (hf : ∀ x, (f x).estaLibre = x.estaLibre) :
    Keeps ok (fun s => I s ∧ Vigente seg sd s) (tocarFrame i f) :=
  (h.keeps_tocarFrame i hf).and ((vigente_deSegmentos seg sd).keeps_tocarFrame i f)

theorem keeps_leerPagina (h : Invariante cfg ok I) (seg : Segmento) (sd : ℕ) (i : ℤ) :
    Keeps ok (fun s => I s ∧ Vigente seg sd s) (leerPagina cfg seg sd i) := by
  refine triple_bind (triple_obtener _ _) fun p => ?_
  refine triple_bind (Q := fun _ s => (I s ∧ Vigente seg sd s) ∧ Presente p s) ?_ fun frame => ?_
  · rintro s a s' marcas ⟨hs, hp⟩
    exact h.triple_frameLeido hp sd s a s' marcas hs
  · refine triple_bind (Q := fun _ s => I s ∧ Vigente seg sd s) (triple_modify _ ?_) fun _ => ?_
    · rintro s ⟨hs, hpres⟩
      rw [modificarPagina_of_presente hpres]
      exact hs
    · refine keeps_bind (keeps_pagina p) fun pag => ?_
      exact keeps_bind (h.keeps_tocarFrame_vigente seg sd _ fun _ => rfl) fun _ => keeps_gets _

theorem keeps_leerSegmento (h : Invariante cfg ok I) {seg : Segmento} (hcomun : seg.esComun = true)
    (sd : ℕ) (src : ℤ) (n : ℕ) :
    Keeps ok (fun s => I s ∧ Vigente seg sd s) (leerSegmento cfg seg src n sd) := by
  have hleer : ∀ i k, Keeps ok (fun s => I s ∧ Vigente seg sd s) (leerPaginas cfg seg sd i k) := by
    intro i k
    refine keeps_fold fun leido j _ => ?_
    exact keeps_bind (h.keeps_leerPagina seg sd _) fun _ => keeps_pure _
  refine keeps_ite (fun _ => ?_) fun _ => keeps_pure _
  have hmmap : ¬ seg.esComun = false := by simp [hcomun]
  refine keeps_ite (fun hc => absurd hc hmmap) fun _ => ?_
  exact keeps_bind (hleer _ _) fun _ => keeps_pure _

/-- An identifier that is found is the one of a segment of the list. -/
theorem vigente_of_idSegmento {s : Estado} (hT : Tablas s) {sd g : ℕ} {segmentos : List ℕ}
    {seg : Segmento} {k : ℤ} (hget : s.tablasSegmentos.get sd = some segmentos)
    (hg : elemento segmentos k = some g) (hseg : s.segmentos[g]? = some seg) :
    seg.esComun = true ∧ Vigente seg sd s := by
  obtain ⟨hk, hj⟩ := getElem?_of_elemento hg
  obtain ⟨hid, hcomun⟩ := hT.rasgos_eq hget hj hseg
  rw [Int.toNat_of_nonneg hk] at hid
  exact ⟨hcomun, segmentos, g, hget, by rw [hid]; exact hg, hseg⟩

theorem keeps_museget (h : Invariante cfg ok I) (hT : ∀ s, I s → Tablas s) (src : ℤ) (n sd : ℕ) :
    Keeps ok I (museget cfg src n sd) := by
  refine triple_read fun t => triple_elim (fun _ => ?_) fun segmentos hget => ?_
  · exact triple_pure _ fun s hs => hs.1
  refine triple_elim (fun _ => triple_pure _ fun s hs => hs.1) fun g hg => ?_
  refine triple_bind (triple_segmento g) fun seg => ?_
  rintro s a s' marcas ⟨⟨hs, rfl⟩, hseg⟩ hr hok
  obtain ⟨hcomun, hvig⟩ := vigente_of_idSegmento (hT s hs) hget hg hseg
  exact (h.keeps_leerSegmento hcomun sd src n s a s' marcas ⟨hs, hvig⟩ hr hok).1

theorem elemento_obtenerIndicePagina {s : Estado} {tabla : List ℕ} {pag : Pagina} {p : ℕ}
    (h : elemento tabla (obtenerIndicePagina s tabla pag) = some p) : s.paginas[p]? = some pag := by
  rw [obtenerIndicePagina] at h
  cases hi : tabla.findIdx? (fun q => s.paginas[q]? == some pag) with
  | none =>
      rw [hi] at h
      exact absurd h (by simp [indice, elemento])
  | some i =>
      obtain ⟨hlt, hpag, _⟩ := List.findIdx?_eq_some_iff_getElem.1 hi
      rw [hi, indice, Option.elim_some, elemento_natCast, List.getElem?_eq_getElem hlt,
        Option.some.injEq] at h
      rw [← h]
      exact eq_of_beq hpag

theorem keeps_traerCopiada (h : Invariante cfg ok I) (seg : Segmento) (p sd : ℕ) :
    Triple ok (fun s => (I s ∧ Vigente seg sd s) ∧ Ausente p s) (traerCopiada cfg seg p sd)
      fun _ s => I s ∧ Vigente seg sd s := by
  refine triple_bind (keeps_asignarUnFrame_vigente h.toConservado seg sd p) fun f => ?_
  refine triple_bind (Q := fun _ s => (I s ∧ Vigente seg sd s) ∧ Ausente p s)
    (triple_modify _ ?_) fun _ => ?_
  · rintro s ⟨⟨hs, hvig⟩, haus⟩
    refine ⟨⟨h.numerar s p f haus hs, vigente_deSegmentos seg sd s _ rfl rfl hvig⟩, ?_⟩
    obtain ⟨pag, hpag, hpres⟩ := haus
    refine ⟨{ pag with numeroFrame := f }, ?_, hpres⟩
    rw [modificarPagina_getElem?, hpag, Option.map_some, if_pos rfl]
  refine triple_bind (triple_pagina p) fun pag => triple_read fun t => ?_
  refine triple_bind (Q := fun _ s => I s ∧ Vigente seg sd s) ?_ fun _ =>
    triple_pure _ fun _ hs => hs
  refine triple_conseq (h.triple_traerAMemoriaPrincipal seg _ sd) ?_ fun _ _ hs => hs.1
  rintro s ⟨⟨⟨hs, pag', hpag', hpres⟩, hpag⟩, rfl⟩
  cases hpag'.symm.trans hpag
  exact ⟨hs, fun q hq => ⟨pag, elemento_obtenerIndicePagina hq, hpres⟩⟩

theorem keeps_copiarPaginas (h : Invariante cfg ok I) (seg : Segmento) (sd fuel : ℕ) (i : ℤ)
    (src : List UInt8) :
    Keeps ok (fun s => I s ∧ Vigente seg sd s) (copiarPaginas cfg seg sd fuel i src) := by
  have hframe : ∀ p, Keeps ok (fun s => I s ∧ Vigente seg sd s) (frameCopiado cfg seg sd p) := by
    intro p
    refine triple_bind (triple_pagina p) fun pag => triple_ite (fun _ => ?_) fun hpres => ?_
    · exact triple_pure _ fun s hs => hs.1
    · refine triple_conseq (h.keeps_traerCopiada seg p sd) ?_ fun _ _ hs => hs
      rintro s ⟨hs, hpag⟩
      exact ⟨hs, pag, hpag, by simpa using hpres⟩
  induction fuel generalizing i src with
  | zero => exact triple_fail
  | succ fuel ih =>
      refine keeps_ite (fun _ => keeps_pure _) fun _ => keeps_bind (keeps_obtener _ _) fun p => ?_
      refine keeps_bind (hframe p) fun frame => keeps_bind (keeps_pagina p) fun pag => ?_
      refine keeps_bind (keeps_modify _ fun s hs => ?_) fun _ => ?_
      · exact ⟨h.memoria s _ _ hs.1, vigente_deSegmentos seg sd s _ rfl rfl hs.2⟩
      · exact keeps_bind (h.keeps_tocarFrame_vigente seg sd _ fun _ => rfl) fun _ => ih _ _

theorem keeps_buscarHeapDestino (seg : Segmento) (direccion n : ℤ) (metadatas : List HeapLista) :
    Keeps ok I (buscarHeapDestino cfg seg direccion n metadatas) := by
  have hlimites : ∀ heap, Keeps ok I (limitesHeap cfg seg heap n) := by
    intro heap
    refine keeps_bind (keeps_obtener _ _) fun q => keeps_bind (keeps_pagina q) fun pag => ?_
    refine keeps_bind (keeps_obtener _ _) fun pf => keeps_bind (keeps_pagina pf) fun pag => ?_
    refine keeps_bind (keeps_obtener _ _) fun p => ?_
    exact keeps_bind (keeps_pagina p) fun _ => keeps_pure _
  induction metadatas with
  | nil => exact keeps_pure _
  | cons heap metadatas ih =>
      refine keeps_bind (hlimites heap) fun x => ?_
      exact keeps_ite (fun _ => keeps_pure _) fun _ => ih

theorem keeps_copiarEnHeap (h : Invariante cfg ok I) (seg : Segmento) (heap : HeapLista)
    (direccion : ℤ) (src : List UInt8) (sd : ℕ) :
    Keeps ok (fun s => I s ∧ Vigente seg sd s) (copiarEnHeap cfg seg heap direccion src sd) := by
  refine keeps_bind (keeps_obtener _ _) fun p => keeps_bind (keeps_pagina p) fun pag => ?_
  refine keeps_ite (fun _ => triple_fail) fun _ => ?_
  refine keeps_bind (keeps_modify _ fun s hs => ?_) fun _ => ?_
  · exact ⟨h.memoria s _ _ hs.1, vigente_deSegmentos seg sd s _ rfl rfl hs.2⟩
  refine keeps_bind (h.keeps_tocarFrame_vigente seg sd _ fun _ => rfl) fun _ => ?_
  exact keeps_bind (h.keeps_copiarPaginas seg sd _ _ _) fun _ => keeps_pure _

theorem keeps_musecpy (h : Invariante cfg ok I) (hT : ∀ s, I s → Tablas s) (dst : ℤ)
    (src : List UInt8) (sd : ℕ) : Keeps ok I (musecpy cfg dst src sd) := by
  refine triple_read fun t => triple_elim (fun _ => ?_) fun segmentos hget => ?_
  · exact triple_pure _ fun s hs => hs.1
  refine triple_elim (fun _ => triple_pure _ fun s hs => hs.1) fun g hg => ?_
  refine triple_bind (triple_segmento g) fun seg => ?_
  rintro s a s' marcas ⟨⟨hs, rfl⟩, hseg⟩
  obtain ⟨j, hj⟩ := List.getElem?_of_mem (List.mem_of_find?_eq_some hg)
  obtain ⟨hcomun, hvig⟩ := vigente_of_idSegmento (hT s hs) hget
    ((elemento_natCast segmentos j).trans hj) hseg
  have hcopiar : Keeps ok (fun s => I s ∧ Vigente seg sd s) (do
      let destino ← buscarHeapDestino cfg seg (signed dst) src.length seg.metadatas
      destino.elim (pure (-1)) fun heap => copiarEnHeap cfg seg heap dst src sd) := by
    refine keeps_bind (keeps_buscarHeapDestino seg _ _ _) fun destino => ?_
    exact keeps_elim (fun _ => keeps_pure _) fun heap _ => h.keeps_copiarEnHeap seg heap dst src sd
  rw [if_pos hcomun]
  intro hr hok
  exact (hcopiar s a s' marcas ⟨hs, hvig⟩ hr hok).1

/-! ## Requests -/

/-- Every request but `museinit` keeps an invariant. -/
theorem keeps_llamada (h : Invariante cfg ok I) (hT : ∀ s, I s → Tablas s) (sd : ℕ)
    {llamada : Llamada} (hinit : llamada ≠ .init) : Keeps ok I (atenderLlamada cfg sd llamada) := by
  cases llamada with
  | init => exact absurd rfl hinit
  | close =>
      have hclose : Keeps ok I (museclose cfg sd) :=
        keeps_ite (fun _ => triple_fail) fun _ => keeps_pure _
      exact keeps_bind hclose fun _ => keeps_pure _
  | alloc tam => exact keeps_bind (h.keeps_musemalloc _ sd) fun _ => keeps_pure _
  | free dir => exact keeps_bind (keeps_musefree h.toConservado sd _) fun _ => keeps_pure _
  | get dst src n => exact keeps_bind (h.keeps_museget hT _ n sd) fun _ => keeps_pure _
  | cpy dst src n => exact keeps_bind (h.keeps_musecpy hT _ _ sd) fun _ => keeps_pure _
  | map path length flags => exact keeps_pure _
  | sync addr len => exact keeps_pure _
  | unmap dir => exact keeps_pure _

end Invariante

/-! ## The tables are an invariant -/

theorem tablas_invariante : Invariante cfg ok Tablas where
  toConservado := tablas_deTablas.conservado
  traer p := triple_conseq (tablas_deTablas.deSegmentos.keeps_traerPagina cfg p)
    (fun _ hs => hs.1) fun _ _ hs => hs
  numerar s p f _ hs := tablas_deTablas s _ rfl rfl hs
  segmento s seg hs := by
    intro sd segmentos j g hget hj
    rw [rasgos_agregarSegmento]
    exact (List.getElem?_append_left (List.getElem?_eq_some_iff.1 (hs sd _ j g hget hj)).1).trans
      (hs sd _ j g hget hj)
  tabla s sd segmentos g hs hget hg := by
    intro sd' segmentos' j g' hget' hj
    rw [Estado.ponerTabla, Dictionary.get_put] at hget'
    split_ifs at hget' with heq
    · cases hget'
      rcases lt_or_ge j segmentos.length with hlt | hge
      · rw [List.getElem?_append_left hlt] at hj
        exact hs sd segmentos j g' hget hj
      · rw [List.getElem?_append_right hge, List.getElem?_singleton] at hj
        split_ifs at hj with hzero
        cases hj
        have hlen : j = segmentos.length := by omega
        subst hlen
        exact hg
    · exact hs sd' segmentos' j g' hget' hj

theorem keeps_museinit {I : Estado → Prop} {sd : ℕ} (h : ∀ s, I s →
    s.tablasSegmentos.get sd = none → I (s.ponerTabla sd [])) : Keeps ok I (museinit sd) := by
  refine keeps_bind (keeps_gets _) fun s => ?_
  refine keeps_bind (keeps_modify _ fun s hs => ?_) fun _ => keeps_pure _
  split_ifs with hget
  · exact hs
  · exact h s hs (Option.not_isSome_iff_eq_none.1 hget)

/-- One event keeps an invariant that the events on clients and `museinit` keep. -/
theorem keeps_paso (h : Invariante cfg ok I) (hT : ∀ s, I s → Tablas s) (e : Evento)
    (hclientes : ∀ (s : Estado) l, I s → I { s with clientSocket := l })
    (hinit : ∀ (s : Estado) sd, e = .pide sd .init → I s → s.tablasSegmentos.get sd = none →
      I (s.ponerTabla sd [])) : Keeps ok I (paso cfg e) := by
  cases e with
  | conecta sd =>
      refine keeps_bind (keeps_gets _) fun s => keeps_ite (fun _ => triple_fail) fun _ => ?_
      exact keeps_bind (keeps_modify _ fun s hs => hclientes s _ hs) fun _ => keeps_pure _
  | desconecta i =>
      refine keeps_bind (keeps_gets _) fun s => keeps_ite (fun _ => triple_fail) fun _ => ?_
      exact keeps_bind (keeps_modify _ fun s hs => hclientes s _ hs) fun _ => keeps_pure _
  | pide sd llamada =>
      refine keeps_bind (keeps_gets _) fun s => keeps_ite (fun _ => triple_fail) fun _ => ?_
      by_cases hll : llamada = .init
      · subst hll
        exact keeps_bind (keeps_museinit fun s => hinit s sd rfl) fun _ => keeps_pure _
      · exact h.keeps_llamada hT sd hll

theorem tablas_ponerTabla_nil {s : Estado} {sd : ℕ} (hs : Tablas s) :
    Tablas (s.ponerTabla sd []) := by
  intro sd' segmentos j g hget hj
  rw [Estado.ponerTabla, Dictionary.get_put] at hget
  split_ifs at hget with heq
  · cases hget
    simp at hj
  · exact hs sd' segmentos j g hget hj

theorem tablas_inicial (cfg : Configuracion) : Tablas (inicial cfg) := by
  intro sd segmentos j g hget _
  rw [inicial, Dictionary.get_empty] at hget
  cases hget

/-- An invariant holds in every state of the runs whose marks are all allowed, with the
tables listing common segments. -/
theorem alcanza_invariante (h : Invariante cfg ok I)
    (hclientes : ∀ (s : Estado) l, I s → I { s with clientSocket := l })
    (hinit : ∀ (s : Estado) sd, I s → s.tablasSegmentos.get sd = none → I (s.ponerTabla sd []))
    (hinicial : I (inicial cfg)) {tr : List (Transition.Step Estado Evento)} {s : Estado}
    (hrun : Alcanza cfg tr s) (hmarcas : ∀ x ∈ tr, SinMarcas cfg ok x) : I s ∧ Tablas s := by
  refine hrun.invariant (fun s => I s ∧ Tablas s) (SinMarcas cfg ok)
    ⟨hinicial, tablas_inicial cfg⟩ ?_ hmarcas
  rintro s e s' hs hok ⟨r, marcas, hr⟩
  refine keeps_paso (h.and tablas_invariante) (fun _ hs => hs.2) e ?_ ?_ s r s' marcas hs hr
    (hok r s' marcas hr)
  · exact fun s l hs => ⟨hclientes s l hs.1, tablas_deTablas s _ rfl rfl hs.2⟩
  · exact fun s sd _ hs hget => ⟨hinit s sd hs.1 hget, tablas_ponerTabla_nil hs.2⟩

end Muse
