import Linuse.Muse.Embaldosado

/-!
# Headers written and read back

`leerMetadata` should give back the size and the mark of a header that
`ubicarMetadataYHeapLista` put in a segment. It does if and only if the header fits in what is
left of its page and the page has a frame (`vuelveIgual_iff`). Of a header that is split the
first part is read, but the pointer to the second half of the structure counts in structures
instead of bytes, so that the last bytes of the result are those that the structure had when it
was asked for.
-/

namespace Muse

open Memory Marked Wire

/-- `struct HeapMetadata`. -/
structure HeapMetadata where
  size : ℤ
  isFree : Bool
  deriving DecidableEq

/-- The structure with these bytes. -/
def metadataEn (m : Mem) : HeapMetadata := ⟨load32 m 0, m 4 != 0⟩

section Codigo

variable (cfg : Configuracion)

/-- `leerMetadata` of a header of segment `g`; `nuevo` has the bytes of the structure that it asks
for. The page number of the second part is increased after it is used. -/
def leerMetadata (nuevo : Mem) (g : ℕ) (heapLista : HeapLista) : Codigo HeapMetadata := do
  let seg ← segmento g
  let indicePrimeraPagina := heapLista.direccionHeap.tdiv cfg.tamanioPag
  let p ← obtener seg.tablaPaginas indicePrimeraPagina
  let desplazamientoPrimeraPagina := heapLista.direccionHeap.tmod cfg.tamanioPag
  let pos ← obtenerPosicionMemoriaPagina cfg p
  if heapLista.estaPartido then do
    let primeros ← gets fun s => bytesAt s.memoria (pos + desplazamientoPrimeraPagina)
      heapLista.bytesPrimeraPagina.toNat
    let p ← obtener seg.tablaPaginas indicePrimeraPagina
    let pos ← obtenerPosicionMemoriaPagina cfg p
    let ultimos ← gets fun s => bytesAt s.memoria pos
      (tamanioMetadata - heapLista.bytesPrimeraPagina).toNat
    return metadataEn (store (store nuevo 0 primeros)
      (tamanioMetadata * heapLista.bytesPrimeraPagina) ultimos)
  else do
    let bytes ← gets fun s => bytesAt s.memoria (pos + desplazamientoPrimeraPagina)
      tamanioMetadata.toNat
    return metadataEn (store nuevo 0 bytes)

end Codigo

variable {cfg : Configuracion} {ok : Estado → Suceso → Prop} {s t u : Estado} {seg seg' : Segmento}
  {g p : ℕ} {pag : Pagina} {ubicacionHeap size : ℤ} {isFree : Bool} {nuevo : Mem}

/-! ## What should be read back -/

/-- The byte of a page at a distance from its start, in its frame or in its slot of the swap. -/
def byteDePagina (cfg : Configuracion) (s : Estado) (q : ℕ) (o : ℤ) : Option UInt8 :=
  s.paginas[q]?.map fun pag =>
    if pag.presencia = false ∧ pag.indiceSwap ≠ -1 then s.swap (pag.indiceSwap * cfg.tamanioPag + o)
    else s.memoria (pag.numeroFrame * cfg.tamanioPag + o)

/-- The addresses of the five bytes of a header of the segment. -/
def direccionesMetadata (cfg : Configuracion) (s : Estado) (seg : Segmento) (ubicacionHeap : ℤ) :
    Set ℤ :=
  {a | ∃ n : ℕ, n < 5 ∧ ∃ q qag,
    elemento seg.tablaPaginas ((ubicacionHeap + n) / cfg.tamanioPag) = some q ∧
      s.paginas[q]? = some qag ∧
        a = qag.numeroFrame * cfg.tamanioPag + (ubicacionHeap + n) % cfg.tamanioPag}

/-- No byte of the pages of the segment changes outside these addresses. -/
def SinCambios (cfg : Configuracion) (seg : Segmento) (cabecera : Set ℤ) (s t : Estado) : Prop :=
  ∀ q ∈ seg.tablaPaginas, ∀ qag, t.paginas[q]? = some qag → ∀ o : ℤ, 0 ≤ o → o < cfg.tamanioPag →
    (Quieta qag → qag.numeroFrame * cfg.tamanioPag + o ∉ cabecera) →
      byteDePagina cfg t q o = byteDePagina cfg s q o

/-- A header put in the last page of segment `g` is read back, whatever was in the memory that
holds what is read, and no other byte of the pages that the segment had changes. -/
def VuelveIgual (cfg : Configuracion) (s : Estado) (g : ℕ) (seg : Segmento) (ubicacionHeap : ℤ)
    (isFree : Bool) (size : ℤ) : Prop :=
  ∀ nuevo, ∃ sePartio s' marcas seg' heap s'' marcas',
    Runs (ubicarMetadataYHeapLista cfg g ubicacionHeap isFree size seg.tablaPaginas.length)
      s sePartio s' marcas ∧
    s'.segmentos[g]? = some seg' ∧ seg'.metadatas.getLast? = some heap ∧
    Runs (leerMetadata cfg nuevo g heap) s' ⟨size, isFree⟩ s'' marcas' ∧
    SinCambios cfg seg (direccionesMetadata cfg s' seg' ubicacionHeap) s s'

/-! ## Bytes of a header -/

theorem metadataEn_store_bytesMetadata (nuevo : Mem) (isFree : Bool) (hsize : 0 ≤ size)
    (hsize' : size < 4294967296) :
    metadataEn (store nuevo 0 (bytesMetadata size isFree)) = ⟨size, isFree⟩ := by
  have hbytes : bytesAt (store nuevo 0 (bytesMetadata size isFree)) 0 4 = toBytes 4 size.toNat := by
    have hstore := bytesAt_store nuevo 0 (bytesMetadata size isFree)
    rw [length_bytesMetadata, bytesAt, List.range_succ, List.map_append, bytesMetadata,
      unsigned_eq_self hsize hsize'] at hstore
    rw [bytesMetadata, unsigned_eq_self hsize hsize']
    exact (List.append_inj hstore (by simp)).1
  have hmarca : store nuevo 0 (bytesMetadata size isFree) (0 + (4 : ℕ)) =
      if isFree then 1 else 0 := by
    rw [store_getElem (by rw [length_bytesMetadata]; decide)]
    simp [bytesMetadata]
  rw [metadataEn, load32, hbytes, ofBytes_toBytes_of_lt (by omega), Int.toNat_of_nonneg hsize]
  rw [zero_add] at hmarca
  rw [show ((4 : ℕ) : ℤ) = 4 from rfl] at hmarca
  rw [hmarca]
  cases isFree <;> rfl

/-! ## A header that is split -/

/-- What is read of a split header ends with what the structure had. -/
theorem triple_leerMetadata_partida (cfg : Configuracion) (nuevo : Mem) (g : ℕ) {heap : HeapLista}
    (hpartida : heap.estaPartido = true) (hpos : 0 < heap.bytesPrimeraPagina)
    (hlt : heap.bytesPrimeraPagina < 5) :
    Triple ok (fun _ => True) (leerMetadata cfg nuevo g heap) fun metadata _ =>
      metadata.isFree = (nuevo 4 != 0) := by
  refine triple_bind (triple_true _) fun seg => triple_bind (triple_true _) fun p =>
    triple_bind (triple_true _) fun pos => ?_
  refine triple_ite (fun _ => ?_) fun hentera => absurd hpartida hentera
  have hprimeros : Triple ok (fun _ => True) (gets fun s : Estado => bytesAt s.memoria
      (pos + heap.direccionHeap.tmod cfg.tamanioPag) heap.bytesPrimeraPagina.toNat)
      fun primeros _ => primeros.length = heap.bytesPrimeraPagina.toNat :=
    triple_gets _ fun _ _ => length_bytesAt _ _ _
  refine triple_bind hprimeros fun primeros => ?_
  refine triple_conseq (P := fun _ => True ∧ primeros.length = heap.bytesPrimeraPagina.toNat)
    (triple_assume fun hlargo => ?_) (fun _ hs => ⟨trivial, hs⟩) fun _ _ hs => hs
  refine triple_bind (triple_true _) fun p => triple_bind (triple_true _) fun pos =>
    triple_bind (triple_true _) fun ultimos => triple_pure _ fun _ _ => ?_
  have hcuatro : store (store nuevo 0 primeros) (tamanioMetadata * heap.bytesPrimeraPagina)
      ultimos 4 = nuevo 4 := by
    rw [store_of_lt (by rw [tamanioMetadata]; omega), store_of_le (by rw [hlargo]; omega)]
  rw [metadataEn, hcuatro]

/-- A header that is read back whatever the structure had is not split. -/
theorem not_seParte_of_vuelveIgual (hseg : s.segmentos[g]? = some seg)
    (h : VuelveIgual cfg s g seg ubicacionHeap isFree size) : ¬ seParte cfg ubicacionHeap := by
  intro hparte
  obtain ⟨sePartio, s', marcas, seg', heap, s'', marcas', hubicar, hseg', hheap, hleer, -⟩ :=
    h fun _ => if isFree then 0 else 1
  have htriple : Triple (fun _ _ => True) (Queda s g seg)
      (ubicarMetadataYHeapLista cfg g ubicacionHeap isFree size seg.tablaPaginas.length) _ :=
    triple_queda_ubicar ubicacionHeap isFree size seg.tablaPaginas.length
  obtain ⟨seg'', hubicado, hqueda⟩ := htriple s sePartio s' marcas (queda_self hseg) hubicar
    fun _ _ => trivial
  cases hseg'.symm.trans hqueda.segmento
  rw [Ubicado, if_pos hparte] at hubicado
  obtain ⟨-, q, rfl⟩ := hubicado
  rw [Segmento.crecido, Segmento.conPaginas, Segmento.conHeap, List.getLast?_concat] at hheap
  have hpartida : heap.estaPartido = true := by rw [← Option.some.inj hheap]
  have hbytes : heap.bytesPrimeraPagina = cfg.tamanioPag - ubicacionHeap.tmod cfg.tamanioPag := by
    rw [← Option.some.inj hheap]
  have hpos := cfg.positivo
  have hlt : ubicacionHeap.tmod cfg.tamanioPag < cfg.tamanioPag := Int.tmod_lt_of_pos _ (by omega)
  rw [seParte, ← hbytes, tamanioMetadata] at hparte
  have hmarca : Triple (fun _ _ => True) (fun _ => True) (leerMetadata cfg _ g heap) _ :=
    triple_leerMetadata_partida cfg (fun _ => if isFree then 0 else 1) g hpartida (by omega) hparte
  have heq := hmarca s' _ s'' marcas' trivial hleer fun _ _ => trivial
  cases isFree <;> simp at heq

/-! ## The page of the header -/

/-- The last page of the table. -/
theorem elemento_ultima (hp : seg.tablaPaginas.getLast? = some p) :
    elemento seg.tablaPaginas ((seg.tablaPaginas.length : ℤ) - 1) = some p := by
  rw [List.getLast?_eq_getElem?] at hp
  have hlt := (List.getElem?_eq_some_iff.1 hp).1
  rw [elemento, if_neg (by omega),
    show ((seg.tablaPaginas.length : ℤ) - 1).toNat = seg.tablaPaginas.length - 1 by omega]
  exact hp

/-- A header is put only in a page that has a frame. -/
theorem triple_ubicar_frame (hseg : s.segmentos[g]? = some seg)
    (hp : seg.tablaPaginas.getLast? = some p) (hpag : s.paginas[p]? = some pag) :
    Triple ok (· = s)
      (ubicarMetadataYHeapLista cfg g ubicacionHeap isFree size seg.tablaPaginas.length)
      fun _ _ => (s.frame pag.numeroFrame).isSome := by
  refine exec_segmento fun seg' hseg' => ?_
  cases hseg.symm.trans hseg'
  refine triple_bind (triple_obtener _ _) fun q => triple_assume fun hq => ?_
  cases (elemento_ultima hp).symm.trans hq
  refine exec_pagina fun qag hqag => ?_
  cases hpag.symm.trans hqag
  exact exec_tocarFrame fun hframe => triple_conseq (triple_true _) (fun _ _ => trivial)
    fun _ _ _ => hframe

theorem quieta_paginaLista (s : Estado) (pag : Pagina) : Quieta (paginaLista s pag) := by
  rw [paginaLista]
  split_ifs with h
  · exact fun _ => rfl
  · exact fun hpres => by_contra fun hne => h ⟨hpres, hne⟩

@[simp]
theorem conPaginaLista_segmentos (s : Estado) (p : ℕ) (pag : Pagina) :
    (s.conPaginaLista cfg p pag).segmentos = s.segmentos := by
  rw [Estado.conPaginaLista]
  split_ifs
  · simp [Estado.copiar, Estado.modificarPagina]
  · rfl

/-- Marks of frames change nothing else of the page. -/
theorem conPaginaLista_modificarFrame (cfg : Configuracion) (s : Estado) (p : ℕ) (pag : Pagina)
    (i : ℤ) {f : Frame → Frame} (hf : ∀ x, (f x).estaLibre = x.estaLibre) :
    paginaLista (s.modificarFrame i f) pag = paginaLista s pag ∧
      ∃ l, (s.modificarFrame i f).conPaginaLista cfg p pag =
        { s.conPaginaLista cfg p pag with frames := l } := by
  have hlibre : buscarFrameLibre (s.modificarFrame i f) = buscarFrameLibre s := by
    rw [buscarFrameLibre_eq, buscarFrameLibre_eq, (mismosLibres_modificarFrame s i hf).libres]
  have hpagina : paginaLista (s.modificarFrame i f) pag = paginaLista s pag := by
    rw [paginaLista, hlibre, paginaLista]
  refine ⟨hpagina, ?_⟩
  obtain ⟨l, hl⟩ := s.modificarFrame_eq i f
  refine ⟨l, ?_⟩
  rw [Estado.conPaginaLista, hpagina, hl, Estado.conPaginaLista]
  split_ifs
  · rw [Estado.ponerBit, Estado.ponerBit]
    split_ifs <;> rfl
  · rfl

/-! ## A header that is not split -/

/-- The state with a header that is not split, at `pos` in the memory. -/
def Estado.conMetadata (s : Estado) (g : ℕ) (pos ubicacionHeap : ℤ) (isFree : Bool) (size : ℤ) :
    Estado :=
  (s.modificarSegmento g fun seg =>
    seg.conHeap ⟨ubicacionHeap, isFree, signed size, false, tamanioMetadata⟩).copiar pos
      (bytesMetadata size isFree)

theorem runs_ubicar_entera (isFree : Bool) (size : ℤ) (hseg : s.segmentos[g]? = some seg)
    (hp : seg.tablaPaginas.getLast? = some p) (hpag : s.paginas[p]? = some pag)
    (hframe : (s.frame pag.numeroFrame).isSome) (hentera : ¬ seParte cfg ubicacionHeap) :
    ∃ l marcas,
      Runs (ubicarMetadataYHeapLista cfg g ubicacionHeap isFree size seg.tablaPaginas.length) s
        false (Estado.conMetadata { s.conPaginaLista cfg p pag with frames := l } g
          ((paginaLista s pag).numeroFrame * cfg.tamanioPag + ubicacionHeap.tmod cfg.tamanioPag)
          ubicacionHeap isFree size) marcas := by
  set marca : Frame → Frame := fun f => { f with modificado := true, uso := true }
  have hpag' : (s.modificarFrame pag.numeroFrame marca).paginas[p]? = some pag := by
    rw [Estado.modificarFrame_paginas, hpag]
  obtain ⟨hlista, l, hl⟩ := conPaginaLista_modificarFrame cfg s p pag pag.numeroFrame
    (f := marca) fun _ => rfl
  obtain ⟨marcas, hposicion⟩ := runs_posicion cfg hpag'
  rw [hlista, hl] at hposicion
  refine ⟨l, marcas ++ [], (runs_segmento hseg).bind_iff.2 ?_⟩
  refine (runs_orFail (elemento_ultima hp) s).bind_iff.2 ((runs_pagina hpag).bind_iff.2 ?_)
  refine (runs_tocarFrame marca hframe).bind_iff.2 (hposicion.append ?_)
  rw [if_neg (show ¬ (cfg.tamanioPag - ubicacionHeap.tmod cfg.tamanioPag < tamanioMetadata) from
    hentera)]
  exact (runs_modify _ _).bind ((runs_modify _ _).bind (runs_pure _ _))

theorem ubicacion_nonneg (hp : seg.tablaPaginas.getLast? = some p)
    (hubica : ubicacionHeap / cfg.tamanioPag = (seg.tablaPaginas.length : ℤ) - 1) :
    0 ≤ ubicacionHeap := by
  have hpos := cfg.positivo
  have hlen : 0 < seg.tablaPaginas.length :=
    List.length_pos_iff_exists_mem.2 ⟨p, List.mem_of_getLast? hp⟩
  have hdiv : 0 ≤ ubicacionHeap / (cfg.tamanioPag : ℤ) := by rw [hubica]; omega
  exact (Int.ediv_nonneg_iff_of_pos (by omega)).1 hdiv

/-- A header that is not split is read from the state in which it was put. -/
theorem runs_leerMetadata_entera {l : List Frame} (hseg : s.segmentos[g]? = some seg)
    (hp : seg.tablaPaginas.getLast? = some p) (hpag : s.paginas[p]? = some pag)
    (hubica : ubicacionHeap / cfg.tamanioPag = (seg.tablaPaginas.length : ℤ) - 1)
    (hsize : 0 ≤ size) (hsize' : size < 4294967296) :
    let t := Estado.conMetadata { s.conPaginaLista cfg p pag with frames := l } g
      ((paginaLista s pag).numeroFrame * cfg.tamanioPag + ubicacionHeap.tmod cfg.tamanioPag)
      ubicacionHeap isFree size
    Runs (leerMetadata cfg nuevo g ⟨ubicacionHeap, isFree, signed size, false, tamanioMetadata⟩)
      t ⟨size, isFree⟩ t [] := by
  intro t
  set heap : HeapLista := ⟨ubicacionHeap, isFree, signed size, false, tamanioMetadata⟩ with hheap
  have hnonneg := ubicacion_nonneg hp hubica
  have hsegmento : t.segmentos[g]? = some (seg.conHeap heap) := by
    simp [t, Estado.conMetadata, Estado.copiar, Estado.modificarSegmento, hseg, hheap]
  have hpagina : t.paginas[p]? = some (paginaLista s pag) := conPaginaLista_paginas cfg hpag
  have hindice : elemento (seg.conHeap heap).tablaPaginas (heap.direccionHeap.tdiv cfg.tamanioPag) =
      some p := by
    rw [hheap, Int.tdiv_eq_ediv_of_nonneg hnonneg, hubica]
    exact elemento_ultima hp
  have hbytes : bytesAt t.memoria ((paginaLista s pag).numeroFrame * cfg.tamanioPag +
      ubicacionHeap.tmod cfg.tamanioPag) 5 = bytesMetadata size isFree := by
    rw [← length_bytesMetadata size isFree]
    exact bytesAt_store _ _ _
  refine (runs_segmento hsegmento).bind ((runs_orFail hindice t).bind
    (Runs.bind (runs_posicion_quieta hpagina (quieta_paginaLista s pag)) ?_))
  refine Runs.bind (runs_gets _ t) ?_
  rw [← metadataEn_store_bytesMetadata nuevo isFree hsize hsize', ← hbytes]
  exact runs_pure _ t

/-! ## The other bytes -/

theorem seParte_iff_emod (hnonneg : 0 ≤ ubicacionHeap) :
    ¬ seParte cfg ubicacionHeap ↔ ubicacionHeap % cfg.tamanioPag + 5 ≤ cfg.tamanioPag := by
  rw [seParte, tamanioMetadata, Int.tmod_eq_emod_of_nonneg hnonneg]
  omega

/-- A header that is not split is in the last page. -/
theorem mem_direccionesMetadata_iff (hp : seg.tablaPaginas.getLast? = some p)
    (hpag : s.paginas[p]? = some pag)
    (hubica : ubicacionHeap / cfg.tamanioPag = (seg.tablaPaginas.length : ℤ) - 1)
    (hcabe : ubicacionHeap % cfg.tamanioPag + 5 ≤ cfg.tamanioPag) (o : ℤ) :
    pag.numeroFrame * cfg.tamanioPag + o ∈ direccionesMetadata cfg s seg ubicacionHeap ↔
      ubicacionHeap % cfg.tamanioPag ≤ o ∧ o < ubicacionHeap % cfg.tamanioPag + 5 := by
  have hpos := cfg.positivo
  have hmod := Int.emod_nonneg ubicacionHeap (b := (cfg.tamanioPag : ℤ)) (by omega)
  have hlugar : ∀ n : ℕ, n < 5 →
      elemento seg.tablaPaginas ((ubicacionHeap + n) / cfg.tamanioPag) = some p ∧
        (ubicacionHeap + n) % cfg.tamanioPag = ubicacionHeap % cfg.tamanioPag + n := by
    intro n hn
    have hsuma : ubicacionHeap + n = ubicacionHeap % cfg.tamanioPag + n +
        cfg.tamanioPag * (ubicacionHeap / cfg.tamanioPag) := by
      have hdivmod := Int.emod_add_mul_ediv ubicacionHeap cfg.tamanioPag
      omega
    have hresto : 0 ≤ ubicacionHeap % cfg.tamanioPag + n := by omega
    constructor
    · rw [hsuma, Int.add_mul_ediv_left _ _ (by omega),
        Int.ediv_eq_zero_of_lt hresto (by omega), zero_add, hubica]
      exact elemento_ultima hp
    · rw [hsuma, Int.add_mul_emod_self_left, Int.emod_eq_of_lt hresto (by omega)]
  constructor
  · rintro ⟨n, hn, q, qag, hq, hqag, heq⟩
    obtain ⟨hultima, hresto⟩ := hlugar n hn
    cases hultima.symm.trans hq
    cases hpag.symm.trans hqag
    rw [hresto] at heq
    omega
  · rintro ⟨hdesde, hhasta⟩
    obtain ⟨hultima, hresto⟩ := hlugar (o - ubicacionHeap % cfg.tamanioPag).toNat (by omega)
    refine ⟨_, by omega, p, pag, hultima, hpag, ?_⟩
    rw [hresto]
    omega

/-- Putting a header that is not split changes its bytes only. -/
theorem sinCambios_conMetadata_iff {l : List Frame} (hp : seg.tablaPaginas.getLast? = some p)
    (hpag : t.paginas[p]? = some pag)
    (hubica : ubicacionHeap / cfg.tamanioPag = (seg.tablaPaginas.length : ℤ) - 1)
    (hcabe : ubicacionHeap % cfg.tamanioPag + 5 ≤ cfg.tamanioPag) :
    SinCambios cfg seg (direccionesMetadata cfg t seg ubicacionHeap) s
        (Estado.conMetadata { t with frames := l } g
          (pag.numeroFrame * cfg.tamanioPag + ubicacionHeap.tmod cfg.tamanioPag) ubicacionHeap
            isFree size) ↔
      SinCambios cfg seg (direccionesMetadata cfg t seg ubicacionHeap) s t := by
  rw [Int.tmod_eq_emod_of_nonneg (ubicacion_nonneg hp hubica)]
  have hbyte : ∀ q qag, t.paginas[q]? = some qag → ∀ o : ℤ,
      (Quieta qag → qag.numeroFrame * cfg.tamanioPag + o ∉
        direccionesMetadata cfg t seg ubicacionHeap) →
      byteDePagina cfg (Estado.conMetadata { t with frames := l } g
        (pag.numeroFrame * cfg.tamanioPag + ubicacionHeap % cfg.tamanioPag) ubicacionHeap isFree
          size) q o = byteDePagina cfg t q o := by
    intro q qag hqag o hfuera
    have hpaginas : (Estado.conMetadata { t with frames := l } g (pag.numeroFrame * cfg.tamanioPag +
        ubicacionHeap % cfg.tamanioPag) ubicacionHeap isFree size).paginas[q]? = some qag := hqag
    rw [byteDePagina, hpaginas, byteDePagina, hqag, Option.map_some, Option.map_some]
    split_ifs with hswap
    · rfl
    · have hno := hfuera fun hpres => by_contra fun hne => hswap ⟨hpres, hne⟩
      refine congrArg some (store_of_disjoint ?_)
      rw [length_bytesMetadata]
      by_contra hdentro
      refine hno ?_
      have hmem := (mem_direccionesMetadata_iff hp hpag hubica hcabe
        (qag.numeroFrame * cfg.tamanioPag + o - pag.numeroFrame * cfg.tamanioPag)).2 (by omega)
      rwa [add_sub_cancel] at hmem
  constructor
  · intro h q hq qag hqag o ho ho' hfuera
    rw [← hbyte q qag hqag o hfuera]
    exact h q hq qag hqag o ho ho' hfuera
  · intro h q hq qag hqag o ho ho' hfuera
    rw [hbyte q qag hqag o hfuera]
    exact h q hq qag hqag o ho ho' hfuera

/-! ## A page that is brought -/

/-- `pag` is said to be in swap. Outside the header, the bytes that are read for it are those of
its slot, and those of the pages of the segment that have the frame to which it goes. -/
def TraeIgual (cfg : Configuracion) (s : Estado) (seg : Segmento) (p : ℕ) (pag : Pagina)
    (ubicacionHeap : ℤ) : Prop :=
  ∀ o : ℤ, 0 ≤ o → o < cfg.tamanioPag →
    o < ubicacionHeap % cfg.tamanioPag ∨ ubicacionHeap % cfg.tamanioPag + 5 ≤ o →
      cfg.basura (pag.indiceSwap * cfg.tamanioPag + o) =
          s.swap (pag.indiceSwap * cfg.tamanioPag + o) ∧
        ∀ q ∈ seg.tablaPaginas, q ≠ p → ∀ qag, s.paginas[q]? = some qag → Quieta qag →
          qag.numeroFrame = indice (buscarFrameLibre s) →
            cfg.basura (pag.indiceSwap * cfg.tamanioPag + o) =
              s.memoria (qag.numeroFrame * cfg.tamanioPag + o)

section Traida

variable (hswap : pag.presencia = false ∧ pag.indiceSwap ≠ -1)

include hswap

theorem conPaginaLista_memoria (s : Estado) (p : ℕ) {f o : ℤ} (ho : 0 ≤ o)
    (ho' : o < cfg.tamanioPag) :
    (s.conPaginaLista cfg p pag).memoria (f * cfg.tamanioPag + o) =
      if f = indice (buscarFrameLibre s) then cfg.basura (pag.indiceSwap * cfg.tamanioPag + o)
      else s.memoria (f * cfg.tamanioPag + o) := by
  have hmem : (s.conPaginaLista cfg p pag).memoria = store s.memoria
      (indice (buscarFrameLibre s) * cfg.tamanioPag)
        (bytesAt cfg.basura (pag.indiceSwap * cfg.tamanioPag) cfg.tamanioPag) := by
    rw [Estado.conPaginaLista, if_pos hswap, paginaLista, if_pos hswap]
    simp [Estado.copiar, Estado.modificarPagina, paginaBasura, bytesAt]
  have hbyte : ∀ (m : Mem) (a : ℤ), (bytesAt m a cfg.tamanioPag)[o.toNat]? = some (m (a + o)) := by
    intro m a
    rw [getElem?_bytesAt (by omega), Int.toNat_of_nonneg ho]
  have hbytes := congrArg (fun l => l[o.toNat]?) (bytesDeFrame_store hmem (length_bytesAt _ _ _)
    (g := f))
  rw [bytesDeFrame, hbyte] at hbytes
  split_ifs at hbytes ⊢ with hf
  · rw [hbyte] at hbytes
    exact Option.some.inj hbytes
  · rw [bytesDeFrame, hbyte] at hbytes
    exact Option.some.inj hbytes

theorem conPaginaLista_paginas_of_ne {q : ℕ} (hq : q ≠ p) :
    (s.conPaginaLista cfg p pag).paginas[q]? = s.paginas[q]? := by
  rw [Estado.conPaginaLista, if_pos hswap, Estado.copiar, modificarPagina_getElem?,
    Estado.ponerBit_paginas]
  simp [hq.symm]

theorem conPaginaLista_swap : (s.conPaginaLista cfg p pag).swap = s.swap := by
  rw [Estado.conPaginaLista, if_pos hswap]
  simp [Estado.copiar, Estado.modificarPagina]

/-- Bringing the last page changes no byte outside the header exactly when it brings the bytes
that were there. -/
theorem sinCambios_conPaginaLista_iff (hp : seg.tablaPaginas.getLast? = some p)
    (hpag : s.paginas[p]? = some pag)
    (hubica : ubicacionHeap / cfg.tamanioPag = (seg.tablaPaginas.length : ℤ) - 1)
    (hcabe : ubicacionHeap % cfg.tamanioPag + 5 ≤ cfg.tamanioPag) :
    SinCambios cfg seg (direccionesMetadata cfg (s.conPaginaLista cfg p pag) seg ubicacionHeap) s
      (s.conPaginaLista cfg p pag) ↔ TraeIgual cfg s seg p pag ubicacionHeap := by
  have hlista := conPaginaLista_paginas cfg hpag
  have hcabecera := mem_direccionesMetadata_iff hp hlista hubica hcabe
  rw [paginaLista, if_pos hswap] at hlista hcabecera
  have hfuera : ∀ o : ℤ, indice (buscarFrameLibre s) * cfg.tamanioPag + o ∉
      direccionesMetadata cfg (s.conPaginaLista cfg p pag) seg ubicacionHeap ↔
        o < ubicacionHeap % cfg.tamanioPag ∨ ubicacionHeap % cfg.tamanioPag + 5 ≤ o := by
    intro o
    rw [hcabecera]
    omega
  -- The bytes of the page, which leaves its slot, and of those that have its frame.
  have hpropia : ∀ o : ℤ, 0 ≤ o → o < cfg.tamanioPag →
      (byteDePagina cfg (s.conPaginaLista cfg p pag) p o = byteDePagina cfg s p o ↔
        cfg.basura (pag.indiceSwap * cfg.tamanioPag + o) =
          s.swap (pag.indiceSwap * cfg.tamanioPag + o)) := by
    intro o ho ho'
    rw [byteDePagina, hlista, byteDePagina, hpag, Option.map_some, Option.map_some,
      if_neg (by simp), if_pos hswap, Option.some_inj, conPaginaLista_memoria hswap s p ho ho',
      if_pos rfl]
  have hajena : ∀ q ≠ p, ∀ qag, s.paginas[q]? = some qag → Quieta qag → ∀ o : ℤ, 0 ≤ o →
      o < cfg.tamanioPag →
      (byteDePagina cfg (s.conPaginaLista cfg p pag) q o = byteDePagina cfg s q o ↔
        (qag.numeroFrame = indice (buscarFrameLibre s) →
          cfg.basura (pag.indiceSwap * cfg.tamanioPag + o) =
            s.memoria (qag.numeroFrame * cfg.tamanioPag + o))) := by
    intro q hq qag hqag hquieta o ho ho'
    have hmemoria : ¬ (qag.presencia = false ∧ qag.indiceSwap ≠ -1) := fun h => h.2 (hquieta h.1)
    rw [byteDePagina, conPaginaLista_paginas_of_ne hswap hq, byteDePagina, hqag, Option.map_some,
      Option.map_some, if_neg hmemoria, if_neg hmemoria, Option.some_inj,
      conPaginaLista_memoria hswap s p ho ho']
    split_ifs with hf
    · exact ⟨fun h _ => h, fun h => h hf⟩
    · exact iff_of_true rfl fun h => absurd h hf
  constructor
  · intro h o ho ho' hotra
    refine ⟨(hpropia o ho ho').1 (h p (List.mem_of_getLast? hp) _ hlista o ho ho' fun _ =>
      (hfuera o).2 hotra), fun q hq hne qag hqag hquieta hf => ?_⟩
    refine (hajena q hne qag hqag hquieta o ho ho').1 (h q hq qag ?_ o ho ho' fun _ => ?_) hf
    · rw [conPaginaLista_paginas_of_ne hswap hne, hqag]
    · rw [hf]
      exact (hfuera o).2 hotra
  · intro h q hq qag hqag o ho ho' hotra
    by_cases hne : q = p
    · subst hne
      cases hlista.symm.trans hqag
      exact (hpropia o ho ho').2 (h o ho ho' ((hfuera o).1 (hotra fun _ => rfl))).1
    rw [conPaginaLista_paginas_of_ne hswap hne] at hqag
    by_cases hquieta : Quieta qag
    · refine (hajena q hne qag hqag hquieta o ho ho').2 fun hf => ?_
      have hdentro := hotra hquieta
      rw [hf, hfuera] at hdentro
      exact (h o ho ho' hdentro).2 q hq hne qag hqag hquieta hf
    · have hqswap : qag.presencia = false ∧ qag.indiceSwap ≠ -1 := by
        rw [Quieta] at hquieta
        exact Classical.not_imp.1 hquieta
      rw [byteDePagina, conPaginaLista_paginas_of_ne hswap hne, byteDePagina, hqag,
        Option.map_some, Option.map_some, if_pos hqswap, if_pos hqswap, conPaginaLista_swap hswap]

end Traida

/-! ## When a header is read back -/

/-- The header fits in what is left of the last page, which has a frame; if the page is said to be
in swap too, what is brought is what was there. -/
structure CabeceraEntera (cfg : Configuracion) (s : Estado) (seg : Segmento) (p : ℕ) (pag : Pagina)
    (ubicacionHeap : ℤ) : Prop where
  cabe : ubicacionHeap % cfg.tamanioPag + 5 ≤ cfg.tamanioPag
  frame : (s.frame pag.numeroFrame).isSome
  traida : pag.presencia = false → pag.indiceSwap ≠ -1 →
    TraeIgual cfg s seg p pag ubicacionHeap

theorem CabeceraEntera.sinCambios (hp : seg.tablaPaginas.getLast? = some p)
    (hpag : s.paginas[p]? = some pag)
    (hubica : ubicacionHeap / cfg.tamanioPag = (seg.tablaPaginas.length : ℤ) - 1)
    (h : CabeceraEntera cfg s seg p pag ubicacionHeap) :
    SinCambios cfg seg (direccionesMetadata cfg (s.conPaginaLista cfg p pag) seg ubicacionHeap) s
      (s.conPaginaLista cfg p pag) := by
  by_cases hswap : pag.presencia = false ∧ pag.indiceSwap ≠ -1
  · exact (sinCambios_conPaginaLista_iff hswap hp hpag hubica h.cabe).2
      (h.traida hswap.1 hswap.2)
  · rw [Estado.conPaginaLista, if_neg hswap]
    exact fun _ _ _ _ _ _ _ _ => rfl

theorem vuelveIgual_of_cabeceraEntera (hseg : s.segmentos[g]? = some seg)
    (hp : seg.tablaPaginas.getLast? = some p) (hpag : s.paginas[p]? = some pag)
    (hubica : ubicacionHeap / cfg.tamanioPag = (seg.tablaPaginas.length : ℤ) - 1)
    (hsize : 0 ≤ size) (hsize' : size < 4294967296)
    (h : CabeceraEntera cfg s seg p pag ubicacionHeap) :
    VuelveIgual cfg s g seg ubicacionHeap isFree size := by
  intro nuevo
  obtain ⟨l, marcas, hubicar⟩ := runs_ubicar_entera isFree size hseg hp hpag
    h.frame ((seParte_iff_emod (ubicacion_nonneg hp hubica)).2 h.cabe)
  refine ⟨false, _, marcas, seg.conHeap ⟨ubicacionHeap, isFree, signed size, false,
    tamanioMetadata⟩, _, _, [], hubicar, ?_, List.getLast?_concat,
    runs_leerMetadata_entera hseg hp hpag hubica hsize hsize', ?_⟩
  · simp [Estado.conMetadata, Estado.copiar, Estado.modificarSegmento, hseg]
  · exact (sinCambios_conMetadata_iff hp (conPaginaLista_paginas cfg hpag) hubica h.cabe).2
      (h.sinCambios hp hpag hubica)

/-- A header put in the last page of a segment is read back, and no other byte of the pages
changes, if and only if the header fits in the page and the page has a frame. -/
theorem vuelveIgual_iff (cfg : Configuracion) (s : Estado) (g : ℕ) (seg : Segmento)
    (hseg : s.segmentos[g]? = some seg) (p : ℕ) (hp : seg.tablaPaginas.getLast? = some p)
    (pag : Pagina) (hpag : s.paginas[p]? = some pag) (ubicacionHeap : ℤ)
    (hubica : ubicacionHeap / cfg.tamanioPag = (seg.tablaPaginas.length : ℤ) - 1) (isFree : Bool)
    (size : ℤ) (hsize : 0 ≤ size) (hsize' : size < 4294967296) :
    VuelveIgual cfg s g seg ubicacionHeap isFree size ↔
      CabeceraEntera cfg s seg p pag ubicacionHeap := by
  refine ⟨fun h => ?_, vuelveIgual_of_cabeceraEntera hseg hp hpag hubica hsize hsize'⟩
  have hentera := not_seParte_of_vuelveIgual hseg h
  have hcabe := (seParte_iff_emod (ubicacion_nonneg hp hubica)).1 hentera
  obtain ⟨sePartio, s', marcas, seg', heap, s'', marcas', hubicar, hseg', -, -, hcambios⟩ :=
    h fun _ => 0
  have htriple : Triple (fun _ _ => True) (· = s) (ubicarMetadataYHeapLista cfg g ubicacionHeap
      isFree size seg.tablaPaginas.length) _ := triple_ubicar_frame hseg hp hpag
  have hframe := htriple s sePartio s' marcas rfl hubicar fun _ _ => trivial
  refine ⟨hcabe, hframe, fun hpres hindice => ?_⟩
  obtain ⟨l, marcas', hrun⟩ := runs_ubicar_entera isFree size hseg hp hpag
    hframe hentera
  cases hubicar.symm.trans hrun
  have hconHeap : seg' = seg.conHeap ⟨ubicacionHeap, isFree, signed size, false,
      tamanioMetadata⟩ := by
    simpa [Estado.conMetadata, Estado.copiar, Estado.modificarSegmento, hseg] using hseg'.symm
  subst hconHeap
  exact (sinCambios_conPaginaLista_iff ⟨hpres, hindice⟩ hp hpag hubica hcabe).1
    ((sinCambios_conMetadata_iff hp (conPaginaLista_paginas cfg hpag) hubica hcabe).1 hcambios)

/-- A segment of one page of 32 bytes, with a block of this size. -/
def segmentoDeUnaPagina (size : ℤ) : Segmento :=
  ⟨true, none, 0, 1048576, 32, [0], 0, [⟨0, false, size, false, 5⟩]⟩

/-- The segment in the first frame of four, the others of which are free. -/
def estadoDeUnaPagina (size : ℤ) : Estado :=
  { inicial cuatroFrames with
    frames := [⟨true, true, false⟩, ⟨false, false, true⟩, ⟨false, false, true⟩,
      ⟨false, false, true⟩]
    paginas := [⟨true, 0, -1⟩]
    segmentos := [segmentoDeUnaPagina size] }

/-- A header at 25 is read back; one at 29 is split, and is not. -/
theorem vuelveIgual_iff_entera :
    VuelveIgual cuatroFrames (estadoDeUnaPagina 20) 0 (segmentoDeUnaPagina 20) 25 true 7 ∧
      ¬ VuelveIgual cuatroFrames (estadoDeUnaPagina 24) 0 (segmentoDeUnaPagina 24) 29 true 7 := by
  constructor
  · exact (vuelveIgual_iff cuatroFrames (estadoDeUnaPagina 20) 0 (segmentoDeUnaPagina 20) rfl 0 rfl
      ⟨true, 0, -1⟩ rfl 25 (by decide) true 7 (by decide) (by decide)).2
        ⟨by decide, by decide, fun hpres => absurd hpres (by decide)⟩
  · intro hvuelve
    have hentera := (vuelveIgual_iff cuatroFrames (estadoDeUnaPagina 24) 0
      (segmentoDeUnaPagina 24) rfl 0 rfl ⟨true, 0, -1⟩ rfl 29 (by decide) true 7 (by decide)
        (by decide)).1 hvuelve
    exact absurd hentera.cabe (by decide)

/-- Of the header at 29, three bytes are in the page and the mark is in the next one. -/
theorem not_vuelveIgual : ¬ ∀ (cfg : Configuracion) (s : Estado) (g : ℕ) (seg : Segmento) (p : ℕ)
    (pag : Pagina) (ubicacionHeap : ℤ) (isFree : Bool) (size : ℤ), 5 ≤ cfg.tamanioPag →
      s.segmentos[g]? = some seg → seg.tablaPaginas.getLast? = some p → s.paginas[p]? = some pag →
      ubicacionHeap / cfg.tamanioPag = (seg.tablaPaginas.length : ℤ) - 1 → 0 ≤ size →
      size < 4294967296 → VuelveIgual cfg s g seg ubicacionHeap isFree size := by
  intro hclaim
  have hvuelve := hclaim cuatroFrames (estadoDeUnaPagina 24) 0 (segmentoDeUnaPagina 24) 0
    ⟨true, 0, -1⟩ 29 true 7 (by decide) rfl rfl rfl (by decide) (by decide) (by decide)
  exact absurd (by decide) (not_seParte_of_vuelveIgual rfl hvuelve)

end Muse
