import Linuse.Collections.Tiling
import Linuse.Muse.Alojamiento
import Linuse.Muse.Liberacion

/-!
# The blocks of a segment

The headers of a segment should be one after another, each with its bytes in pages of the
segment. The header after a new block is put at an address that is computed from the frame of
the last page, and in a page that the segment already has: it is in its place if and only if
the bytes that are added pass a page by less than a header, and the page has the frame with its
number (`Cierra`). While every request is like this, or is served with a free block, the headers
are right in every state (`embaldosada_of_exacta`).
-/

namespace Muse

open Memory Marked

variable {cfg : Configuracion} {ok : Estado → Suceso → Prop} {s t : Estado} {seg : Segmento}
  {g : ℕ}

/-- Where the block of a header ends. -/
def HeapLista.fin (heap : HeapLista) : ℤ := heap.direccionHeap + tamanioMetadata + heap.size

theorem HeapLista.inicio_lt_fin {heap : HeapLista} (h : 0 ≤ heap.size) :
    heap.direccionHeap < heap.fin := by
  rw [HeapLista.fin, tamanioMetadata]
  omega

/-- No header is before the first one, which is at 0. -/
theorem direccion_nonneg_of_tiling {metadatas : List HeapLista} {heap : HeapLista}
    (htiling : Tiling HeapLista.direccionHeap HeapLista.fin metadatas)
    (hprimero : ∀ heap, metadatas.head? = some heap → heap.direccionHeap = 0)
    (htam : ∀ heap ∈ metadatas, 0 ≤ heap.size) (hheap : heap ∈ metadatas) :
    0 ≤ heap.direccionHeap := by
  obtain ⟨primero, hcabeza⟩ : ∃ primero, metadatas.head? = some primero := by
    rw [← Option.isSome_iff_exists, List.isSome_head?]
    exact List.ne_nil_of_mem hheap
  rw [← hprimero primero hcabeza]
  exact htiling.start_le (fun heap hheap => (HeapLista.inicio_lt_fin (htam heap hheap)).le)
    hcabeza hheap

/-- The headers are one after another, in the pages of the segment. -/
structure Embaldosado (cfg : Configuracion) (seg : Segmento) : Prop where
  primero : seg.metadatas.head?.map HeapLista.direccionHeap = some 0
  siguiente : Tiling HeapLista.direccionHeap HeapLista.fin seg.metadatas
  enPaginas : ∀ heap ∈ seg.metadatas, ∀ n : ℕ, n < 5 →
    (elemento seg.tablaPaginas ((heap.direccionHeap + n) / cfg.tamanioPag)).isSome
  partido : ∀ heap ∈ seg.metadatas, heap.estaPartido = true ↔
    heap.direccionHeap / cfg.tamanioPag ≠ (heap.direccionHeap + 4) / cfg.tamanioPag
  tamanios : ∀ heap ∈ seg.metadatas, 0 ≤ heap.size
  separados : seg.metadatas.Pairwise fun heap otro => heap.fin ≤ otro.direccionHeap
  entra : ∀ heap, seg.metadatas.getLast? = some heap →
    heap.fin ≤ cfg.tamanioPag * seg.tablaPaginas.length

/-- What the headers say, apart from the pages of the segment. -/
structure Baldosas (cfg : Configuracion) (metadatas : List HeapLista) : Prop where
  primero : metadatas.head?.map HeapLista.direccionHeap = some 0
  siguiente : Tiling HeapLista.direccionHeap HeapLista.fin metadatas
  partido : ∀ heap ∈ metadatas, heap.estaPartido = true ↔
    heap.direccionHeap / cfg.tamanioPag ≠ (heap.direccionHeap + 4) / cfg.tamanioPag
  tamanios : ∀ heap ∈ metadatas, 0 ≤ heap.size

namespace Baldosas

variable {metadatas : List HeapLista} {heap ultimo : HeapLista}

theorem inicio_le_fin (h : Baldosas cfg metadatas) :
    ∀ heap ∈ metadatas, heap.direccionHeap ≤ heap.fin := by
  intro heap hheap
  exact (HeapLista.inicio_lt_fin (h.tamanios heap hheap)).le

theorem direccion_nonneg (h : Baldosas cfg metadatas) (hheap : heap ∈ metadatas) :
    0 ≤ heap.direccionHeap := by
  refine direccion_nonneg_of_tiling h.siguiente (fun primero hcabeza => ?_) h.tamanios hheap
  have hprimero := h.primero
  rw [hcabeza] at hprimero
  exact Option.some.inj hprimero

theorem exists_ultimo (h : Baldosas cfg metadatas) :
    ∃ ultimo, elemento metadatas (metadatas.length - 1) = some ultimo := by
  obtain ⟨primero, hprimero, _⟩ := Option.map_eq_some_iff.1 h.primero
  have hlen : 0 < metadatas.length := List.length_pos_iff_exists_mem.2
    ⟨primero, List.mem_of_head? hprimero⟩
  rw [elemento, if_neg (by omega), List.getElem?_eq_getElem (by omega)]
  exact ⟨_, rfl⟩

/-- The last header that fits in the pages makes the others fit. -/
theorem embaldosado (h : Baldosas cfg seg.metadatas)
    (hentra : ∀ heap, seg.metadatas.getLast? = some heap →
      heap.fin ≤ cfg.tamanioPag * seg.tablaPaginas.length) : Embaldosado cfg seg where
  primero := h.primero
  siguiente := h.siguiente
  enPaginas := by
    intro heap hheap n hn
    obtain ⟨ultimo, hultimo⟩ : ∃ ultimo, seg.metadatas.getLast? = some ultimo := by
      rw [← Option.isSome_iff_exists, List.getLast?_isSome]
      exact List.ne_nil_of_mem hheap
    have hfin := (h.siguiente.le_stop h.inicio_le_fin hultimo hheap).trans (hentra ultimo hultimo)
    have htam := h.tamanios heap hheap
    have hdir := h.direccion_nonneg hheap
    have hpos := cfg.positivo
    rw [HeapLista.fin, tamanioMetadata] at hfin
    have hdiv : 0 ≤ (heap.direccionHeap + n) / (cfg.tamanioPag : ℤ) :=
      Int.ediv_nonneg (by omega) (by omega)
    have hlt : (heap.direccionHeap + n) / (cfg.tamanioPag : ℤ) < seg.tablaPaginas.length := by
      refine Int.ediv_lt_of_lt_mul (by omega) ?_
      rw [mul_comm]
      omega
    rw [elemento, if_neg (by omega), List.getElem?_eq_getElem (by omega)]
    rfl
  partido := h.partido
  tamanios := h.tamanios
  separados := h.siguiente.pairwise h.inicio_le_fin
  entra := hentra

/-- The last block changes its size. -/
theorem conUltimo (h : Baldosas cfg (metadatas ++ [ultimo])) {tamanio : ℤ} (htam : 0 ≤ tamanio)
    (libre : Bool) :
    Baldosas cfg (metadatas ++ [{ ultimo with size := tamanio, isFree := libre }]) where
  primero := by
    have hprimero := h.primero
    rw [List.head?_append] at hprimero ⊢
    cases hhead : metadatas.head? <;> simp_all
  siguiente := h.siguiente.change_last rfl
  partido := by
    intro heap hheap
    rcases List.mem_append.1 hheap with hmem | hmem
    · exact h.partido heap (List.mem_append_left _ hmem)
    · rw [List.mem_singleton.1 hmem]
      exact h.partido ultimo (by simp)
  tamanios := by
    intro heap hheap
    rcases List.mem_append.1 hheap with hmem | hmem
    · exact h.tamanios heap (List.mem_append_left _ hmem)
    · rw [List.mem_singleton.1 hmem]
      exact htam

/-- One more block, where the last one ends. -/
theorem agregar (h : Baldosas cfg (metadatas ++ [ultimo]))
    (hdir : heap.direccionHeap = ultimo.fin) (htam : 0 ≤ heap.size)
    (hpartido : heap.estaPartido = true ↔
      heap.direccionHeap / cfg.tamanioPag ≠ (heap.direccionHeap + 4) / cfg.tamanioPag) :
    Baldosas cfg (metadatas ++ [ultimo, heap]) where
  primero := by
    have hprimero := h.primero
    rw [List.head?_append] at hprimero ⊢
    cases hhead : metadatas.head? <;> simp_all
  siguiente := Tiling.append_last_iff.2 ⟨h.siguiente, hdir⟩
  partido := by
    intro otro hotro
    rw [List.append_cons] at hotro
    rcases List.mem_append.1 hotro with hmem | hmem
    · exact h.partido otro hmem
    · rw [List.mem_singleton.1 hmem]
      exact hpartido
  tamanios := by
    intro otro hotro
    rw [List.append_cons] at hotro
    rcases List.mem_append.1 hotro with hmem | hmem
    · exact h.tamanios otro hmem
    · rw [List.mem_singleton.1 hmem]
      exact htam

end Baldosas

/-! ## The header after a new block -/

/-- The header that `asignarUltimaPaginaSegmento` puts after `x` bytes of a new page, when the
last page has frame `f`. -/
def heapCierre (cfg : Configuracion) (f x : ℤ) : HeapLista :=
  let direccionHeap := f * cfg.tamanioPag + (cfg.tamanioPag - tamanioMetadata + x)
  ⟨direccionHeap, decide (cfg.tamanioPag - x ≠ 0), signed (cfg.tamanioPag - x), true,
    cfg.tamanioPag - direccionHeap.tmod cfg.tamanioPag⟩

/-- In a segment with `m` pages the header after less than five bytes of a new page is split
between the last page and the new one, which it completes, if the last page has the frame with its
number. -/
structure Completa (cfg : Configuracion) (m : ℕ) (heap : HeapLista) : Prop where
  parte : seParte cfg heap.direccionHeap
  partido : heap.estaPartido = true ↔
    heap.direccionHeap / cfg.tamanioPag ≠ (heap.direccionHeap + 4) / cfg.tamanioPag
  tamanio : 0 ≤ heap.size
  fin : heap.fin = cfg.tamanioPag * (m + 1)
  libre : (if heap.isFree then heap.size else 0) = heap.size

theorem completa_heapCierre {m : ℕ} {f x : ℤ} (hP : cfg.tamanioPag < 2147483648) (hf : f + 1 = m)
    (hx : 0 < x) (hx5 : x < 5) (hxP : x ≤ cfg.tamanioPag)
    (hdir : 0 ≤ (heapCierre cfg f x).direccionHeap) : Completa cfg m (heapCierre cfg f x) := by
  have hpos := cfg.positivo
  have heq : (heapCierre cfg f x).direccionHeap = m * cfg.tamanioPag + (x - 5) := by
    rw [heapCierre, ← hf, tamanioMetadata]
    ring
  have hsize : (heapCierre cfg f x).size = cfg.tamanioPag - x := by
    change signed (cfg.tamanioPag - x) = _
    rw [signed]
    omega
  refine ⟨?_, iff_of_true rfl ?_, ?_, ?_, ?_⟩
  · rw [seParte, tamanioMetadata, Int.tmod_eq_emod_of_nonneg hdir, heq, add_comm,
      Int.add_mul_emod_self_right]
    by_cases h5 : (cfg.tamanioPag : ℤ) < 5
    · have hmod := Int.emod_nonneg (x - 5) (b := (cfg.tamanioPag : ℤ)) (by omega)
      omega
    · rw [← Int.add_emod_right, Int.emod_eq_of_lt (by omega) (by omega)]
      omega
  · rw [heq]
    have hlt : (m * cfg.tamanioPag + (x - 5)) / (cfg.tamanioPag : ℤ) < m :=
      Int.ediv_lt_of_lt_mul (by omega) (by omega)
    have hle : (m : ℤ) ≤ (m * cfg.tamanioPag + (x - 5) + 4) / (cfg.tamanioPag : ℤ) :=
      Int.le_ediv_of_mul_le (by omega) (by omega)
    omega
  · rw [hsize]
    omega
  · rw [HeapLista.fin, heq, hsize, tamanioMetadata]
    ring
  · rw [hsize]
    by_cases hzero : (cfg.tamanioPag : ℤ) - x = 0
    · rw [hzero, ite_self]
    · rw [if_pos]
      rw [heapCierre]
      exact decide_eq_true hzero

/-! ## The frame of the last page -/

/-- The frames that are free, in the order in which they are given. -/
def Estado.libres (s : Estado) : List ℕ :=
  (List.range s.frames.length).filter fun f => s.frames[f]?.any Frame.estaLibre

theorem buscarFrameLibre_eq (s : Estado) : buscarFrameLibre s = s.libres.head? := by
  rw [Estado.libres, List.head?_filter, buscarFrameLibre]
  apply Option.ext
  intro f
  rw [List.findIdx?_eq_some_iff_getElem, List.find?_range_eq_some, List.mem_range]
  constructor
  · rintro ⟨hlt, hlibre, hantes⟩
    refine ⟨by simpa [List.getElem?_eq_getElem hlt] using hlibre, hlt, fun i hi => ?_⟩
    simpa [List.getElem?_eq_getElem (hi.trans hlt)] using hantes i hi
  · rintro ⟨hlibre, hlt, hantes⟩
    refine ⟨hlt, by simpa [List.getElem?_eq_getElem hlt] using hlibre, fun i hi => ?_⟩
    simpa [List.getElem?_eq_getElem (hi.trans hlt)] using hantes i hi

theorem MismosLibres.libres (h : MismosLibres s t) : s.libres = t.libres := by
  have hany : ∀ (u : Estado) (f : ℕ), u.frames[f]?.any Frame.estaLibre =
      (u.frames.map Frame.estaLibre)[f]?.any id := by
    intro u f
    rw [List.getElem?_map, Option.any_map]
    rfl
  rw [Estado.libres, Estado.libres, h.length]
  refine List.filter_congr fun f _ => ?_
  rw [hany, hany, h]

/-- A frame that is not free any more. -/
theorem libres_modificarFrame (s : Estado) (f : ℕ) {h : Frame → Frame}
    (hocupa : ∀ x, (h x).estaLibre = false) :
    (s.modificarFrame f h).libres = s.libres.filter fun i => i ≠ f := by
  rw [Estado.libres, Estado.libres, List.filter_filter, Estado.length_modificarFrame_frames]
  refine List.filter_congr fun i _ => ?_
  rw [Estado.modificarFrame_frames, if_neg (by omega), Int.toNat_natCast, List.getElem?_modify]
  by_cases hif : f = i
  · subst hif
    cases s.frames[f]? <;> simp [hocupa]
  · simp [hif, Ne.symm hif]

theorem filter_ne_of_libres {f : ℕ} {l : List ℕ} (hlibres : s.libres = f :: l) :
    (s.libres.filter fun i => i ≠ f) = l := by
  have hnodup : (f :: l).Nodup := hlibres ▸ List.nodup_range.filter _
  rw [hlibres, List.filter_cons_of_neg (by simp)]
  refine List.filter_eq_self.2 fun i hi => ?_
  have hne : i ≠ f := fun heq => (List.nodup_cons.1 hnodup).1 (heq ▸ hi)
  simpa using hne

/-- The frame of the last page after `k` pages more. -/
def frameFinal (libres : List ℕ) (ultimo : Option ℤ) : ℕ → Option ℤ
  | 0 => ultimo
  | k + 1 => libres[k]?.map fun f : ℕ => (f : ℤ)

theorem frameFinal_cons (f : ℕ) (l : List ℕ) (ultimo : Option ℤ) (k : ℕ) :
    frameFinal (f :: l) ultimo (k + 1) = frameFinal l (some f) k := by
  cases k <;> simp [frameFinal]

/-- The frame number of the last page of a table. -/
def ultimoFrame (paginas : List Pagina) (tabla : List ℕ) : Option ℤ :=
  (elemento tabla (tabla.length - 1)).bind fun p => paginas[p]?.map Pagina.numeroFrame

/-- The segment under construction, the frames that are left and the pages. -/
structure Obra (t : Estado) (g : ℕ) (seg : Segmento) (libres : List ℕ) (paginas : List Pagina)
    (s : Estado) : Prop where
  queda : Queda t g seg s
  libres : s.libres = libres
  paginas : s.paginas = paginas

variable {l : List ℕ} {pags : List Pagina}

theorem Obra.modificarSegmento (h : Obra t g seg l pags s) (f : Segmento → Segmento) :
    Obra t g (f seg) l pags (s.modificarSegmento g f) :=
  ⟨h.queda.modificarSegmento f, h.libres, h.paginas⟩

theorem Obra.copiar (h : Obra t g seg l pags s) (a : ℤ) (datos : List UInt8) :
    Obra t g seg l pags (s.copiar a datos) :=
  ⟨queda_deSegmentos t g seg s _ rfl rfl h.queda, h.libres, h.paginas⟩

theorem triple_obra_modificarSegmento (f : Segmento → Segmento) :
    Triple ok (Obra t g seg l pags) (modify fun s => s.modificarSegmento g f) fun _ =>
      Obra t g (f seg) l pags :=
  triple_modify _ fun _ hs => hs.modificarSegmento f

theorem keeps_obra_copiar (a : ℤ) (datos : List UInt8) :
    Keeps ok (Obra t g seg l pags) (modify fun s => s.copiar a datos) :=
  keeps_modify _ fun _ hs => hs.copiar a datos

theorem keeps_obra_tocarFrame (i : ℤ) {f : Frame → Frame}
    (hf : ∀ x, (f x).estaLibre = x.estaLibre) :
    Keeps ok (Obra t g seg l pags) (tocarFrame i f) := by
  refine keeps_tocarFrame i f fun s hs => ⟨?_, ?_, ?_⟩
  · exact queda_deSegmentos t g seg s _ (by simp) (by simp) hs.queda
  · rw [(mismosLibres_modificarFrame s i hf).libres, hs.libres]
  · rw [Estado.modificarFrame_paginas, hs.paginas]

/-- A page in memory is where its frame is. -/
theorem triple_obra_posicion {p : ℕ} {pag : Pagina} (hpag : pags[p]? = some pag)
    (hpres : pag.presencia = true) :
    Triple ok (Obra t g seg l pags) (obtenerPosicionMemoriaPagina cfg p) fun pos s =>
      Obra t g seg l pags s ∧ pos = pag.numeroFrame * cfg.tamanioPag := by
  refine triple_of_forall fun u hu => triple_conseq (triple_posicion_quieta cfg u p)
    (fun _ hs => hs) ?_
  rintro pos s (⟨pag', hpag', _, rfl, rfl⟩ | ⟨⟨pag', hpag', haus⟩, _⟩)
  · rw [hu.paginas] at hpag'
    cases hpag.symm.trans hpag'
    exact ⟨hu, rfl⟩
  · rw [hu.paginas] at hpag'
    cases hpag.symm.trans hpag'
    rw [hpres] at haus
    cases haus

/-- A page is given the first of the free frames. -/
theorem triple_obra_paginaNueva {f : ℕ} :
    Triple ok (Obra t g seg (f :: l) pags) (paginaNueva cfg g) fun p s =>
      Obra t g (seg.conPaginas [p]) l (pags ++ [⟨true, f, -1⟩]) s ∧ p = pags.length := by
  refine triple_of_forall fun u hu => ?_
  have hlibre : buscarFrameLibre u = some f := by
    rw [buscarFrameLibre_eq, hu.libres, List.head?_cons]
  refine exec_bind (triple_asignarUnFrame cfg u) fun f' v hv => ?_
  rcases hv with ⟨hf, hv⟩ | ⟨hnone, _⟩
  · cases hlibre.symm.trans hf
    rw [hv]
    set w := (u.reservar f).modificarFrame f fun _ => ⟨true, true, false⟩
    have hpaginas : w.paginas = pags := by simp [w, Estado.reservar, hu.paginas]
    have hlibres : w.libres = l := by
      rw [libres_modificarFrame _ f fun _ => rfl, Estado.reservar,
        libres_modificarFrame u f fun _ => rfl, List.filter_filter]
      simpa only [Bool.and_self] using filter_ne_of_libres hu.libres
    have hpagina : Queda t g seg { w with paginas := w.paginas ++ [⟨true, f, -1⟩] } :=
      queda_deSegmentos t g seg u _ (by simp [w, Estado.reservar]) (by simp [w, Estado.reservar])
        hu.queda
    refine exec_tocarFrame fun _ => exec_gets (exec_modify (exec_pure ⟨⟨?_, hlibres, ?_⟩, ?_⟩))
    · exact hpagina.modificarSegmento fun seg => seg.conPaginas [w.paginas.length]
    · rw [← hpaginas]
      rfl
    · exact congrArg List.length hpaginas
  · cases hlibre.symm.trans hnone

/-! ## Pages and a header at the end -/

theorem ultimoFrame_conPaginas (seg : Segmento) (pags : List Pagina) (pag : Pagina) :
    ultimoFrame (pags ++ [pag]) (seg.conPaginas [pags.length]).tablaPaginas =
      some pag.numeroFrame := by
  rw [ultimoFrame, Segmento.conPaginas, List.length_append, List.length_singleton, Nat.cast_add,
    Nat.cast_one, add_sub_cancel_right, elemento_natCast, List.getElem?_concat_length,
    Option.bind_some, List.getElem?_concat_length, Option.map_some]

theorem triple_obra_asignarNuevaPagina {f : ℕ} :
    Triple ok (Obra t g seg (f :: l) pags) (asignarNuevaPagina cfg g) fun _ =>
      Obra t g ((seg.conPaginas [pags.length]).crecido cfg 1) l (pags ++ [⟨true, f, -1⟩]) := by
  refine triple_bind triple_obra_paginaNueva fun p => triple_assume fun hp => ?_
  rw [hp]
  exact triple_obra_modificarSegmento fun seg => seg.crecido cfg 1

/-- The segment after pages for some bytes and the header that follows them. -/
structure ConCierre (cfg : Configuracion) (seg : Segmento) (k : ℕ) (heap : HeapLista)
    (seg' : Segmento) : Prop where
  metadatas : seg'.metadatas = seg.metadatas ++ [heap]
  paginas : seg'.tablaPaginas.length = seg.tablaPaginas.length + k + 1

/-- The header goes in the last page and in one more. -/
theorem triple_asignarUltima_cierre {f x : ℤ}
    (hultimo : ultimoFrame pags seg.tablaPaginas = some f)
    (hparte : seParte cfg (heapCierre cfg f x).direccionHeap) :
    Triple ok (Obra t g seg l pags) (asignarUltimaPaginaSegmento cfg g x) fun _ s =>
      ∃ seg', ConCierre cfg seg 0 (heapCierre cfg f x) seg' ∧ Queda t g seg' s := by
  refine triple_of_forall fun u hu => ?_
  obtain ⟨p, hp, hmap⟩ := Option.bind_eq_some_iff.1 hultimo
  obtain ⟨pag, hpag, rfl⟩ := Option.map_eq_some_iff.1 hmap
  rw [← hu.paginas] at hpag
  refine exec_segmento fun seg' hseg' => ?_
  cases hu.queda.segmento.symm.trans hseg'
  refine triple_orFail_bind fun q hq => ?_
  cases hp.symm.trans hq
  refine exec_pagina fun pag' hpag' => ?_
  cases hpag.symm.trans hpag'
  refine exec_bind (triple_conseq (triple_queda_ubicar _ _ _ _)
    (fun s hs => by rw [hs]; exact hu.queda) fun _ _ hs => hs) fun sePartio v hv => ?_
  obtain ⟨seg', hubicado, hv⟩ := hv
  rw [Ubicado] at hubicado
  split_ifs at hubicado with hcabe
  · obtain ⟨_, q, rfl⟩ := hubicado
    refine triple_modify _ fun s hs => ?_
    rw [hs]
    exact ⟨_, ⟨rfl, by simp [Segmento.crecido, Segmento.conPaginas, Segmento.conHeap]⟩,
      hv.modificarSegmento fun seg => seg.crecido cfg 1⟩
  · exact absurd hparte hcabe

/-- The loop that gives pages, when the bytes pass `k` pages by less than a header. -/
theorem triple_asignarPaginas_cierre (k : ℕ) {bytes f : ℤ} (hmas : k * cfg.tamanioPag < bytes)
    (hhasta : bytes ≤ (k + 1) * cfg.tamanioPag)
    (hfinal : frameFinal l (ultimoFrame pags seg.tablaPaginas) k = some f)
    (hparte : seParte cfg (heapCierre cfg f (bytes - k * cfg.tamanioPag)).direccionHeap) :
    Triple ok (Obra t g seg l pags) (asignarPaginas cfg g (k + 1) bytes) fun _ s =>
      ∃ seg', ConCierre cfg seg k (heapCierre cfg f (bytes - k * cfg.tamanioPag)) seg' ∧
        Queda t g seg' s := by
  have hpos := cfg.positivo
  induction k generalizing seg pags l bytes with
  | zero =>
      simp only [Nat.cast_zero, zero_mul, sub_zero, zero_add, one_mul] at hmas hhasta hparte ⊢
      refine triple_ite (fun hlt => absurd hhasta (not_le.2 hlt)) fun _ => ?_
      refine triple_bind (triple_asignarUltima_cierre hfinal hparte) fun _ => ?_
      exact triple_pure _ fun _ hs => hs
  | succ k ih =>
      have hbytes : bytes - ((k + 1 : ℕ) : ℤ) * cfg.tamanioPag =
          bytes - cfg.tamanioPag - k * cfg.tamanioPag := by
        push_cast
        ring
      push_cast at hmas hhasta
      rw [add_mul, one_mul] at hmas
      rw [add_mul _ (1 : ℤ), one_mul] at hhasta
      rw [hbytes] at hparte ⊢
      have hcero := Int.mul_nonneg (Int.natCast_nonneg k) (Int.natCast_nonneg cfg.tamanioPag)
      refine triple_ite (fun _ => ?_) fun hle => absurd (by omega) hle
      cases l with
      | nil => cases hfinal
      | cons f' l =>
          rw [frameFinal_cons, ← ultimoFrame_conPaginas seg pags ⟨true, f', -1⟩] at hfinal
          refine triple_bind triple_obra_asignarNuevaPagina fun _ => ?_
          refine triple_conseq (P := Obra t g ((seg.conPaginas [pags.length]).crecido cfg 1) l _)
            (ih (by omega) (by omega) hfinal hparte) (fun _ hs => hs) ?_
          rintro _ s ⟨seg', hseg', hs⟩
          refine ⟨seg', ⟨hseg'.metadatas, hseg'.paginas.trans ?_⟩, hs⟩
          simp only [Segmento.crecido, Segmento.conPaginas, List.length_append,
            List.length_singleton]
          omega

/-! ## The first page -/

/-- The second part of a header that is split takes a free frame. -/
theorem triple_obra_partirMetadata {f p : ℕ} {pag : Pagina} (hpag : pags[p]? = some pag)
    (hpres : pag.presencia = true) (pos ubicacionHeap bytesPrimeraPagina : ℤ) (isFree : Bool)
    (size : ℤ) :
    Triple ok (Obra t g seg (f :: l) pags)
      (partirMetadata cfg g p pos ubicacionHeap bytesPrimeraPagina isFree size) fun _ =>
        Obra t g (((seg.conHeap ⟨ubicacionHeap, isFree, signed size, true,
          bytesPrimeraPagina⟩).conPaginas [pags.length]).crecido cfg 1) l
            (pags ++ [⟨true, f, -1⟩]) := by
  refine triple_bind (triple_obra_modificarSegmento fun seg => seg.conHeap _) fun _ => ?_
  refine triple_bind (keeps_obra_copiar _ _) fun _ => ?_
  refine triple_bind triple_obra_paginaNueva fun q => triple_assume fun hq => ?_
  rw [hq]
  refine triple_bind (triple_obra_modificarSegmento fun seg => seg.crecido cfg 1) fun _ => ?_
  refine triple_bind (triple_obra_posicion (List.getElem?_concat_length) rfl) fun pos' => ?_
  refine triple_assume fun _ => triple_bind (keeps_obra_copiar _ _) fun _ => ?_
  have hpag' : (pags ++ [⟨true, f, -1⟩])[p]? = some pag := by
    rw [List.getElem?_append_left (List.getElem?_eq_some_iff.1 hpag).1, hpag]
  refine triple_bind (triple_obra_posicion hpag' hpres) fun _ => ?_
  exact triple_pure _ fun _ hs => hs.1

/-- A header in a page that is in memory. -/
theorem triple_obra_ubicar {p : ℕ} {pag : Pagina} {ubicacionHeap size n : ℤ} {isFree : Bool}
    {R : Bool → Estado → Prop} (hp : elemento seg.tablaPaginas (n - 1) = some p)
    (hpag : pags[p]? = some pag) (hpres : pag.presencia = true)
    (hpartida : seParte cfg ubicacionHeap → ∀ pos, Triple ok (Obra t g seg l pags)
      (partirMetadata cfg g p pos ubicacionHeap
        (cfg.tamanioPag - ubicacionHeap.tmod cfg.tamanioPag) isFree size) fun _ => R true)
    (hentera : ¬ seParte cfg ubicacionHeap → ∀ s, Obra t g (seg.conHeap ⟨ubicacionHeap, isFree,
      signed size, false, tamanioMetadata⟩) l pags s → R false s) :
    Triple ok (Obra t g seg l pags) (ubicarMetadataYHeapLista cfg g ubicacionHeap isFree size n)
      R := by
  refine triple_of_forall fun u hu => ?_
  refine exec_segmento fun seg' hseg' => ?_
  cases hu.queda.segmento.symm.trans hseg'
  refine triple_orFail_bind fun q hq => ?_
  cases hp.symm.trans hq
  refine exec_pagina fun pag' _ => ?_
  refine triple_conseq (P := Obra t g seg l pags) ?_ (fun s hs => by rw [hs]; exact hu)
    fun _ _ hs => hs
  refine triple_bind (keeps_obra_tocarFrame _ fun _ => rfl) fun _ => ?_
  refine triple_bind (triple_obra_posicion hpag hpres) fun pos => triple_assume fun _ => ?_
  refine triple_ite (fun hparte => ?_) fun hcabe => ?_
  · exact triple_bind (hpartida hparte _) fun _ => triple_pure _ fun _ hs => hs
  · refine triple_bind (triple_obra_modificarSegmento fun seg => seg.conHeap _) fun _ => ?_
    exact triple_bind (keeps_obra_copiar _ _) fun _ => triple_pure _ (hentera hcabe)

/-- The pages that a new segment has when its first header is written. -/
def paginasPrimeras (cfg : Configuracion) : ℕ := if cfg.tamanioPag < 5 then 2 else 1

theorem seParte_cero_iff (cfg : Configuracion) : seParte cfg 0 ↔ cfg.tamanioPag < 5 := by
  rw [seParte, Int.zero_tmod, tamanioMetadata]
  omega

/-- The segment has the first header and its pages. -/
structure Iniciado (cfg : Configuracion) (seg : Segmento) : Prop where
  metadatas : ∃ heap, seg.metadatas = [heap] ∧ heap.direccionHeap = 0 ∧
    (heap.estaPartido = true ↔ cfg.tamanioPag < 5)
  paginas : seg.tablaPaginas.length = paginasPrimeras cfg

/-- A segment with its first header, which took the first of the frames. -/
def Abierta (cfg : Configuracion) (t : Estado) (g : ℕ) (libres : List ℕ) (s : Estado) : Prop :=
  ∃ seg l pags, Iniciado cfg seg ∧ (∀ k, frameFinal l (ultimoFrame pags seg.tablaPaginas) k =
    frameFinal libres none (k + paginasPrimeras cfg)) ∧ Obra t g seg l pags s

theorem abierta_partida {f f' : ℕ} {bytes size : ℤ} (htabla : seg.tablaPaginas = [])
    (hmetadatas : seg.metadatas = []) (h5 : cfg.tamanioPag < 5)
    (hs : Obra t g ((((seg.conPaginas [pags.length]).conHeap ⟨0, false, size, true,
      bytes⟩).conPaginas [(pags ++ [(⟨true, f, -1⟩ : Pagina)]).length]).crecido cfg 1) l
        (pags ++ [⟨true, f, -1⟩] ++ [⟨true, f', -1⟩]) s) :
    Abierta cfg t g (f :: f' :: l) s := by
  refine ⟨_, _, _, ⟨⟨⟨0, false, size, true, bytes⟩, ?_, rfl, iff_of_true rfl h5⟩, ?_⟩, ?_, hs⟩
  · simp [Segmento.crecido, Segmento.conPaginas, Segmento.conHeap, hmetadatas]
  · simp [Segmento.crecido, Segmento.conPaginas, Segmento.conHeap, htabla, paginasPrimeras, h5]
  · intro k
    rw [paginasPrimeras, if_pos h5, frameFinal_cons, frameFinal_cons]
    exact congrArg (frameFinal l · k) (ultimoFrame_conPaginas _ _ _)

theorem abierta_entera {f : ℕ} {bytes size : ℤ} (htabla : seg.tablaPaginas = [])
    (hmetadatas : seg.metadatas = []) (h5 : ¬ cfg.tamanioPag < 5)
    (hs : Obra t g ((seg.conPaginas [pags.length]).conHeap ⟨0, false, size, false, bytes⟩) l
      (pags ++ [⟨true, f, -1⟩]) s) :
    Abierta cfg t g (f :: l) s := by
  refine ⟨_, _, _, ⟨⟨⟨0, false, size, false, bytes⟩, ?_, rfl, iff_of_false (by simp) h5⟩, ?_⟩,
    ?_, hs⟩
  · simp [Segmento.conPaginas, Segmento.conHeap, hmetadatas]
  · simp [Segmento.conPaginas, Segmento.conHeap, htabla, paginasPrimeras, h5]
  · intro k
    rw [paginasPrimeras, if_neg h5, frameFinal_cons]
    exact congrArg (frameFinal l · k) (ultimoFrame_conPaginas seg _ _)

/-- The header of the first page, which has the first of the frames. -/
theorem triple_obra_primerHeap {f : ℕ} (size : ℤ) (htabla : seg.tablaPaginas = [])
    (hmetadatas : seg.metadatas = []) (hlibres : paginasPrimeras cfg ≤ (f :: l).length) :
    Triple ok (Obra t g (seg.conPaginas [pags.length]) l (pags ++ [⟨true, f, -1⟩]))
      (ubicarMetadataYHeapLista cfg g 0 false size 1) fun sePartio s =>
        sePartio = decide (cfg.tamanioPag < 5) ∧ Abierta cfg t g (f :: l) s := by
  have hpag : (pags ++ [(⟨true, f, -1⟩ : Pagina)])[pags.length]? = some ⟨true, f, -1⟩ :=
    List.getElem?_concat_length
  have hp : elemento (seg.conPaginas [pags.length]).tablaPaginas (1 - 1) = some pags.length := by
    rw [Segmento.conPaginas, htabla]
    rfl
  refine triple_obra_ubicar hp hpag rfl (fun hparte pos => ?_) fun hcabe s hs => ?_
  · have h5 := (seParte_cero_iff cfg).1 hparte
    rw [paginasPrimeras, if_pos h5] at hlibres
    cases l with
    | nil => simp at hlibres
    | cons f' l =>
        exact triple_conseq (triple_obra_partirMetadata hpag rfl _ _ _ _ _) (fun _ hs => hs)
          fun _ s hs => ⟨(decide_eq_true h5).symm, abierta_partida htabla hmetadatas h5 hs⟩
  · have h5 := mt (seParte_cero_iff cfg).2 hcabe
    exact ⟨(decide_eq_false h5).symm, abierta_entera htabla hmetadatas h5 hs⟩

/-- The first header takes the first frames. -/
theorem triple_obra_primera (tamanio : ℤ) (htabla : seg.tablaPaginas = [])
    (hmetadatas : seg.metadatas = []) (hlibres : paginasPrimeras cfg ≤ l.length) :
    Triple ok (Obra t g seg l pags) (asignarPrimeraPaginaSegmento cfg g tamanio) fun sePartio s =>
      sePartio = decide (cfg.tamanioPag < 5) ∧ Abierta cfg t g l s := by
  cases l with
  | nil =>
      rw [List.length_nil, paginasPrimeras] at hlibres
      split_ifs at hlibres <;> omega
  | cons f l =>
      refine triple_bind triple_obra_paginaNueva fun p => triple_assume fun hp => ?_
      rw [hp]
      refine triple_of_forall fun u hu => exec_pagina fun pag hpag => ?_
      rw [hu.paginas, List.getElem?_concat_length] at hpag
      cases hpag
      refine exec_segmento fun seg' hseg' => exec_gets ?_
      cases hu.queda.segmento.symm.trans hseg'
      have hindice : obtenerIndicePagina u (seg.conPaginas [pags.length]).tablaPaginas
          ⟨true, f, -1⟩ = 0 := by
        rw [obtenerIndicePagina, Segmento.conPaginas, htabla]
        simp [hu.paginas, indice]
      rw [id, hindice, zero_mul]
      refine triple_bind (triple_conseq (triple_obra_primerHeap tamanio htabla hmetadatas hlibres)
        (fun s hs => by rw [hs]; exact hu) fun _ _ hs => hs) fun sePartio => ?_
      refine triple_bind (Q := fun _ s => sePartio = decide (cfg.tamanioPag < 5) ∧
        Abierta cfg t g (f :: l) s) (triple_modify _ ?_) fun _ => triple_pure _ fun _ hs => hs
      rintro s ⟨hsePartio, seg', l', pags', hseg', hfinal, hs⟩
      exact ⟨hsePartio, seg'.crecido cfg _, l', pags', ⟨hseg'.metadatas, hseg'.paginas⟩, hfinal,
        hs.modificarSegmento fun seg => seg.crecido cfg (if sePartio then 2 else 1)⟩

/-! ## The header in its place -/

/-- The bytes pass a number of pages by less than a header, and the last page before the header,
when the segment has some pages already, gets the frame with its number. -/
def Cierra (cfg : Configuracion) (libres : List ℕ) (ultimo : Option ℤ) (paginas : ℕ) (bytes : ℤ) :
    Prop :=
  0 < bytes ∧ bytes < (paginasPara cfg bytes - 1) * cfg.tamanioPag + 5 ∧
    frameFinal libres ultimo (paginasPara cfg bytes - 1).toNat =
      some (paginas + paginasPara cfg bytes - 2)

instance (cfg : Configuracion) (libres : List ℕ) (ultimo : Option ℤ) (paginas : ℕ) (bytes : ℤ) :
    Decidable (Cierra cfg libres ultimo paginas bytes) :=
  inferInstanceAs (Decidable (_ ∧ _))

theorem Cierra.exists_paginas {libres : List ℕ} {ultimo : Option ℤ} {paginas : ℕ} {bytes : ℤ}
    (h : Cierra cfg libres ultimo paginas bytes) :
    ∃ k : ℕ, paginasPara cfg bytes = k + 1 ∧ k * cfg.tamanioPag < bytes ∧
      bytes ≤ (k + 1) * cfg.tamanioPag ∧ bytes < k * cfg.tamanioPag + 5 ∧
      frameFinal libres ultimo k = some ((paginas : ℤ) + k - 1) := by
  obtain ⟨hpos, hcorto, hfinal⟩ := h
  obtain ⟨k, hk, hmas, hhasta⟩ := exists_paginasPara cfg hpos
  rw [hk, add_sub_cancel_right] at hcorto hfinal
  refine ⟨k, hk, hmas, hhasta, hcorto, ?_⟩
  rw [Int.toNat_natCast] at hfinal
  rw [hfinal]
  congr 1
  omega

/-- The headers are right, and after the first block they complete the pages. -/
structure Rematado (cfg : Configuracion) (seg : Segmento) : Prop where
  baldosas : Baldosas cfg seg.metadatas
  entra : ∀ heap, seg.metadatas.getLast? = some heap →
    heap.fin ≤ cfg.tamanioPag * seg.tablaPaginas.length
  completa : 1 < seg.metadatas.length → ∀ heap, seg.metadatas.getLast? = some heap →
    heap.fin = cfg.tamanioPag * seg.tablaPaginas.length ∧
      (if heap.isFree then heap.size else 0) = heap.size

theorem Rematado.embaldosado (h : Rematado cfg seg) : Embaldosado cfg seg :=
  h.baldosas.embaldosado h.entra

theorem triple_asignarPaginas_rematado (k : ℕ) {bloques : List HeapLista} {ultimo : HeapLista}
    {tamanio bytes : ℤ} (hP : cfg.tamanioPag < 2147483648)
    (h : Baldosas cfg (bloques ++ [ultimo])) (htam : 0 ≤ tamanio)
    (hmetadatas : seg.metadatas = bloques ++ [{ ultimo with size := tamanio, isFree := false }])
    (hmas : k * cfg.tamanioPag < bytes) (hhasta : bytes ≤ (k + 1) * cfg.tamanioPag)
    (hcorto : bytes < k * cfg.tamanioPag + 5)
    (hfinal : frameFinal l (ultimoFrame pags seg.tablaPaginas) k =
      some ((seg.tablaPaginas.length : ℤ) + k - 1))
    (hdir : seg.tablaPaginas.length * cfg.tamanioPag + bytes =
      ultimo.direccionHeap + 10 + tamanio) :
    Triple ok (Obra t g seg l pags) (asignarPaginas cfg g (k + 1) bytes) fun _ s =>
      ∃ seg', Rematado cfg seg' ∧ Queda t g seg' s := by
  have hbaldosas := h.conUltimo htam false
  have hcero := h.direccion_nonneg (show ultimo ∈ bloques ++ [ultimo] by simp)
  set heap := heapCierre cfg (seg.tablaPaginas.length + k - 1) (bytes - k * cfg.tamanioPag)
    with hheap
  have hlugar : heap.direccionHeap = ultimo.direccionHeap + 5 + tamanio := by
    change (seg.tablaPaginas.length + k - 1 : ℤ) * cfg.tamanioPag +
      (cfg.tamanioPag - 5 + (bytes - k * cfg.tamanioPag)) = _
    rw [sub_mul, add_mul, one_mul]
    omega
  have hcompleta : Completa cfg (seg.tablaPaginas.length + k) heap :=
    completa_heapCierre hP (by push_cast; ring) (by omega) (by omega)
      (by rw [add_mul, one_mul] at hhasta; omega) (by rw [← hheap, hlugar]; omega)
  refine triple_conseq (triple_asignarPaginas_cierre k hmas hhasta hfinal hcompleta.parte)
    (fun _ hs => hs) ?_
  rintro _ s ⟨seg', hseg', hs⟩
  have hlista : seg'.metadatas =
      bloques ++ [{ ultimo with size := tamanio, isFree := false }, heap] := by
    rw [hseg'.metadatas, hmetadatas, List.append_assoc]
    rfl
  have hfin : heap.fin = cfg.tamanioPag * seg'.tablaPaginas.length := by
    rw [hcompleta.fin, hseg'.paginas]
    push_cast
    ring
  have hultimo : seg'.metadatas.getLast? = some heap := by
    rw [hlista]
    simp [List.getLast?_append]
  refine ⟨seg', ⟨?_, ?_, ?_⟩, hs⟩
  · rw [hlista]
    refine hbaldosas.agregar ?_ hcompleta.tamanio hcompleta.partido
    rw [hlugar]
    rfl
  · intro otro hotro
    cases hultimo.symm.trans hotro
    exact hfin.le
  · intro _ otro hotro
    cases hultimo.symm.trans hotro
    exact ⟨hfin, hcompleta.libre⟩

theorem conUltimoHeap_metadatas {bloques : List HeapLista} {ultimo : HeapLista}
    (hmetadatas : seg.metadatas = bloques ++ [ultimo]) (f : HeapLista → HeapLista) :
    (seg.conUltimoHeap f).metadatas = bloques ++ [f ultimo] := by
  rw [Segmento.conUltimoHeap, hmetadatas]
  apply List.ext_getElem?
  intro i
  rw [List.getElem?_modify, List.length_append, List.length_singleton, Nat.add_sub_cancel,
    List.getElem?_append, List.getElem?_append, List.getElem?_singleton, List.getElem?_singleton]
  split_ifs <;> first | omega | simp

/-- A segment is extended with its header in its place. -/
theorem triple_extenderSegmento_rematado {tamanio : ℤ} {ultimo : HeapLista}
    (hP : cfg.tamanioPag < 2147483648) (htam : 0 ≤ tamanio) (hentero : tamanio + 5 < 2147483648)
    (hseg : t.segmentos[g]? = some seg) (h : Rematado cfg seg)
    (hvarios : 1 < seg.metadatas.length)
    (hultimo : elemento seg.metadatas (seg.metadatas.length - 1) = some ultimo)
    (hcierra : Cierra cfg t.libres (ultimoFrame t.paginas seg.tablaPaginas)
      seg.tablaPaginas.length (bytesAAgregar ultimo tamanio)) :
    Triple ok (· = t) (extenderSegmento cfg g tamanio) fun _ s =>
      ∃ seg', Rematado cfg seg' ∧ Queda t g seg' s := by
  have hlast : seg.metadatas.getLast? = some ultimo := by
    rw [List.getLast?_eq_getElem?, ← hultimo, ← elemento_natCast]
    congr 1
    omega
  obtain ⟨bloques, hbloques⟩ := List.getLast?_eq_some_iff.1 hlast
  obtain ⟨hfin, hlibre⟩ := h.completa hvarios ultimo hlast
  obtain ⟨k, hk, hmas, hhasta, hcorto, hfinal⟩ := hcierra.exists_paginas
  have hbytes : bytesAAgregar ultimo tamanio = tamanio + 5 - ultimo.size := by
    rw [bytesAAgregar, hlibre, signed, tamanioMetadata]
    omega
  refine exec_segmento fun seg' hseg' => triple_orFail_bind fun ultimo' hultimo' => ?_
  cases hseg.symm.trans hseg'
  cases hultimo.symm.trans hultimo'
  refine exec_modify ?_
  change Triple ok _ (asignarPaginas cfg g (paginasPara cfg (bytesAAgregar ultimo tamanio)).toNat
    (bytesAAgregar ultimo tamanio)) _
  have hn : (paginasPara cfg (bytesAAgregar ultimo tamanio)).toNat = k + 1 := by omega
  rw [hn]
  have hobra : Obra t g seg t.libres t.paginas t := ⟨queda_self hseg, rfl, rfl⟩
  have hsigned : signed tamanio = tamanio := by
    rw [signed]
    omega
  rw [hsigned]
  refine triple_conseq (P := Obra t g (seg.conUltimoHeap fun heap =>
    { heap with size := tamanio, isFree := false }) t.libres t.paginas)
      (triple_asignarPaginas_rematado k hP (hbloques ▸ h.baldosas) htam
        (conUltimoHeap_metadatas hbloques _) hmas hhasta hcorto hfinal ?_) (fun s hs => ?_)
          fun _ _ hs => hs
  · rw [HeapLista.fin, tamanioMetadata] at hfin
    rw [hbytes, mul_comm]
    change (cfg.tamanioPag : ℤ) * seg.tablaPaginas.length + _ = _
    omega
  · rw [hs]
    exact hobra.modificarSegmento fun seg => seg.conUltimoHeap _

/-- The first header with the size of its block. -/
theorem Iniciado.baldosas (h : Iniciado cfg seg) : ∃ heap : HeapLista, seg.metadatas = [heap] ∧
    heap.direccionHeap = 0 ∧ Baldosas cfg ([] ++ [{ heap with size := 0 }]) := by
  have hpos := cfg.positivo
  obtain ⟨heap, hmetadatas, hdir, hpartido⟩ := h.metadatas
  refine ⟨heap, hmetadatas, hdir, congrArg some hdir, List.isChain_singleton _, ?_, ?_⟩
  · intro otro hotro
    rw [List.mem_singleton.1 hotro]
    change heap.estaPartido = true ↔ heap.direccionHeap / _ ≠ (heap.direccionHeap + 4) / _
    rw [hpartido, hdir, Int.zero_ediv, zero_add]
    constructor
    · intro h5
      have hle : (1 : ℤ) ≤ 4 / (cfg.tamanioPag : ℤ) := Int.le_ediv_of_mul_le (by omega) (by omega)
      omega
    · intro hne
      by_contra h5
      exact hne (Int.ediv_eq_zero_of_lt (by omega) (by omega)).symm
  · intro otro hotro
    rw [List.mem_singleton.1 hotro]

/-- The first block is right when it fits in a page with two headers, or the header after it goes
in its place. -/
def PrimerBloque (cfg : Configuracion) (libres : List ℕ) (tamanio : ℤ) : Prop :=
  tamanio + 10 < 2147483648 ∧
    (tamanio + 10 ≤ cfg.tamanioPag ∧ libres ≠ [] ∨ Cierra cfg libres none 0 (tamanio + 10))

theorem paginasPrimeras_eq (cfg : Configuracion) :
    paginasPrimeras cfg = 1 ∧ 5 ≤ cfg.tamanioPag ∨
      paginasPrimeras cfg = 2 ∧ cfg.tamanioPag < 5 := by
  rw [paginasPrimeras]
  split_ifs with h5
  · exact Or.inr ⟨rfl, h5⟩
  · exact Or.inl ⟨rfl, not_lt.1 h5⟩

theorem paginasPrimeras_le_of_final {tamanio f : ℤ} {k : ℕ} {libres : List ℕ} (htam : 0 ≤ tamanio)
    (hhasta : tamanio + 10 ≤ (k + 1) * cfg.tamanioPag)
    (hframe : frameFinal libres none k = some f) :
    paginasPrimeras cfg ≤ k ∧ k ≤ libres.length := by
  have hprimeras := paginasPrimeras_eq cfg
  cases k with
  | zero => cases hframe
  | succ k =>
      obtain ⟨f', hf', _⟩ := Option.map_eq_some_iff.1 hframe
      have hlt := (List.getElem?_eq_some_iff.1 hf').1
      refine ⟨?_, hlt⟩
      by_contra hmenos
      have hcero : k = 0 ∧ cfg.tamanioPag < 5 := by omega
      obtain ⟨rfl, h5⟩ := hcero
      push_cast at hhasta
      omega

/-- The pages of the first block that come after those of its header. -/
theorem triple_paginasDelPrimero {tamanio : ℤ} (hP : cfg.tamanioPag < 2147483648)
    (htam : 0 ≤ tamanio) {libres : List ℕ} (hbloque : PrimerBloque cfg libres tamanio)
    (hiniciado : Iniciado cfg seg)
    (hfinal : ∀ k, frameFinal l (ultimoFrame pags seg.tablaPaginas) k =
      frameFinal libres none (k + paginasPrimeras cfg)) :
    Triple ok (Obra t g (seg.conUltimoHeap fun heap =>
        { heap with size := tamanio, isFree := false }) l pags)
      (asignarPaginas cfg g (paginasPara cfg (tamanio + 10) - paginasPrimeras cfg).toNat
        (tamanio + 10 - paginasPrimeras cfg * cfg.tamanioPag)) fun _ s =>
          ∃ seg', Rematado cfg seg' ∧ Queda t g seg' s := by
  have hpos := cfg.positivo
  have hprimeras := paginasPrimeras_eq cfg
  have hpaginas := hiniciado.paginas
  obtain ⟨heap, hmetadatas, hdir, hbaldosas⟩ := hiniciado.baldosas
  have hultimo := conUltimoHeap_metadatas (show seg.metadatas = [] ++ [heap] from hmetadatas)
    fun heap => { heap with size := tamanio, isFree := false }
  have hprimero : Baldosas cfg ([] ++ [{ heap with size := tamanio, isFree := false }]) :=
    Baldosas.conUltimo hbaldosas htam false
  rcases hbloque.2 with ⟨hcabe, _⟩ | hcierra
  · have hle := (paginasPara_le_iff cfg (tamanio + 10) 1).2 (by omega)
    have hn : (paginasPara cfg (tamanio + 10) - paginasPrimeras cfg).toNat = 0 := by omega
    rw [hn]
    refine triple_pure _ fun s hs => ⟨_, ⟨hultimo ▸ hprimero, ?_, ?_⟩, hs.queda⟩
    · rw [hultimo]
      intro otro hotro
      cases hotro
      change heap.direccionHeap + 5 + tamanio ≤ cfg.tamanioPag * seg.tablaPaginas.length
      have hone : seg.tablaPaginas.length = 1 := by omega
      rw [hone, hdir]
      omega
    · rw [hultimo]
      intro h
      simp at h
  · obtain ⟨k, hk, hmas, hhasta, hcorto, hframe⟩ := hcierra.exists_paginas
    obtain ⟨j, rfl⟩ := Nat.exists_eq_add_of_le' (paginasPrimeras_le_of_final htam hhasta hframe).1
    push_cast at hk hmas hhasta hcorto hframe
    have hn : (paginasPara cfg (tamanio + 10) - paginasPrimeras cfg).toNat = j + 1 := by omega
    have htabla : (seg.conUltimoHeap fun heap =>
        { heap with size := tamanio, isFree := false }).tablaPaginas.length = paginasPrimeras cfg :=
      hpaginas
    rw [hn]
    simp only [add_mul, one_mul] at hmas hhasta hcorto
    refine triple_asignarPaginas_rematado j hP hbaldosas htam hultimo (by omega)
      (by rw [add_mul, one_mul]; omega) (by omega) ?_ ?_
    · have hmismo : (paginasPrimeras cfg : ℤ) + j - 1 = 0 + (j + paginasPrimeras cfg) - 1 := by ring
      rw [htabla, hmismo, ← hframe]
      exact hfinal j
    · rw [htabla]
      change _ = heap.direccionHeap + 10 + tamanio
      omega

/-- What is left of `crearSegmento` after the first page. -/
theorem triple_restoDeSegmento_rematado {nuevo : Segmento} {tamanio : ℤ}
    (hP : cfg.tamanioPag < 2147483648) (htam : 0 ≤ tamanio)
    (hbloque : PrimerBloque cfg t.libres tamanio) (sd : ℕ) (tabla : List ℕ) :
    Triple ok (Abierta cfg (t.agregarSegmento nuevo) t.segmentos.length t.libres) (do
      modify fun s => s.modificarUltimoHeap t.segmentos.length fun heap =>
        { heap with size := tamanio, isFree := false }
      asignarPaginas cfg t.segmentos.length
        (paginasPara cfg (tamanio + 10) - paginasPrimeras cfg).toNat
        (tamanio + 10 - paginasPrimeras cfg * cfg.tamanioPag)
      modify fun s => s.ponerTabla sd tabla
      return t.segmentos.length) fun _ s =>
        ∃ seg, Rematado cfg seg ∧ s.segmentos = t.segmentos ++ [seg] := by
  refine triple_of_forall fun u hu => ?_
  obtain ⟨seg, l, pags, hiniciado, hfinal, hobra⟩ := hu
  refine exec_modify ?_
  refine triple_conseq (P := Obra (t.agregarSegmento nuevo) t.segmentos.length
    (seg.conUltimoHeap fun heap => { heap with size := tamanio, isFree := false }) l pags) ?_
      (fun s hs => ?_) fun _ _ hs => hs
  · refine triple_bind (triple_paginasDelPrimero hP htam hbloque hiniciado hfinal) fun _ => ?_
    refine triple_bind (Q := fun _ s => ∃ seg, Rematado cfg seg ∧
      s.segmentos = t.segmentos ++ [seg]) (triple_modify _ ?_) fun _ => triple_pure _ fun _ hs => hs
    rintro s ⟨seg', hseg', hs⟩
    exact ⟨seg', hseg', hs.agregado⟩
  · rw [hs]
    exact hobra.modificarSegmento fun seg => seg.conUltimoHeap _

/-- There are frames for the first header. -/
theorem PrimerBloque.paginasPrimeras_le {libres : List ℕ} {tamanio : ℤ}
    (h : PrimerBloque cfg libres tamanio) (htam : 0 ≤ tamanio) :
    paginasPrimeras cfg ≤ libres.length := by
  have hprimeras := paginasPrimeras_eq cfg
  rcases h.2 with ⟨hcabe, hne⟩ | hcierra
  · have hlen := List.length_pos_of_ne_nil hne
    omega
  · obtain ⟨k, _, _, hhasta, _, hframe⟩ := hcierra.exists_paginas
    have hkp := paginasPrimeras_le_of_final htam hhasta hframe
    exact hkp.1.trans hkp.2

/-- The first segment of a process is right when its block is. -/
theorem triple_crearSegmento_rematado {tamanio : ℤ} (sd : ℕ) (hP : cfg.tamanioPag < 2147483648)
    (htam : 0 ≤ tamanio) (hget : t.tablasSegmentos.get sd = some [])
    (hbloque : PrimerBloque cfg t.libres tamanio) :
    Triple ok (· = t) (crearSegmento cfg tamanio sd) fun _ s =>
      ∃ seg, Rematado cfg seg ∧ s.segmentos = t.segmentos ++ [seg] := by
  have hentero := hbloque.1
  have hsigned : signed tamanio = tamanio := by
    rw [signed]
    omega
  have halocado : unsigned (tamanio + 2 * tamanioMetadata) = tamanio + 10 := by
    rw [unsigned, tamanioMetadata]
    omega
  have halocado' : signed (tamanio + 10) = tamanio + 10 := by
    rw [signed]
    omega
  refine exec_gets (triple_orFail_bind fun segmentosProceso hl => ?_)
  cases hget.symm.trans hl
  refine exec_bind (Q := fun _ s => s = t) ?_ ?_
  · rw [baseNueva, if_pos rfl]
    exact exec_pure rfl
  intro base s hs
  rw [hs]
  refine exec_modify ?_
  set nuevo : Segmento := ⟨true, none, ([] : List ℕ).length, base, 0, [], 0, []⟩
  have hobra : Obra (t.agregarSegmento nuevo) t.segmentos.length nuevo t.libres t.paginas
      (t.agregarSegmento nuevo) :=
    ⟨queda_self (by simp [Estado.agregarSegmento]), rfl, rfl⟩
  have hlibres := hbloque.paginasPrimeras_le htam
  simp only [halocado, halocado', hsigned, id]
  refine exec_bind (triple_conseq (triple_obra_primera tamanio rfl rfl hlibres)
    (fun s hs => by rw [hs]; exact hobra) fun _ _ hs => hs) fun sePartio s hs => ?_
  obtain ⟨rfl, hs⟩ := hs
  have hprimeras : (if decide (cfg.tamanioPag < 5) = true then 2 else 1 : ℤ) =
      paginasPrimeras cfg := by
    rw [paginasPrimeras]
    split_ifs <;> simp_all
  rw [hprimeras]
  exact triple_conseq (triple_restoDeSegmento_rematado hP htam hbloque sd _)
    (fun u hu => by rw [hu]; exact hs) fun _ _ hs => hs

/-! ## A request for a block -/

/-- The headers of every segment are right. -/
def Embaldosada (cfg : Configuracion) (s : Estado) : Prop :=
  ∀ (g : ℕ) (seg : Segmento), s.segmentos[g]? = some seg → Embaldosado cfg seg

def Rematada (cfg : Configuracion) (s : Estado) : Prop :=
  ∀ (g : ℕ) (seg : Segmento), s.segmentos[g]? = some seg → Rematado cfg seg

/-- A block after the last one is right when there is one block at least before the last header
and the header after it goes in its place. -/
def SiguienteBloque (cfg : Configuracion) (s : Estado) (seg : Segmento) (ultimo : HeapLista)
    (tamanio : ℤ) : Prop :=
  tamanio + 5 < 2147483648 ∧ 1 < seg.metadatas.length ∧
    Cierra cfg s.libres (ultimoFrame s.paginas seg.tablaPaginas) seg.tablaPaginas.length
      (bytesAAgregar ultimo tamanio)

/-- The request is served with a free block, or puts a header in its place. -/
def Exacta (cfg : Configuracion) (s : Estado) (sd : ℕ) (tamanio : ℤ) : Prop :=
  ∀ segmentos ∈ s.tablasSegmentos.get sd,
    (segmentos = [] → PrimerBloque cfg s.libres tamanio) ∧
    (segmentos ≠ [] → Reutilizable s segmentos tamanio ∨
      ∀ g ∈ segmentos, ∀ seg ∈ s.segmentos[g]?,
        ∀ ultimo ∈ elemento seg.metadatas (seg.metadatas.length - 1),
          SiguienteBloque cfg s seg ultimo tamanio)

instance (s : Estado) (segmentosProceso : List ℕ) (tamanio : ℤ) :
    Decidable (Reutilizable s segmentosProceso tamanio) :=
  decidable_of_iff
    (∃ g ∈ buscarSegmentoConTamanioDisponible s segmentosProceso
        (signed (tamanio + tamanioMetadata)), ∃ seg ∈ s.segmentos[g]?,
      ∃ heap ∈ seg.metadatas, heap.isFree = true ∧ tamanio ≤ unsigned heap.size) <| by
    simp only [Reutilizable, Option.mem_def, exists_and_left]

instance (cfg : Configuracion) (libres : List ℕ) (tamanio : ℤ) :
    Decidable (PrimerBloque cfg libres tamanio) := inferInstanceAs (Decidable (_ ∧ _))

instance (cfg : Configuracion) (s : Estado) (seg : Segmento) (ultimo : HeapLista) (tamanio : ℤ) :
    Decidable (SiguienteBloque cfg s seg ultimo tamanio) := inferInstanceAs (Decidable (_ ∧ _))

instance (cfg : Configuracion) (s : Estado) (sd : ℕ) (tamanio : ℤ) :
    Decidable (Exacta cfg s sd tamanio) :=
  inferInstanceAs (Decidable (∀ _ ∈ _, _))

theorem rematada_agregado (ht : Rematada cfg t) (hseg : Rematado cfg seg)
    (hs : s.segmentos = t.segmentos ++ [seg]) : Rematada cfg s := by
  intro g seg' hg
  rw [hs, List.getElem?_append] at hg
  split_ifs at hg with hlt
  · exact ht g seg' hg
  · rw [List.getElem?_singleton] at hg
    split_ifs at hg
    cases hg
    exact hseg

theorem Queda.rematada (h : Queda t g seg s) (ht : Rematada cfg t) (hseg : Rematado cfg seg) :
    Rematada cfg s := by
  intro g' seg' hg
  rw [h.segmentos, List.getElem?_set] at hg
  split_ifs at hg with heq hlt
  · cases hg
    exact hseg
  · exact ht g' seg' hg

theorem rematada_deSegmentos (cfg : Configuracion) : DeSegmentos (Rematada cfg) := by
  intro s s' _ hs h
  rw [Rematada, hs]
  exact h

/-- Nothing changes when no free block is found. -/
theorem triple_reutilizar_none (segmentosProceso : List ℕ) (tamanio : ℤ) :
    Triple ok (· = t) (reutilizar cfg segmentosProceso tamanio) fun direccion s =>
      direccion = none → s = t := by
  refine exec_gets (triple_elim (fun _ => exec_pure fun _ => rfl) fun g _ => ?_)
  refine exec_segmento fun seg _ => triple_elim (fun _ => exec_pure fun _ => rfl) fun heap _ => ?_
  refine triple_bind (triple_true _) fun direccion => triple_pure _ fun s _ hsome => ?_
  cases hsome

theorem triple_enPrimerSegmento_rematada {tamanio : ℤ} (sd : ℕ) (hP : cfg.tamanioPag < 2147483648)
    (htam : 0 ≤ tamanio) (hget : t.tablasSegmentos.get sd = some []) (ht : Rematada cfg t)
    (hbloque : PrimerBloque cfg t.libres tamanio) :
    Triple ok (· = t) (enPrimerSegmento cfg tamanio sd) fun _ => Rematada cfg := by
  refine triple_bind (Q := fun _ => Rematada cfg) (triple_conseq
    (triple_crearSegmento_rematado sd hP htam hget hbloque) (fun _ hs => hs) ?_) fun g => ?_
  · rintro _ s ⟨seg, hseg, hs⟩
    exact rematada_agregado ht hseg hs
  · refine keeps_bind (keeps_segmento g) fun _ => keeps_bind (keeps_obtener _ _) fun p => ?_
    exact keeps_bind ((rematada_deSegmentos cfg).keeps_obtenerPosicionMemoriaPagina cfg p)
      fun _ => keeps_pure _

theorem triple_enSegmentos_rematada {tamanio : ℤ} (sd : ℕ) (hP : cfg.tamanioPag < 2147483648)
    (htam : 0 ≤ tamanio) (hseg : t.segmentos[g]? = some seg)
    (hrasgo : (rasgos t)[g]? = some (0, true)) (ht : Rematada cfg t)
    (hbloque : Reutilizable t [g] tamanio ∨
      ∀ ultimo ∈ elemento seg.metadatas (seg.metadatas.length - 1),
        SiguienteBloque cfg t seg ultimo tamanio) :
    Triple ok (· = t) (enSegmentos cfg [g] tamanio sd) fun _ => Rematada cfg := by
  refine exec_bind (triple_conseq (triple_and (triple_reutilizar (t := t) [g] tamanio)
    (triple_reutilizar_none (t := t) [g] tamanio)) (fun _ hs => ⟨hs, hs⟩) fun _ _ hs => hs)
      fun direccion u hu => ?_
  obtain ⟨⟨hmismos, hreutilizable⟩, hnone⟩ := hu
  cases direccion with
  | some p =>
      refine exec_pure ?_
      exact rematada_deSegmentos cfg t u hmismos.1 hmismos.2 ht
  | none =>
      rw [hnone rfl]
      refine exec_bind (triple_conseq (triple_and (Invariante.keeps_buscarExtendible
        (I := fun s => s = t) [g] (signed tamanio) [0])
          (triple_buscarExtendible_unSegmento g (signed tamanio)))
            (fun s hs => ⟨hs, by rw [hs]; exact hrasgo⟩) fun _ _ hs => hs) fun extendible v hv => ?_
      rw [hv.1, hv.2]
      have hbloque' := hbloque.resolve_left fun h => by simpa using hreutilizable.2 h
      obtain ⟨ultimo, hultimo⟩ := (ht g seg hseg).baldosas.exists_ultimo
      obtain ⟨hentero, hvarios, hcierra⟩ := hbloque' ultimo hultimo
      refine triple_bind (Q := fun _ => Rematada cfg) (triple_conseq
        (triple_extenderSegmento_rematado hP htam hentero hseg (ht g seg hseg) hvarios hultimo
          hcierra) (fun _ hs => hs) ?_) fun _ => ?_
      · rintro _ s ⟨seg', hseg', hs⟩
        exact hs.rematada ht hseg'
      · refine keeps_bind (keeps_segmento g) fun _ => keeps_bind (keeps_obtener _ _) fun heap => ?_
        exact keeps_direccionDatos (fun p =>
          (rematada_deSegmentos cfg).keeps_obtenerPosicionMemoriaPagina cfg p) g heap

/-- A request that puts the header in its place, if it puts one, keeps the headers right. -/
theorem triple_musemalloc_rematada {tamanio : ℤ} (sd : ℕ) (hP : cfg.tamanioPag < 2147483648)
    (htam : 0 ≤ tamanio) (hun : UnSegmento sd t) (ht : Rematada cfg t)
    (hexacta : Exacta cfg t sd tamanio) :
    Triple ok (· = t) (musemalloc cfg tamanio sd) fun _ => Rematada cfg := by
  refine exec_gets (triple_elim (fun _ => exec_pure ht) fun l hl => ?_)
  obtain ⟨hprimero, hsiguiente⟩ := hexacta l hl
  rcases hun l hl with rfl | ⟨g, rfl, hg⟩
  · refine triple_ite (fun _ => ?_) fun hne => absurd rfl hne
    refine triple_bind (triple_enPrimerSegmento_rematada sd hP htam hl ht (hprimero rfl))
      fun _ => triple_pure _ fun _ hs => hs
  · refine triple_ite (fun hnil => absurd hnil (by simp)) fun _ => ?_
    obtain ⟨seg, hseg, _, _⟩ := segmento_of_rasgos hg
    refine triple_bind (triple_enSegmentos_rematada sd hP htam hseg hg ht ?_) fun _ =>
      triple_pure _ fun _ hs => hs
    exact (hsiguiente (by simp)).imp_right fun h => h g (by simp) seg hseg

/-! ## Runs -/

/-- The process and the size of a request for a block. -/
def Evento.aloja : Evento → Option (ℕ × UInt32)
  | .pide sd (.alloc tam) => some (sd, tam)
  | _ => none

/-- The event is no request that puts a header out of its place. -/
def PideExacta (cfg : Configuracion) (s : Estado) (e : Evento) : Prop :=
  ∀ pedido ∈ e.aloja, Exacta cfg s pedido.1 pedido.2.toNat

/-- There are free frames for the block and two headers. -/
def ConFrames (cfg : Configuracion) (s : Estado) (e : Evento) : Prop :=
  ∀ pedido ∈ e.aloja, paginasPara cfg (pedido.2.toNat + 2 * tamanioMetadata) ≤ s.libres.length

/-- An event keeps the headers right if it is no request that puts one out of its place. -/
theorem rematada_paso {e : Evento} (hP : cfg.tamanioPag < 2147483648)
    (hun : ∀ sd, UnSegmento sd t) (ht : Rematada cfg t) (hsolo : SoloAloja e)
    (hexacta : PideExacta cfg t e) (hstep : Avanza cfg t e s) : Rematada cfg s := by
  obtain ⟨r, marcas, hr⟩ := hstep
  by_cases halloc : ∃ sd, ∃ tam : UInt32, e = .pide sd (.alloc tam)
  · obtain ⟨sd, tam, rfl⟩ := halloc
    have hpaso : Triple TodaMarca (· = t) (paso cfg (.pide sd (.alloc tam))) fun _ =>
        Rematada cfg := by
      refine exec_gets (triple_ite (fun _ => triple_fail) fun _ => ?_)
      exact triple_bind (triple_musemalloc_rematada sd hP (Int.natCast_nonneg _) (hun sd) ht
        (hexacta (sd, tam) rfl)) fun _ => triple_pure _ fun _ hs => hs
    exact hpaso t r s marcas rfl hr fun _ _ => trivial
  · have hI : Keeps TodaMarca (Rematada cfg) (paso cfg e) :=
      keeps_paso_soloAloja hsolo (fun _ _ hs => hs) (fun _ _ hs _ => hs) fun sd tam heq =>
        absurd ⟨sd, tam, heq⟩ halloc
    exact hI t r s marcas ht hr fun _ _ => trivial

/-- While the processes only ask for blocks, and every request is served with a free block or puts
the header in its place, the headers of every segment are right in every state. -/
theorem embaldosada_of_exacta {tr : List (Transition.Step Estado Evento)}
    (hP : cfg.tamanioPag < 2147483648) (hrun : Alcanza cfg tr s)
    (hsolo : ∀ x ∈ tr, SoloAloja x.label) (hexacta : ∀ x ∈ tr, PideExacta cfg x.pre x.label) :
    Embaldosada cfg s := by
  have hrematada : Rematada cfg s ∧ ∀ sd, UnSegmento sd s := by
    refine (hrun.restrict hsolo).invariant (fun s => Rematada cfg s ∧ ∀ sd, UnSegmento sd s)
      (fun x => PideExacta cfg x.pre x.label) ⟨?_, ?_⟩ ?_ hexacta
    · intro g seg hseg
      cases hseg
    · intro sd l hl
      rw [inicial, Dictionary.get_empty] at hl
      cases hl
    · rintro u e u' ⟨hu, hun⟩ hpide ⟨hstep, hsoloe⟩
      refine ⟨rematada_paso hP hun hu hsoloe hpide hstep, fun sd => ?_⟩
      obtain ⟨r, marcas, hr⟩ := hstep
      have hkeeps : Keeps TodaMarca (UnSegmento sd) (paso cfg e) := keeps_paso_unSegmento sd hsoloe
      exact hkeeps u r u' marcas (hun sd) hr fun _ _ => trivial
  exact fun g seg hseg => (hrematada.1 g seg hseg).embaldosado

instance (cfg : Configuracion) (s : Estado) (e : Evento) : Decidable (PideExacta cfg s e) :=
  inferInstanceAs (Decidable (∀ _ ∈ _, _))

instance (cfg : Configuracion) (s : Estado) (e : Evento) : Decidable (ConFrames cfg s e) :=
  inferInstanceAs (Decidable (∀ _ ∈ _, _))

def cuatroFrames : Configuracion := { unFrame 2 with tamanioMemoria := 128 }

/-- One process asks for blocks of these sizes. -/
def bloquesDe (tamanios : List UInt32) : List Evento :=
  [.conecta 4, .pide 4 .init] ++ tamanios.map fun tam => .pide 4 (.alloc tam)

theorem embaldosada_of_exacta_tresBloques :
    Embaldosada cuatroFrames (Transition.final (siguienteEstado cuatroFrames)
      (inicial cuatroFrames) (bloquesDe [23, 27, 4])) :=
  embaldosada_of_exacta (by decide)
    (alcanza_of_acceptsAll cuatroFrames (bloquesDe [23, 27, 4]) (by decide +kernel))
    (by simp [bloquesDe, Transition.trace, SoloAloja]) (by decide +kernel)

/-- The header after the second block is out of its place. -/
theorem not_embaldosada : ¬ ∀ cfg tr s, Alcanza cfg tr s → (∀ x ∈ tr, SoloAloja x.label) →
    (∀ x ∈ tr, ConFrames cfg x.pre x.label) → Embaldosada cfg s := by
  intro h
  have hseg := h cuatroFrames _ _
    (alcanza_of_acceptsAll cuatroFrames (bloquesDe [4, 4]) (by decide +kernel))
    (by simp [bloquesDe, Transition.trace, SoloAloja]) (by decide +kernel) 0
    ⟨true, none, 0, 1048576, 64, [0], 0, [⟨0, false, 4, false, 5⟩, ⟨36, true, 23, false, 5⟩]⟩
    (by decide +kernel)
  exact absurd (List.isChain_cons_cons.1 hseg.siguiente).1 (by decide)

end Muse
