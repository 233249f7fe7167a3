import Linuse.Muse.Cabecera

/-!
# Compaction of a segment

`unificarHeaders` joins neighbouring free blocks and `eliminarPaginasLibresSegmento` takes away
the last pages of a segment when all their blocks are free. The size of a joined block does not
count the bytes of the header that disappears, the last header is never looked at, and all the
pages but the first one are taken away, whichever were counted. So both do what they are for only
when there is nothing to join and the data is in the first page (`compacta_iff`).
-/

namespace Muse

open Memory Marked

section Codigo

variable (cfg : Configuracion)

/-- The header at place `j` takes a new size, and the one at place `i` is removed. -/
def unirHeaders (metadatas : List HeapLista) (j i : ℕ) (size : ℤ) : List HeapLista :=
  (metadatas.modify j fun heap => { heap with size }).eraseIdx i

/-- The loop of `unificarHeaders` from place `i` on, with `heap` at place `j`. The place goes
forward also when the header in it has been removed. -/
def unificarDesde (g : ℕ) : ℕ → ℕ → ℕ → Codigo Unit
  | 0, _, _ => pure ()
  | vueltas + 1, j, i => do
      let seg ← segmento g
      if i + 1 < seg.metadatas.length then do
        let heap ← obtener seg.metadatas j
        let siguienteHeap ← obtener seg.metadatas i
        if heap.isFree = true ∧ siguienteHeap.isFree = true then do
          let size := signed (heap.size + siguienteHeap.size)
          modify fun s => s.modificarSegmento g fun seg =>
            { seg with metadatas := unirHeaders seg.metadatas j i size }
          modify fun s => s.copiar (unsigned (seg.baseLogica + heap.direccionHeap) -
            cfg.memoriaPrincipal) (bytesMetadata size true)
          unificarDesde g vueltas j (i + 1)
        else unificarDesde g vueltas i (i + 1)
      else pure ()

/-- `unificarHeaders`; the loop makes fewer passes than there are headers. -/
def unificarHeaders (idSegmento : ℤ) (idSocketCliente : ℕ) : Codigo ℕ := do
  let s ← gets id
  let segmentos ← orFail (s.tablasSegmentos.get idSocketCliente)
  let g ← obtener segmentos idSegmento
  let seg ← segmento g
  if 2 ≤ seg.metadatas.length then do
    unificarDesde cfg g seg.metadatas.length 0 1
    return g
  else return g

/-- `hayAlgunaMetadataOcupada`. -/
def hayAlgunaMetadataOcupada (seg : Segmento) (indicePagina : ℕ) : Bool :=
  seg.metadatas.any fun heap =>
    decide (heap.direccionHeap / cfg.tamanioPag = indicePagina) && !heap.isFree

/-- How many of the first `pag` pages have no occupied header, from the last one until one has. -/
def contarEliminadas (seg : Segmento) : ℕ → ℕ
  | 0 => 0
  | pag + 1 => if hayAlgunaMetadataOcupada cfg seg pag then 0 else contarEliminadas seg pag + 1

/-- The pages without the one at place `paginaAEliminar` and those before it, except the first. -/
def quitarPaginas : ℕ → List ℕ → List ℕ
  | 0, tabla => tabla
  | paginaAEliminar + 1, tabla =>
      quitarPaginas paginaAEliminar (tabla.eraseIdx (paginaAEliminar + 1))

/-- The segment without pages, when these have been counted. -/
def Segmento.sinPaginas (seg : Segmento) (paginasEliminadas : ℕ) : Segmento :=
  { seg with
    paginasLiberadas := signed (seg.paginasLiberadas + paginasEliminadas)
    tamanio := unsigned (seg.tamanio - paginasEliminadas * cfg.tamanioPag)
    tablaPaginas := quitarPaginas (seg.tablaPaginas.length - 1) seg.tablaPaginas }

/-- `eliminarPaginasLibresSegmento`; `none` is NULL. -/
def eliminarPaginasLibresSegmento (idSocketCliente : ℕ) (idSegmento : ℤ) : Codigo (Option ℕ) := do
  let s ← gets id
  (s.tablasSegmentos.get idSocketCliente).elim (pure none) fun segmentosProceso =>
    (elemento segmentosProceso idSegmento).elim (pure none) fun g => do
      let seg ← segmento g
      let paginasEliminadas := contarEliminadas cfg seg seg.tablaPaginas.length
      modify fun s => s.modificarSegmento g fun seg => seg.sinPaginas cfg paginasEliminadas
      return some g

end Codigo

variable {cfg : Configuracion} {ok : Estado → Suceso → Prop} {s t : Estado}
  {seg seg' : Segmento} {g : ℕ} {l m : List HeapLista}

/-! ## What compaction is for -/

/-- The headers are one after another, from the start of the segment to some place in its
pages. -/
structure Cubierto (cfg : Configuracion) (seg : Segmento) : Prop where
  primero : ∀ heap, seg.metadatas.head? = some heap → heap.direccionHeap = 0
  siguiente : Tiling HeapLista.direccionHeap HeapLista.fin seg.metadatas
  tamanios : ∀ heap ∈ seg.metadatas, 0 ≤ heap.size
  entra : ∀ heap, seg.metadatas.getLast? = some heap →
    heap.fin ≤ cfg.tamanioPag * seg.tablaPaginas.length

/-- No free block comes after another one. -/
def SinLibresJuntos (l : List HeapLista) : Prop :=
  l.IsChain fun heap siguiente => ¬ (heap.isFree = true ∧ siguiente.isFree = true)

/-- The address of a byte of an allocated block or of its header. -/
def ByteOcupado (l : List HeapLista) (a : ℤ) : Prop :=
  ∃ heap ∈ l, heap.isFree = false ∧ heap.direccionHeap ≤ a ∧ a < heap.fin

/-- The free blocks of the segment that come one after another have been joined. -/
structure Unificado (cfg : Configuracion) (s s' : Estado) (seg seg' : Segmento) : Prop where
  siguiente : Tiling HeapLista.direccionHeap HeapLista.fin seg'.metadatas
  inicio : seg'.metadatas.head?.map HeapLista.direccionHeap =
    seg.metadatas.head?.map HeapLista.direccionHeap
  fin : seg'.metadatas.getLast?.map HeapLista.fin = seg.metadatas.getLast?.map HeapLista.fin
  separados : SinLibresJuntos seg'.metadatas
  ocupados : (seg'.metadatas.filter fun heap => !heap.isFree) =
    seg.metadatas.filter fun heap => !heap.isFree
  datos : ∀ a, ByteOcupado seg.metadatas a → ∀ p,
    elemento seg.tablaPaginas (a / cfg.tamanioPag) = some p →
      byteDePagina cfg s' p (a % cfg.tamanioPag) = byteDePagina cfg s p (a % cfg.tamanioPag)

/-- Only the pages have been taken away that come after all bytes of allocated blocks. -/
structure Recortado (cfg : Configuracion) (seg seg' : Segmento) (quedan : ℕ) : Prop where
  menos : quedan ≤ seg.tablaPaginas.length
  paginas : seg'.tablaPaginas = seg.tablaPaginas.take quedan
  libres : ∀ a, ByteOcupado seg.metadatas a → a < cfg.tamanioPag * quedan
  ultima : 0 < quedan → ∃ a, ByteOcupado seg.metadatas a ∧ a / cfg.tamanioPag = (quedan : ℤ) - 1
  tamanio : seg'.tamanio =
    unsigned (seg.tamanio - (seg.tablaPaginas.length - quedan) * cfg.tamanioPag)
  metadatas : seg'.metadatas = seg.metadatas

/-- Both functions, one after the other, join the free blocks of segment `g` and take away its
free pages. -/
def Compacta (cfg : Configuracion) (s : Estado) (idSocketCliente : ℕ) (idSegmento : ℤ) (g : ℕ)
    (seg : Segmento) : Prop :=
  ∃ s' marcas seg' s'' marcas' seg'' quedan,
    Runs (unificarHeaders cfg idSegmento idSocketCliente) s g s' marcas ∧
    s'.segmentos[g]? = some seg' ∧ Unificado cfg s s' seg seg' ∧
    Runs (eliminarPaginasLibresSegmento cfg idSocketCliente idSegmento) s' (some g) s'' marcas' ∧
    s''.segmentos[g]? = some seg'' ∧ Recortado cfg seg' seg'' quedan

/-! ## The loop that joins -/

section Unir

variable {j i k : ℕ}

theorem getElem?_unirHeaders_of_ge (l : List HeapLista) (size : ℤ) (hj : j < i) (hk : i ≤ k) :
    (unirHeaders l j i size)[k]? = l[k + 1]? := by
  rw [unirHeaders, List.getElem?_eraseIdx_of_ge hk,
    List.getElem?_modify_ne _ _ (show j ≠ k + 1 by omega)]

theorem getElem?_unirHeaders_of_ne (l : List HeapLista) (size : ℤ) (hj : j ≠ k) (hk : k < i) :
    (unirHeaders l j i size)[k]? = l[k]? := by
  rw [unirHeaders, List.getElem?_eraseIdx_of_lt hk, List.getElem?_modify_ne _ _ hj]

theorem getElem?_unirHeaders_self (l : List HeapLista) (size : ℤ) (hj : j < i) :
    (unirHeaders l j i size)[j]? = l[j]?.map fun heap => { heap with size } := by
  rw [unirHeaders, List.getElem?_eraseIdx_of_lt hj, List.getElem?_modify_eq]
  rfl

theorem drop_unirHeaders (l : List HeapLista) (size : ℤ) (hj : j < i) :
    (unirHeaders l j i size).drop i = l.drop (i + 1) := by
  refine List.ext_getElem? fun k => ?_
  rw [List.getElem?_drop, getElem?_unirHeaders_of_ge l size hj (Nat.le_add_right i k),
    List.getElem?_drop]
  congr 1
  omega

end Unir

/-- Before the pass for place `i`, with `heap` at place `j`: from the place before `i` on the
headers are still those of the segment, and before it there is a gap if any blocks were joined. -/
structure EnPasada (l m : List HeapLista) (j i : ℕ) : Prop where
  antes : j < i
  resto : m.drop (i - 1) <:+ l
  huella : m = l ∨ ¬ Tiling HeapLista.direccionHeap HeapLista.fin (m.take i)

theorem enPasada_self (l : List HeapLista) : EnPasada l l 0 1 :=
  ⟨Nat.one_pos, List.suffix_refl l, .inl rfl⟩

namespace EnPasada

variable {j i : ℕ} {heap siguienteHeap : HeapLista}

/-- The next block is looked at. -/
theorem avanza (h : EnPasada l m j i) : EnPasada l m i (i + 1) := by
  have hi := h.antes
  refine ⟨Nat.lt_succ_self i, ?_, h.huella.imp_right fun hno htiling => hno ?_⟩
  · have hdrop : (m.drop (i - 1)).drop 1 = m.drop (i + 1 - 1) := by
      rw [List.drop_drop]
      congr 1
      omega
    rw [← hdrop]
    exact (List.drop_suffix 1 _).trans h.resto
  · have htake := htiling.take i
    rwa [List.take_take, Nat.min_eq_left (Nat.le_succ i)] at htake

/-- From the place before `i` on, the headers are one after another. -/
theorem start_eq (hl : Tiling HeapLista.direccionHeap HeapLista.fin l) (h : EnPasada l m j i)
    {k : ℕ} (hk : i ≤ k + 1) (hheap : m[k]? = some heap)
    (hsiguiente : m[k + 1]? = some siguienteHeap) : siguienteHeap.direccionHeap = heap.fin := by
  have hi := h.antes
  have hresto : Tiling HeapLista.direccionHeap HeapLista.fin (m.drop (i - 1)) := hl.suffix h.resto
  refine hresto.start_eq (k := k - (i - 1)) ?_ ?_
  · rw [List.getElem?_drop, ← hheap]
    congr 1
    omega
  · rw [List.getElem?_drop, ← hsiguiente]
    congr 1
    omega

/-- Joining the block of a place to an earlier one leaves a gap after the place before it: the
five bytes of the header that is removed, at least. -/
theorem une (hl : Tiling HeapLista.direccionHeap HeapLista.fin l)
    (hsize : ∀ heap ∈ l, 0 ≤ heap.size) (h : EnPasada l m j i) (hi : i + 1 < m.length)
    (hheap : m[j]? = some heap) (hsiguiente : m[i]? = some siguienteHeap) :
    EnPasada l (unirHeaders m j i (signed (heap.size + siguienteHeap.size))) j (i + 1) := by
  have hantes := h.antes
  obtain ⟨k, rfl⟩ : ∃ k, i = k + 1 := ⟨i - 1, by omega⟩
  refine ⟨hantes.trans (Nat.lt_succ_self _), ?_, .inr fun htiling => ?_⟩
  · rw [Nat.add_sub_cancel, drop_unirHeaders m _ hantes]
    have hresto := (List.drop_suffix 2 (m.drop k)).trans h.resto
    rwa [List.drop_drop] at hresto
  · obtain ⟨ultimo, hultimo⟩ : ∃ ultimo, m[k + 1 + 1]? = some ultimo :=
      ⟨_, List.getElem?_eq_getElem hi⟩
    obtain ⟨previo, hprevio⟩ : ∃ previo, m[k]? = some previo :=
      ⟨_, List.getElem?_eq_getElem (by omega)⟩
    have hprimera := h.start_eq hl le_rfl hprevio hsiguiente
    have hsegunda := h.start_eq hl (by omega) hsiguiente hultimo
    have hmem : siguienteHeap ∈ m.drop k :=
      List.mem_of_getElem? (i := 1) (by rw [List.getElem?_drop]; exact hsiguiente)
    have hpositivo := hsize siguienteHeap (h.resto.mem hmem)
    rw [HeapLista.fin, tamanioMetadata] at hprimera hsegunda
    have hultimo' : ((unirHeaders m j (k + 1) (signed (heap.size + siguienteHeap.size))).take
        (k + 1 + 1))[k + 1]? = some ultimo := by
      rw [List.getElem?_take_of_lt (Nat.lt_succ_self _),
        getElem?_unirHeaders_of_ge m _ hantes le_rfl, hultimo]
    rcases Nat.lt_succ_iff_lt_or_eq.1 hantes with hj | rfl
    · have hgap := htiling.start_eq (a := previo) ?_ hultimo'
      · rw [HeapLista.fin, tamanioMetadata] at hgap
        omega
      · rw [List.getElem?_take_of_lt (by omega),
          getElem?_unirHeaders_of_ne m _ hj.ne (Nat.lt_succ_self k), hprevio]
    · cases hheap.symm.trans hprevio
      have hgap := htiling.start_eq
        (a := { heap with size := signed (heap.size + siguienteHeap.size) }) ?_ hultimo'
      · simp only [HeapLista.fin, tamanioMetadata, signed] at hgap
        omega
      · rw [List.getElem?_take_of_lt (by omega), getElem?_unirHeaders_self m _ hantes, hheap]
        rfl

/-- The headers at the end are one after another only if nothing has been joined. -/
theorem eq_of_tiling (h : EnPasada l m j i)
    (htiling : Tiling HeapLista.direccionHeap HeapLista.fin m) : m = l :=
  h.huella.resolve_right fun hno => hno (htiling.take i)

end EnPasada

/-- Each pass of the loop keeps what holds before it. -/
theorem triple_unificarDesde (cfg : Configuracion)
    (htiling : Tiling HeapLista.direccionHeap HeapLista.fin seg.metadatas)
    (hsize : ∀ heap ∈ seg.metadatas, 0 ≤ heap.size) :
    ∀ (vueltas j i : ℕ) (m : List HeapLista), EnPasada seg.metadatas m j i →
      Triple ok (fun s => s.segmentos[g]? = some { seg with metadatas := m })
        (unificarDesde cfg g vueltas j i) fun _ s => ∃ m j i,
          EnPasada seg.metadatas m j i ∧ s.segmentos[g]? = some { seg with metadatas := m }
  | 0, j, i, m, h => triple_pure () fun _ hs => ⟨m, j, i, h, hs⟩
  | vueltas + 1, j, i, m, h => by
      refine triple_of_forall fun t ht => exec_segmento fun seg' hseg' => ?_
      cases ht.symm.trans hseg'
      refine triple_ite (fun hi => ?_) fun _ => exec_pure ⟨m, j, i, h, ht⟩
      refine triple_bind (triple_obtener _ _) fun heap => triple_assume fun hheap => ?_
      refine triple_bind (triple_obtener _ _) fun siguienteHeap =>
        triple_assume fun hsiguiente => ?_
      rw [elemento_natCast] at hheap hsiguiente
      refine triple_ite (fun _ => ?_) fun _ => ?_
      · refine exec_modify (exec_modify ?_)
        have hune := h.une htiling hsize hi hheap hsiguiente
        refine triple_conseq (triple_unificarDesde cfg htiling hsize vueltas j (i + 1) _ hune)
          (fun s hs => ?_) fun _ _ hs => hs
        rw [hs, Estado.copiar, Estado.modificarSegmento, List.getElem?_modify_eq, ht]
        rfl
      · exact triple_conseq (triple_unificarDesde cfg htiling hsize vueltas i (i + 1) m h.avanza)
          (fun s hs => by rw [hs, ht]) fun _ _ hs => hs

/-- Nothing is joined when no free block comes after another one. -/
theorem runs_unificarDesde (cfg : Configuracion) (hseg : s.segmentos[g]? = some seg)
    (h : SinLibresJuntos seg.metadatas) :
    ∀ vueltas i : ℕ, Runs (unificarDesde cfg g vueltas i (i + 1)) s () s []
  | 0, _ => runs_pure () s
  | vueltas + 1, i => by
      refine (runs_segmento hseg).bind ?_
      by_cases hi : i + 1 + 1 < seg.metadatas.length
      · have hlibres := List.isChain_iff_getElem.1 h i (Nat.lt_of_succ_lt hi)
        have hheap := List.getElem?_eq_getElem (show i < seg.metadatas.length by omega)
        have hsiguiente := List.getElem?_eq_getElem (show i + 1 < seg.metadatas.length by omega)
        rw [if_pos hi]
        refine (runs_obtener hheap s).bind ((runs_obtener hsiguiente s).bind ?_)
        rw [if_neg hlibres]
        exact runs_unificarDesde cfg hseg h vueltas (i + 1)
      · rw [if_neg hi]
        exact runs_pure () s

section Unificar

variable {sd : ℕ} {idSegmento : ℤ} {segmentosProceso : List ℕ}

/-- Headers that are one after another when `unificarHeaders` ends are those that it found. -/
theorem eq_of_unificarHeaders {s' : Estado} {marcas : List (Estado × Suceso)}
    (htabla : s.tablasSegmentos.get sd = some segmentosProceso)
    (hg : elemento segmentosProceso idSegmento = some g) (hseg : s.segmentos[g]? = some seg)
    (htiling : Tiling HeapLista.direccionHeap HeapLista.fin seg.metadatas)
    (hsize : ∀ heap ∈ seg.metadatas, 0 ≤ heap.size)
    (h : Runs (unificarHeaders cfg idSegmento sd) s g s' marcas)
    (hseg' : s'.segmentos[g]? = some seg')
    (htiling' : Tiling HeapLista.direccionHeap HeapLista.fin seg'.metadatas) : seg' = seg := by
  have htriple : Triple (fun _ _ => True) (· = s) (unificarHeaders cfg idSegmento sd) fun _ s' =>
      ∃ m j i, EnPasada seg.metadatas m j i ∧
        s'.segmentos[g]? = some { seg with metadatas := m } := by
    refine exec_gets (triple_orFail_bind fun l hl => ?_)
    cases htabla.symm.trans hl
    refine triple_bind (triple_obtener _ _) fun g' => triple_assume fun hg' => ?_
    cases hg.symm.trans hg'
    refine exec_segmento fun seg'' hseg'' => ?_
    cases hseg.symm.trans hseg''
    have hself := enPasada_self seg.metadatas
    refine triple_ite (fun _ => ?_) fun _ => exec_pure ⟨_, _, _, hself, hseg⟩
    refine triple_bind (triple_conseq (triple_unificarDesde cfg htiling hsize _ _ _ _ hself)
      (fun t ht => ?_) fun _ _ ht => ht) fun _ => triple_pure _ fun _ ht => ht
    rw [ht, hseg]
  obtain ⟨m, j, i, hpasada, hm⟩ := htriple s g s' marcas rfl h fun _ _ => trivial
  cases hseg'.symm.trans hm
  rw [hpasada.eq_of_tiling htiling']

theorem runs_unificarHeaders (cfg : Configuracion)
    (htabla : s.tablasSegmentos.get sd = some segmentosProceso)
    (hg : elemento segmentosProceso idSegmento = some g) (hseg : s.segmentos[g]? = some seg)
    (h : SinLibresJuntos seg.metadatas) :
    Runs (unificarHeaders cfg idSegmento sd) s g s [] := by
  refine (runs_gets id s).bind ((runs_orFail htabla s).bind ((runs_orFail hg s).bind
    ((runs_segmento hseg).bind ?_)))
  split_ifs
  · exact (runs_unificarDesde cfg hseg h _ 0).bind (runs_pure g s)
  · exact runs_pure g s

end Unificar

/-! ## The pages that are taken away -/

/-- Of all pages only the first one is left. -/
theorem quitarPaginas_eq_take :
    ∀ (n : ℕ) (tabla : List ℕ), tabla.length ≤ n + 1 → quitarPaginas n tabla = tabla.take 1
  | 0, _, h => (List.take_of_length_le h).symm
  | n + 1, tabla, h => by
      have hlen : (tabla.eraseIdx (n + 1)).length ≤ n + 1 := by
        rw [List.length_eraseIdx]
        split_ifs <;> omega
      rw [quitarPaginas, quitarPaginas_eq_take n _ hlen]
      exact List.take_eraseIdx_eq_take_of_le tabla 1 (n + 1) (Nat.le_add_left 1 n)

theorem hayAlgunaMetadataOcupada_iff (cfg : Configuracion) (seg : Segmento) (pag : ℕ) :
    hayAlgunaMetadataOcupada cfg seg pag = true ↔ ∃ heap ∈ seg.metadatas,
      heap.direccionHeap / cfg.tamanioPag = pag ∧ heap.isFree = false := by
  simp [hayAlgunaMetadataOcupada]

/-- When allocated blocks begin in the first page only, all the others are counted. -/
theorem contarEliminadas_eq (hprimera : hayAlgunaMetadataOcupada cfg seg 0 = true)
    (hotras : ∀ pag : ℕ, hayAlgunaMetadataOcupada cfg seg (pag + 1) = false) :
    ∀ n : ℕ, contarEliminadas cfg seg (n + 1) = n
  | 0 => if_pos hprimera
  | n + 1 => by
      rw [contarEliminadas, if_neg (by simp [hotras n]), contarEliminadas_eq hprimera hotras n]

theorem runs_eliminarPaginasLibresSegmento (cfg : Configuracion) {sd : ℕ} {idSegmento : ℤ}
    {segmentosProceso : List ℕ} (htabla : s.tablasSegmentos.get sd = some segmentosProceso)
    (hg : elemento segmentosProceso idSegmento = some g) (hseg : s.segmentos[g]? = some seg) :
    Runs (eliminarPaginasLibresSegmento cfg sd idSegmento) s (some g)
      (s.modificarSegmento g fun seg' =>
        seg'.sinPaginas cfg (contarEliminadas cfg seg seg.tablaPaginas.length)) [] := by
  refine (runs_gets id s).bind ?_
  rw [id, htabla, Option.elim_some, hg, Option.elim_some]
  exact (runs_segmento hseg).bind ((runs_modify _ s).bind (runs_pure _ _))

namespace Cubierto

variable {heap : HeapLista}

theorem inicio_lt_fin (h : Cubierto cfg seg) (hheap : heap ∈ seg.metadatas) :
    heap.direccionHeap < heap.fin :=
  HeapLista.inicio_lt_fin (h.tamanios heap hheap)

theorem direccion_nonneg (h : Cubierto cfg seg) (hheap : heap ∈ seg.metadatas) :
    0 ≤ heap.direccionHeap :=
  direccion_nonneg_of_tiling h.siguiente h.primero h.tamanios hheap

theorem fin_le (h : Cubierto cfg seg) (hheap : heap ∈ seg.metadatas) :
    heap.fin ≤ cfg.tamanioPag * seg.tablaPaginas.length := by
  obtain ⟨ultimo, hultimo⟩ : ∃ ultimo, seg.metadatas.getLast? = some ultimo := by
    rw [← Option.isSome_iff_exists, List.getLast?_isSome]
    exact List.ne_nil_of_mem hheap
  exact (h.siguiente.le_stop (fun heap hheap => (h.inicio_lt_fin hheap).le) hultimo hheap).trans
    (h.entra ultimo hultimo)

end Cubierto

/-- The segment has no pages, or there are allocated blocks and they are in the first page. -/
def EnPrimeraPagina (cfg : Configuracion) (seg : Segmento) : Prop :=
  seg.tablaPaginas = [] ∨ (∃ heap ∈ seg.metadatas, heap.isFree = false) ∧
    ∀ heap ∈ seg.metadatas, heap.isFree = false → heap.fin ≤ cfg.tamanioPag

theorem recortado_of_enPrimeraPagina (h : Cubierto cfg seg) (hprimera : EnPrimeraPagina cfg seg) :
    ∃ quedan, Recortado cfg seg
      (seg.sinPaginas cfg (contarEliminadas cfg seg seg.tablaPaginas.length)) quedan := by
  have hpos := cfg.positivo
  rcases hprimera with hnil | ⟨⟨heap, hheap, hocupado⟩, hfin⟩
  · refine ⟨0, Nat.zero_le _, ?_, ?_, fun hcero => absurd hcero (Nat.lt_irrefl 0), ?_, rfl⟩
    · rw [Segmento.sinPaginas, hnil]
      rfl
    · rintro a ⟨heap, hheap, -, hle, hlt⟩
      have hfin := h.fin_le hheap
      have hdir := h.direccion_nonneg hheap
      rw [hnil, List.length_nil] at hfin
      omega
    · rw [Segmento.sinPaginas, hnil]
      rfl
  · have hlen : 0 < seg.tablaPaginas.length := by
      by_contra hcero
      have hdir := h.direccion_nonneg hheap
      have hlt := h.inicio_lt_fin hheap
      have hle := h.fin_le hheap
      rw [Nat.eq_zero_of_not_pos hcero] at hle
      omega
    have hpagina : ∀ heap ∈ seg.metadatas, heap.isFree = false →
        heap.direccionHeap / cfg.tamanioPag = 0 := by
      intro heap hheap hocupado
      have hlt := h.inicio_lt_fin hheap
      have hle := hfin heap hheap hocupado
      exact Int.ediv_eq_zero_of_lt (h.direccion_nonneg hheap) (hlt.trans_le hle)
    have hcontadas : contarEliminadas cfg seg seg.tablaPaginas.length =
        seg.tablaPaginas.length - 1 := by
      obtain ⟨n, hn⟩ := Nat.exists_eq_add_of_lt hlen
      rw [zero_add] at hn
      rw [hn, Nat.add_sub_cancel]
      refine contarEliminadas_eq ?_ (fun pag => ?_) n
      · exact (hayAlgunaMetadataOcupada_iff cfg seg 0).2
          ⟨heap, hheap, hpagina heap hheap hocupado, hocupado⟩
      · refine Bool.eq_false_iff.2 fun hhay => ?_
        obtain ⟨otro, hotro, hpag, hlibre⟩ := (hayAlgunaMetadataOcupada_iff cfg seg _).1 hhay
        rw [hpagina otro hotro hlibre] at hpag
        omega
    refine ⟨1, hlen, ?_, ?_, fun _ => ?_, ?_, rfl⟩
    · exact quitarPaginas_eq_take _ _ (by omega)
    · rintro a ⟨heap, hheap, hocupado, -, hlt⟩
      have hle := hfin heap hheap hocupado
      omega
    · exact ⟨heap.direccionHeap, ⟨heap, hheap, hocupado, le_rfl, h.inicio_lt_fin hheap⟩,
        hpagina heap hheap hocupado⟩
    · rw [Segmento.sinPaginas, hcontadas, Nat.cast_sub hlen]

theorem enPrimeraPagina_of_recortado {eliminadas quedan : ℕ} (h : Cubierto cfg seg)
    (hrecortado : Recortado cfg seg (seg.sinPaginas cfg eliminadas) quedan) :
    EnPrimeraPagina cfg seg := by
  by_cases hlen : seg.tablaPaginas.length = 0
  · exact .inl (List.eq_nil_of_length_eq_zero hlen)
  · have hmenos := hrecortado.menos
    have huna : quedan = 1 := by
      have hpaginas := congrArg List.length hrecortado.paginas
      rw [Segmento.sinPaginas, quitarPaginas_eq_take _ _ (by omega), List.length_take,
        List.length_take] at hpaginas
      omega
    subst huna
    obtain ⟨a, ⟨heap, hheap, hocupado, -, -⟩, -⟩ := hrecortado.ultima Nat.one_pos
    refine .inr ⟨⟨heap, hheap, hocupado⟩, fun otro hotro hlibre => ?_⟩
    have hlt := h.inicio_lt_fin hotro
    have hultimo := hrecortado.libres (otro.fin - 1) ⟨otro, hotro, hlibre, by omega, by omega⟩
    omega

/-! ## When compaction does what it is for -/

/-- There is nothing to join, and the pages after the first one are free. -/
structure Compacto (cfg : Configuracion) (seg : Segmento) : Prop where
  separados : SinLibresJuntos seg.metadatas
  enPrimeraPagina : EnPrimeraPagina cfg seg

theorem unificado_self (h : Cubierto cfg seg) (hseparados : SinLibresJuntos seg.metadatas) :
    Unificado cfg s s seg seg :=
  ⟨h.siguiente, rfl, rfl, hseparados, rfl, fun _ _ _ _ => rfl⟩

section Compacta

variable {sd : ℕ} {idSegmento : ℤ} {segmentosProceso : List ℕ}

theorem compacta_of_compacto (htabla : s.tablasSegmentos.get sd = some segmentosProceso)
    (hg : elemento segmentosProceso idSegmento = some g) (hseg : s.segmentos[g]? = some seg)
    (h : Cubierto cfg seg) (hcompacto : Compacto cfg seg) :
    Compacta cfg s sd idSegmento g seg := by
  obtain ⟨quedan, hrecortado⟩ := recortado_of_enPrimeraPagina h hcompacto.enPrimeraPagina
  refine ⟨s, [], seg, _, [], _, quedan,
    runs_unificarHeaders cfg htabla hg hseg hcompacto.separados, hseg,
    unificado_self h hcompacto.separados,
    runs_eliminarPaginasLibresSegmento cfg htabla hg hseg, ?_, hrecortado⟩
  rw [Estado.modificarSegmento, List.getElem?_modify_eq, hseg]
  rfl

theorem compacto_of_compacta (htabla : s.tablasSegmentos.get sd = some segmentosProceso)
    (hg : elemento segmentosProceso idSegmento = some g) (hseg : s.segmentos[g]? = some seg)
    (h : Cubierto cfg seg) (hcompacta : Compacta cfg s sd idSegmento g seg) :
    Compacto cfg seg := by
  obtain ⟨s', marcas, seg', s'', marcas', seg'', quedan, hunificar, hseg', hunificado,
    heliminar, hseg'', hrecortado⟩ := hcompacta
  obtain rfl := eq_of_unificarHeaders htabla hg hseg h.siguiente h.tamanios hunificar hseg'
    hunificado.siguiente
  cases hunificar.symm.trans (runs_unificarHeaders cfg htabla hg hseg hunificado.separados)
  cases heliminar.symm.trans (runs_eliminarPaginasLibresSegmento cfg htabla hg hseg)
  rw [Estado.modificarSegmento, List.getElem?_modify_eq, hseg] at hseg''
  cases hseg''
  exact ⟨hunificado.separados, enPrimeraPagina_of_recortado h hrecortado⟩

end Compacta

/-- Compaction of a segment joins its free blocks and takes away its free pages if and only if
there is nothing to join and the allocated blocks are in the first page. -/
theorem compacta_iff (cfg : Configuracion) (s : Estado) (sd : ℕ) (segmentosProceso : List ℕ)
    (htabla : s.tablasSegmentos.get sd = some segmentosProceso) (idSegmento : ℤ) (g : ℕ)
    (hg : elemento segmentosProceso idSegmento = some g) (seg : Segmento)
    (hseg : s.segmentos[g]? = some seg) (h : Cubierto cfg seg) :
    Compacta cfg s sd idSegmento g seg ↔ Compacto cfg seg :=
  ⟨compacto_of_compacta htabla hg hseg h, compacta_of_compacto htabla hg hseg h⟩

/-- A process with one segment. -/
def estadoConSegmento (seg : Segmento) : Estado :=
  { (inicial cuatroFrames).ponerTabla 4 [0] with segmentos := [seg] }

theorem cubierto_segmentoDeUnaPagina : Cubierto cuatroFrames (segmentoDeUnaPagina 27) := by
  refine ⟨?_, ?_, ?_, ?_⟩
  · rintro heap hheap
    cases hheap
    rfl
  · exact List.isChain_singleton _
  · decide
  · rintro heap hheap
    cases hheap
    decide

/-- A segment of one page with two free blocks. -/
def segmentoLibre : Segmento :=
  ⟨true, none, 0, 1048576, 32, [0], 0, [⟨0, true, 5, false, 5⟩, ⟨10, true, 17, false, 5⟩]⟩

theorem cubierto_segmentoLibre : Cubierto cuatroFrames segmentoLibre := by
  refine ⟨?_, ?_, ?_, ?_⟩
  · rintro heap hheap
    cases hheap
    rfl
  · exact List.isChain_pair.2 rfl
  · decide
  · rintro heap hheap
    cases hheap
    decide

/-- A segment of one allocated block is as it should be; two free blocks are not joined. -/
theorem compacta_iff_unaPagina :
    Compacta cuatroFrames (estadoConSegmento (segmentoDeUnaPagina 27)) 4 0 0
        (segmentoDeUnaPagina 27) ∧
      ¬ Compacta cuatroFrames (estadoConSegmento segmentoLibre) 4 0 0 segmentoLibre := by
  constructor
  · refine (compacta_iff cuatroFrames _ 4 [0] rfl 0 0 rfl _ rfl
      cubierto_segmentoDeUnaPagina).2 ⟨List.isChain_singleton _, .inr ⟨?_, ?_⟩⟩
    · exact ⟨_, List.mem_singleton_self _, rfl⟩
    · intro heap hheap _
      obtain rfl := List.mem_singleton.1 hheap
      decide
  · intro hcompacta
    have hcompacto := (compacta_iff cuatroFrames _ 4 [0] rfl 0 0 rfl _ rfl
      cubierto_segmentoLibre).1 hcompacta
    exact List.isChain_pair.1 hcompacto.separados ⟨rfl, rfl⟩

/-- The loop ends before it looks at the second of two free blocks. -/
theorem not_compacta : ¬ ∀ (cfg : Configuracion) (s : Estado) (sd : ℕ)
    (segmentosProceso : List ℕ) (idSegmento : ℤ) (g : ℕ) (seg : Segmento),
      s.tablasSegmentos.get sd = some segmentosProceso →
      elemento segmentosProceso idSegmento = some g → s.segmentos[g]? = some seg →
      Cubierto cfg seg → Compacta cfg s sd idSegmento g seg := by
  intro hclaim
  have hcompacta := hclaim cuatroFrames (estadoConSegmento segmentoLibre) 4 [0] 0 0 segmentoLibre
    rfl rfl rfl cubierto_segmentoLibre
  have hcompacto := compacto_of_compacta rfl rfl rfl cubierto_segmentoLibre hcompacta
  exact List.isChain_pair.1 hcompacto.separados ⟨rfl, rfl⟩

end Muse
