import Linuse.Muse.Embaldosado

/-!
# The blocks that a process has

A process that is alone in the memory has its pages in the first frames, in order, so that the
address of a block is the one of its header and five bytes more. `musemalloc` gives out the first
free block that is large enough and leaves it marked as free, or the last one: the blocks in use
are apart while none of them is given out again and the header after a new block goes where the
block ends (`sinSolapar_of_segura`).
-/

namespace Muse

open Memory Marked

/-! ## Blocks in use -/

/-- An address that `musemalloc` returned, and the size that was asked for. -/
structure Asignacion where
  direccion : ℤ
  tamanio : ℤ
  deriving DecidableEq

/-- The ranges have no byte in common. -/
def Ajenos (a n b m : ℤ) : Prop := ∀ x, ¬ ((a ≤ x ∧ x < a + n) ∧ b ≤ x ∧ x < b + m)

/-- The blocks in use after a request that gets this answer. -/
def anotar (vivas : List Asignacion) : Evento → Respuesta → List Asignacion
  | .pide _ (.alloc tam), .direccion (some p) => ⟨p, tam.toNat⟩ :: vivas
  | .pide _ (.free dir), _ => vivas.filter fun a => decide (unsigned a.direccion ≠ dir.toNat)
  | _, _ => vivas

/-- The blocks in use after an event. -/
def vivasTras (cfg : Configuracion) (vivas : List Asignacion)
    (x : Transition.Step Estado Evento) : List Asignacion :=
  (paso cfg x.label x.pre).elim vivas fun r => anotar vivas x.label r.1

/-- The blocks in use after a run: those that were returned and not freed since. -/
def vivas (cfg : Configuracion) (tr : List (Transition.Step Estado Evento)) : List Asignacion :=
  tr.foldl (vivasTras cfg) []

/-- The blocks in use have no byte in common, nor one of a header. The only segment of a process
that is alone starts with the memory. -/
structure SinSolapar (cfg : Configuracion) (s : Estado) (vivas : List Asignacion) : Prop where
  datos : vivas.Pairwise fun a b => Ajenos a.direccion a.tamanio b.direccion b.tamanio
  encabezados : ∀ seg ∈ s.segmentos, ∀ heap ∈ seg.metadatas, ∀ a ∈ vivas,
    Ajenos a.direccion a.tamanio (cfg.memoriaPrincipal + heap.direccionHeap) tamanioMetadata

/-- The address of the data of a block, in a segment that starts with the memory. -/
def HeapLista.datos (cfg : Configuracion) (heap : HeapLista) : ℤ :=
  cfg.memoriaPrincipal + heap.direccionHeap + tamanioMetadata

/-- The block of this header is in use. -/
def EnUso (cfg : Configuracion) (vivas : List Asignacion) (heap : HeapLista) : Prop :=
  ∃ a ∈ vivas, a.direccion = heap.datos cfg

/-- The first free block of the size. -/
def bloqueLibre (seg : Segmento) (tamanio : ℤ) : Option HeapLista :=
  seg.metadatas.find? fun heap => heap.isFree && decide (tamanio ≤ unsigned heap.size)

/-- The last block can be given out with another size: it is not in use, and ends with the
pages of the segment. -/
def Prolongable (cfg : Configuracion) (vivas : List Asignacion) (seg : Segmento)
    (ultimo : HeapLista) (tamanio : ℤ) : Prop :=
  tamanio + 5 < 2147483648 ∧ ¬ EnUso cfg vivas ultimo ∧
    ultimo.direccionHeap + 5 + (if ultimo.isFree then ultimo.size else 0) =
      cfg.tamanioPag * seg.tablaPaginas.length

/-- The block that the request gives out is not in use. -/
def Segura (cfg : Configuracion) (s : Estado) (vivas : List Asignacion) (sd : ℕ) (tamanio : ℤ) :
    Prop :=
  ∀ segmentos ∈ s.tablasSegmentos.get sd,
    (segmentos = [] → tamanio + 10 < 2147483648) ∧
    ∀ g ∈ segmentos, ∀ seg ∈ s.segmentos[g]?,
      (Reutilizable s segmentos tamanio → ∀ heap ∈ bloqueLibre seg tamanio,
        ¬ EnUso cfg vivas heap) ∧
      (¬ Reutilizable s segmentos tamanio →
        ∀ ultimo ∈ elemento seg.metadatas (seg.metadatas.length - 1),
          Prolongable cfg vivas seg ultimo tamanio)

/-- No frame is replaced. -/
def sinReemplazo (_ : Estado) : Suceso → Prop
  | .reemplaza _ => False
  | _ => True

variable {cfg : Configuracion} {ok : Estado → Suceso → Prop} {s t : Estado} {seg : Segmento}
  {g : ℕ} {l : List ℕ} {pags : List Pagina} {vs : List Asignacion} {heap ultimo : HeapLista}

/-- Each block in use is in the block of a header, and no two in the same. -/
structure EnBloques (cfg : Configuracion) (metadatas : List HeapLista)
    (vivas : List Asignacion) : Prop where
  bloque : ∀ a ∈ vivas, ∃ heap ∈ metadatas, a.direccion = heap.datos cfg ∧ a.tamanio ≤ heap.size
  distintos : vivas.Pairwise fun a b => a.direccion ≠ b.direccion

/-- Two blocks of a list are the same or one is before the other. -/
theorem Baldosas.antes_o_despues {metadatas : List HeapLista} {otro : HeapLista}
    (h : Baldosas cfg metadatas) (hheap : heap ∈ metadatas) (hotro : otro ∈ metadatas) :
    heap = otro ∨ heap.fin ≤ otro.direccionHeap ∨ otro.fin ≤ heap.direccionHeap := by
  have hpairs := h.siguiente.pairwise h.inicio_le_fin
  refine List.Pairwise.forall_of_forall_of_flip (R := fun a b : HeapLista =>
    a = b ∨ a.fin ≤ b.direccionHeap ∨ b.fin ≤ a.direccionHeap) (fun _ _ => Or.inl rfl) ?_ ?_
      hheap hotro
  · exact hpairs.imp fun hab => Or.inr (Or.inl hab)
  · exact hpairs.imp fun hab => Or.inr (Or.inr hab)

/-- Blocks in use that are in blocks of their own are apart. -/
theorem EnBloques.sinSolapar (h : EnBloques cfg seg.metadatas vs)
    (hseg : Baldosas cfg seg.metadatas) (hs : s.segmentos = [seg]) : SinSolapar cfg s vs where
  datos := by
    refine List.Pairwise.imp_of_mem ?_ h.distintos
    intro a b ha hb hne x hx
    obtain ⟨heap, hheap, hadir, hatam⟩ := h.bloque a ha
    obtain ⟨otro, hotro, hbdir, hbtam⟩ := h.bloque b hb
    rw [hadir, hbdir] at hne hx
    simp only [HeapLista.datos, tamanioMetadata] at hne hx
    rcases hseg.antes_o_despues hheap hotro with rfl | hmenor | hmayor
    · exact hne rfl
    · rw [HeapLista.fin, tamanioMetadata] at hmenor
      omega
    · rw [HeapLista.fin, tamanioMetadata] at hmayor
      omega
  encabezados := by
    intro seg' hseg' otro hotro a ha x hx
    rw [hs, List.mem_singleton] at hseg'
    subst hseg'
    obtain ⟨heap, hheap, hadir, hatam⟩ := h.bloque a ha
    rw [hadir] at hx
    simp only [HeapLista.datos, tamanioMetadata] at hx
    have htam := hseg.tamanios otro hotro
    rcases hseg.antes_o_despues hheap hotro with rfl | hmenor | hmayor
    · omega
    · rw [HeapLista.fin, tamanioMetadata] at hmenor
      omega
    · rw [HeapLista.fin, tamanioMetadata] at hmayor
      omega

/-- A block that is not in use is given out. -/
theorem EnBloques.dar {metadatas : List HeapLista} (h : EnBloques cfg metadatas vs)
    (hheap : heap ∈ metadatas) (hlibre : ¬ EnUso cfg vs heap) {n : ℤ} (hn : n ≤ heap.size) :
    EnBloques cfg metadatas (⟨heap.datos cfg, n⟩ :: vs) where
  bloque a ha := by
    rcases List.mem_cons.1 ha with rfl | ha
    · exact ⟨heap, hheap, rfl, hn⟩
    · exact h.bloque a ha
  distintos := List.pairwise_cons.2 ⟨fun a ha heq => hlibre ⟨a, ha, heq.symm⟩, h.distintos⟩

/-- The last block, which is not in use, changes its size and another one follows it. -/
theorem EnBloques.cambiarUltimo {bloques : List HeapLista} {otro : HeapLista}
    (h : EnBloques cfg (bloques ++ [ultimo]) vs) (hlibre : ¬ EnUso cfg vs ultimo) :
    EnBloques cfg (bloques ++ [otro, heap]) vs where
  bloque a ha := by
    obtain ⟨heap', hheap', hdir, htam⟩ := h.bloque a ha
    rcases List.mem_append.1 hheap' with hmem | hmem
    · exact ⟨heap', List.mem_append_left _ hmem, hdir, htam⟩
    · rw [List.mem_singleton.1 hmem] at hdir
      exact absurd ⟨a, ha, hdir⟩ hlibre
  distintos := h.distintos

/-! ## Pages in order -/

/-- The pages of a segment that has the first frames. -/
def fila (n : ℕ) : List Pagina := (List.range n).map fun i : ℕ => ⟨true, i, -1⟩

theorem length_fila (n : ℕ) : (fila n).length = n := by simp [fila]

theorem getElem?_fila {n p : ℕ} (h : p < n) : (fila n)[p]? = some ⟨true, p, -1⟩ := by
  simp [fila, h]

theorem fila_succ (n : ℕ) : fila (n + 1) = fila n ++ [⟨true, n, -1⟩] := by
  simp [fila, List.range_succ]

/-- The segment is the only one with pages: they are in the first frames, in order, and the
other frames are free. -/
structure EnFila (t : Estado) (g : ℕ) (seg : Segmento) (s : Estado) : Prop where
  tabla : seg.tablaPaginas = List.range seg.tablaPaginas.length
  obra : ∃ r, Obra t g seg (List.range' seg.tablaPaginas.length r)
    (fila seg.tablaPaginas.length) s

theorem EnFila.self (h : EnFila t g seg s) : EnFila s g seg s where
  tabla := h.tabla
  obra := by
    obtain ⟨r, hr⟩ := h.obra
    exact ⟨r, queda_self hr.queda.segmento, hr.libres, hr.paginas⟩

theorem EnFila.elemento (h : EnFila t g seg s) {i : ℤ} {p : ℕ}
    (hp : elemento seg.tablaPaginas i = some p) : i = p ∧ p < seg.tablaPaginas.length := by
  obtain ⟨h0, hp⟩ := getElem?_of_elemento hp
  rw [h.tabla] at hp
  obtain ⟨hlt, heq⟩ := List.getElem?_eq_some_iff.1 hp
  rw [List.getElem_range] at heq
  rw [List.length_range] at hlt
  omega

/-- The page that is looked for is in memory, in the place of its number. -/
theorem triple_fila_posicion (p : ℕ) :
    Triple ok (EnFila t g seg) (obtenerPosicionMemoriaPagina cfg p) fun pos s =>
      EnFila t g seg s ∧ pos = p * cfg.tamanioPag := by
  refine triple_of_forall fun u hu => ?_
  obtain ⟨r, hobra⟩ := hu.obra
  refine triple_conseq (triple_posicion_quieta cfg u p) (fun _ hs => hs) ?_
  have hpagina : ∀ pag, u.paginas[p]? = some pag → pag = ⟨true, p, -1⟩ := by
    intro pag hpag
    rw [hobra.paginas] at hpag
    have hlt := (List.getElem?_eq_some_iff.1 hpag).1
    rw [length_fila] at hlt
    exact Option.some.inj (hpag.symm.trans (getElem?_fila hlt))
  rintro pos s (⟨pag, hpag, _, rfl, rfl⟩ | ⟨⟨pag, hpag, haus⟩, _⟩)
  · rw [hpagina pag hpag]
    exact ⟨hu, rfl⟩
  · rw [hpagina pag hpag] at haus
    cases haus

theorem triple_fila_segmento :
    Triple ok (EnFila t g seg) (segmento g) fun seg' s => EnFila t g seg s ∧ seg' = seg := by
  refine triple_conseq (triple_segmento g) (fun _ hs => hs) ?_
  rintro seg' s ⟨hs, hseg'⟩
  obtain ⟨r, hobra⟩ := hs.obra
  exact ⟨hs, Option.some.inj (hseg'.symm.trans hobra.queda.segmento)⟩

theorem triple_fila_obtener (i : ℤ) :
    Triple ok (EnFila t g seg) (obtener seg.tablaPaginas i) fun p s =>
      EnFila t g seg s ∧ i = p ∧ p < seg.tablaPaginas.length := by
  refine triple_conseq (triple_obtener _ _) (fun _ hs => hs) ?_
  rintro p s ⟨hs, hp⟩
  exact ⟨hs, hs.elemento hp⟩

/-- A change of the segment that keeps its table. -/
theorem EnFila.modificarSegmento (h : EnFila t g seg s) {f : Segmento → Segmento}
    (hf : (f seg).tablaPaginas = seg.tablaPaginas) : EnFila t g (f seg) (s.modificarSegmento g f)
    where
  tabla := by
    rw [hf]
    exact h.tabla
  obra := by
    obtain ⟨r, hr⟩ := h.obra
    rw [hf]
    exact ⟨r, hr.modificarSegmento f⟩

theorem triple_fila_modificarSegmento {f : Segmento → Segmento}
    (hf : (f seg).tablaPaginas = seg.tablaPaginas) :
    Triple ok (EnFila t g seg) (modify fun s => s.modificarSegmento g f) fun _ =>
      EnFila t g (f seg) :=
  triple_modify _ fun _ hs => hs.modificarSegmento hf

theorem keeps_fila_copiar (a : ℤ) (datos : List UInt8) :
    Keeps ok (EnFila t g seg) (modify fun s => s.copiar a datos) := by
  refine keeps_modify _ fun s hs => ⟨hs.tabla, ?_⟩
  obtain ⟨r, hr⟩ := hs.obra
  exact ⟨r, hr.copiar a datos⟩

theorem keeps_fila_tocarFrame (i : ℤ) {f : Frame → Frame}
    (hf : ∀ x, (f x).estaLibre = x.estaLibre) : Keeps ok (EnFila t g seg) (tocarFrame i f) := by
  refine triple_of_forall fun u hu => ?_
  obtain ⟨r, hr⟩ := hu.obra
  exact triple_conseq (keeps_obra_tocarFrame i hf) (fun _ hs => hs ▸ hr) fun _ _ hs =>
    ⟨hu.tabla, r, hs⟩

/-- The address of the data of a block is the one of its header and five bytes more. -/
theorem triple_fila_direccionDatos (hdir : 0 ≤ heap.direccionHeap) :
    Triple ok (EnFila t g seg) (direccionDatos cfg g heap) fun p s =>
      EnFila t g seg s ∧ p = heap.datos cfg := by
  have hmod := Int.emod_add_mul_ediv heap.direccionHeap cfg.tamanioPag
  have htmod := Int.tmod_eq_emod_of_nonneg (b := cfg.tamanioPag) hdir
  refine triple_bind triple_fila_segmento fun seg' => triple_assume fun hseg => ?_
  subst hseg
  refine triple_ite (fun _ => ?_) fun _ => ?_
  · refine triple_bind (triple_fila_obtener _) fun p => triple_assume fun hp => ?_
    refine triple_bind (triple_fila_posicion p) fun pos => triple_assume fun hpos =>
      triple_pure _ fun s hs => ⟨hs, ?_⟩
    rw [hpos, ← hp.1, htmod, HeapLista.datos, add_mul, one_mul, mul_comm]
    omega
  · refine triple_bind (triple_fila_obtener _) fun p => triple_assume fun hp => ?_
    refine triple_bind (triple_fila_posicion p) fun pos => triple_assume fun hpos =>
      triple_pure _ fun s hs => ⟨hs, ?_⟩
    rw [hpos, ← hp.1, htmod, HeapLista.datos, mul_comm]
    omega

/-! ## Pages and headers at the end -/

/-- Without replacements a page is not given when no frame is free. -/
theorem triple_obra_sinFrames {R : ℕ → Estado → Prop} :
    Triple sinReemplazo (Obra t g seg [] pags) (paginaNueva cfg g) R := by
  refine triple_of_forall fun u hu => exec_bind (triple_asignarUnFrame cfg u) fun f v hv => ?_
  rcases hv with ⟨hf, _⟩ | ⟨_, _, hok, _⟩
  · rw [buscarFrameLibre_eq, hu.libres] at hf
    cases hf
  · exact hok.elim

theorem triple_fila_paginaNueva :
    Triple sinReemplazo (EnFila t g seg) (paginaNueva cfg g) fun p s =>
      EnFila t g (seg.conPaginas [seg.tablaPaginas.length]) s ∧ p = seg.tablaPaginas.length := by
  refine triple_of_forall fun u hu => ?_
  obtain ⟨r, hobra⟩ := hu.obra
  cases r with
  | zero => exact triple_conseq triple_obra_sinFrames (fun _ hs => hs ▸ hobra) fun _ _ hs => hs
  | succ r =>
      rw [List.range'_succ] at hobra
      refine triple_conseq triple_obra_paginaNueva (fun _ hs => hs ▸ hobra) ?_
      rintro p s ⟨hs, hp⟩
      rw [length_fila] at hp
      rw [hp] at hs
      have hlen : (seg.conPaginas [seg.tablaPaginas.length]).tablaPaginas.length =
          seg.tablaPaginas.length + 1 := by simp [Segmento.conPaginas]
      refine ⟨⟨?_, r, ?_⟩, hp⟩
      · rw [hlen, List.range_succ, ← hu.tabla]
        rfl
      · rw [hlen, fila_succ]
        exact hs

theorem triple_fila_nuevaPagina :
    Triple sinReemplazo (EnFila t g seg) (asignarNuevaPagina cfg g) fun _ =>
      EnFila t g ((seg.conPaginas [seg.tablaPaginas.length]).crecido cfg 1) := by
  refine triple_bind triple_fila_paginaNueva fun p => triple_assume fun _ => ?_
  exact triple_fila_modificarSegmento (f := fun seg => seg.crecido cfg 1) rfl

/-- The header is put at the end, and with it a page when it is split. -/
theorem triple_fila_ubicar (ubicacionHeap : ℤ) (isFree : Bool) (size n : ℤ) :
    Triple sinReemplazo (EnFila t g seg)
      (ubicarMetadataYHeapLista cfg g ubicacionHeap isFree size n) fun sePartio s =>
        ∃ seg', Ubicado cfg seg ubicacionHeap isFree size sePartio seg' ∧ EnFila t g seg' s := by
  refine triple_bind triple_fila_segmento fun seg' => triple_assume fun hseg => ?_
  subst hseg
  refine triple_bind (triple_fila_obtener _) fun p => triple_assume fun _ => ?_
  refine triple_bind (keeps_pagina p) fun primera => ?_
  refine triple_bind (keeps_fila_tocarFrame _ fun _ => rfl) fun _ => ?_
  refine triple_bind (triple_fila_posicion p) fun pos => triple_assume fun _ => ?_
  refine triple_ite (fun hparte => ?_) fun hentera => ?_
  · have hpartida : seParte cfg ubicacionHeap := hparte
    refine triple_bind (Q := fun _ => EnFila t g (((seg'.conHeap ⟨ubicacionHeap, isFree,
      signed size, true, cfg.tamanioPag - ubicacionHeap.tmod cfg.tamanioPag⟩).conPaginas
        [seg'.tablaPaginas.length]).crecido cfg 1)) ?_ fun _ => triple_pure _ fun s hs => ?_
    · refine triple_bind (triple_fila_modificarSegmento (f := fun seg => seg.conHeap _) rfl)
        fun _ => triple_bind (keeps_fila_copiar _ _) fun _ => ?_
      refine triple_bind triple_fila_paginaNueva fun q => triple_assume fun _ => ?_
      refine triple_bind (triple_fila_modificarSegmento (f := fun seg => seg.crecido cfg 1) rfl)
        fun _ => triple_bind (triple_fila_posicion q) fun _ => triple_assume fun _ => ?_
      refine triple_bind (keeps_fila_copiar _ _) fun _ => ?_
      exact triple_bind (triple_fila_posicion p) fun _ => triple_pure _ fun _ hs => hs.1
    · refine ⟨_, ?_, hs⟩
      rw [Ubicado, if_pos hpartida]
      exact ⟨rfl, _, rfl⟩
  · have hcabe : ¬ seParte cfg ubicacionHeap := hentera
    refine triple_bind (triple_fila_modificarSegmento (f := fun seg => seg.conHeap _) rfl)
      fun _ => triple_bind (keeps_fila_copiar _ _) fun _ => triple_pure _ fun s hs => ⟨_, ?_, hs⟩
    rw [Ubicado, if_neg hcabe]
    exact ⟨rfl, rfl⟩

/-- The header comes after some bytes more than the pages of the segment. -/
structure Sigue (cfg : Configuracion) (seg : Segmento) (bytes : ℤ) (heap : HeapLista) : Prop where
  direccion : heap.direccionHeap =
    seg.tablaPaginas.length * cfg.tamanioPag + bytes - tamanioMetadata
  tamanio : 0 ≤ heap.size
  corto : heap.size < 2147483648
  partido : heap.estaPartido = true ↔ seParte cfg heap.direccionHeap

/-- The segment after some bytes more, with the header that comes after them. -/
def Prolongado (cfg : Configuracion) (t : Estado) (g : ℕ) (seg : Segmento) (bytes : ℤ)
    (s : Estado) : Prop :=
  ∃ seg' heap, seg'.metadatas = seg.metadatas ++ [heap] ∧ Sigue cfg seg bytes heap ∧
    EnFila t g seg' s

/-- The header that `ubicarMetadataYHeapLista` adds. -/
theorem encabezado_of_ubicado {ubicacionHeap size : ℤ} {isFree sePartio : Bool} {seg' : Segmento}
    (h : Ubicado cfg seg ubicacionHeap isFree size sePartio seg') :
    ∃ heap, seg'.metadatas = seg.metadatas ++ [heap] ∧ heap.direccionHeap = ubicacionHeap ∧
      heap.size = signed size ∧ (heap.estaPartido = true ↔ seParte cfg ubicacionHeap) := by
  rw [Ubicado] at h
  split_ifs at h with hparte
  · obtain ⟨_, q, rfl⟩ := h
    exact ⟨_, rfl, rfl, rfl, iff_of_true rfl hparte⟩
  · obtain ⟨_, rfl⟩ := h
    exact ⟨_, rfl, rfl, rfl, iff_of_false Bool.false_ne_true hparte⟩

theorem triple_fila_ultima {bytes : ℤ} (hP : cfg.tamanioPag < 2147483648) (hmas : 0 < bytes)
    (hhasta : bytes ≤ cfg.tamanioPag) :
    Triple sinReemplazo (EnFila t g seg) (asignarUltimaPaginaSegmento cfg g bytes) fun _ =>
      Prolongado cfg t g seg bytes := by
  have hnonneg : 0 ≤ signed (cfg.tamanioPag - bytes) := by
    rw [signed]
    omega
  have hcorto : signed (cfg.tamanioPag - bytes) < 2147483648 := by
    rw [signed]
    omega
  refine triple_bind triple_fila_segmento fun seg' => triple_assume fun hseg => ?_
  subst hseg
  refine triple_bind (triple_fila_obtener _) fun p => triple_assume fun hp => ?_
  refine triple_of_forall fun u hu => exec_pagina fun pag hpag => ?_
  obtain ⟨r, hobra⟩ := hu.obra
  rw [hobra.paginas, getElem?_fila hp.2, Option.some.injEq] at hpag
  subst hpag
  refine exec_bind (triple_conseq (triple_fila_ubicar _ _ _ _) (fun s hs => hs ▸ hu)
    fun _ _ hs => hs) fun sePartio v hv => triple_modify _ fun s hs => ?_
  obtain ⟨seg₁, hubicado, hv⟩ := hv
  rw [hs]
  have hcrecido := hv.modificarSegmento (f := fun seg => seg.crecido cfg 1) rfl
  have hdir : (p : ℤ) * cfg.tamanioPag + (cfg.tamanioPag - tamanioMetadata + bytes) =
      seg'.tablaPaginas.length * cfg.tamanioPag + bytes - tamanioMetadata := by
    rw [← hp.1]
    ring
  rw [hdir] at hubicado
  obtain ⟨heap, hmetadatas, hlugar, htam, hpartido⟩ := encabezado_of_ubicado hubicado
  refine ⟨seg₁.crecido cfg 1, heap, hmetadatas, ⟨hlugar, ?_, ?_, ?_⟩, hcrecido⟩
  · rw [htam]
    exact hnonneg
  · rw [htam]
    exact hcorto
  · rw [hlugar]
    exact hpartido

/-- The loop that gives pages, one less than the bytes need. -/
theorem triple_fila_asignarPaginas (k : ℕ) {bytes : ℤ} (hP : cfg.tamanioPag < 2147483648)
    (hmas : k * cfg.tamanioPag < bytes) (hhasta : bytes ≤ (k + 1) * cfg.tamanioPag) :
    Triple sinReemplazo (EnFila t g seg) (asignarPaginas cfg g (k + 1) bytes) fun _ =>
      Prolongado cfg t g seg bytes := by
  induction k generalizing seg bytes with
  | zero =>
      simp only [Nat.cast_zero, zero_mul, zero_add, one_mul] at hmas hhasta
      refine triple_ite (fun hlt => absurd hhasta (not_le.2 hlt)) fun _ => ?_
      exact triple_bind (triple_fila_ultima hP hmas hhasta) fun _ => triple_pure _ fun _ hs => hs
  | succ k ih =>
      push_cast at hmas hhasta
      rw [add_mul, one_mul] at hmas
      rw [add_mul _ (1 : ℤ), one_mul] at hhasta
      have hcero := Int.mul_nonneg (Int.natCast_nonneg k) (Int.natCast_nonneg cfg.tamanioPag)
      refine triple_ite (fun _ => ?_) fun hle => absurd (by omega) hle
      refine triple_bind triple_fila_nuevaPagina fun _ => ?_
      refine triple_conseq (ih (by omega) (by omega)) (fun _ hs => hs) ?_
      rintro _ s ⟨seg', heap, hmetadatas, hsigue, hs⟩
      have hlen : ((seg.conPaginas [seg.tablaPaginas.length]).crecido cfg 1).tablaPaginas.length =
          seg.tablaPaginas.length + 1 := by simp [Segmento.crecido, Segmento.conPaginas]
      refine ⟨seg', heap, hmetadatas, ⟨?_, hsigue.tamanio, hsigue.corto, hsigue.partido⟩, hs⟩
      rw [hsigue.direccion, hlen]
      push_cast
      ring

/-- A header is split when its bytes are in two pages. -/
theorem seParte_iff {dir : ℤ} (hdir : 0 ≤ dir) :
    seParte cfg dir ↔ dir / cfg.tamanioPag ≠ (dir + 4) / cfg.tamanioPag := by
  have hpos := cfg.positivo
  have hmod := Int.emod_add_mul_ediv dir cfg.tamanioPag
  have hnonneg := Int.emod_nonneg dir (b := (cfg.tamanioPag : ℤ)) (by omega)
  rw [seParte, tamanioMetadata, Int.tmod_eq_emod_of_nonneg hdir]
  constructor
  · intro hparte
    have hle : dir / (cfg.tamanioPag : ℤ) + 1 ≤ (dir + 4) / cfg.tamanioPag := by
      refine Int.le_ediv_of_mul_le (by omega) ?_
      rw [add_mul, one_mul, mul_comm]
      omega
    omega
  · intro hne
    by_contra hentera
    have hle : dir / (cfg.tamanioPag : ℤ) ≤ (dir + 4) / cfg.tamanioPag :=
      Int.ediv_le_ediv (by omega) (by omega)
    have hlt : (dir + 4) / (cfg.tamanioPag : ℤ) < dir / cfg.tamanioPag + 1 := by
      refine Int.ediv_lt_of_lt_mul (by omega) ?_
      rw [add_mul, one_mul, mul_comm]
      omega
    omega

/-- The blocks of a segment with sizes that fit an `int`. -/
structure Bloques (cfg : Configuracion) (metadatas : List HeapLista) : Prop where
  baldosas : Baldosas cfg metadatas
  cortos : ∀ heap ∈ metadatas, heap.size < 2147483648

/-- The last block gets a size and the header that follows it comes where it ends. -/
theorem Bloques.prolongar {bloques : List HeapLista} {bytes tamanio : ℤ}
    (h : Bloques cfg (bloques ++ [ultimo])) (htam : 0 ≤ tamanio) (hcorto : tamanio < 2147483648)
    (hsigue : Sigue cfg seg bytes heap)
    (hfin : seg.tablaPaginas.length * cfg.tamanioPag + bytes - tamanioMetadata =
      ultimo.direccionHeap + tamanioMetadata + tamanio) :
    Bloques cfg (bloques ++ [{ ultimo with size := tamanio, isFree := false }, heap]) := by
  have hdir : heap.direccionHeap =
      ({ ultimo with size := tamanio, isFree := false } : HeapLista).fin :=
    hsigue.direccion.trans hfin
  have hnonneg : 0 ≤ heap.direccionHeap := by
    have hultimo : 0 ≤ ultimo.direccionHeap := h.baldosas.direccion_nonneg (by simp)
    rw [hsigue.direccion, hfin, tamanioMetadata]
    omega
  refine ⟨(h.baldosas.conUltimo htam false).agregar hdir hsigue.tamanio ?_, ?_⟩
  · rw [hsigue.partido]
    exact seParte_iff hnonneg
  · intro otro hotro
    rw [List.append_cons] at hotro
    rcases List.mem_append.1 hotro with hmem | hmem
    · rcases List.mem_append.1 hmem with hmem | hmem
      · exact h.cortos otro (List.mem_append_left _ hmem)
      · rw [List.mem_singleton.1 hmem]
        exact hcorto
    · rw [List.mem_singleton.1 hmem]
      exact hsigue.corto

/-! ## The last block -/

/-- The segment of a process that is alone, and its blocks. -/
structure Unico (cfg : Configuracion) (sd : ℕ) (seg : Segmento) (s : Estado) : Prop where
  segmentos : s.segmentos = [seg]
  tablas : s.tablasSegmentos.get sd = some [0]
  fila : EnFila s 0 seg s
  bloques : Bloques cfg seg.metadatas

theorem Unico.of_fila {sd : ℕ} {seg' : Segmento} (h : Unico cfg sd seg t)
    (hs : EnFila t 0 seg' s) (hbloques : Bloques cfg seg'.metadatas) : Unico cfg sd seg' s := by
  obtain ⟨r, hobra⟩ := hs.obra
  refine ⟨?_, ?_, hs.self, hbloques⟩
  · rw [hobra.queda.segmentos, h.segmentos]
    rfl
  · rw [hobra.queda.tablas]
    exact h.tablas

/-- The last block is given out when it ends with the pages. -/
theorem triple_fila_extenderSegmento {tamanio : ℤ} {bloques : List HeapLista}
    (hP : cfg.tamanioPag < 2147483648) (htam : 0 ≤ tamanio) (hentero : tamanio + 5 < 2147483648)
    (hbloques : Bloques cfg seg.metadatas) (hmetadatas : seg.metadatas = bloques ++ [ultimo])
    (hfin : ultimo.direccionHeap + 5 + (if ultimo.isFree then ultimo.size else 0) =
      cfg.tamanioPag * seg.tablaPaginas.length) (hbytes : 0 < bytesAAgregar ultimo tamanio) :
    Triple sinReemplazo (EnFila t g seg) (extenderSegmento cfg g tamanio) fun _ s =>
      ∃ seg' heap, seg'.metadatas = bloques ++
          [{ ultimo with size := tamanio, isFree := false }, heap] ∧
        Bloques cfg seg'.metadatas ∧ EnFila t g seg' s := by
  obtain ⟨k, hk, hmas, hhasta⟩ := exists_paginasPara cfg hbytes
  have hsigned : signed tamanio = tamanio := by
    rw [signed]
    omega
  have hsuma : bytesAAgregar ultimo tamanio =
      tamanio + 5 - (if ultimo.isFree then ultimo.size else 0) := by
    rw [bytesAAgregar, signed, tamanioMetadata]
    omega
  have hlast : elemento seg.metadatas (seg.metadatas.length - 1) = some ultimo := by
    rw [hmetadatas, List.length_append, List.length_singleton, Nat.cast_add, Nat.cast_one,
      add_sub_cancel_right, elemento_natCast, List.getElem?_concat_length]
  refine triple_bind triple_fila_segmento fun seg₁ => triple_assume fun hseg => ?_
  subst hseg
  refine triple_orFail_bind fun ultimo' hultimo' => ?_
  cases hlast.symm.trans hultimo'
  refine triple_bind (triple_fila_modificarSegmento (f := fun seg => seg.conUltimoHeap fun heap =>
    { heap with size := signed tamanio, isFree := false }) rfl) fun _ => ?_
  have hn : (paginasPara cfg (bytesAAgregar ultimo tamanio)).toNat = k + 1 := by omega
  change Triple _ _ (asignarPaginas cfg g (paginasPara cfg (bytesAAgregar ultimo tamanio)).toNat
    (bytesAAgregar ultimo tamanio)) _
  rw [hn]
  refine triple_conseq (triple_fila_asignarPaginas k hP hmas hhasta) (fun _ hs => hs) ?_
  rintro _ s ⟨seg', heap, hmetadatas', hsigue, hs⟩
  rw [hsigned, conUltimoHeap_metadatas hmetadatas, List.append_assoc] at hmetadatas'
  refine ⟨seg', heap, hmetadatas', ?_, hs⟩
  rw [hmetadatas']
  refine Bloques.prolongar (hmetadatas ▸ hbloques) htam (by omega) hsigue ?_
  rw [hsuma, tamanioMetadata, mul_comm]
  change (cfg.tamanioPag : ℤ) * seg₁.tablaPaginas.length + _ - 5 = _
  omega

/-- The address that is given out is the one of the last block. -/
theorem triple_fila_extender {tamanio : ℤ} {bloques : List HeapLista}
    (hP : cfg.tamanioPag < 2147483648) (htam : 0 ≤ tamanio)
    (hbloques : Bloques cfg seg.metadatas) (hmetadatas : seg.metadatas = bloques ++ [ultimo])
    (hprolongable : Prolongable cfg vs seg ultimo tamanio)
    (hbytes : 0 < bytesAAgregar ultimo tamanio) (hvivas : EnBloques cfg seg.metadatas vs) :
    Triple sinReemplazo (EnFila t g seg) (extender cfg g tamanio) fun p s =>
      ∃ seg', Bloques cfg seg'.metadatas ∧ EnBloques cfg seg'.metadatas (⟨p, tamanio⟩ :: vs) ∧
        EnFila t g seg' s := by
  obtain ⟨hentero, hlibre, hfin⟩ := hprolongable
  refine triple_bind (triple_fila_extenderSegmento hP htam hentero hbloques hmetadatas hfin hbytes)
    fun _ => triple_of_forall ?_
  rintro u ⟨seg', heap, hmetadatas', hbloques', hu⟩
  set bloque : HeapLista := { ultimo with size := tamanio, isFree := false }
  refine triple_conseq (P := EnFila t g seg') ?_ (fun s hs => hs ▸ hu) fun _ _ hs => hs
  refine triple_bind triple_fila_segmento fun seg₁ => triple_assume fun hseg => ?_
  subst hseg
  refine triple_orFail_bind fun bloque' hbloque' => ?_
  have hindice : ((seg₁.metadatas.length : ℤ) - 2) = (bloques.length : ℕ) := by
    rw [hmetadatas', List.length_append]
    simp
  have hlugar : elemento seg₁.metadatas (bloques.length : ℕ) = some bloque := by
    rw [elemento_natCast, hmetadatas', List.getElem?_append_right le_rfl, Nat.sub_self]
    rfl
  have hbloque'' : elemento seg₁.metadatas ((seg₁.metadatas.length : ℤ) - 2) = some bloque' :=
    hbloque'
  rw [hindice, hlugar, Option.some.injEq] at hbloque''
  subst hbloque''
  have hmem : bloque ∈ seg₁.metadatas := by
    rw [hmetadatas']
    simp
  refine triple_conseq (triple_fila_direccionDatos (hbloques'.baldosas.direccion_nonneg hmem))
    (fun _ hs => hs) ?_
  rintro p s ⟨hs, rfl⟩
  refine ⟨seg₁, hbloques', EnBloques.dar ?_ hmem hlibre le_rfl, hs⟩
  rw [hmetadatas']
  exact EnBloques.cambiarUltimo (hmetadatas ▸ hvivas) hlibre

/-! ## A request of a process with a segment -/

/-- A block that is reused is the first free one of the size. -/
theorem triple_fila_reutilizar {sd : ℕ} {tamanio : ℤ} (h : Unico cfg sd seg t) :
    Triple ok (· = t) (reutilizar cfg [0] tamanio) fun direccion s =>
      ∀ p, direccion = some p → EnFila t 0 seg s ∧
        ∃ heap, bloqueLibre seg tamanio = some heap ∧ p = heap.datos cfg := by
  have hseg : t.segmentos[0]? = some seg := by rw [h.segmentos, List.getElem?_cons_zero]
  refine exec_gets (triple_elim (fun _ => exec_pure fun p hp => by cases hp) fun g hg => ?_)
  have hg0 : g = 0 := List.mem_singleton.1 (List.mem_of_find?_eq_some hg)
  subst hg0
  refine exec_segmento fun seg' hseg' => ?_
  cases hseg.symm.trans hseg'
  refine triple_elim (fun _ => exec_pure fun p hp => by cases hp) fun heap hheap => ?_
  have hdir := h.bloques.baldosas.direccion_nonneg (List.mem_of_find?_eq_some hheap)
  refine triple_bind (triple_conseq (triple_fila_direccionDatos hdir)
    (fun s hs => by rw [hs]; exact h.fila) fun _ _ hs => hs) fun direccion => triple_pure _ ?_
  rintro s ⟨hs, rfl⟩ p hp
  cases hp
  exact ⟨hs, heap, hheap, rfl⟩

/-- When no free block is found, the last block gets more bytes. -/
theorem bytesAAgregar_pos {sd : ℕ} {tamanio : ℤ} (h : Unico cfg sd seg t)
    (hultimo : ultimo ∈ seg.metadatas) (htam : 0 ≤ tamanio) (hentero : tamanio + 5 < 2147483648)
    (hno : ¬ Reutilizable t [0] tamanio) : 0 < bytesAAgregar ultimo tamanio := by
  have hcorto := h.bloques.cortos ultimo hultimo
  have hsigned : signed (tamanio + tamanioMetadata) = tamanio + 5 := by
    rw [signed, tamanioMetadata]
    omega
  by_contra hbytes
  rw [bytesAAgregar, hsigned] at hbytes
  cases hlibre : ultimo.isFree with
  | false =>
      rw [hlibre] at hbytes
      simp only [Bool.false_eq_true, if_false] at hbytes
      omega
  | true =>
      rw [hlibre, if_pos rfl] at hbytes
      refine hno ⟨0, seg, ?_, ?_, ultimo, hultimo, hlibre, ?_⟩
      · rw [buscarSegmentoConTamanioDisponible, hsigned, h.segmentos, List.find?_singleton, if_pos]
        rw [List.getElem?_cons_zero, Option.any_some, List.any_eq_true]
        exact ⟨ultimo, hultimo, by simp [hlibre]; omega⟩
      · rw [h.segmentos, List.getElem?_cons_zero]
      · rw [unsigned]
        omega

/-- What is in use is in blocks of the only segment, or there is no segment yet. -/
def Repartida (cfg : Configuracion) (sd : ℕ) (vs : List Asignacion) (s : Estado) : Prop :=
  (s.segmentos = [] ∧ s.paginas = [] ∧ (∃ r, s.libres = List.range' 0 r) ∧ vs = []) ∨
    ∃ seg, Unico cfg sd seg s ∧ EnBloques cfg seg.metadatas vs

theorem Repartida.sinSolapar {sd : ℕ} (h : Repartida cfg sd vs s) : SinSolapar cfg s vs := by
  rcases h with ⟨_, _, _, rfl⟩ | ⟨seg, hseg, hvivas⟩
  · exact ⟨List.Pairwise.nil, fun _ _ _ _ a ha => by cases ha⟩
  · exact hvivas.sinSolapar hseg.bloques.baldosas hseg.segmentos

theorem triple_unico_enSegmentos {sd : ℕ} {tamanio : ℤ} (hP : cfg.tamanioPag < 2147483648)
    (htam : 0 ≤ tamanio) (hun : UnSegmento sd t) (h : Unico cfg sd seg t)
    (hvivas : EnBloques cfg seg.metadatas vs) (hsegura : Segura cfg t vs sd tamanio) :
    Triple sinReemplazo (· = t) (enSegmentos cfg [0] tamanio sd) fun p =>
      Repartida cfg sd (⟨p, tamanio⟩ :: vs) := by
  have hseg : t.segmentos[0]? = some seg := by rw [h.segmentos, List.getElem?_cons_zero]
  have hsegura' := (hsegura [0] h.tablas).2 0 (List.mem_singleton_self 0) seg hseg
  have hrasgo : (rasgos t)[0]? = some (0, true) := by
    rcases hun [0] h.tablas with hnil | ⟨g, hg, hrasgo⟩
    · cases hnil
    · cases hg
      exact hrasgo
  refine exec_bind (triple_conseq (triple_and (triple_reutilizar (t := t) [0] tamanio) (triple_and
    (triple_reutilizar_none (t := t) [0] tamanio) (triple_fila_reutilizar h)))
      (fun _ hs => ⟨hs, hs, hs⟩) fun _ _ hs => hs) fun direccion u hu => ?_
  obtain ⟨⟨_, hreutilizable⟩, hnone, hsome⟩ := hu
  cases direccion with
  | some p =>
      obtain ⟨hu, heap, hheap, rfl⟩ := hsome p rfl
      have hmem := List.mem_of_find?_eq_some hheap
      have hlibre := hsegura'.1 (hreutilizable.1 rfl) heap hheap
      have hcabe : tamanio ≤ unsigned heap.size := by
        have hcumple := List.find?_some hheap
        rw [Bool.and_eq_true, decide_eq_true_eq] at hcumple
        exact hcumple.2
      have hsize := h.bloques.baldosas.tamanios heap hmem
      have hcorto := h.bloques.cortos heap hmem
      rw [unsigned] at hcabe
      refine exec_pure (Or.inr ⟨seg, h.of_fila hu h.bloques, ?_⟩)
      exact hvivas.dar hmem hlibre (by omega)
  | none =>
      have hno : ¬ Reutilizable t [0] tamanio := fun hre => by simpa using hreutilizable.2 hre
      rw [hnone rfl]
      refine exec_bind (triple_conseq (triple_and (Invariante.keeps_buscarExtendible
        (I := fun s => s = t) [0] (signed tamanio) [0])
          (triple_buscarExtendible_unSegmento 0 (signed tamanio)))
            (fun s hs => ⟨hs, by rw [hs]; exact hrasgo⟩) fun _ _ hs => hs) fun extendible v hv => ?_
      rw [hv.1, hv.2]
      obtain ⟨ultimo, hultimo⟩ := h.bloques.baldosas.exists_ultimo
      have hprolongable := hsegura'.2 hno ultimo hultimo
      have hlast : seg.metadatas.getLast? = some ultimo := by
        rw [List.getLast?_eq_getElem?, ← hultimo, ← elemento_natCast]
        congr 1
        have hpos := List.length_pos_of_mem (List.mem_of_getElem? (getElem?_of_elemento hultimo).2)
        omega
      obtain ⟨bloques, hmetadatas⟩ := List.getLast?_eq_some_iff.1 hlast
      have hbytes := bytesAAgregar_pos h (List.mem_of_getLast? hlast) htam hprolongable.1 hno
      refine triple_conseq (triple_fila_extender hP htam h.bloques hmetadatas hprolongable hbytes
        hvivas) (fun s hs => by rw [hs]; exact h.fila) ?_
      rintro p s ⟨seg', hbloques', hvivas', hs⟩
      exact Or.inr ⟨seg', h.of_fila hs hbloques', hvivas'⟩

/-! ## The first request -/

theorem triple_fila_primera (tamanio : ℤ) (htabla : seg.tablaPaginas = [])
    (hmetadatas : seg.metadatas = []) :
    Triple sinReemplazo (EnFila t g seg) (asignarPrimeraPaginaSegmento cfg g tamanio)
      fun sePartio s => sePartio = decide (cfg.tamanioPag < 5) ∧
        ∃ seg', Iniciado cfg seg' ∧ EnFila t g seg' s := by
  refine triple_bind triple_fila_paginaNueva fun p => triple_assume fun hp => ?_
  rw [htabla] at hp ⊢
  subst hp
  refine triple_of_forall fun u hu => exec_pagina fun pag hpag => ?_
  obtain ⟨r, hobra⟩ := hu.obra
  have htabla' : (seg.conPaginas [([] : List ℕ).length]).tablaPaginas = [0] := by
    rw [Segmento.conPaginas, htabla]
    rfl
  rw [hobra.paginas, getElem?_fila (by rw [htabla']; simp), Option.some.injEq] at hpag
  subst hpag
  refine exec_segmento fun seg' hseg' => exec_gets ?_
  cases hobra.queda.segmento.symm.trans hseg'
  have hindice : obtenerIndicePagina u (seg.conPaginas [([] : List ℕ).length]).tablaPaginas
      ⟨true, (([] : List ℕ).length : ℕ), -1⟩ = 0 := by
    rw [obtenerIndicePagina, hobra.paginas, htabla']
    simp [fila, indice]
  rw [id, hindice, zero_mul]
  refine exec_bind (triple_conseq (triple_fila_ubicar 0 false tamanio 1) (fun s hs => by
    rw [hs]; exact hu) fun _ _ hs => hs) fun sePartio v hv => exec_modify (exec_pure ?_)
  obtain ⟨seg₁, hubicado, hv⟩ := hv
  obtain ⟨heap, hlista, hdir, _, hpartido⟩ := encabezado_of_ubicado hubicado
  rw [seParte_cero_iff] at hpartido
  have hcrecido := hv.modificarSegmento
    (f := fun seg => seg.crecido cfg (if sePartio then 2 else 1)) rfl
  have hpaginas : sePartio = decide (cfg.tamanioPag < 5) ∧
      seg₁.tablaPaginas.length = paginasPrimeras cfg := by
    rw [Ubicado] at hubicado
    split_ifs at hubicado with hparte
    · have h5 := (seParte_cero_iff cfg).1 hparte
      obtain ⟨rfl, q, rfl⟩ := hubicado
      refine ⟨(decide_eq_true h5).symm, ?_⟩
      simp [Segmento.crecido, Segmento.conPaginas, Segmento.conHeap, htabla, paginasPrimeras, h5]
    · have h5 := mt (seParte_cero_iff cfg).2 hparte
      obtain ⟨rfl, rfl⟩ := hubicado
      refine ⟨(decide_eq_false h5).symm, ?_⟩
      simp [Segmento.conPaginas, Segmento.conHeap, htabla, paginasPrimeras, h5]
  refine ⟨hpaginas.1, seg₁.crecido cfg _, ⟨⟨heap, ?_, hdir, hpartido⟩, hpaginas.2⟩, hcrecido⟩
  change seg₁.metadatas = [heap]
  rw [hlista, Segmento.conPaginas, hmetadatas]
  rfl

/-- The first block of a segment. -/
def PrimeroDe (cfg : Configuracion) (t : Estado) (tamanio : ℤ) (s : Estado) : Prop :=
  ∃ seg heap resto, seg.metadatas = heap :: resto ∧ heap.direccionHeap = 0 ∧
    heap.size = tamanio ∧ Bloques cfg seg.metadatas ∧ EnFila t 0 seg s

/-- The pages of the first block that come after those of its header. -/
theorem triple_fila_restoDelPrimero {tamanio : ℤ} (hP : cfg.tamanioPag < 2147483648)
    (htam : 0 ≤ tamanio) (hentero : tamanio + 10 < 2147483648) (hiniciado : Iniciado cfg seg) :
    Triple sinReemplazo (EnFila t 0 (seg.conUltimoHeap fun heap =>
        { heap with size := tamanio, isFree := false }))
      (asignarPaginas cfg 0 (paginasPara cfg (tamanio + 10) - paginasPrimeras cfg).toNat
        (tamanio + 10 - paginasPrimeras cfg * cfg.tamanioPag)) fun _ =>
          PrimeroDe cfg t tamanio := by
  have hpaginas := hiniciado.paginas
  obtain ⟨heap, hmetadatas, hdir, hbaldosas⟩ := hiniciado.baldosas
  have hultimo := conUltimoHeap_metadatas (show seg.metadatas = [] ++ [heap] from hmetadatas)
    fun heap => { heap with size := tamanio, isFree := false }
  have hprimero : Bloques cfg ([] ++ [{ heap with size := 0 }]) := by
    refine ⟨hbaldosas, fun otro hotro => ?_⟩
    rw [List.mem_singleton.1 hotro]
    change (0 : ℤ) < 2147483648
    omega
  obtain ⟨k, hk, hmas, hhasta⟩ := exists_paginasPara cfg (show 0 < tamanio + 10 by omega)
  by_cases hbasta : k < paginasPrimeras cfg
  · have hn : (paginasPara cfg (tamanio + 10) - paginasPrimeras cfg).toNat = 0 := by omega
    rw [hn]
    refine triple_pure _ fun s hs => ⟨_, _, [], hultimo, hdir, rfl, ?_, hs⟩
    rw [hultimo]
    refine ⟨Baldosas.conUltimo hbaldosas htam false, fun otro hotro => ?_⟩
    rw [List.mem_singleton.1 hotro]
    change tamanio < 2147483648
    omega
  · obtain ⟨j, rfl⟩ := Nat.exists_eq_add_of_le' (not_lt.1 hbasta)
    push_cast at hk hmas hhasta
    have hn : (paginasPara cfg (tamanio + 10) - paginasPrimeras cfg).toNat = j + 1 := by omega
    have htabla : (seg.conUltimoHeap fun heap =>
        { heap with size := tamanio, isFree := false }).tablaPaginas.length = paginasPrimeras cfg :=
      hpaginas
    rw [hn]
    simp only [add_mul, one_mul] at hmas hhasta
    refine triple_conseq (triple_fila_asignarPaginas j hP (by omega)
      (by rw [add_mul, one_mul]; omega)) (fun _ hs => hs) ?_
    rintro _ s ⟨seg', heap', hmetadatas', hsigue, hs⟩
    rw [hultimo, List.append_assoc] at hmetadatas'
    refine ⟨seg', _, [heap'], hmetadatas', hdir, rfl, ?_, hs⟩
    rw [hmetadatas']
    have hprolongado := hprimero.prolongar htam (by omega) hsigue (by
      rw [htabla, tamanioMetadata]
      change _ = heap.direccionHeap + 5 + tamanio
      omega)
    exact hprolongado

/-- The segment is made with its block, and then put in the table of the process. -/
theorem triple_crearSegmento_unico {sd : ℕ} {tamanio : ℤ} (hP : cfg.tamanioPag < 2147483648)
    (htam : 0 ≤ tamanio) (hentero : tamanio + 10 < 2147483648)
    (hget : t.tablasSegmentos.get sd = some []) (hsegmentos : t.segmentos = [])
    (hpaginas : t.paginas = []) (hlibres : ∃ r, t.libres = List.range' 0 r) :
    Triple sinReemplazo (· = t) (crearSegmento cfg tamanio sd) fun g s => g = 0 ∧
      ∃ seg heap, heap ∈ seg.metadatas ∧ heap.direccionHeap = 0 ∧ heap.size = tamanio ∧
        Unico cfg sd seg s := by
  have hsigned : signed tamanio = tamanio := by
    rw [signed]
    omega
  have halocado : unsigned (tamanio + 2 * tamanioMetadata) = tamanio + 10 := by
    rw [unsigned, tamanioMetadata]
    omega
  have halocado' : signed (tamanio + 10) = tamanio + 10 := by
    rw [signed]
    omega
  refine exec_gets (triple_orFail_bind fun segmentosProceso hl => ?_)
  cases hget.symm.trans hl
  refine exec_bind (Q := fun _ s => s = t) ?_ fun base s hs => ?_
  · rw [baseNueva, if_pos rfl]
    exact exec_pure rfl
  rw [hs]
  refine exec_modify ?_
  set nuevo : Segmento := ⟨true, none, ([] : List ℕ).length, base, 0, [], 0, []⟩
  have hlugar : (id t).segmentos.length = 0 := by rw [id, hsegmentos, List.length_nil]
  obtain ⟨r, hlibres⟩ := hlibres
  have hfila : EnFila (t.agregarSegmento nuevo) 0 nuevo (t.agregarSegmento nuevo) :=
    ⟨rfl, r, queda_self (by simp [Estado.agregarSegmento, hsegmentos]), hlibres, hpaginas⟩
  simp only [halocado, halocado', hsigned, hlugar]
  refine exec_bind (triple_conseq (triple_fila_primera tamanio rfl rfl)
    (fun s hs => by rw [hs]; exact hfila) fun _ _ hs => hs) fun sePartio s hs => ?_
  obtain ⟨rfl, seg, hiniciado, hs⟩ := hs
  have hprimeras : (if decide (cfg.tamanioPag < 5) = true then 2 else 1 : ℤ) =
      paginasPrimeras cfg := by
    rw [paginasPrimeras]
    split_ifs <;> simp_all
  rw [hprimeras]
  refine exec_modify ?_
  refine triple_conseq (P := EnFila (t.agregarSegmento nuevo) 0 (seg.conUltimoHeap fun heap =>
    { heap with size := tamanio, isFree := false })) ?_ (fun u hu => ?_) fun _ _ hs => hs
  · refine triple_bind (triple_fila_restoDelPrimero hP htam hentero hiniciado) fun _ =>
      triple_of_forall ?_
    rintro u ⟨seg', heap, resto, hmetadatas, hdir, hsize, hbloques, hu⟩
    obtain ⟨r', hobra⟩ := hu.obra
    refine exec_modify (exec_pure ⟨rfl, seg', heap, ?_, hdir, hsize, ?_, ?_, ⟨hu.tabla, r', ?_⟩,
      hbloques⟩)
    · rw [hmetadatas]
      exact List.mem_cons_self
    · change u.segmentos = [seg']
      rw [hobra.queda.segmentos, Estado.agregarSegmento, hsegmentos]
      rfl
    · rw [Estado.ponerTabla, Dictionary.get_put, if_pos rfl, List.nil_append]
    · exact ⟨queda_self hobra.queda.segmento, hobra.libres, hobra.paginas⟩
  · rw [hu]
    exact hs.modificarSegmento (f := fun seg => seg.conUltimoHeap _) rfl

/-- The first block of a process that is alone starts with the memory. -/
theorem triple_enPrimerSegmento_unico {sd : ℕ} {tamanio : ℤ} (hP : cfg.tamanioPag < 2147483648)
    (htam : 0 ≤ tamanio) (hentero : tamanio + 10 < 2147483648)
    (hget : t.tablasSegmentos.get sd = some []) (hsegmentos : t.segmentos = [])
    (hpaginas : t.paginas = []) (hlibres : ∃ r, t.libres = List.range' 0 r) :
    Triple sinReemplazo (· = t) (enPrimerSegmento cfg tamanio sd) fun p s =>
      Repartida cfg sd [⟨p, tamanio⟩] s := by
  refine triple_bind (triple_crearSegmento_unico hP htam hentero hget hsegmentos hpaginas hlibres)
    fun g => triple_of_forall ?_
  rintro u ⟨rfl, seg, heap, hmem, hdir, hsize, hu⟩
  refine triple_conseq (P := EnFila u 0 seg) ?_ (fun s hs => by rw [hs]; exact hu.fila)
    fun _ _ hs => hs
  refine triple_bind triple_fila_segmento fun seg' => triple_assume fun hseg => ?_
  subst hseg
  refine triple_bind (triple_fila_obtener _) fun p => triple_assume fun hp => ?_
  refine triple_bind (triple_fila_posicion p) fun pos => triple_assume fun hpos =>
    triple_pure _ fun s hs => Or.inr ⟨seg', hu.of_fila hs hu.bloques, ?_⟩
  have hdatos : cfg.memoriaPrincipal + pos + tamanioMetadata = heap.datos cfg := by
    rw [hpos, ← hp.1, HeapLista.datos, hdir, zero_mul]
  have hninguno : EnBloques cfg seg'.metadatas [] :=
    ⟨fun _ ha => absurd ha List.not_mem_nil, List.Pairwise.nil⟩
  rw [hdatos]
  refine hninguno.dar hmem ?_ hsize.ge
  rintro ⟨a, ha, _⟩
  exact absurd ha List.not_mem_nil

/-! ## Requests -/

/-- The blocks in use with the one that a request for a size returned. -/
def conBloque (vs : List Asignacion) (tamanio : ℤ) (p : Option ℤ) : List Asignacion :=
  p.elim vs fun p => ⟨p, tamanio⟩ :: vs

theorem triple_musemalloc_repartida {sd : ℕ} {tamanio : ℤ} (hP : cfg.tamanioPag < 2147483648)
    (htam : 0 ≤ tamanio) (hun : UnSegmento sd t) (h : Repartida cfg sd vs t)
    (hsegura : Segura cfg t vs sd tamanio) :
    Triple sinReemplazo (· = t) (musemalloc cfg tamanio sd) fun p =>
      Repartida cfg sd (conBloque vs tamanio p) := by
  refine exec_gets (triple_elim (fun _ => exec_pure h) fun l hl => ?_)
  rcases h with ⟨hsegmentos, hpaginas, hlibres, rfl⟩ | ⟨seg, hseg, hvivas⟩
  · -- The table has no segment, as there is none.
    have hnil : l = [] := by
      rcases hun l hl with hnil | ⟨g, _, hg⟩
      · exact hnil
      · rw [rasgos, hsegmentos] at hg
        cases hg
    subst hnil
    refine triple_ite (fun _ => ?_) fun hne => absurd rfl hne
    refine triple_bind (triple_enPrimerSegmento_unico hP htam ((hsegura [] hl).1 rfl) hl hsegmentos
      hpaginas hlibres) fun p => triple_pure _ fun _ hs => hs
  · cases hseg.tablas.symm.trans hl
    refine triple_ite (fun hnil => absurd hnil (by simp)) fun _ => ?_
    exact triple_bind (triple_unico_enSegmentos hP htam hun hseg hvivas hsegura) fun p =>
      triple_pure _ fun _ hs => hs

/-! ## Requests to free -/

/-- The header says that its block is free. -/
def HeapLista.libre (heap : HeapLista) : HeapLista := { heap with isFree := true }

/-- The flags of the headers do not matter to where they are. -/
theorem baldosas_map_libre {metadatas : List HeapLista} :
    Baldosas cfg (metadatas.map HeapLista.libre) ↔ Baldosas cfg metadatas := by
  have hcabeza : (metadatas.map HeapLista.libre).head?.map HeapLista.direccionHeap =
      metadatas.head?.map HeapLista.direccionHeap := by
    rw [List.head?_map, Option.map_map]
    rfl
  have hcadena : Tiling HeapLista.direccionHeap HeapLista.fin (metadatas.map HeapLista.libre) ↔
      Tiling HeapLista.direccionHeap HeapLista.fin metadatas := List.isChain_map _
  constructor
  · intro h
    exact ⟨hcabeza ▸ h.primero, hcadena.1 h.siguiente,
      fun heap hheap => h.partido heap.libre (List.mem_map_of_mem hheap),
      fun heap hheap => h.tamanios heap.libre (List.mem_map_of_mem hheap)⟩
  · intro h
    exact ⟨hcabeza.trans h.primero, hcadena.2 h.siguiente,
      List.forall_mem_map.2 h.partido, List.forall_mem_map.2 h.tamanios⟩

theorem map_libre_modify (metadatas : List HeapLista) (k : ℕ) :
    (metadatas.modify k HeapLista.libre).map HeapLista.libre = metadatas.map HeapLista.libre := by
  apply List.ext_getElem?
  intro i
  rw [List.getElem?_map, List.getElem?_map, List.getElem?_modify]
  cases metadatas[i]? with
  | none => rfl
  | some heap =>
      by_cases hki : k = i
      · simp [hki, HeapLista.libre]
      · simp [hki]

theorem Bloques.liberar {metadatas : List HeapLista} (h : Bloques cfg metadatas) (k : ℕ) :
    Bloques cfg (metadatas.modify k HeapLista.libre) where
  baldosas := by
    rw [← baldosas_map_libre, map_libre_modify, baldosas_map_libre]
    exact h.baldosas
  cortos := by
    intro heap hheap
    have hmem := List.mem_map_of_mem (f := HeapLista.libre) hheap
    rw [map_libre_modify] at hmem
    obtain ⟨otro, hotro, heq⟩ := List.mem_map.1 hmem
    exact (congrArg HeapLista.size heq).symm.trans_lt (h.cortos otro hotro)

theorem EnBloques.liberar {metadatas : List HeapLista} (h : EnBloques cfg metadatas vs) (k : ℕ) :
    EnBloques cfg (metadatas.modify k HeapLista.libre) vs where
  bloque a ha := by
    obtain ⟨heap, hheap, hdir, htam⟩ := h.bloque a ha
    have hmem := List.mem_map_of_mem (f := HeapLista.libre) hheap
    rw [← map_libre_modify metadatas k] at hmem
    obtain ⟨otro, hotro, heq⟩ := List.mem_map.1 hmem
    have hdatos : otro.datos cfg = heap.datos cfg := (congrArg (HeapLista.datos cfg) heq :)
    have hsize : otro.size = heap.size := (congrArg HeapLista.size heq :)
    exact ⟨otro, hotro, hdir.trans hdatos.symm, htam.trans hsize.ge⟩
  distintos := h.distintos

theorem Repartida.filter {sd : ℕ} (h : Repartida cfg sd vs s) (p : Asignacion → Bool) :
    Repartida cfg sd (vs.filter p) s := by
  rcases h with ⟨hsegmentos, hpaginas, hlibres, rfl⟩ | ⟨seg, hseg, hvivas⟩
  · exact Or.inl ⟨hsegmentos, hpaginas, hlibres, rfl⟩
  · exact Or.inr ⟨seg, hseg, fun a ha => hvivas.bloque a (List.mem_of_mem_filter ha),
      hvivas.distintos.filter p⟩

/-- Pages that are looked for are in memory, so that the state stays in order. -/
theorem keeps_fila_posicion (p : ℕ) :
    Keeps ok (EnFila t g seg) (obtenerPosicionMemoriaPagina cfg p) :=
  triple_conseq (triple_fila_posicion p) (fun _ hs => hs) fun _ _ hs => hs.1

theorem keeps_fila_reescribir (seg' : Segmento) (i : ℤ) (heap : HeapLista) :
    Keeps ok (EnFila t g seg) (reescribirMetadata cfg seg' i heap) := by
  refine keeps_bind (keeps_obtener _ _) fun p => keeps_bind (keeps_fila_posicion p) fun pos => ?_
  refine keeps_ite (fun _ => ?_) fun _ => keeps_fila_copiar _ _
  refine keeps_bind (keeps_obtener _ _) fun q => keeps_bind (keeps_fila_copiar _ _) fun _ => ?_
  exact keeps_bind (keeps_fila_posicion q) fun _ => keeps_fila_copiar _ _

theorem keeps_liberar_repartida {sd : ℕ} (dir : ℤ) (h : Unico cfg sd seg t)
    (hvivas : EnBloques cfg seg.metadatas vs) :
    Triple ok (· = t) (liberar cfg 0 dir) fun _ => Repartida cfg sd vs := by
  have hquieta : ∀ s, EnFila t 0 seg s → Repartida cfg sd vs s :=
    fun s hs => Or.inr ⟨seg, h.of_fila hs h.bloques, hvivas⟩
  refine triple_conseq (P := EnFila t 0 seg) ?_ (fun s hs => by rw [hs]; exact h.fila)
    fun _ _ hs => hs
  refine triple_bind triple_fila_segmento fun seg' => triple_assume fun hseg => ?_
  subst hseg
  refine triple_ite (fun _ => triple_pure _ hquieta) fun _ => ?_
  refine triple_bind (keeps_obtener _ _) fun p => triple_bind (keeps_pagina p) fun pag => ?_
  refine triple_bind (keeps_gets _) fun u => triple_bind (keeps_fila_posicion p) fun _ => ?_
  refine triple_bind (keeps_orFail _) fun k => triple_bind (keeps_obtener _ _) fun heap => ?_
  refine triple_bind (triple_fila_modificarSegmento (f := fun seg =>
    { seg with metadatas := seg.metadatas.modify k HeapLista.libre }) rfl) fun _ => ?_
  refine triple_bind (keeps_fila_reescribir seg' _ heap) fun _ => triple_pure _ fun s hs => ?_
  exact Or.inr ⟨_, h.of_fila hs (h.bloques.liberar k), hvivas.liberar k⟩

theorem keeps_musefree_repartida (sd : ℕ) (dir : ℤ) :
    Keeps ok (Repartida cfg sd vs) (musefree cfg sd dir) := by
  refine triple_of_forall fun u hu => ?_
  refine exec_gets (triple_elim (fun _ => exec_pure hu) fun l hl => ?_)
  rcases hu with ⟨hsegmentos, hpaginas, hlibres, rfl⟩ | ⟨seg, hseg, hvivas⟩
  · have hnada : segmentoQueContieneDireccion u l dir = none := by
      refine List.find?_eq_none.2 fun g _ => ?_
      simp [hsegmentos]
    rw [id, hnada]
    exact exec_pure (Or.inl ⟨hsegmentos, hpaginas, hlibres, rfl⟩)
  · cases hseg.tablas.symm.trans hl
    refine triple_elim (fun _ => exec_pure (Or.inr ⟨seg, hseg, hvivas⟩)) fun g hg => ?_
    have hg0 : g = 0 := List.mem_singleton.1 (List.mem_of_find?_eq_some hg)
    subst hg0
    exact keeps_liberar_repartida dir hseg hvivas

/-! ## Runs -/

/-- The event is a connection or a request for a block or to free one, of this process. -/
def DelProceso (sd : ℕ) : Evento → Prop
  | .conecta _ => True
  | .pide sd' .init => sd' = sd
  | .pide sd' (.alloc _) => sd' = sd
  | .pide sd' (.free _) => sd' = sd
  | _ => False

/-- A request for a block gives out one that is not in use. -/
def PideSegura (cfg : Configuracion) (vs : List Asignacion)
    (x : Transition.Step Estado Evento) : Prop :=
  ∀ pedido ∈ x.label.aloja, Segura cfg x.pre vs pedido.1 pedido.2.toNat

theorem Repartida.ponerTabla {sd : ℕ} (h : Repartida cfg sd vs s)
    (hget : s.tablasSegmentos.get sd = none) : Repartida cfg sd vs (s.ponerTabla sd []) := by
  rcases h with ⟨hsegmentos, hpaginas, hlibres, rfl⟩ | ⟨seg, hseg, _⟩
  · exact Or.inl ⟨hsegmentos, hpaginas, hlibres, rfl⟩
  · cases hseg.tablas.symm.trans hget

theorem Repartida.clientSocket {sd : ℕ} (h : Repartida cfg sd vs s) (l : List ℕ) :
    Repartida cfg sd vs { s with clientSocket := l } := by
  rcases h with ⟨hsegmentos, hpaginas, hlibres, rfl⟩ | ⟨seg, hseg, hvivas⟩
  · exact Or.inl ⟨hsegmentos, hpaginas, hlibres, rfl⟩
  · obtain ⟨r, hobra⟩ := hseg.fila.obra
    refine Or.inr ⟨seg, ⟨hseg.segmentos, hseg.tablas, ⟨hseg.fila.tabla, r, ?_⟩, hseg.bloques⟩,
      hvivas⟩
    exact ⟨queda_self hobra.queda.segmento, hobra.libres, hobra.paginas⟩

/-- An event that gives out no block in use keeps the blocks apart. -/
theorem triple_paso_repartida {sd : ℕ} {e : Evento} (hP : cfg.tamanioPag < 2147483648)
    (hun : UnSegmento sd t) (h : Repartida cfg sd vs t) (hsolo : DelProceso sd e)
    (hsegura : ∀ pedido ∈ e.aloja, Segura cfg t vs pedido.1 pedido.2.toNat) :
    Triple sinReemplazo (· = t) (paso cfg e) fun r s =>
      Repartida cfg sd (anotar vs e r) s ∧ UnSegmento sd s := by
  cases e with
  | conecta sd' =>
      refine exec_gets (triple_ite (fun _ => triple_fail) fun _ => exec_modify (exec_pure ⟨?_, ?_⟩))
      · exact h.clientSocket _
      · exact unSegmento_deTablas sd t _ rfl rfl hun
  | desconecta i => exact hsolo.elim
  | pide sd' llamada =>
      refine exec_gets (triple_ite (fun _ => triple_fail) fun _ => ?_)
      cases llamada with
      | init =>
          cases hsolo
          refine triple_bind (Q := fun _ s => Repartida cfg sd vs s ∧ UnSegmento sd s) ?_
            fun _ => triple_pure _ fun _ hs => hs
          refine triple_conseq (keeps_museinit (I := fun s => Repartida cfg sd vs s ∧
            UnSegmento sd s) ?_) (fun s hs => by rw [hs]; exact ⟨h, hun⟩) fun _ _ hs => hs
          rintro s ⟨hs, hs'⟩ hget
          refine ⟨hs.ponerTabla hget, fun l hl => ?_⟩
          rw [Estado.ponerTabla, Dictionary.get_put, if_pos rfl] at hl
          cases hl
          exact Or.inl rfl
      | alloc tam =>
          cases hsolo
          refine triple_bind (triple_conseq (triple_and
            (triple_musemalloc_repartida hP (Int.natCast_nonneg _) hun h (hsegura (sd, tam) rfl))
            (keeps_musemalloc_unSegmento sd sd tam.toNat))
              (fun s hs => ⟨hs, by rw [hs]; exact hun⟩) fun _ _ hs => hs) fun p => ?_
          refine triple_pure _ fun s hs => ⟨?_, hs.2⟩
          cases p with
          | none => exact hs.1
          | some p => exact hs.1
      | free dir =>
          cases hsolo
          refine triple_bind (triple_conseq (triple_and (keeps_musefree_repartida sd dir.toNat)
            (Invariante.keeps_musefree (unSegmento_deTablas sd).conservado sd dir.toNat))
              (fun s hs => by rw [hs]; exact ⟨h, hun⟩) fun _ _ hs => hs) fun _ => ?_
          exact triple_pure _ fun s hs => ⟨hs.1.filter _, hs.2⟩
      | close => exact hsolo.elim
      | get dst src n => exact hsolo.elim
      | cpy dst src n => exact hsolo.elim
      | map path length flags => exact hsolo.elim
      | sync addr len => exact hsolo.elim
      | unmap dir => exact hsolo.elim

theorem vivas_snoc (tr : List (Transition.Step Estado Evento))
    (x : Transition.Step Estado Evento) :
    vivas cfg (tr ++ [x]) = vivasTras cfg (vivas cfg tr) x := by
  rw [vivas, List.foldl_append]
  rfl

theorem repartida_inicial (cfg : Configuracion) (sd : ℕ) :
    Repartida cfg sd [] (inicial cfg) := by
  refine Or.inl ⟨rfl, rfl, ⟨cfg.cantidadFrames, ?_⟩, rfl⟩
  rw [Estado.libres, inicial, List.length_replicate, List.range_eq_range']
  refine List.filter_eq_self.2 fun f hf => ?_
  have hlt : f < cfg.cantidadFrames := by simpa using hf
  simp [hlt]

/-- While a process that is alone is given no block that is in use and no frame is replaced, its
blocks are apart and no header is in them. -/
theorem sinSolapar_of_segura {tr : List (Transition.Step Estado Evento)} (sd : ℕ)
    (hP : cfg.tamanioPag < 2147483648) (hrun : Alcanza cfg tr s)
    (hsolo : ∀ x ∈ tr, DelProceso sd x.label) (hmarcas : ∀ x ∈ tr, SinMarcas cfg sinReemplazo x)
    (hsegura : ∀ tr₁ x tr₂, tr = tr₁ ++ x :: tr₂ → PideSegura cfg (vivas cfg tr₁) x) :
    SinSolapar cfg s (vivas cfg tr) := by
  have hrepartida : Repartida cfg sd (vivas cfg tr) s ∧ UnSegmento sd s := by
    refine hrun.invariant_trace_of
      (fun tr s => Repartida cfg sd (vivas cfg tr) s ∧ UnSegmento sd s)
      (fun tr x => (DelProceso sd x.label ∧ SinMarcas cfg sinReemplazo x) ∧
        PideSegura cfg (vivas cfg tr) x) ⟨repartida_inicial cfg sd, ?_⟩ ?_ ?_
    · intro l hl
      rw [inicial, Dictionary.get_empty] at hl
      cases hl
    · rintro tr u e u' _ ⟨hu, hun⟩ ⟨⟨hsoloe, hmarcase⟩, hpide⟩ ⟨r, marcas, hr⟩
      have hpaso := triple_paso_repartida hP hun hu hsoloe hpide u r u' marcas rfl hr
        (hmarcase r u' marcas hr)
      have htras : vivasTras cfg (vivas cfg tr) ⟨u, e, u'⟩ = anotar (vivas cfg tr) e r := by
        have hcalcula : paso cfg e u = some (r, u', marcas) := hr
        rw [vivasTras, hcalcula]
        rfl
      rw [vivas_snoc, htras]
      exact hpaso
    · intro tr₁ x tr₂ heq
      have hmem : x ∈ tr := by simp [heq]
      exact ⟨⟨hsolo x hmem, hmarcas x hmem⟩, hsegura tr₁ x tr₂ heq⟩
  exact hrepartida.1.sinSolapar

instance : ∀ (s : Estado) (e : Suceso), Decidable (sinReemplazo s e)
  | _, .reemplaza _ => isFalse id
  | _, .aSwap _ => isTrue trivial
  | _, .carga _ => isTrue trivial
  | _, .trae _ => isTrue trivial

instance (vs : List Asignacion) (heap : HeapLista) : Decidable (EnUso cfg vs heap) :=
  inferInstanceAs (Decidable (∃ _ ∈ _, _))

instance (vs : List Asignacion) (seg : Segmento) (ultimo : HeapLista) (tamanio : ℤ) :
    Decidable (Prolongable cfg vs seg ultimo tamanio) := inferInstanceAs (Decidable (_ ∧ _))

instance (s : Estado) (vs : List Asignacion) (sd : ℕ) (tamanio : ℤ) :
    Decidable (Segura cfg s vs sd tamanio) := inferInstanceAs (Decidable (∀ _ ∈ _, _))

instance (vs : List Asignacion) (x : Transition.Step Estado Evento) :
    Decidable (PideSegura cfg vs x) := inferInstanceAs (Decidable (∀ _ ∈ _, _))

/-- A process has three blocks, frees the second one and asks for another that fits in it. -/
def bloqueLiberado : List Evento :=
  bloquesDe [23, 27, 4] ++ [.pide 4 (.free 1048609), .pide 4 (.alloc 8)]

theorem sinSolapar_of_segura_bloqueLiberado :
    SinSolapar cuatroFrames
      (Transition.final (siguienteEstado cuatroFrames) (inicial cuatroFrames) bloqueLiberado)
      (vivas cuatroFrames
        (Transition.trace (siguienteEstado cuatroFrames) (inicial cuatroFrames) bloqueLiberado)) :=
  sinSolapar_of_segura 4 (by decide)
    (alcanza_of_acceptsAll cuatroFrames bloqueLiberado (by decide +kernel))
    (by simp [bloqueLiberado, bloquesDe, Transition.trace, DelProceso])
    (sinMarcas_of_marcasDe cuatroFrames (by decide +kernel))
    (Transition.forall_split_iff.2 (by decide +kernel))

/-- Two requests in a row get the same address. -/
theorem not_sinSolapar : ¬ ∀ cfg sd tr s, Alcanza cfg tr s →
    (∀ x ∈ tr, DelProceso sd x.label) → SinSolapar cfg s (vivas cfg tr) := by
  intro h
  have hfinal := h cuatroFrames 4 _ _
    (alcanza_of_acceptsAll cuatroFrames (bloquesDe [4, 4]) (by decide +kernel))
    (by simp [bloquesDe, Transition.trace, DelProceso])
  have hvivas : vivas cuatroFrames (Transition.trace (siguienteEstado cuatroFrames)
      (inicial cuatroFrames) (bloquesDe [4, 4])) = [⟨1048581, 4⟩, ⟨1048581, 4⟩] := by
    decide +kernel
  have hdatos := hfinal.datos
  rw [hvivas, List.pairwise_pair] at hdatos
  exact hdatos 1048581 (by decide)

end Muse
