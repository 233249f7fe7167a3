import Linuse.Muse.Medidas
import Linuse.Muse.Sincronizacion
import Linuse.Muse.Vuelta

/-!
# Freeing a block

`musefree` should mark the block as free and write its header again, wherever the header
is. The page of the header is taken to be the one before the page of the data, and the
second part of a header that is split is copied from after the structure: a block is freed
if and only if its header ends where its page does, or is split between two pages and those
bytes happen to be its own (`liberado_iff`).
-/

namespace Muse

open Memory Marked

variable {cfg : Configuracion} {ok : Estado → Suceso → Prop} {s t u : Estado} {seg : Segmento}
  {heap : HeapLista} {g k sd : ℕ} {dir : ℤ}

/-! ## What a request to free should do -/

/-- The place in memory of a byte of the segment, through its table of pages. -/
def Lugar (cfg : Configuracion) (s : Estado) (seg : Segmento) (x a : ℤ) : Prop :=
  ∃ p pag, elemento seg.tablaPaginas (x / cfg.tamanioPag) = some p ∧ s.paginas[p]? = some pag ∧
    pag.presencia = true ∧ a = pag.numeroFrame * cfg.tamanioPag + x % cfg.tamanioPag

/-- The header of the block says that it is free, and no other byte changes. -/
structure Reescrito (cfg : Configuracion) (s : Estado) (seg : Segmento) (heap : HeapLista)
    (m m' : Mem) : Prop where
  encabezado : ∀ n : ℕ, n < 5 → ∃ a, Lugar cfg s seg (heap.direccionHeap + n) a ∧
    (bytesMetadata heap.size true)[n]? = some (m' a)
  resto : ∀ a, (∀ n : ℕ, n < 5 → ¬ Lugar cfg s seg (heap.direccionHeap + n) a) → m' a = m a

/-- The block in this place of the headers of a segment is free. -/
def Estado.liberado (s : Estado) (g k : ℕ) : Estado :=
  s.modificarSegmento g fun seg =>
    { seg with metadatas := seg.metadatas.modify k fun heap => { heap with isFree := true } }

/-- Whatever the memory has, the block is freed and nothing else changes. -/
def Liberado (cfg : Configuracion) (s : Estado) (sd : ℕ) (dir : ℤ) (g k : ℕ) (seg : Segmento)
    (heap : HeapLista) : Prop :=
  ∀ m, ∃ m' marcas, Runs (musefree cfg sd dir) { s with memoria := m } 0
    { s.liberado g k with memoria := m' } marcas ∧ Reescrito cfg s seg heap m m'

/-- Whatever the memory has, the request fails and nothing changes. -/
def Rechazada (cfg : Configuracion) (s : Estado) (sd : ℕ) (dir : ℤ) : Prop :=
  ∀ m, ∃ marcas, Runs (musefree cfg sd dir) { s with memoria := m } (-1)
    { s with memoria := m } marcas

/-- A header as `ubicarMetadataYHeapLista` describes it. -/
structure Conforme (cfg : Configuracion) (heap : HeapLista) : Prop where
  partido : heap.estaPartido = true ↔ seParte cfg heap.direccionHeap
  bytes : heap.estaPartido = true →
    heap.bytesPrimeraPagina = cfg.tamanioPag - heap.direccionHeap.tmod cfg.tamanioPag

/-! ## Pages that are looked for -/

/-- What `obtenerPosicionMemoriaPagina` does: nothing, or it brings the page. -/
theorem triple_posicion_quieta (cfg : Configuracion) (t : Estado) (p : ℕ) :
    Triple ok (· = t) (obtenerPosicionMemoriaPagina cfg p) fun pos s =>
      (∃ pag, t.paginas[p]? = some pag ∧ Quieta pag ∧ s = t ∧
        pos = pag.numeroFrame * cfg.tamanioPag) ∨ Ausente p t ∧ Presente p s := by
  refine exec_pagina fun pag hpag => triple_ite (fun hc => ?_) fun hc => ?_
  · refine exec_bind (Q := fun _ => Presente p) ?_ fun _ s hs => ?_
    · refine exec_mark fun hok => exec_gets (exec_modify (exec_modify (triple_modify _ ?_)))
      rintro s rfl pag' hpag'
      rw [Estado.copiar, modificarPagina_getElem?, Option.map_eq_some_iff] at hpag'
      obtain ⟨x, _, rfl⟩ := hpag'
      rw [if_pos rfl]
    · exact exec_pagina fun pag' _ => exec_pure (Or.inr ⟨⟨pag, hpag, hc.1⟩, hs⟩)
  · refine exec_pagina fun pag' hpag' => exec_pure (Or.inl ⟨pag, hpag, ?_, rfl, ?_⟩)
    · exact fun hpres => by_contra fun hne => hc ⟨hpres, hne⟩
    · cases hpag.symm.trans hpag'
      rfl

/-- Bringing a page keeps in memory the pages that are there. -/
theorem keeps_presente_posicion (p q : ℕ) :
    Keeps ok (Presente p) (obtenerPosicionMemoriaPagina cfg q) := by
  refine triple_of_forall fun t ht => triple_conseq (triple_obtenerPosicionMemoriaPagina cfg t q)
    (fun _ hs => hs) ?_
  rintro _ s (rfl | ⟨_, pag, _, hs⟩)
  · exact ht
  · intro pag' hpag'
    rw [hs.paginas, modificarPagina_getElem?, Option.map_eq_some_iff] at hpag'
    obtain ⟨x, hx, rfl⟩ := hpag'
    split_ifs
    · rfl
    · exact ht x hx

/-- A page that is looked for by a computation that brings none is where it was. -/
theorem exec_posicion {α : Type} {p : ℕ} {c : ℤ → Codigo α} {R : α → Estado → Prop}
    (h : ∀ pag, t.paginas[p]? = some pag → Quieta pag →
      Triple ok (· = t) (c (pag.numeroFrame * cfg.tamanioPag)) R)
    (hc : ∀ pos, Keeps ok (Presente p) (c pos)) (hR : ∀ a s, Ausente p t → Presente p s → R a s) :
    Triple ok (· = t) (obtenerPosicionMemoriaPagina cfg p >>= c) R := by
  refine exec_bind (triple_posicion_quieta cfg t p) fun pos s hs => ?_
  rcases hs with ⟨pag, hpag, hquieta, rfl, rfl⟩ | ⟨haus, hpres⟩
  · exact h pag hpag hquieta
  · exact triple_conseq (hc pos) (fun _ hs => by rw [hs]; exact hpres) fun a s hs => hR a s haus hs

/-! ## What `musefree` does -/

/-- The memory after the header is written in the page at `pos` and, if it is split, in the page
at `segunda`. -/
def reescritura (cfg : Configuracion) (heap : HeapLista) (m : Mem) (pos segunda : ℤ) : Mem :=
  let desplazamiento := heap.direccionHeap.tmod cfg.tamanioPag
  if heap.estaPartido then
    store (store m (pos + desplazamiento)
      ((bytesMetadata heap.size true).take heap.bytesPrimeraPagina.toNat)) segunda
        (restoMetadata cfg heap.bytesPrimeraPagina)
  else store m (pos + desplazamiento) (bytesMetadata heap.size true)

/-- The page with this number in the segment, which is not in swap, starts at `pos`. -/
def PaginaEn (cfg : Configuracion) (t : Estado) (seg : Segmento) (i pos : ℤ) : Prop :=
  ∃ q qag, elemento seg.tablaPaginas i = some q ∧ t.paginas[q]? = some qag ∧ Quieta qag ∧
    pos = qag.numeroFrame * cfg.tamanioPag

/-- The header is written in the page with this number, and in the next one if it is split. -/
def Reescribe (cfg : Configuracion) (t : Estado) (seg : Segmento) (i : ℤ) (heap : HeapLista)
    (u : Estado) : Prop :=
  ∃ pos segunda, PaginaEn cfg t seg i pos ∧
    (heap.estaPartido = true → PaginaEn cfg t seg (i + 1) segunda) ∧
      u = { t with memoria := reescritura cfg heap t.memoria pos segunda }

theorem keeps_presente_reescribir (p : ℕ) (seg : Segmento) (i : ℤ) (heap : HeapLista) :
    Keeps ok (Presente p) (reescribirMetadata cfg seg i heap) := by
  have hcopiar : ∀ a l, Keeps ok (Presente p) (modify fun s => s.copiar a l) :=
    fun a l => keeps_modify _ fun _ hs => hs
  refine keeps_bind (keeps_obtener _ _) fun q => keeps_bind (keeps_presente_posicion p q) fun pos =>
    keeps_ite (fun _ => ?_) fun _ => hcopiar _ _
  refine keeps_bind (keeps_obtener _ _) fun r => keeps_bind (hcopiar _ _) fun _ => ?_
  exact keeps_bind (keeps_presente_posicion p r) fun _ => hcopiar _ _

/-- A computation after which a page that was not in memory is, changes the pages. -/
theorem paginas_ne {p : ℕ} (h : Ausente p t) (hs : Presente p s) : s.paginas ≠ t.paginas := by
  intro heq
  obtain ⟨pag, hpag, hpres⟩ := h
  rw [← heq] at hpag
  exact absurd (hs pag hpag) (by rw [hpres]; simp)

/-- A header that is written without bringing any page. -/
theorem triple_reescribirMetadata (t : Estado) (seg : Segmento) (i : ℤ) (heap : HeapLista) :
    Triple ok (· = t) (reescribirMetadata cfg seg i heap) fun _ u =>
      u.paginas = t.paginas → Reescribe cfg t seg i heap u := by
  refine triple_bind (triple_obtener _ _) fun q => triple_assume fun hq => ?_
  have hcopiar : ∀ p a l, Keeps ok (Presente p) (modify fun s => s.copiar a l) :=
    fun p a l => keeps_modify _ fun _ hs => hs
  refine exec_posicion (fun qag hqag hquieta => ?_) (fun pos => ?_)
    fun _ s haus hpres heq => absurd heq (paginas_ne haus hpres)
  · have hpos : PaginaEn cfg t seg i (qag.numeroFrame * cfg.tamanioPag) :=
      ⟨q, qag, hq, hqag, hquieta, rfl⟩
    refine triple_ite (fun hpartido => ?_) fun hentero => ?_
    · refine triple_bind (triple_obtener _ _) fun r => triple_assume fun hr => exec_modify ?_
      refine exec_posicion (fun rag hrag hquieta' => ?_) (fun _ => hcopiar _ _ _)
        fun _ s haus hpres heq => absurd heq (paginas_ne haus hpres)
      refine triple_modify _ fun s hs _ => ?_
      refine ⟨_, _, hpos, fun _ => ⟨r, rag, hr, hrag, hquieta', rfl⟩, ?_⟩
      rw [hs, reescritura, if_pos hpartido]
      rfl
    · refine triple_modify _ fun s hs _ => ?_
      refine ⟨_, 0, hpos, fun h => absurd h hentero, ?_⟩
      rw [hs, reescritura, if_neg hentero]
      rfl
  · refine keeps_ite (fun _ => ?_) fun _ => hcopiar _ _ _
    refine keeps_bind (keeps_obtener _ _) fun r => keeps_bind (hcopiar _ _ _) fun _ => ?_
    exact keeps_bind (keeps_presente_posicion q r) fun _ => hcopiar _ _ _

/-- The effect of `liberar` on a segment for blocks, when no page is brought. -/
structure Libera (cfg : Configuracion) (t : Estado) (g : ℕ) (seg : Segmento) (dir : ℤ) (r : ℤ)
    (k : ℕ) (heap : HeapLista) (u : Estado) : Prop where
  halla : seg.metadatas.findIdx? (fun heap =>
    decide (heap.direccionHeap + tamanioMetadata = signed (dir - seg.baseLogica))) = some k
  bloque : seg.metadatas[k]? = some heap
  resultado : r = if heap.size = -1 then -1 else 0
  escribe : ∃ p pag, elemento seg.tablaPaginas
      (unsigned (dir - seg.baseLogica) / cfg.tamanioPag) = some p ∧ t.paginas[p]? = some pag ∧
    Quieta pag ∧ Reescribe cfg (t.liberado g k) seg
      (obtenerIndicePagina t seg.tablaPaginas pag - 1) heap u

theorem triple_liberar (t : Estado) (g : ℕ) (dir : ℤ) :
    Triple ok (· = t) (liberar cfg g dir) fun r u => u.paginas = t.paginas →
      ∃ seg, t.segmentos[g]? = some seg ∧ (seg.esComun = false ∧ r = -1 ∨
        ∃ k heap, seg.esComun = true ∧ Libera cfg t g seg dir r k heap u) := by
  refine exec_segmento fun seg hseg => ?_
  refine triple_ite (fun hmapa => exec_pure fun _ => ⟨seg, hseg, Or.inl ⟨hmapa, rfl⟩⟩)
    fun hcomun => ?_
  refine triple_bind (triple_obtener _ _) fun p => triple_assume fun hp => ?_
  refine exec_pagina fun pag hpag => exec_gets ?_
  refine exec_posicion (fun pag' hpag' hquieta => ?_) (fun pos => ?_)
    fun _ s haus hpres heq => absurd heq (paginas_ne haus hpres)
  · cases hpag.symm.trans hpag'
    refine triple_orFail_bind fun k hk => ?_
    refine triple_bind (triple_obtener _ _) fun heap => triple_assume fun hheap => exec_modify ?_
    rw [elemento_natCast] at hheap
    refine exec_bind (triple_reescribirMetadata (t.liberado g k) seg _ heap) fun _ s hs =>
      exec_pure fun hpaginas => ⟨seg, hseg, Or.inr ⟨k, heap, by simpa using hcomun, ?_⟩⟩
    exact ⟨hk, hheap, rfl, p, pag, hp, hpag, hquieta, hs hpaginas⟩
  · refine keeps_bind (keeps_orFail _) fun k => keeps_bind (keeps_obtener _ _) fun heap => ?_
    refine keeps_bind (keeps_modify _ fun _ hs => hs) fun _ => ?_
    exact keeps_bind (keeps_presente_reescribir p seg _ heap) fun _ => keeps_pure _

/-- The process finds the address in this segment. -/
def Halla (s : Estado) (sd : ℕ) (dir : ℤ) (g : ℕ) (seg : Segmento) : Prop :=
  ∃ segmentos, s.tablasSegmentos.get sd = some segmentos ∧
    segmentoQueContieneDireccion s segmentos dir = some g ∧ s.segmentos[g]? = some seg

/-- The address is in no segment of the process, or in one that maps a file. -/
def NadaQueLiberar (s : Estado) (sd : ℕ) (dir : ℤ) : Prop :=
  ∀ g seg, Halla s sd dir g seg → seg.esComun = false

theorem triple_musefree (t : Estado) (sd : ℕ) (dir : ℤ) :
    Triple ok (· = t) (musefree cfg sd dir) fun r u => u.paginas = t.paginas →
      r = -1 ∧ NadaQueLiberar t sd dir ∨ ∃ g seg k heap, Halla t sd dir g seg ∧
        seg.esComun = true ∧ Libera cfg t g seg dir r k heap u := by
  refine exec_gets (triple_elim (fun hnone => exec_pure fun _ => Or.inl ⟨rfl, ?_⟩) fun l hl => ?_)
  · rintro g seg ⟨segmentos, hget, _⟩
    cases hnone.symm.trans hget
  refine triple_elim (fun hnone => exec_pure fun _ => Or.inl ⟨rfl, ?_⟩) fun g hg => ?_
  · rintro g seg ⟨segmentos, hget, hhalla, _⟩
    cases hl.symm.trans hget
    cases hnone.symm.trans hhalla
  · refine triple_conseq (triple_liberar t g dir) (fun _ hs => hs) fun r u hu heq => ?_
    obtain ⟨seg, hseg, ⟨hmapa, rfl⟩ | ⟨k, heap, hcomun, hlibera⟩⟩ := hu heq
    · refine Or.inl ⟨rfl, ?_⟩
      rintro g' seg' ⟨segmentos, hget, hhalla, hseg'⟩
      cases hl.symm.trans hget
      cases hg.symm.trans hhalla
      cases hseg.symm.trans hseg'
      exact hmapa
    · exact Or.inr ⟨g, seg, k, heap, ⟨l, hl, hg, hseg⟩, hcomun, hlibera⟩

theorem runs_reescribirMetadata {i pos segunda : ℤ} (hpos : PaginaEn cfg t seg i pos)
    (hsegunda : heap.estaPartido = true → PaginaEn cfg t seg (i + 1) segunda) :
    Runs (reescribirMetadata cfg seg i heap) t ()
      { t with memoria := reescritura cfg heap t.memoria pos segunda } [] := by
  obtain ⟨q, qag, hq, hqag, hquieta, rfl⟩ := hpos
  have hobtener : ∀ {i : ℤ} {a : ℕ} (v : Estado), elemento seg.tablaPaginas i = some a →
      Runs (obtener seg.tablaPaginas i) v a v [] := fun v h => runs_orFail h v
  refine (hobtener t hq).bind ((runs_posicion_quieta hqag hquieta).bind ?_)
  rw [reescritura]
  split_ifs with hpartido
  · obtain ⟨r, rag, hr, hrag, hquieta', rfl⟩ := hsegunda hpartido
    refine (hobtener t hr).bind ((runs_modify _ t).bind ?_)
    exact Runs.bind (runs_posicion_quieta hrag hquieta') (runs_modify _ _)
  · exact runs_modify _ t

/-- `musefree` of a block, when no page has to be brought. -/
theorem runs_musefree {p : ℕ} {pag : Pagina} {pos segunda : ℤ} (hhalla : Halla t sd dir g seg)
    (hcomun : seg.esComun = true) (hk : seg.metadatas.findIdx? (fun heap =>
      decide (heap.direccionHeap + tamanioMetadata = signed (dir - seg.baseLogica))) = some k)
    (hheap : seg.metadatas[k]? = some heap)
    (hp : elemento seg.tablaPaginas (unsigned (dir - seg.baseLogica) / cfg.tamanioPag) = some p)
    (hpag : t.paginas[p]? = some pag) (hquieta : Quieta pag)
    (hpos : PaginaEn cfg t seg (obtenerIndicePagina t seg.tablaPaginas pag - 1) pos)
    (hsegunda : heap.estaPartido = true →
      PaginaEn cfg t seg (obtenerIndicePagina t seg.tablaPaginas pag - 1 + 1) segunda) :
    Runs (musefree cfg sd dir) t (if heap.size = -1 then -1 else 0)
      { t.liberado g k with memoria := reescritura cfg heap t.memoria pos segunda } [] := by
  obtain ⟨l, hget, hg, hseg⟩ := hhalla
  refine (runs_gets id t).bind ?_
  rw [id_eq, hget, Option.elim_some, hg, Option.elim_some]
  refine (runs_segmento hseg).bind ?_
  rw [if_neg (by simp [hcomun])]
  refine Runs.bind (runs_orFail hp t) ((runs_pagina hpag).bind ((runs_gets id t).bind ?_))
  refine Runs.bind (runs_posicion_quieta hpag hquieta) (Runs.bind (runs_orFail hk t) ?_)
  refine Runs.bind (runs_obtener hheap t) (Runs.bind (runs_modify _ t) ?_)
  exact Runs.bind (runs_reescribirMetadata (t := t.liberado g k) hpos hsegunda) (runs_pure _ _)

/-! ## Places -/

/-- The page with this number in the segment is in memory. -/
def PaginaPresente (s : Estado) (seg : Segmento) (i : ℤ) : Prop :=
  ∃ p pag, elemento seg.tablaPaginas i = some p ∧ s.paginas[p]? = some pag ∧ pag.presencia = true

/-- A page of the segment that is not in memory is in swap. -/
def ConRanuras (s : Estado) (seg : Segmento) : Prop :=
  ∀ p ∈ seg.tablaPaginas, ∀ pag, s.paginas[p]? = some pag → pag.presencia = false →
    pag.indiceSwap ≠ -1

theorem Lugar.nonneg {x a : ℤ} (h : Lugar cfg s seg x a) : 0 ≤ x := by
  obtain ⟨p, pag, hp, _⟩ := h
  have hdiv := (getElem?_of_elemento hp).1
  have hpos := cfg.positivo
  rwa [Int.le_ediv_iff_mul_le (by omega), zero_mul] at hdiv

theorem Lugar.eq {x a b : ℤ} (h : Lugar cfg s seg x a) (h' : Lugar cfg s seg x b) : a = b := by
  obtain ⟨p, pag, hp, hpag, _, rfl⟩ := h
  obtain ⟨p', pag', hp', hpag', _, rfl⟩ := h'
  cases hp.symm.trans hp'
  cases hpag.symm.trans hpag'
  rfl

/-- Different bytes of the segment are in different places. -/
theorem Lugar.inj {x y a : ℤ} (hdistintas : Distintas s seg) (h : Lugar cfg s seg x a)
    (h' : Lugar cfg s seg y a) : x = y := by
  obtain ⟨p, pag, hp, hpag, hpres, ha⟩ := h
  obtain ⟨q, qag, hq, hqag, hqpres, hb⟩ := h'
  have hpos : (0 : ℤ) < cfg.tamanioPag := by exact_mod_cast cfg.positivo
  have hframe : pag.numeroFrame = qag.numeroFrame := by
    have hcociente : ∀ f z : ℤ, (f * cfg.tamanioPag + z % cfg.tamanioPag) / cfg.tamanioPag = f := by
      intro f z
      rw [add_comm, Int.add_mul_ediv_right _ _ hpos.ne', Int.ediv_eq_zero_of_lt
        (Int.emod_nonneg z hpos.ne') (Int.emod_lt_of_pos z hpos), zero_add]
    rw [← hcociente pag.numeroFrame x, ← ha, hb, hcociente]
  have hresto : x % cfg.tamanioPag = y % cfg.tamanioPag := by
    rw [hframe] at ha
    omega
  obtain ⟨hx, hp'⟩ := getElem?_of_elemento hp
  obtain ⟨hy, hq'⟩ := getElem?_of_elemento hq
  have hpagina : x / (cfg.tamanioPag : ℤ) = y / cfg.tamanioPag := by
    by_contra hne
    exact hdistintas (x / cfg.tamanioPag).toNat (y / cfg.tamanioPag).toNat p q pag qag (by omega)
      hp' hq' hpag hqag hpres hqpres hframe
  rw [← Int.mul_ediv_add_emod x cfg.tamanioPag, ← Int.mul_ediv_add_emod y cfg.tamanioPag, hpagina,
    hresto]

/-- The bytes of a page in memory follow each other. -/
theorem lugar_of_presente (cfg : Configuracion) {p : ℕ} {pag : Pagina} {i r : ℤ}
    (hp : elemento seg.tablaPaginas i = some p) (hpag : s.paginas[p]? = some pag)
    (hpres : pag.presencia = true) (hr : 0 ≤ r) (hr' : r < cfg.tamanioPag) :
    Lugar cfg s seg (i * cfg.tamanioPag + r) (pag.numeroFrame * cfg.tamanioPag + r) := by
  have hpos : (0 : ℤ) < cfg.tamanioPag := by exact_mod_cast cfg.positivo
  refine ⟨p, pag, ?_, hpag, hpres, ?_⟩
  · rwa [add_comm, Int.add_mul_ediv_right _ _ hpos.ne', Int.ediv_eq_zero_of_lt hr hr', zero_add]
  · rw [add_comm (i * _), Int.add_mul_emod_self_right, Int.emod_eq_of_lt hr hr']

/-! ## Where the header has to be -/

theorem length_bytesMetadata (size : ℤ) (isFree : Bool) :
    (bytesMetadata size isFree).length = 5 := by
  rw [bytesMetadata, List.length_append, Wire.length_toBytes, List.length_singleton]

/-- A header that is written whole in a page, and is right whatever the memory has, is that of a
block with its header there. -/
theorem pagina_eq_of_reescrito {q : ℕ} {qag : Pagina} {i : ℤ} (hdistintas : Distintas s seg)
    (hq : elemento seg.tablaPaginas i = some q) (hqag : s.paginas[q]? = some qag)
    (hpres : qag.presencia = true)
    (hentera : heap.direccionHeap % cfg.tamanioPag + 5 ≤ cfg.tamanioPag)
    (h : ∀ m, Reescrito cfg s seg heap m (store m (qag.numeroFrame * cfg.tamanioPag +
      heap.direccionHeap % cfg.tamanioPag) (bytesMetadata heap.size true))) :
    heap.direccionHeap / cfg.tamanioPag = i := by
  have hpos : (0 : ℤ) < cfg.tamanioPag := by exact_mod_cast cfg.positivo
  have hoff := Int.emod_nonneg heap.direccionHeap hpos.ne'
  obtain ⟨w, hw⟩ := exists_byte_ne ((bytesMetadata heap.size true).getD 0 0)
  obtain ⟨a, ha, hbyte⟩ := (h fun _ => w).encabezado 0 (by omega)
  rw [Nat.cast_zero, add_zero] at ha
  have hcambia : store (fun _ => w) (qag.numeroFrame * cfg.tamanioPag +
      heap.direccionHeap % cfg.tamanioPag) (bytesMetadata heap.size true) a ≠ w := by
    intro heq
    rw [heq] at hbyte
    exact hw (by rw [List.getD_eq_getElem?_getD, hbyte]; rfl)
  obtain ⟨n, hn, hna⟩ := exists_of_store_ne hcambia
  rw [length_bytesMetadata] at hn
  have hlugar := lugar_of_presente cfg (r := heap.direccionHeap % cfg.tamanioPag + n) hq hqag
    hpres (by omega) (by omega)
  rw [← add_assoc, ← add_assoc, ← hna] at hlugar
  have heq := ha.inj hdistintas hlugar
  rw [heq, add_assoc, add_comm, Int.add_mul_ediv_right _ _ hpos.ne',
    Int.ediv_eq_zero_of_lt (by omega) (by omega), zero_add]

/-- A header that is split, and is right whatever the memory has, goes on in the page of the data
with its own bytes. -/
theorem resto_eq_of_reescrito {p : ℕ} {pag : Pagina} {i : ℤ} {f : Mem → Mem}
    (hdistintas : Distintas s seg)
    (hp : elemento seg.tablaPaginas i = some p) (hpag : s.paginas[p]? = some pag)
    (hpres : pag.presencia = true)
    (hi : (heap.direccionHeap + 5) / cfg.tamanioPag = i)
    (hpartida : cfg.tamanioPag < heap.direccionHeap % cfg.tamanioPag + 5)
    (h : ∀ m, Reescrito cfg s seg heap m (store (f m) (pag.numeroFrame * cfg.tamanioPag)
      (restoMetadata cfg (cfg.tamanioPag - heap.direccionHeap % cfg.tamanioPag)))) :
    heap.direccionHeap % cfg.tamanioPag + 5 < 2 * cfg.tamanioPag ∧
      restoMetadata cfg (cfg.tamanioPag - heap.direccionHeap % cfg.tamanioPag) =
        (bytesMetadata heap.size true).drop
          (cfg.tamanioPag - heap.direccionHeap % cfg.tamanioPag).toNat := by
  have hpos : (0 : ℤ) < cfg.tamanioPag := by exact_mod_cast cfg.positivo
  have hoff := Int.emod_nonneg heap.direccionHeap hpos.ne'
  have hlt := Int.emod_lt_of_pos heap.direccionHeap hpos
  have hdiv := Int.mul_ediv_add_emod heap.direccionHeap cfg.tamanioPag
  set off := heap.direccionHeap % (cfg.tamanioPag : ℤ) with hoffdef
  have hlargo : (restoMetadata cfg (cfg.tamanioPag - off)).length =
      (off + 5 - cfg.tamanioPag).toNat := by
    rw [restoMetadata, List.length_map, List.length_range, tamanioMetadata]
    omega
  have hdos : off + 5 < 2 * cfg.tamanioPag := by
    by_contra hle
    -- The last byte of the page of the data is written, and it is not of the header.
    have hultimo := lugar_of_presente cfg (r := cfg.tamanioPag - 1) hp hpag hpres (by omega)
      (by omega)
    have hlen : (cfg.tamanioPag - 1 : ℕ) < (restoMetadata cfg (cfg.tamanioPag - off)).length := by
      omega
    obtain ⟨w, hw⟩ := exists_byte_ne (restoMetadata cfg (cfg.tamanioPag - off))[cfg.tamanioPag - 1]
    have hescrito := store_getElem (m := f fun _ => w) (a := pag.numeroFrame * cfg.tamanioPag) hlen
    rw [Nat.cast_pred cfg.positivo] at hescrito
    have hresto := (h fun _ => w).resto _ fun n hn hlugar => by
      have heq := hlugar.inj hdistintas hultimo
      have hfin := Int.mul_ediv_add_emod (heap.direccionHeap + 5) cfg.tamanioPag
      have hmod := Int.emod_lt_of_pos (heap.direccionHeap + 5) hpos
      rw [hi, mul_comm] at hfin
      omega
    exact hw (hresto.symm.trans hescrito)
  refine ⟨hdos, List.ext_getElem ?_ fun j hj hj' => ?_⟩
  · rw [hlargo, List.length_drop, length_bytesMetadata]
    omega
  · have hsiguiente : i = heap.direccionHeap / cfg.tamanioPag + 1 := by
      have hsuma : heap.direccionHeap + 5 = off + 5 - cfg.tamanioPag +
          (heap.direccionHeap / cfg.tamanioPag + 1) * cfg.tamanioPag := by
        rw [add_mul, one_mul, mul_comm]
        omega
      rw [← hi, hsuma, Int.add_mul_ediv_right _ _ hpos.ne',
        Int.ediv_eq_zero_of_lt (by omega) (by omega), zero_add]
    rw [hlargo] at hj
    obtain ⟨a, ha, hbyte⟩ := (h fun _ => 0).encabezado ((cfg.tamanioPag - off).toNat + j) (by omega)
    have hlugar := lugar_of_presente cfg (r := j) hp hpag hpres (by omega) (by omega)
    have hmisma : heap.direccionHeap + (((cfg.tamanioPag - off).toNat + j : ℕ) : ℤ) =
        i * cfg.tamanioPag + j := by
      rw [hsiguiente, add_mul, one_mul, mul_comm, Nat.cast_add, Int.toNat_of_nonneg (by omega)]
      omega
    rw [hmisma] at ha
    rw [ha.eq hlugar, store_getElem (by rwa [hlargo])] at hbyte
    rw [List.getElem_drop]
    exact (List.getElem_of_getElem? hbyte).choose_spec.symm

/-! ## When a block is freed -/

/-- The address is that of the data of the block, as `musefree` looks for it, and the block has a
size that can be told from none. -/
structure Senalado (s : Estado) (sd : ℕ) (dir : ℤ) (g k : ℕ) (seg : Segmento) (heap : HeapLista) :
    Prop where
  halla : Halla s sd dir g seg
  comun : seg.esComun = true
  primero : seg.metadatas.findIdx? (fun heap =>
    decide (heap.direccionHeap + tamanioMetadata = signed (dir - seg.baseLogica))) = some k
  tamanio : heap.size ≠ -1

/-- The block is found, and its header ends where its page does or is split between two pages, with
its last bytes where those of the structure are looked for. -/
structure LiberacionPosible (cfg : Configuracion) (s : Estado) (sd : ℕ) (dir : ℤ) (g k : ℕ)
    (seg : Segmento) (heap : HeapLista) : Prop extends Senalado s sd dir g k seg heap where
  encabezado : PaginaPresente s seg (heap.direccionHeap / cfg.tamanioPag)
  datos : PaginaPresente s seg ((heap.direccionHeap + 5) / cfg.tamanioPag)
  lugar : heap.direccionHeap % cfg.tamanioPag + 5 = cfg.tamanioPag ∨
    cfg.tamanioPag < heap.direccionHeap % cfg.tamanioPag + 5 ∧
      heap.direccionHeap % cfg.tamanioPag + 5 < 2 * cfg.tamanioPag ∧
      restoMetadata cfg (cfg.tamanioPag - heap.direccionHeap % cfg.tamanioPag) =
        (bytesMetadata heap.size true).drop
          (cfg.tamanioPag - heap.direccionHeap % cfg.tamanioPag).toNat

/-- A block of a segment after one is freed. -/
theorem bloque_liberado {g' k' : ℕ} (hseg : s.segmentos[g]? = some seg)
    (hheap : seg.metadatas[k]? = some heap) :
    ((s.liberado g' k').segmentos[g]?).bind (fun seg => seg.metadatas[k]?) =
      some (if g' = g ∧ k' = k then { heap with isFree := true } else heap) := by
  rw [Estado.liberado, Estado.modificarSegmento, List.getElem?_modify, hseg]
  by_cases hg : g' = g
  · by_cases hk : k' = k
    · simp [hg, hk, hheap]
    · simp [hg, hk, hheap]
  · simp [hg, hheap]

/-- A block that was in use is the one that is marked. -/
theorem liberado_inj {g' k' : ℕ} (hseg : s.segmentos[g]? = some seg)
    (hheap : seg.metadatas[k]? = some heap) (hvivo : heap.isFree = false)
    (heq : (s.liberado g k).segmentos = (s.liberado g' k').segmentos) : g' = g ∧ k' = k := by
  have hpropio : ((s.liberado g k).segmentos[g]?).bind (fun seg => seg.metadatas[k]?) =
      some { heap with isFree := true } := by
    rw [bloque_liberado hseg hheap, if_pos ⟨rfl, rfl⟩]
  by_contra hno
  rw [heq, bloque_liberado hseg hheap, if_neg hno, Option.some.injEq] at hpropio
  rw [hpropio] at hvivo
  cases hvivo

theorem ConRanuras.presente (h : ConRanuras s seg) {i : ℤ} {p : ℕ} {pag : Pagina}
    (hp : elemento seg.tablaPaginas i = some p) (hpag : s.paginas[p]? = some pag)
    (hquieta : Quieta pag) : pag.presencia = true := by
  by_contra hpres
  rw [Bool.not_eq_true] at hpres
  exact h p (List.mem_of_getElem? (getElem?_of_elemento hp).2) pag hpag hpres (hquieta hpres)

theorem obtenerIndicePagina_of_elemento {i : ℤ} {p : ℕ} {pag : Pagina}
    (hdistintas : Distintas s seg) (hp : elemento seg.tablaPaginas i = some p)
    (hpag : s.paginas[p]? = some pag) (hpres : pag.presencia = true) :
    obtenerIndicePagina s seg.tablaPaginas pag = i := by
  obtain ⟨hi, hp'⟩ := getElem?_of_elemento hp
  rw [obtenerIndicePagina_eq hdistintas hp' hpag hpres, Int.toNat_of_nonneg hi]

theorem unsigned_of_signed {x y : ℤ} (h : y = signed x) (hy : 0 ≤ y) : unsigned x = y := by
  rw [signed] at h
  rw [unsigned]
  omega

/-- A block that is freed whatever the memory has: the pages where its header is written do not
depend on what the memory has. -/
theorem reescrito_of_liberado (hseg : s.segmentos[g]? = some seg)
    (hheap : seg.metadatas[k]? = some heap) (hvivo : heap.isFree = false)
    (h : Liberado cfg s sd dir g k seg heap) :
    Senalado s sd dir g k seg heap ∧ ∃ p pag pos segunda, elemento seg.tablaPaginas
        (unsigned (dir - seg.baseLogica) / cfg.tamanioPag) = some p ∧ s.paginas[p]? = some pag ∧
      Quieta pag ∧ PaginaEn cfg s seg (obtenerIndicePagina s seg.tablaPaginas pag - 1) pos ∧
      (heap.estaPartido = true →
        PaginaEn cfg s seg (obtenerIndicePagina s seg.tablaPaginas pag - 1 + 1) segunda) ∧
      ∀ m, Reescrito cfg s seg heap m (reescritura cfg heap m pos segunda) := by
  obtain ⟨m', marcas, hrun, _⟩ := h s.memoria
  have htriple : Triple (fun _ _ => True) (· = s) (musefree cfg sd dir) _ :=
    triple_musefree s sd dir
  rcases htriple s 0 _ marcas rfl hrun (fun _ _ => trivial) rfl with ⟨hcero, _⟩ | hlibera
  · cases hcero
  obtain ⟨g', seg', k', heap', hhalla, hcomun, hk, hbloque, hresultado, p, pag, hp, hpag, hquieta,
    pos, segunda, hpos, hsegunda, hfinal⟩ := hlibera
  have hsegmentos : (s.liberado g k).segmentos = (s.liberado g' k').segmentos := by
    have hcampo := congrArg Estado.segmentos hfinal
    exact hcampo
  obtain ⟨rfl, rfl⟩ := liberado_inj hseg hheap hvivo hsegmentos
  obtain ⟨l, hget, hg, hseg'⟩ := hhalla
  cases hseg.symm.trans hseg'
  cases hheap.symm.trans hbloque
  have hsize : heap.size ≠ -1 := by
    intro hmenos
    rw [if_pos hmenos] at hresultado
    cases hresultado
  refine ⟨⟨⟨l, hget, hg, hseg⟩, hcomun, hk, hsize⟩, p, pag, pos, segunda, hp, hpag, hquieta, hpos,
    hsegunda, fun m => ?_⟩
  obtain ⟨m', marcas', hrun', hreescrito⟩ := h m
  have hhalla : Halla { s with memoria := m } sd dir g' seg := ⟨l, hget, hg, hseg⟩
  have heq := runs_estado_eq hrun' (runs_musefree hhalla hcomun hk hheap hp hpag hquieta hpos
    hsegunda)
  have hmemoria := congrArg Estado.memoria heq
  dsimp only at hmemoria
  rwa [hmemoria] at hreescrito

theorem direccion_of_senalado (h : Senalado s sd dir g k seg heap)
    (hheap : seg.metadatas[k]? = some heap) (hdh : 0 ≤ heap.direccionHeap) :
    unsigned (dir - seg.baseLogica) = heap.direccionHeap + 5 := by
  obtain ⟨hlt, hhalla, _⟩ := List.findIdx?_eq_some_iff_getElem.1 h.primero
  rw [(List.getElem?_eq_some_iff.1 hheap).2] at hhalla
  exact unsigned_of_signed (of_decide_eq_true hhalla) (by omega)

theorem posible_of_liberado (hseg : s.segmentos[g]? = some seg)
    (hheap : seg.metadatas[k]? = some heap) (hvivo : heap.isFree = false)
    (hconforme : Conforme cfg heap) (hdistintas : Distintas s seg) (hranuras : ConRanuras s seg)
    (h : Liberado cfg s sd dir g k seg heap) : LiberacionPosible cfg s sd dir g k seg heap := by
  obtain ⟨hsenalado, p, pag, pos, segunda, hp, hpag, hquieta, hpos, hsegunda, hreescrito⟩ :=
    reescrito_of_liberado hseg hheap hvivo h
  have hcero : (0 : ℤ) < cfg.tamanioPag := by exact_mod_cast cfg.positivo
  obtain ⟨a, ha, _⟩ := (hreescrito s.memoria).encabezado 0 (by omega)
  rw [Nat.cast_zero, add_zero] at ha
  have hdh := ha.nonneg
  obtain ⟨p₀, pag₀, hp₀, hpag₀, hpres₀, _⟩ := ha
  have hdir := direccion_of_senalado hsenalado hheap hdh
  rw [hdir] at hp
  have hpres := hranuras.presente hp hpag hquieta
  rw [obtenerIndicePagina_of_elemento hdistintas hp hpag hpres] at hpos hsegunda
  obtain ⟨q, qag, hq, hqag, hqquieta, hqpos⟩ := hpos
  have hqpres := hranuras.presente hq hqag hqquieta
  have hoff := Int.emod_nonneg heap.direccionHeap hcero.ne'
  have hlt := Int.emod_lt_of_pos heap.direccionHeap hcero
  have htmod : heap.direccionHeap.tmod cfg.tamanioPag = heap.direccionHeap % cfg.tamanioPag :=
    Int.tmod_eq_emod_of_nonneg hdh
  refine ⟨hsenalado, ⟨p₀, pag₀, hp₀, hpag₀, hpres₀⟩, ⟨p, pag, hp, hpag, hpres⟩, ?_⟩
  by_cases hparte : heap.estaPartido = true
  · have hpartida := hconforme.partido.1 hparte
    have hbytes := hconforme.bytes hparte
    rw [seParte, tamanioMetadata, htmod] at hpartida
    rw [htmod] at hbytes
    obtain ⟨r, rag, hr, hrag, _, hsegundapos⟩ := hsegunda hparte
    rw [sub_add_cancel] at hr
    cases hp.symm.trans hr
    cases hpag.symm.trans hrag
    have hdos := resto_eq_of_reescrito (f := fun m => store m (pos + heap.direccionHeap.tmod
      cfg.tamanioPag) ((bytesMetadata heap.size true).take heap.bytesPrimeraPagina.toNat))
        hdistintas hp hpag hpres rfl (by omega) fun m => by
          have hm := hreescrito m
          simp only [reescritura, hparte, if_true, hsegundapos] at hm
          rwa [hbytes] at hm ⊢
    exact Or.inr ⟨by omega, hdos⟩
  · have hentera := mt hconforme.partido.2 hparte
    rw [seParte, tamanioMetadata, htmod] at hentera
    have hcabe : heap.direccionHeap % cfg.tamanioPag + 5 ≤ cfg.tamanioPag := by omega
    have hpagina := pagina_eq_of_reescrito hdistintas hq hqag hqpres hcabe fun m => by
      have hm := hreescrito m
      simp only [reescritura, hparte, hqpos, htmod] at hm
      exact hm
    refine Or.inl (by_contra fun hne => ?_)
    have hsuma : heap.direccionHeap + 5 = heap.direccionHeap % cfg.tamanioPag + 5 +
        heap.direccionHeap / cfg.tamanioPag * cfg.tamanioPag := by
      have hdiv := Int.mul_ediv_add_emod heap.direccionHeap cfg.tamanioPag
      rw [mul_comm] at hdiv
      omega
    have hmisma : (heap.direccionHeap + 5) / cfg.tamanioPag =
        heap.direccionHeap / cfg.tamanioPag := by
      rw [hsuma, Int.add_mul_ediv_right _ _ hcero.ne',
        Int.ediv_eq_zero_of_lt (by omega) (by omega), zero_add]
    omega

/-- The bytes of the header that are in its first page. -/
theorem lugar_encabezado {p : ℕ} {pag : Pagina} {n : ℕ}
    (hp : elemento seg.tablaPaginas (heap.direccionHeap / cfg.tamanioPag) = some p)
    (hpag : s.paginas[p]? = some pag) (hpres : pag.presencia = true)
    (hn : heap.direccionHeap % cfg.tamanioPag + n < cfg.tamanioPag) :
    Lugar cfg s seg (heap.direccionHeap + n) (pag.numeroFrame * cfg.tamanioPag +
      heap.direccionHeap % cfg.tamanioPag + n) := by
  have hcero : (cfg.tamanioPag : ℤ) ≠ 0 := by exact_mod_cast cfg.positivo.ne'
  have hoff := Int.emod_nonneg heap.direccionHeap hcero
  have hlugar := lugar_of_presente cfg (r := heap.direccionHeap % cfg.tamanioPag + n) hp hpag hpres
    (by omega) hn
  rw [← add_assoc, ← add_assoc, mul_comm (heap.direccionHeap / (cfg.tamanioPag : ℤ)),
    Int.mul_ediv_add_emod] at hlugar
  exact hlugar

theorem reescrito_entero {p : ℕ} {pag : Pagina}
    (hp : elemento seg.tablaPaginas (heap.direccionHeap / cfg.tamanioPag) = some p)
    (hpag : s.paginas[p]? = some pag) (hpres : pag.presencia = true)
    (hentera : heap.direccionHeap % cfg.tamanioPag + 5 ≤ cfg.tamanioPag) (m : Mem) :
    Reescrito cfg s seg heap m (store m (pag.numeroFrame * cfg.tamanioPag +
      heap.direccionHeap % cfg.tamanioPag) (bytesMetadata heap.size true)) where
  encabezado n hn := by
    have hlen : n < (bytesMetadata heap.size true).length := by rwa [length_bytesMetadata]
    refine ⟨_, lugar_encabezado hp hpag hpres (by omega), ?_⟩
    rw [store_getElem hlen, List.getElem?_eq_getElem hlen]
  resto a hno := by
    by_contra hne
    obtain ⟨n, hn, rfl⟩ := exists_of_store_ne hne
    rw [length_bytesMetadata] at hn
    exact hno n hn (lugar_encabezado hp hpag hpres (by omega))

/-- The bytes of a header split between two pages that are in the second one. -/
theorem lugar_segunda {p : ℕ} {pag : Pagina} {j : ℕ}
    (hp : elemento seg.tablaPaginas (heap.direccionHeap / cfg.tamanioPag + 1) = some p)
    (hpag : s.paginas[p]? = some pag) (hpres : pag.presencia = true)
    (hj : (j : ℤ) < cfg.tamanioPag) :
    Lugar cfg s seg (heap.direccionHeap +
        (((cfg.tamanioPag - heap.direccionHeap % cfg.tamanioPag).toNat + j : ℕ) : ℤ))
      (pag.numeroFrame * cfg.tamanioPag + j) := by
  have hcero : (0 : ℤ) < cfg.tamanioPag := by exact_mod_cast cfg.positivo
  have hlt := Int.emod_lt_of_pos heap.direccionHeap hcero
  have hlugar := lugar_of_presente cfg (r := j) hp hpag hpres (by omega) hj
  have hdiv := Int.mul_ediv_add_emod heap.direccionHeap cfg.tamanioPag
  rw [add_mul, one_mul, mul_comm] at hlugar
  rw [Nat.cast_add, Int.toNat_of_nonneg (by omega), show heap.direccionHeap +
    (cfg.tamanioPag - heap.direccionHeap % cfg.tamanioPag + j) =
      cfg.tamanioPag * (heap.direccionHeap / cfg.tamanioPag) + cfg.tamanioPag + j by omega]
  exact hlugar

theorem reescrito_partido {p q : ℕ} {pag qag : Pagina} (hdistintas : Distintas s seg)
    (hp : elemento seg.tablaPaginas (heap.direccionHeap / cfg.tamanioPag) = some p)
    (hpag : s.paginas[p]? = some pag) (hpres : pag.presencia = true)
    (hq : elemento seg.tablaPaginas (heap.direccionHeap / cfg.tamanioPag + 1) = some q)
    (hqag : s.paginas[q]? = some qag) (hqpres : qag.presencia = true)
    (hpartida : cfg.tamanioPag < heap.direccionHeap % cfg.tamanioPag + 5)
    (hdos : heap.direccionHeap % cfg.tamanioPag + 5 < 2 * cfg.tamanioPag)
    (hresto : restoMetadata cfg (cfg.tamanioPag - heap.direccionHeap % cfg.tamanioPag) =
      (bytesMetadata heap.size true).drop
        (cfg.tamanioPag - heap.direccionHeap % cfg.tamanioPag).toNat) (m : Mem) :
    Reescrito cfg s seg heap m (store (store m (pag.numeroFrame * cfg.tamanioPag +
      heap.direccionHeap % cfg.tamanioPag) ((bytesMetadata heap.size true).take
        (cfg.tamanioPag - heap.direccionHeap % cfg.tamanioPag).toNat))
      (qag.numeroFrame * cfg.tamanioPag) (restoMetadata cfg
        (cfg.tamanioPag - heap.direccionHeap % cfg.tamanioPag))) := by
  have hcero : (0 : ℤ) < cfg.tamanioPag := by exact_mod_cast cfg.positivo
  have hoff := Int.emod_nonneg heap.direccionHeap hcero.ne'
  have hlt := Int.emod_lt_of_pos heap.direccionHeap hcero
  rw [hresto]
  obtain ⟨b, hb⟩ : ∃ b : ℕ, (cfg.tamanioPag : ℤ) - heap.direccionHeap % cfg.tamanioPag = b :=
    ⟨_, (Int.toNat_of_nonneg (by omega)).symm⟩
  have hbytes := length_bytesMetadata heap.size true
  have hsegunda : ∀ j : ℕ, (j : ℤ) < cfg.tamanioPag → Lugar cfg s seg
      (heap.direccionHeap + ((b + j : ℕ) : ℤ)) (qag.numeroFrame * cfg.tamanioPag + j) := by
    intro j hj
    have hlugar := lugar_segunda hq hqag hqpres hj
    rwa [hb, Int.toNat_natCast] at hlugar
  rw [hb, Int.toNat_natCast]
  have hdrop : ((bytesMetadata heap.size true).drop b).length = 5 - b := by
    rw [List.length_drop, hbytes]
  have htake : ((bytesMetadata heap.size true).take b).length = b := by
    rw [List.length_take, hbytes]
    omega
  constructor
  · intro n hn
    rcases lt_or_ge n b with hnb | hnb
    · have hlugar := lugar_encabezado hp hpag hpres (n := n) (by omega)
      refine ⟨_, hlugar, ?_⟩
      by_cases hfuera : store (store m (pag.numeroFrame * cfg.tamanioPag + heap.direccionHeap %
          cfg.tamanioPag) ((bytesMetadata heap.size true).take b)) (qag.numeroFrame *
            cfg.tamanioPag) ((bytesMetadata heap.size true).drop b)
          (pag.numeroFrame * cfg.tamanioPag + heap.direccionHeap % cfg.tamanioPag + n) =
        store m (pag.numeroFrame * cfg.tamanioPag + heap.direccionHeap % cfg.tamanioPag)
          ((bytesMetadata heap.size true).take b)
            (pag.numeroFrame * cfg.tamanioPag + heap.direccionHeap % cfg.tamanioPag + n)
      · rw [hfuera, store_getElem (by rwa [htake]), List.getElem_take,
          List.getElem?_eq_getElem (by omega)]
      · -- The second page has only later bytes of the header.
        obtain ⟨j, hj, hja⟩ := exists_of_store_ne hfuera
        rw [hja] at hlugar
        have heq := hlugar.inj hdistintas (hsegunda j (by omega))
        omega
    · obtain ⟨j, rfl⟩ := Nat.exists_eq_add_of_le hnb
      refine ⟨_, hsegunda j (by omega), ?_⟩
      rw [store_getElem (by omega), List.getElem_drop, List.getElem?_eq_getElem (by omega)]
  · intro a hno
    by_contra hne
    by_cases hfuera : store (store m (pag.numeroFrame * cfg.tamanioPag + heap.direccionHeap %
        cfg.tamanioPag) ((bytesMetadata heap.size true).take b)) (qag.numeroFrame *
          cfg.tamanioPag) ((bytesMetadata heap.size true).drop b) a =
      store m (pag.numeroFrame * cfg.tamanioPag + heap.direccionHeap % cfg.tamanioPag)
        ((bytesMetadata heap.size true).take b) a
    · rw [hfuera] at hne
      obtain ⟨n, hn, rfl⟩ := exists_of_store_ne hne
      exact hno n (by omega) (lugar_encabezado hp hpag hpres (by omega))
    · obtain ⟨j, hj, rfl⟩ := exists_of_store_ne hfuera
      exact hno (b + j) (by omega) (hsegunda j (by omega))

theorem liberado_of_posible (hheap : seg.metadatas[k]? = some heap) (hconforme : Conforme cfg heap)
    (hdistintas : Distintas s seg) (h : LiberacionPosible cfg s sd dir g k seg heap) :
    Liberado cfg s sd dir g k seg heap := by
  have hcero : (0 : ℤ) < cfg.tamanioPag := by exact_mod_cast cfg.positivo
  obtain ⟨p, pag, hp, hpag, hpres⟩ := h.encabezado
  obtain ⟨q, qag, hq, hqag, hqpres⟩ := h.datos
  have hdh : 0 ≤ heap.direccionHeap := by
    have hdiv := (getElem?_of_elemento hp).1
    rwa [Int.le_ediv_iff_mul_le hcero, zero_mul] at hdiv
  have hoff := Int.emod_nonneg heap.direccionHeap hcero.ne'
  have hlt := Int.emod_lt_of_pos heap.direccionHeap hcero
  have htmod : heap.direccionHeap.tmod cfg.tamanioPag = heap.direccionHeap % cfg.tamanioPag :=
    Int.tmod_eq_emod_of_nonneg hdh
  have hsiguiente : (heap.direccionHeap + 5) / (cfg.tamanioPag : ℤ) =
      heap.direccionHeap / cfg.tamanioPag + 1 := by
    have hdiv := Int.mul_ediv_add_emod heap.direccionHeap cfg.tamanioPag
    have hsuma : heap.direccionHeap + 5 = heap.direccionHeap % cfg.tamanioPag + 5 - cfg.tamanioPag +
        (heap.direccionHeap / cfg.tamanioPag + 1) * cfg.tamanioPag := by
      rw [add_mul, one_mul, mul_comm]
      omega
    have hlugar := h.lugar
    rw [hsuma, Int.add_mul_ediv_right _ _ hcero.ne', Int.ediv_eq_zero_of_lt (by omega) (by omega),
      zero_add]
  have hindice := obtenerIndicePagina_of_elemento hdistintas hq hqag hqpres
  rw [hsiguiente] at hq hindice
  have hpos : PaginaEn cfg s seg (obtenerIndicePagina s seg.tablaPaginas qag - 1)
      (pag.numeroFrame * cfg.tamanioPag) := by
    rw [hindice, add_sub_cancel_right]
    exact ⟨p, pag, hp, hpag, fun hno => absurd (hpres.symm.trans hno) (by simp), rfl⟩
  have hsegunda : heap.estaPartido = true → PaginaEn cfg s seg
      (obtenerIndicePagina s seg.tablaPaginas qag - 1 + 1) (qag.numeroFrame * cfg.tamanioPag) := by
    rw [hindice, add_sub_cancel_right]
    exact fun _ => ⟨q, qag, hq, hqag, fun hno => absurd (hqpres.symm.trans hno) (by simp), rfl⟩
  have hdir := direccion_of_senalado h.toSenalado hheap hdh
  intro m
  have hhalla : Halla { s with memoria := m } sd dir g seg := h.halla
  have hrun := runs_musefree hhalla h.comun h.primero hheap (by rw [hdir, hsiguiente]; exact hq)
    hqag (fun hno => absurd (hqpres.symm.trans hno) (by simp)) hpos hsegunda
  rw [if_neg h.tamanio] at hrun
  refine ⟨_, _, hrun, ?_⟩
  by_cases hparte : heap.estaPartido = true
  · have hpartida := hconforme.partido.1 hparte
    have hbytes := hconforme.bytes hparte
    rw [seParte, tamanioMetadata, htmod] at hpartida
    rcases h.lugar with hjusto | ⟨hmas, hdos, hresto⟩
    · omega
    · simp only [reescritura, hparte, if_true, hbytes, htmod]
      exact reescrito_partido hdistintas hp hpag hpres hq hqag hqpres hmas hdos hresto m
  · have hentera := mt hconforme.partido.2 hparte
    rw [seParte, tamanioMetadata, htmod] at hentera
    simp only [reescritura, hparte, htmod]
    exact reescrito_entero hp hpag hpres (by omega) m

/-! ## Other addresses -/

/-- A header that is written leaves one byte at least that the memory does not choose. -/
theorem byte_de_reescritura (cfg : Configuracion) (heap : HeapLista) : ∃ v, ∀ (pos segunda : ℤ) w,
    (reescritura cfg heap (fun _ => w) pos segunda = fun _ => w) → v = w := by
  have hbytes := length_bytesMetadata heap.size true
  by_cases hresto : heap.estaPartido = true ∧ 0 < (restoMetadata cfg heap.bytesPrimeraPagina).length
  · refine ⟨(restoMetadata cfg heap.bytesPrimeraPagina)[0], fun pos segunda w h => ?_⟩
    have hbyte := congrFun h (segunda + (0 : ℕ))
    simp only [reescritura, hresto.1, if_true] at hbyte
    rwa [store_getElem hresto.2] at hbyte
  · refine ⟨(bytesMetadata heap.size true)[0], fun pos segunda w h => ?_⟩
    have hbyte := congrFun h (pos + heap.direccionHeap.tmod cfg.tamanioPag + (0 : ℕ))
    rw [reescritura] at hbyte
    split_ifs at hbyte with hparte
    · -- Nothing is copied to the second page, so that all the header is in the first one.
      have hnada := not_lt.1 fun hlt => hresto ⟨hparte, hlt⟩
      have hentero : 5 ≤ heap.bytesPrimeraPagina := by
        rw [restoMetadata, List.length_map, List.length_range, tamanioMetadata] at hnada
        omega
      have hlen :
          0 < ((bytesMetadata heap.size true).take heap.bytesPrimeraPagina.toNat).length := by
        rw [List.length_take, hbytes]
        omega
      rw [store_of_disjoint (by omega), store_getElem hlen, List.getElem_take] at hbyte
      exact hbyte
    · rwa [store_getElem (by omega)] at hbyte

/-- A request that fails without changes, whatever the memory has, is about no block. -/
theorem nada_of_rechazada (h : Rechazada cfg s sd dir) : NadaQueLiberar s sd dir := by
  by_contra hno
  have hlibera : ∀ m, ∃ g seg k heap, Halla s sd dir g seg ∧ seg.metadatas.findIdx? (fun heap =>
      decide (heap.direccionHeap + tamanioMetadata = signed (dir - seg.baseLogica))) = some k ∧
    seg.metadatas[k]? = some heap ∧ ∃ pos segunda, reescritura cfg heap m pos segunda = m := by
    intro m
    obtain ⟨marcas, hrun⟩ := h m
    have htriple : Triple (fun _ _ => True) (· = { s with memoria := m }) (musefree cfg sd dir) _ :=
      triple_musefree _ sd dir
    rcases htriple _ (-1) _ marcas rfl hrun (fun _ _ => trivial) rfl with ⟨_, hnada⟩ | hlibera
    · exact absurd hnada hno
    · obtain ⟨g, seg, k, heap, hhalla, _, hk, hheap, _, p, pag, _, _, _, pos, segunda, _, _, hu⟩ :=
        hlibera
      have hmemoria := congrArg Estado.memoria hu
      exact ⟨g, seg, k, heap, hhalla, hk, hheap, pos, segunda, hmemoria.symm⟩
  obtain ⟨g, seg, k, heap, ⟨l, hget, hg, hseg⟩, hk, hheap, pos, segunda, hcero⟩ :=
    hlibera fun _ => 0
  obtain ⟨g', seg', k', heap', ⟨l', hget', hg', hseg'⟩, hk', hheap', pos', segunda', huno⟩ :=
    hlibera fun _ => 1
  cases hget.symm.trans hget'
  cases hg.symm.trans hg'
  cases hseg.symm.trans hseg'
  cases hk.symm.trans hk'
  cases hheap.symm.trans hheap'
  obtain ⟨v, hv⟩ := byte_de_reescritura cfg heap
  exact absurd ((hv pos segunda 0 hcero).symm.trans (hv pos' segunda' 1 huno)) (by decide)

theorem rechazada_of_nada (h : NadaQueLiberar s sd dir) : Rechazada cfg s sd dir := by
  intro m
  refine ⟨[], (runs_gets id _).bind ?_⟩
  rw [id_eq]
  cases hget : s.tablasSegmentos.get sd with
  | none => exact runs_pure _ _
  | some l =>
      rw [Option.elim_some]
      cases hhalla : segmentoQueContieneDireccion s l dir with
      | none =>
          rw [show segmentoQueContieneDireccion { s with memoria := m } l dir = none from hhalla]
          exact runs_pure _ _
      | some g =>
          rw [show segmentoQueContieneDireccion { s with memoria := m } l dir = some g from hhalla,
            Option.elim_some]
          have hany := List.find?_some hhalla
          cases hseg : s.segmentos[g]? with
          | none =>
              rw [hseg] at hany
              cases hany
          | some seg =>
              have hseg' : ({ s with memoria := m } : Estado).segmentos[g]? = some seg := hseg
              refine (runs_segmento hseg').bind ?_
              rw [if_pos (h g seg ⟨l, hget, hhalla, hseg⟩)]
              exact runs_pure _ _

/-- A block in use of a segment whose pages in memory are in different frames is freed if and only
if its header ends where its page does, or is split between two pages and its last bytes are those
found after the structure; a request fails and changes nothing if and only if the address is in no
segment for blocks. -/
theorem liberado_iff (hseg : s.segmentos[g]? = some seg) (hheap : seg.metadatas[k]? = some heap)
    (hvivo : heap.isFree = false) (hconforme : Conforme cfg heap) (hdistintas : Distintas s seg)
    (hranuras : ConRanuras s seg) (sd : ℕ) (dir : ℤ) :
    (Liberado cfg s sd dir g k seg heap ↔ LiberacionPosible cfg s sd dir g k seg heap) ∧
      (Rechazada cfg s sd dir ↔ NadaQueLiberar s sd dir) := by
  constructor
  · constructor
    · exact posible_of_liberado hseg hheap hvivo hconforme hdistintas hranuras
    · exact liberado_of_posible hheap hconforme hdistintas
  · exact ⟨nada_of_rechazada, rechazada_of_nada⟩

/-- The header of the only block of a process. -/
theorem conforme_unBloque : Conforme (unFrame 2) ⟨0, false, 20, false, 5⟩ :=
  ⟨by decide, fun h => by cases h⟩

theorem distintas_unaPagina {q : ℕ} (htabla : seg.tablaPaginas = [q]) : Distintas s seg := by
  intro i j p p' pag qag hij hi hj
  rw [htabla, List.getElem?_singleton] at hi hj
  split_ifs at hi hj
  omega

theorem distintas_of_nodup
    (h : (seg.tablaPaginas.map fun p => (s.paginas[p]?).map Pagina.numeroFrame).Nodup) :
    Distintas s seg := by
  intro i j p q pag qag hij hi hj hpag hqag _ _ heq
  refine hij ((List.getElem?_inj ?_ h).1 ?_)
  · rw [List.length_map]
    exact (List.getElem?_eq_some_iff.1 hi).1
  · rw [List.getElem?_map, List.getElem?_map, hi, hj, Option.map_some, Option.map_some, hpag, hqag,
      Option.map_some, Option.map_some, heq]

/-- Twelve frames of five bytes: a page is as long as a header. -/
def paginasDeCinco : Configuracion where
  __ := unFrame 2
  tamanioMemoria := 60
  tamanioPag := 5
  positivo := by decide

/-- A process with two blocks, whose headers take a page each. -/
@[irreducible] def conDosBloques : Estado :=
  Transition.final (siguienteEstado paginasDeCinco) (inicial paginasDeCinco)
    [.conecta 4, .pide 4 .init, .pide 4 (.alloc 20), .pide 4 (.alloc 12)]

def segmentoDeDosBloques : Segmento where
  esComun := true
  filePath := none
  id := 0
  baseLogica := 1048576
  tamanio := 55
  tablaPaginas := [0, 1, 2, 3, 4, 5, 6, 7, 8]
  paginasLiberadas := 0
  metadatas := [⟨0, false, 20, false, 5⟩, ⟨25, false, 12, false, 5⟩, ⟨37, true, 3, true, 3⟩]

theorem segmento_conDosBloques : conDosBloques.segmentos[0]? = some segmentoDeDosBloques := by
  decide +kernel

theorem posible_conDosBloques : LiberacionPosible paginasDeCinco conDosBloques 4 1048606 0 1
    segmentoDeDosBloques ⟨25, false, 12, false, 5⟩ where
  halla := ⟨[0], by decide +kernel, by decide +kernel, segmento_conDosBloques⟩
  comun := rfl
  primero := by decide
  tamanio := by decide
  encabezado := ⟨5, ⟨true, 5, -1⟩, rfl, by decide +kernel, rfl⟩
  datos := ⟨6, ⟨true, 6, -1⟩, rfl, by decide +kernel, rfl⟩
  lugar := .inl rfl

/-- The second block is freed, and an address that is in no segment is refused; the block whose
header is at the start of a page of 32 bytes is not freed. -/
theorem liberado_iff_conDosBloques :
    Liberado paginasDeCinco conDosBloques 4 1048606 0 1 segmentoDeDosBloques
        ⟨25, false, 12, false, 5⟩ ∧
      Rechazada paginasDeCinco conDosBloques 4 12 ∧
      ¬ Liberado (unFrame 2) conUnBloque 4 1048581 0 0 segmentoDeUnBloque
        ⟨0, false, 20, false, 5⟩ := by
  have hpresentes : ∀ p ∈ segmentoDeDosBloques.tablaPaginas, ∀ pag ∈ conDosBloques.paginas[p]?,
      pag.presencia = true := by decide +kernel
  have hranuras : ConRanuras conDosBloques segmentoDeDosBloques := by
    intro p hp pag hpag hno
    rw [hpresentes p hp pag hpag] at hno
    cases hno
  have hdistintas : Distintas conDosBloques segmentoDeDosBloques :=
    distintas_of_nodup (by decide +kernel)
  have hconforme : Conforme paginasDeCinco ⟨25, false, 12, false, 5⟩ :=
    ⟨by decide, fun h => by cases h⟩
  have hheap : segmentoDeDosBloques.metadatas[1]? = some ⟨25, false, 12, false, 5⟩ := rfl
  refine ⟨(liberado_iff segmento_conDosBloques hheap rfl hconforme hdistintas hranuras 4
      1048606).1.2 posible_conDosBloques,
    (liberado_iff segmento_conDosBloques hheap rfl hconforme hdistintas hranuras 4 12).2.2 ?_, ?_⟩
  · rintro g seg ⟨segmentos, hget, hhalla, -⟩
    have hget' : conDosBloques.tablasSegmentos.get 4 = some [0] := by decide +kernel
    have hnada : segmentoQueContieneDireccion conDosBloques [0] 12 = none := by decide +kernel
    rw [hget', Option.some_inj] at hget
    rw [← hget, hnada] at hhalla
    cases hhalla
  · have hpag := conUnBloque_tabla.2.2.1
    refine (liberado_iff (by decide +kernel) rfl rfl conforme_unBloque (distintas_unaPagina rfl)
      (fun p hp pag hpag' hno => ?_) 4 1048581).1.not.2 ?_
    · cases List.mem_singleton.1 hp
      cases hpag.symm.trans hpag'
      cases hno
    · intro hposible
      exact absurd hposible.lugar (by decide)

/-- The block of a process that connects and asks for 20 bytes has its header at the start of the
page, and no page comes before. -/
theorem not_liberado : ¬ ∀ cfg tr s sd (tam : UInt32) dir s' marcas, Alcanza cfg tr s →
    Runs (musemalloc cfg tam.toNat sd) s (some dir) s' marcas → ∃ g k seg heap,
      s'.segmentos[g]? = some seg ∧ seg.metadatas[k]? = some heap ∧ heap.isFree = false ∧
        Liberado cfg s' sd dir g k seg heap := by
  intro h
  have hprevio : Alcanza (unFrame 2) _ _ :=
    alcanza_of_acceptsAll (unFrame 2) [.conecta 4, .pide 4 .init] (by decide +kernel)
  set previo := Transition.final (siguienteEstado (unFrame 2)) (inicial (unFrame 2))
    [.conecta 4, .pide 4 .init]
  have hresultado : (musemalloc (unFrame 2) 20 4 previo).map (fun r => (r.1, r.2.1.segmentos)) =
      some (some 1048581, [segmentoDeUnBloque]) := by decide +kernel
  obtain ⟨⟨r, s', marcas⟩, hrun, heq⟩ := Option.map_eq_some_iff.1 hresultado
  rw [Prod.mk.injEq] at heq
  obtain ⟨hr, hsegmentos⟩ := heq
  dsimp only at hr hsegmentos
  subst hr
  obtain ⟨g, k, seg, heap, hseg, hheap, hvivo, hliberado⟩ :=
    h (unFrame 2) _ previo 4 20 1048581 s' marcas hprevio hrun
  obtain ⟨_, p, pag, pos, segunda, _, _, _, ⟨q, qag, hq, _⟩, _⟩ :=
    reescrito_of_liberado hseg hheap hvivo hliberado
  rw [hsegmentos, List.getElem?_singleton] at hseg
  split_ifs at hseg
  cases hseg
  have hprimera : obtenerIndicePagina s' segmentoDeUnBloque.tablaPaginas pag ≤ 0 := by
    rw [obtenerIndicePagina, segmentoDeUnBloque, List.findIdx?_cons]
    split_ifs <;> simp [indice]
  have hnegativo := (getElem?_of_elemento hq).1
  omega

end Muse
