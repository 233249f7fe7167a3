import Linuse.Memory.Copy
import Linuse.Muse.Embaldosado
import Linuse.Muse.Obtencion

/-!
# Copying to a block

`musecpy` should copy a range that lies in the data of a block that is not free, and refuse any
other. It looks for a block of exactly that size by comparing the addresses of frames, and starts
at the page where the block that it finds does: the copy is right if and only if the block that is
found, if any, has the range in its data, from its start or in a page where that makes no
difference (`cpyCorrecto_iff`).
-/

namespace Muse

open Memory Marked

variable {cfg : Configuracion} {ok : Estado → Suceso → Prop} {s t u : Estado} {seg : Segmento}
  {heap : HeapLista} {sd : ℕ} {dst n off : ℤ} {m : Mem}

/-! ## What a copy should do -/

/-- The segment as its headers and its table of pages describe it: the blocks follow each other,
and every page is in a frame of its own. -/
structure Ordenado (cfg : Configuracion) (s : Estado) (seg : Segmento) : Prop where
  comun : seg.esComun = true
  embaldosado : Embaldosado cfg seg
  conforme : ∀ heap ∈ seg.metadatas, Conforme cfg heap
  presentes : ∀ i < seg.tablaPaginas.length, EnMemoria s seg i
  distintas : Distintas s seg

/-- The range is in the data of a block that is not free. -/
def DeBloque (seg : Segmento) (off n : ℤ) : Prop :=
  ∃ heap ∈ seg.metadatas, heap.isFree = false ∧
    heap.direccionHeap + tamanioMetadata ≤ off ∧ off + n ≤ heap.fin

/-- The bytes are in the pages of the range of the segment, and no other byte changes. -/
def Copiado (cfg : Configuracion) (s : Estado) (seg : Segmento) (off : ℤ) (src : List UInt8)
    (m m' : Mem) : Prop :=
  Copied (Lugar cfg s seg) off src m m'

/-! ## The frames of the pages -/

/-- The frame number of a page of the segment. -/
def marcoEn (s : Estado) (seg : Segmento) (i : ℤ) : ℤ :=
  ((elemento seg.tablaPaginas i).bind fun p => s.paginas[p]?).elim 0 Pagina.numeroFrame

theorem marcoEn_eq {p : ℕ} {pag : Pagina} {i : ℤ} (hp : elemento seg.tablaPaginas i = some p)
    (hpag : s.paginas[p]? = some pag) : marcoEn s seg i = pag.numeroFrame := by
  rw [marcoEn, hp, Option.bind_some, hpag]
  rfl

theorem Ordenado.pagina (h : Ordenado cfg s seg) {i : ℤ} (hi : 0 ≤ i)
    (hlt : i < seg.tablaPaginas.length) : ∃ p pag, elemento seg.tablaPaginas i = some p ∧
      s.paginas[p]? = some pag ∧ pag.presencia = true ∧ (s.frame pag.numeroFrame).isSome ∧
        marcoEn s seg i = pag.numeroFrame := by
  obtain ⟨k, rfl⟩ := Int.eq_ofNat_of_zero_le hi
  obtain ⟨p, pag, hp, hpag, hpres, hframe⟩ := h.presentes k (by omega)
  have hp' : elemento seg.tablaPaginas k = some p := (elemento_natCast _ _).trans hp
  exact ⟨p, pag, hp', hpag, hpres, hframe, marcoEn_eq hp' hpag⟩

/-- The bytes of a page are in its frame. -/
theorem Ordenado.lugar (h : Ordenado cfg s seg) {i r : ℤ} (hi : 0 ≤ i)
    (hlt : i < seg.tablaPaginas.length) (hr : 0 ≤ r) (hr' : r < cfg.tamanioPag) :
    Lugar cfg s seg (i * cfg.tamanioPag + r) (marcoEn s seg i * cfg.tamanioPag + r) := by
  obtain ⟨p, pag, hp, hpag, hpres, _, hmarco⟩ := h.pagina hi hlt
  rw [hmarco]
  exact lugar_of_presente cfg hp hpag hpres hr hr'

theorem lugar_unico (cfg : Configuracion) (s : Estado) (seg : Segmento) (x a b : ℤ)
    (h : Lugar cfg s seg x a) (h' : Lugar cfg s seg x b) : a = b := h.eq h'

theorem Ordenado.lugar_inj (h : Ordenado cfg s seg) (x y a : ℤ) (hx : Lugar cfg s seg x a)
    (hy : Lugar cfg s seg y a) : x = y := hx.inj h.distintas hy

/-! ## The block that is found -/

/-- The number of the page where the data of the block is taken to start. -/
def paginaDatos (cfg : Configuracion) (heap : HeapLista) : ℤ :=
  heap.direccionHeap / cfg.tamanioPag + if heap.estaPartido then 1 else 0

/-- The address where the data of the block is taken to start. -/
def direccionInicial (cfg : Configuracion) (s : Estado) (seg : Segmento) (heap : HeapLista) : ℤ :=
  cfg.memoriaPrincipal + marcoEn s seg (paginaDatos cfg heap) * cfg.tamanioPag +
    if heap.estaPartido then tamanioMetadata - heap.bytesPrimeraPagina
    else (heap.direccionHeap + tamanioMetadata).tmod cfg.tamanioPag

/-- The number of the page after `n` bytes of the block. -/
def paginaFinal (cfg : Configuracion) (heap : HeapLista) (n : ℤ) : ℤ :=
  (heap.direccionHeap + tamanioMetadata + n) / cfg.tamanioPag

/-- The address after `n` bytes of the block. -/
def direccionFinal (cfg : Configuracion) (s : Estado) (seg : Segmento) (heap : HeapLista) (n : ℤ) :
    ℤ :=
  cfg.memoriaPrincipal + marcoEn s seg (paginaFinal cfg heap n) * cfg.tamanioPag +
    (heap.direccionHeap + tamanioMetadata + n).tmod cfg.tamanioPag

/-- The segment has a page after `n` bytes of the block. -/
def Visible (cfg : Configuracion) (seg : Segmento) (heap : HeapLista) (n : ℤ) : Prop :=
  heap.direccionHeap + tamanioMetadata + n < cfg.tamanioPag * seg.tablaPaginas.length

/-- The block has this size, and the address is between its own, or the frames go back. -/
def Coincide (cfg : Configuracion) (s : Estado) (seg : Segmento) (dst n : ℤ) (heap : HeapLista) :
    Prop :=
  heap.size = n ∧ signed (direccionInicial cfg s seg heap) ≤ signed dst ∧
    (signed dst ≤ signed (direccionFinal cfg s seg heap n) ∨
      marcoEn s seg (paginaFinal cfg heap n) <
        marcoEn s seg (heap.direccionHeap / cfg.tamanioPag))

instance (cfg : Configuracion) (seg : Segmento) (heap : HeapLista) (n : ℤ) :
    Decidable (Visible cfg seg heap n) := inferInstanceAs (Decidable (_ < _))

instance (cfg : Configuracion) (s : Estado) (seg : Segmento) (dst n : ℤ) (heap : HeapLista) :
    Decidable (Coincide cfg s seg dst n heap) := inferInstanceAs (Decidable (_ ∧ _))

/-- Every one of these blocks is looked at, and is not the one that is looked for. -/
def Ninguno (cfg : Configuracion) (s : Estado) (seg : Segmento) (dst n : ℤ)
    (metadatas : List HeapLista) : Prop :=
  ∀ heap ∈ metadatas, Visible cfg seg heap n ∧ ¬ Coincide cfg s seg dst n heap

/-- The block is the first that is taken for the one that is looked for. -/
def Elegido (cfg : Configuracion) (s : Estado) (seg : Segmento) (dst n : ℤ)
    (metadatas : List HeapLista) (heap : HeapLista) : Prop :=
  ∃ antes despues, metadatas = antes ++ heap :: despues ∧ Ninguno cfg s seg dst n antes ∧
    Visible cfg seg heap n ∧ Coincide cfg s seg dst n heap

theorem lt_of_isSome_elemento {α : Type} {l : List α} {i : ℤ} (h : (elemento l i).isSome) :
    0 ≤ i ∧ i < l.length := by
  obtain ⟨a, ha⟩ := Option.isSome_iff_exists.1 h
  obtain ⟨hi, hget⟩ := getElem?_of_elemento ha
  have hlt := (List.getElem?_eq_some_iff.1 hget).1
  omega

theorem Ordenado.direccion_nonneg (h : Ordenado cfg s seg) (hheap : heap ∈ seg.metadatas) :
    0 ≤ heap.direccionHeap := by
  have hcero := (lt_of_isSome_elemento (h.embaldosado.enPaginas heap hheap 0 (by omega))).1
  have hpos := cfg.positivo
  rwa [Int.le_ediv_iff_mul_le (by omega), zero_mul, Nat.cast_zero, add_zero] at hcero

/-- The pages of the header. -/
theorem Ordenado.paginas_heap (h : Ordenado cfg s seg) (hheap : heap ∈ seg.metadatas) :
    0 ≤ heap.direccionHeap / cfg.tamanioPag ∧
      heap.direccionHeap / cfg.tamanioPag < seg.tablaPaginas.length ∧
      0 ≤ paginaDatos cfg heap ∧ paginaDatos cfg heap < seg.tablaPaginas.length := by
  have hpos : (0 : ℤ) < cfg.tamanioPag := by exact_mod_cast cfg.positivo
  have hprimera := lt_of_isSome_elemento (h.embaldosado.enPaginas heap hheap 0 (by omega))
  have hultima := lt_of_isSome_elemento (h.embaldosado.enPaginas heap hheap 4 (by omega))
  have hle := Int.ediv_le_ediv hpos (show heap.direccionHeap ≤ heap.direccionHeap + 4 by omega)
  have hpartido := h.embaldosado.partido heap hheap
  rw [Nat.cast_zero, add_zero] at hprimera
  rw [paginaDatos]
  refine ⟨hprimera.1, hprimera.2, ?_, ?_⟩
  · split_ifs <;> omega
  · split_ifs with hparte
    · have hne := hpartido.1 hparte
      push_cast at hultima
      omega
    · omega

theorem visible_iff (hcero : 0 ≤ heap.direccionHeap) (hn : 0 ≤ n) :
    Visible cfg seg heap n ↔ 0 ≤ paginaFinal cfg heap n ∧
      paginaFinal cfg heap n < seg.tablaPaginas.length := by
  have hpos : (0 : ℤ) < cfg.tamanioPag := by exact_mod_cast cfg.positivo
  rw [Visible, paginaFinal, tamanioMetadata]
  constructor
  · intro h
    exact ⟨Int.ediv_nonneg (by omega) hpos.le, Int.ediv_lt_of_lt_mul hpos (by rwa [mul_comm])⟩
  · rintro ⟨_, h⟩
    have hlt := Int.lt_mul_of_ediv_lt hpos h
    rwa [mul_comm] at hlt

theorem runs_limitesHeap (h : Ordenado cfg s seg) (hu : u.paginas = s.paginas)
    (hheap : heap ∈ seg.metadatas) (hn : 0 ≤ n) (hvisible : Visible cfg seg heap n) :
    Runs (limitesHeap cfg seg heap n) u (direccionInicial cfg s seg heap,
      direccionFinal cfg s seg heap n, decide (marcoEn s seg (paginaFinal cfg heap n) <
        marcoEn s seg (heap.direccionHeap / cfg.tamanioPag))) u [] := by
  obtain ⟨hcero, hprimera, hcero', hdatos⟩ := h.paginas_heap hheap
  obtain ⟨hfinal, hfinal'⟩ := (visible_iff (h.direccion_nonneg hheap) hn).1 hvisible
  obtain ⟨p, pag, hp, hpag, _, _, hmarco⟩ := h.pagina hcero hprimera
  obtain ⟨q, qag, hq, hqag, _, _, hmarcoq⟩ := h.pagina hcero' hdatos
  obtain ⟨r, rag, hr, hrag, _, _, hmarcor⟩ := h.pagina hfinal hfinal'
  have hindice : (if heap.estaPartido then heap.direccionHeap / (cfg.tamanioPag : ℤ) + 1
      else heap.direccionHeap / cfg.tamanioPag) = paginaDatos cfg heap := by
    rw [paginaDatos]
    split_ifs <;> simp
  rw [← hu] at hpag hqag hrag
  rw [direccionInicial, direccionFinal, hmarco, hmarcoq, hmarcor, limitesHeap, hindice]
  refine Runs.bind (runs_orFail hq u) ((runs_pagina hqag).bind ?_)
  refine Runs.bind (runs_orFail hr u) ((runs_pagina hrag).bind ?_)
  exact Runs.bind (runs_orFail hp u) ((runs_pagina hpag).bind (runs_pure _ u))

theorem triple_limitesHeap (h : Ordenado cfg s seg) (hu : u.paginas = s.paginas)
    (hheap : heap ∈ seg.metadatas) (hn : 0 ≤ n) :
    Triple ok (· = u) (limitesHeap cfg seg heap n) fun x v => v = u ∧ Visible cfg seg heap n ∧
      x = (direccionInicial cfg s seg heap, direccionFinal cfg s seg heap n,
        decide (marcoEn s seg (paginaFinal cfg heap n) <
          marcoEn s seg (heap.direccionHeap / cfg.tamanioPag))) := by
  have hvisible : Triple ok (· = u) (limitesHeap cfg seg heap n) fun _ _ =>
      Visible cfg seg heap n := by
    refine triple_orFail_bind fun q _ => exec_pagina fun qag _ => triple_orFail_bind fun r hr => ?_
    have hpagina : elemento seg.tablaPaginas (paginaFinal cfg heap n) = some r := hr
    have hlt := lt_of_isSome_elemento (Option.isSome_of_eq_some hpagina)
    have hvisto := (visible_iff (h.direccion_nonneg hheap) hn).2 hlt
    exact triple_conseq (triple_true _) (fun _ hs => hs) fun _ _ _ => hvisto
  intro v x v' marcas hv hr hok
  rw [hv] at hr
  have hvisto := hvisible u x v' marcas rfl hr hok
  cases (runs_limitesHeap h hu hheap hn hvisto).symm.trans hr
  exact ⟨rfl, hvisto, rfl⟩

theorem runs_buscarHeapDestino_none (h : Ordenado cfg s seg) (hu : u.paginas = s.paginas)
    (hn : 0 ≤ n) {l : List HeapLista} (hl : l ⊆ seg.metadatas) (hno : Ninguno cfg s seg dst n l) :
    Runs (buscarHeapDestino cfg seg (signed dst) n l) u none u [] := by
  induction l with
  | nil => exact runs_pure _ u
  | cons heap l ih =>
      obtain ⟨hvisible, hdistinto⟩ := hno heap (by simp)
      refine Runs.bind (runs_limitesHeap h hu (hl (by simp)) hn hvisible) ?_
      dsimp only
      rw [if_neg (by rwa [decide_eq_true_iff])]
      exact ih (fun x hx => hl (List.mem_cons_of_mem _ hx)) fun x hx =>
        hno x (List.mem_cons_of_mem _ hx)

theorem runs_buscarHeapDestino_some (h : Ordenado cfg s seg) (hu : u.paginas = s.paginas)
    (hn : 0 ≤ n) {l : List HeapLista} (hl : l ⊆ seg.metadatas)
    (helegido : Elegido cfg s seg dst n l heap) :
    Runs (buscarHeapDestino cfg seg (signed dst) n l) u (some heap) u [] := by
  obtain ⟨antes, despues, rfl, hantes, hvisible, hcoincide⟩ := helegido
  induction antes with
  | nil =>
      refine Runs.bind (runs_limitesHeap h hu (hl (by simp)) hn hvisible) ?_
      dsimp only
      rw [if_pos (by rwa [decide_eq_true_iff])]
      exact runs_pure _ u
  | cons otro antes ih =>
      obtain ⟨hvisible', hdistinto⟩ := hantes otro (by simp)
      refine Runs.bind (runs_limitesHeap h hu (hl (by simp)) hn hvisible') ?_
      dsimp only
      rw [if_neg (by rwa [decide_eq_true_iff])]
      exact ih (fun x hx => hl (List.mem_cons_of_mem _ hx)) fun x hx =>
        hantes x (List.mem_cons_of_mem _ hx)

/-- The search gives the first block that is taken for the one that is looked for, if any. -/
theorem triple_buscarHeapDestino (h : Ordenado cfg s seg) (hu : u.paginas = s.paginas)
    (hn : 0 ≤ n) {l : List HeapLista} (hl : l ⊆ seg.metadatas) :
    Triple ok (· = u) (buscarHeapDestino cfg seg (signed dst) n l) fun r v => v = u ∧
      (r = none ∧ Ninguno cfg s seg dst n l ∨ ∃ heap, r = some heap ∧
        Elegido cfg s seg dst n l heap) := by
  induction l with
  | nil => exact exec_pure ⟨rfl, Or.inl ⟨rfl, fun _ hx => by cases hx⟩⟩
  | cons heap l ih =>
      refine exec_bind (triple_limitesHeap h hu (hl (by simp)) hn) fun x v hv => ?_
      obtain ⟨hv, hvisible, hx⟩ := hv
      rw [hv, hx]
      refine triple_ite (fun hcoincide => ?_) fun hdistinto => ?_
      · rw [decide_eq_true_iff] at hcoincide
        exact exec_pure ⟨rfl, Or.inr ⟨heap, rfl, [], l, rfl, (fun _ hx => by cases hx), hvisible,
          hcoincide⟩⟩
      · rw [decide_eq_true_iff] at hdistinto
        refine triple_conseq (ih fun x hx => hl (List.mem_cons_of_mem _ hx)) (fun _ hs => hs) ?_
        rintro r w ⟨hw, hr⟩
        refine ⟨hw, hr.imp (fun hno => ⟨hno.1, ?_⟩) fun hsi => ?_⟩
        · intro x hx
          rcases List.mem_cons.1 hx with rfl | hx
          · exact ⟨hvisible, hdistinto⟩
          · exact hno.2 x hx
        · obtain ⟨heap', hheap', antes, despues, rfl, hantes, hresto⟩ := hsi
          refine ⟨heap', hheap', heap :: antes, despues, rfl, ?_, hresto⟩
          intro x hx
          rcases List.mem_cons.1 hx with rfl | hx
          · exact ⟨hvisible, hdistinto⟩
          · exact hantes x hx

/-! ## The pages after the first -/

/-- The memory after the copy to the pages from number `i` on. -/
def copiaPaginas (cfg : Configuracion) (s : Estado) (seg : Segmento) :
    ℕ → ℤ → List UInt8 → Mem → Mem
  | 0, _, _, m => m
  | fuel + 1, i, src, m =>
      if src = [] then m
      else copiaPaginas cfg s seg fuel (i + 1) (src.drop cfg.tamanioPag)
        (store m (marcoEn s seg i * cfg.tamanioPag) (src.take cfg.tamanioPag))

theorem copiaPaginas_nil (cfg : Configuracion) (s : Estado) (seg : Segmento) (fuel : ℕ) (i : ℤ)
    (m : Mem) : copiaPaginas cfg s seg fuel i [] m = m := by
  cases fuel with
  | zero => rfl
  | succ fuel => rw [copiaPaginas, if_pos rfl]

/-- The state has this memory and nothing else changed but flags of frames. -/
def ConMemoria (s : Estado) (m : Mem) (u : Estado) : Prop := SoloMarcas { s with memoria := m } u

theorem ConMemoria.paginas (h : ConMemoria s m u) : u.paginas = s.paginas := by
  obtain ⟨_, l, rfl⟩ := h
  rfl

theorem ConMemoria.memoria (h : ConMemoria s m u) : u.memoria = m := by
  obtain ⟨_, l, rfl⟩ := h
  rfl

theorem ConMemoria.copiar (h : ConMemoria s m u) (a : ℤ) (l : List UInt8) :
    ConMemoria s (store m a l) (u.copiar a l) := by
  obtain ⟨hlen, frames, rfl⟩ := h
  exact ⟨hlen, frames, rfl⟩

theorem ConMemoria.modificarFrame (h : ConMemoria s m u) (i : ℤ) (f : Frame → Frame) :
    ConMemoria s m (u.modificarFrame i f) :=
  h.trans (soloMarcas_modificarFrame u i f)

theorem ConMemoria.frame (h : ConMemoria s m u) (i : ℤ) (hi : (s.frame i).isSome) :
    (u.frame i).isSome := by
  rw [isSome_frame_iff] at hi ⊢
  rw [h.1]
  exact hi

/-- A page of the segment in memory, as the copy finds it. -/
theorem Ordenado.pagina_copiada (h : Ordenado cfg s seg) (hu : ConMemoria s m u) {i : ℤ} {p : ℕ}
    (hp : elemento seg.tablaPaginas i = some p) : ∃ pag, u.paginas[p]? = some pag ∧
      pag.presencia = true ∧ (u.frame pag.numeroFrame).isSome ∧
        pag.numeroFrame = marcoEn s seg i := by
  obtain ⟨hi, hlt⟩ := lt_of_isSome_elemento (Option.isSome_of_eq_some hp)
  obtain ⟨q, pag, hq, hpag, hpres, hframe, hmarco⟩ := h.pagina hi hlt
  cases hp.symm.trans hq
  exact ⟨pag, by rw [hu.paginas, hpag], hpres, hu.frame _ hframe, hmarco.symm⟩

theorem pagina_lt_of_le {i : ℤ} {k l : ℕ} (hk : 0 < k)
    (h : i * cfg.tamanioPag + k ≤ cfg.tamanioPag * l) : i < l := by
  by_contra hge
  have hmul := Int.mul_le_mul_of_nonneg_right (not_lt.1 hge) (Int.natCast_nonneg cfg.tamanioPag)
  rw [mul_comm (l : ℤ)] at hmul
  omega

/-- What is left after a page is in the pages that are left. -/
theorem siguiente_le {i : ℤ} {k l : ℕ} (hlt : i < l)
    (h : i * cfg.tamanioPag + k ≤ cfg.tamanioPag * l) :
    (i + 1) * cfg.tamanioPag + (k - cfg.tamanioPag : ℕ) ≤ cfg.tamanioPag * l := by
  have hmul := Int.mul_le_mul_of_nonneg_right (show i + 1 ≤ l from hlt)
    (Int.natCast_nonneg cfg.tamanioPag)
  rw [mul_comm (l : ℤ)] at hmul
  rw [add_mul, one_mul] at hmul ⊢
  omega

theorem triple_copiarPaginas (h : Ordenado cfg s seg) (fuel : ℕ) (i : ℤ) (src : List UInt8) :
    Triple ok (ConMemoria s m) (copiarPaginas cfg seg sd fuel i src) fun _ v =>
      ConMemoria s (copiaPaginas cfg s seg fuel i src m) v ∧
        (src ≠ [] → 0 ≤ i ∧
          i * cfg.tamanioPag + src.length ≤ cfg.tamanioPag * seg.tablaPaginas.length) := by
  induction fuel generalizing i src m with
  | zero => exact triple_fail
  | succ fuel ih =>
      rw [copiaPaginas]
      refine triple_ite (fun hnil => ?_) fun hne => ?_
      · rw [if_pos hnil]
        exact triple_pure _ fun v hv => ⟨hv, fun h => absurd hnil h⟩
      · rw [if_neg hne]
        refine triple_of_forall fun u hu => triple_orFail_bind fun p hp => ?_
        obtain ⟨pag, hpag, hpres, _, hmarco⟩ := h.pagina_copiada hu hp
        refine exec_bind (Q := fun f v => v = u) ?_ fun f v hv => ?_
        · refine exec_pagina fun pag' hpag' => triple_ite (fun _ => exec_pure rfl) fun hno => ?_
          cases hpag.symm.trans hpag'
          exact absurd hpres hno
        rw [hv]
        refine exec_pagina fun pag' hpag' => ?_
        cases hpag.symm.trans hpag'
        rw [hmarco]
        refine exec_modify (exec_tocarFrame fun _ => ?_)
        refine triple_conseq (ih (i + 1) (src.drop cfg.tamanioPag)) (fun w hw => ?_)
          fun _ w hw => ⟨hw.1, fun _ => ?_⟩
        · rw [hw]
          exact (hu.copiar _ _).modificarFrame _ _
        · obtain ⟨hi, hlt⟩ := lt_of_isSome_elemento (Option.isSome_of_eq_some hp)
          refine ⟨hi, ?_⟩
          have hmul := Int.mul_le_mul_of_nonneg_right
            (show i + 1 ≤ seg.tablaPaginas.length from hlt) (Int.natCast_nonneg cfg.tamanioPag)
          rw [mul_comm (seg.tablaPaginas.length : ℤ), add_mul, one_mul] at hmul
          by_cases hresto : src.drop cfg.tamanioPag = []
          · have hlen := List.drop_eq_nil_iff.1 hresto
            omega
          · have hle := (hw.2 hresto).2
            have hlen := mt List.drop_eq_nil_iff.2 hresto
            rw [List.length_drop, add_mul, one_mul] at hle
            omega

theorem runs_copiarPaginas (h : Ordenado cfg s seg) {fuel : ℕ} {i : ℤ} {src : List UInt8}
    (hu : ConMemoria s m u) (hi : 0 ≤ i) (hfuel : src.length < fuel)
    (hpaginas : i * cfg.tamanioPag + src.length ≤ cfg.tamanioPag * seg.tablaPaginas.length) :
    ∃ v, Runs (copiarPaginas cfg seg sd fuel i src) u () v [] := by
  have hpos := cfg.positivo
  induction fuel generalizing i src m u with
  | zero => exact absurd hfuel (Nat.not_lt_zero _)
  | succ fuel ih =>
      by_cases hnil : src = []
      · refine ⟨u, ?_⟩
        rw [copiarPaginas, if_pos hnil]
        exact runs_pure _ u
      · have hlen := List.length_pos_of_ne_nil hnil
        have hlt := pagina_lt_of_le hlen hpaginas
        obtain ⟨p, _, hp, _⟩ := h.pagina hi hlt
        obtain ⟨pag, hpag, hpres, hframe, hmarco⟩ := h.pagina_copiada hu hp
        have hcopiado : Runs (frameCopiado cfg seg sd p) u pag.numeroFrame u [] := by
          refine (runs_pagina hpag).bind ?_
          rw [if_pos hpres]
          exact runs_pure _ u
        set w := u.copiar (pag.numeroFrame * cfg.tamanioPag) (src.take cfg.tamanioPag)
        have hresto := siguiente_le hlt hpaginas
        rw [← List.length_drop] at hresto
        obtain ⟨v, hv⟩ : ∃ v, Runs (copiarPaginas cfg seg sd fuel (i + 1)
            (src.drop cfg.tamanioPag)) _ () v [] := ih
          ((hu.copiar (pag.numeroFrame * cfg.tamanioPag) (src.take cfg.tamanioPag)).modificarFrame
            pag.numeroFrame fun f => { f with uso := true, modificado := true }) (by omega)
          (by rw [List.length_drop]; omega) hresto
        refine ⟨v, ?_⟩
        rw [copiarPaginas, if_neg hnil]
        refine Runs.bind (runs_orFail hp u) (Runs.bind hcopiado ((runs_pagina hpag).bind ?_))
        exact Runs.bind (runs_modify _ u) (Runs.bind (runs_tocarFrame (s := w) _ hframe) hv)

/-- The loop copies to the places of the page where it starts and those that follow. -/
theorem copiado_copiaPaginas (h : Ordenado cfg s seg) {fuel : ℕ} {i : ℤ} {src : List UInt8}
    (hi : 0 ≤ i) (hfuel : src.length < fuel)
    (hpaginas : i * cfg.tamanioPag + src.length ≤ cfg.tamanioPag * seg.tablaPaginas.length) :
    Copiado cfg s seg (i * cfg.tamanioPag) src m (copiaPaginas cfg s seg fuel i src m) := by
  have hpos := cfg.positivo
  induction fuel generalizing i src m with
  | zero => exact absurd hfuel (Nat.not_lt_zero _)
  | succ fuel ih =>
      rw [copiaPaginas]
      split_ifs with hnil
      · rw [hnil]
        exact copied_nil _ _ _
      · have hlen := List.length_pos_of_ne_nil hnil
        have hlt := pagina_lt_of_le hlen hpaginas
        set m₁ := store m (marcoEn s seg i * cfg.tamanioPag) (src.take cfg.tamanioPag)
        have hprimera : Copiado cfg s seg (i * cfg.tamanioPag) (src.take cfg.tamanioPag) m m₁ := by
          refine copied_store fun r hr => h.lugar hi hlt (Int.natCast_nonneg r) ?_
          rw [List.length_take] at hr
          omega
        have hresto := siguiente_le hlt hpaginas
        rw [← List.length_drop] at hresto
        have hsiguiente : Copiado cfg s seg (i * cfg.tamanioPag + (src.take cfg.tamanioPag).length)
            (src.drop cfg.tamanioPag) m₁
              (copiaPaginas cfg s seg fuel (i + 1) (src.drop cfg.tamanioPag) m₁) := by
          by_cases hnada : src.drop cfg.tamanioPag = []
          · rw [hnada, copiaPaginas_nil]
            exact copied_nil _ _ _
          · have hmas := mt List.drop_eq_nil_iff.2 hnada
            have hposicion : i * cfg.tamanioPag + (src.take cfg.tamanioPag).length =
                (i + 1) * cfg.tamanioPag := by
              rw [List.length_take, Nat.min_eq_left (by omega), add_mul, one_mul]
            rw [hposicion]
            exact ih (by omega) (by rw [List.length_drop]; omega) hresto
        have hcompleto := Copied.append h.lugar_inj hprimera hsiguiente
        rwa [List.take_append_drop] at hcompleto

/-! ## The copy to the block -/

/-- Where the data of the block is taken to start in its page: after the header that is split, or
where the address is. -/
def inicioEnPagina (cfg : Configuracion) (heap : HeapLista) (off : ℤ) : ℤ :=
  if heap.estaPartido then tamanioMetadata - heap.bytesPrimeraPagina else off % cfg.tamanioPag

/-- The memory after the copy to the block. -/
def copiaEnHeap (cfg : Configuracion) (s : Estado) (seg : Segmento) (heap : HeapLista) (off : ℤ)
    (src : List UInt8) (m : Mem) : Mem :=
  let primera := (cfg.tamanioPag - inicioEnPagina cfg heap off).toNat
  copiaPaginas cfg s seg (src.length + 1) (paginaDatos cfg heap + 1) (src.drop primera)
    (store m (marcoEn s seg (paginaDatos cfg heap) * cfg.tamanioPag + off % cfg.tamanioPag)
      (src.take primera))

/-- The bytes that do not go to the first page have pages. -/
def RestoEnPaginas (cfg : Configuracion) (seg : Segmento) (heap : HeapLista) (off n : ℤ) : Prop :=
  cfg.tamanioPag - inicioEnPagina cfg heap off < n →
    (paginaDatos cfg heap + 1) * cfg.tamanioPag +
      (n - (cfg.tamanioPag - inicioEnPagina cfg heap off)) ≤
        cfg.tamanioPag * seg.tablaPaginas.length

theorem copiarEnHeap_eq (cfg : Configuracion) (seg : Segmento) (heap : HeapLista) (sd : ℕ)
    (src : List UInt8) (hoff : off = unsigned (dst - seg.baseLogica)) :
    copiarEnHeap cfg seg heap dst src sd = (do
      let p ← obtener seg.tablaPaginas (paginaDatos cfg heap)
      let pag ← pagina p
      if cfg.tamanioPag - inicioEnPagina cfg heap off < 0 then fail
      else do
        modify fun s => s.copiar (pag.numeroFrame * cfg.tamanioPag + off % cfg.tamanioPag)
          (src.take (cfg.tamanioPag - inicioEnPagina cfg heap off).toNat)
        tocarFrame pag.numeroFrame fun f => { f with uso := true, modificado := true }
        copiarPaginas cfg seg sd (src.length + 1) (paginaDatos cfg heap + 1)
          (src.drop (cfg.tamanioPag - inicioEnPagina cfg heap off).toNat)
        return 0) := by
  rw [hoff]
  rfl

theorem triple_copiarEnHeap (h : Ordenado cfg s seg) (hu : ConMemoria s m u) (src : List UInt8)
    (hoff : off = unsigned (dst - seg.baseLogica)) :
    Triple ok (· = u) (copiarEnHeap cfg seg heap dst src sd) fun r v => r = 0 ∧
      ConMemoria s (copiaEnHeap cfg s seg heap off src m) v ∧
        inicioEnPagina cfg heap off ≤ cfg.tamanioPag ∧
          RestoEnPaginas cfg seg heap off src.length := by
  rw [copiarEnHeap_eq cfg seg heap sd src hoff]
  refine triple_orFail_bind fun p hp => ?_
  obtain ⟨pag, hpag, _, _, hmarco⟩ := h.pagina_copiada hu hp
  refine exec_pagina fun pag' hpag' => triple_ite (fun _ => triple_fail) fun hentra => ?_
  cases hpag.symm.trans hpag'
  rw [hmarco]
  refine exec_modify (exec_tocarFrame fun _ => ?_)
  refine triple_bind (triple_conseq (triple_copiarPaginas (m := store m (marcoEn s seg
    (paginaDatos cfg heap) * cfg.tamanioPag + off % cfg.tamanioPag)
      (src.take (cfg.tamanioPag - inicioEnPagina cfg heap off).toNat)) h _ _ _) (fun v hv => ?_)
        fun _ _ hv => hv) fun _ => triple_pure _ fun v hv => ?_
  · rw [hv]
    exact (hu.copiar _ _).modificarFrame _ _
  · obtain ⟨hmemoria, hresto⟩ := hv
    refine ⟨rfl, hmemoria, by omega, fun hlt => ?_⟩
    rw [← List.length_pos_iff, List.length_drop] at hresto
    have hle := (hresto (by omega)).2
    omega

theorem runs_copiarEnHeap (h : Ordenado cfg s seg) (hu : ConMemoria s m u)
    (hheap : heap ∈ seg.metadatas) (src : List UInt8)
    (hoff : off = unsigned (dst - seg.baseLogica))
    (hentra : inicioEnPagina cfg heap off ≤ cfg.tamanioPag)
    (hresto : RestoEnPaginas cfg seg heap off src.length) :
    ∃ v, Runs (copiarEnHeap cfg seg heap dst src sd) u 0 v [] := by
  obtain ⟨_, _, hcero, hlt⟩ := h.paginas_heap hheap
  obtain ⟨p, _, hp, _⟩ := h.pagina hcero hlt
  obtain ⟨pag, hpag, _, hframe, hmarco⟩ := h.pagina_copiada hu hp
  set primera := ((cfg.tamanioPag : ℤ) - inicioEnPagina cfg heap off).toNat with hprimera
  set w := (u.copiar (pag.numeroFrame * cfg.tamanioPag + off % cfg.tamanioPag)
    (src.take primera)).modificarFrame pag.numeroFrame fun f =>
      { f with uso := true, modificado := true } with hw
  have hloop : ∃ v, Runs (copiarPaginas cfg seg sd (src.length + 1) (paginaDatos cfg heap + 1)
      (src.drop primera)) w () v [] := by
    by_cases hnil : src.drop primera = []
    · rw [hnil, copiarPaginas, if_pos rfl]
      exact ⟨w, runs_pure _ w⟩
    · have hmas := mt List.drop_eq_nil_iff.2 hnil
      have hle := hresto (by omega)
      refine runs_copiarPaginas h ((hu.copiar _ _).modificarFrame _ _) (by omega) ?_ ?_
      · rw [List.length_drop]
        omega
      · rw [List.length_drop]
        omega
  obtain ⟨v, hv⟩ := hloop
  refine ⟨v, ?_⟩
  rw [copiarEnHeap_eq cfg seg heap sd src hoff]
  refine Runs.bind (runs_orFail hp u) ((runs_pagina hpag).bind ?_)
  rw [if_neg (by omega)]
  exact Runs.bind (runs_modify _ u) (Runs.bind (runs_tocarFrame (s := u.copiar _ _) _ hframe)
    (Runs.bind hv (runs_pure _ v)))

/-! ## When the bytes go to their places -/

/-- The data of the block is taken to start in its first page, and the range starts there, or
starts in that page with no more bytes than it is taken to have left, those that pass its end being
in the frame that follows. -/
def EnLugar (cfg : Configuracion) (s : Estado) (seg : Segmento) (heap : HeapLista) (off n : ℤ) :
    Prop :=
  inicioEnPagina cfg heap off ≤ cfg.tamanioPag ∧
    (n = 0 ∨ off = paginaDatos cfg heap * cfg.tamanioPag + inicioEnPagina cfg heap off ∨
      paginaDatos cfg heap = off / cfg.tamanioPag ∧
        inicioEnPagina cfg heap off + n ≤ cfg.tamanioPag ∧
        (off % cfg.tamanioPag + n ≤ cfg.tamanioPag ∨
          marcoEn s seg (paginaDatos cfg heap + 1) = marcoEn s seg (paginaDatos cfg heap) + 1))

instance (cfg : Configuracion) (s : Estado) (seg : Segmento) (heap : HeapLista) (off n : ℤ) :
    Decidable (EnLugar cfg s seg heap off n) := inferInstanceAs (Decidable (_ ∧ _))

theorem emod_of_pagina {P x i d : ℤ} (hd : 0 ≤ d) (hlt : d < P) (hx : x = i * P + d) :
    x % P = d := by
  rw [hx, add_comm, Int.add_mul_emod_self_right, Int.emod_eq_of_lt hd hlt]

theorem inicioEnPagina_nonneg (hconforme : Conforme cfg heap) (off : ℤ) :
    0 ≤ inicioEnPagina cfg heap off := by
  have hpos : (0 : ℤ) < cfg.tamanioPag := by exact_mod_cast cfg.positivo
  rw [inicioEnPagina]
  split_ifs with hpartido
  · have hparte := hconforme.partido.1 hpartido
    rw [seParte] at hparte
    rw [hconforme.bytes hpartido]
    omega
  · exact Int.emod_nonneg off hpos.ne'

/-- What is copied to the pages after the first, when there is something left for them. -/
theorem copiado_resto (h : Ordenado cfg s seg) (hheap : heap ∈ seg.metadatas) {k : ℕ}
    {src : List UInt8} (hentra : inicioEnPagina cfg heap off ≤ cfg.tamanioPag)
    (hk : (k : ℤ) = cfg.tamanioPag - inicioEnPagina cfg heap off)
    (hresto : RestoEnPaginas cfg seg heap off src.length) :
    Copiado cfg s seg ((paginaDatos cfg heap + 1) * cfg.tamanioPag) (src.drop k) m
      (copiaPaginas cfg s seg (src.length + 1) (paginaDatos cfg heap + 1) (src.drop k) m) := by
  have hcero := (h.paginas_heap hheap).2.2.1
  by_cases hnil : src.drop k = []
  · rw [hnil, copiaPaginas_nil]
    exact copied_nil _ _ _
  · have hmas := mt List.drop_eq_nil_iff.2 hnil
    have hle := hresto (by omega)
    refine copiado_copiaPaginas h (by omega) ?_ ?_
    · rw [List.length_drop]
      omega
    · rw [List.length_drop]
      omega

/-- The range is copied to its places when it starts where the data of the block is taken to. -/
theorem copiado_desdeInicio (h : Ordenado cfg s seg) (hheap : heap ∈ seg.metadatas)
    {src : List UInt8} (hentra : inicioEnPagina cfg heap off ≤ cfg.tamanioPag)
    (hoff : off = paginaDatos cfg heap * cfg.tamanioPag + inicioEnPagina cfg heap off)
    (hresto : RestoEnPaginas cfg seg heap off src.length) :
    Copiado cfg s seg off src m (copiaEnHeap cfg s seg heap off src m) := by
  have hpos : (0 : ℤ) < cfg.tamanioPag := by exact_mod_cast cfg.positivo
  obtain ⟨_, _, hcero, hlt⟩ := h.paginas_heap hheap
  have hinicio := inicioEnPagina_nonneg (h.conforme heap hheap) off
  obtain ⟨k, hk⟩ : ∃ k : ℕ, (k : ℤ) = cfg.tamanioPag - inicioEnPagina cfg heap off :=
    ⟨_, Int.toNat_of_nonneg (by omega)⟩
  have hkn : (cfg.tamanioPag - inicioEnPagina cfg heap off : ℤ).toNat = k := by omega
  rw [copiaEnHeap, hkn]
  set m₁ := store m (marcoEn s seg (paginaDatos cfg heap) * cfg.tamanioPag + off % cfg.tamanioPag)
    (src.take k) with hm₁
  have hprimera : Copiado cfg s seg off (src.take k) m m₁ := by
    by_cases hk0 : k = 0
    · rw [hm₁, hk0, List.take_zero, store_nil]
      exact copied_nil _ _ _
    · have hmod := emod_of_pagina hinicio (by omega) hoff
      refine copied_store fun r hr => ?_
      rw [List.length_take] at hr
      have hlugar := h.lugar (r := off % cfg.tamanioPag + r) hcero hlt (by omega) (by omega)
      rw [← add_assoc, ← add_assoc, hmod, ← hoff] at hlugar
      rw [hmod]
      exact hlugar
  have hsegunda : Copiado cfg s seg (off + (src.take k).length) (src.drop k) m₁
      (copiaPaginas cfg s seg (src.length + 1) (paginaDatos cfg heap + 1) (src.drop k) m₁) := by
    by_cases hnil : src.drop k = []
    · rw [hnil, copiaPaginas_nil]
      exact copied_nil _ _ _
    · have hmas := mt List.drop_eq_nil_iff.2 hnil
      have hposicion : off + (src.take k).length =
          (paginaDatos cfg heap + 1) * cfg.tamanioPag := by
        rw [List.length_take, Nat.min_eq_left (by omega), hk, add_mul, one_mul]
        omega
      rw [hposicion]
      exact copiado_resto h hheap hentra hk hresto
  have hcompleto := Copied.append h.lugar_inj hprimera hsegunda
  rwa [List.take_append_drop] at hcompleto

/-- The range is copied to its places when it starts in the first page of the block, if the bytes
that pass the page are in the next frame. -/
theorem copiado_enPagina (h : Ordenado cfg s seg) (hheap : heap ∈ seg.metadatas)
    {src : List UInt8} (hoff : paginaDatos cfg heap = off / cfg.tamanioPag)
    (hcabe : inicioEnPagina cfg heap off + src.length ≤ cfg.tamanioPag)
    (hsigue : off % cfg.tamanioPag + src.length ≤ cfg.tamanioPag ∨
      marcoEn s seg (paginaDatos cfg heap + 1) = marcoEn s seg (paginaDatos cfg heap) + 1)
    (hfin : off + src.length ≤ cfg.tamanioPag * seg.tablaPaginas.length) :
    Copiado cfg s seg off src m (copiaEnHeap cfg s seg heap off src m) := by
  have hpos : (0 : ℤ) < cfg.tamanioPag := by exact_mod_cast cfg.positivo
  obtain ⟨_, _, hcero, hlt⟩ := h.paginas_heap hheap
  have hinicio := inicioEnPagina_nonneg (h.conforme heap hheap) off
  have hmod := Int.emod_nonneg off hpos.ne'
  have hmod' := Int.emod_lt_of_pos off hpos
  have hdiv : off = paginaDatos cfg heap * cfg.tamanioPag + off % cfg.tamanioPag := by
    rw [hoff, mul_comm]
    exact (Int.mul_ediv_add_emod off cfg.tamanioPag).symm
  rw [copiaEnHeap, List.drop_eq_nil_iff.2 (by omega), copiaPaginas_nil,
    List.take_of_length_le (by omega)]
  refine copied_store fun r hr => ?_
  by_cases hpagina : off % cfg.tamanioPag + r < cfg.tamanioPag
  · have hlugar := h.lugar (r := off % cfg.tamanioPag + r) hcero hlt (by omega) hpagina
    rwa [← add_assoc, ← add_assoc, ← hdiv] at hlugar
  · have hmarco := hsigue.resolve_left (by omega)
    have hsiguiente : paginaDatos cfg heap + 1 < seg.tablaPaginas.length := by
      have hle : (paginaDatos cfg heap + 1) * cfg.tamanioPag + (1 : ℕ) ≤
          cfg.tamanioPag * seg.tablaPaginas.length := by
        rw [add_mul, one_mul]
        push_cast
        omega
      exact pagina_lt_of_le one_pos hle
    have hlugar := h.lugar (r := off % cfg.tamanioPag + r - cfg.tamanioPag) (by omega) hsiguiente
      (by omega) (by omega)
    rw [hmarco, add_mul, add_mul, one_mul] at hlugar
    have hx : paginaDatos cfg heap * cfg.tamanioPag + cfg.tamanioPag +
        (off % cfg.tamanioPag + r - cfg.tamanioPag) = off + r := by omega
    have ha : marcoEn s seg (paginaDatos cfg heap) * cfg.tamanioPag + cfg.tamanioPag +
        (off % cfg.tamanioPag + r - cfg.tamanioPag) =
          marcoEn s seg (paginaDatos cfg heap) * cfg.tamanioPag + off % cfg.tamanioPag + r := by
      omega
    rwa [hx, ha] at hlugar

/-- A range in the pages of the segment goes to its places when the block that is found allows
it. -/
theorem copiado_of_enLugar (h : Ordenado cfg s seg) (hheap : heap ∈ seg.metadatas)
    {src : List UInt8} (hlugar : EnLugar cfg s seg heap off src.length)
    (hfin : off + src.length ≤ cfg.tamanioPag * seg.tablaPaginas.length) :
    RestoEnPaginas cfg seg heap off src.length ∧
      Copiado cfg s seg off src m (copiaEnHeap cfg s seg heap off src m) := by
  obtain ⟨hentra, hcero | hoff | ⟨hoff, hcabe, hsigue⟩⟩ := hlugar
  · have hnil : src = [] := List.eq_nil_of_length_eq_zero (by omega)
    refine ⟨fun hlt => absurd hlt (by omega), ?_⟩
    rw [hnil, copiaEnHeap, List.drop_nil, List.take_nil, copiaPaginas_nil, store_nil]
    exact copied_nil _ _ _
  · have hresto : RestoEnPaginas cfg seg heap off src.length := by
      intro _
      rw [add_mul, one_mul]
      omega
    exact ⟨hresto, copiado_desdeInicio h hheap hentra hoff hresto⟩
  · exact ⟨fun hlt => absurd hlt (by omega), copiado_enPagina h hheap hoff hcabe hsigue hfin⟩

/-! ## Where the bytes go -/

section Destino

variable {k : ℕ} {src : List UInt8}

/-- The first byte goes to the first page. -/
theorem primero_copiado (h : Ordenado cfg s seg) (hheap : heap ∈ seg.metadatas)
    (hentra : inicioEnPagina cfg heap off ≤ cfg.tamanioPag)
    (hk : (k : ℤ) = cfg.tamanioPag - inicioEnPagina cfg heap off) (hk0 : 0 < k)
    (hsrc : 0 < src.length) (hresto : RestoEnPaginas cfg seg heap off src.length) :
    src[0]? = some (copiaEnHeap cfg s seg heap off src m
      (marcoEn s seg (paginaDatos cfg heap) * cfg.tamanioPag + off % cfg.tamanioPag)) := by
  have hpos : (0 : ℤ) < cfg.tamanioPag := by exact_mod_cast cfg.positivo
  obtain ⟨_, _, hcero, hlt⟩ := h.paginas_heap hheap
  have hmod := Int.emod_nonneg off hpos.ne'
  have hmod' := Int.emod_lt_of_pos off hpos
  have hlugar := h.lugar hcero hlt hmod hmod'
  have hkn : (cfg.tamanioPag - inicioEnPagina cfg heap off : ℤ).toNat = k := by omega
  rw [copiaEnHeap, hkn]
  set a := marcoEn s seg (paginaDatos cfg heap) * cfg.tamanioPag + off % cfg.tamanioPag with ha
  have hcopiado := copiado_resto (m := store m a (src.take k)) h hheap hentra hk hresto
  rw [hcopiado.rest a]
  · have hlen : 0 < (src.take k).length := by
      rw [List.length_take]
      omega
    have hbyte := store_getElem (m := m) (a := a) hlen
    rw [Nat.cast_zero, add_zero] at hbyte
    rw [hbyte, List.getElem_take, List.getElem?_eq_getElem hsrc]
  · intro j _ hj
    have heq := h.lugar_inj _ _ _ hj hlugar
    rw [add_mul, one_mul] at heq
    omega

/-- The first of the bytes that are left goes to the start of the next page. -/
theorem siguiente_copiado (h : Ordenado cfg s seg) (hheap : heap ∈ seg.metadatas)
    (hentra : inicioEnPagina cfg heap off ≤ cfg.tamanioPag)
    (hk : (k : ℤ) = cfg.tamanioPag - inicioEnPagina cfg heap off) (hsrc : k < src.length)
    (hresto : RestoEnPaginas cfg seg heap off src.length) {a : ℤ}
    (ha : Lugar cfg s seg ((paginaDatos cfg heap + 1) * cfg.tamanioPag) a) :
    src[k]? = some (copiaEnHeap cfg s seg heap off src m a) := by
  have hkn : (cfg.tamanioPag - inicioEnPagina cfg heap off : ℤ).toNat = k := by omega
  have hlen : 0 < (src.drop k).length := by
    rw [List.length_drop]
    omega
  rw [copiaEnHeap, hkn]
  set m₁ := store m (marcoEn s seg (paginaDatos cfg heap) * cfg.tamanioPag + off % cfg.tamanioPag)
    (src.take k)
  have hbyte := Copied.getElem (lugar_unico cfg s seg)
    (copiado_resto (m := m₁) h hheap hentra hk hresto) hlen (by rwa [Nat.cast_zero, add_zero])
  rwa [List.getElem?_drop, add_zero] at hbyte

end Destino

/-- A range of any bytes goes to its places only if the block that is found allows it. -/
theorem enLugar_of_copiado (h : Ordenado cfg s seg) (hheap : heap ∈ seg.metadatas) {n : ℕ}
    (hentra : inicioEnPagina cfg heap off ≤ cfg.tamanioPag)
    (hresto : RestoEnPaginas cfg seg heap off n)
    (hcopiado : ∀ m src, src.length = n →
      Copiado cfg s seg off src m (copiaEnHeap cfg s seg heap off src m)) :
    EnLugar cfg s seg heap off n := by
  have hpos : (0 : ℤ) < cfg.tamanioPag := by exact_mod_cast cfg.positivo
  obtain ⟨_, _, hcero, hlt⟩ := h.paginas_heap hheap
  have hinicio := inicioEnPagina_nonneg (h.conforme heap hheap) off
  have hmod := Int.emod_nonneg off hpos.ne'
  have hmod' := Int.emod_lt_of_pos off hpos
  obtain ⟨k, hk⟩ : ∃ k : ℕ, (k : ℤ) = cfg.tamanioPag - inicioEnPagina cfg heap off :=
    ⟨_, Int.toNat_of_nonneg (by omega)⟩
  have hlugar := h.lugar hcero hlt hmod hmod'
  refine ⟨hentra, or_iff_not_imp_left.2 fun hn => or_iff_not_imp_left.2 fun hotro => ?_⟩
  have hpagina : paginaDatos cfg heap + 1 < seg.tablaPaginas.length →
      Lugar cfg s seg ((paginaDatos cfg heap + 1) * cfg.tamanioPag)
        (marcoEn s seg (paginaDatos cfg heap + 1) * cfg.tamanioPag) := by
    intro hlt'
    have hsuyo := h.lugar (r := 0) (show 0 ≤ paginaDatos cfg heap + 1 by omega) hlt' le_rfl hpos
    rwa [add_zero, add_zero] at hsuyo
  -- The first byte that does not go to the first page goes to the start of the next one.
  have hsiguiente : k < n → off + k = (paginaDatos cfg heap + 1) * cfg.tamanioPag := by
    intro hkn
    have hle := hresto (by omega)
    have hlt' : paginaDatos cfg heap + 1 < seg.tablaPaginas.length := by
      have hle' : (paginaDatos cfg heap + 1) * cfg.tamanioPag + (n - k : ℕ) ≤
          cfg.tamanioPag * seg.tablaPaginas.length := by omega
      exact pagina_lt_of_le (by omega) hle'
    have hbyte := place_of_copied (lugar_unico cfg s seg) hkn hcopiado fun m src hsrc =>
      siguiente_copiado h hheap hentra hk (by omega) (by rwa [hsrc]) (hpagina hlt')
    exact h.lugar_inj _ _ _ hbyte (hpagina hlt')
  by_cases hk0 : k = 0
  · have heq := hsiguiente (by omega)
    rw [hk0, add_mul, one_mul] at heq
    omega
  · have hprimero := place_of_copied (lugar_unico cfg s seg) (show 0 < n by omega) hcopiado
      fun m src hsrc => primero_copiado h hheap hentra hk (by omega) (by omega) (by rwa [hsrc])
    have hoff := h.lugar_inj _ _ _ hprimero hlugar
    rw [Nat.cast_zero, add_zero] at hoff
    have hnk : n ≤ k := by
      by_contra hmas
      have heq := hsiguiente (by omega)
      rw [add_mul, one_mul] at heq
      omega
    refine ⟨?_, by omega, or_iff_not_imp_left.2 fun hpasa => ?_⟩
    · rw [hoff, add_comm, Int.add_mul_ediv_right _ _ hpos.ne',
        Int.ediv_eq_zero_of_lt hmod hmod', zero_add]
    · -- The byte after the end of the page is in the next frame.
      obtain ⟨j, hj⟩ : ∃ j : ℕ, (j : ℤ) = cfg.tamanioPag - off % cfg.tamanioPag :=
        ⟨_, Int.toNat_of_nonneg (by omega)⟩
      have hbyte := place_of_copied (lugar_unico cfg s seg) (show j < n by omega) hcopiado
        (a := marcoEn s seg (paginaDatos cfg heap) * cfg.tamanioPag + off % cfg.tamanioPag + j)
        fun m src hsrc => by
          rw [copiaEnHeap, List.drop_eq_nil_iff.2 (by omega), copiaPaginas_nil,
            List.take_of_length_le (by omega), store_getElem (by omega), List.getElem?_eq_getElem]
      have hposicion : off + j = (paginaDatos cfg heap + 1) * cfg.tamanioPag := by
        rw [add_mul, one_mul]
        omega
      rw [hposicion] at hbyte
      have hlt' : paginaDatos cfg heap + 1 < seg.tablaPaginas.length := by
        obtain ⟨p, _, hp, _⟩ := hbyte
        rw [Int.mul_ediv_cancel _ hpos.ne'] at hp
        exact (lt_of_isSome_elemento (Option.isSome_of_eq_some hp)).2
      have heq := hbyte.eq (hpagina hlt')
      have hmul : (marcoEn s seg (paginaDatos cfg heap) + 1) * cfg.tamanioPag =
          marcoEn s seg (paginaDatos cfg heap + 1) * cfg.tamanioPag := by
        rw [← heq, add_mul, one_mul]
        omega
      exact (Int.eq_of_mul_eq_mul_right hpos.ne' hmul).symm

/-! ## The request -/

/-- The request gives 0 when the range is in a block of the segment that has the address, with the
bytes in its pages, and otherwise -1, with every byte as it was; whatever the memory has and
whatever the bytes are. -/
def CpyCorrecto (cfg : Configuracion) (s : Estado) (sd : ℕ) (dst : ℤ) (n : ℕ) : Prop :=
  ∀ (m : Mem) (src : List UInt8), src.length = n → ∃ r v marcas,
    Runs (musecpy cfg dst src sd) { s with memoria := m } r v marcas ∧
      (r = 0 ↔ ∃ g seg, Halla s sd dst g seg ∧ DeBloque seg (unsigned (dst - seg.baseLogica)) n) ∧
      (r = 0 → ∀ g seg, Halla s sd dst g seg →
        Copiado cfg s seg (unsigned (dst - seg.baseLogica)) src m v.memoria) ∧
      (r ≠ 0 → r = -1 ∧ v.memoria = m)

/-- For a range in a block, the first block that is taken for its destination puts it in its
place; for any other range, no block is taken for it. -/
def CopiaPosible (cfg : Configuracion) (s : Estado) (seg : Segmento) (dst n : ℤ) : Prop :=
  (DeBloque seg (unsigned (dst - seg.baseLogica)) n → ∃ heap,
    Elegido cfg s seg dst n seg.metadatas heap ∧
      EnLugar cfg s seg heap (unsigned (dst - seg.baseLogica)) n) ∧
  (¬ DeBloque seg (unsigned (dst - seg.baseLogica)) n → Ninguno cfg s seg dst n seg.metadatas)

theorem Halla.unico {g g' : ℕ} {seg' : Segmento} (h : Halla s sd dst g seg)
    (h' : Halla s sd dst g' seg') : seg = seg' := by
  obtain ⟨l, hl, hg, hseg⟩ := h
  obtain ⟨l', hl', hg', hseg'⟩ := h'
  cases hl.symm.trans hl'
  cases hg.symm.trans hg'
  exact Option.some.inj (hseg.symm.trans hseg')

theorem Elegido.mem {l : List HeapLista} (h : Elegido cfg s seg dst n l heap) : heap ∈ l := by
  obtain ⟨antes, despues, rfl, _⟩ := h
  simp

theorem conMemoria_self (s : Estado) (m : Mem) : ConMemoria s m { s with memoria := m } :=
  soloMarcas_refl _

/-- What a copy to a segment does. -/
theorem triple_copiarEnSegmento (h : Ordenado cfg s seg) {g : ℕ} (hseg : s.segmentos[g]? = some seg)
    (src : List UInt8) (hoff : off = unsigned (dst - seg.baseLogica)) :
    Triple ok (· = { s with memoria := m }) (copiarEnSegmento cfg g dst src sd) fun r v =>
      (r = -1 ∧ v.memoria = m ∧ Ninguno cfg s seg dst src.length seg.metadatas) ∨
        (r = 0 ∧ ∃ heap, Elegido cfg s seg dst src.length seg.metadatas heap ∧
          v.memoria = copiaEnHeap cfg s seg heap off src m ∧
            inicioEnPagina cfg heap off ≤ cfg.tamanioPag ∧
              RestoEnPaginas cfg seg heap off src.length) := by
  refine exec_segmento fun seg' hseg' => ?_
  cases hseg.symm.trans hseg'
  refine triple_ite (fun _ => ?_) fun hno => absurd h.comun hno
  refine exec_bind (triple_buscarHeapDestino (u := { s with memoria := m }) h rfl
    (Int.natCast_nonneg _) (List.Subset.refl _)) fun destino v hv => ?_
  obtain ⟨hv, hdestino⟩ := hv
  rw [hv]
  rcases hdestino with ⟨hnone, hno⟩ | ⟨heap, hsome, helegido⟩
  · rw [hnone]
    exact exec_pure (Or.inl ⟨rfl, rfl, hno⟩)
  · rw [hsome]
    refine triple_conseq (triple_copiarEnHeap h (conMemoria_self s m) src hoff) (fun _ hs => hs) ?_
    rintro r w ⟨hr, hw, hentra, hresto⟩
    exact Or.inr ⟨hr, heap, helegido, hw.memoria, hentra, hresto⟩

theorem runs_musecpy_of_halla {g : ℕ} (hhalla : Halla s sd dst g seg) {src : List UInt8} {r : ℤ}
    {v : Estado} {marcas : List (Estado × Suceso)} :
    Runs (musecpy cfg dst src sd) { s with memoria := m } r v marcas ↔
      Runs (copiarEnSegmento cfg g dst src sd) { s with memoria := m } r v marcas := by
  obtain ⟨l, hget, hg, _⟩ := hhalla
  have hg' : segmentoQueContieneDireccion { s with memoria := m } l dst = some g := hg
  rw [musecpy, Runs.bind_iff (runs_gets id _), id_eq]
  dsimp only
  rw [hget, Option.elim_some, hg', Option.elim_some]

theorem runs_musecpy_of_not_halla (h : ∀ g seg, ¬ Halla s sd dst g seg) (m : Mem)
    (src : List UInt8) :
    Runs (musecpy cfg dst src sd) { s with memoria := m } (-1) { s with memoria := m } [] := by
  refine (runs_gets id _).bind ?_
  rw [id_eq]
  dsimp only
  cases hget : s.tablasSegmentos.get sd with
  | none => exact runs_pure _ _
  | some l =>
      rw [Option.elim_some]
      cases hg : segmentoQueContieneDireccion { s with memoria := m } l dst with
      | none => exact runs_pure _ _
      | some g =>
          have hany := List.find?_some hg
          cases hseg : s.segmentos[g]? with
          | none =>
              rw [show ({ s with memoria := m } : Estado).segmentos[g]? = none from hseg] at hany
              cases hany
          | some seg => exact absurd ⟨l, hget, hg, hseg⟩ (h g seg)

theorem runs_copiarEnSegmento_of_elegido (h : Ordenado cfg s seg) {g : ℕ}
    (hseg : s.segmentos[g]? = some seg) {src : List UInt8}
    (helegido : Elegido cfg s seg dst src.length seg.metadatas heap) {r : ℤ} {v : Estado}
    {marcas : List (Estado × Suceso)} :
    Runs (copiarEnSegmento cfg g dst src sd) { s with memoria := m } r v marcas ↔
      Runs (copiarEnHeap cfg seg heap dst src sd) { s with memoria := m } r v marcas := by
  have hseg' : ({ s with memoria := m } : Estado).segmentos[g]? = some seg := hseg
  rw [copiarEnSegmento, Runs.bind_iff (runs_segmento hseg'), if_pos h.comun,
    Runs.bind_iff (runs_buscarHeapDestino_some (u := { s with memoria := m }) h rfl
      (Int.natCast_nonneg _) (List.Subset.refl _) helegido), Option.elim_some]

theorem runs_copiarEnSegmento_of_ninguno (h : Ordenado cfg s seg) {g : ℕ}
    (hseg : s.segmentos[g]? = some seg) {src : List UInt8}
    (hninguno : Ninguno cfg s seg dst src.length seg.metadatas) :
    Runs (copiarEnSegmento cfg g dst src sd) { s with memoria := m } (-1)
      { s with memoria := m } [] := by
  have hseg' : ({ s with memoria := m } : Estado).segmentos[g]? = some seg := hseg
  rw [copiarEnSegmento, Runs.bind_iff (runs_segmento hseg'), if_pos h.comun,
    Runs.bind_iff (runs_buscarHeapDestino_none (u := { s with memoria := m }) h rfl
      (Int.natCast_nonneg _) (List.Subset.refl _) hninguno), Option.elim_none]
  exact runs_pure _ _

/-- A range in a block is in the pages of the segment. -/
theorem DeBloque.en_paginas (h : DeBloque seg off n) (hseg : Embaldosado cfg seg) :
    off + n ≤ cfg.tamanioPag * seg.tablaPaginas.length := by
  obtain ⟨heap, hheap, _, _, hfin⟩ := h
  obtain ⟨ultimo, hultimo⟩ := List.getLast?_isSome.2 (List.ne_nil_of_mem hheap) |>
    Option.isSome_iff_exists.1
  have hle := hseg.siguiente.le_stop (fun x hx => ?_) hultimo hheap
  · have hentra := hseg.entra ultimo hultimo
    omega
  · have htam := hseg.tamanios x hx
    rw [HeapLista.fin, tamanioMetadata]
    omega

/-- The request to a segment is right when the block that is found allows it. -/
theorem cpyCorrecto_of_copiaPosible (h : Ordenado cfg s seg) {g : ℕ}
    (hhalla : Halla s sd dst g seg) {n : ℕ} (hposible : CopiaPosible cfg s seg dst n) :
    CpyCorrecto cfg s sd dst n := by
  intro m src hsrc
  have hunico : ∀ g' seg', Halla s sd dst g' seg' → seg' = seg := fun g' seg' h' =>
    (hhalla.unico h').symm
  obtain ⟨l, hget, hg, hseg⟩ := id hhalla
  by_cases hbloque : DeBloque seg (unsigned (dst - seg.baseLogica)) n
  · obtain ⟨heap, helegido, hlugar⟩ := hposible.1 hbloque
    rw [← hsrc] at helegido hlugar
    have hfin := hbloque.en_paginas h.embaldosado
    obtain ⟨hresto, hcopiado⟩ := copiado_of_enLugar (m := m) h helegido.mem hlugar
      (by rwa [hsrc])
    obtain ⟨v, hv⟩ : ∃ v, Runs (copiarEnHeap cfg seg heap dst src sd) { s with memoria := m } 0
        v [] :=
      runs_copiarEnHeap h (conMemoria_self s m) helegido.mem src rfl hlugar.1 hresto
    have htriple : Triple (fun _ _ => True) _ (copiarEnHeap cfg seg heap dst src sd) _ :=
      triple_copiarEnHeap h (conMemoria_self s m) src rfl
    have hmemoria := (htriple _ _ _ _ rfl hv fun _ _ => trivial).2.1.memoria
    refine ⟨0, v, [], (runs_musecpy_of_halla hhalla).2
      ((runs_copiarEnSegmento_of_elegido h hseg helegido).2 hv),
      ⟨fun _ => ⟨g, seg, hhalla, hbloque⟩, fun _ => rfl⟩, fun _ g' seg' h' => ?_,
      fun hne => absurd rfl hne⟩
    rw [hunico g' seg' h', hmemoria]
    exact hcopiado
  · have hninguno := hposible.2 hbloque
    rw [← hsrc] at hninguno
    refine ⟨-1, { s with memoria := m }, [], (runs_musecpy_of_halla hhalla).2
      (runs_copiarEnSegmento_of_ninguno h hseg hninguno), ⟨fun hr => absurd hr (by decide), ?_⟩,
      fun hr => absurd hr (by decide), fun _ => ⟨rfl, rfl⟩⟩
    rintro ⟨g', seg', h', hbloque'⟩
    rw [hunico g' seg' h'] at hbloque'
    exact absurd hbloque' hbloque

theorem Elegido.unico {otro : HeapLista} (h : Ordenado cfg s seg) (hn : 0 ≤ n)
    (helegido : Elegido cfg s seg dst n seg.metadatas heap)
    (hotro : Elegido cfg s seg dst n seg.metadatas otro) : heap = otro := by
  have hruns := runs_buscarHeapDestino_some h rfl hn (List.Subset.refl _) helegido
  cases hruns.symm.trans (runs_buscarHeapDestino_some h rfl hn (List.Subset.refl _) hotro)
  rfl

/-- The request to a segment is right only if the block that is found allows it. -/
theorem copiaPosible_of_cpyCorrecto (h : Ordenado cfg s seg) {g : ℕ}
    (hhalla : Halla s sd dst g seg) {n : ℕ} (hcorrecto : CpyCorrecto cfg s sd dst n) :
    CopiaPosible cfg s seg dst n := by
  have hseg := hhalla.choose_spec.2.2
  have hcaso : ∀ (m : Mem) (src : List UInt8), src.length = n →
      (DeBloque seg (unsigned (dst - seg.baseLogica)) n → ∃ heap,
        Elegido cfg s seg dst n seg.metadatas heap ∧
          Copiado cfg s seg (unsigned (dst - seg.baseLogica)) src m
            (copiaEnHeap cfg s seg heap (unsigned (dst - seg.baseLogica)) src m) ∧
          inicioEnPagina cfg heap (unsigned (dst - seg.baseLogica)) ≤ cfg.tamanioPag ∧
          RestoEnPaginas cfg seg heap (unsigned (dst - seg.baseLogica)) n) ∧
      (¬ DeBloque seg (unsigned (dst - seg.baseLogica)) n →
        Ninguno cfg s seg dst n seg.metadatas) := by
    intro m src hsrc
    obtain ⟨r, v, marcas, hr, hcero, hcopiado, _⟩ := hcorrecto m src hsrc
    have htriple : Triple (fun _ _ => True) (· = { s with memoria := m })
        (copiarEnSegmento cfg g dst src sd) _ := triple_copiarEnSegmento h hseg src rfl
    have hhecho := htriple _ _ _ _ rfl ((runs_musecpy_of_halla hhalla).1 hr) fun _ _ => trivial
    rw [hsrc] at hhecho
    refine ⟨fun hbloque => ?_, fun hfuera => ?_⟩
    · have hr0 := hcero.2 ⟨g, seg, hhalla, hbloque⟩
      rcases hhecho with ⟨hr1, _⟩ | ⟨_, heap, helegido, hmemoria, hentra, hresto⟩
      · omega
      · refine ⟨heap, helegido, ?_, hentra, hresto⟩
        rw [← hmemoria]
        exact hcopiado hr0 g seg hhalla
    · rcases hhecho with ⟨_, _, hninguno⟩ | ⟨hr0, _⟩
      · exact hninguno
      · obtain ⟨g', seg', h', hbloque⟩ := hcero.1 hr0
        rw [← hhalla.unico h'] at hbloque
        exact absurd hbloque hfuera
  have hlen : (List.replicate n (0 : UInt8)).length = n := List.length_replicate
  refine ⟨fun hbloque => ?_, (hcaso s.memoria _ hlen).2⟩
  obtain ⟨heap, helegido, _, hentra, hresto⟩ := (hcaso s.memoria _ hlen).1 hbloque
  refine ⟨heap, helegido, enLugar_of_copiado h helegido.mem hentra hresto fun m src hsrc => ?_⟩
  obtain ⟨otro, hotro, hcopiado, _⟩ := (hcaso m src hsrc).1 hbloque
  rw [helegido.unico h (Int.natCast_nonneg n) hotro]
  exact hcopiado

/-- The request does what it should if and only if the block that is found allows it. -/
theorem cpyCorrecto_iff (hordenado : ∀ g seg, Halla s sd dst g seg → Ordenado cfg s seg) (n : ℕ) :
    CpyCorrecto cfg s sd dst n ↔ ∀ g seg, Halla s sd dst g seg → CopiaPosible cfg s seg dst n := by
  constructor
  · intro h g seg hhalla
    exact copiaPosible_of_cpyCorrecto (hordenado g seg hhalla) hhalla h
  · intro h
    by_cases hay : ∃ g seg, Halla s sd dst g seg
    · obtain ⟨g, seg, hhalla⟩ := hay
      exact cpyCorrecto_of_copiaPosible (hordenado g seg hhalla) hhalla (h g seg hhalla)
    · have hno : ∀ g seg, ¬ Halla s sd dst g seg := fun g seg hs => hay ⟨g, seg, hs⟩
      intro m src _
      refine ⟨-1, _, [], runs_musecpy_of_not_halla hno m src, ⟨fun hr => absurd hr (by decide), ?_⟩,
        fun hr => absurd hr (by decide), fun _ => ⟨rfl, rfl⟩⟩
      rintro ⟨g, seg, hs, _⟩
      exact absurd hs (hno g seg)

theorem halla_conUnBloque : Halla conUnBloque 4 1048581 0 segmentoDeUnBloque :=
  ⟨[0], get_conUnBloque, by decide +kernel, by decide +kernel⟩

theorem ordenado_conUnBloque : Ordenado (unFrame 2) conUnBloque segmentoDeUnBloque where
  comun := rfl
  embaldosado :=
    { primero := rfl
      siguiente := List.isChain_singleton _
      enPaginas := by decide
      partido := by decide
      tamanios := by decide
      separados := List.pairwise_singleton _ _
      entra := fun heap h => by cases h; decide }
  conforme heap h := by
    cases List.mem_singleton.1 h
    exact ⟨by decide, fun h => by cases h⟩
  presentes := completo_conUnBloque.presentes
  distintas := by
    intro i j p q _ _ hne hi hj
    have hi' := (List.getElem?_eq_some_iff.1 hi).1
    have hj' := (List.getElem?_eq_some_iff.1 hj).1
    simp only [segmentoDeUnBloque, List.length_singleton] at hi' hj'
    omega

theorem cpyCorrecto_iff_conUnBloque : CpyCorrecto (unFrame 2) conUnBloque 4 1048581 20 := by
  refine (cpyCorrecto_iff (fun _ _ h => halla_conUnBloque.unico h ▸ ordenado_conUnBloque) 20).2
    fun g seg hhalla => ?_
  rw [← halla_conUnBloque.unico hhalla]
  have hbloque : DeBloque segmentoDeUnBloque
      (unsigned (1048581 - segmentoDeUnBloque.baseLogica)) (20 : ℕ) :=
    ⟨⟨0, false, 20, false, 5⟩, List.mem_singleton_self _, rfl, by decide, by decide⟩
  refine ⟨fun _ => ⟨⟨0, false, 20, false, 5⟩, ⟨[], [], rfl, (fun _ hx => by cases hx), by decide,
    by decide +kernel⟩, by decide +kernel⟩, fun hfuera => absurd hbloque hfuera⟩

/-- The first 4 bytes of a block of 20 bytes are not copied: no block has that size. -/
theorem not_cpyCorrecto : ¬ ∀ cfg tr s sd dst n, Alcanza cfg tr s →
    (∀ g seg, Halla s sd dst g seg → Ordenado cfg s seg) → CpyCorrecto cfg s sd dst n := by
  intro h
  have hcorrecto := h (unFrame 2) _ conUnBloque 4 1048581 4 alcanza_conUnBloque fun _ _ hs =>
    halla_conUnBloque.unico hs ▸ ordenado_conUnBloque
  have hposible := copiaPosible_of_cpyCorrecto ordenado_conUnBloque halla_conUnBloque hcorrecto
  obtain ⟨heap, helegido, _⟩ := hposible.1
    ⟨⟨0, false, 20, false, 5⟩, List.mem_singleton_self _, rfl, by decide, by decide⟩
  cases List.mem_singleton.1 helegido.mem
  obtain ⟨_, _, _, _, _, hsize, _⟩ := helegido
  exact absurd hsize (by decide)
end Muse
