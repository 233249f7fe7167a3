import Mathlib.Data.Int.ModEq
import Linuse.Muse.Segmentacion

/-!
# The sizes of the segments

The size of a segment should be the size of a page times the number of its pages, so that
every address in the segment has a page. A request that puts a header in a page that the
segment already has counts that page twice, as does a first header that is split: the
sizes are right in every state of the server if and only if no request does so
(`contabilizada_iff`).
-/

namespace Muse

open Memory Marked

variable {cfg : Configuracion} {ok : Estado → Suceso → Prop}

/-! ## A segment under construction -/

/-- The tables and the segments are those of `t`, except for this segment. -/
structure Queda (t : Estado) (g : ℕ) (seg : Segmento) (s : Estado) : Prop where
  hay : g < t.segmentos.length
  tablas : s.tablasSegmentos = t.tablasSegmentos
  segmentos : s.segmentos = t.segmentos.set g seg

/-- The header does not fit in what is left of its page. -/
def seParte (cfg : Configuracion) (ubicacionHeap : ℤ) : Prop :=
  cfg.tamanioPag - ubicacionHeap.tmod cfg.tamanioPag < tamanioMetadata

instance (cfg : Configuracion) (ubicacionHeap : ℤ) : Decidable (seParte cfg ubicacionHeap) :=
  inferInstanceAs (Decidable (_ < _))

/-- The segment with more pages at the end of its table. -/
def Segmento.conPaginas (seg : Segmento) (nuevas : List ℕ) : Segmento :=
  { seg with tablaPaginas := seg.tablaPaginas ++ nuevas }

/-- The segment with the size of some pages more. -/
def Segmento.crecido (cfg : Configuracion) (seg : Segmento) (paginas : ℤ) : Segmento :=
  { seg with tamanio := unsigned (seg.tamanio + paginas * cfg.tamanioPag) }

/-- The segment with one more header. -/
def Segmento.conHeap (seg : Segmento) (heap : HeapLista) : Segmento :=
  { seg with metadatas := seg.metadatas ++ [heap] }

variable {t s : Estado} {g : ℕ} {seg : Segmento}

theorem queda_deSegmentos (t : Estado) (g : ℕ) (seg : Segmento) : DeSegmentos (Queda t g seg) := by
  rintro s s' ht hs ⟨hay, htablas, hsegmentos⟩
  exact ⟨hay, ht.trans htablas, hs.trans hsegmentos⟩

theorem queda_self (hseg : t.segmentos[g]? = some seg) : Queda t g seg t := by
  refine ⟨(List.getElem?_eq_some_iff.1 hseg).1, rfl, ?_⟩
  obtain ⟨hlt, heq⟩ := List.getElem?_eq_some_iff.1 hseg
  rw [← heq, List.set_getElem_self]

theorem Queda.segmento (h : Queda t g seg s) : s.segmentos[g]? = some seg := by
  rw [h.segmentos, List.getElem?_set_self h.hay]

theorem Queda.modificarSegmento (h : Queda t g seg s) (f : Segmento → Segmento) :
    Queda t g (f seg) (s.modificarSegmento g f) where
  hay := h.hay
  tablas := h.tablas
  segmentos := by
    rw [Estado.modificarSegmento, h.segmentos]
    apply List.ext_getElem?
    intro i
    rw [List.getElem?_modify, List.getElem?_set, List.getElem?_set]
    split_ifs <;> simp_all

theorem triple_queda_segmento :
    Triple ok (Queda t g seg) (segmento g) fun seg' s => Queda t g seg s ∧ seg' = seg :=
  triple_conseq (triple_segmento g) (fun _ hs => hs) fun _ _ hs =>
    ⟨hs.1, Option.some.inj (hs.2.symm.trans hs.1.segmento)⟩

theorem triple_queda_modificarSegmento (f : Segmento → Segmento) :
    Triple ok (Queda t g seg) (modify fun s => s.modificarSegmento g f) fun _ =>
      Queda t g (f seg) :=
  triple_modify _ fun _ hs => hs.modificarSegmento f

/-- A new page is at the end of the table. -/
theorem triple_queda_paginaNueva : Triple ok (Queda t g seg) (paginaNueva cfg g) fun p =>
    Queda t g (seg.conPaginas [p]) := by
  have hI := queda_deSegmentos t g seg
  refine triple_bind (hI.keeps_asignarUnFrame cfg) fun f => ?_
  refine triple_bind (hI.keeps_tocarFrame _ _) fun _ => triple_read fun u => ?_
  refine triple_bind (Q := fun _ => Queda t g (seg.conPaginas [u.paginas.length]))
    (triple_modify _ ?_) fun _ => triple_pure _ fun _ hs => hs
  rintro s ⟨hs, rfl⟩
  have hpagina : Queda t g seg { s with paginas := s.paginas ++ [⟨true, f, -1⟩] } :=
    hI s _ rfl rfl hs
  exact hpagina.modificarSegmento fun seg => seg.conPaginas [s.paginas.length]

/-! ## Headers -/

/-- The second part of a header that is split is in a new page. -/
theorem triple_queda_partirMetadata (p : ℕ) (pos ubicacionHeap bytesPrimeraPagina : ℤ)
    (isFree : Bool) (size : ℤ) :
    Triple ok (Queda t g seg)
      (partirMetadata cfg g p pos ubicacionHeap bytesPrimeraPagina isFree size) fun _ s =>
        ∃ q, Queda t g (((seg.conHeap ⟨ubicacionHeap, isFree, signed size, true,
          bytesPrimeraPagina⟩).conPaginas [q]).crecido cfg 1) s := by
  refine triple_bind (triple_queda_modificarSegmento fun seg => seg.conHeap _) fun _ => ?_
  refine triple_bind (DeSegmentos.keeps_modify (queda_deSegmentos t g _) _ (fun _ => rfl)
    fun _ => rfl) fun _ => ?_
  refine triple_bind triple_queda_paginaNueva fun q => ?_
  refine triple_bind (triple_queda_modificarSegmento fun seg => seg.crecido cfg 1) fun _ => ?_
  have hI := queda_deSegmentos t g (((seg.conHeap ⟨ubicacionHeap, isFree, signed size, true,
    bytesPrimeraPagina⟩).conPaginas [q]).crecido cfg 1)
  refine triple_conseq (P := Queda t g _) (Q := fun _ => Queda t g (((seg.conHeap ⟨ubicacionHeap,
    isFree, signed size, true, bytesPrimeraPagina⟩).conPaginas [q]).crecido cfg 1)) ?_
      (fun _ hs => hs) fun _ _ hs => ⟨q, hs⟩
  refine keeps_bind (hI.keeps_obtenerPosicionMemoriaPagina cfg q) fun pos => ?_
  refine keeps_bind (hI.keeps_modify _ (fun _ => rfl) fun _ => rfl) fun _ => ?_
  exact keeps_bind (hI.keeps_obtenerPosicionMemoriaPagina cfg p) fun _ => keeps_pure _

/-- What `ubicarMetadataYHeapLista` makes of a segment. -/
def Ubicado (cfg : Configuracion) (seg : Segmento) (ubicacionHeap : ℤ) (isFree : Bool) (size : ℤ)
    (sePartio : Bool) (seg' : Segmento) : Prop :=
  if seParte cfg ubicacionHeap then
    sePartio = true ∧ ∃ q, seg' = ((seg.conHeap ⟨ubicacionHeap, isFree, signed size, true,
      cfg.tamanioPag - ubicacionHeap.tmod cfg.tamanioPag⟩).conPaginas [q]).crecido cfg 1
  else sePartio = false ∧
    seg' = seg.conHeap ⟨ubicacionHeap, isFree, signed size, false, tamanioMetadata⟩

theorem triple_queda_ubicar (ubicacionHeap : ℤ) (isFree : Bool) (size pag : ℤ) :
    Triple ok (Queda t g seg) (ubicarMetadataYHeapLista cfg g ubicacionHeap isFree size pag)
      fun sePartio s => ∃ seg', Ubicado cfg seg ubicacionHeap isFree size sePartio seg' ∧
        Queda t g seg' s := by
  have hI := queda_deSegmentos t g seg
  refine triple_bind (keeps_segmento g) fun _ => triple_bind (keeps_obtener _ _) fun p => ?_
  refine triple_bind (keeps_pagina p) fun primera => ?_
  refine triple_bind (hI.keeps_tocarFrame _ _) fun _ => ?_
  refine triple_bind (hI.keeps_obtenerPosicionMemoriaPagina cfg p) fun pos => ?_
  refine triple_ite (fun hparte => ?_) fun hentera => ?_
  · refine triple_bind (triple_queda_partirMetadata p _ _ _ isFree size) fun _ =>
      triple_pure _ fun s hs => ?_
    obtain ⟨q, hq⟩ := hs
    refine ⟨_, ?_, hq⟩
    rw [Ubicado, if_pos (show seParte cfg ubicacionHeap from hparte)]
    exact ⟨rfl, q, rfl⟩
  · refine triple_bind (triple_queda_modificarSegmento fun seg => seg.conHeap _) fun _ => ?_
    refine triple_bind (DeSegmentos.keeps_modify (queda_deSegmentos t g _) _ (fun _ => rfl)
      fun _ => rfl) fun _ => triple_pure _ fun s hs => ⟨_, ?_, hs⟩
    rw [Ubicado, if_neg (show ¬ seParte cfg ubicacionHeap from hentera)]
    exact ⟨rfl, rfl⟩

/-! ## Pages that are counted twice -/

/-- The size counts some pages that the table does not have, as far as its field tells. -/
def Excede (cfg : Configuracion) (seg : Segmento) (paginas : ℤ) : Prop :=
  seg.tamanio ≡ (seg.tablaPaginas.length + paginas) * cfg.tamanioPag [ZMOD 4294967296]

theorem Excede.conPaginas {e : ℤ} (h : Excede cfg seg e) (nuevas : List ℕ) :
    Excede cfg (seg.conPaginas nuevas) (e - nuevas.length) := by
  rw [Excede, Segmento.conPaginas, List.length_append]
  have heq : ((seg.tablaPaginas.length + nuevas.length : ℕ) : ℤ) + (e - nuevas.length) =
      seg.tablaPaginas.length + e := by
    push_cast
    ring
  rw [heq]
  exact h

theorem Excede.crecido {e : ℤ} (h : Excede cfg seg e) (paginas : ℤ) :
    Excede cfg (seg.crecido cfg paginas) (e + paginas) := by
  rw [Excede, Segmento.crecido, ← add_assoc, add_mul]
  exact (Int.mod_modEq _ _).trans (h.add_right _)

theorem Excede.conHeap {e : ℤ} (h : Excede cfg seg e) (heap : HeapLista) :
    Excede cfg (seg.conHeap heap) e := h

/-- A header that is split adds a page and its size. -/
theorem Excede.ubicado {e ubicacionHeap size : ℤ} {isFree sePartio : Bool} {seg' : Segmento}
    (h : Excede cfg seg e) (hseg : Ubicado cfg seg ubicacionHeap isFree size sePartio seg') :
    Excede cfg seg' e := by
  rw [Ubicado] at hseg
  split_ifs at hseg with hparte
  · obtain ⟨_, q, rfl⟩ := hseg
    have hcrecido := ((h.conHeap ⟨ubicacionHeap, isFree, signed size, true,
      cfg.tamanioPag - ubicacionHeap.tmod cfg.tamanioPag⟩).conPaginas [q]).crecido 1
    rwa [List.length_singleton, Nat.cast_one, sub_add_cancel] at hcrecido
  · obtain ⟨_, rfl⟩ := hseg
    exact h.conHeap _

/-- A segment with a page counted twice, or some, does not have the size of its pages. -/
theorem Excede.ne {e : ℤ} (h : Excede cfg seg e) (hpos : 0 < e)
    (hlt : e * cfg.tamanioPag < 4294967296) :
    seg.tamanio ≠ seg.tablaPaginas.length * cfg.tamanioPag := by
  intro heq
  rw [Excede, heq, add_mul] at h
  have hdvd := (Int.modEq_iff_dvd.1 h)
  rw [add_sub_cancel_left] at hdvd
  have hpag := cfg.positivo
  have hmul : 0 < e * cfg.tamanioPag := Int.mul_pos hpos (by omega)
  exact absurd (Int.le_of_dvd hmul hdvd) (by omega)

/-- The segment of a server at work whose size counts some pages that the table does not have. -/
def Midiendo (cfg : Configuracion) (t : Estado) (g : ℕ) (e : ℤ) (s : Estado) : Prop :=
  ∃ seg, Excede cfg seg e ∧ Queda t g seg s

/-- A computation that is known segment by segment. -/
theorem triple_midiendo {α : Type} {c : Codigo α} {e : ℤ} {R : α → Estado → Prop}
    (h : ∀ seg, Excede cfg seg e → Triple ok (Queda t g seg) c R) :
    Triple ok (Midiendo cfg t g e) c R := by
  rintro s a s' marcas ⟨seg, hseg, hs⟩ hr hok
  exact h seg hseg s a s' marcas hs hr hok

theorem triple_midiendo_crecer {e : ℤ} (paginas : ℤ) :
    Triple ok (Midiendo cfg t g e) (crecer cfg g paginas) fun _ =>
      Midiendo cfg t g (e + paginas) :=
  triple_midiendo fun _ hseg => triple_conseq
    (triple_queda_modificarSegmento fun seg => seg.crecido cfg paginas) (fun _ hs => hs)
      fun _ _ hs => ⟨_, hseg.crecido paginas, hs⟩

theorem triple_midiendo_ultima {e : ℤ} (tamanio : ℤ) :
    Triple ok (Midiendo cfg t g e) (asignarUltimaPaginaSegmento cfg g tamanio) fun _ =>
      Midiendo cfg t g (e + 1) := by
  refine triple_midiendo fun seg hseg => ?_
  refine triple_bind (keeps_segmento g) fun _ => triple_bind (keeps_obtener _ _) fun p => ?_
  refine triple_bind (keeps_pagina p) fun pag => ?_
  refine triple_bind (triple_queda_ubicar _ _ _ _) fun sePartio => ?_
  refine triple_conseq (triple_midiendo_crecer (e := e) 1) ?_ fun _ _ hs => hs
  rintro s ⟨seg', hubicado, hs⟩
  exact ⟨seg', hseg.ubicado hubicado, hs⟩

theorem keeps_midiendo_nuevaPagina {e : ℤ} :
    Keeps ok (Midiendo cfg t g e) (asignarNuevaPagina cfg g) := by
  refine triple_bind (Q := fun _ => Midiendo cfg t g (e - 1)) ?_ fun _ => ?_
  · exact triple_midiendo fun _ hseg => triple_conseq triple_queda_paginaNueva (fun _ hs => hs)
      fun p _ hs => ⟨_, hseg.conPaginas [p], hs⟩
  · refine triple_conseq (triple_midiendo_crecer 1) (fun _ hs => hs) fun _ _ hs => ?_
    rwa [sub_add_cancel] at hs

/-- How many pages the loop that gives `n` pages for some bytes may count twice: one at least
when it has to reach the end, and one only when the pages are no more than the bytes need. -/
structure Repetidas (cfg : Configuracion) (n : ℕ) (bytes : ℤ) (k : ℕ) : Prop where
  le : k ≤ n
  alguna : 0 < n → bytes ≤ n * cfg.tamanioPag → 0 < k
  una : ((n : ℤ) - 1) * cfg.tamanioPag < bytes → k ≤ 1

theorem triple_midiendo_asignarPaginas {e : ℤ} (n : ℕ) (bytes : ℤ) :
    Triple ok (Midiendo cfg t g e) (asignarPaginas cfg g n bytes) fun _ s =>
      ∃ k : ℕ, Repetidas cfg n bytes k ∧ Midiendo cfg t g (e + k) s := by
  have hpos := cfg.positivo
  induction n generalizing e bytes with
  | zero =>
      refine triple_pure _ fun s hs => ⟨0, ⟨le_rfl, fun h => absurd h (lt_irrefl 0),
        fun _ => Nat.zero_le 1⟩, ?_⟩
      rwa [Nat.cast_zero, add_zero]
  | succ n ih =>
      refine triple_ite (fun hlt => ?_) fun hle => ?_
      · refine triple_bind keeps_midiendo_nuevaPagina fun _ =>
          triple_conseq (ih _) (fun _ hs => hs) ?_
        rintro _ s ⟨k, hk, hs⟩
        refine ⟨k, ⟨le_trans hk.le n.le_succ, fun _ hbytes => hk.alguna ?_ ?_, fun hbytes =>
          hk.una ?_⟩, hs⟩
        · by_contra hn
          have hzero : n = 0 := by omega
          subst hzero
          push_cast at hbytes
          omega
        · push_cast at hbytes
          rw [add_mul] at hbytes
          omega
        · push_cast at hbytes
          rw [sub_mul]
          rw [add_sub_cancel_right] at hbytes
          omega
      · refine triple_bind (triple_midiendo_ultima bytes) fun _ =>
          triple_conseq (ih _) (fun _ hs => hs) ?_
        rintro _ s ⟨k, hk, hs⟩
        refine ⟨k + 1, ⟨Nat.succ_le_succ hk.le, fun _ _ => k.succ_pos, fun hbytes => ?_⟩, ?_⟩
        · -- The bytes fit in a page, so that no other is left.
          have hn : n = 0 := by
            by_contra hn
            have hmul := Int.mul_le_mul_of_nonneg_right (show (1 : ℤ) ≤ n by omega)
              (Int.natCast_nonneg cfg.tamanioPag)
            push_cast at hbytes
            rw [add_sub_cancel_right] at hbytes
            omega
          have hle := hk.le
          omega
        · rwa [add_assoc, add_comm (1 : ℤ), ← Nat.cast_succ] at hs

/-! ## The first segment -/

/-- The size is that of the pages, so that every address in the segment has a page. -/
structure Contabilizado (cfg : Configuracion) (seg : Segmento) : Prop where
  tamanio : seg.tamanio = seg.tablaPaginas.length * cfg.tamanioPag
  conPagina : ∀ dir, unsigned (dir - seg.baseLogica) < seg.tamanio →
    (elemento seg.tablaPaginas (unsigned (dir - seg.baseLogica) / cfg.tamanioPag)).isSome

theorem contabilizado_of_tamanio (h : seg.tamanio = seg.tablaPaginas.length * cfg.tamanioPag) :
    Contabilizado cfg seg where
  tamanio := h
  conPagina dir hlt := by
    have hpos := cfg.positivo
    have hcero : 0 ≤ unsigned (dir - seg.baseLogica) := by
      rw [unsigned]
      omega
    have hlt' := Int.ediv_lt_of_lt_mul (by omega) (h ▸ hlt)
    have hdiv : 0 ≤ unsigned (dir - seg.baseLogica) / (cfg.tamanioPag : ℤ) :=
      Int.ediv_nonneg hcero (by omega)
    rw [elemento, if_neg (by omega), List.getElem?_eq_getElem (by omega)]
    rfl

theorem not_contabilizado_of_midiendo {e : ℤ} (h : Excede cfg seg e) (hpos : 0 < e)
    (hlt : e * cfg.tamanioPag < 4294967296) : ¬ Contabilizado cfg seg :=
  fun hseg => h.ne hpos hlt hseg.tamanio

/-- The first header is split only when a page is smaller than it, and then the size counts
three pages. -/
theorem triple_queda_primera (tamanio : ℤ) (hP : cfg.tamanioPag < 4294967296)
    (htam : seg.tamanio = 0) (htabla : seg.tablaPaginas = []) :
    Triple ok (Queda t g seg) (asignarPrimeraPaginaSegmento cfg g tamanio) fun sePartio s =>
      (cfg.tamanioPag < 5 ∧ sePartio = true ∧ Midiendo cfg t g 1 s) ∨
      (5 ≤ cfg.tamanioPag ∧ sePartio = false ∧ ∃ seg', Excede cfg seg' 0 ∧
        Contabilizado cfg seg' ∧ Queda t g seg' s) := by
  have hexcede : Excede cfg seg 0 := by
    rw [Excede, htam, htabla]
    simp
  refine triple_bind triple_queda_paginaNueva fun q => triple_bind (keeps_pagina q) fun pag => ?_
  refine triple_bind (keeps_segmento g) fun seg' => triple_bind (keeps_gets _) fun s => ?_
  refine triple_bind (triple_queda_ubicar _ _ _ _) fun sePartio => ?_
  have hparte : ∀ i : ℤ, seParte cfg (i * cfg.tamanioPag) ↔ cfg.tamanioPag < 5 := by
    intro i
    rw [seParte, Int.mul_tmod_left, tamanioMetadata]
    omega
  refine triple_of_forall fun u hu => ?_
  obtain ⟨seg₁, hubicado, hu⟩ := hu
  have hmidiendo := (hexcede.conPaginas [q]).ubicado hubicado
  rw [Ubicado] at hubicado
  simp only [hparte] at hubicado
  split_ifs at hubicado with h5
  · obtain ⟨rfl, _⟩ := hubicado
    refine exec_bind (Q := fun _ => Midiendo cfg t g 1) ?_ fun _ s hs => exec_pure
      (Or.inl ⟨h5, rfl, hs⟩)
    refine triple_conseq (triple_midiendo_crecer (e := -1) 2) ?_ fun _ _ hs => hs
    rintro s rfl
    exact ⟨seg₁, hmidiendo, hu⟩
  · obtain ⟨rfl, hseg₁⟩ := hubicado
    refine exec_modify (exec_pure (Or.inr ⟨not_lt.1 h5, rfl, seg₁.crecido cfg 1, ?_, ?_,
      hu.modificarSegmento fun seg => seg.crecido cfg 1⟩))
    · exact hmidiendo.crecido 1
    · refine contabilizado_of_tamanio ?_
      rw [hseg₁, Segmento.crecido, Segmento.conHeap, Segmento.conPaginas, htabla, htam,
        unsigned_eq_self]
      · simp
      · simp
      · simp only [zero_add, one_mul]
        omega

/-- The segment with its last header changed. -/
def Segmento.conUltimoHeap (seg : Segmento) (f : HeapLista → HeapLista) : Segmento :=
  { seg with metadatas := seg.metadatas.modify (seg.metadatas.length - 1) f }

theorem Queda.modificarUltimoHeap (h : Queda t g seg s) (f : HeapLista → HeapLista) :
    Queda t g (seg.conUltimoHeap f) (s.modificarUltimoHeap g f) :=
  h.modificarSegmento fun seg => seg.conUltimoHeap f

/-- The size does not depend on the headers. -/
theorem Contabilizado.conUltimoHeap (h : Contabilizado cfg seg) (f : HeapLista → HeapLista) :
    Contabilizado cfg (seg.conUltimoHeap f) := ⟨h.tamanio, h.conPagina⟩

theorem keeps_midiendo_modificarUltimoHeap {e : ℤ} (f : HeapLista → HeapLista) :
    Keeps ok (Midiendo cfg t g e) (modify fun s => s.modificarUltimoHeap g f) := by
  refine keeps_modify _ ?_
  rintro s ⟨seg, hseg, hs⟩
  exact ⟨seg.conUltimoHeap f, hseg, hs.modificarUltimoHeap f⟩

theorem paginasPara_le_iff (cfg : Configuracion) (bytes : ℤ) (n : ℤ) :
    paginasPara cfg bytes ≤ n ↔ bytes ≤ n * cfg.tamanioPag := by
  have hpos := cfg.positivo
  rw [paginasPara, neg_le, Int.le_ediv_iff_mul_le (by omega), neg_mul, neg_le_neg_iff]

theorem exists_paginasPara (cfg : Configuracion) {bytes : ℤ} (h : 0 < bytes) :
    ∃ k : ℕ, paginasPara cfg bytes = k + 1 ∧ k * cfg.tamanioPag < bytes ∧
      bytes ≤ (k + 1) * cfg.tamanioPag := by
  have hmas := mt (paginasPara_le_iff cfg bytes 0).1 (by omega)
  have hk : paginasPara cfg bytes = (paginasPara cfg bytes - 1).toNat + 1 := by omega
  refine ⟨_, hk, ?_, (paginasPara_le_iff cfg bytes _).1 hk.le⟩
  by_contra hle
  have hle' := (paginasPara_le_iff cfg bytes _).2 (not_lt.1 hle)
  omega

/-- The state with one segment more. -/
def ConSegmento (cfg : Configuracion) (t : Estado) (bien : Prop) (s : Estado) : Prop :=
  ∃ seg, s.segmentos = t.segmentos ++ [seg] ∧ (Contabilizado cfg seg ↔ bien)

theorem Queda.agregado {nuevo : Segmento}
    (h : Queda (t.agregarSegmento nuevo) t.segmentos.length seg s) :
    s.segmentos = t.segmentos ++ [seg] := by
  rw [h.segmentos, Estado.agregarSegmento, List.set_append_right _ _ le_rfl]
  simp

/-- What is left of `crearSegmento` after the first page. -/
theorem triple_restoDeSegmento {nuevo : Segmento} {e : ℤ} (f : HeapLista → HeapLista) (n : ℕ)
    (bytes : ℤ) (sd : ℕ) (l : List ℕ) :
    Triple ok (Midiendo cfg (t.agregarSegmento nuevo) t.segmentos.length e) (do
      modify fun s => s.modificarUltimoHeap t.segmentos.length f
      asignarPaginas cfg t.segmentos.length n bytes
      modify fun s => s.ponerTabla sd l
      return t.segmentos.length) fun _ s =>
        ∃ k seg, Repetidas cfg n bytes k ∧ s.segmentos = t.segmentos ++ [seg] ∧
          Excede cfg seg (e + k) := by
  refine triple_bind (keeps_midiendo_modificarUltimoHeap f) fun _ => ?_
  refine triple_bind (triple_midiendo_asignarPaginas n bytes) fun _ => ?_
  refine triple_bind (Q := fun _ s => ∃ k seg, Repetidas cfg n bytes k ∧
      s.segmentos = t.segmentos ++ [seg] ∧ Excede cfg seg (e + k)) (triple_modify _ ?_)
    fun _ => triple_pure _ fun _ hs => hs
  rintro s ⟨k, hk, seg, hseg, hs⟩
  exact ⟨k, seg, hk, hs.agregado, hseg⟩

/-- The same when no page is left to give. -/
theorem triple_restoSinPaginas {nuevo : Segmento} (f : HeapLista → HeapLista) {n : ℕ}
    (hn : n = 0) (bytes : ℤ) (sd : ℕ) (l : List ℕ) :
    Triple ok (Queda (t.agregarSegmento nuevo) t.segmentos.length seg) (do
      modify fun s => s.modificarUltimoHeap t.segmentos.length f
      asignarPaginas cfg t.segmentos.length n bytes
      modify fun s => s.ponerTabla sd l
      return t.segmentos.length) fun _ s =>
        s.segmentos = t.segmentos ++ [seg.conUltimoHeap f] := by
  subst hn
  refine triple_bind (Q := fun _ => Queda (t.agregarSegmento nuevo) t.segmentos.length
    (seg.conUltimoHeap f)) (triple_modify _ fun s hs => hs.modificarUltimoHeap f) fun _ => ?_
  refine triple_bind (keeps_pure ()) fun _ => ?_
  exact triple_bind (Q := fun _ s => s.segmentos = t.segmentos ++ [seg.conUltimoHeap f])
    (triple_modify _ fun s hs => hs.agregado) fun _ => triple_pure _ fun _ hs => hs

/-- The first segment of a process has the size of its pages if and only if it has one page, with
its header. -/
theorem triple_crearSegmento_medidas (sd : ℕ) (tamanio : ℤ) (hP : cfg.tamanioPag < 2147483648)
    (hget : t.tablasSegmentos.get sd = some []) :
    Triple ok (· = t) (crearSegmento cfg tamanio sd) fun _ => ConSegmento cfg t
      (5 ≤ cfg.tamanioPag ∧ unsigned (tamanio + 2 * tamanioMetadata) ≤ cfg.tamanioPag) := by
  have hpos := cfg.positivo
  set x := unsigned (tamanio + 2 * tamanioMetadata) with hx
  have hcampo : 0 ≤ x ∧ x < 4294967296 := by
    rw [hx, unsigned]
    omega
  have hsigned : signed x ≤ x := by
    rw [signed]
    omega
  have htecho : x ≤ paginasPara cfg x * cfg.tamanioPag := (paginasPara_le_iff cfg x _).1 le_rfl
  have hbajo : (paginasPara cfg x - 1) * cfg.tamanioPag < x := by
    by_contra hle
    have hle' := (paginasPara_le_iff cfg x _).2 (not_lt.1 hle)
    omega
  have hpaginas : ∀ e : ℤ, e ≤ paginasPara cfg x - 1 → e * cfg.tamanioPag < 4294967296 := by
    intro e he
    have hle := Int.mul_le_mul_of_nonneg_right he (Int.natCast_nonneg cfg.tamanioPag)
    omega
  refine exec_gets (triple_orFail_bind fun segmentosProceso hl => ?_)
  cases hget.symm.trans hl
  refine exec_bind (Q := fun _ s => s = t) ?_ ?_
  · rw [baseNueva, if_pos rfl]
    exact exec_pure rfl
  intro base s hs
  rw [hs]
  refine exec_modify ?_
  set nuevo : Segmento := ⟨true, none, ([] : List ℕ).length, base, 0, [], 0, []⟩
  have hqueda : Queda (t.agregarSegmento nuevo) t.segmentos.length nuevo
      (t.agregarSegmento nuevo) := queda_self (by simp [Estado.agregarSegmento])
  refine exec_bind (triple_conseq (triple_queda_primera (signed tamanio) (by omega) rfl rfl)
    (fun s hs => by rw [hs]; exact hqueda) fun _ _ hs => hs) fun sePartio s hs => ?_
  rcases hs with ⟨h5, rfl, hs⟩ | ⟨h5, rfl, seg, hexcede, hseg, hs⟩
  · refine triple_conseq (triple_restoDeSegmento _ _ _ sd _) (fun u hu => by rw [hu]; exact hs) ?_
    rintro _ u ⟨k, seg, hrepetidas, hu, hseg⟩
    have hk := hrepetidas.le
    simp only [if_true, ← hx] at hk
    refine ⟨seg, hu, iff_of_false (not_contabilizado_of_midiendo hseg (by omega) ?_) fun h => ?_⟩
    · by_cases hk0 : k = 0
      · subst hk0
        simp only [Nat.cast_zero, add_zero, one_mul]
        omega
      · exact hpaginas _ (by omega)
    · omega
  · by_cases hcorta : x ≤ cfg.tamanioPag
    · have hle := (paginasPara_le_iff cfg x 1).2 (by omega)
      refine triple_conseq (triple_restoSinPaginas _ ?_ _ sd _)
        (fun u hu => by rw [hu]; exact hs) ?_
      · simp only [Bool.false_eq_true, if_false, ← hx]
        omega
      · exact fun _ u hu => ⟨_, hu, iff_of_true (hseg.conUltimoHeap _) ⟨h5, hcorta⟩⟩
    · have hgt := mt (paginasPara_le_iff cfg x 1).1 (by omega)
      refine triple_conseq (triple_restoDeSegmento _ _ _ sd _)
        (fun u hu => by rw [hu]; exact ⟨seg, hexcede, hs⟩) ?_
      rintro _ u ⟨k, seg, hrepetidas, hu, hseg⟩
      simp only [Bool.false_eq_true, if_false, one_mul, ← hx] at hrepetidas
      have hk := hrepetidas.le
      have hk0 : 0 < k := by
        refine hrepetidas.alguna (by omega) ?_
        rw [Int.toNat_of_nonneg (by omega), sub_mul, one_mul]
        omega
      refine ⟨seg, hu, iff_of_false (not_contabilizado_of_midiendo hseg (by omega) ?_) fun h => ?_⟩
      · exact hpaginas _ (by omega)
      · exact hcorta h.2

/-! ## The next blocks -/

/-- A free block is found for the request. -/
def Reutilizable (s : Estado) (segmentosProceso : List ℕ) (tamanio : ℤ) : Prop :=
  ∃ g seg, buscarSegmentoConTamanioDisponible s segmentosProceso
      (signed (tamanio + tamanioMetadata)) = some g ∧ s.segmentos[g]? = some seg ∧
    ∃ heap ∈ seg.metadatas, heap.isFree = true ∧ tamanio ≤ unsigned heap.size

/-- The bytes that `extenderSegmento` adds after the last block. -/
def bytesAAgregar (ultimo : HeapLista) (tamanio : ℤ) : ℤ :=
  signed (tamanio + tamanioMetadata) - if ultimo.isFree then ultimo.size else 0

/-- The segments and their tables are the same. -/
def MismosSegmentos (t s : Estado) : Prop :=
  s.tablasSegmentos = t.tablasSegmentos ∧ s.segmentos = t.segmentos

theorem mismosSegmentos_deSegmentos (t : Estado) : DeSegmentos (MismosSegmentos t) := by
  rintro s s' ht hs ⟨htablas, hsegmentos⟩
  exact ⟨ht.trans htablas, hs.trans hsegmentos⟩

/-- A block is reused when one is found, and then no segment changes. -/
theorem triple_reutilizar (segmentosProceso : List ℕ) (tamanio : ℤ) :
    Triple ok (· = t) (reutilizar cfg segmentosProceso tamanio) fun direccion s =>
      MismosSegmentos t s ∧
        (direccion.isSome = true ↔ Reutilizable t segmentosProceso tamanio) := by
  refine exec_gets (triple_elim (fun hnone => exec_pure ⟨⟨rfl, rfl⟩, ?_⟩) fun g hg => ?_)
  · refine iff_of_false (by simp) ?_
    rintro ⟨g, seg, hg, _⟩
    cases hnone.symm.trans hg
  · refine exec_bind (triple_segmento g) ?_
    intro seg s hs
    obtain ⟨hs, hseg⟩ := hs
    rw [hs] at hseg ⊢
    refine triple_elim (fun hnone => exec_pure ⟨⟨rfl, rfl⟩, ?_⟩) fun heap hheap => ?_
    · refine iff_of_false (by simp) ?_
      rintro ⟨g', seg', hg', hseg', heap, hmem, hlibre⟩
      cases hg.symm.trans hg'
      cases hseg.symm.trans hseg'
      exact absurd hlibre (by simpa using List.find?_eq_none.1 hnone heap hmem)
    · have hlibre : heap.isFree = true ∧ tamanio ≤ unsigned heap.size := by
        simpa using List.find?_some hheap
      refine triple_bind (triple_conseq (keeps_direccionDatos (fun p =>
        (mismosSegmentos_deSegmentos t).keeps_obtenerPosicionMemoriaPagina cfg p) g heap)
          (fun u hu => by rw [hu]; exact ⟨rfl, rfl⟩) fun _ _ hs => hs) fun _ => ?_
      exact triple_pure _ fun s hs => ⟨hs, iff_of_true rfl
        ⟨g, seg, hg, hseg, heap, List.mem_of_find?_eq_some hheap, hlibre⟩⟩

/-- The segment in this place has another value, the others have the one they had. -/
def ConCambio (cfg : Configuracion) (t : Estado) (g : ℕ) (bien : Prop) (s : Estado) : Prop :=
  ∃ seg, Queda t g seg s ∧ (Contabilizado cfg seg ↔ bien)

/-- An extension keeps the size of the pages if and only if it adds no bytes. -/
theorem triple_extenderSegmento_medidas (tamanio : ℤ) (hP : cfg.tamanioPag < 2147483648)
    (hseg : Contabilizado cfg seg) :
    Triple ok (Queda t g seg) (extenderSegmento cfg g tamanio) fun _ => ConCambio cfg t g
      (∀ ultimo, elemento seg.metadatas (seg.metadatas.length - 1) = some ultimo →
        bytesAAgregar ultimo tamanio ≤ 0) := by
  have hpos := cfg.positivo
  refine triple_bind triple_queda_segmento fun seg' => ?_
  refine triple_assume fun heq => ?_
  subst heq
  refine triple_bind (triple_obtener _ _) fun ultimo => triple_assume fun hultimo => ?_
  have hbien : (∀ ultimo, elemento seg'.metadatas (seg'.metadatas.length - 1) = some ultimo →
      bytesAAgregar ultimo tamanio ≤ 0) ↔ bytesAAgregar ultimo tamanio ≤ 0 := by
    constructor
    · exact fun h => h ultimo hultimo
    · intro h ultimo' hultimo'
      cases hultimo.symm.trans hultimo'
      exact h
  rw [hbien]
  change Triple ok _ (modify _ >>= fun _ => asignarPaginas cfg g
    (paginasPara cfg (bytesAAgregar ultimo tamanio)).toNat (bytesAAgregar ultimo tamanio)) _
  have htecho := (paginasPara_le_iff cfg (bytesAAgregar ultimo tamanio) _).1 le_rfl
  have hbajo := mt (paginasPara_le_iff cfg (bytesAAgregar ultimo tamanio)
    (paginasPara cfg (bytesAAgregar ultimo tamanio) - 1)).2 (by omega)
  refine triple_bind (Q := fun _ => Queda t g (seg'.conUltimoHeap fun heap =>
    { heap with size := signed tamanio, isFree := false }))
      (triple_modify _ fun s hs => hs.modificarUltimoHeap _) fun _ => ?_
  by_cases hbytes : bytesAAgregar ultimo tamanio ≤ 0
  · have hcero := (paginasPara_le_iff cfg (bytesAAgregar ultimo tamanio) 0).2 (by omega)
    rw [Int.toNat_of_nonpos hcero]
    exact triple_pure _ fun s hs => ⟨_, hs, iff_of_true (hseg.conUltimoHeap _) hbytes⟩
  · have hmas := mt (paginasPara_le_iff cfg (bytesAAgregar ultimo tamanio) 0).1 (by omega)
    have hexcede : Excede cfg seg' 0 := by
      rw [Excede, add_zero, hseg.tamanio]
    refine triple_conseq (triple_midiendo_asignarPaginas _ _)
      (fun s hs => ⟨seg'.conUltimoHeap _, hexcede, hs⟩) ?_
    rintro _ s ⟨k, hk, seg'', hseg'', hs⟩
    have hn : (((paginasPara cfg (bytesAAgregar ultimo tamanio)).toNat : ℕ) : ℤ) =
      paginasPara cfg (bytesAAgregar ultimo tamanio) := Int.toNat_of_nonneg (by omega)
    have hk0 := hk.alguna (by omega) (by rw [hn]; exact htecho)
    have hk1 := hk.una (by rw [hn]; omega)
    refine ⟨seg'', hs, iff_of_false (not_contabilizado_of_midiendo hseg'' (by omega) ?_) hbytes⟩
    have hone : k = 1 := by omega
    subst hone
    simp only [Nat.cast_one, zero_add, one_mul]
    omega

/-! ## A request for a block -/

/-- Every segment has the size of its pages. -/
def Contabilizada (cfg : Configuracion) (s : Estado) : Prop :=
  ∀ (g : ℕ) (seg : Segmento), s.segmentos[g]? = some seg → Contabilizado cfg seg

/-- The request puts no header in a page that the segment already has, and does not split the
first one: the first block fits with two headers in a page that is not smaller than a header, and
another one is a free block that is found or adds no bytes. -/
def SinCierre (cfg : Configuracion) (s : Estado) (sd : ℕ) (tamanio : ℤ) : Prop :=
  ∀ segmentos, s.tablasSegmentos.get sd = some segmentos →
    (segmentos = [] → 5 ≤ cfg.tamanioPag ∧
      unsigned (tamanio + 2 * tamanioMetadata) ≤ cfg.tamanioPag) ∧
    (segmentos ≠ [] → Reutilizable s segmentos tamanio ∨
      ∀ g ∈ segmentos, ∀ seg ultimo, s.segmentos[g]? = some seg →
        elemento seg.metadatas (seg.metadatas.length - 1) = some ultimo →
          bytesAAgregar ultimo tamanio ≤ 0)

theorem ConSegmento.medida_iff {bien : Prop} (h : ConSegmento cfg t bien s)
    (ht : Contabilizada cfg t) : Contabilizada cfg s ↔ bien := by
  obtain ⟨seg, hsegmentos, hbien⟩ := h
  rw [← hbien]
  constructor
  · intro hs
    exact hs t.segmentos.length seg (by rw [hsegmentos]; simp)
  · intro hseg g seg' hg
    rw [hsegmentos, List.getElem?_append] at hg
    split_ifs at hg with hlt
    · exact ht g seg' hg
    · rw [List.getElem?_singleton] at hg
      split_ifs at hg
      cases hg
      exact hseg

theorem ConCambio.medida_iff {bien : Prop} (h : ConCambio cfg t g bien s)
    (ht : Contabilizada cfg t) : Contabilizada cfg s ↔ bien := by
  obtain ⟨seg, hqueda, hbien⟩ := h
  rw [← hbien]
  constructor
  · exact fun hs => hs g seg hqueda.segmento
  · intro hseg g' seg' hg
    rw [hqueda.segmentos, List.getElem?_set] at hg
    split_ifs at hg with heq hlt
    · cases hg
      exact hseg
    · exact ht g' seg' hg

/-- The next block of a process with one segment keeps the sizes if and only if it is a free one
or adds no bytes. -/
theorem triple_enSegmentos_medidas (sd : ℕ) (tamanio : ℤ) (hP : cfg.tamanioPag < 2147483648)
    (hseg : t.segmentos[g]? = some seg) (hrasgo : (rasgos t)[g]? = some (0, true))
    (ht : Contabilizada cfg t) :
    Triple ok (· = t) (enSegmentos cfg [g] tamanio sd) fun _ s => Contabilizada cfg s ↔
      Reutilizable t [g] tamanio ∨ ∀ ultimo,
        elemento seg.metadatas (seg.metadatas.length - 1) = some ultimo →
          bytesAAgregar ultimo tamanio ≤ 0 := by
  refine exec_bind (triple_reutilizar [g] tamanio) fun direccion u hu => ?_
  obtain ⟨⟨htablas, hsegmentos⟩, hreutilizable⟩ := hu
  have hqueda : Queda t g seg u :=
    queda_deSegmentos t g seg t u htablas hsegmentos (queda_self hseg)
  refine triple_elim (fun hnone => ?_) fun p hp => ?_
  · have hno : ¬ Reutilizable t [g] tamanio := by
      rw [← hreutilizable, hnone]
      simp
    refine exec_bind (triple_conseq (triple_and (Invariante.keeps_buscarExtendible
      (I := Queda t g seg) [g] (signed tamanio) [0])
        (triple_buscarExtendible_unSegmento g (signed tamanio))) (fun s hs => ?_) fun _ _ hs => hs)
          fun extendible v hv => ?_
    · rw [hs]
      exact ⟨hqueda, by rw [rasgos, hsegmentos]; exact hrasgo⟩
    · rw [hv.2, Option.elim_some]
      refine triple_conseq (P := Queda t g seg) ?_ (fun s hs => by rw [hs]; exact hv.1)
        fun _ _ hs => hs
      refine triple_bind (triple_extenderSegmento_medidas tamanio hP (ht g seg hseg)) fun _ => ?_
      refine triple_of_forall fun w hw => ?_
      have hbien := (hw.medida_iff ht).trans (or_iff_right hno).symm
      refine triple_conseq (P := MismosSegmentos w) (Q := fun _ => MismosSegmentos w) ?_
        (fun s hs => by rw [hs]; exact ⟨rfl, rfl⟩) fun _ s hs => ?_
      · refine keeps_bind (keeps_segmento g) fun _ => keeps_bind (keeps_obtener _ _) fun heap => ?_
        exact keeps_direccionDatos (fun p =>
          (mismosSegmentos_deSegmentos w).keeps_obtenerPosicionMemoriaPagina cfg p) g heap
      · rw [Contabilizada, hs.2]
        exact hbien
  · refine exec_pure (iff_of_true ?_ (Or.inl (hreutilizable.1 (by rw [hp]; rfl))))
    rw [Contabilizada, hsegmentos]
    exact ht

theorem triple_enPrimerSegmento_medidas (sd : ℕ) (tamanio : ℤ) (hP : cfg.tamanioPag < 2147483648)
    (hget : t.tablasSegmentos.get sd = some []) (ht : Contabilizada cfg t) :
    Triple ok (· = t) (enPrimerSegmento cfg tamanio sd) fun _ s => Contabilizada cfg s ↔
      5 ≤ cfg.tamanioPag ∧ unsigned (tamanio + 2 * tamanioMetadata) ≤ cfg.tamanioPag := by
  refine triple_bind (triple_crearSegmento_medidas sd tamanio hP hget) fun g => ?_
  refine triple_of_forall fun w hw => ?_
  have hbien := hw.medida_iff ht
  refine triple_conseq (P := MismosSegmentos w) (Q := fun _ => MismosSegmentos w) ?_
    (fun s hs => by rw [hs]; exact ⟨rfl, rfl⟩) fun _ s hs => ?_
  · refine keeps_bind (keeps_segmento g) fun _ => keeps_bind (keeps_obtener _ _) fun p => ?_
    exact keeps_bind ((mismosSegmentos_deSegmentos w).keeps_obtenerPosicionMemoriaPagina cfg p)
      fun _ => keeps_pure _
  · rw [Contabilizada, hs.2]
    exact hbien

/-- A request for a block keeps the sizes if and only if it puts no header in a page that the
segment already has. -/
theorem triple_musemalloc_medidas (sd : ℕ) (tamanio : ℤ) (hP : cfg.tamanioPag < 2147483648)
    (hun : UnSegmento sd t) (ht : Contabilizada cfg t) :
    Triple ok (· = t) (musemalloc cfg tamanio sd) fun _ s =>
      Contabilizada cfg s ↔ SinCierre cfg t sd tamanio := by
  refine exec_gets (triple_elim (fun hnone => exec_pure (iff_of_true ht ?_)) fun l hl => ?_)
  · intro segmentos hget
    cases hnone.symm.trans hget
  · have hdar : ∀ c : Codigo ℤ, Triple ok (· = t) c (fun _ s =>
        Contabilizada cfg s ↔ SinCierre cfg t sd tamanio) →
          Triple ok (· = t) (c >>= fun direccion => return some direccion) fun _ s =>
            Contabilizada cfg s ↔ SinCierre cfg t sd tamanio := by
      intro c hc
      refine triple_bind hc fun direccion => triple_pure _ ?_
      exact fun _ hs => hs
    rcases hun l hl with rfl | ⟨g, rfl, hg⟩
    · refine triple_ite (fun _ => hdar _ ?_) fun hne => absurd rfl hne
      refine triple_conseq (triple_enPrimerSegmento_medidas sd tamanio hP hl ht) (fun _ hs => hs)
        fun _ s hs => hs.trans ⟨fun hbien segmentos hget => ?_, fun h => (h [] hl).1 rfl⟩
      cases hl.symm.trans hget
      exact ⟨fun _ => hbien, fun hne => absurd rfl hne⟩
    · refine triple_ite (fun hnil => absurd hnil (by simp)) fun _ => hdar _ ?_
      obtain ⟨seg, hseg, _, _⟩ := segmento_of_rasgos hg
      refine triple_conseq (triple_enSegmentos_medidas sd tamanio hP hseg hg ht) (fun _ hs => hs)
        fun _ s hs => hs.trans ⟨fun hbien segmentos hget => ?_, fun h => ?_⟩
      · cases hl.symm.trans hget
        refine ⟨fun hnil => absurd hnil (by simp), fun _ => hbien.imp_right ?_⟩
        intro hbytes g' hg' seg' ultimo hseg' hultimo
        cases List.mem_singleton.1 hg'
        cases hseg.symm.trans hseg'
        exact hbytes ultimo hultimo
      · exact ((h [g] hl).2 (by simp)).imp_right fun hbytes ultimo hultimo =>
          hbytes g (List.mem_singleton_self g) seg ultimo hseg hultimo

/-! ## Runs -/

/-- The event is not a request on a block that was given. -/
def SoloAloja : Evento → Prop
  | .pide _ (.free _) => False
  | .pide _ (.get _ _ _) => False
  | .pide _ (.cpy _ _ _) => False
  | _ => True

/-- An event that is not a request on a block keeps what connections, new tables and requests for
blocks keep. -/
theorem keeps_paso_soloAloja {I : Estado → Prop} {e : Evento} (hsolo : SoloAloja e)
    (hclientes : ∀ (s : Estado) l, I s → I { s with clientSocket := l })
    (hinit : ∀ (s : Estado) sd, I s → s.tablasSegmentos.get sd = none → I (s.ponerTabla sd []))
    (halloc : ∀ sd (tam : UInt32), e = .pide sd (.alloc tam) →
      Keeps ok I (musemalloc cfg tam.toNat sd)) : Keeps ok I (paso cfg e) := by
  cases e with
  | conecta sd =>
      refine keeps_bind (keeps_gets _) fun s => keeps_ite (fun _ => triple_fail) fun _ => ?_
      exact keeps_bind (keeps_modify _ fun s hs => hclientes s _ hs) fun _ => keeps_pure _
  | desconecta i =>
      refine keeps_bind (keeps_gets _) fun s => keeps_ite (fun _ => triple_fail) fun _ => ?_
      exact keeps_bind (keeps_modify _ fun s hs => hclientes s _ hs) fun _ => keeps_pure _
  | pide sd llamada =>
      refine keeps_bind (keeps_gets _) fun s => keeps_ite (fun _ => triple_fail) fun _ => ?_
      cases llamada with
      | init => exact keeps_bind (keeps_museinit fun s => hinit s sd) fun _ => keeps_pure _
      | close =>
          refine keeps_bind (keeps_ite (fun _ => triple_fail) fun _ => keeps_pure _) fun _ => ?_
          exact keeps_pure _
      | alloc tam => exact keeps_bind (halloc sd tam rfl) fun _ => keeps_pure _
      | free dir => exact hsolo.elim
      | get dst src n => exact hsolo.elim
      | cpy dst src n => exact hsolo.elim
      | map path length flags => exact keeps_pure _
      | sync addr len => exact keeps_pure _
      | unmap dir => exact keeps_pure _

theorem keeps_paso_unSegmento (sd : ℕ) {e : Evento} (hsolo : SoloAloja e) :
    Keeps ok (UnSegmento sd) (paso cfg e) := by
  refine keeps_paso_soloAloja hsolo (fun s l hs => unSegmento_deTablas sd s _ rfl rfl hs) ?_
    fun sd' tam _ => keeps_musemalloc_unSegmento sd sd' _
  intro s sd' hs _ l hl
  rw [Estado.ponerTabla, Dictionary.get_put] at hl
  split_ifs at hl with hsd
  · cases hl
    exact Or.inl rfl
  · exact hs l hl

/-- An event keeps the sizes if and only if it is no request that puts a header in a page that a
segment already has. -/
theorem contabilizada_paso_iff {e : Evento} (hP : cfg.tamanioPag < 2147483648)
    (hun : ∀ sd, UnSegmento sd t) (ht : Contabilizada cfg t) (hsolo : SoloAloja e)
    (hstep : Avanza cfg t e s) :
    Contabilizada cfg s ↔ ∀ sd (tam : UInt32), e = .pide sd (.alloc tam) →
      SinCierre cfg t sd tam.toNat := by
  obtain ⟨r, marcas, hr⟩ := hstep
  by_cases halloc : ∃ sd, ∃ tam : UInt32, e = .pide sd (.alloc tam)
  · obtain ⟨sd, tam, rfl⟩ := halloc
    have hpaso : Triple TodaMarca (· = t) (paso cfg (.pide sd (.alloc tam))) fun _ s =>
        Contabilizada cfg s ↔ SinCierre cfg t sd tam.toNat := by
      refine exec_gets (triple_ite (fun _ => triple_fail) fun _ => ?_)
      refine triple_bind (triple_musemalloc_medidas sd tam.toNat hP (hun sd) ht) fun p =>
        triple_pure _ ?_
      exact fun _ hs => hs
    refine (hpaso t r s marcas rfl hr fun _ _ => trivial).trans ⟨fun h sd' tam' heq => ?_,
      fun h => h sd tam rfl⟩
    cases heq
    exact h
  · have hI : Keeps TodaMarca (fun s => s.segmentos = t.segmentos) (paso cfg e) :=
      keeps_paso_soloAloja hsolo (fun _ _ hs => hs) (fun _ _ hs _ => hs) fun sd tam heq =>
        absurd ⟨sd, tam, heq⟩ halloc
    have hsegmentos := hI t r s marcas rfl hr fun _ _ => trivial
    refine iff_of_true ?_ fun sd tam heq => absurd ⟨sd, tam, heq⟩ halloc
    rw [Contabilizada, hsegmentos]
    exact ht

/-- While the processes only ask for blocks, every segment has the size of its pages in every
state if and only if no request puts a header in a page that its segment already has. -/
theorem contabilizada_iff {tr : List (Transition.Step Estado Evento)}
    (hP : cfg.tamanioPag < 2147483648) (hrun : Alcanza cfg tr s)
    (hsolo : ∀ x ∈ tr, SoloAloja x.label) :
    (∀ x ∈ tr, Contabilizada cfg x.post) ↔ ∀ x ∈ tr, ∀ sd (tam : UInt32),
      x.label = .pide sd (.alloc tam) → SinCierre cfg x.pre sd tam.toNat := by
  have hinicial : Contabilizada cfg (inicial cfg) := by
    intro g seg hseg
    cases hseg
  refine (hrun.restrict hsolo).forall_mem_iff
    (Contabilizada cfg) (fun x => ∀ sd (tam : UInt32), x.label = .pide sd (.alloc tam) →
      SinCierre cfg x.pre sd tam.toNat) hinicial ?_
  rintro tr₁ u e u' hprev hu ⟨hstep, hsoloe⟩
  refine contabilizada_paso_iff hP (fun sd => ?_) hu hsoloe hstep
  refine hprev.invariant (UnSegmento sd) (fun _ => True) ?_ ?_ fun _ _ => trivial
  · intro l hl
    rw [inicial, Dictionary.get_empty] at hl
    cases hl
  · rintro v e' v' hv _ ⟨⟨r, marcas, hr⟩, hsoloe'⟩
    have hkeeps : Keeps TodaMarca (UnSegmento sd) (paso cfg e') := keeps_paso_unSegmento sd hsoloe'
    exact hkeeps v r v' marcas hv hr fun _ _ => trivial

theorem sinCierre_primero {sd : ℕ} {tamanio : ℤ} (htabla : s.tablasSegmentos.get sd = some [])
    (hpagina : 5 ≤ cfg.tamanioPag)
    (hcabe : unsigned (tamanio + 2 * tamanioMetadata) ≤ cfg.tamanioPag) :
    SinCierre cfg s sd tamanio := by
  intro segmentos hget
  obtain rfl := Option.some.inj (htabla.symm.trans hget)
  exact ⟨fun _ => ⟨hpagina, hcabe⟩, fun hne => absurd rfl hne⟩

/-- A block of a page and another one. -/
def dosBloques : List Evento := unBloquePorCliente [4] ++ [.pide 4 (.alloc 4)]

theorem not_contabilizada_dosBloques : ¬ Contabilizada (unFrame 2)
    (Transition.final (siguienteEstado (unFrame 2)) (inicial (unFrame 2)) dosBloques) := by
  intro h
  have hseg := h 0
    ⟨true, none, 0, 1048576, 64, [0], 0, [⟨0, false, 4, false, 5⟩, ⟨36, true, 23, false, 5⟩]⟩
    (by decide +kernel)
  exact absurd hseg.tamanio (by decide)

theorem sinCierre_dosClientes :
    ∀ x ∈ Transition.trace (siguienteEstado (unFrame 2)) (inicial (unFrame 2))
      (unBloquePorCliente [4, 5]), ∀ sd (tam : UInt32), x.label = .pide sd (.alloc tam) →
        SinCierre (unFrame 2) x.pre sd tam.toNat := by
  have hprimero {s : Estado} {sd sd' : ℕ} {tam : UInt32}
      (hget : s.tablasSegmentos.get sd' = some [])
      (hlabel : Evento.pide sd' (.alloc 20) = .pide sd (.alloc tam)) :
      SinCierre (unFrame 2) s sd tam.toNat := by
    cases hlabel
    exact sinCierre_primero hget (by decide) (by decide)
  simp only [unBloquePorCliente, List.flatMap_cons, List.flatMap_nil, List.cons_append,
    List.nil_append, Transition.trace, List.forall_mem_cons]
  refine ⟨?_, ?_, fun _ _ => hprimero (by decide +kernel), ?_, ?_,
    fun _ _ => hprimero (by decide +kernel), List.forall_mem_nil _⟩
  all_goals
    intro sd tam hlabel
    cases hlabel

/-- Two clients with a block each, the second of which takes the frame of the first; and one
client with two blocks. -/
theorem contabilizada_iff_dosBloques :
    (∀ x ∈ Transition.trace (siguienteEstado (unFrame 2)) (inicial (unFrame 2))
        (unBloquePorCliente [4, 5]), Contabilizada (unFrame 2) x.post) ∧
      ¬ ∀ x ∈ Transition.trace (siguienteEstado (unFrame 2)) (inicial (unFrame 2)) dosBloques,
        Contabilizada (unFrame 2) x.post := by
  constructor
  · exact (contabilizada_iff (by decide)
      (alcanza_of_acceptsAll (unFrame 2) (unBloquePorCliente [4, 5]) (by decide +kernel))
      (by simp [unBloquePorCliente, Transition.trace, SoloAloja])).2 sinCierre_dosClientes
  · intro h
    simp only [dosBloques, unBloquePorCliente, List.flatMap_cons, List.flatMap_nil,
      List.cons_append, List.nil_append, Transition.trace, List.forall_mem_cons] at h
    exact not_contabilizada_dosBloques h.2.2.2.1

/-- The header after the second block counts the only page again. -/
theorem not_contabilizada : ¬ ∀ cfg tr s, Alcanza cfg tr s → (∀ x ∈ tr, SoloAloja x.label) →
    Contabilizada cfg s := by
  intro h
  exact not_contabilizada_dosBloques (h (unFrame 2) _ _
    (alcanza_of_acceptsAll (unFrame 2) dosBloques (by decide +kernel))
    (by simp [dosBloques, unBloquePorCliente, Transition.trace, SoloAloja]))

end Muse
