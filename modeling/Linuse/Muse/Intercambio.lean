import Linuse.Collections.Assignment
import Linuse.Muse.Conservacion

/-!
# Swap slots

The slots of swap are accounted for when the pages out of memory have different
slots below the number of pages of swap, and the bits that are set are those of their
slots. The server does not check that a slot was found, nor that the page that it
evicts is in memory; when both are so at each eviction of a run, the slots are
accounted for in every state of it (`swapCorrecto_of_conRanura`).
-/

namespace Muse

open Memory Marked Assignment

variable {cfg : Configuracion}

/-- The slot of a page. -/
def ranura (s : Estado) (p : ℕ) : Option ℕ :=
  s.paginas[p]?.bind fun pag => if 0 ≤ pag.indiceSwap then some pag.indiceSwap.toNat else none

/-- The bit of the slot is set. -/
def ranuraUsada (s : Estado) (i : ℕ) : Prop := s.bitmapSwap[i]? = some true

/-- The page is in memory without a slot, or it has a slot of the swap. -/
def Ubicada (cfg : Configuracion) (pag : Pagina) : Prop :=
  pag.presencia = true ∧ pag.indiceSwap = -1 ∨
    pag.presencia = false ∧ 0 ≤ pag.indiceSwap ∧ pag.indiceSwap < cfg.cantidadPaginasSwap

/-- The slots are accounted for. -/
structure Cuentas (cfg : Configuracion) (s : Estado) : Prop where
  ubicadas : ∀ (p : ℕ) (pag : Pagina), s.paginas[p]? = some pag → Ubicada cfg pag
  exacta : Exact (ranura s) (ranuraUsada s)

/-- At an eviction the slot that is found is one of the swap, and the page is in
memory. -/
def conRanura (cfg : Configuracion) (s : Estado) : Suceso → Bool
  | .aSwap p => (buscarIndiceSwapLibre s).any (fun i => decide (i < cfg.cantidadPaginasSwap)) &&
      s.paginas[p]?.any Pagina.presencia
  | _ => true

/-! ## What depends on pages and bits only -/

theorem ranura_eq {s : Estado} {p : ℕ} {pag : Pagina} (h : s.paginas[p]? = some pag) :
    ranura s p = if 0 ≤ pag.indiceSwap then some pag.indiceSwap.toNat else none := by
  rw [ranura, h, Option.bind_some]

theorem ranura_congr {s t : Estado} {p : ℕ} (h : s.paginas[p]? = t.paginas[p]?) :
    ranura s p = ranura t p := by rw [ranura, h, ranura]

/-- The pages are well placed when the one that changes is. -/
theorem ubicadas_of_paginas {s t : Estado} {p : ℕ} {f : Pagina → Pagina}
    (h : s.paginas = (t.modificarPagina p f).paginas)
    (hf : ∀ pag, t.paginas[p]? = some pag → Ubicada cfg (f pag)) (ht : Cuentas cfg t) :
    ∀ (q : ℕ) (pag : Pagina), s.paginas[q]? = some pag → Ubicada cfg pag := by
  intro q pag hq
  rw [h, modificarPagina_getElem?, Option.map_eq_some_iff] at hq
  obtain ⟨pag', hpag', rfl⟩ := hq
  split_ifs with heq
  · subst heq
    exact hf pag' hpag'
  · exact ht.ubicadas q pag' hpag'

theorem cuentas_congr {s t : Estado} (h : Cuentas cfg t) (hp : s.paginas = t.paginas)
    (hb : s.bitmapSwap = t.bitmapSwap) : Cuentas cfg s where
  ubicadas := by
    rw [hp]
    exact h.ubicadas
  exacta := by
    have hr : ranura s = ranura t := funext fun p => ranura_congr (by rw [hp])
    have hu : ranuraUsada s = ranuraUsada t := by
      funext i
      rw [ranuraUsada, hb, ranuraUsada]
    rw [hr, hu]
    exact h.exacta

theorem ranuraUsada_ponerBit {s t : Estado} {i : ℕ} {b : Bool}
    (h : s.bitmapSwap = (t.ponerBit i b).bitmapSwap) (k : ℕ) :
    ranuraUsada s k ↔ if k = i then i < t.bitmapSwap.length ∧ b = true else ranuraUsada t k := by
  rw [ranuraUsada, h, Estado.ponerBit_bitmapSwap, if_neg (by omega), Int.toNat_natCast,
    List.getElem?_set]
  by_cases hk : k = i
  · subst hk
    rw [if_pos rfl, if_pos rfl]
    split_ifs with hlen
    · simp [hlen]
    · simp [hlen]
  · rw [if_neg (Ne.symm hk), if_neg hk, ranuraUsada]

theorem buscarIndiceSwapLibre_eq_some {s : Estado} {i : ℕ} (h : buscarIndiceSwapLibre s = some i) :
    i < s.bitmapSwap.length ∧ ¬ ranuraUsada s i := by
  obtain ⟨hlt, hbit, _⟩ := List.findIdx?_eq_some_iff_getElem.1 h
  refine ⟨hlt, ?_⟩
  rw [ranuraUsada, List.getElem?_eq_getElem hlt]
  simpa using hbit

/-! ## Eviction and return -/

/-- The page of an eviction takes a slot. -/
theorem cuentas_llevada {s t : Estado} {p : ℕ} {pag : Pagina} {bitSwap : ℤ} (h : Cuentas cfg t)
    (hok : conRanura cfg t (.aSwap p) = true) (hbit : bitSwap = indice (buscarIndiceSwapLibre t))
    (hs : Llevada t p pag bitSwap s) : Cuentas cfg s := by
  rw [conRanura, Bool.and_eq_true, Option.any_eq_true, hs.pagina] at hok
  obtain ⟨⟨i, hi, hlt⟩, hpres⟩ := hok
  rw [decide_eq_true_eq] at hlt
  rw [hi, indice, Option.elim_some] at hbit
  subst hbit
  obtain ⟨hlen, hfree⟩ := buscarIndiceSwapLibre_eq_some hi
  have hnone : ranura t p = none := by
    rcases h.ubicadas p pag hs.pagina with ⟨_, hneg⟩ | ⟨hf, _⟩
    · rw [ranura_eq hs.pagina, hneg]
      rfl
    · rw [Option.any_some, hf] at hpres
      cases hpres
  refine ⟨ubicadas_of_paginas hs.paginas
    (fun _ _ => Or.inr ⟨rfl, Int.natCast_nonneg i, Int.ofNat_lt.2 hlt⟩) h,
    h.exacta.take hnone hfree ?_
      (fun q hq => ranura_congr (getElem?_of_paginas_of_ne hs.paginas hq)) fun k => ?_⟩
  · rw [ranura_eq (getElem?_of_paginas hs.paginas hs.pagina)]
    simp
  · rw [ranuraUsada_ponerBit hs.bitmapSwap]
    split_ifs with hk
    · simp [hk, hlen]
    · simp [hk]

/-- A page with a slot that comes back releases it. -/
theorem cuentas_vuelve {s t : Estado} {p : ℕ} {pag : Pagina} {f : ℤ} (h : Cuentas cfg t)
    (hp : t.paginas[p]? = some pag) (haus : pag.presencia = false)
    (hpag : s.paginas = (t.modificarPagina p fun _ => ⟨true, f, -1⟩).paginas)
    (hbit : s.bitmapSwap = (t.ponerBit pag.indiceSwap false).bitmapSwap) : Cuentas cfg s := by
  have hslot : 0 ≤ pag.indiceSwap := by
    rcases h.ubicadas p pag hp with ⟨hpres, _⟩ | ⟨_, hi, _⟩
    · rw [haus] at hpres
      cases hpres
    · exact hi
  rw [← Int.toNat_of_nonneg hslot] at hbit
  refine ⟨ubicadas_of_paginas hpag (fun _ _ => Or.inl ⟨rfl, rfl⟩) h,
    h.exacta.release (a := p) (b := pag.indiceSwap.toNat) ?_ ?_
      (fun q hq => ranura_congr (getElem?_of_paginas_of_ne hpag hq)) fun k => ?_⟩
  · rw [ranura_eq hp, if_pos hslot]
  · rw [ranura_eq (getElem?_of_paginas hpag hp)]
    rfl
  · rw [ranuraUsada_ponerBit hbit]
    split_ifs with hk
    · simp [hk]
    · simp [hk]

/-! ## The invariant -/

/-- A page that is in memory changes nothing of the slots when it is added. -/
theorem cuentas_agregada {s t : Estado} {f : ℤ} (h : Cuentas cfg t)
    (hpag : s.paginas = t.paginas ++ [⟨true, f, -1⟩]) (hbit : s.bitmapSwap = t.bitmapSwap) :
    Cuentas cfg s := by
  have hget : ∀ p : ℕ, s.paginas[p]? = t.paginas[p]? ∨
      s.paginas[p]? = some (Pagina.mk true f (-1)) ∧ t.paginas[p]? = none := by
    intro p
    rw [hpag, List.getElem?_append]
    split_ifs with hlt
    · exact Or.inl rfl
    · have hnone : t.paginas[p]? = none := List.getElem?_eq_none (not_lt.1 hlt)
      rw [List.getElem?_singleton, hnone]
      split_ifs
      · exact Or.inr ⟨rfl, rfl⟩
      · exact Or.inl rfl
  have hr : ranura s = ranura t := by
    funext p
    rcases hget p with heq | ⟨hs, ht⟩
    · exact ranura_congr heq
    · rw [ranura_eq hs, ranura, ht]
      rfl
  have hu : ranuraUsada s = ranuraUsada t := by
    funext i
    rw [ranuraUsada, hbit, ranuraUsada]
  refine ⟨fun p pag hp => ?_, by rw [hr, hu]; exact h.exacta⟩
  rcases hget p with heq | ⟨hs, _⟩
  · exact h.ubicadas p pag (heq ▸ hp)
  · cases hs.symm.trans hp
    exact Or.inl ⟨rfl, rfl⟩

theorem keeps_cuentas_asignarUnFrame :
    Keeps (fun s e => conRanura cfg s e = true) (Cuentas cfg) (asignarUnFrame cfg) := by
  refine keeps_asignarUnFrame cfg (fun s l x hs => cuentas_congr hs rfl rfl) fun p => ?_
  refine triple_of_forall fun t ht => triple_conseq (triple_llevarASwapUnaPagina cfg t p)
    (fun _ hs => hs) ?_
  rintro bitSwap s ⟨hok, hbit, pag, hs⟩
  exact cuentas_llevada ht hok hbit hs

/-- A page that is out of memory does not change while a frame is given. -/
theorem keeps_ausente_asignarUnFrame {p : ℕ} {pag : Pagina} (haus : pag.presencia = false) :
    Keeps (fun s e => conRanura cfg s e = true) (fun s => s.paginas[p]? = some pag)
      (asignarUnFrame cfg) := by
  refine keeps_asignarUnFrame cfg (fun _ _ _ hs => hs) fun q => ?_
  refine triple_of_forall fun t ht => triple_conseq (triple_llevarASwapUnaPagina cfg t q)
    (fun _ hs => hs) ?_
  rintro bitSwap s ⟨hok, _, pag', hs⟩
  rw [hs.paginas, modificarPagina_getElem?, ht, Option.map_some, if_neg]
  rintro rfl
  rw [conRanura, Bool.and_eq_true, ht, Option.any_some, haus] at hok
  exact absurd hok.2 (by simp)

theorem cuentas_invariante :
    Invariante cfg (fun s e => conRanura cfg s e = true) (Cuentas cfg) where
  memoria s a l hs := cuentas_congr hs rfl rfl
  marcas s i f _ hs := cuentas_congr hs (by simp) (by simp)
  datos s g f _ hs := cuentas_congr hs rfl rfl
  asignar := keeps_cuentas_asignarUnFrame
  nueva g := triple_paginaNueva cfg g keeps_cuentas_asignarUnFrame fun f t s ht hs =>
    cuentas_agregada ht hs.paginas hs.bitmapSwap
  posicion p := by
    refine triple_of_forall fun t ht => triple_conseq
      (triple_obtenerPosicionMemoriaPagina cfg t p) (fun _ hs => hs) ?_
    rintro _ s (rfl | ⟨_, pag, haus, hs⟩)
    · exact ht
    · exact cuentas_vuelve ht hs.pagina haus hs.paginas hs.bitmapSwap
  traer p := by
    refine triple_traerPagina cfg p
      (M := fun pag s => Cuentas cfg s ∧ s.paginas[p]? = some pag ∧ pag.presencia = false)
      (Q := fun pag _ s => (Cuentas cfg s ∧ s.paginas[p]? = some pag) ∧ pag.presencia = false)
      ?_ (fun pag => ?_) ?_
    · rintro s pag x ⟨hs, pag', hpag', haus⟩ hpag
      cases hpag'.symm.trans hpag
      exact ⟨cuentas_congr hs rfl rfl, hpag, haus⟩
    · rintro s a s' marcas ⟨⟨hs, hpag, haus⟩, _⟩ hr hok
      exact ⟨(keeps_cuentas_asignarUnFrame.and (keeps_ausente_asignarUnFrame haus)) s a s' marcas
        ⟨hs, hpag⟩ hr hok, haus⟩
    · rintro pag frame t s ⟨⟨ht, hpag⟩, haus⟩ hs
      exact cuentas_vuelve ht hpag haus hs.paginas hs.bitmapSwap
  numerar s p f _ hs := by
    have hr : ranura (s.modificarPagina p fun pag => { pag with numeroFrame := f }) = ranura s := by
      funext q
      rw [ranura, modificarPagina_getElem?, ranura]
      cases s.paginas[q]? with
      | none => rfl
      | some pag =>
          rw [Option.map_some, Option.bind_some, Option.bind_some]
          split_ifs <;> rfl
    refine ⟨ubicadas_of_paginas rfl (fun pag hpag => hs.ubicadas p pag hpag) hs, ?_⟩
    rw [hr]
    exact hs.exacta
  segmento s seg hs := cuentas_congr hs rfl rfl
  tabla s sd segmentos g hs _ _ := cuentas_congr hs rfl rfl

theorem cuentas_inicial (cfg : Configuracion) : Cuentas cfg (inicial cfg) where
  ubicadas p pag hp := by
    rw [inicial, List.getElem?_nil] at hp
    cases hp
  exacta := by
    have hnone : ∀ p, ranura (inicial cfg) p = none := fun p => rfl
    refine ⟨⟨fun p q i hp _ => ?_, fun p i hp => ?_⟩, fun i hi => ?_⟩
    · cases (hnone p).symm.trans hp
    · cases (hnone p).symm.trans hp
    · rw [ranuraUsada, inicial, List.getElem?_replicate] at hi
      split_ifs at hi
      cases hi

/-! ## Runs -/

/-- The pages out of memory have slots of the swap, no two pages have the same slot,
and the bit of a slot is set exactly when some page has it. -/
structure SwapCorrecto (cfg : Configuracion) (s : Estado) : Prop where
  enSwap : ∀ (p : ℕ) (pag : Pagina), s.paginas[p]? = some pag → pag.presencia = false →
    0 ≤ pag.indiceSwap ∧ pag.indiceSwap < cfg.cantidadPaginasSwap
  distintas : ∀ (p q : ℕ) (pag qag : Pagina), p ≠ q → s.paginas[p]? = some pag →
    s.paginas[q]? = some qag → 0 ≤ pag.indiceSwap → pag.indiceSwap ≠ qag.indiceSwap
  bits : ∀ i < cfg.cantidadPaginasSwap, s.bitmapSwap[i]? = some true ↔
    ∃ (p : ℕ) (pag : Pagina), s.paginas[p]? = some pag ∧ pag.indiceSwap = i

/-- The answer says that the request failed. -/
def Falla : Respuesta → Prop
  | .ninguna => True
  | .direccion p => p = none
  | .resultado res => res = -1
  | .datos leido => leido = none

/-- No slot of the swap is free. -/
def SinRanuras (cfg : Configuracion) (s : Estado) : Prop :=
  ∀ i < cfg.cantidadPaginasSwap, s.bitmapSwap[i]? ≠ some false

/-- An event that evicts a page when no slot is free fails and changes no page. -/
def Rechaza (cfg : Configuracion) (x : Transition.Step Estado Evento) : Prop :=
  ∀ r s' marcas, Runs (paso cfg x.label) x.pre r s' marcas →
    (∃ mk ∈ marcas, ∃ p, mk.2 = .aSwap p ∧ SinRanuras cfg mk.1) →
    Falla r ∧ s'.paginas = x.pre.paginas

theorem swapCorrecto_of_cuentas {s : Estado} (h : Cuentas cfg s) : SwapCorrecto cfg s where
  enSwap p pag hp haus := by
    rcases h.ubicadas p pag hp with ⟨hpres, _⟩ | ⟨_, hi⟩
    · rw [haus] at hpres
      cases hpres
    · exact hi
  distintas p q pag qag hne hp hq hi heq := by
    have hqi : 0 ≤ qag.indiceSwap := heq ▸ hi
    refine hne (h.exacta.injective p q pag.indiceSwap.toNat ?_ ?_)
    · rw [ranura_eq hp, if_pos hi]
    · rw [ranura_eq hq, if_pos hqi, heq]
  bits i _ := by
    constructor
    · intro hbit
      obtain ⟨p, hp⟩ := h.exacta.holds_of_used i hbit
      obtain ⟨pag, hpag, hi⟩ := Option.bind_eq_some_iff.1 hp
      split_ifs at hi with hpos
      cases hi
      exact ⟨p, pag, hpag, (Int.toNat_of_nonneg hpos).symm⟩
    · rintro ⟨p, pag, hp, hi⟩
      refine h.exacta.used_of_holds p i ?_
      rw [ranura_eq hp, hi, if_pos (Int.natCast_nonneg i), Int.toNat_natCast]

theorem rechaza_of_conRanura {x : Transition.Step Estado Evento}
    (h : SinMarcas cfg (fun s e => conRanura cfg s e = true) x) : Rechaza cfg x := by
  rintro r s' marcas hr ⟨mk, hmk, p, hp, hsin⟩
  have hok := h r s' marcas hr mk hmk
  rw [hp, conRanura, Bool.and_eq_true, Option.any_eq_true] at hok
  obtain ⟨i, hi, hlt⟩ := hok.1
  obtain ⟨hlen, hfree, _⟩ := List.findIdx?_eq_some_iff_getElem.1 hi
  refine absurd ?_ (hsin i (of_decide_eq_true hlt))
  rw [List.getElem?_eq_getElem hlen]
  simpa using hfree

/-- In a run where each eviction finds a slot of the swap for a page that is in memory,
the slots are accounted for in every state, and no request evicts without a slot. -/
theorem swapCorrecto_of_conRanura {tr : List (Transition.Step Estado Evento)} {s : Estado}
    (hrun : Alcanza cfg tr s)
    (hranura : ∀ x ∈ tr, SinMarcas cfg (fun s e => conRanura cfg s e = true) x) :
    SwapCorrecto cfg s ∧ ∀ x ∈ tr, Rechaza cfg x := by
  refine ⟨swapCorrecto_of_cuentas ?_, fun x hx => rechaza_of_conRanura (hranura x hx)⟩
  exact (alcanza_invariante cuentas_invariante (fun s l hs => cuentas_congr hs rfl rfl)
    (fun s sd hs _ => cuentas_congr hs rfl rfl) (cuentas_inicial cfg) hrun hranura).1

/-- One frame of 32 bytes and a swap of some pages. -/
def unFrame (paginasSwap : ℕ) : Configuracion where
  tamanioMemoria := 32
  tamanioPag := 32
  tamanioSwap := 32 * paginasSwap
  positivo := by decide
  memoriaPrincipal := 1048576
  direccionClave _ := 94906265
  tamanioDiccionario := 20
  basura _ := 0

/-- Each client asks for a block of one page. -/
def unBloquePorCliente (clientes : List ℕ) : List Evento :=
  clientes.flatMap fun sd => [.conecta sd, .pide sd .init, .pide sd (.alloc 20)]

theorem swapCorrecto_of_conRanura_dosClientes :
    SwapCorrecto (unFrame 2) (Transition.final (siguienteEstado (unFrame 2))
      (inicial (unFrame 2)) (unBloquePorCliente [4, 5])) :=
  (swapCorrecto_of_conRanura (alcanza_of_acceptsAll (unFrame 2) (unBloquePorCliente [4, 5])
    (by decide +kernel)) (sinMarcas_of_marcasDe (unFrame 2) (by decide +kernel))).1

/-- The third client evicts a page when the only slot of the swap is taken, and the page
gets a slot beyond it. -/
theorem not_swapCorrecto : ¬ ∀ cfg tr s, Alcanza cfg tr s →
    SwapCorrecto cfg s ∧ ∀ x ∈ tr, Rechaza cfg x := by
  intro h
  have hrun := alcanza_of_acceptsAll (unFrame 1) (unBloquePorCliente [4, 5, 6]) (by decide +kernel)
  have hpag : (Transition.final (siguienteEstado (unFrame 1)) (inicial (unFrame 1))
      (unBloquePorCliente [4, 5, 6])).paginas[1]? = some ⟨false, -1, 1⟩ := by decide +kernel
  have hslot := ((h (unFrame 1) _ _ hrun).1.enSwap 1 _ hpag rfl).2
  exact absurd hslot (by decide)

end Muse
