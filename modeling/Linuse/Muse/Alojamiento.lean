import Linuse.Muse.Intercambio

/-!
# Frames of the pages in memory

The pages in memory are well housed when no two of them are in one frame and the
frame of each is a frame of the memory that is not free. The server breaks this when
it evicts a frame whose page it does not find, when it brings a page back by the way
that leaves its frame free, and when it evicts a page to bring another one back; a run
that does none of the three keeps the pages well housed (`alojadas_of_alojable`).
-/

namespace Muse

open Memory Marked Assignment

variable {cfg : Configuracion}

/-- The frame of a page in memory. -/
def marco (s : Estado) (p : ℕ) : Option ℤ :=
  s.paginas[p]?.bind fun pag => if pag.presencia then some pag.numeroFrame else none

/-- The frame exists and is not free. -/
def Ocupado (s : Estado) (f : ℤ) : Prop := ∃ fr, s.frame f = some fr ∧ fr.estaLibre = false

/-- No two pages in memory have the same frame, and their frames are not free. -/
structure Alojado (cfg : Configuracion) (s : Estado) : Prop where
  cantidad : s.frames.length = cfg.cantidadFrames
  cubierto : Covered (marco s) (Ocupado s)

/-- At a replacement, every page in the frame is the one that is found; no page comes
back by `obtenerPosicionMemoriaPagina`; and a page comes back by
`traerAMemoriaPrincipal` without an eviction. -/
def alojable (cfg : Configuracion) (s : Estado) : Suceso → Bool
  | .reemplaza f => (List.range s.paginas.length).all fun p =>
      marco s p != some (f : ℤ) || s.buscarPaginaAsociadaAFrame f == some (some p)
  | .aSwap _ => true
  | .carga _ => false
  | .trae _ => (buscarFrameLibre s).isSome || (clockModificado cfg s).1.all fun f : ℕ =>
      s.buscarPaginaAsociadaAFrame f == some none

/-! ## What depends on pages and frames only -/

theorem marco_eq {s : Estado} {p : ℕ} {pag : Pagina} (h : s.paginas[p]? = some pag) :
    marco s p = if pag.presencia then some pag.numeroFrame else none := by
  rw [marco, h, Option.bind_some]

theorem marco_congr {s t : Estado} {p : ℕ} (h : s.paginas[p]? = t.paginas[p]?) :
    marco s p = marco t p := by rw [marco, h, marco]

/-- A change of frames that keeps which ones are free. -/
def MismosLibres (s t : Estado) : Prop :=
  s.frames.map Frame.estaLibre = t.frames.map Frame.estaLibre

theorem frame_estaLibre (s : Estado) (f : ℤ) :
    (s.frame f).map Frame.estaLibre =
      if f < 0 then none else (s.frames.map Frame.estaLibre)[f.toNat]? := by
  rw [Estado.frame]
  split_ifs
  · rfl
  · rw [List.getElem?_map]

theorem ocupado_iff (s : Estado) (f : ℤ) :
    Ocupado s f ↔ (s.frame f).map Frame.estaLibre = some false := by
  rw [Option.map_eq_some_iff]
  rfl

theorem MismosLibres.ocupado {s t : Estado} (h : MismosLibres s t) : Ocupado s = Ocupado t := by
  funext f
  rw [ocupado_iff, ocupado_iff, frame_estaLibre, frame_estaLibre, h]

theorem MismosLibres.length {s t : Estado} (h : MismosLibres s t) :
    s.frames.length = t.frames.length := by
  rw [← List.length_map (f := Frame.estaLibre), h, List.length_map]

theorem alojado_congr {s t : Estado} (h : Alojado cfg t) (hp : s.paginas = t.paginas)
    (hf : MismosLibres s t) : Alojado cfg s where
  cantidad := hf.length.trans h.cantidad
  cubierto := by
    have hm : marco s = marco t := funext fun p => marco_congr (by rw [hp])
    rw [hm, hf.ocupado]
    exact h.cubierto

theorem mismosLibres_modificarFrame (s : Estado) (i : ℤ) {f : Frame → Frame}
    (hf : ∀ x, (f x).estaLibre = x.estaLibre) : MismosLibres (s.modificarFrame i f) s := by
  rw [MismosLibres, Estado.modificarFrame_frames]
  split_ifs
  · rfl
  · apply List.ext_getElem?
    intro k
    rw [List.getElem?_map, List.getElem?_modify, List.getElem?_map]
    cases s.frames[k]? with
    | none => rfl
    | some x =>
        split_ifs
        · simp [hf x]
        · simp

/-- The clock changes no free flag. -/
theorem mismosLibres_clockModificado (s : Estado) :
    MismosLibres (clockModificado cfg s).2 s := by
  have hronda : ∀ (cumple : Frame → Bool) n puntero (frames : List Frame),
      (rondaApagando cfg cumple n puntero frames).2.map Frame.estaLibre =
        frames.map Frame.estaLibre := by
    intro cumple n
    induction n with
    | zero => exact fun _ _ => rfl
    | succ n ih =>
        intro puntero frames
        rw [rondaApagando]
        split_ifs
        · rfl
        · rw [ih]
          have h := mismosLibres_modificarFrame { s with frames := frames } puntero
            (f := fun f => { f with uso := false }) fun _ => rfl
          rw [MismosLibres, Estado.modificarFrame_frames, if_neg (by omega)] at h
          exact h
  rw [MismosLibres, clockModificado]
  dsimp only
  split_ifs
  · rfl
  · exact hronda _ _ _ _

/-! ## Frames that change hands -/

/-- Only the frame that is changed changes. -/
theorem frame_of_frames {s t : Estado} {i : ℤ} {f : Frame → Frame}
    (h : s.frames = (t.modificarFrame i f).frames) (x : ℤ) :
    s.frame x = if x = i then (t.frame i).map f else t.frame x := by
  rw [Estado.frame, Estado.frame, Estado.frame, h, Estado.modificarFrame_frames]
  by_cases hx : x < 0
  · rw [if_pos hx, if_pos hx]
    split_ifs with hxi
    · subst hxi
      rfl
    · omega
    · rfl
  · rw [if_neg hx, if_neg hx]
    by_cases hi : i < 0
    · rw [if_pos hi, if_pos hi, if_neg (by omega)]
    · rw [if_neg hi, if_neg hi, List.getElem?_modify]
      by_cases hxi : x = i
      · subst hxi
        simp only [if_true]
        rfl
      · have hne : i.toNat ≠ x.toNat := by omega
        simp [hne, hxi]

theorem length_of_frames {s t : Estado} {i : ℤ} {f : Frame → Frame}
    (h : s.frames = (t.modificarFrame i f).frames) : s.frames.length = t.frames.length := by
  rw [h, Estado.length_modificarFrame_frames]

theorem ocupado_of_frames {s t : Estado} {i x : ℤ} {f : Frame → Frame}
    (h : s.frames = (t.modificarFrame i f).frames) (hx : Ocupado t x)
    (hf : x = i → ∀ fr : Frame, fr.estaLibre = false → (f fr).estaLibre = false) :
    Ocupado s x := by
  obtain ⟨fr, hfr, hlibre⟩ := hx
  rw [Ocupado, frame_of_frames h]
  split_ifs with hxi
  · subst hxi
    exact ⟨f fr, by rw [hfr]; rfl, hf rfl fr hlibre⟩
  · exact ⟨fr, hfr, hlibre⟩

theorem ocupado_self {s t : Estado} {i : ℤ} {f : Frame → Frame}
    (h : s.frames = (t.modificarFrame i f).frames) (hi : (t.frame i).isSome)
    (hf : ∀ fr, (f fr).estaLibre = false) : Ocupado s i := by
  obtain ⟨fr, hfr⟩ := Option.isSome_iff_exists.1 hi
  exact ⟨f fr, by rw [frame_of_frames h, if_pos rfl, hfr]; rfl, hf fr⟩

/-- Frames that are taken leave the pages well housed. -/
theorem alojado_reservar {t : Estado} (h : Alojado cfg t) (f : ℕ) : Alojado cfg (t.reservar f) where
  cantidad := (length_of_frames rfl).trans h.cantidad
  cubierto := by
    have hm : marco (t.reservar f) = marco t :=
      funext fun p => marco_congr (by simp [Estado.reservar])
    rw [hm]
    refine ⟨h.cubierto.injective, fun p b hp => ?_⟩
    exact ocupado_of_frames rfl (h.cubierto.used_of_holds p b hp) fun _ _ _ => rfl

/-- The page that a replacement finds leaves its frame. -/
theorem alojado_llevada {s t : Estado} {p : ℕ} {pag : Pagina} {bitSwap : ℤ} (h : Alojado cfg t)
    (hs : Llevada t p pag bitSwap s)
    (hsolo : ∀ q, marco t q = some pag.numeroFrame → q = p) :
    Alojado cfg s ∧ ∀ q, marco s q ≠ some pag.numeroFrame := by
  have hself : marco s p = none := by
    rw [marco_eq (getElem?_of_paginas hs.paginas hs.pagina)]
    rfl
  have hother : ∀ q, q ≠ p → marco s q = marco t q := fun q hq =>
    marco_congr (getElem?_of_paginas_of_ne hs.paginas hq)
  refine ⟨⟨(length_of_frames hs.frames).trans h.cantidad, h.cubierto.release hself hother ?_⟩, ?_⟩
  · intro q b hq hb
    refine ocupado_of_frames hs.frames (h.cubierto.used_of_holds q b hb) fun hbf => ?_
    subst hbf
    exact absurd (hsolo q hb) hq
  · intro q hq
    by_cases hqp : q = p
    · subst hqp
      rw [hself] at hq
      cases hq
    · rw [hother q hqp] at hq
      exact hqp (hsolo q hq)

/-- A page takes a frame in which there is none. -/
theorem alojado_toma {s t : Estado} {p : ℕ} {f : ℤ} (h : Alojado cfg t)
    (hcantidad : s.frames.length = t.frames.length) (hlibre : ∀ q, marco t q ≠ some f)
    (hself : marco s p = some f) (hother : ∀ q, q ≠ p → marco s q = marco t q)
    (hmono : ∀ x, Ocupado t x → Ocupado s x) (hf : Ocupado s f) : Alojado cfg s where
  cantidad := hcantidad.trans h.cantidad
  cubierto := h.cubierto.take (fun q _ => hlibre q) hself hother hmono hf

/-! ## The invariant -/

theorem enFrame_of_buscar {s : Estado} {f : ℤ} {p : ℕ}
    (h : s.buscarPaginaAsociadaAFrame f = some (some p)) : s.enFrame f p = true := by
  have hclientes : ∀ posiciones, s.buscarEnClientes f posiciones = some (some p) →
      s.enFrame f p = true := by
    intro posiciones
    induction posiciones with
    | nil =>
        intro hb
        cases hb
    | cons i posiciones ih =>
        intro hb
        rw [Estado.buscarEnClientes, Option.bind_eq_some_iff] at hb
        obtain ⟨segmentos, _, hb⟩ := hb
        cases hfind : (s.paginasDe segmentos).find? (s.enFrame f) with
        | none =>
            rw [hfind] at hb
            exact ih hb
        | some q =>
            rw [hfind] at hb
            cases hb
            exact List.find?_some hfind
  exact hclientes _ h

theorem lt_of_marco {s : Estado} {p : ℕ} {f : ℤ} (h : marco s p = some f) :
    p < s.paginas.length := by
  obtain ⟨pag, hpag, _⟩ := Option.bind_eq_some_iff.1 h
  exact (List.getElem?_eq_some_iff.1 hpag).1

/-- A frame that is given houses no page; for a page that comes back, it is not free. -/
theorem triple_alojado_asignarUnFrame (t : Estado) (ht : Alojado cfg t) :
    Triple (fun s e => alojable cfg s e = true) (· = t) (asignarUnFrame cfg) fun f s =>
      Alojado cfg s ∧ (∀ q, marco s q ≠ some (f : ℤ)) ∧
        ∀ p, alojable cfg t (.trae p) = true → ∀ fr, s.frame f = some fr →
          fr.estaLibre = false := by
  have hreservada : ∀ (u : Estado) (f : ℕ) fr, (u.reservar f).frame f = some fr →
      fr.estaLibre = false := by
    intro u f fr hfr
    rw [Estado.reservar, frame_of_frames rfl, if_pos rfl, Option.map_eq_some_iff] at hfr
    obtain ⟨_, _, rfl⟩ := hfr
    rfl
  have hmarco : ∀ (u : Estado) (f : ℕ), marco (u.reservar f) = marco u := fun u f =>
    funext fun p => marco_congr (by simp [Estado.reservar])
  refine triple_conseq (triple_asignarUnFrame cfg t) (fun _ hs => hs) ?_
  rintro f s (⟨hlibre, rfl⟩ | ⟨hlibre, hclock, hok, hs⟩)
  · refine ⟨alojado_reservar ht f, fun q hq => ?_, fun _ _ => hreservada t f⟩
    rw [hmarco] at hq
    obtain ⟨fr, hfr, hocupado⟩ := ht.cubierto.used_of_holds q f hq
    obtain ⟨hlt, hfree, _⟩ := List.findIdx?_eq_some_iff_getElem.1 hlibre
    rw [Estado.frame, if_neg (by omega), Int.toNat_natCast, List.getElem?_eq_getElem hlt,
      Option.some.injEq] at hfr
    rw [hfr, hocupado] at hfree
    cases hfree
  · obtain ⟨l, x, hx⟩ := clockModificado_eq cfg t
    have hu : Alojado cfg (clockModificado cfg t).2 :=
      alojado_congr ht (by rw [hx]) (mismosLibres_clockModificado t)
    have hbuscar : (clockModificado cfg t).2.buscarPaginaAsociadaAFrame f =
        t.buscarPaginaAsociadaAFrame f := by
      rw [hx]
      exact buscarPaginaAsociadaAFrame_frames t l x f
    -- Every page in the frame is the one that the search finds.
    have hsolo : ∀ q, marco (clockModificado cfg t).2 q = some (f : ℤ) →
        t.buscarPaginaAsociadaAFrame f = some (some q) := by
      intro q hq
      have hall := List.all_eq_true.1 hok q (List.mem_range.2 (lt_of_marco hq))
      rw [hq, Bool.or_eq_true, hbuscar] at hall
      rcases hall with hne | heq
      · simp at hne
      · exact eq_of_beq heq
    rcases hs with ⟨hnadie, rfl⟩ | ⟨p, pag, bitSwap, hp, hs⟩
    · refine ⟨alojado_reservar hu f, fun q hq => ?_, fun _ _ => hreservada _ f⟩
      rw [hmarco] at hq
      cases hnadie.symm.trans (hsolo q hq)
    · have hpag : pag.numeroFrame = f := by
        have hen := enFrame_of_buscar hp
        have hpagina := hs.pagina
        rw [Estado.reservar, Estado.modificarFrame_paginas, hx] at hpagina
        rw [Estado.enFrame, hpagina, Option.any_some] at hen
        exact eq_of_beq hen
      have hllevada := alojado_llevada (alojado_reservar hu f) hs fun q hq => by
        rw [hmarco, hpag] at hq
        cases hp.symm.trans (hsolo q hq)
        rfl
      rw [hpag] at hllevada
      refine ⟨hllevada.1, hllevada.2, fun q hq => ?_⟩
      rw [alojable, hlibre, hclock, Bool.or_eq_true, Option.all_some, hp] at hq
      exact absurd hq (by simp)

theorem alojado_invariante :
    Invariante cfg (fun s e => alojable cfg s e = true) (Alojado cfg) where
  memoria s a l hs := alojado_congr hs rfl rfl
  marcas s i f hf hs := alojado_congr hs (by simp) (mismosLibres_modificarFrame s i hf)
  datos s g f _ hs := alojado_congr hs rfl rfl
  asignar := triple_of_forall fun t ht =>
    triple_conseq (triple_alojado_asignarUnFrame t ht) (fun _ hs => hs) fun _ _ hs => hs.1
  nueva g := by
    refine triple_of_forall fun t ht => triple_paginaNueva cfg g
      (triple_alojado_asignarUnFrame t ht) ?_
    rintro f t s ⟨ht, hnadie, _⟩ hs
    have hget : ∀ q, q ≠ t.paginas.length → s.paginas[q]? = t.paginas[q]? := by
      intro q hq
      rw [hs.paginas, List.getElem?_append]
      split_ifs with hlt
      · rfl
      · rw [List.getElem?_eq_none (not_lt.1 hlt), List.getElem?_eq_none (by simp; omega)]
    refine alojado_toma (p := t.paginas.length) ht (length_of_frames hs.frames) hnadie ?_
      (fun q hq => marco_congr (hget q hq)) ?_ (ocupado_self hs.frames hs.existe fun _ => rfl)
    · have hself : s.paginas[t.paginas.length]? = some ⟨true, f, -1⟩ := by
        rw [hs.paginas]
        simp
      rw [marco_eq hself]
      rfl
    · exact fun x hx => ocupado_of_frames hs.frames hx fun _ _ _ => rfl
  posicion p := by
    refine triple_of_forall fun t ht => triple_conseq
      (triple_obtenerPosicionMemoriaPagina cfg t p) (fun _ hs => hs) ?_
    rintro _ s (rfl | ⟨hok, _⟩)
    · exact ht
    · cases hok
  traer p := by
    refine triple_traerPagina cfg p (M := fun _ s => Alojado cfg s ∧ Ausente p s)
      (Q := fun _ f s => (Alojado cfg s ∧ (∀ q, marco s q ≠ some (f : ℤ)) ∧
        ∀ fr, s.frame f = some fr → fr.estaLibre = false) ∧ Ausente p s) ?_ (fun pag => ?_) ?_
    · rintro s pag x ⟨hs, haus⟩ _
      exact ⟨alojado_congr hs rfl rfl, haus⟩
    · refine triple_of_forall fun t ht => ?_
      refine triple_conseq
        (triple_and (triple_alojado_asignarUnFrame t ht.1.1) (keeps_ausente cfg p)) ?_ ?_
      · rintro s rfl
        exact ⟨rfl, ht.1.2⟩
      · rintro f s ⟨⟨hs, hnadie, hocupado⟩, haus⟩
        exact ⟨⟨hs, hnadie, hocupado p ht.2⟩, haus⟩
    · rintro pag f t s ⟨⟨ht, hnadie, hocupado⟩, pag', hpag', _⟩ hs
      have hmono : ∀ x, Ocupado t x → Ocupado s x := fun x hx =>
        ocupado_of_frames hs.frames hx fun _ _ hfr => hfr
      refine alojado_toma (p := p) ht (length_of_frames hs.frames) hnadie ?_
        (fun q hq => marco_congr (getElem?_of_paginas_of_ne hs.paginas hq)) hmono ?_
      · rw [marco_eq (getElem?_of_paginas hs.paginas hpag')]
        rfl
      · obtain ⟨fr, hfr⟩ := Option.isSome_iff_exists.1 hs.existe
        exact hmono f ⟨fr, hfr, hocupado fr hfr⟩
  numerar s p f haus hs := by
    obtain ⟨pag, hpag, hpres⟩ := haus
    have hm : marco (s.modificarPagina p fun pag => { pag with numeroFrame := f }) = marco s := by
      funext q
      by_cases hq : q = p
      · subst hq
        rw [marco_eq (getElem?_of_paginas rfl hpag), marco_eq hpag, hpres]
        rfl
      · exact marco_congr (getElem?_of_paginas_of_ne rfl hq)
    refine ⟨hs.cantidad, ?_⟩
    rw [hm]
    exact hs.cubierto
  segmento s seg hs := alojado_congr hs rfl rfl
  tabla s sd segmentos g hs _ _ := alojado_congr hs rfl rfl

theorem alojado_inicial (cfg : Configuracion) : Alojado cfg (inicial cfg) where
  cantidad := List.length_replicate
  cubierto := ⟨fun _ _ _ h => absurd h (by simp [marco, inicial]),
    fun _ _ h => absurd h (by simp [marco, inicial])⟩

/-! ## Runs -/

/-- No two pages in memory have the same frame; the frame of each is below the number of
frames and is not free. -/
structure Alojadas (cfg : Configuracion) (s : Estado) : Prop where
  distintos : ∀ (p q : ℕ) (pag qag : Pagina), p ≠ q → s.paginas[p]? = some pag →
    s.paginas[q]? = some qag → pag.presencia = true → qag.presencia = true →
    pag.numeroFrame ≠ qag.numeroFrame
  enMemoria : ∀ (p : ℕ) (pag : Pagina), s.paginas[p]? = some pag → pag.presencia = true →
    0 ≤ pag.numeroFrame ∧ pag.numeroFrame < cfg.cantidadFrames
  ocupados : ∀ (p : ℕ) (pag : Pagina), s.paginas[p]? = some pag → pag.presencia = true →
    ∃ fr, s.frame pag.numeroFrame = some fr ∧ fr.estaLibre = false

theorem alojadas_of_alojado {s : Estado} (h : Alojado cfg s) : Alojadas cfg s := by
  have hmarco : ∀ (p : ℕ) (pag : Pagina), s.paginas[p]? = some pag → pag.presencia = true →
      marco s p = some pag.numeroFrame := by
    intro p pag hp hpres
    rw [marco_eq hp, if_pos hpres]
  constructor
  · intro p q pag qag hne hp hq hpp hqp heq
    exact hne (h.cubierto.injective p q _ (hmarco p pag hp hpp) (heq ▸ hmarco q qag hq hqp))
  · intro p pag hp hpres
    obtain ⟨fr, hfr, _⟩ := h.cubierto.used_of_holds p _ (hmarco p pag hp hpres)
    rw [Estado.frame] at hfr
    split_ifs at hfr with hneg
    have hlt := (List.getElem?_eq_some_iff.1 hfr).1
    rw [h.cantidad] at hlt
    omega
  · intro p pag hp hpres
    exact h.cubierto.used_of_holds p _ (hmarco p pag hp hpres)

/-- In a run where every replacement finds the page of its frame, no page comes back by
`obtenerPosicionMemoriaPagina` and `traerAMemoriaPrincipal` evicts none, the pages are
well housed in every state. -/
theorem alojadas_of_alojable {tr : List (Transition.Step Estado Evento)} {s : Estado}
    (hrun : Alcanza cfg tr s)
    (halojable : ∀ x ∈ tr, SinMarcas cfg (fun s e => alojable cfg s e = true) x) :
    Alojadas cfg s :=
  alojadas_of_alojado (alcanza_invariante alojado_invariante
    (fun _ _ hs => alojado_congr hs rfl rfl) (fun _ _ hs _ => alojado_congr hs rfl rfl)
    (alojado_inicial cfg) hrun halojable).1

theorem alojadas_of_alojable_dosClientes :
    Alojadas (unFrame 2) (Transition.final (siguienteEstado (unFrame 2))
      (inicial (unFrame 2)) (unBloquePorCliente [4, 5])) :=
  alojadas_of_alojable (alcanza_of_acceptsAll (unFrame 2) (unBloquePorCliente [4, 5])
    (by decide +kernel)) (sinMarcas_of_marcasDe (unFrame 2) (by decide +kernel))

/-- A client whose first block takes two pages, in a memory of one frame. -/
def bloqueDeDosPaginas : List Evento := [.conecta 4, .pide 4 .init, .pide 4 (.alloc 86)]

/-- The pages of a segment that is being created are in no table, so that the second one
gets the frame of the first. -/
theorem not_alojadas : ¬ ∀ cfg tr s, Alcanza cfg tr s → Alojadas cfg s := by
  intro h
  have hrun := alcanza_of_acceptsAll (unFrame 2) bloqueDeDosPaginas (by decide +kernel)
  have hprimera : (Transition.final (siguienteEstado (unFrame 2)) (inicial (unFrame 2))
      bloqueDeDosPaginas).paginas[0]? = some ⟨true, 0, -1⟩ := by decide +kernel
  have hsegunda : (Transition.final (siguienteEstado (unFrame 2)) (inicial (unFrame 2))
      bloqueDeDosPaginas).paginas[1]? = some ⟨true, 0, -1⟩ := by decide +kernel
  exact (h (unFrame 2) _ _ hrun).distintos 0 1 _ _ (by decide) hprimera hsegunda rfl rfl rfl

end Muse
