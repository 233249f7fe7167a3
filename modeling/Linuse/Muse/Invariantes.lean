import Linuse.Muse.Servidor

/-!
# What every request keeps

A property of the state that the basic operations on frames and pages keep, and that
does not look at the contents of the memory, is kept by every request. `Conservado`
says so of the operations that a segment under construction needs and `Invariante`
of all of them; both hold of a property of the tables of segments for any marks.
-/

namespace Muse

open Memory Marked

variable {ok : Estado → Suceso → Prop} {P I J : Estado → Prop}

/-! ## Reading -/

theorem triple_pagina (p : ℕ) :
    Triple ok P (pagina p) fun pag s => P s ∧ s.paginas[p]? = some pag := by
  refine triple_bind (triple_gets (Q := fun l s => P s ∧ s.paginas = l) _ fun s hs => ⟨hs, rfl⟩) ?_
  intro l
  refine triple_orFail _ ?_
  rintro pag s hpag ⟨hs, rfl⟩
  exact ⟨hs, hpag⟩

theorem triple_segmento (g : ℕ) :
    Triple ok P (segmento g) fun seg s => P s ∧ s.segmentos[g]? = some seg := by
  refine triple_bind (triple_gets (Q := fun l s => P s ∧ s.segmentos = l) _
    fun s hs => ⟨hs, rfl⟩) ?_
  intro l
  refine triple_orFail _ ?_
  rintro seg s hseg ⟨hs, rfl⟩
  exact ⟨hs, hseg⟩

/-- `list_get`, for an index that has an element. -/
def elemento {α : Type} (l : List α) (i : ℤ) : Option α := if i < 0 then none else l[i.toNat]?

theorem triple_obtener {α : Type} (l : List α) (i : ℤ) :
    Triple ok P (obtener l i) fun a s => P s ∧ elemento l i = some a :=
  triple_orFail _ fun _ _ ha hs => ⟨hs, ha⟩

theorem keeps_pagina (p : ℕ) : Keeps ok I (pagina p) :=
  keeps_bind (keeps_gets _) fun _ => keeps_orFail _

theorem keeps_segmento (g : ℕ) : Keeps ok I (segmento g) :=
  keeps_bind (keeps_gets _) fun _ => keeps_orFail _

theorem keeps_obtener {α : Type} (l : List α) (i : ℤ) : Keeps ok I (obtener l i) :=
  keeps_orFail _

theorem keeps_tocarFrame (i : ℤ) (f : Frame → Frame)
    (h : ∀ s, I s → I (s.modificarFrame i f)) : Keeps ok I (tocarFrame i f) := by
  refine keeps_bind (keeps_gets _) fun s => keeps_bind (keeps_orFail _) fun _ => ?_
  exact keeps_modify _ h

theorem exec_pagina {α : Type} {t : Estado} {p : ℕ} {k : Pagina → Codigo α}
    {R : α → Estado → Prop} (h : ∀ pag, t.paginas[p]? = some pag → Triple ok (· = t) (k pag) R) :
    Triple ok (· = t) (pagina p >>= k) R := by
  refine triple_bind (triple_pagina p) fun pag => ?_
  rintro s a s' marcas ⟨rfl, hpag⟩
  exact h pag hpag s a s' marcas rfl

theorem exec_segmento {α : Type} {t : Estado} {g : ℕ} {k : Segmento → Codigo α}
    {R : α → Estado → Prop} (h : ∀ seg, t.segmentos[g]? = some seg → Triple ok (· = t) (k seg) R) :
    Triple ok (· = t) (segmento g >>= k) R := by
  refine triple_bind (triple_segmento g) fun seg => ?_
  rintro s a s' marcas ⟨rfl, hseg⟩
  exact h seg hseg s a s' marcas rfl

theorem exec_tocarFrame {α : Type} {t : Estado} {i : ℤ} {f : Frame → Frame} {k : Unit → Codigo α}
    {R : α → Estado → Prop}
    (h : (t.frame i).isSome → Triple ok (· = t.modificarFrame i f) (k ()) R) :
    Triple ok (· = t) (tocarFrame i f >>= k) R := by
  refine exec_bind (Q := fun _ s => s = t.modificarFrame i f ∧ (t.frame i).isSome) ?_ ?_
  · refine exec_gets (triple_orFail_bind fun fr hfr => triple_modify _ fun s hs => ?_)
    exact ⟨by rw [hs], by rw [show t.frame i = some fr from hfr]; rfl⟩
  · rintro a s ⟨rfl, hi⟩
    exact h hi

/-! ## Properties of the tables -/

/-- The identifier and the kind of every segment. -/
def rasgos (s : Estado) : List (ℤ × Bool) := s.segmentos.map fun seg => (seg.id, seg.esComun)

/-- A property of the segments and the tables that list them. -/
def DeSegmentos (I : Estado → Prop) : Prop :=
  ∀ s s' : Estado, s'.tablasSegmentos = s.tablasSegmentos → s'.segmentos = s.segmentos → I s → I s'

/-- A property of the tables of segments and of the traits of the segments. -/
def DeTablas (I : Estado → Prop) : Prop :=
  ∀ s s' : Estado, s'.tablasSegmentos = s.tablasSegmentos → rasgos s' = rasgos s → I s → I s'

theorem DeTablas.deSegmentos (h : DeTablas I) : DeSegmentos I := by
  intro s s' ht hs hI
  exact h s s' ht (by rw [rasgos, rasgos, hs]) hI

namespace Estado

variable (s : Estado) (i : ℤ) (p : ℕ)

@[simp] theorem modificarFrame_tablasSegmentos (f : Frame → Frame) :
    (s.modificarFrame i f).tablasSegmentos = s.tablasSegmentos := by
  unfold modificarFrame
  split <;> rfl

@[simp] theorem modificarFrame_segmentos (f : Frame → Frame) :
    (s.modificarFrame i f).segmentos = s.segmentos := by
  unfold modificarFrame
  split <;> rfl

@[simp] theorem modificarFrame_paginas (f : Frame → Frame) :
    (s.modificarFrame i f).paginas = s.paginas := by
  unfold modificarFrame
  split <;> rfl

@[simp] theorem modificarFrame_bitmapSwap (f : Frame → Frame) :
    (s.modificarFrame i f).bitmapSwap = s.bitmapSwap := by
  unfold modificarFrame
  split <;> rfl

@[simp] theorem modificarFrame_clientSocket (f : Frame → Frame) :
    (s.modificarFrame i f).clientSocket = s.clientSocket := by
  unfold modificarFrame
  split <;> rfl

/-- Changing a frame changes nothing else. -/
theorem modificarFrame_eq (f : Frame → Frame) :
    ∃ l, s.modificarFrame i f = { s with frames := l } := by
  unfold modificarFrame
  split
  · exact ⟨s.frames, rfl⟩
  · exact ⟨_, rfl⟩

theorem modificarFrame_frames (f : Frame → Frame) :
    (s.modificarFrame i f).frames = if i < 0 then s.frames else s.frames.modify i.toNat f := by
  unfold modificarFrame
  split <;> rfl

@[simp] theorem length_modificarFrame_frames (f : Frame → Frame) :
    (s.modificarFrame i f).frames.length = s.frames.length := by
  rw [modificarFrame_frames]
  split_ifs
  · rfl
  · rw [List.length_modify]

theorem ponerBit_bitmapSwap (b : Bool) :
    (s.ponerBit i b).bitmapSwap = if i < 0 then s.bitmapSwap else s.bitmapSwap.set i.toNat b := by
  unfold ponerBit
  split <;> rfl

@[simp] theorem ponerBit_tablasSegmentos (b : Bool) :
    (s.ponerBit i b).tablasSegmentos = s.tablasSegmentos := by
  unfold ponerBit
  split <;> rfl

@[simp] theorem ponerBit_segmentos (b : Bool) : (s.ponerBit i b).segmentos = s.segmentos := by
  unfold ponerBit
  split <;> rfl

@[simp] theorem ponerBit_paginas (b : Bool) : (s.ponerBit i b).paginas = s.paginas := by
  unfold ponerBit
  split <;> rfl

@[simp] theorem ponerBit_frames (b : Bool) : (s.ponerBit i b).frames = s.frames := by
  unfold ponerBit
  split <;> rfl

variable (cfg : Configuracion)

/-- Moving in the swap file changes nothing else. -/
theorem posicionar_eq : ∃ x, s.posicionar cfg i = { s with posicionSwap := x } := by
  unfold posicionar
  split
  · exact ⟨s.posicionSwap, rfl⟩
  · exact ⟨_, rfl⟩

/-- Writing in the swap file changes nothing else. -/
theorem escribirSwap_eq (l : List UInt8) :
    ∃ m x, s.escribirSwap cfg i l = { s with swap := m, posicionSwap := x } := by
  obtain ⟨x, hx⟩ := s.posicionar_eq i cfg
  exact ⟨_, _, by rw [escribirSwap, hx]⟩

theorem leerSwap_eq : ∃ x, (s.leerSwap cfg i).2 = { s with posicionSwap := x } := by
  obtain ⟨x, hx⟩ := s.posicionar_eq i cfg
  exact ⟨_, by rw [leerSwap, hx]⟩

end Estado

theorem clockModificado_eq (cfg : Configuracion) (s : Estado) :
    ∃ l x, (clockModificado cfg s).2 = { s with frames := l, punteroClock := x } := by
  unfold clockModificado
  dsimp only
  split
  · exact ⟨_, _, rfl⟩
  · exact ⟨_, _, rfl⟩

/-- The search of the page of a frame does not look at the frames. -/
theorem buscarPaginaAsociadaAFrame_frames (s : Estado) (l : List Frame) (x : ℕ) (f : ℤ) :
    Estado.buscarPaginaAsociadaAFrame { s with frames := l, punteroClock := x } f =
      s.buscarPaginaAsociadaAFrame f := by
  have hclientes : ∀ posiciones,
      Estado.buscarEnClientes { s with frames := l, punteroClock := x } f posiciones =
        s.buscarEnClientes f posiciones := by
    intro posiciones
    induction posiciones with
    | nil => rfl
    | cons i posiciones ih =>
        rw [Estado.buscarEnClientes, Estado.buscarEnClientes, ih]
        rfl
  exact hclientes _

/-! ## What goes to swap and comes back -/

/-- What `llevarASwapUnaPagina` does with a page: it gets the slot and loses its frame. -/
structure Llevada (t : Estado) (p : ℕ) (pag : Pagina) (bitSwap : ℤ) (s : Estado) : Prop where
  pagina : t.paginas[p]? = some pag
  tieneFrame : (t.frame pag.numeroFrame).isSome
  paginas : s.paginas = (t.modificarPagina p fun _ => ⟨false, -1, bitSwap⟩).paginas
  bitmapSwap : s.bitmapSwap = (t.ponerBit bitSwap true).bitmapSwap
  frames : s.frames = (t.modificarFrame pag.numeroFrame fun _ => ⟨false, false, true⟩).frames
  segmentos : s.segmentos = t.segmentos
  tablasSegmentos : s.tablasSegmentos = t.tablasSegmentos

theorem triple_llevarASwapUnaPagina (cfg : Configuracion) (t : Estado) (p : ℕ) :
    Triple ok (· = t) (llevarASwapUnaPagina cfg p) fun bitSwap s =>
      ok t (.aSwap p) ∧ bitSwap = indice (buscarIndiceSwapLibre t) ∧
        ∃ pag, Llevada t p pag bitSwap s := by
  refine exec_pagina fun pag hpag => exec_mark fun hok => exec_gets (exec_modify (exec_modify
    (exec_modify (exec_tocarFrame fun hframe => exec_pure ⟨hok, rfl, pag, ?_⟩))))
  obtain ⟨m, x, heq⟩ := t.escribirSwap_eq (indice (buscarIndiceSwapLibre t)) cfg
    (fotoPagina cfg pag)
  simp only [id_eq, heq] at hframe ⊢
  constructor
  · exact hpag
  · rw [Estado.frame, Estado.ponerBit_frames] at hframe
    exact hframe
  · simp [Estado.modificarPagina]
  · simp [Estado.ponerBit_bitmapSwap, Estado.modificarPagina]
  · simp [Estado.modificarFrame_frames, Estado.modificarPagina]
  · simp [Estado.modificarPagina]
  · simp [Estado.modificarPagina]

/-- What `cargarPagina` does with a page: it gets the first free frame, which stays free,
and loses its slot. -/
structure Cargada (t : Estado) (p : ℕ) (pag : Pagina) (s : Estado) : Prop where
  pagina : t.paginas[p]? = some pag
  paginas : s.paginas =
    (t.modificarPagina p fun _ => ⟨true, indice (buscarFrameLibre t), -1⟩).paginas
  bitmapSwap : s.bitmapSwap = (t.ponerBit pag.indiceSwap false).bitmapSwap
  frames : s.frames = t.frames
  segmentos : s.segmentos = t.segmentos
  tablasSegmentos : s.tablasSegmentos = t.tablasSegmentos

/-- `obtenerPosicionMemoriaPagina` changes nothing but a page that is in swap. -/
theorem triple_obtenerPosicionMemoriaPagina (cfg : Configuracion) (t : Estado) (p : ℕ) :
    Triple ok (· = t) (obtenerPosicionMemoriaPagina cfg p) fun _ s =>
      s = t ∨ ok t (.carga p) ∧ ∃ pag, pag.presencia = false ∧ Cargada t p pag s := by
  refine exec_pagina fun pag hpag => triple_ite (fun hc => ?_) fun _ => ?_
  · refine exec_bind (Q := fun _ s => ok t (.carga p) ∧ Cargada t p pag s) ?_ fun _ s hs => ?_
    · refine exec_mark fun hok => exec_gets (exec_modify (exec_modify ?_))
      refine triple_modify _ ?_
      rintro s rfl
      refine ⟨hok, hpag, ?_, ?_, ?_, ?_, ?_⟩
      · simp [Estado.copiar, Estado.modificarPagina]
      · simp [Estado.copiar, Estado.modificarPagina]
      · simp [Estado.copiar, Estado.modificarPagina]
      · simp [Estado.copiar, Estado.modificarPagina]
      · simp [Estado.copiar, Estado.modificarPagina]
    · exact exec_pagina fun pag' _ => exec_pure (Or.inr ⟨hs.1, pag, hc.1, hs.2⟩)
  · exact exec_pagina fun pag' _ => exec_pure (Or.inl rfl)

/-- What `traerPagina` does with a page once it has a frame for it. -/
structure Traida (t : Estado) (p : ℕ) (pag : Pagina) (frame : ℕ) (s : Estado) : Prop where
  existe : (t.frame frame).isSome
  paginas : s.paginas = (t.modificarPagina p fun _ => ⟨true, frame, -1⟩).paginas
  bitmapSwap : s.bitmapSwap = (t.ponerBit pag.indiceSwap false).bitmapSwap
  frames : s.frames =
    (t.modificarFrame frame fun f => { f with modificado := false, uso := true }).frames
  segmentos : s.segmentos = t.segmentos
  tablasSegmentos : s.tablasSegmentos = t.tablasSegmentos

/-- `traerPagina`, from what giving a frame does. -/
theorem triple_traerPagina (cfg : Configuracion) (p : ℕ) {M : Pagina → Estado → Prop}
    {Q : Pagina → ℕ → Estado → Prop} {R : ℕ → Estado → Prop}
    (hpag : ∀ s pag x, P s → s.paginas[p]? = some pag → M pag { s with posicionSwap := x })
    (hasignar : ∀ pag, Triple ok (fun s => M pag s ∧ ok s (.trae p)) (asignarUnFrame cfg) (Q pag))
    (htraida : ∀ pag frame t s, Q pag frame t → Traida t p pag frame s → R frame s) :
    Triple ok P (traerPagina cfg p) R := by
  refine triple_of_forall fun t ht => exec_pagina fun pag hp => exec_gets (exec_modify ?_)
  obtain ⟨x, hx⟩ := t.leerSwap_eq pag.indiceSwap cfg
  rw [hx]
  refine exec_mark fun hok => ?_
  refine triple_bind (triple_conseq (hasignar pag) ?_ fun _ _ hs => hs) fun frame => ?_
  · rintro s rfl
    exact ⟨hpag t pag x ht hp, hok⟩
  refine triple_of_forall fun u hu => exec_modify (exec_modify (exec_tocarFrame fun hframe =>
    exec_modify (exec_pure (htraida pag frame u _ hu ?_))))
  constructor
  · rw [Estado.frame, Estado.ponerBit_frames] at hframe
    exact hframe
  · simp [Estado.copiar, Estado.modificarPagina]
  · simp [Estado.copiar, Estado.ponerBit_bitmapSwap, Estado.modificarPagina]
  · simp [Estado.copiar, Estado.modificarFrame_frames, Estado.modificarPagina]
  · simp [Estado.copiar, Estado.modificarPagina]
  · simp [Estado.copiar, Estado.modificarPagina]

/-- What `paginaNueva` does once it has a frame. -/
structure Agregada (t : Estado) (f : ℕ) (s : Estado) : Prop where
  existe : (t.frame f).isSome
  paginas : s.paginas = t.paginas ++ [⟨true, f, -1⟩]
  bitmapSwap : s.bitmapSwap = t.bitmapSwap
  frames : s.frames = (t.modificarFrame f fun _ => ⟨true, true, false⟩).frames

/-- `paginaNueva`, from what giving a frame does. -/
theorem triple_paginaNueva (cfg : Configuracion) (g : ℕ) {Q : ℕ → Estado → Prop}
    {R : Estado → Prop} (hasignar : Triple ok P (asignarUnFrame cfg) Q)
    (hagregada : ∀ f t s, Q f t → Agregada t f s → R s) :
    Triple ok P (paginaNueva cfg g) fun _ => R := by
  refine triple_bind hasignar fun f => triple_of_forall fun t ht => ?_
  refine exec_tocarFrame fun hf => exec_gets (exec_modify (exec_pure ?_))
  refine hagregada f t _ ht ⟨hf, ?_, ?_, ?_⟩
  · simp [Estado.agregarPagina, Estado.modificarSegmento]
  · simp [Estado.agregarPagina, Estado.modificarSegmento]
  · simp [Estado.agregarPagina, Estado.modificarSegmento]

/-- What `asignarUnFrame` does: it takes a free frame, or the one of the clock, whose
page goes to swap if it is found. -/
theorem triple_asignarUnFrame (cfg : Configuracion) (t : Estado) :
    Triple ok (· = t) (asignarUnFrame cfg) fun f s =>
      (buscarFrameLibre t = some f ∧ s = t.reservar f) ∨
      (buscarFrameLibre t = none ∧ (clockModificado cfg t).1 = some f ∧
        ok (clockModificado cfg t).2 (.reemplaza f) ∧
        ((t.buscarPaginaAsociadaAFrame f = some none ∧ s = (clockModificado cfg t).2.reservar f) ∨
          ∃ p pag bitSwap, t.buscarPaginaAsociadaAFrame f = some (some p) ∧
            Llevada ((clockModificado cfg t).2.reservar f) p pag bitSwap s)) := by
  refine exec_gets (triple_elim (fun hlibre => ?_) fun f hlibre => ?_)
  · refine exec_gets (triple_orFail_bind fun f hf => exec_modify (exec_mark fun hok => ?_))
    have hbuscar : ((clockModificado cfg t).2.reservar f).buscarPaginaAsociadaAFrame f =
        t.buscarPaginaAsociadaAFrame f := by
      obtain ⟨l, x, hx⟩ := clockModificado_eq cfg t
      obtain ⟨l', hl'⟩ := (clockModificado cfg t).2.modificarFrame_eq f fun _ => ⟨true, true, false⟩
      rw [Estado.reservar, hl', hx]
      exact buscarPaginaAsociadaAFrame_frames t l' x f
    refine exec_modify (exec_bind (Q := fun _ s => (t.buscarPaginaAsociadaAFrame f = some none ∧
      s = (clockModificado cfg t).2.reservar f) ∨
        ∃ p pag bitSwap, t.buscarPaginaAsociadaAFrame f = some (some p) ∧
          Llevada ((clockModificado cfg t).2.reservar f) p pag bitSwap s) ?_ fun _ s hs => ?_)
    · refine exec_gets (triple_orFail_bind fun victima hvictima => ?_)
      have hv : t.buscarPaginaAsociadaAFrame f = some victima := by
        rw [← hbuscar]
        exact hvictima
      refine triple_elim (fun hnone => exec_pure (Or.inl ⟨by rw [hv, hnone], rfl⟩)) fun p hp => ?_
      refine exec_bind (triple_llevarASwapUnaPagina cfg _ p) fun bitSwap s hs => exec_pure ?_
      obtain ⟨_, _, pag, hs⟩ := hs
      exact Or.inr ⟨p, pag, bitSwap, by rw [hv, hp], hs⟩
    · exact exec_pure (Or.inr ⟨hlibre, hf, hok, hs⟩)
  · exact exec_modify (exec_pure (Or.inl ⟨hlibre, rfl⟩))

/-! ## Giving a frame -/

/-- A property that does not look at the frames is kept when a page goes to swap, and
so when a frame is given. -/
theorem keeps_asignarUnFrame (cfg : Configuracion)
    (hframes : ∀ (s : Estado) l x, I s → I { s with frames := l, punteroClock := x })
    (hswap : ∀ p, Keeps ok I (llevarASwapUnaPagina cfg p)) : Keeps ok I (asignarUnFrame cfg) := by
  have hreservar : ∀ f, Keeps ok I (modify fun s => s.reservar f) := by
    intro f
    refine keeps_modify _ fun s hs => ?_
    obtain ⟨l, heq⟩ := s.modificarFrame_eq f fun _ => ⟨true, true, false⟩
    rw [Estado.reservar, heq]
    exact hframes s l s.punteroClock hs
  refine keeps_bind (keeps_gets _) fun s => keeps_elim (fun _ => ?_) fun f _ => ?_
  · refine keeps_bind (keeps_gets _) fun s => keeps_bind (keeps_orFail _) fun f => ?_
    refine keeps_bind (keeps_modify _ fun s hs => ?_) fun _ => ?_
    · obtain ⟨l, x, heq⟩ := clockModificado_eq cfg s
      rw [heq]
      exact hframes s l x hs
    refine keeps_bind (keeps_mark _) fun _ => keeps_bind (hreservar f) fun _ => ?_
    have hdesalojar : Keeps ok I (desalojar cfg f) := by
      refine keeps_bind (keeps_gets _) fun s => keeps_bind (keeps_orFail _) fun victima => ?_
      refine keeps_elim (fun _ => keeps_pure _) fun p _ => ?_
      exact keeps_bind (hswap p) fun _ => keeps_pure _
    exact keeps_bind hdesalojar fun _ => keeps_pure _
  · exact keeps_bind (hreservar f) fun _ => keeps_pure _

/-! ## Frames do not touch the tables -/

section DeSegmentos

variable (cfg : Configuracion)

theorem DeSegmentos.keeps_modify (h : DeSegmentos I) (f : Estado → Estado)
    (ht : ∀ s, (f s).tablasSegmentos = s.tablasSegmentos)
    (hs : ∀ s, (f s).segmentos = s.segmentos) : Keeps ok I (modify f) :=
  Marked.keeps_modify _ fun s hI => h s _ (ht s) (hs s) hI

theorem DeSegmentos.keeps_tocarFrame (h : DeSegmentos I) (i : ℤ) (f : Frame → Frame) :
    Keeps ok I (tocarFrame i f) :=
  Muse.keeps_tocarFrame i f fun s hI => h s _ (by simp) (by simp) hI

theorem DeSegmentos.keeps_llevarASwapUnaPagina (h : DeSegmentos I) (p : ℕ) :
    Keeps ok I (llevarASwapUnaPagina cfg p) := by
  refine triple_of_forall fun t ht => triple_conseq (triple_llevarASwapUnaPagina cfg t p)
    (fun _ hs => hs) ?_
  rintro _ s ⟨_, _, pag, hs⟩
  exact h t s hs.tablasSegmentos hs.segmentos ht

theorem DeSegmentos.keeps_asignarUnFrame (h : DeSegmentos I) :
    Keeps ok I (asignarUnFrame cfg) :=
  Muse.keeps_asignarUnFrame cfg (fun s _ _ hI => h s _ rfl rfl hI) fun p =>
    h.keeps_llevarASwapUnaPagina cfg p

theorem DeSegmentos.keeps_obtenerPosicionMemoriaPagina (h : DeSegmentos I) (p : ℕ) :
    Keeps ok I (obtenerPosicionMemoriaPagina cfg p) := by
  refine triple_of_forall fun t ht => triple_conseq (triple_obtenerPosicionMemoriaPagina cfg t p)
    (fun _ hs => hs) ?_
  rintro _ s (rfl | ⟨_, pag, _, hs⟩)
  · exact ht
  · exact h t s hs.tablasSegmentos hs.segmentos ht

theorem DeSegmentos.keeps_traerPagina (h : DeSegmentos I) (p : ℕ) :
    Keeps ok I (traerPagina cfg p) := by
  refine triple_traerPagina cfg p (M := fun _ => I) (Q := fun _ _ => I) ?_ ?_ ?_
  · exact fun s pag x hs _ => h s _ rfl rfl hs
  · exact fun pag => triple_conseq (h.keeps_asignarUnFrame cfg) (fun _ hs => hs.1) fun _ _ hs => hs
  · exact fun pag frame t s ht hs => h t s hs.tablasSegmentos hs.segmentos ht

end DeSegmentos

/-! ## Building a segment -/

/-- The change of a segment keeps what the tables and the pages depend on. -/
def SoloDatos (f : Segmento → Segmento) : Prop :=
  ∀ seg, (f seg).id = seg.id ∧ (f seg).esComun = seg.esComun ∧
    (f seg).tablaPaginas = seg.tablaPaginas

/-- What the operations on a segment that is under construction keep. -/
structure Conservado (cfg : Configuracion) (ok : Estado → Suceso → Prop) (I : Estado → Prop) :
    Prop where
  memoria : ∀ (s : Estado) a l, I s → I (s.copiar a l)
  marcas : ∀ (s : Estado) i f, (∀ x : Frame, (f x).estaLibre = x.estaLibre) → I s →
    I (s.modificarFrame i f)
  datos : ∀ (s : Estado) g f, SoloDatos f → I s → I (s.modificarSegmento g f)
  asignar : Keeps ok I (asignarUnFrame cfg)
  nueva : ∀ g, Keeps ok I (paginaNueva cfg g)
  posicion : ∀ p, Keeps ok I (obtenerPosicionMemoriaPagina cfg p)

section Conservado

variable {cfg : Configuracion}

theorem Conservado.and (h : Conservado cfg ok I) (h' : Conservado cfg ok J) :
    Conservado cfg ok fun s => I s ∧ J s where
  memoria s a l hs := ⟨h.memoria s a l hs.1, h'.memoria s a l hs.2⟩
  marcas s i f hf hs := ⟨h.marcas s i f hf hs.1, h'.marcas s i f hf hs.2⟩
  datos s g f hf hs := ⟨h.datos s g f hf hs.1, h'.datos s g f hf hs.2⟩
  asignar := h.asignar.and h'.asignar
  nueva g := (h.nueva g).and (h'.nueva g)
  posicion p := (h.posicion p).and (h'.posicion p)

theorem rasgos_modificarSegmento (s : Estado) (g : ℕ) {f : Segmento → Segmento}
    (hf : ∀ seg, (f seg).id = seg.id ∧ (f seg).esComun = seg.esComun) :
    rasgos (s.modificarSegmento g f) = rasgos s := by
  apply List.ext_getElem?
  intro k
  simp only [rasgos, Estado.modificarSegmento, List.getElem?_map, List.getElem?_modify]
  cases s.segmentos[k]? with
  | none => rfl
  | some seg =>
      by_cases hk : g = k
      · simp [hk, hf seg]
      · simp [hk]

/-- A property of the tables is kept while a segment is built. -/
theorem DeTablas.conservado (h : DeTablas I) : Conservado cfg ok I where
  memoria s a l hs := h s _ rfl rfl hs
  marcas s i f _ hs := h s _ (by simp) (by simp [rasgos]) hs
  datos s g f hf hs := by
    exact h s _ rfl (rasgos_modificarSegmento s g fun seg => ⟨(hf seg).1, (hf seg).2.1⟩) hs
  asignar := h.deSegmentos.keeps_asignarUnFrame cfg
  nueva g := by
    refine keeps_bind (h.deSegmentos.keeps_asignarUnFrame cfg) fun f => ?_
    refine keeps_bind (h.deSegmentos.keeps_tocarFrame _ _) fun _ => ?_
    refine keeps_bind (keeps_gets _) fun s => ?_
    refine keeps_bind (keeps_modify _ fun s hs => ?_) fun _ => keeps_pure _
    exact h s _ rfl (rasgos_modificarSegmento _ g fun seg => ⟨rfl, rfl⟩) hs
  posicion p := h.deSegmentos.keeps_obtenerPosicionMemoriaPagina cfg p

theorem Conservado.keeps_copiar (h : Conservado cfg ok I) (a : ℤ) (l : List UInt8) :
    Keeps ok I (modify fun s => s.copiar a l) :=
  keeps_modify _ fun s hs => h.memoria s a l hs

theorem Conservado.keeps_tocarFrame (h : Conservado cfg ok I) (i : ℤ) {f : Frame → Frame}
    (hf : ∀ x, (f x).estaLibre = x.estaLibre) : Keeps ok I (tocarFrame i f) :=
  Muse.keeps_tocarFrame i f fun s hs => h.marcas s i f hf hs

theorem Conservado.keeps_crecer (h : Conservado cfg ok I) (g : ℕ) (paginas : ℤ) :
    Keeps ok I (crecer cfg g paginas) :=
  keeps_modify _ fun s hs => h.datos s g _ (fun _ => ⟨rfl, rfl, rfl⟩) hs

theorem Conservado.keeps_agregarHeap (h : Conservado cfg ok I) (g : ℕ) (heap : HeapLista) :
    Keeps ok I (agregarHeap g heap) :=
  keeps_modify _ fun s hs => h.datos s g _ (fun _ => ⟨rfl, rfl, rfl⟩) hs

theorem Conservado.keeps_modificarUltimoHeap (h : Conservado cfg ok I) (g : ℕ)
    (f : HeapLista → HeapLista) : Keeps ok I (modify fun s => s.modificarUltimoHeap g f) :=
  keeps_modify _ fun s hs => h.datos s g _ (fun _ => ⟨rfl, rfl, rfl⟩) hs

theorem Conservado.keeps_ubicarMetadataYHeapLista (h : Conservado cfg ok I) (g : ℕ)
    (ubicacionHeap : ℤ) (isFree : Bool) (size pag : ℤ) :
    Keeps ok I (ubicarMetadataYHeapLista cfg g ubicacionHeap isFree size pag) := by
  refine keeps_bind (keeps_segmento g) fun seg => keeps_bind (keeps_obtener _ _) fun p => ?_
  refine keeps_bind (keeps_pagina p) fun primera => ?_
  refine keeps_bind (h.keeps_tocarFrame _ fun _ => rfl) fun _ => ?_
  refine keeps_bind (h.posicion p) fun pos => keeps_ite (fun _ => ?_) fun _ => ?_
  · refine keeps_bind ?_ fun _ => keeps_pure _
    refine keeps_bind (h.keeps_agregarHeap g _) fun _ => keeps_bind (h.keeps_copiar _ _) fun _ => ?_
    refine keeps_bind (h.nueva g) fun segundaPagina => keeps_bind (h.keeps_crecer g 1) fun _ => ?_
    refine keeps_bind (h.posicion _) fun pos => keeps_bind (h.keeps_copiar _ _) fun _ => ?_
    exact keeps_bind (h.posicion p) fun _ => keeps_pure _
  · refine keeps_bind (h.keeps_agregarHeap g _) fun _ => ?_
    exact keeps_bind (h.keeps_copiar _ _) fun _ => keeps_pure _

theorem Conservado.keeps_asignarPrimeraPaginaSegmento (h : Conservado cfg ok I) (g : ℕ)
    (tamanio : ℤ) : Keeps ok I (asignarPrimeraPaginaSegmento cfg g tamanio) := by
  refine keeps_bind (h.nueva g) fun primeraPagina => keeps_bind (keeps_pagina _) fun pag => ?_
  refine keeps_bind (keeps_segmento g) fun seg => keeps_bind (keeps_gets _) fun s => ?_
  refine keeps_bind (h.keeps_ubicarMetadataYHeapLista g _ _ _ _) fun sePartio => ?_
  exact keeps_bind (h.keeps_crecer g _) fun _ => keeps_pure _

theorem Conservado.keeps_asignarUltimaPaginaSegmento (h : Conservado cfg ok I) (g : ℕ)
    (tamanio : ℤ) : Keeps ok I (asignarUltimaPaginaSegmento cfg g tamanio) := by
  refine keeps_bind (keeps_segmento g) fun seg => keeps_bind (keeps_obtener _ _) fun p => ?_
  refine keeps_bind (keeps_pagina p) fun pag => ?_
  refine keeps_bind (h.keeps_ubicarMetadataYHeapLista g _ _ _ _) fun _ => ?_
  exact h.keeps_crecer g 1

theorem Conservado.keeps_asignarPaginas (h : Conservado cfg ok I) (g paginasNecesarias : ℕ)
    (bytes : ℤ) : Keeps ok I (asignarPaginas cfg g paginasNecesarias bytes) := by
  induction paginasNecesarias generalizing bytes with
  | zero => exact keeps_pure _
  | succ n ih =>
      refine keeps_ite (fun _ => ?_) fun _ => ?_
      · have hnueva : Keeps ok I (asignarNuevaPagina cfg g) :=
          keeps_bind (h.nueva g) fun _ => h.keeps_crecer g 1
        exact keeps_bind hnueva fun _ => ih _
      · exact keeps_bind (h.keeps_asignarUltimaPaginaSegmento g bytes) fun _ => ih _

theorem Conservado.keeps_extenderSegmento (h : Conservado cfg ok I) (g : ℕ) (tamanio : ℤ) :
    Keeps ok I (extenderSegmento cfg g tamanio) := by
  refine keeps_bind (keeps_segmento g) fun seg => keeps_bind (keeps_obtener _ _) fun ultimo => ?_
  refine keeps_bind (h.keeps_modificarUltimoHeap g _) fun _ => ?_
  exact h.keeps_asignarPaginas g _ _

theorem keeps_direccionDatos (hposicion : ∀ p, Keeps ok I (obtenerPosicionMemoriaPagina cfg p))
    (g : ℕ) (heap : HeapLista) : Keeps ok I (direccionDatos cfg g heap) := by
  refine keeps_bind (keeps_segmento g) fun seg => keeps_ite (fun _ => ?_) fun _ => ?_
  · refine keeps_bind (keeps_obtener _ _) fun p => ?_
    exact keeps_bind (hposicion p) fun _ => keeps_pure _
  · refine keeps_bind (keeps_obtener _ _) fun p => ?_
    exact keeps_bind (hposicion p) fun _ => keeps_pure _

theorem Conservado.keeps_direccionDatos (h : Conservado cfg ok I) (g : ℕ) (heap : HeapLista) :
    Keeps ok I (direccionDatos cfg g heap) := Muse.keeps_direccionDatos h.posicion g heap

end Conservado

/-! ## The tables -/

/-- Each table lists common segments, each at its identifier. -/
def Tablas (s : Estado) : Prop :=
  ∀ (sd : ℕ) (segmentos : List ℕ) (j g : ℕ), s.tablasSegmentos.get sd = some segmentos →
    segmentos[j]? = some g →
    (rasgos s)[g]? = some ((j : ℤ), true)

/-- The segment is listed in the table of the client under its identifier. -/
def Vigente (seg : Segmento) (sd : ℕ) (s : Estado) : Prop :=
  ∃ segmentos g, s.tablasSegmentos.get sd = some segmentos ∧
    elemento segmentos seg.id = some g ∧ s.segmentos[g]? = some seg

theorem tablas_deTablas : DeTablas Tablas := by
  intro s s' ht hr hs sd segmentos j g hget hj
  rw [hr]
  rw [ht] at hget
  exact hs sd segmentos j g hget hj

theorem vigente_deSegmentos (seg : Segmento) (sd : ℕ) : DeSegmentos (Vigente seg sd) := by
  rintro s s' ht hs ⟨segmentos, g, hget, hj, hg⟩
  exact ⟨segmentos, g, by rw [ht]; exact hget, hj, by rw [hs]; exact hg⟩

theorem Tablas.rasgos_eq {s : Estado} (h : Tablas s) {sd j g : ℕ} {segmentos : List ℕ}
    {seg : Segmento} (hget : s.tablasSegmentos.get sd = some segmentos)
    (hj : segmentos[j]? = some g) (hseg : s.segmentos[g]? = some seg) :
    seg.id = j ∧ seg.esComun = true := by
  have heq := h sd segmentos j g hget hj
  rw [rasgos, List.getElem?_map, hseg, Option.map_some, Option.some.injEq, Prod.mk.injEq] at heq
  exact heq

theorem getElem?_of_elemento {α : Type} {l : List α} {i : ℤ} {a : α}
    (h : elemento l i = some a) : 0 ≤ i ∧ l[i.toNat]? = some a := by
  rw [elemento] at h
  split_ifs at h with hi
  exact ⟨not_lt.1 hi, h⟩

theorem elemento_natCast {α : Type} (l : List α) (i : ℕ) : elemento l i = l[i]? := by
  rw [elemento, if_neg (by omega), Int.toNat_natCast]

/-! ## Pages that are in memory -/

/-- The page is not in memory. -/
def Ausente (p : ℕ) (s : Estado) : Prop :=
  ∃ pag, s.paginas[p]? = some pag ∧ pag.presencia = false

/-- The page, if there is one, is in memory. -/
def Presente (p : ℕ) (s : Estado) : Prop :=
  ∀ pag, s.paginas[p]? = some pag → pag.presencia = true

theorem modificarPagina_getElem? (s : Estado) (p q : ℕ) (f : Pagina → Pagina) :
    (s.modificarPagina p f).paginas[q]? = (s.paginas[q]?).map fun pag =>
      if p = q then f pag else pag := by
  rw [Estado.modificarPagina, List.getElem?_modify]
  split_ifs with h
  · rfl
  · simp

/-- Only the page that is changed changes. -/
theorem getElem?_of_paginas_of_ne {s t : Estado} {p q : ℕ} {f : Pagina → Pagina}
    (h : s.paginas = (t.modificarPagina p f).paginas) (hq : q ≠ p) :
    s.paginas[q]? = t.paginas[q]? := by
  rw [h, modificarPagina_getElem?]
  cases t.paginas[q]? with
  | none => rfl
  | some pag => rw [Option.map_some, if_neg hq.symm]

theorem getElem?_of_paginas {s t : Estado} {p : ℕ} {pag : Pagina} {f : Pagina → Pagina}
    (h : s.paginas = (t.modificarPagina p f).paginas) (hp : t.paginas[p]? = some pag) :
    s.paginas[p]? = some (f pag) := by
  rw [h, modificarPagina_getElem?, hp, Option.map_some, if_pos rfl]

/-- A page that is not in memory stays so while a frame is given. -/
theorem keeps_ausente (cfg : Configuracion) (p : ℕ) :
    Keeps ok (Ausente p) (asignarUnFrame cfg) := by
  refine keeps_asignarUnFrame cfg (fun _ _ _ hs => hs) fun q => ?_
  refine triple_of_forall fun t ht => triple_conseq (triple_llevarASwapUnaPagina cfg t q)
    (fun _ hs => hs) ?_
  rintro i s ⟨_, _, _, hs⟩
  obtain ⟨pag, hpag, hpres⟩ := ht
  refine ⟨_, by rw [hs.paginas, modificarPagina_getElem?, hpag]; rfl, ?_⟩
  split_ifs
  · rfl
  · exact hpres

/-- A page that is brought back is in memory. -/
theorem triple_traerPagina_presente (cfg : Configuracion) (p : ℕ) :
    Triple ok P (traerPagina cfg p) fun _ s => Presente p s := by
  refine triple_traerPagina cfg p (M := fun _ _ => True) (Q := fun _ _ _ => True)
    (fun _ _ _ _ _ => trivial) (fun _ => triple_true _) ?_
  intro pag frame t s _ hs pag' hpag'
  rw [hs.paginas, modificarPagina_getElem?, Option.map_eq_some_iff] at hpag'
  obtain ⟨x, _, rfl⟩ := hpag'
  rw [if_pos rfl]

end Muse
