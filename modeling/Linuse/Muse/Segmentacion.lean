import Linuse.Muse.Cierre

/-!
# The table of segments of a process

The segments of a process should have ranges of addresses that do not overlap and the
identifier that is their place in the list; then the two ways of looking for the segment
of an address give the same one. A process that only asks for blocks has one segment,
which grows, so that this holds; a segment that maps a file has an identifier that is
not its place, from the moment in which it is made (`segmentada_iff`).
-/

namespace Muse

open Memory Marked

variable {cfg : Configuracion} {ok : Estado → Suceso → Prop}

/-! ## Requests on segments -/

/-- `muse_unmap`: the segment leaves the list, and those after it move. -/
def muse_unmap (dir : ℤ) (idSocketCliente : ℕ) : Codigo ℤ := do
  let s ← gets id
  let listaSegmentos ← orFail (s.tablasSegmentos.get idSocketCliente)
  let idSegmento := idSegmentoQueContieneDireccion s listaSegmentos dir
  let g ← obtener listaSegmentos idSegmento
  let seg ← segmento g
  if seg.esComun = true then return -1
  else do
    modify fun s => s.ponerTabla idSocketCliente (listaSegmentos.eraseIdx idSegmento.toNat)
    return 0

/-- The requests that make and remove segments, after the one that makes the table. -/
inductive Solicitud
  | init
  | malloc (tamanio : ℤ)
  /-- `nuevo` is what the structure has in memory before the request. -/
  | map (nuevo : Segmento) (path : List UInt8)
  | unmap (dir : ℤ)
  deriving DecidableEq

/-- The function that serves a request of a process. -/
def atenderSolicitud (cfg : Configuracion) (sd : ℕ) : Solicitud → Codigo Unit
  | .init => do
      let _ ← museinit sd
  | .malloc tamanio => do
      let _ ← musemalloc cfg tamanio sd
  | .map nuevo path => do
      let _ ← musemap nuevo path sd
  | .unmap dir => do
      let _ ← muse_unmap dir sd

/-- The state after a request of a process. -/
def trasSolicitud (cfg : Configuracion) (s : Estado) (e : ℕ × Solicitud) : Except Unit Estado :=
  (atenderSolicitud cfg e.1 e.2 s).elim (.error ()) fun r => .ok r.2.1

/-- The runs of requests of the processes, from the start of the server. -/
abbrev Solicitudes (cfg : Configuracion) :
    List (Transition.Step Estado (ℕ × Solicitud)) → Estado → Prop :=
  Transition.Run (fun s e s' => trasSolicitud cfg s e = .ok s') (inicial cfg)

theorem runs_of_trasSolicitud {s s' : Estado} {e : ℕ × Solicitud}
    (h : trasSolicitud cfg s e = .ok s') :
    ∃ marcas, Runs (atenderSolicitud cfg e.1 e.2) s () s' marcas := by
  rw [trasSolicitud] at h
  cases hr : atenderSolicitud cfg e.1 e.2 s with
  | none =>
      rw [hr] at h
      cases h
  | some r =>
      rw [hr, Option.elim_some, Except.ok.injEq] at h
      exact ⟨r.2.2, by rw [Runs, hr, ← h]⟩

/-! ## Segmented tables -/

/-- The address is in the range of the segment. -/
def Abarca (seg : Segmento) (d : ℤ) : Prop :=
  seg.baseLogica ≤ d ∧ d < seg.baseLogica + seg.tamanio

/-- The list of segments is as its users take it to be. -/
structure Segmentada (s : Estado) (segmentos : List ℕ) : Prop where
  disjuntos : ∀ (i j g h : ℕ) (seg seg' : Segmento), i ≠ j → segmentos[i]? = some g →
    segmentos[j]? = some h → s.segmentos[g]? = some seg → s.segmentos[h]? = some seg' →
    ∀ d, ¬ (Abarca seg d ∧ Abarca seg' d)
  identificados : ∀ (i g : ℕ) (seg : Segmento), segmentos[i]? = some g →
    s.segmentos[g]? = some seg → seg.id = i
  mismo : ∀ d, elemento segmentos (idSegmentoQueContieneDireccion s segmentos d) =
    segmentoQueContieneDireccion s segmentos d

/-- The table of the process, if it has one, is segmented. -/
def TablaSegmentada (s : Estado) (sd : ℕ) : Prop :=
  ∀ segmentos, s.tablasSegmentos.get sd = some segmentos → Segmentada s segmentos

/-- The process has at most one segment, for blocks, with the first identifier. -/
def UnSegmento (sd : ℕ) (s : Estado) : Prop :=
  ∀ segmentos, s.tablasSegmentos.get sd = some segmentos →
    segmentos = [] ∨ ∃ g, segmentos = [g] ∧ (rasgos s)[g]? = some (0, true)

theorem unSegmento_deTablas (sd : ℕ) : DeTablas (UnSegmento sd) := by
  intro s s' ht hr hs segmentos hget
  rw [hr]
  rw [ht] at hget
  exact hs segmentos hget

theorem segmento_of_rasgos {s : Estado} {g : ℕ} {i : ℤ} {b : Bool}
    (h : (rasgos s)[g]? = some (i, b)) :
    ∃ seg, s.segmentos[g]? = some seg ∧ seg.id = i ∧ seg.esComun = b := by
  rw [rasgos, List.getElem?_map, Option.map_eq_some_iff] at h
  obtain ⟨seg, hseg, heq⟩ := h
  cases heq
  exact ⟨seg, hseg, rfl, rfl⟩

/-- A table with one segment is segmented. -/
theorem tablaSegmentada_of_unSegmento {s : Estado} {sd : ℕ} (h : UnSegmento sd s) :
    TablaSegmentada s sd := by
  intro segmentos hget
  rcases h segmentos hget with rfl | ⟨g, rfl, hg⟩
  · exact ⟨fun i j g h _ _ _ hi => by simp at hi, fun i g _ hi => by simp at hi, fun d => rfl⟩
  · obtain ⟨seg, hseg, hid, _⟩ := segmento_of_rasgos hg
    have hzero : ∀ {i k : ℕ}, [g][i]? = some k → i = 0 ∧ k = g := by
      intro i k hi
      rw [List.getElem?_singleton] at hi
      split_ifs at hi with h0
      cases hi
      exact ⟨h0, rfl⟩
    refine ⟨fun i j k h seg seg' hne hi hj => ?_, fun i k seg' hi hk => ?_, fun d => ?_⟩
    · exact absurd ((hzero hi).1.trans (hzero hj).1.symm) hne
    · obtain ⟨rfl, rfl⟩ := hzero hi
      cases hseg.symm.trans hk
      exact hid
    · rw [idSegmentoQueContieneDireccion, segmentoQueContieneDireccion, List.filterMap_cons, hseg,
        List.find?_cons, List.find?_cons, hseg, Option.any_some]
      cases decide (unsigned (d - seg.baseLogica) < seg.tamanio) with
      | true =>
          dsimp only
          rw [Option.elim_some, hid]
          rfl
      | false => rfl

/-! ## Requests that keep one segment -/

/-- The table of another process does not matter. -/
theorem unSegmento_ponerTabla_of_ne {s : Estado} {sd sd' : ℕ} {segmentos : List ℕ} (hne : sd ≠ sd')
    (h : UnSegmento sd s) : UnSegmento sd (s.ponerTabla sd' segmentos) := by
  intro l hget
  rw [Estado.ponerTabla, Dictionary.get_put_of_ne _ _ hne] at hget
  exact h l hget

theorem unSegmento_agregarSegmento {s : Estado} {sd : ℕ} {seg : Segmento} (h : UnSegmento sd s) :
    UnSegmento sd (s.agregarSegmento seg) := by
  intro l hget
  rcases h l hget with rfl | ⟨g, rfl, hg⟩
  · exact Or.inl rfl
  · refine Or.inr ⟨g, rfl, ?_⟩
    rw [rasgos_agregarSegmento]
    exact (List.getElem?_append_left (List.getElem?_eq_some_iff.1 hg).1).trans hg

/-- A process that has no segment gets its first one; another process may have others. -/
theorem triple_crearSegmento_unSegmento (sd sd' : ℕ) (tamanio : ℤ) :
    Triple ok (fun s => UnSegmento sd s ∧ (sd = sd' → s.tablasSegmentos.get sd = some []))
      (crearSegmento cfg tamanio sd') fun _ => UnSegmento sd := by
  refine triple_read fun t => triple_orFail_bind fun segmentosProceso hget => ?_
  have hbase : Keeps ok (fun s => UnSegmento sd s ∧ s = t) (baseNueva cfg segmentosProceso) := by
    refine keeps_ite (fun _ => keeps_pure _) fun _ => ?_
    refine keeps_bind (keeps_bind (keeps_obtener _ _) fun g => ?_) fun _ => keeps_pure _
    exact keeps_bind (keeps_segmento g) fun _ => keeps_pure _
  have hIK : Conservado cfg ok fun s => UnSegmento sd s ∧
      PorListar sd' segmentosProceso t.segmentos.length s :=
    (unSegmento_deTablas sd).conservado.and
      (porListar_deTablas sd' segmentosProceso t.segmentos.length).conservado
  refine triple_of_forall fun u hu => ?_
  obtain ⟨⟨hun, hvacia⟩, rfl⟩ := hu
  refine triple_conseq (P := fun s => UnSegmento sd s ∧ s = u) ?_ (fun s hs => ?_) fun _ _ h => h
  swap
  · rw [hs]
    exact ⟨hun, rfl⟩
  refine triple_bind hbase fun base => ?_
  refine triple_bind (Q := fun _ s => UnSegmento sd s ∧
    PorListar sd' segmentosProceso u.segmentos.length s) (triple_modify _ ?_) fun _ => ?_
  · rintro s ⟨hs, rfl⟩
    refine ⟨unSegmento_agregarSegmento hs, hget, ?_⟩
    rw [rasgos_agregarSegmento, List.getElem?_append_right (by simp [rasgos])]
    simp [rasgos]
  refine triple_bind (hIK.keeps_asignarPrimeraPaginaSegmento _ _) fun sePartio => ?_
  refine triple_bind (hIK.keeps_modificarUltimoHeap _ _) fun _ => ?_
  refine triple_bind (hIK.keeps_asignarPaginas _ _ _) fun _ => ?_
  refine triple_bind (Q := fun _ => UnSegmento sd) (triple_modify _ ?_) fun _ => keeps_pure _
  rintro s ⟨hs, _, hg⟩
  by_cases hsd : sd = sd'
  · subst hsd
    cases hget.symm.trans (hvacia rfl)
    intro l hl
    rw [Estado.ponerTabla, Dictionary.get_put_self] at hl
    cases hl
    exact Or.inr ⟨_, rfl, hg⟩
  · exact unSegmento_ponerTabla_of_ne hsd hs

/-- A single segment can always be extended. -/
theorem triple_buscarExtendible_unSegmento (g : ℕ) (tamanio : ℤ) :
    Triple ok (fun s => (rasgos s)[g]? = some (0, true)) (buscarExtendible cfg [g] tamanio [0])
      fun extendible _ => extendible = some g := by
  have hes : Triple ok (fun s => (rasgos s)[g]? = some (0, true))
      (esExtendible cfg [g] 0 tamanio) fun extendible _ => extendible = true := by
    refine triple_bind (triple_obtener _ _) fun ultimo => ?_
    refine triple_bind (triple_segmento ultimo) fun seg => ?_
    refine triple_bind (triple_obtener _ _) fun g' => ?_
    refine triple_bind (triple_segmento g') fun seg' => ?_
    refine triple_of_forall fun t ht => ?_
    obtain ⟨⟨⟨⟨hr, hultimo⟩, hseg⟩, hg'⟩, hseg'⟩ := ht
    have hu : ultimo = g := (Option.some.inj hultimo).symm
    have hg : g' = g := (Option.some.inj hg').symm
    subst hu hg
    obtain ⟨seg₀, hseg₀, _, hcomun⟩ := segmento_of_rasgos hr
    cases hseg₀.symm.trans hseg
    cases hseg₀.symm.trans hseg'
    rw [if_pos ⟨hcomun, rfl⟩]
    exact triple_pure _ fun _ _ => rfl
  refine triple_bind hes fun extendible => triple_of_forall fun t ht => ?_
  rw [ht, if_pos rfl]
  exact triple_pure _ fun _ _ => rfl

/-- The only segment of a process is extended, so that no other is made. -/
theorem triple_enSegmentos_unSegmento (sd g : ℕ) (tamanio : ℤ) :
    Triple ok (fun s => UnSegmento sd s ∧ (rasgos s)[g]? = some (0, true))
      (enSegmentos cfg [g] tamanio sd) fun _ => UnSegmento sd := by
  have hrasgo : DeTablas fun s => UnSegmento sd s ∧ (rasgos s)[g]? = some (0, true) := by
    rintro s s' ht hr ⟨hs, hg⟩
    exact ⟨unSegmento_deTablas sd s s' ht hr hs, by rw [hr]; exact hg⟩
  have hI : Conservado cfg ok fun s => UnSegmento sd s ∧ (rasgos s)[g]? = some (0, true) :=
    hrasgo.conservado
  refine triple_bind (Invariante.keeps_reutilizar hI [g] tamanio) fun reutilizada => ?_
  refine triple_elim (fun _ => ?_) fun _ _ => triple_pure _ fun _ hs => hs.1
  refine triple_bind (triple_conseq (triple_and
    (Invariante.keeps_buscarExtendible (I := fun s => UnSegmento sd s ∧
      (rasgos s)[g]? = some (0, true)) [g] (signed tamanio) [0])
    (triple_buscarExtendible_unSegmento g (signed tamanio))) (fun s hs => ⟨hs, hs.2⟩)
      fun _ _ hs => hs) fun extendible => triple_assume fun heq => ?_
  rw [heq]
  exact triple_conseq (Invariante.keeps_extender hI g tamanio) (fun _ hs => hs) fun _ _ hs => hs.1

theorem keeps_enSegmentos_otro {sd sd' : ℕ} (hne : sd ≠ sd') (l : List ℕ) (tamanio : ℤ) :
    Keeps ok (UnSegmento sd) (enSegmentos cfg l tamanio sd') := by
  have hI : Conservado cfg ok (UnSegmento sd) := (unSegmento_deTablas sd).conservado
  refine keeps_bind (Invariante.keeps_reutilizar hI l tamanio) fun reutilizada => ?_
  refine keeps_elim (fun _ => ?_) fun _ _ => keeps_pure _
  refine keeps_bind (Invariante.keeps_buscarExtendible l _ _) fun extendible => ?_
  refine keeps_elim (fun _ => ?_) fun g _ => Invariante.keeps_extender hI g tamanio
  refine triple_bind (triple_conseq (triple_crearSegmento_unSegmento sd sd' tamanio) ?_
    fun _ _ hs => hs) fun g => ?_
  · exact fun s hs => ⟨hs, fun heq => absurd heq hne⟩
  · refine keeps_bind (keeps_segmento g) fun seg => keeps_bind (keeps_obtener _ _) fun heap => ?_
    exact hI.keeps_direccionDatos g heap

theorem keeps_musemalloc_unSegmento (sd sd' : ℕ) (tamanio : ℤ) :
    Keeps ok (UnSegmento sd) (musemalloc cfg tamanio sd') := by
  have hI : Conservado cfg ok (UnSegmento sd) := (unSegmento_deTablas sd).conservado
  refine triple_read fun t => triple_elim (fun _ => triple_pure _ fun _ hs => hs.1) fun l hl => ?_
  refine triple_ite (fun hnil => ?_) fun hcons => ?_
  · subst hnil
    have hprimer : Triple ok (fun s => UnSegmento sd s ∧ s = t) (enPrimerSegmento cfg tamanio sd')
        fun _ => UnSegmento sd := by
      refine triple_bind (triple_conseq (triple_crearSegmento_unSegmento sd sd' tamanio) ?_
        fun _ _ hs => hs) fun g => ?_
      · rintro s ⟨hs, rfl⟩
        exact ⟨hs, fun hsd => by rw [hsd]; exact hl⟩
      · refine keeps_bind (keeps_segmento g) fun seg => keeps_bind (keeps_obtener _ _) fun p => ?_
        exact keeps_bind (hI.posicion p) fun _ => keeps_pure _
    exact triple_bind hprimer fun _ => keeps_pure _
  · refine triple_bind (Q := fun _ => UnSegmento sd) ?_ fun _ => keeps_pure _
    by_cases hsd : sd = sd'
    · subst hsd
      refine triple_of_forall fun u hu => ?_
      obtain ⟨hun, rfl⟩ := hu
      rcases hun l hl with rfl | ⟨g, rfl, hg⟩
      · exact absurd rfl hcons
      · refine triple_conseq (triple_enSegmentos_unSegmento sd g tamanio) ?_ fun _ _ hs => hs
        rintro s rfl
        exact ⟨hun, hg⟩
    · exact triple_conseq (keeps_enSegmentos_otro hsd l tamanio) (fun _ hs => hs.1) fun _ _ hs => hs

/-- `muse_unmap` does not remove a segment for blocks. -/
theorem keeps_muse_unmap_unSegmento (sd sd' : ℕ) (dir : ℤ) :
    Keeps ok (UnSegmento sd) (muse_unmap dir sd') := by
  refine triple_read fun t => triple_orFail_bind fun l hl => triple_bind (triple_obtener _ _)
    fun g => triple_bind (triple_segmento g) fun seg => ?_
  refine triple_ite (fun _ => triple_pure _ fun _ hs => hs.1.1.1) fun hmap => ?_
  refine triple_bind (Q := fun _ => UnSegmento sd) (triple_modify _ ?_) fun _ => keeps_pure _
  rintro s ⟨⟨⟨hs, rfl⟩, hg⟩, hseg⟩
  by_cases hsd : sd = sd'
  · subst hsd
    obtain ⟨_, hmem⟩ := getElem?_of_elemento hg
    rcases hs l hl with rfl | ⟨g', rfl, hg'⟩
    · cases hmem
    · rw [List.getElem?_singleton] at hmem
      split_ifs at hmem
      cases hmem
      obtain ⟨seg', hseg', _, hcomun⟩ := segmento_of_rasgos hg'
      cases hseg'.symm.trans hseg
      exact absurd hcomun hmap
  · exact unSegmento_ponerTabla_of_ne hsd hs

/-- A request that maps no file for the process keeps its only segment. -/
theorem keeps_atenderSolicitud_unSegmento (sd sd' : ℕ) (solicitud : Solicitud)
    (hmap : ∀ nuevo path, (sd', solicitud) ≠ (sd, .map nuevo path)) :
    Keeps ok (UnSegmento sd) (atenderSolicitud cfg sd' solicitud) := by
  cases solicitud with
  | init =>
      refine keeps_bind (keeps_museinit fun s hs hnone => ?_) fun _ => keeps_pure _
      intro l hl
      rw [Estado.ponerTabla, Dictionary.get_put] at hl
      split_ifs at hl with hsd
      · cases hl
        exact Or.inl rfl
      · exact hs l hl
  | malloc tamanio =>
      exact keeps_bind (keeps_musemalloc_unSegmento sd sd' tamanio) fun _ => keeps_pure _
  | unmap dir => exact keeps_bind (keeps_muse_unmap_unSegmento sd sd' dir) fun _ => keeps_pure _
  | map nuevo path =>
      have hne : sd ≠ sd' := by
        rintro rfl
        exact hmap nuevo path rfl
      refine keeps_bind ?_ fun _ => keeps_pure _
      refine keeps_bind (keeps_gets _) fun s => keeps_bind (keeps_orFail _) fun l => ?_
      refine keeps_bind (keeps_bind (keeps_obtener _ _) fun g => ?_) fun tam => ?_
      · exact keeps_bind (keeps_segmento g) fun _ => keeps_pure _
      refine keeps_bind (keeps_modify _ fun s hs => ?_) fun _ => ?_
      · exact unSegmento_deTablas sd s _ rfl rfl hs
      refine keeps_bind (keeps_modify _ fun s hs => unSegmento_agregarSegmento hs) fun _ => ?_
      refine keeps_bind (keeps_modify _ fun s hs => ?_) fun _ => keeps_pure _
      exact unSegmento_ponerTabla_of_ne hne hs

/-! ## Mapping a file -/

/-- The segment that maps a file has an identifier that is one more than its place. -/
theorem triple_musemap (nuevo : Segmento) (path : List UInt8) (sd : ℕ) :
    Triple ok (fun _ => True) (musemap nuevo path sd) fun _ s => ¬ TablaSegmentada s sd := by
  refine triple_read fun t => triple_orFail_bind fun l hl => ?_
  refine triple_bind (triple_true _) fun tam => triple_bind (triple_true _) fun _ => ?_
  refine triple_bind (Q := fun _ s => ∃ seg : Segmento, seg.id = l.length + 1 ∧
      s.segmentos[s.segmentos.length - 1]? = some seg) (triple_modify _ ?_) fun _ => ?_
  · intro s _
    refine ⟨{ nuevo with
      esComun := false, filePath := some path, id := l.length + 1
      baseLogica := unsigned (tam + 1), tablaPaginas := [] }, rfl, ?_⟩
    simp [Estado.agregarSegmento]
  refine triple_bind (Q := fun _ s => ¬ TablaSegmentada s sd) (triple_modify _ ?_) fun _ =>
    triple_pure _ fun _ hs => hs
  rintro s ⟨seg, hid, hseg⟩ h
  have htabla := h (l ++ [s.segmentos.length - 1]) (by
    rw [Estado.ponerTabla, Dictionary.get_put_self])
  have heq := htabla.identificados l.length (s.segmentos.length - 1) seg (by simp) hseg
  rw [hid] at heq
  omega

/-! ## Runs -/

/-- In every state of a run of requests the table of a process is segmented if and only if the
process maps no file in it. -/
theorem segmentada_iff {tr : List (Transition.Step Estado (ℕ × Solicitud))} {s : Estado}
    (hrun : Solicitudes cfg tr s) (sd : ℕ) :
    (∀ x ∈ tr, TablaSegmentada x.post sd) ↔
      ∀ x ∈ tr, ∀ nuevo path, x.label ≠ (sd, .map nuevo path) := by
  constructor
  · intro h x hx nuevo path hlabel
    obtain ⟨marcas, hr⟩ := runs_of_trasSolicitud (hrun.step_of_mem x hx)
    rw [hlabel] at hr
    have hmap : Triple (fun _ _ => True) (fun _ => True)
        (atenderSolicitud cfg sd (.map nuevo path)) fun _ s => ¬ TablaSegmentada s sd :=
      triple_bind (triple_musemap nuevo path sd) fun _ => triple_pure _ fun _ hs => hs
    exact hmap x.pre () x.post marcas trivial hr (fun _ _ => trivial) (h x hx)
  · intro h x hx
    have hpaso : ∀ sd' solicitud, (∀ nuevo path, (sd', solicitud) ≠ (sd, .map nuevo path)) →
        Keeps (fun _ _ => True) (UnSegmento sd) (atenderSolicitud cfg sd' solicitud) :=
      keeps_atenderSolicitud_unSegmento sd
    obtain ⟨tr₁, tr₂, rfl⟩ := List.append_of_mem hx
    have hpre : UnSegmento sd x.pre := by
      refine (hrun.prefix_of_append rfl).invariant (UnSegmento sd)
        (fun y => ∀ nuevo path, y.label ≠ (sd, .map nuevo path)) ?_ ?_ ?_
      · intro l hl
        rw [inicial, Dictionary.get_empty] at hl
        cases hl
      · intro u e u' hu hcond hstep
        obtain ⟨marcas, hr⟩ := runs_of_trasSolicitud hstep
        exact hpaso e.1 e.2 hcond u () u' marcas hu hr fun _ _ => trivial
      · exact fun y hy => h y (by simp [hy])
    obtain ⟨marcas, hr⟩ := runs_of_trasSolicitud (hrun.step_of_mem x hx)
    exact tablaSegmentada_of_unSegmento (hpaso x.label.1 x.label.2 (h x hx) x.pre () x.post marcas
      hpre hr fun _ _ => trivial)

/-- A process with a block that maps a file. -/
def unBloqueYUnArchivo : List (ℕ × Solicitud) :=
  [(4, .init), (4, .malloc 4), (4, .map ⟨true, none, 0, 0, 32, [], 0, []⟩ [97])]

/-- While it does, another process asks for two blocks and for the removal of its segment, which
is refused. -/
def dosProcesos : List (ℕ × Solicitud) :=
  [(5, .init), (5, .malloc 20)] ++ unBloqueYUnArchivo ++ [(5, .malloc 40), (5, .unmap 1048576)]

def variosFrames : Configuracion where
  __ := unFrame 4
  tamanioMemoria := 128

theorem segmentada_iff_dosProcesos :
    (∀ x ∈ Transition.trace (trasSolicitud variosFrames) (inicial variosFrames) dosProcesos,
        TablaSegmentada x.post 5) ∧
      ¬ ∀ x ∈ Transition.trace (trasSolicitud variosFrames) (inicial variosFrames) dosProcesos,
        TablaSegmentada x.post 4 := by
  have hrun : Solicitudes variosFrames _ _ :=
    Transition.Run.execute (trasSolicitud variosFrames) dosProcesos (by decide +kernel)
  have hpide := fun sd => Transition.forall_label_trace_iff (trasSolicitud variosFrames)
    (fun e => ∀ nuevo path, e ≠ (sd, .map nuevo path)) (inicial variosFrames) dosProcesos
  constructor
  · refine (segmentada_iff hrun 5).2 ((hpide 5).2 ?_)
    simp [dosProcesos, unBloqueYUnArchivo]
  · refine (segmentada_iff hrun 4).not.2 ((hpide 4).not.2 ?_)
    simp [dosProcesos, unBloqueYUnArchivo]

/-- The segment of the file has identifier 2 and is in place 1. -/
theorem not_tablaSegmentada : ¬ ∀ cfg tr s, Solicitudes cfg tr s → ∀ sd, TablaSegmentada s sd := by
  intro h
  have hrun : Solicitudes (unFrame 2) _ _ :=
    Transition.Run.execute (trasSolicitud (unFrame 2)) unBloqueYUnArchivo (by decide +kernel)
  have hfinal := h (unFrame 2) _ _ hrun 4 [0, 1] (by decide +kernel)
  have hid := hfinal.identificados 1 1
    ⟨false, some [97], 2, 33, 32, [], 0, []⟩ rfl (by decide +kernel)
  exact absurd hid (by decide)

end Muse
