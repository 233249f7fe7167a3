import Linuse.Suse.Ejecucion

/-!
# No thread is lost

When no program disconnects, ids are unique inside each program and no program
has two calls of `schedule_next` pending, every thread that was created is in
exactly one place, a place of its own program, and the counters of New and ready
are exact (`hilo_enUnSoloLugar`).

What rules out a second thread in `exec` when a parked call comes back is
`Estacionados`: while a call is parked, nothing is in `exec` and the ready list
exists, so that `pasarAReady` puts nothing there.
-/

namespace Suse

open Function (update update_self update_of_ne)
open Transition

variable {E : Type} {s s' : Estado E} {env : Entorno E}

namespace Evento

/-- The two events that choose the next thread to run. -/
def Elige : Evento → Prop
  | scheduleNext _ _ => True
  | despertar _ _ => True
  | _ => False

end Evento

theorem paso_quieto {S : Set Puntero} {e : Evento} (hC : Coherente s S)
    (h : paso env s e = .ok s') (he : e.Interno) (helige : ¬ e.Elige) : Quieto s s' := by
  cases e with
  | conectar pid => exact he.elim
  | crear pid tid basura ahora => exact he.elim
  | tomar => exact (planificarReadyTomar_mueve hC h).1
  | admitir ahora => exact (planificarReadyAdmitir_mueve hC h).1
  | wait pid tid semID => exact (semSuseWait_mueve hC h).1
  | signal pid tid semID ahora => exact (semSuseSignal_mueve hC h).1
  | join pid tidAEsperar => exact (realizarJoin_mueve hC h).1
  | close pid tid ahora => exact (realizarClose_mueve hC h).1
  | scheduleNext pid reloj => exact absurd trivial helige
  | despertar pid reloj => exact absurd trivial helige
  | metricas ahora => exact (tomarMetricas_soloTiempos h).quieto
  | desconectar pid => exact he.elim

/-- A program has at most one call parked at its mutex, and then it has no
running thread, and a ready list. -/
def Estacionados (s : Estado E) : Prop :=
  ∀ pid, s.enMutex pid ≤ 1 ∧
    (s.enMutex pid = 1 → contenido s (.exec pid) = [] ∧ tieneReady s pid)

/-- The inputs under which no thread is lost: a new thread has an id that no
thread of its program has, `schedule_next` is not called while another call of
the program is parked, and nobody disconnects. -/
def Admisible (x : Step (Estado E) Evento) : Prop :=
  match x.label with
  | .crear pid tid _ _ => ∀ p, identidad x.pre p ≠ some (pid, tid)
  | .scheduleNext pid _ => x.pre.enMutex pid = 0
  | .desconectar _ => False
  | _ => True

/-- Every thread that was created is in exactly one place, and the counters are
exact. -/
structure Ordenado (s : Estado E) : Prop where
  coherente : Coherente s {p | p < s.proximo}
  tidUnico : TidUnico s
  estacionados : Estacionados s
  ready : ∀ pid, cuentaReady s pid = (contenido s (.ready pid)).length
  enNew : ∀ pid, cuentaNew s pid = hilosEnNew s pid

namespace Estacionados

theorem quieto (h : Estacionados s) (hq : Quieto s s') : Estacionados s' := by
  intro pid
  rw [hq.enMutex]
  refine ⟨(h pid).1, fun hm => ?_⟩
  obtain ⟨hexec, hready⟩ := (h pid).2 hm
  exact ⟨hq.exec pid hready hexec, hq.conReady pid hready⟩

/-- A call of `schedule_next` by a program without another one parked. -/
theorem scheduleNext (h : Estacionados s) (hc : Conserva s s') {pid : Pid}
    (hlibre : s.enMutex pid = 0)
    (hexec : ∀ pid', pid' ≠ pid → contenido s' (.exec pid') = contenido s (.exec pid'))
    (hmutex : s'.enMutex = s.enMutex ∨
      s'.enMutex = update s.enMutex pid (s.enMutex pid + 1) ∧
        contenido s' (.exec pid) = [] ∧ tieneReady s' pid) : Estacionados s' := by
  intro pid'
  by_cases hpid : pid' = pid
  · subst hpid
    rcases hmutex with hm | ⟨hm, hvacio, hready⟩
    · rw [hm, hlibre]
      exact ⟨Nat.zero_le _, fun h => absurd h (by decide)⟩
    · rw [hm, update_self, hlibre]
      exact ⟨le_refl _, fun _ => ⟨hvacio, hready⟩⟩
  · have hm : s'.enMutex pid' = s.enMutex pid' := by
      rcases hmutex with hm | ⟨hm, -, -⟩
      · rw [hm]
      · rw [hm, update_of_ne hpid]
    rw [hm, hexec pid' hpid]
    exact ⟨(h pid').1, fun h₁ => ⟨((h pid').2 h₁).1, hc.conReady pid' ((h pid').2 h₁).2⟩⟩

/-- The return of the parked call. -/
theorem despertar (h : Estacionados s) (hc : Conserva s s') {pid : Pid}
    (hexec : ∀ pid', pid' ≠ pid → contenido s' (.exec pid') = contenido s (.exec pid'))
    (hmutex : s'.enMutex = update s.enMutex pid (s.enMutex pid - 1)) : Estacionados s' := by
  intro pid'
  by_cases hpid : pid' = pid
  · subst hpid
    have hle := (h pid').1
    rw [hmutex, update_self]
    exact ⟨by omega, fun h₁ => by omega⟩
  · rw [hmutex, update_of_ne hpid, hexec pid' hpid]
    exact ⟨(h pid').1, fun h₁ => ⟨((h pid').2 h₁).1, hc.conReady pid' ((h pid').2 h₁).2⟩⟩

end Estacionados

/-- A creation with an id that its program does not use. -/
theorem tidUnico_crearHilo (h : TidUnico s) {pid : Pid} {tid : Tid} {basura : ℕ × ℕ} {ahora : ℕ}
    (hlibre : ∀ p, identidad s p ≠ some (pid, tid))
    (hs : crearHilo env s pid tid basura ahora = .ok s') : TidUnico s' := by
  have hid := identidad_crearHilo hs
  intro x y i hx hy
  rw [hid] at hx hy
  split_ifs at hx hy with hxp hyp hyp
  · rw [hxp, hyp]
  · rw [← hx] at hy
    exact absurd hy (hlibre y)
  · rw [← hy] at hx
    exact absurd hx (hlibre x)
  · exact h x y i hx hy

namespace Ordenado

/-- A movement that loses nothing keeps the order, if it keeps
`Estacionados`. -/
theorem mueve {F : Lugar → Lugar → Prop} {pierde : Prop} (h : Ordenado s)
    (hm : Mueve F pierde s s') (hpierde : ¬ pierde) (he : Estacionados s') :
    Ordenado s' where
  coherente := by
    rw [hm.proximo]
    exact hm.coherente_of_not hpierde h.coherente
  tidUnico := (tidUnico_congr hm.identidad).2 h.tidUnico
  estacionados := he
  ready := by
    intro pid
    have hdif := hm.ready pid
    have hant := h.ready pid
    omega
  enNew := by
    intro pid
    have hdif := hm.enNew pid
    have hant := h.enNew pid
    omega

theorem conectar (h : Ordenado s) {pid : Pid}
    (hp : s.diccionarioDeProgramas.get pid = none) : Ordenado (crearPrograma s pid) where
  coherente := conectar_coherente h.coherente hp
  tidUnico := h.tidUnico
  estacionados := by
    intro pid'
    rw [contenido_conectar hp]
    exact h.estacionados pid'
  ready := by
    intro pid'
    rw [contenido_conectar hp, ← h.ready pid', crearPrograma, cuentaReady_ponerPrograma]
    by_cases hpid : pid' = pid
    · subst hpid
      simp [cuentaReady, hp]
    · rw [update_of_ne hpid]
  enNew := by
    intro pid'
    have hn : hilosEnNew (crearPrograma s pid) pid' = hilosEnNew s pid' :=
      hilosEnNew_congr (fun _ => rfl) rfl rfl pid'
    rw [hn, ← h.enNew pid', crearPrograma, cuentaNew_ponerPrograma]
    by_cases hpid : pid' = pid
    · subst hpid
      simp [cuentaNew, hp]
    · rw [update_of_ne hpid]

/-- A creation with an id that its program does not use. -/
theorem crear (h : Ordenado s) {pid : Pid} {tid : Tid} {basura : ℕ × ℕ} {ahora : ℕ}
    (hlibre : ∀ p, identidad s p ≠ some (pid, tid))
    (hs : crearHilo env s pid tid basura ahora = .ok s') : Ordenado s' := by
  have hC' := crearHilo_coherente h.coherente hs
  have hid := identidad_crearHilo hs
  have htid := tidUnico_crearHilo h.tidUnico hlibre hs
  have hcont := contenido_crearHilo hs
  have hmem : ∀ x l, x ∈ contenido s l → x ≠ s.proximo := fun x l hx =>
    Nat.ne_of_lt (h.coherente.lt_proximo hx)
  obtain ⟨p, hp, rfl⟩ := crearHilo_ok hs
  refine ⟨?_, ?_, ?_, ?_, ?_⟩
  · convert hC' using 1
    ext x
    exact Nat.lt_succ_iff_lt_or_eq.trans or_comm
  · exact htid
  · intro pid'
    have hexec : ∀ pid', contenido _ (.exec pid') = contenido s (.exec pid') := fun pid' => by
      rw [hcont, update_of_ne (by simp)]
    rw [hexec]
    exact h.estacionados pid'
  · intro pid'
    rw [hcont, update_of_ne (by simp), ← h.ready pid', cuentaReady_ponerPrograma_eq (p := p)]
    · rfl
    · exact hp
    · rfl
  · intro pid'
    have hes : ∀ x ∈ s.new ++ s.unHilo.toList,
        esDelPrograma ({ s with
          hilos := update s.hilos s.proximo (some (hiloNuevo env pid tid basura ahora))
          proximo := s.proximo + 1
          new := s.new ++ [s.proximo]
          hayNuevos := s.hayNuevos + 1 }.ponerPrograma pid
            { p with cantidadDeHilosEnNew := p.cantidadDeHilosEnNew + 1 }) pid' x =
          esDelPrograma s pid' x := by
      intro x hx
      have hne : x ≠ s.proximo := by
        rcases List.mem_append.1 hx with hx | hx
        · exact hmem x .new hx
        · exact hmem x .mano hx
      rw [esDelPrograma, esDelPrograma, hid, if_neg hne]
    have hn : hilosEnNew ({ s with
          hilos := update s.hilos s.proximo (some (hiloNuevo env pid tid basura ahora))
          proximo := s.proximo + 1
          new := s.new ++ [s.proximo]
          hayNuevos := s.hayNuevos + 1 }.ponerPrograma pid
            { p with cantidadDeHilosEnNew := p.cantidadDeHilosEnNew + 1 }) pid' =
        hilosEnNew s pid' + if pid' = pid then 1 else 0 := by
      have hperm : ((s.new ++ [s.proximo]) ++ s.unHilo.toList).Perm
          (s.proximo :: (s.new ++ s.unHilo.toList)) := by
        rw [List.append_assoc]
        exact List.perm_middle
      have hcount := hperm.countP_eq (esDelPrograma ({ s with
          hilos := update s.hilos s.proximo (some (hiloNuevo env pid tid basura ahora))
          proximo := s.proximo + 1
          new := s.new ++ [s.proximo]
          hayNuevos := s.hayNuevos + 1 }.ponerPrograma pid
            { p with cantidadDeHilosEnNew := p.cantidadDeHilosEnNew + 1 }) pid')
      rw [hilosEnNew]
      refine hcount.trans ?_
      rw [List.countP_cons, hilosEnNew]
      congr 1
      · exact List.countP_congr fun x hx => by rw [hes x hx]
      · rw [esDelPrograma, hid, if_pos rfl]
        by_cases hpid : pid' = pid
        · simp [hpid]
        · simp [hpid, Ne.symm hpid]
    have hant := h.enNew pid'
    rw [hn, cuentaNew_ponerPrograma]
    by_cases hpid : pid' = pid
    · subst hpid
      rw [cuentaNew_eq hp] at hant
      rw [update_self, if_pos rfl]
      push_cast
      omega
    · rw [update_of_ne hpid, if_neg hpid]
      exact hant

theorem paso {e : Evento} (h : Ordenado s) (hadm : Admisible ⟨s, e, s'⟩)
    (hs : Transicion env s e s') : Ordenado s' := by
  cases e with
  | conectar pid =>
      obtain ⟨hp, rfl⟩ := paso_conectar hs
      exact h.conectar hp
  | crear pid tid basura ahora => exact h.crear hadm hs
  | desconectar pid => exact hadm.elim
  | scheduleNext pid reloj =>
      obtain ⟨r, hs⟩ := paso_scheduleNext hs
      obtain ⟨hm, hexec, hmutex⟩ := siguienteAEjecutar_mueve h.coherente hs
      exact h.mueve hm not_false
        (h.estacionados.scheduleNext hm.toConserva hadm hexec hmutex)
  | despertar pid reloj =>
      obtain ⟨r, hs⟩ := paso_despertar hs
      obtain ⟨hm, hexec, hpos, hmutex⟩ := calcularSiguienteHiloDespierto_mueve h.coherente hs
      have huno : s.enMutex pid = 1 := by
        have hle := (h.estacionados pid).1
        omega
      exact h.mueve hm (fun hne => hne ((h.estacionados pid).2 huno).1)
        (h.estacionados.despertar hm.toConserva hexec hmutex)
  | close pid tid ahora =>
      exact h.mueve (paso_mueve h.coherente hs trivial) (fun hno => hno h.tidUnico)
        (h.estacionados.quieto (paso_quieto h.coherente hs trivial not_false))
  | _ =>
      exact h.mueve (paso_mueve h.coherente hs trivial) not_false
        (h.estacionados.quieto (paso_quieto h.coherente hs trivial not_false))

end Ordenado

theorem iniciarSUSE_ordenado (c : Configuracion) : Ordenado (iniciarSUSE c : Estado E) where
  coherente := by
    convert iniciarSUSE_coherente c using 1
    ext x
    simp [iniciarSUSE]
  tidUnico := by
    intro p q i hp
    cases hp
  estacionados := fun pid => ⟨Nat.zero_le _, fun h => absurd h (by simp [iniciarSUSE])⟩
  ready := by
    intro pid
    rw [iniciarSUSE_contenido]
    rfl
  enNew := fun pid => rfl

/-- The identity of a thread that was created stays. -/
theorem identidad_creado {c : Configuracion} {tr : List (Step (Estado E) Evento)}
    (hrun : Run (Transicion env) (iniciarSUSE c) tr s) (hadm : ∀ x ∈ tr, Admisible x) :
    Ordenado s ∧ ∀ x ∈ tr, ∀ pid tid basura ahora, x.label = .crear pid tid basura ahora →
      identidad s x.pre.proximo = some (pid, tid) := by
  refine hrun.invariant_trace_of (fun tr s => Ordenado s ∧ ∀ x ∈ tr, ∀ pid tid basura ahora,
    x.label = .crear pid tid basura ahora → identidad s x.pre.proximo = some (pid, tid))
    (fun _ x => Admisible x) ⟨iniciarSUSE_ordenado c, by simp⟩ ?_
    fun tr₁ x tr₂ heq => hadm x (by rw [heq]; simp)
  rintro tr s e s' _ ⟨hord, hid⟩ hadm hs
  refine ⟨hord.paso hadm hs, fun x hx pid tid basura ahora hlabel => ?_⟩
  rcases List.mem_append.1 hx with hx | hx
  · have hant := hid x hx pid tid basura ahora hlabel
    cases e with
    | conectar pid' =>
        obtain ⟨-, rfl⟩ := paso_conectar hs
        exact hant
    | crear pid' tid' basura' ahora' =>
        rw [identidad_crearHilo hs, if_neg ?_]
        · exact hant
        · intro heq
          rw [heq, hord.coherente.fresco _ (le_refl _)] at hant
          cases hant
    | desconectar pid' => exact hadm.elim
    | _ => rw [(paso_mueve hord.coherente hs trivial).identidad, hant]
  · rw [List.mem_singleton] at hx
    subst hx
    subst hlabel
    rw [identidad_crearHilo hs, if_pos rfl]

/-- In a run without disconnections, with unique ids and at most one
`schedule_next` pending for each program, every thread that was created is in
exactly one place, once, and that is a place of its own program; the counters of
ready and New count the threads that are there. -/
theorem hilo_enUnSoloLugar (env : Entorno E) (c : Configuracion)
    {tr : List (Step (Estado E) Evento)}
    (hrun : Run (Transicion env) (iniciarSUSE c) tr s) (hadm : ∀ x ∈ tr, Admisible x) :
    (∀ x ∈ tr, ∀ pid tid basura ahora, x.label = .crear pid tid basura ahora →
      identidad s x.pre.proximo = some (pid, tid) ∧
        ∃ l : Lugar, l.esDe pid ∧ (contenido s l).count x.pre.proximo = 1 ∧
          ∀ l', l' ≠ l → x.pre.proximo ∉ contenido s l') ∧
    ∀ pid p, s.diccionarioDeProgramas.get pid = some p →
      p.cantidadDeHilosEnReady = (contenido s (.ready pid)).length ∧
        p.cantidadDeHilosEnNew =
          (contenido s .new ++ contenido s .mano).countP (esDelPrograma s pid) := by
  obtain ⟨hord, hid⟩ := identidad_creado hrun hadm
  refine ⟨fun x hx pid tid basura ahora hlabel => ?_, fun pid p hp => ?_⟩
  · have hident := hid x hx pid tid basura ahora hlabel
    have hvivo : x.pre.proximo < s.proximo := by
      by_contra hle
      rw [hord.coherente.fresco _ (not_lt.1 hle)] at hident
      cases hident
    obtain ⟨l, hl, hunico⟩ := hord.coherente.particion.existsUnique hvivo
    obtain ⟨pid', tid', hident', hde⟩ := hord.coherente.propio _ l hl
    rw [hident] at hident'
    cases hident'
    refine ⟨hident, l, hde, ?_, fun l' hne hl' => hne (hunico l' hl')⟩
    exact List.count_eq_one_of_mem (hord.coherente.particion.nodup l) hl
  · have hready := hord.ready pid
    have hnew := hord.enNew pid
    rw [cuentaReady_eq hp] at hready
    rw [cuentaNew_eq hp] at hnew
    exact ⟨hready, hnew⟩

/-- `Admisible` with a new id looked for among the threads created so far, which can be
evaluated. -/
def AdmisibleAlCrear (x : Step (Estado E) Evento) : Prop :=
  match x.label with
  | .crear pid tid _ _ => ∀ p < x.pre.proximo, identidad x.pre p ≠ some (pid, tid)
  | .scheduleNext pid _ => x.pre.enMutex pid = 0
  | .desconectar _ => False
  | _ => True

instance (x : Step (Estado E) Evento) : Decidable (AdmisibleAlCrear x) := by
  unfold AdmisibleAlCrear
  split <;> infer_instance

theorem Coherente.identidad_ne (hC : Coherente s S) {i : Pid × Tid}
    (h : ∀ p < s.proximo, identidad s p ≠ some i) (p : Puntero) : identidad s p ≠ some i := by
  rcases lt_or_ge p s.proximo with hlt | hge
  · exact h p hlt
  · rw [hC.fresco p hge]
    exact Option.some_ne_none i |>.symm

theorem admisible_of_run {c : Configuracion} {tr : List (Step (Estado E) Evento)}
    (hrun : Run (Transicion env) (iniciarSUSE c) tr s) (h : ∀ x ∈ tr, AdmisibleAlCrear x) :
    ∀ x ∈ tr, Admisible x := by
  intro x hx
  obtain ⟨tr₁, tr₂, heq⟩ := List.append_of_mem hx
  obtain ⟨S, hC⟩ := coherente_of_run (hrun.prefix_of_append heq)
  have hcumple := h x hx
  rw [AdmisibleAlCrear] at hcumple
  rw [Admisible]
  cases hlabel : x.label with
  | crear pid tid basura ahora =>
      rw [hlabel] at hcumple
      exact hC.identidad_ne hcumple
  | scheduleNext pid reloj =>
      rw [hlabel] at hcumple
      exact hcumple
  | desconectar pid =>
      rw [hlabel] at hcumple
      exact hcumple
  | _ => trivial

theorem hilo_enUnSoloLugar_jornada :
    (∀ x ∈ trace (paso entornoRacional) (iniciarSUSE unSemaforo) jornada,
      ∀ pid tid basura ahora, x.label = .crear pid tid basura ahora →
        identidad finDeJornada x.pre.proximo = some (pid, tid) ∧
          ∃ l : Lugar, l.esDe pid ∧ (contenido finDeJornada l).count x.pre.proximo = 1 ∧
            ∀ l', l' ≠ l → x.pre.proximo ∉ contenido finDeJornada l') ∧
      ∀ pid p, finDeJornada.diccionarioDeProgramas.get pid = some p →
        p.cantidadDeHilosEnReady = (contenido finDeJornada (.ready pid)).length ∧
          p.cantidadDeHilosEnNew = (contenido finDeJornada .new ++
            contenido finDeJornada .mano).countP (esDelPrograma finDeJornada pid) :=
  hilo_enUnSoloLugar entornoRacional unSemaforo run_jornada
    (admisible_of_run run_jornada (by decide +kernel))

end Suse
