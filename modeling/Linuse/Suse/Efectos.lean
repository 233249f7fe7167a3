import Linuse.Suse.Ubicacion

/-!
# What each handler does

One inversion lemma for each handler: from a run to its end, what was read on the
way and the state it leaves. The invariants are proved from these lemmas and do
not unfold the handlers.

The passes that only take times (`tomarMetricas`, `recalcularEstimacion`,
`seguirEjecutando`) satisfy `SoloTiempos`, which is all that the rest needs to
know of them.
-/

namespace Suse

open Fallible

variable {E : Type} {s s' s'' : Estado E}

/-- The program and thread id of the record at a pointer. -/
def identidad (s : Estado E) (p : Puntero) : Option (Pid × Tid) :=
  (s.hilos p).map fun h => (h.pid, h.tid)

theorem identidad_eq {p : Puntero} {h : Hilo E} (hp : s.hilos p = some h) :
    identidad s p = some (h.pid, h.tid) := by
  rw [identidad, hp]
  rfl

/-- Rewriting a record under the same program and thread id changes no
identity. -/
theorem identidad_ponerHilo {p : Puntero} {h h' : Hilo E} (hp : s.hilos p = some h)
    (hpid : h'.pid = h.pid) (htid : h'.tid = h.tid) (q : Puntero) :
    identidad (s.ponerHilo p h') q = identidad s q := by
  by_cases hq : q = p
  · subst hq
    simp [identidad, hp, hpid, htid]
  · simp [identidad, hq]

/-! ## Times -/

/-- A program without its accumulated time. -/
def Programa.sinTiempo (p : Programa) : Programa :=
  { p with tiempoDeEjecucionDeTodosLosHilos := 0 }

/-- The two states differ in the times and estimates of threads and programs
only. -/
structure SoloTiempos (s s' : Estado E) : Prop where
  hilos : ∀ p, identidad s' p = identidad s p
  programas : ∀ pid, (s'.diccionarioDeProgramas.get pid).map Programa.sinTiempo =
    (s.diccionarioDeProgramas.get pid).map Programa.sinTiempo
  resto : { s' with
    hilos := s.hilos
    diccionarioDeProgramas := s.diccionarioDeProgramas
    inicioRafaga := s.inicioRafaga } = s

namespace SoloTiempos

theorem refl (s : Estado E) : SoloTiempos s s := ⟨fun _ => rfl, fun _ => rfl, rfl⟩

theorem trans (h : SoloTiempos s s') (h' : SoloTiempos s' s'') : SoloTiempos s s'' := by
  refine ⟨fun p => ?_, fun pid => ?_, ?_⟩
  · rw [h'.hilos, h.hilos]
  · rw [h'.programas, h.programas]
  · have hresto := congrArg (fun t : Estado E => { t with
      hilos := s.hilos
      diccionarioDeProgramas := s.diccionarioDeProgramas
      inicioRafaga := s.inicioRafaga }) h'.resto
    exact hresto.trans h.resto

theorem ponerHilo {p : Puntero} {h h' : Hilo E} (hp : s.hilos p = some h)
    (hpid : h'.pid = h.pid) (htid : h'.tid = h.tid) :
    SoloTiempos s (s.ponerHilo p h') :=
  ⟨identidad_ponerHilo hp hpid htid, fun _ => rfl, rfl⟩

theorem ponerPrograma {pid : Pid} {p q : Programa}
    (hp : s.diccionarioDeProgramas.get pid = some p) (hq : q.sinTiempo = p.sinTiempo) :
    SoloTiempos s (s.ponerPrograma pid q) := by
  refine ⟨fun _ => rfl, fun pid' => ?_, rfl⟩
  by_cases h : pid' = pid
  · subst h
    simp [hp, hq]
  · simp [Dictionary.get_put_of_ne _ _ h]

/-- A program of the new state is the one of the old state at another time. -/
theorem programa (h : SoloTiempos s s') {pid : Pid} {p' : Programa}
    (hp : s'.diccionarioDeProgramas.get pid = some p') :
    ∃ p, s.diccionarioDeProgramas.get pid = some p ∧ p'.sinTiempo = p.sinTiempo := by
  have hprog := h.programas pid
  rw [hp] at hprog
  obtain ⟨p, hp₀, hsin⟩ := Option.map_eq_some_iff.1 hprog.symm
  exact ⟨p, hp₀, hsin.symm⟩

/-- A field that is neither the records nor the programs stays as it was. -/
theorem campo {α : Type} (h : SoloTiempos s s') (f : Estado E → α) :
    f { s' with
      hilos := s.hilos
      diccionarioDeProgramas := s.diccionarioDeProgramas
      inicioRafaga := s.inicioRafaga } = f s :=
  congrArg f h.resto

theorem contenido (h : SoloTiempos s s') : contenido s' = contenido s := by
  have hexec : ∀ pid, (s'.diccionarioDeProgramas.get pid).bind Programa.exec =
      (s.diccionarioDeProgramas.get pid).bind Programa.exec := by
    intro pid
    have hprog := congrArg (fun o => Option.bind o Programa.exec) (h.programas pid)
    simpa [Option.bind_map, Function.comp_def, Programa.sinTiempo] using hprog
  have hjoin : ∀ pid tid,
      ((s'.diccionarioDeProgramas.get pid).bind fun p => p.blocked.get tid) =
        (s.diccionarioDeProgramas.get pid).bind fun p => p.blocked.get tid := by
    intro pid tid
    have hprog := congrArg
      (fun o => Option.bind o fun p : Programa => p.blocked.get tid) (h.programas pid)
    simpa [Option.bind_map, Function.comp_def, Programa.sinTiempo] using hprog
  funext lugar
  cases lugar with
  | new => exact h.campo Estado.new
  | mano => exact h.campo fun t => t.unHilo.toList
  | ready pid => exact h.campo fun t => (t.diccionarioDeListasDeReady.get pid).getD []
  | exec pid => simp [Suse.contenido, hexec]
  | semaforo semID =>
      exact h.campo fun t => (t.diccionarioDeBlockedPorSemaforo.get semID).getD []
  | join pid tid => simp [Suse.contenido, hjoin]
  | exit pid => exact h.campo fun t => (t.diccionarioDeListasDeExit.get pid).getD []

end SoloTiempos

theorem tomarMetricas_soloTiempos {ahora : ℕ} (h : tomarMetricas s ahora = .ok s') :
    SoloTiempos s s' := by
  rw [tomarMetricas, bind_eq_ok] at h
  obtain ⟨s₁, h₁, h₂⟩ := h
  have hpasada : SoloTiempos s s₁ := by
    refine foldlM_rel SoloTiempos SoloTiempos.refl (fun _ _ _ => SoloTiempos.trans) ?_ _ h₁
    intro t unHilo t' ht
    simp only [tomarMetricasTiemposDeEjecucionPara1Hilo, noNulo, bind_eq_ok,
      orFail_eq_ok, pure_eq_ok] at ht
    obtain ⟨hilo, hhilo, p, hp, rfl⟩ := ht
    have hponer : SoloTiempos t (t.ponerHilo unHilo
        { hilo with tiempoDeEjecucion := aInt (ahora - hilo.timestampCreacion) }) :=
      SoloTiempos.ponerHilo hhilo rfl rfl
    exact hponer.trans (SoloTiempos.ponerPrograma hp rfl)
  have hreinicio : SoloTiempos s₁ s' := by
    refine foldlM_rel SoloTiempos SoloTiempos.refl (fun _ _ _ => SoloTiempos.trans) ?_ _ h₂
    intro t unPrograma t' ht
    simp only [reiniciarTiempoDeEjecucionDe1Programa, noNulo, bind_eq_ok,
      orFail_eq_ok, pure_eq_ok] at ht
    obtain ⟨p, hp, rfl⟩ := ht
    exact SoloTiempos.ponerPrograma hp rfl
  exact hpasada.trans hreinicio

theorem recalcularEstimacion_soloTiempos {env : Entorno E} {pid : Pid} {ahora : ℕ}
    (h : recalcularEstimacion env s pid ahora = .ok s') : SoloTiempos s s' := by
  rw [recalcularEstimacion] at h
  cases hp : s.diccionarioDeProgramas.get pid with
  | none =>
      rw [hp] at h
      cases h
      exact SoloTiempos.refl s
  | some p =>
      rw [hp] at h
      cases he : p.exec with
      | none =>
          simp only [he] at h
          cases h
          exact SoloTiempos.refl s
      | some exec =>
          simp only [he, noNulo, bind_eq_ok, orFail_eq_ok, pure_eq_ok] at h
          obtain ⟨hilo, hhilo, rfl⟩ := h
          exact SoloTiempos.ponerHilo hhilo rfl rfl

theorem seguirEjecutando_soloTiempos (reloj : ℕ → ℕ) {ejecutando : Puntero} {h : Hilo E}
    (he : s.hilos ejecutando = some h) :
    SoloTiempos s (seguirEjecutando s ejecutando h reloj) :=
  SoloTiempos.ponerHilo he rfl rfl

/-! ## Admission -/

theorem pasarAReady_ok {unHilo : Puntero} {ahora : ℕ}
    (h : pasarAReady s unHilo ahora = .ok s') :
    ∃ hilo p, s.hilos unHilo = some hilo ∧
      s.diccionarioDeProgramas.get hilo.pid = some p ∧
      ((s.diccionarioDeListasDeReady.get hilo.pid = none ∧
          s' = (s.ponerReady hilo.pid []).ponerPrograma hilo.pid
            { p with exec := some unHilo }) ∨
        ∃ lista, s.diccionarioDeListasDeReady.get hilo.pid = some lista ∧
          s' = ((s.ponerReady hilo.pid (lista ++ [unHilo])).ponerHilo unHilo
            { hilo with timestampReady := ahora }).ponerPrograma hilo.pid
              { p with cantidadDeHilosEnReady := p.cantidadDeHilosEnReady + 1 }) := by
  simp only [pasarAReady, noNulo, bind_eq_ok, orFail_eq_ok] at h
  obtain ⟨hilo, hhilo, h⟩ := h
  cases hr : s.diccionarioDeListasDeReady.get hilo.pid with
  | none =>
      simp only [hr, bind_eq_ok, orFail_eq_ok, pure_eq_ok] at h
      obtain ⟨p, hp, rfl⟩ := h
      exact ⟨hilo, p, hhilo, hp, Or.inl ⟨hr, rfl⟩⟩
  | some lista =>
      simp only [hr, bind_eq_ok, orFail_eq_ok, pure_eq_ok] at h
      obtain ⟨p, hp, rfl⟩ := h
      exact ⟨hilo, p, hhilo, hp, Or.inr ⟨lista, hr, rfl⟩⟩

/-- The record that `crearHilo` fills. -/
def hiloNuevo (env : Entorno E) (pid : Pid) (tid : Tid) (basura : ℕ × ℕ) (ahora : ℕ) :
    Hilo E :=
  { pid := pid, tid := tid, estimacion := env.cero, rafaga := 0
    tiempoDeEjecucion := 0, timestampCreacion := aInt ahora
    sumaDeIntervalosEnReady := 0, sumaDeIntervalosEnExec := 0
    timestampExec := basura.1, timestampReady := basura.2 }

theorem crearHilo_ok {env : Entorno E} {pid : Pid} {tid : Tid} {basura : ℕ × ℕ}
    {ahora : ℕ} (h : crearHilo env s pid tid basura ahora = .ok s') :
    ∃ p, s.diccionarioDeProgramas.get pid = some p ∧
      s' = { s with
          hilos := Function.update s.hilos s.proximo
            (some (hiloNuevo env pid tid basura ahora))
          proximo := s.proximo + 1
          new := s.new ++ [s.proximo]
          hayNuevos := s.hayNuevos + 1 }.ponerPrograma pid
        { p with cantidadDeHilosEnNew := p.cantidadDeHilosEnNew + 1 } := by
  simp only [crearHilo, noNulo, bind_eq_ok, orFail_eq_ok, pure_eq_ok] at h
  obtain ⟨p, hp, rfl⟩ := h
  exact ⟨p, hp, rfl⟩

theorem planificarReadyTomar_ok (h : planificarReadyTomar s = .ok s') :
    s.unHilo = none ∧ 0 < s.hayNuevos ∧ ∃ unHilo resto, s.new = unHilo :: resto ∧
      s' = { s with
        hayNuevos := s.hayNuevos - 1, new := resto, unHilo := some unHilo } := by
  rw [planificarReadyTomar] at h
  split_ifs at h with hcond
  obtain ⟨hmano, hnuevos⟩ := hcond
  refine ⟨hmano, hnuevos, ?_⟩
  cases hn : s.new with
  | nil =>
      rw [hn] at h
      cases h
  | cons unHilo resto =>
      rw [hn] at h
      cases h
      exact ⟨unHilo, resto, rfl, rfl⟩

/-- `planificarReady` between its `sem_wait(&MAXIMOPROCESAMIENTO)` and its
`pasarAReady`. -/
def sacarDeMano (s : Estado E) (pid : Pid) (p : Programa) : Estado E :=
  { s with maximoProcesamiento := s.maximoProcesamiento - 1
           unHilo := none }.ponerPrograma pid
    { p with cantidadDeHilosEnNew := p.cantidadDeHilosEnNew - 1 }

theorem planificarReadyAdmitir_ok {ahora : ℕ}
    (h : planificarReadyAdmitir s ahora = .ok s') :
    ∃ unHilo hilo p, s.unHilo = some unHilo ∧ 0 < s.maximoProcesamiento ∧
      s.hilos unHilo = some hilo ∧ s.diccionarioDeProgramas.get hilo.pid = some p ∧
      pasarAReady (sacarDeMano s hilo.pid p) unHilo ahora = .ok s' := by
  rw [planificarReadyAdmitir] at h
  cases hu : s.unHilo with
  | none =>
      rw [hu] at h
      cases h
  | some unHilo =>
      simp only [hu] at h
      split_ifs at h with hmax
      simp only [noNulo, bind_eq_ok, orFail_eq_ok] at h
      obtain ⟨hilo, hhilo, p, hp, h⟩ := h
      exact ⟨unHilo, hilo, p, rfl, hmax, hhilo, hp, h⟩

/-! ## Semaphores -/

/-- What `sacar1HiloDeLaColaDeBloqueadosPorSemaforo` does to the program of the
thread it took out: if its `schedule_next` is parked, it is let go. -/
def despertarPrograma (s : Estado E) (pid : Pid) (unPrograma : Programa) : Estado E :=
  if unPrograma.estaBloqueado then
    s.ponerPrograma pid { unPrograma with mutexTomado := false, estaBloqueado := false }
  else s

theorem sacar1HiloDeLaColaDeBloqueadosPorSemaforo_ok {pid : Pid} {semID : String}
    {ahora : ℕ} (h : sacar1HiloDeLaColaDeBloqueadosPorSemaforo s pid semID ahora = .ok s') :
    (s.diccionarioDeBlockedPorSemaforo.get semID = some [] ∧ s' = s) ∨
    ∃ unHilo resto s₁ hilo unPrograma p,
      s.diccionarioDeBlockedPorSemaforo.get semID = some (unHilo :: resto) ∧
      pasarAReady (s.ponerBlockedPorSemaforo semID resto) unHilo ahora = .ok s₁ ∧
      s₁.hilos unHilo = some hilo ∧
      s₁.diccionarioDeProgramas.get hilo.pid = some unPrograma ∧
      (despertarPrograma s₁ hilo.pid unPrograma).diccionarioDeProgramas.get pid = some p ∧
      s' = (despertarPrograma s₁ hilo.pid unPrograma).ponerPrograma pid
        { p with cantidadDeHilosEnBlocked := p.cantidadDeHilosEnBlocked - 1 } := by
  simp only [sacar1HiloDeLaColaDeBloqueadosPorSemaforo, noNulo, bind_eq_ok,
    orFail_eq_ok] at h
  obtain ⟨cola, hcola, h⟩ := h
  cases cola with
  | nil =>
      cases h
      exact Or.inl ⟨hcola, rfl⟩
  | cons unHilo resto =>
      simp only [bind_eq_ok, orFail_eq_ok, pure_eq_ok] at h
      obtain ⟨s₁, hs₁, hilo, hhilo, unPrograma, hprog, p, hp, rfl⟩ := h
      exact Or.inr ⟨unHilo, resto, s₁, hilo, unPrograma, p, hcola, hs₁, hhilo, hprog, hp, rfl⟩

/-! ### Faults that these functions do not have -/

theorem noNulo_ne_error {α : Type} {f : Falla} (hf : f ≠ .punteroNulo) (o : Option α) :
    noNulo o ≠ .error f :=
  orFail_ne_error hf.symm o

theorem pasarAReady_ne_error {f : Falla} (hf : f ≠ .punteroNulo) (s : Estado E) (x : Puntero)
    (ahora : ℕ) : pasarAReady s x ahora ≠ .error f := by
  apply bind_ne_error (noNulo_ne_error hf _)
  intro h
  split
  · exact bind_ne_error (noNulo_ne_error hf _) fun p => by simp [pure, Except.pure]
  · exact bind_ne_error (noNulo_ne_error hf _) fun p => by simp [pure, Except.pure]

theorem sacar1HiloDeLaColaDeBloqueadosPorSemaforo_ne_error {f : Falla} (hf : f ≠ .punteroNulo)
    (s : Estado E) (pid : Pid) (semID : String) (ahora : ℕ) :
    sacar1HiloDeLaColaDeBloqueadosPorSemaforo s pid semID ahora ≠ .error f := by
  apply bind_ne_error (noNulo_ne_error hf _)
  intro cola
  split
  · simp [pure, Except.pure]
  · apply bind_ne_error (pasarAReady_ne_error hf _ _ _)
    intro s₁
    apply bind_ne_error (noNulo_ne_error hf _)
    intro h
    apply bind_ne_error (noNulo_ne_error hf _)
    intro unPrograma
    exact bind_ne_error (noNulo_ne_error hf _) fun p => by simp [pure, Except.pure]

theorem sumarUno_ok {n m : ℤ} (h : sumarUno n = .ok m) : m = n + 1 := by
  rw [sumarUno] at h
  split_ifs at h
  cases h
  rfl

theorem semSuseSignal_ok {pid : Pid} {semID : String} {ahora : ℕ}
    (h : semSuseSignal s pid semID ahora = .ok s') :
    (s.semaforos.get semID = none ∧ s' = s) ∨
    ∃ sem, s.semaforos.get semID = some sem ∧
      ((sem.valorMaximoSemaforo < sem.valorActualSemaforo + 1 ∧ s' = s) ∨
      (sem.valorActualSemaforo + 1 ≤ sem.valorMaximoSemaforo ∧
        s.diccionarioDeBlockedPorSemaforo.get semID = some [] ∧
        s' = s.ponerSemaforo semID
          { sem with valorActualSemaforo := sem.valorActualSemaforo + 1 }) ∨
      (sem.valorActualSemaforo + 1 ≤ sem.valorMaximoSemaforo ∧
        (∃ unHilo resto,
          s.diccionarioDeBlockedPorSemaforo.get semID = some (unHilo :: resto)) ∧
        sacar1HiloDeLaColaDeBloqueadosPorSemaforo s pid semID ahora = .ok s')) := by
  rw [semSuseSignal] at h
  cases hsem : s.semaforos.get semID with
  | none =>
      rw [hsem] at h
      cases h
      exact Or.inl ⟨rfl, rfl⟩
  | some sem =>
      simp only [hsem, bind_eq_ok] at h
      obtain ⟨siguiente, hsig, h⟩ := h
      rw [sumarUno_ok hsig] at h
      refine Or.inr ⟨sem, rfl, ?_⟩
      split_ifs at h with hmax
      · simp only [noNulo, bind_eq_ok, orFail_eq_ok] at h
        obtain ⟨cola, hcola, h⟩ := h
        cases cola with
        | nil =>
            cases h
            exact Or.inr (Or.inl ⟨hmax, hcola, rfl⟩)
        | cons unHilo resto => exact Or.inr (Or.inr ⟨hmax, ⟨unHilo, resto, hcola⟩, h⟩)
      · cases h
        exact Or.inl ⟨by omega, rfl⟩

theorem semSuseWait_ok {pid : Pid} {tid : Tid} {semID : String}
    (h : semSuseWait s pid tid semID = .ok s') :
    (s.semaforos.get semID = none ∧ s' = s) ∨
    ∃ sem, s.semaforos.get semID = some sem ∧
      ((0 < sem.valorActualSemaforo ∧
        s' = s.ponerSemaforo semID
          { sem with valorActualSemaforo := sem.valorActualSemaforo - 1 }) ∨
      (sem.valorActualSemaforo ≤ 0 ∧ ∃ p exec hilo cola,
        s.diccionarioDeProgramas.get pid = some p ∧ p.exec = some exec ∧
        s.hilos exec = some hilo ∧ hilo.tid = tid ∧
        s.diccionarioDeBlockedPorSemaforo.get semID = some cola ∧
        s' = (s.ponerBlockedPorSemaforo semID (cola ++ [exec])).ponerPrograma pid
          { p with
            cantidadDeHilosEnBlocked := p.cantidadDeHilosEnBlocked + 1
            exec := none })) := by
  rw [semSuseWait] at h
  cases hsem : s.semaforos.get semID with
  | none =>
      rw [hsem] at h
      cases h
      exact Or.inl ⟨rfl, rfl⟩
  | some sem =>
      simp only [hsem] at h
      refine Or.inr ⟨sem, rfl, ?_⟩
      split_ifs at h with hvalor
      · cases h
        exact Or.inl ⟨hvalor, rfl⟩
      · simp only [noNulo, bind_eq_ok, orFail_eq_ok] at h
        obtain ⟨p, hp, exec, hexec, hilo, hhilo, h⟩ := h
        split_ifs at h with htid
        simp only [bind_eq_ok, orFail_eq_ok, pure_eq_ok] at h
        obtain ⟨cola, hcola, rfl⟩ := h
        exact Or.inr ⟨by omega, p, exec, hilo, cola, hp, hexec, hhilo, htid, hcola, rfl⟩

/-! ## Joins and exits -/

theorem realizarJoin_ok {pid : Pid} {tidAEsperar : Tid}
    (h : realizarJoin s pid tidAEsperar = .ok s') :
    s' = s ∨ ∃ p exec hilo cantidad, s.diccionarioDeProgramas.get pid = some p ∧
      p.exec = some exec ∧ s.hilos exec = some hilo ∧
      s' = s.ponerPrograma pid
        { ponerEnBlockedPorHilo p exec tidAEsperar with
          cantidadDeHilosEnBlocked := cantidad
          exec := none } := by
  rw [realizarJoin] at h
  cases hp : s.diccionarioDeProgramas.get pid with
  | none =>
      rw [hp] at h
      cases h
      exact Or.inl rfl
  | some p =>
      simp only [hp] at h
      cases he : p.exec with
      | none =>
          rw [he] at h
          cases h
          exact Or.inl rfl
      | some exec =>
          simp only [he] at h
          split_ifs at h with htermino
          · cases h
            exact Or.inl rfl
          · simp only [noNulo, bind_eq_ok, orFail_eq_ok, pure_eq_ok] at h
            obtain ⟨hilo, hhilo, rfl⟩ := h
            exact Or.inr ⟨p, exec, hilo, _, rfl, he, hhilo, rfl⟩

/-- The state after the loop of `liberarLista` has taken its first thread out of
the join list. -/
def sacarDeLista (s : Estado E) (pid : Pid) (tid : Tid) (p : Programa)
    (resto : List Puntero) : Estado E :=
  s.ponerPrograma pid { p with blocked := p.blocked.put tid resto }

theorem liberarLista_cons_ok {pid : Pid} {tid : Tid} {ahora : ℕ}
    {hiloBloqueado : Puntero} {resto : List Puntero}
    (h : liberarLista pid tid ahora (hiloBloqueado :: resto) s = .ok s') :
    ∃ p hilo q, s.diccionarioDeProgramas.get pid = some p ∧
      s.hilos hiloBloqueado = some hilo ∧
      (sacarDeLista s pid tid p resto).diccionarioDeProgramas.get hilo.pid = some q ∧
      ((bloqueadoPorAlgunHilo (sacarDeLista s pid tid p resto) q hilo.tid = true ∧
          liberarLista pid tid ahora resto (sacarDeLista s pid tid p resto) = .ok s') ∨
        ∃ l, s.diccionarioDeListasDeReady.get hilo.pid = some l ∧
          bloqueadoPorAlgunHilo (sacarDeLista s pid tid p resto) q hilo.tid = false ∧
          liberarLista pid tid ahora resto
            ((((sacarDeLista s pid tid p resto).ponerReady hilo.pid
              (l ++ [hiloBloqueado])).ponerHilo hiloBloqueado
                { hilo with timestampReady := ahora }).ponerPrograma hilo.pid
                  { q with
                    cantidadDeHilosEnBlocked := q.cantidadDeHilosEnBlocked - 1
                    cantidadDeHilosEnReady := q.cantidadDeHilosEnReady + 1 }) = .ok s') := by
  simp only [liberarLista, noNulo, bind_eq_ok, orFail_eq_ok] at h
  obtain ⟨p, hp, hilo, hhilo, q, hq, h⟩ := h
  refine ⟨p, hilo, q, hp, hhilo, hq, ?_⟩
  split_ifs at h with hbloq
  · exact Or.inl ⟨hbloq, h⟩
  · simp only [bind_eq_ok, orFail_eq_ok] at h
    obtain ⟨l, hl, h⟩ := h
    exact Or.inr ⟨l, hl, Bool.eq_false_iff.2 hbloq, h⟩

theorem liberarBloqueadosPorElHilo_ok {hiloBloqueante : Puntero} {ahora : ℕ}
    (h : liberarBloqueadosPorElHilo s hiloBloqueante ahora = .ok s') :
    ∃ hilo p, s.hilos hiloBloqueante = some hilo ∧
      s.diccionarioDeProgramas.get hilo.pid = some p ∧
      liberarLista hilo.pid hilo.tid ahora ((p.blocked.get hilo.tid).getD []) s = .ok s' := by
  simp only [liberarBloqueadosPorElHilo, noNulo, bind_eq_ok, orFail_eq_ok] at h
  obtain ⟨hilo, hhilo, p, hp, h⟩ := h
  refine ⟨hilo, p, hhilo, hp, ?_⟩
  cases hb : p.blocked.get hilo.tid with
  | none =>
      rw [hb] at h
      exact h
  | some lista =>
      rw [hb] at h
      exact h

/-- `pasarAExit` up to its pass over the metrics. -/
def ponerEnExit (s : Estado E) (pid : Pid) (unHilo : Puntero) : Estado E :=
  s.ponerExit pid ((s.diccionarioDeListasDeExit.get pid).getD [] ++ [unHilo])

theorem pasarAExit_ok {unHilo : Puntero} {ahora : ℕ}
    (h : pasarAExit s unHilo ahora = .ok s') :
    ∃ hilo s₁, s.hilos unHilo = some hilo ∧
      SoloTiempos (ponerEnExit s hilo.pid unHilo) s₁ ∧
      s' = { s₁ with maximoProcesamiento := s₁.maximoProcesamiento + 1 } := by
  simp only [pasarAExit, noNulo, bind_eq_ok, orFail_eq_ok, pure_eq_ok] at h
  obtain ⟨hilo, hhilo, s₁, hs₁, rfl⟩ := h
  exact ⟨hilo, s₁, hhilo, tomarMetricas_soloTiempos hs₁, rfl⟩

theorem realizarClose_ok {pid : Pid} {tid : Tid} {ahora : ℕ}
    (h : realizarClose s pid tid ahora = .ok s') :
    ∃ p exec hilo, s.diccionarioDeProgramas.get pid = some p ∧ p.exec = some exec ∧
      s.hilos exec = some hilo ∧
      ((hilo.tid ≠ tid ∧ s' = s) ∨
        (hilo.tid = tid ∧ ∃ s₁ p₁, pasarAExit s exec ahora = .ok s₁ ∧
          s₁.diccionarioDeProgramas.get pid = some p₁ ∧
          liberarBloqueadosPorElHilo (s₁.ponerPrograma pid { p₁ with exec := none })
            exec ahora = .ok s')) := by
  simp only [realizarClose, noNulo, bind_eq_ok, orFail_eq_ok] at h
  obtain ⟨p, hp, exec, hexec, hilo, hhilo, h⟩ := h
  refine ⟨p, exec, hilo, hp, hexec, hhilo, ?_⟩
  split_ifs at h with htid
  · simp only [bind_eq_ok, orFail_eq_ok] at h
    obtain ⟨s₁, hs₁, p₁, hp₁, h⟩ := h
    exact Or.inr ⟨htid, s₁, p₁, hs₁, hp₁, h⟩
  · cases h
    exact Or.inl ⟨htid, rfl⟩

/-! ## Choosing the next thread -/

theorem replanificarHilos_ok {env : Entorno E} {pid : Pid}
    (h : replanificarHilos env s pid = .ok s') :
    ∃ l l', s.diccionarioDeListasDeReady.get pid = some l ∧ l'.Perm l ∧
      s' = s.ponerReady pid l' := by
  simp only [replanificarHilos, noNulo, bind_eq_ok, orFail_eq_ok, pure_eq_ok] at h
  obtain ⟨l, hl, rfl⟩ := h
  exact ⟨l, _, hl, env.listSort_perm _ l, rfl⟩

/-- The state that `ponerEnExec` leaves. -/
def enExec (s : Estado E) (pid : Pid) (candidato : Puntero) (resto : List Puntero)
    (reloj : ℕ → ℕ) (p : Programa) (h : Hilo E) : Estado E :=
  (({ s with inicioRafaga := reloj 1 }.ponerReady pid resto).ponerPrograma pid
    { p with exec := some candidato
             cantidadDeHilosEnReady := p.cantidadDeHilosEnReady - 1 }).ponerHilo candidato
    { h with
      sumaDeIntervalosEnReady :=
        h.sumaDeIntervalosEnReady + aInt (reloj 2 - h.timestampReady)
      timestampExec := reloj 3 }

theorem ponerEnExec_ok {pid : Pid} {candidato : Puntero} {resto : List Puntero}
    {reloj : ℕ → ℕ} {r : Option Tid}
    (h : ponerEnExec s pid candidato resto reloj = .ok (s', r)) :
    ∃ p hilo, s.diccionarioDeProgramas.get pid = some p ∧ s.hilos candidato = some hilo ∧
      s' = enExec s pid candidato resto reloj p hilo ∧ r = some hilo.tid := by
  simp only [ponerEnExec, noNulo, bind_eq_ok, orFail_eq_ok, pure_eq_ok, Prod.mk.injEq] at h
  obtain ⟨p, hp, hilo, hhilo, rfl, rfl⟩ := h
  exact ⟨p, hilo, hp, hhilo, rfl, rfl⟩

/-- The state that `calcularSiguienteHilo` leaves at its mutex. -/
def estacionado (s : Estado E) (pid : Pid) (p : Programa) : Estado E :=
  { s with enMutex := Function.update s.enMutex pid (s.enMutex pid + 1) }.ponerPrograma pid
    { p with estaBloqueado := true }

theorem calcularSiguienteHilo_ok {env : Entorno E} {pid : Pid} {reloj : ℕ → ℕ}
    {r : Option Tid} (h : calcularSiguienteHilo env s pid reloj = .ok (s', r)) :
    ∃ listaDeReady p, s.diccionarioDeListasDeReady.get pid = some listaDeReady ∧
      s.diccionarioDeProgramas.get pid = some p ∧
      ((∃ ejecutando hilo, p.exec = some ejecutando ∧ s.hilos ejecutando = some hilo ∧
          s' = seguirEjecutando s ejecutando hilo reloj ∧ r = some hilo.tid) ∨
        (∃ ejecutando hilo candidato c resto, p.exec = some ejecutando ∧
          s.hilos ejecutando = some hilo ∧ listaDeReady = candidato :: resto ∧
          s.hilos candidato = some c ∧
          s' = desalojar s pid p ejecutando candidato hilo c resto reloj ∧ r = some c.tid) ∨
        (∃ candidato resto hilo, p.exec = none ∧ listaDeReady = candidato :: resto ∧
          s.hilos candidato = some hilo ∧
          s' = enExec s pid candidato resto reloj p hilo ∧ r = some hilo.tid) ∨
        (p.exec = none ∧ listaDeReady = [] ∧ s' = estacionado s pid p ∧ r = none)) := by
  simp only [calcularSiguienteHilo, noNulo, bind_eq_ok, orFail_eq_ok] at h
  obtain ⟨listaDeReady, hlista, p, hp, h⟩ := h
  refine ⟨listaDeReady, p, hlista, hp, ?_⟩
  cases he : p.exec with
  | none =>
      cases listaDeReady with
      | nil =>
          simp only [he, pure_eq_ok, Prod.mk.injEq] at h
          obtain ⟨rfl, rfl⟩ := h
          exact Or.inr (Or.inr (Or.inr ⟨rfl, rfl, by simp [estacionado, he], rfl⟩))
      | cons candidato resto =>
          simp only [he] at h
          obtain ⟨p', hilo, hp', hhilo, rfl, rfl⟩ := ponerEnExec_ok h
          rw [hp] at hp'
          cases hp'
          exact Or.inr (Or.inr (Or.inl ⟨candidato, resto, hilo, rfl, rfl, hhilo, rfl, rfl⟩))
  | some ejecutando =>
      cases listaDeReady with
      | nil =>
          simp only [he, bind_eq_ok, orFail_eq_ok, pure_eq_ok, Prod.mk.injEq] at h
          obtain ⟨hilo, hhilo, rfl, rfl⟩ := h
          exact Or.inl ⟨ejecutando, hilo, rfl, hhilo, rfl, rfl⟩
      | cons candidato resto =>
          simp only [he, bind_eq_ok, orFail_eq_ok] at h
          obtain ⟨hilo, hhilo, c, hc, h⟩ := h
          split_ifs at h with hmenor
          · simp only [pure_eq_ok, Prod.mk.injEq] at h
            obtain ⟨rfl, rfl⟩ := h
            exact Or.inr (Or.inl
              ⟨ejecutando, hilo, candidato, c, resto, rfl, hhilo, rfl, hc, rfl, rfl⟩)
          · simp only [pure_eq_ok, Prod.mk.injEq] at h
            obtain ⟨rfl, rfl⟩ := h
            exact Or.inl ⟨ejecutando, hilo, rfl, hhilo, rfl, rfl⟩

theorem siguienteAEjecutar_ok {env : Entorno E} {pid : Pid} {reloj : ℕ → ℕ}
    {r : Option Tid} (h : siguienteAEjecutar env s pid reloj = .ok (s', r)) :
    ∃ s₁ s₂, SoloTiempos s s₁ ∧ replanificarHilos env s₁ pid = .ok s₂ ∧
      calcularSiguienteHilo env s₂ pid reloj = .ok (s', r) := by
  simp only [siguienteAEjecutar, bind_eq_ok] at h
  obtain ⟨s₁, h₁, s₂, h₂, h⟩ := h
  exact ⟨s₁, s₂, recalcularEstimacion_soloTiempos h₁, h₂, h⟩

/-- The state with which `calcularSiguienteHilo` comes back from its mutex. -/
def despertado (s : Estado E) (pid : Pid) (p : Programa) : Estado E :=
  { s with enMutex := Function.update s.enMutex pid (s.enMutex pid - 1) }.ponerPrograma pid
    { p with mutexTomado := true }

theorem calcularSiguienteHiloDespierto_ok {pid : Pid} {reloj : ℕ → ℕ} {r : Option Tid}
    (h : calcularSiguienteHiloDespierto s pid reloj = .ok (s', r)) :
    ∃ p candidato resto hilo, s.diccionarioDeProgramas.get pid = some p ∧
      0 < s.enMutex pid ∧ p.mutexTomado = false ∧
      s.diccionarioDeListasDeReady.get pid = some (candidato :: resto) ∧
      s.hilos candidato = some hilo ∧
      s' = enExec (despertado s pid p) pid candidato resto reloj { p with mutexTomado := true }
        hilo ∧ r = some hilo.tid := by
  simp only [calcularSiguienteHiloDespierto, noNulo, bind_eq_ok, orFail_eq_ok] at h
  obtain ⟨p, hp, h⟩ := h
  split_ifs at h with hespera
  simp only [bind_eq_ok, orFail_eq_ok] at h
  obtain ⟨listaDeReady, hlista, h⟩ := h
  cases listaDeReady with
  | nil => cases h
  | cons candidato resto =>
      obtain ⟨q, hilo, hq, hhilo, rfl, rfl⟩ := ponerEnExec_ok h
      have hq' : q = { p with mutexTomado := true } := by simpa using hq.symm
      subst hq'
      rw [not_or] at hespera
      exact ⟨p, candidato, resto, hilo, hp, Nat.pos_of_ne_zero hespera.1,
        by simpa using hespera.2, hlista, hhilo, rfl, rfl⟩

/-! ## One step -/

/-- `paso` of the two events that also answer with a thread id. -/
theorem paso_scheduleNext {env : Entorno E} {pid : Pid} {reloj : ℕ → ℕ}
    (h : paso env s (.scheduleNext pid reloj) = .ok s') :
    ∃ r, siguienteAEjecutar env s pid reloj = .ok (s', r) := by
  simp only [paso] at h
  cases hr : siguienteAEjecutar env s pid reloj with
  | error e =>
      rw [hr] at h
      cases h
  | ok r =>
      rw [hr] at h
      cases h
      exact ⟨r.2, rfl⟩

theorem paso_despertar {env : Entorno E} {pid : Pid} {reloj : ℕ → ℕ}
    (h : paso env s (.despertar pid reloj) = .ok s') :
    ∃ r, calcularSiguienteHiloDespierto s pid reloj = .ok (s', r) := by
  simp only [paso] at h
  cases hr : calcularSiguienteHiloDespierto s pid reloj with
  | error e =>
      rw [hr] at h
      cases h
  | ok r =>
      rw [hr] at h
      cases h
      exact ⟨r.2, rfl⟩

theorem paso_conectar {env : Entorno E} {pid : Pid}
    (h : paso env s (.conectar pid) = .ok s') :
    s.diccionarioDeProgramas.get pid = none ∧ s' = crearPrograma s pid := by
  simp only [paso] at h
  cases hp : s.diccionarioDeProgramas.get pid with
  | none =>
      rw [hp] at h
      cases h
      exact ⟨rfl, rfl⟩
  | some p =>
      rw [hp] at h
      cases h

theorem paso_desconectar {env : Entorno E} {pid : Pid}
    (h : paso env s (.desconectar pid) = .ok s') :
    (∃ p, s.diccionarioDeProgramas.get pid = some p) ∧ s' = limpiarEstructuras
      { s with maximoProcesamiento := s.maximoProcesamiento + 1 } pid := by
  simp only [paso] at h
  cases hp : s.diccionarioDeProgramas.get pid with
  | none =>
      rw [hp] at h
      cases h
  | some p =>
      rw [hp] at h
      cases h
      exact ⟨⟨p, rfl⟩, rfl⟩

end Suse
