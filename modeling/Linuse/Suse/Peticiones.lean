import Linuse.Suse.Admision

/-!
# What the handlers dereference

`sem_suse_wait` on a semaphore without units and `realizarClose` dereference
`exec`, and `replanificarHilos` the ready list, of the program that they serve; the
handler of a wait ends the server when the thread in `exec` is not the one that
waits. None of this happens in the handling of a request if and only if the
request needs no running thread or the main thread of its program has been
admitted (`rompe_iff`).
-/

namespace Suse

open Function (update update_self update_of_ne)
open Transition Fallible

variable {E : Type} {s s' : Estado E} {S : Set Puntero} {env : Entorno E} {pid : Pid}

namespace Evento

/-- The program whose `exec` the handler dereferences when the program has no
units to take. -/
def usaExec : Evento → Option Pid
  | wait pid _ _ => some pid
  | close pid _ _ => some pid
  | _ => none

/-- The program whose ready list the handler dereferences. -/
def usaReady : Evento → Option Pid
  | scheduleNext pid _ => some pid
  | despertar pid _ => some pid
  | close pid _ _ => some pid
  | _ => none

/-- The event is a request that needs the main thread of its program to be
admitted: `schedule_next`, a close, or a wait on a semaphore without units. -/
def NecesitaAdmision (s : Estado E) : Evento → Prop
  | scheduleNext _ _ => True
  | close _ _ _ => True
  | wait _ _ semID => ∃ sem, s.semaforos.get semID = some sem ∧ sem.valorActualSemaforo ≤ 0
  | _ => False

end Evento

/-- The handler ends the server with `exit`, or dereferences the NULL `exec` or the
missing ready list of the program that it serves. -/
def Rompe (env : Entorno E) (s : Estado E) (e : Evento) : Prop :=
  paso env s e = .error .salida ∨
    (paso env s e = .error .punteroNulo ∧
      ((∃ pid ∈ e.usaExec, contenido s (.exec pid) = []) ∨
        ∃ pid ∈ e.usaReady, ¬ tieneReady s pid))

/-- The main thread of the program has been admitted, if the request needs it. -/
def Admitida (s : Estado E) (e : Evento) : Prop :=
  e.NecesitaAdmision s → ∀ pid ∈ e.programa, tieneReady s pid

/-! ## No handler but the one of a wait calls `exit` -/

section Salida

theorem noNulo_ne_salida {α : Type} (o : Option α) : noNulo o ≠ .error .salida :=
  noNulo_ne_error (by decide) o

theorem planificarReadyTomar_ne_salida (s : Estado E) :
    planificarReadyTomar s ≠ .error .salida := by
  rw [planificarReadyTomar]
  split_ifs
  · split <;> simp
  · simp

theorem planificarReadyAdmitir_ne_salida (s : Estado E) (ahora : ℕ) :
    planificarReadyAdmitir s ahora ≠ .error .salida := by
  rw [planificarReadyAdmitir]
  split
  · simp
  · split_ifs
    · apply bind_ne_error (noNulo_ne_salida _)
      intro h
      apply bind_ne_error (noNulo_ne_salida _)
      exact fun p => pasarAReady_ne_error (by decide) _ _ _
    · simp

theorem semSuseSignal_ne_salida (s : Estado E) (pid : Pid) (semID : String) (ahora : ℕ) :
    semSuseSignal s pid semID ahora ≠ .error .salida := by
  rw [semSuseSignal]
  split
  · simp
  · apply bind_ne_error
    · rw [sumarUno]
      split_ifs <;> simp
    · intro siguiente
      split_ifs
      · apply bind_ne_error (noNulo_ne_salida _)
        intro cola
        split_ifs
        · simp [pure, Except.pure]
        · exact sacar1HiloDeLaColaDeBloqueadosPorSemaforo_ne_error (by decide) _ _ _ _
      · simp [pure, Except.pure]

theorem realizarJoin_ne_salida (s : Estado E) (pid : Pid) (tidAEsperar : Tid) :
    realizarJoin s pid tidAEsperar ≠ .error .salida := by
  rw [realizarJoin]
  split
  · simp
  · split
    · simp
    · split_ifs
      · simp
      · exact bind_ne_error (noNulo_ne_salida _) fun h => by simp [pure, Except.pure]

theorem tomarMetricas_ne_salida (s : Estado E) (ahora : ℕ) :
    tomarMetricas s ahora ≠ .error .salida := by
  apply bind_ne_error
  · apply foldlM_ne_error
    intro s x
    apply bind_ne_error (noNulo_ne_salida _)
    intro h
    exact bind_ne_error (noNulo_ne_salida _) fun p => by simp [pure, Except.pure]
  · intro s₁
    apply foldlM_ne_error
    intro s p
    exact bind_ne_error (noNulo_ne_salida _) fun p => by simp [pure, Except.pure]

theorem liberarLista_ne_salida (pid : Pid) (tid : Tid) (ahora : ℕ) (lista : List Puntero)
    (s : Estado E) : liberarLista pid tid ahora lista s ≠ .error .salida := by
  induction lista generalizing s with
  | nil => simp [liberarLista]
  | cons x resto ih =>
      rw [liberarLista]
      apply bind_ne_error (noNulo_ne_salida _)
      intro p
      apply bind_ne_error (noNulo_ne_salida _)
      intro h
      apply bind_ne_error (noNulo_ne_salida _)
      intro q
      split_ifs
      · exact ih _
      · exact bind_ne_error (noNulo_ne_salida _) fun l => ih _

theorem realizarClose_ne_salida (s : Estado E) (pid : Pid) (tid : Tid) (ahora : ℕ) :
    realizarClose s pid tid ahora ≠ .error .salida := by
  apply bind_ne_error (noNulo_ne_salida _)
  intro p
  apply bind_ne_error (noNulo_ne_salida _)
  intro exec
  apply bind_ne_error (noNulo_ne_salida _)
  intro h
  split_ifs
  · apply bind_ne_error
    · apply bind_ne_error (noNulo_ne_salida _)
      intro h
      exact bind_ne_error (tomarMetricas_ne_salida _ _) fun s₁ => by simp [pure, Except.pure]
    · intro s₁
      apply bind_ne_error (noNulo_ne_salida _)
      intro p₁
      apply bind_ne_error (noNulo_ne_salida _)
      intro h
      apply bind_ne_error (noNulo_ne_salida _)
      intro p
      split
      · simp [pure, Except.pure]
      · exact liberarLista_ne_salida _ _ _ _ _
  · simp [pure, Except.pure]

theorem ponerEnExec_ne_salida (s : Estado E) (pid : Pid) (candidato : Puntero)
    (resto : List Puntero) (reloj : ℕ → ℕ) :
    ponerEnExec s pid candidato resto reloj ≠ .error .salida := by
  apply bind_ne_error (noNulo_ne_salida _)
  intro p
  exact bind_ne_error (noNulo_ne_salida _) fun h => by simp [pure, Except.pure]

theorem siguienteAEjecutar_ne_salida (env : Entorno E) (s : Estado E) (pid : Pid)
    (reloj : ℕ → ℕ) : siguienteAEjecutar env s pid reloj ≠ .error .salida := by
  apply bind_ne_error
  · rw [recalcularEstimacion]
    split
    · simp
    · split
      · simp
      · exact bind_ne_error (noNulo_ne_salida _) fun h => by simp [pure, Except.pure]
  · intro s₁
    apply bind_ne_error
    · exact bind_ne_error (noNulo_ne_salida _) fun l => by simp [pure, Except.pure]
    · intro s₂
      apply bind_ne_error (noNulo_ne_salida _)
      intro lista
      apply bind_ne_error (noNulo_ne_salida _)
      intro p
      split
      · exact bind_ne_error (noNulo_ne_salida _) fun h => by simp [pure, Except.pure]
      · apply bind_ne_error (noNulo_ne_salida _)
        intro h
        apply bind_ne_error (noNulo_ne_salida _)
        intro c
        split_ifs <;> simp [pure, Except.pure]
      · exact ponerEnExec_ne_salida _ _ _ _ _
      · simp [pure, Except.pure]

theorem calcularSiguienteHiloDespierto_ne_salida (s : Estado E) (pid : Pid)
    (reloj : ℕ → ℕ) : calcularSiguienteHiloDespierto s pid reloj ≠ .error .salida := by
  apply bind_ne_error (noNulo_ne_salida _)
  intro p
  split_ifs
  · simp
  · apply bind_ne_error (noNulo_ne_salida _)
    intro lista
    split
    · simp
    · exact ponerEnExec_ne_salida _ _ _ _ _

theorem map_fst_ne_salida {α β : Type} {x : Except Falla (α × β)} (h : x ≠ .error .salida) :
    Prod.fst <$> x ≠ .error .salida := by
  cases x with
  | error f => simpa [Functor.map, Except.map] using h
  | ok a => simp [Functor.map, Except.map]

theorem paso_ne_salida {e : Evento} (he : ∀ pid tid semID, e ≠ .wait pid tid semID) :
    paso env s e ≠ .error .salida := by
  cases e with
  | conectar pid =>
      rw [paso]
      split <;> simp
  | crear pid tid basura ahora =>
      exact bind_ne_error (noNulo_ne_salida _) fun p => by simp [pure, Except.pure]
  | tomar => exact planificarReadyTomar_ne_salida s
  | admitir ahora => exact planificarReadyAdmitir_ne_salida s ahora
  | wait pid tid semID => exact absurd rfl (he pid tid semID)
  | signal pid tid semID ahora => exact semSuseSignal_ne_salida s pid semID ahora
  | join pid tidAEsperar => exact realizarJoin_ne_salida s pid tidAEsperar
  | close pid tid ahora => exact realizarClose_ne_salida s pid tid ahora
  | scheduleNext pid reloj => exact map_fst_ne_salida (siguienteAEjecutar_ne_salida env s pid reloj)
  | despertar pid reloj =>
      exact map_fst_ne_salida (calcularSiguienteHiloDespierto_ne_salida s pid reloj)
  | metricas ahora => exact tomarMetricas_ne_salida s ahora
  | desconectar pid =>
      rw [paso]
      split <;> simp

end Salida

/-! ## Runs -/

theorem respuesta_scheduleNext (env : Entorno E) {reloj : ℕ → ℕ} {r : Option Tid}
    (h : siguienteAEjecutar env s pid reloj = .ok (s', r)) :
    respuesta env s (.scheduleNext pid reloj) = r := by
  rw [respuesta, h]

theorem respuesta_despertar (env : Entorno E) {reloj : ℕ → ℕ} {r : Option Tid}
    (h : calcularSiguienteHiloDespierto s pid reloj = .ok (s', r)) :
    respuesta env s (.despertar pid reloj) = r := by
  rw [respuesta, h]

namespace Atendidos

variable {c c' : Conectados E}

theorem paso {e : Evento} (h : Atendidos c) (hlimpia : ConexionLimpia ⟨c, e, c'⟩)
    (hs : Conectados.Transicion env c e c') : Atendidos c' := by
  obtain ⟨hadm, hs, hclientes⟩ := Conectados.paso_ok hs
  obtain ⟨S, hC⟩ := h.coherente
  have hC' := paso_coherente hC hs
  cases e with
  | conectar pid => exact h.conectar hadm hs hclientes hlimpia
  | desconectar pid => exact h.desconectar hs hclientes
  | crear pid tid basura ahora =>
      obtain ⟨cliente, hcl, hadm⟩ := hadm pid rfl
      refine h.of_programa hC' hclientes ?_ ?_ ?_
      · intro cliente' hcl'
        have heq : cliente' = cliente := Option.some_inj.1 (hcl'.symm.trans hcl)
        subst heq
        exact (h.cliente pid cliente' hcl').crear hC hs hadm
      · exact fun pid' hne cliente hcl => (h.cliente pid' cliente hcl).crear_ajeno hC hs hne
      · intro pid' _
        rw [(tieneReady_crearHilo pid' hs).2.1]
  | tomar =>
      refine h.of_nadie hC' hclientes ?_ ?_
      · exact fun pid cliente hcl => (h.cliente pid cliente hcl).tomar hC hs
      · exact (planificarReadyTomar_mueve hC hs).1.enMutex
  | admitir ahora =>
      refine h.of_nadie hC' hclientes ?_ ?_
      · exact fun pid cliente hcl => (h.cliente pid cliente hcl).admitir hC hs
      · exact (planificarReadyAdmitir_mueve hC hs).1.enMutex
  | metricas ahora =>
      have htiempos := tomarMetricas_soloTiempos hs
      refine h.of_nadie hC' hclientes ?_ htiempos.quieto.enMutex
      intro pid cliente hcl
      exact (h.cliente pid cliente hcl).ajeno (htiempos.mueve Lugar.MismaFase False)
        mismaFase_sinAdmitir htiempos.dejaExec
  | wait pid tid semID =>
      obtain ⟨cliente, hcl, hadm⟩ := hadm pid rfl
      obtain ⟨hquieto, hm⟩ := semSuseWait_mueve hC hs
      refine h.cede hm mismaFase_sinAdmitir hquieto.enMutex hclientes ?_ ?_
      · intro cliente' hcl'
        rw [hcl] at hcl'
        cases hcl'
        exact ⟨tid, hadm⟩
      · exact fun pid' _ _ => semSuseWait_deja hs
  | signal pid tid semID ahora =>
      obtain ⟨cliente, hcl, hadm⟩ := hadm pid rfl
      obtain ⟨hquieto, hm⟩ := semSuseSignal_mueve hC hs
      refine h.cede hm mismaFase_sinAdmitir hquieto.enMutex hclientes ?_ ?_
      · intro cliente' hcl'
        rw [hcl] at hcl'
        cases hcl'
        exact ⟨tid, hadm⟩
      · intro pid' cliente' hcl'
        have hd := (h.cliente pid' cliente' hcl').signal_ajeno hs
        exact ⟨hd.toDeja, fun _ => hd⟩
  | join pid tidAEsperar =>
      obtain ⟨cliente, hcl, hadm⟩ := hadm pid rfl
      obtain ⟨hquieto, hm⟩ := realizarJoin_mueve hC hs
      refine h.cede hm mismaFase_sinAdmitir hquieto.enMutex hclientes ?_ ?_
      · intro cliente' hcl'
        rw [hcl] at hcl'
        cases hcl'
        exact hadm
      · exact fun pid' _ _ => realizarJoin_deja hs
  | close pid tid ahora =>
      obtain ⟨cliente, hcl, hadm⟩ := hadm pid rfl
      obtain ⟨hquieto, hm⟩ := realizarClose_mueve hC hs
      refine h.cede hm cierra_sinAdmitir hquieto.enMutex hclientes ?_ ?_
      · intro cliente' hcl'
        rw [hcl] at hcl'
        cases hcl'
        exact ⟨tid, hadm⟩
      · exact fun pid' _ _ => realizarClose_deja hs
  | scheduleNext pid reloj =>
      obtain ⟨cliente, hcl, hadm⟩ := hadm pid rfl
      obtain ⟨r, hs⟩ := paso_scheduleNext hs
      obtain ⟨helige, hmutex, hmutex'⟩ := siguienteAEjecutar_elige hC hs
      have hcero : c.estado.enMutex pid = 0 := by
        refine h.enMutex_eq_zero hcl ?_
        rcases hadm with ⟨tid, hturno⟩ | hturno
        · have hturno' : cliente.turno = .corriendo tid := hturno
          simp [hturno']
        · simp [hturno]
      refine h.elige (siguienteAEjecutar_mueve hC hs).1 helige ?_
        (Option.ne_none_iff_exists'.2 ⟨cliente, hcl⟩) ?_ ?_
      · rw [hclientes, ← respuesta_scheduleNext env hs]
        rfl
      · intro hr
        rw [hmutex hr, hcero]
      · intro hr
        rw [hmutex' hr, hcero]
  | despertar pid reloj =>
      obtain ⟨cliente, hcl, hadm⟩ := hadm pid rfl
      obtain ⟨r, hs⟩ := paso_despertar hs
      obtain ⟨helige, hr, hmutex⟩ := calcularSiguienteHiloDespierto_elige hC hs
      obtain ⟨hm, -, hpos, -⟩ := calcularSiguienteHiloDespierto_mueve hC hs
      refine h.elige hm helige ?_ (Option.ne_none_iff_exists'.2 ⟨cliente, hcl⟩) ?_
        fun hnone => absurd hnone hr
      · rw [hclientes, ← respuesta_despertar env hs]
        rfl
      · intro _
        rw [hmutex, ((h.cliente pid cliente hcl).mutex hpos).2.1]

end Atendidos

theorem iniciarSUSE_atendidos (c : Configuracion) :
    Atendidos (Conectados.inicial c : Conectados E) where
  coherente := ⟨∅, iniciarSUSE_coherente c⟩
  cliente := by
    intro pid cliente hcl
    cases hcl
  ausente := fun _ _ => rfl

theorem atendidos_of_run {cfg : Configuracion} {tr : List (Step (Conectados E) Evento)}
    {c : Conectados E} (hrun : Run (Conectados.Transicion env) (.inicial cfg) tr c)
    (hlimpia : ∀ x ∈ tr, ConexionLimpia x) : Atendidos c := by
  refine hrun.invariant Atendidos ConexionLimpia (iniciarSUSE_atendidos cfg) ?_ hlimpia
  intro c e c' h hlimpia hs
  exact h.paso hlimpia hs

/-! ## The dereferences -/

theorem semSuseWait_sinExec {tid : Tid} {semID : String} {sem : Semaforo}
    (hsem : s.semaforos.get semID = some sem) (hvalor : sem.valorActualSemaforo ≤ 0)
    (hexec : contenido s (.exec pid) = []) :
    semSuseWait s pid tid semID = .error .punteroNulo := by
  have hvalor' : ¬ 0 < sem.valorActualSemaforo := not_lt.2 hvalor
  simp only [semSuseWait, hsem, if_neg hvalor']
  cases hp : s.diccionarioDeProgramas.get pid with
  | none => rfl
  | some p =>
      rw [contenido_exec hp, Option.toList_eq_nil_iff] at hexec
      simp only [noNulo, orFail, bind, Except.bind, hexec]

theorem realizarClose_sinExec {tid : Tid} {ahora : ℕ} (hexec : contenido s (.exec pid) = []) :
    realizarClose s pid tid ahora = .error .punteroNulo := by
  rw [realizarClose]
  cases hp : s.diccionarioDeProgramas.get pid with
  | none => rfl
  | some p =>
      rw [contenido_exec hp, Option.toList_eq_nil_iff] at hexec
      simp only [noNulo, orFail, bind, Except.bind, hexec]

theorem scheduleNext_sinReady {reloj : ℕ → ℕ} (hexec : contenido s (.exec pid) = [])
    (hready : ¬ tieneReady s pid) :
    paso env s (.scheduleNext pid reloj) = .error .punteroNulo := by
  have hrecalcular : recalcularEstimacion env s pid (reloj 0) = .ok s := by
    rw [recalcularEstimacion]
    cases hp : s.diccionarioDeProgramas.get pid with
    | none => rfl
    | some p =>
        rw [contenido_exec hp, Option.toList_eq_nil_iff] at hexec
        simp only [hexec]
  have hnone : s.diccionarioDeListasDeReady.get pid = none := by
    rw [Option.eq_none_iff_forall_ne_some]
    exact fun l hl => hready ⟨l, hl⟩
  have hreplanificar : replanificarHilos env s pid = .error .punteroNulo := by
    rw [replanificarHilos, hnone]
    rfl
  rw [paso, siguienteAEjecutar, hrecalcular]
  simp only [bind, Except.bind, hreplanificar, Functor.map, Except.map]

namespace Atendidos

variable {c : Conectados E}

/-- Before the main thread is admitted the program has no running thread. -/
theorem exec_eq_nil (h : Atendidos c) (hready : ¬ tieneReady c.estado pid) :
    contenido c.estado (.exec pid) = [] := by
  obtain ⟨S, hC⟩ := h.coherente
  by_contra hne
  exact hready (hC.execConReady pid hne)

theorem rompe_wait {tid : Tid} {semID : String} {cliente : Cliente} (h : Atendidos c)
    (hcl : c.clientes pid = some cliente) (hcorre : cliente.corre tid) :
    ¬ Rompe env c.estado (.wait pid tid semID) ↔ Admitida c.estado (.wait pid tid semID) := by
  constructor
  · rintro hno ⟨sem, hsem, hvalor⟩ _ ⟨⟩
    by_contra hready
    have hexec := h.exec_eq_nil hready
    exact hno (Or.inr ⟨semSuseWait_sinExec hsem hvalor hexec, Or.inl ⟨pid, rfl, hexec⟩⟩)
  · intro hadm hrompe
    have hsin : ∀ sem, c.estado.semaforos.get semID = some sem →
        sem.valorActualSemaforo ≤ 0 → ∃ x p hilo, contenido c.estado (.exec pid) = [x] ∧
          c.estado.diccionarioDeProgramas.get pid = some p ∧ p.exec = some x ∧
            c.estado.hilos x = some hilo ∧ hilo.tid = tid := by
      intro sem hsem hvalor
      obtain ⟨x, hx, hid⟩ := (h.cliente pid cliente hcl).corre tid hcorre
        (hadm ⟨sem, hsem, hvalor⟩ pid rfl)
      obtain ⟨p, hp⟩ := (h.cliente pid cliente hcl).conPrograma
      obtain ⟨hilo, hh, hpar⟩ := Option.map_eq_some_iff.1 hid
      rw [Prod.mk.injEq] at hpar
      have hexec : p.exec = some x := by
        have hx' := hx
        rwa [contenido_exec hp, Option.toList_eq_singleton_iff] at hx'
      exact ⟨x, p, hilo, hx, hp, hexec, hh, hpar.2⟩
    rw [Rompe, show Suse.paso env c.estado (.wait pid tid semID) =
      semSuseWait c.estado pid tid semID from rfl, semSuseWait] at hrompe
    cases hsem : c.estado.semaforos.get semID with
    | none =>
        rw [hsem] at hrompe
        rcases hrompe with herr | ⟨herr, -⟩ <;> cases herr
    | some sem =>
        by_cases hvalor : 0 < sem.valorActualSemaforo
        · simp only [hsem, if_pos hvalor] at hrompe
          rcases hrompe with herr | ⟨herr, -⟩ <;> cases herr
        · obtain ⟨x, p, hilo, hx, hp, hexec, hh, htid⟩ := hsin sem hsem (not_lt.1 hvalor)
          rcases hrompe with herr | ⟨-, ⟨_, ⟨⟩, hvacio⟩ | ⟨_, hpid, -⟩⟩
          · simp only [hsem, if_neg hvalor, hp, hexec, hh, noNulo, orFail, bind, Except.bind,
              if_pos htid] at herr
            cases hcola : c.estado.diccionarioDeBlockedPorSemaforo.get semID with
            | none => simp [hcola] at herr
            | some cola => simp [hcola, pure, Except.pure] at herr
          · rw [hx] at hvacio
            cases hvacio
          · cases hpid

theorem rompe_close {tid : Tid} {ahora : ℕ} {cliente : Cliente} (h : Atendidos c)
    (hcl : c.clientes pid = some cliente) (hcorre : cliente.corre tid) :
    ¬ Rompe env c.estado (.close pid tid ahora) ↔ Admitida c.estado (.close pid tid ahora) := by
  constructor
  · rintro hno - _ ⟨⟩
    by_contra hready
    have hexec := h.exec_eq_nil hready
    exact hno (Or.inr ⟨realizarClose_sinExec hexec, Or.inl ⟨pid, rfl, hexec⟩⟩)
  · intro hadm hrompe
    have hready : tieneReady c.estado pid := hadm trivial pid rfl
    obtain ⟨x, hx, -⟩ := (h.cliente pid cliente hcl).corre tid hcorre hready
    rcases hrompe with hsalida | ⟨-, ⟨_, ⟨⟩, hvacio⟩ | ⟨_, ⟨⟩, hno⟩⟩
    · exact realizarClose_ne_salida _ _ _ _ hsalida
    · rw [hx] at hvacio
      cases hvacio
    · exact hno hready

theorem rompe_scheduleNext {reloj : ℕ → ℕ} (h : Atendidos c) :
    ¬ Rompe env c.estado (.scheduleNext pid reloj) ↔
      Admitida c.estado (.scheduleNext pid reloj) := by
  constructor
  · rintro hno - _ ⟨⟩
    by_contra hready
    exact hno (Or.inr ⟨scheduleNext_sinReady (h.exec_eq_nil hready) hready,
      Or.inr ⟨pid, rfl, hready⟩⟩)
  · intro hadm hrompe
    rcases hrompe with hsalida | ⟨-, ⟨_, hpid, -⟩ | ⟨_, ⟨⟩, hno⟩⟩
    · exact paso_ne_salida (by simp) hsalida
    · cases hpid
    · exact hno (hadm trivial pid rfl)

theorem not_rompe_despertar {reloj : ℕ → ℕ} {cliente : Cliente} (h : Atendidos c)
    (hcl : c.clientes pid = some cliente) : ¬ Rompe env c.estado (.despertar pid reloj) := by
  rintro (hsalida | ⟨hnulo, ⟨_, hpid, -⟩ | ⟨_, ⟨⟩, hno⟩⟩)
  · exact paso_ne_salida (by simp) hsalida
  · cases hpid
  · obtain ⟨p, hp⟩ := (h.cliente pid cliente hcl).conPrograma
    have hcero : c.estado.enMutex pid = 0 := by
      by_contra hne
      exact hno ((h.cliente pid cliente hcl).mutex (Nat.pos_of_ne_zero hne)).2.2
    rw [Suse.paso, calcularSiguienteHiloDespierto, hp] at hnulo
    simp [noNulo, orFail, bind, Except.bind, hcero, Functor.map, Except.map] at hnulo

end Atendidos

/-- In every run of connected programs, whatever the order of their requests and of
the admissions, the next request ends the server with `exit`, or dereferences a NULL
`exec` or a missing ready list of its program, unless it needs no running thread or
the main thread of its program has been admitted. A connection is supposed to get a
descriptor of which no place holds a thread. -/
theorem rompe_iff (env : Entorno E) (cfg : Configuracion)
    {tr : List (Step (Conectados E) Evento)} {c : Conectados E} {e : Evento}
    (hrun : Run (Conectados.Transicion env) (.inicial cfg) tr c)
    (hlimpia : ∀ x ∈ tr, ConexionLimpia x) (hadm : c.Admite e) :
    ¬ Rompe env c.estado e ↔ Admitida c.estado e := by
  have h := atendidos_of_run hrun hlimpia
  have hotro : (∀ pid tid semID, e ≠ .wait pid tid semID) → e.usaExec = none →
      e.usaReady = none → ¬ e.NecesitaAdmision c.estado →
        (¬ Rompe env c.estado e ↔ Admitida c.estado e) := by
    intro hwait hexec hready hno
    refine iff_of_true ?_ fun hnec => absurd hnec hno
    rintro (hsalida | ⟨-, ⟨pid, hpid, -⟩ | ⟨pid, hpid, -⟩⟩)
    · exact paso_ne_salida hwait hsalida
    · rw [hexec] at hpid
      cases hpid
    · rw [hready] at hpid
      cases hpid
  cases e with
  | wait pid tid semID =>
      obtain ⟨cliente, hcl, hcorre⟩ := hadm pid rfl
      exact h.rompe_wait hcl hcorre
  | close pid tid ahora =>
      obtain ⟨cliente, hcl, hcorre⟩ := hadm pid rfl
      exact h.rompe_close hcl hcorre
  | scheduleNext pid reloj => exact h.rompe_scheduleNext
  | despertar pid reloj =>
      obtain ⟨cliente, hcl, -⟩ := hadm pid rfl
      exact iff_of_true (h.not_rompe_despertar hcl) fun hnec => hnec.elim
  | _ => exact hotro (by simp) rfl rfl not_false

/-- `ConexionLimpia` with the threads of the program looked for among the ones created so far,
which can be evaluated. -/
def ConexionSinHilos (x : Step (Conectados E) Evento) : Prop :=
  match x.label with
  | .conectar pid => ∀ p < x.pre.estado.proximo, esDelPrograma x.pre.estado pid p = false
  | _ => True

instance (x : Step (Conectados E) Evento) : Decidable (ConexionSinHilos x) := by
  unfold ConexionSinHilos
  split <;> infer_instance

theorem conexionLimpia_of_run {cfg : Configuracion} {tr : List (Step (Conectados E) Evento)}
    {c : Conectados E} (hrun : Run (Conectados.Transicion env) (.inicial cfg) tr c)
    (h : ∀ x ∈ tr, ConexionSinHilos x) : ∀ x ∈ tr, ConexionLimpia x := by
  intro x hx
  obtain ⟨tr₁, tr₂, heq⟩ := List.append_of_mem hx
  obtain ⟨S, hC⟩ : ∃ S, Coherente x.pre.estado S := by
    refine (hrun.prefix_of_append heq).invariant (fun c => ∃ S, Coherente c.estado S)
      (fun _ => True) ⟨∅, iniciarSUSE_coherente cfg⟩ ?_ fun _ _ => trivial
    rintro c e c' ⟨S, hC⟩ - hs
    exact paso_coherente hC (Conectados.paso_ok hs).2.1
  have hlimpia := h x hx
  rw [ConexionSinHilos] at hlimpia
  rw [ConexionLimpia]
  cases hlabel : x.label with
  | conectar pid =>
      rw [hlabel] at hlimpia
      intro l p hp
      rw [← esDelPrograma_iff, hlimpia p (hC.lt_proximo hp)]
      exact Bool.false_ne_true
  | _ => trivial

/-- The scheduler and the libraries at the end of `jornada`. -/
def clientesDeJornada : Conectados ℚ :=
  final (Conectados.paso entornoRacional) (.inicial unSemaforo) jornada

theorem rompe_iff_jornada :
    ¬ Rompe entornoRacional clientesDeJornada.estado (.scheduleNext 6 fun _ => 90) ∧
      ¬ Rompe entornoRacional clientesDeJornada.estado (.wait 5 0 "s") := by
  have hrun := Run.execute (Conectados.paso entornoRacional) (s := .inicial unSemaforo) jornada
    (by decide +kernel)
  have hlimpia := conexionLimpia_of_run hrun (by decide +kernel)
  have hready : ∀ pid, pid = 5 ∨ pid = 6 → tieneReady clientesDeJornada.estado pid := by
    rintro pid (rfl | rfl)
    · exact ⟨[], by decide +kernel⟩
    · exact ⟨[], by decide +kernel⟩
  constructor
  · refine (rompe_iff entornoRacional unSemaforo hrun hlimpia (by decide +kernel)).2 ?_
    rintro - pid ⟨⟩
    exact hready 6 (.inr rfl)
  · refine (rompe_iff entornoRacional unSemaforo hrun hlimpia (by decide +kernel)).2 ?_
    rintro - pid ⟨⟩
    exact hready 5 (.inl rfl)

/-- With one multiprogramming slot, taken by another program, a program connects,
creates its main thread and yields. -/
def sinLugar : List Evento :=
  [.conectar 5, .crear 5 0 (0, 0) 0, .tomar, .admitir 0, .conectar 6, .crear 6 0 (0, 0) 0]

theorem rompe_sinLugar :
    ¬ ∀ (cfg : Configuracion) (tr : List (Step (Conectados ℚ) Evento)) (c : Conectados ℚ)
      (e : Evento), Run (Conectados.Transicion entornoRacional) (.inicial cfg) tr c →
        c.Admite e → ¬ Rompe entornoRacional c.estado e := by
  intro hclaim
  have hrun := Run.execute (Conectados.paso entornoRacional) (s := .inicial ⟨1, []⟩) sinLugar
    (by decide +kernel)
  have hready : ¬ tieneReady (final (Conectados.paso entornoRacional) (.inicial ⟨1, []⟩)
      sinLugar).estado 6 := by
    rintro ⟨l, hl⟩
    cases hl
  exact hclaim ⟨1, []⟩ _ _ (.scheduleNext 6 fun _ => 0) hrun (by decide +kernel)
    (Or.inr ⟨scheduleNext_sinReady (by decide +kernel) hready, Or.inr ⟨6, rfl, hready⟩⟩)

end Suse
