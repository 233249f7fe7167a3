import Linuse.Suse.Despertar
import Linuse.Transition.Run

/-!
# The steps one after another

With nothing in between, the steps of a signal, of an admission and of an
answered `schedule_next` do together what the function that runs from its start
to its end does: every run of whole handlers is one of the interleavings.
-/

namespace Suse

open Function (update)
open Fallible Transition

namespace Fino

variable {E : Type} {env : Entorno E} {f : Fino E} {s' : Estado E}

/-- One more step. -/
theorem seguir {f₁ f₂ : Fino E} {e : EventoFino}
    (h : ∃ tr, Run (Transicion env) f tr f₁) (hs : paso env f₁ e = .ok f₂) :
    ∃ tr, Run (Transicion env) f tr f₂ := by
  obtain ⟨tr, hrun⟩ := h
  exact ⟨_, hrun.snoc hs⟩

/-- A signal that has put a thread in ready wakes its program, if it is parked. -/
theorem despertar_seguida {s : Estado E} {destino pid : Pid} {p : Programa}
    (h : ∃ tr, Run (Transicion env) f tr { f with s := s, conexion := .leer destino pid })
    (hp : s.diccionarioDeProgramas.get destino = some p) :
    ∃ tr, Run (Transicion env) f tr
      { f with s := despertarPrograma s destino p, conexion := .descontar pid } := by
  have hleer : ∃ tr, Run (Transicion env) f tr { f with
      s := s
      conexion := if p.estaBloqueado then .desbloquear destino pid else .descontar pid } := by
    apply seguir h (e := .senialLeer)
    simp only [paso, senialLeer, noNulo, bind_eq_ok, orFail_eq_ok, pure_eq_ok]
    exact ⟨p, hp, rfl⟩
  by_cases hbloq : p.estaBloqueado = true
  · rw [if_pos hbloq] at hleer
    have hsoltar : ∃ tr, Run (Transicion env) f tr { f with
        s := s.ponerPrograma destino { p with mutexTomado := false }
        conexion := .bajar destino pid } := by
      apply seguir hleer (e := .senialDesbloquear)
      simp only [paso, senialDesbloquear, noNulo, bind_eq_ok, orFail_eq_ok, pure_eq_ok]
      exact ⟨p, hp, rfl⟩
    apply seguir hsoltar (e := .senialBajar)
    simp only [paso, senialBajar, noNulo, bind_eq_ok, orFail_eq_ok, pure_eq_ok]
    refine ⟨_, Dictionary.get_put_self _ _ _, ?_⟩
    rw [despertarPrograma, if_pos hbloq]
    simp only [Estado.ponerPrograma, Dictionary.put_put]
  · rw [despertarPrograma, if_neg hbloq]
    rwa [if_neg hbloq] at hleer

theorem signal_seguida {pid : Pid} {tid : Tid} {semID : String} {ahora : ℕ}
    (hlibre : f.conexion = .libre) (h : semSuseSignal f.s pid semID ahora = .ok s') :
    ∃ tr, Run (Transicion env) f tr { f with s := s' } := by
  rw [semSuseSignal] at h
  cases hsem : f.s.semaforos.get semID with
  | none =>
      rw [hsem] at h
      cases h
      exact ⟨_, .nil⟩
  | some sem =>
      simp only [hsem, bind_eq_ok] at h
      obtain ⟨siguiente, hsig, h⟩ := h
      split_ifs at h with hmax
      · simp only [noNulo, bind_eq_ok, orFail_eq_ok] at h
        obtain ⟨cola, hcola, h⟩ := h
        cases cola with
        | nil =>
            cases h
            refine seguir ⟨_, .nil⟩ (e := .senial pid tid semID) ?_
            simp [paso, senial, hlibre, hsem, hsig, hmax, hcola, orFail, pure, Except.pure,
              bind, Except.bind]
        | cons unHilo resto =>
            have hsenial : f.senial pid semID = .ok { f with
                s := f.s.ponerBlockedPorSemaforo semID resto, conexion := .pasar unHilo pid } := by
              simp [senial, hlibre, hsem, hsig, hmax, hcola, orFail, pure, Except.pure,
                bind, Except.bind]
            simp only [List.isEmpty_cons, Bool.false_eq_true, if_false] at h
            simp only [sacar1HiloDeLaColaDeBloqueadosPorSemaforo, hcola, noNulo, bind_eq_ok,
              orFail_eq_ok, Option.some_inj, exists_eq_left', pure_eq_ok] at h
            obtain ⟨s₁, hs₁, hilo, hhilo, unPrograma, hprog, p, hp, rfl⟩ := h
            have hpasar : ∃ tr, Run (Transicion env) f tr
                { f with s := s₁, conexion := .leer hilo.pid pid } := by
              refine seguir (seguir ⟨_, .nil⟩ (e := .senial pid tid semID) hsenial)
                (e := .senialPasar ahora) ?_
              simp only [paso, senialPasar, noNulo, bind_eq_ok, orFail_eq_ok, pure_eq_ok]
              exact ⟨s₁, hs₁, hilo, hhilo, rfl⟩
            obtain ⟨tr, hrun⟩ := despertar_seguida hpasar hprog
            refine ⟨_, hrun.snoc (e := .senialDescontar) ?_⟩
            simp only [Transicion, paso, senialDescontar, noNulo, bind_eq_ok, orFail_eq_ok,
              pure_eq_ok]
            refine ⟨p, ?_, by rw [hlibre, despertarPrograma]⟩
            simpa [despertarPrograma] using hp
      · cases h
        exact ⟨_, .nil⟩

theorem admitir_seguida {ahora : ℕ} (hlugar : f.planificar = .sinLugar)
    (h : planificarReadyAdmitir f.s ahora = .ok s') :
    ∃ tr, Run (Transicion env) f tr { f with s := s' } := by
  obtain ⟨unHilo, hilo, p, hmano, hmax, hh, hp, h⟩ := planificarReadyAdmitir_ok h
  have hconLugar : ∃ tr, Run (Transicion env) f tr { f with
      s := { f.s with maximoProcesamiento := f.s.maximoProcesamiento - 1 }
      planificar := .conLugar } := by
    refine seguir ⟨_, .nil⟩ (e := .lugar) ?_
    simp [paso, lugar, hlugar, hmano, hmax]
  have hcontado : ∃ tr, Run (Transicion env) f tr { f with
      s := { f.s with maximoProcesamiento := f.s.maximoProcesamiento - 1 }.ponerPrograma
        hilo.pid { p with cantidadDeHilosEnNew := p.cantidadDeHilosEnNew - 1 }
      planificar := .contado } := by
    apply seguir hconLugar (e := .contar)
    simp only [paso, contar, if_true, noNulo, bind_eq_ok, orFail_eq_ok, pure_eq_ok]
    exact ⟨unHilo, hmano, hilo, hh, p, hp, rfl⟩
  apply seguir hcontado (e := .pasar ahora)
  simp only [paso, pasar, if_true, noNulo, bind_eq_ok, orFail_eq_ok, pure_eq_ok]
  exact ⟨unHilo, hmano, s', h, by rw [hlugar]⟩

/-- A `schedule_next` that answers with a thread. -/
theorem scheduleNext_seguida {pid : Pid} {tid : Tid} {reloj : ℕ → ℕ}
    (hlibre : f.conexion = .libre) (hman : f.manejadores pid = [])
    (h : siguienteAEjecutar env f.s pid reloj = .ok (s', some tid)) :
    ∃ tr, Run (Transicion env) f tr { f with s := s' } := by
  simp only [siguienteAEjecutar, bind_eq_ok] at h
  obtain ⟨s₁, hs₁, s₂, hs₂, h⟩ := h
  obtain ⟨l, p, hl, hp, hcaso⟩ := calcularSiguienteHilo_ok h
  have hno : ¬ (p.exec = none ∧ l = []) := by
    rintro ⟨hexec, hvacia⟩
    rcases hcaso with ⟨x, _, hx, -⟩ | ⟨x, _, _, _, _, hx, -⟩ | ⟨_, _, _, -, hcons, -⟩ |
      ⟨-, -, -, hnada⟩
    · simp [hexec] at hx
    · simp [hexec] at hx
    · simp [hvacia] at hcons
    · cases hnada
  have hpedido : ∃ tr, Run (Transicion env) f tr { f with
      manejadores := update f.manejadores pid [.recalcular] } := by
    refine seguir ⟨_, .nil⟩ (e := .scheduleNext pid) ?_
    obtain ⟨_, _, -, -, rfl⟩ := replanificarHilos_ok hs₂
    obtain ⟨q, hq, -⟩ := (recalcularEstimacion_soloTiempos hs₁).programa hp
    simp [paso, scheduleNext, hlibre, hman, hq]
  have hrecalculado : ∃ tr, Run (Transicion env) f tr { f with
      s := s₁, manejadores := update f.manejadores pid [.replanificar] } := by
    apply seguir hpedido (e := .recalcular pid (reloj 0))
    simp only [paso, recalcular, Function.update_self, List.mem_singleton, if_true, hs₁]
    simp [avanzar, pure, Except.pure, bind, Except.bind]
  have hreplanificado : ∃ tr, Run (Transicion env) f tr { f with
      s := s₂, manejadores := update f.manejadores pid [.elegir] } := by
    apply seguir hrecalculado (e := .replanificar pid)
    simp only [paso, replanificar, Function.update_self, List.mem_singleton, if_true, hs₂]
    simp [avanzar, pure, Except.pure, bind, Except.bind]
  apply seguir hreplanificado (e := .elegir pid reloj)
  simp only [paso, elegir, Function.update_self, List.mem_singleton, if_true, noNulo, hl, hp, h]
  simp [avanzar, hno, hman, Fallible.orFail, pure, Except.pure, bind, Except.bind]

end Fino

end Suse
