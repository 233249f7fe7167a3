import Linuse.Suse.Secciones
import Linuse.Transition.Run

/-!
# Circular waits

Every handler takes the semaphores in the order `Sem.rango`, but for the loop of
`liberarBloqueadosPorElHilo`, which takes `sem_diccionario_ready` while it holds
`sem_programas`; `pasarAReady` and `siguienteAEjecutar` hold the first when they
ask for the second. In a run in which no close finds a thread to release no set of
threads waits in a circle (`sinEsperaCircular`); a close that releases one while
`planificarReady` admits another can (`sinEsperaCircular_cierreConJoin`).
-/

namespace Suse

open Locks Transition
open Locks.Prog (Ordered lock unlock perform guarded ordered_bind ordered_pure ordered_lock
  ordered_unlock ordered_perform ordered_guarded ordered_forEach)

variable {E : Type}

/-- The order in which the semaphores are taken. -/
def Sem.rango : Sem → ℕ
  | metricas => 0
  | semaforos => 1
  | blockedPorSemaforo => 2
  | diccionarioReady => 3
  | programas => 4
  | new => 5
  | exit => 6

/-- The thread that a close has taken out of a join list, when it looks whether
another thread blocks it. -/
def Accion.mira : Accion → Option Puntero
  | bloqueadoPorAlgunHilo hiloBloqueado => some hiloBloqueado
  | _ => none

/-- A close that looks at a thread that waited for the one it closes finds it
blocked by another thread too. -/
def Accion.SinLiberar (a : Accion) (s : Estado E) : Prop :=
  ∀ hiloBloqueado ∈ a.mira, sigueBloqueado s hiloBloqueado = true

instance (a : Accion) (s : Estado E) : Decidable (a.SinLiberar s) :=
  inferInstanceAs (Decidable (∀ hiloBloqueado ∈ a.mira, sigueBloqueado s hiloBloqueado = true))

namespace Seccionado

/-- A handler that starts and ends with the semaphores `tomados`. -/
abbrev Ordenado {α : Type} (tomados : List Sem) (p : Codigo E α) : Prop :=
  p.Ordered Sem.rango Accion.SinLiberar tomados tomados

variable {tomados : List Sem}

theorem hacer_ordenado (a : Accion) : Ordenado tomados (hacer a : Codigo E Unit) :=
  ordered_bind ordered_perform fun _ => ordered_pure

theorem crearPrograma_ordenado (pid : Pid) :
    Ordenado [] (crearPrograma pid : Codigo E Unit) := by
  apply ordered_bind (ordered_guarded (by simp))
  exact fun _ => hacer_ordenado _

theorem crearHilo_ordenado (pid : Pid) (tid : Tid) (basura : ℕ × ℕ) (ahora : ℕ) :
    Ordenado [] (crearHilo pid tid basura ahora : Codigo E Unit) := by
  apply ordered_bind (ordered_guarded (by simp))
  intro _
  apply ordered_bind (hacer_ordenado _)
  intro _
  exact ordered_bind (ordered_guarded (by simp)) fun _ => ordered_pure

/-- `pasarAReady` may be called with semaphores below `sem_diccionario_ready`. -/
theorem pasarAReady_ordenado (unHilo : Puntero) (ahora : ℕ)
    (h : ∀ l ∈ tomados, l.rango < Sem.rango .diccionarioReady) :
    Ordenado tomados (pasarAReady unHilo ahora : Codigo E Unit) := by
  apply ordered_bind (ordered_lock h)
  intro _
  apply ordered_bind ordered_perform
  intro _
  apply ordered_bind
  · apply ordered_guarded
    intro l hl
    rcases List.mem_cons.1 hl with rfl | hl
    · decide
    · exact Nat.lt_trans (h l hl) (by decide)
  · intro _
    refine ⟨List.mem_cons_self, ?_⟩
    show _ = _
    simp

theorem planificarReady_ordenado (ahora : ℕ) :
    Ordenado [] (planificarReady ahora : Codigo E Unit) := by
  apply ordered_bind (hacer_ordenado _)
  intro _
  apply ordered_bind (ordered_guarded (by simp))
  intro s
  cases s.new with
  | nil => trivial
  | cons unHilo resto =>
      apply ordered_bind (hacer_ordenado _)
      intro _
      apply ordered_bind (ordered_guarded (by simp))
      exact fun _ => pasarAReady_ordenado unHilo ahora (by simp)

theorem calcularSiguienteHilo_ordenado (pid : Pid) (reloj : ℕ → ℕ) :
    Ordenado [.programas, .diccionarioReady]
      (calcularSiguienteHilo pid reloj : Codigo E Unit) := by
  apply ordered_bind ordered_perform
  intro s
  split_ifs
  · apply ordered_bind (ordered_unlock (by decide))
    intro _
    apply ordered_bind (ordered_unlock (by decide))
    intro _
    apply ordered_bind (m := []) (hacer_ordenado _)
    intro _
    apply ordered_bind (hacer_ordenado _)
    intro _
    apply ordered_bind (ordered_lock (by decide))
    intro _
    apply ordered_bind (ordered_lock (by decide))
    exact fun _ => hacer_ordenado _
  · exact ordered_pure

theorem siguienteAEjecutar_ordenado (pid : Pid) (reloj : ℕ → ℕ) :
    Ordenado [] (siguienteAEjecutar pid reloj : Codigo E Unit) := by
  apply ordered_bind (ordered_guarded (by simp))
  intro _
  apply ordered_bind (ordered_guarded (by simp))
  intro _
  apply ordered_bind (ordered_lock (by decide))
  intro _
  apply ordered_bind (ordered_lock (by decide))
  intro _
  apply ordered_bind (calcularSiguienteHilo_ordenado pid reloj)
  intro _
  apply ordered_bind (ordered_unlock (by decide))
  exact fun _ => ordered_unlock (by decide)

theorem sacar1HiloDeLaColaDeBloqueadosPorSemaforo_ordenado (pid : Pid) (semID : String)
    (ahora : ℕ) : Ordenado [.blockedPorSemaforo, .semaforos]
      (sacar1HiloDeLaColaDeBloqueadosPorSemaforo pid semID ahora : Codigo E Unit) := by
  apply ordered_bind ordered_perform
  intro s
  split
  · apply ordered_bind (pasarAReady_ordenado _ ahora (by decide))
    intro _
    apply ordered_bind ordered_perform
    intro s
    split
    · trivial
    · have hdescontar : Ordenado [.blockedPorSemaforo, .semaforos] (do
          let _ ← guarded .programas (.descontarBlocked pid)
          pure () : Codigo E Unit) :=
        ordered_bind (ordered_guarded (by decide)) fun _ => ordered_pure
      split
      · apply ordered_bind (hacer_ordenado _)
        intro _
        exact ordered_bind (hacer_ordenado _) fun _ => hdescontar
      · exact hdescontar
  · exact ordered_pure

theorem semSuseSignal_ordenado (pid : Pid) (semID : String) (ahora : ℕ) :
    Ordenado [] (semSuseSignal pid semID ahora : Codigo E Unit) := by
  apply ordered_bind (ordered_lock (by simp))
  intro _
  apply ordered_bind ordered_perform
  intro s
  have hfin : Prog.Ordered Sem.rango Accion.SinLiberar [] [.semaforos]
      (unlock .semaforos : Codigo E Unit) := ordered_unlock (by decide)
  split
  · exact hfin
  · split
    · trivial
    · split
      · apply ordered_bind (ordered_lock (by decide))
        intro _
        apply ordered_bind ordered_perform
        intro s
        have hfin' : Prog.Ordered Sem.rango Accion.SinLiberar []
            [.blockedPorSemaforo, .semaforos] (do
              unlock .blockedPorSemaforo
              unlock .semaforos : Codigo E Unit) :=
          ordered_bind (ordered_unlock (by decide)) fun _ => hfin
        split
        · trivial
        · exact ordered_bind (hacer_ordenado _) fun _ => hfin'
        · apply ordered_bind
          · exact sacar1HiloDeLaColaDeBloqueadosPorSemaforo_ordenado pid semID ahora
          · exact fun _ => hfin'
      · exact hfin

theorem semSuseWait_ordenado (pid : Pid) (tid : Tid) (semID : String) :
    Ordenado [] (semSuseWait pid tid semID : Codigo E Unit) := by
  apply ordered_bind (ordered_lock (by simp))
  intro _
  apply ordered_bind ordered_perform
  intro s
  have hfin : Prog.Ordered Sem.rango Accion.SinLiberar [] [.semaforos]
      (unlock .semaforos : Codigo E Unit) := ordered_unlock (by decide)
  split
  · exact hfin
  · split
    · exact ordered_bind (hacer_ordenado _) fun _ => hfin
    · split
      · trivial
      · split
        · apply ordered_bind (ordered_lock (by decide))
          intro _
          apply ordered_bind (ordered_guarded (by decide))
          intro _
          apply ordered_bind (ordered_unlock (by decide))
          intro _
          exact ordered_bind (hacer_ordenado _) fun _ => hfin
        · trivial

theorem realizarJoin_ordenado (pid : Pid) (tidAEsperar : Tid) :
    Ordenado [] (realizarJoin pid tidAEsperar : Codigo E Unit) :=
  ordered_bind (ordered_guarded (by simp)) fun _ => ordered_pure

/-! ## Metrics and closes -/

theorem tomarMetricasPara_ordenado (medida : Medida) (ahora : ℕ) :
    Ordenado [.metricas] (tomarMetricasPara medida ahora : Codigo E Unit) := by
  apply ordered_bind (ordered_guarded (by decide))
  intro _
  apply ordered_bind (ordered_guarded (by decide))
  intro _
  apply ordered_bind (ordered_guarded (by decide))
  intro _
  apply ordered_bind (ordered_guarded (by decide))
  intro _
  exact ordered_bind (ordered_guarded (by decide)) fun _ => ordered_pure

theorem reiniciarTiempoDeEjecucionTotal_ordenado :
    Ordenado [.metricas] (reiniciarTiempoDeEjecucionTotal : Codigo E Unit) := by
  apply ordered_bind ordered_perform
  intro s
  apply ordered_forEach
  exact fun _ => ordered_bind (ordered_guarded (by decide)) fun _ => ordered_pure

theorem atenderMetricas_ordenado (ahora : ℕ) :
    Ordenado [] (atenderMetricas ahora : Codigo E Unit) := by
  apply ordered_bind (ordered_lock (by simp))
  intro _
  apply ordered_bind (m := [.metricas])
  · apply ordered_bind (tomarMetricasPara_ordenado .ejecucion ahora)
    intro _
    apply ordered_bind (tomarMetricasPara_ordenado .espera ahora)
    intro _
    apply ordered_bind (tomarMetricasPara_ordenado .porcentaje ahora)
    intro _
    apply ordered_bind reiniciarTiempoDeEjecucionTotal_ordenado
    intro _
    apply ordered_bind (ordered_guarded (by decide))
    intro _
    exact ordered_bind (ordered_guarded (by decide)) fun _ => ordered_pure
  · exact fun _ => ordered_unlock (by decide)

theorem pasarAExit_ordenado (unHilo : Puntero) (ahora : ℕ) :
    Ordenado [] (pasarAExit unHilo ahora : Codigo E Unit) := by
  apply ordered_bind (ordered_guarded (by simp))
  intro _
  apply ordered_bind (atenderMetricas_ordenado ahora)
  exact fun _ => hacer_ordenado _

/-- The loop is in order as long as it has nobody to release. -/
theorem liberarLista_ordenado (pid : Pid) (tid : Tid) (ahora : ℕ) (lista : List Puntero) :
    Ordenado [.programas] (liberarLista pid tid ahora lista : Codigo E Unit) := by
  apply ordered_forEach
  intro hiloBloqueado
  apply ordered_bind (hacer_ordenado _)
  intro _ s hsin
  have hsigue : sigueBloqueado s hiloBloqueado = true := hsin hiloBloqueado rfl
  simp only [Prog.bind, hsigue, if_true]
  exact ordered_pure

theorem liberarBloqueadosPorElHilo_ordenado (hiloBloqueante : Puntero) (ahora : ℕ) :
    Ordenado [] (liberarBloqueadosPorElHilo hiloBloqueante ahora : Codigo E Unit) := by
  apply ordered_bind (ordered_lock (by simp))
  intro _
  apply ordered_bind ordered_perform
  intro s
  split
  · apply ordered_bind (liberarLista_ordenado _ _ _ _)
    exact fun _ => ordered_unlock (by decide)
  · trivial

theorem realizarClose_ordenado (pid : Pid) (tid : Tid) (ahora : ℕ) :
    Ordenado [] (realizarClose pid tid ahora : Codigo E Unit) := by
  apply ordered_bind ordered_perform
  intro s
  split
  · trivial
  · split
    · trivial
    · split
      · apply ordered_bind (pasarAExit_ordenado _ ahora)
        intro _
        apply ordered_bind (hacer_ordenado _)
        exact fun _ => liberarBloqueadosPorElHilo_ordenado _ ahora
      · exact ordered_pure

theorem desconectar_ordenado (pid : Pid) :
    Ordenado [] (desconectar pid : Codigo E Unit) := by
  apply ordered_bind (hacer_ordenado _)
  intro _
  apply ordered_bind (ordered_guarded (by simp))
  intro _
  apply ordered_bind (ordered_guarded (by simp))
  intro _
  exact ordered_bind (ordered_guarded (by simp)) fun _ => ordered_pure

end Seccionado

theorem cuerpo_ordenado (hebra : Hebra) (pedido : Pedido) (p : Seccionado.Codigo E Unit)
    (h : cuerpo hebra pedido = some p) : Seccionado.Ordenado [] p := by
  cases hebra with
  | conexion =>
      cases pedido with
      | conectar pid => cases h; exact Seccionado.crearPrograma_ordenado pid
      | crear pid tid basura ahora =>
          cases h; exact Seccionado.crearHilo_ordenado pid tid basura ahora
      | wait pid tid semID => cases h; exact Seccionado.semSuseWait_ordenado pid tid semID
      | signal pid tid semID ahora =>
          cases h; exact Seccionado.semSuseSignal_ordenado pid semID ahora
      | join pid tidAEsperar => cases h; exact Seccionado.realizarJoin_ordenado pid tidAEsperar
      | close pid tid ahora => cases h; exact Seccionado.realizarClose_ordenado pid tid ahora
      | desconectar pid => cases h; exact Seccionado.desconectar_ordenado pid
      | _ => cases h
  | planificador =>
      cases pedido with
      | planificar ahora => cases h; exact Seccionado.planificarReady_ordenado ahora
      | _ => cases h
  | metricas =>
      cases pedido with
      | medir ahora => cases h; exact Seccionado.atenderMetricas_ordenado ahora
      | _ => cases h
  | scheduleNext n =>
      cases pedido with
      | scheduleNext pid reloj => cases h; exact Seccionado.siguienteAEjecutar_ordenado pid reloj
      | _ => cases h

namespace Sistema

/-- The step is not one in which a close finds a thread to release: a thread that
waited for the one it closes and that no other thread blocks. -/
def SinLiberar (x : Step (Sistema E) (Label Hebra Pedido)) : Prop :=
  x.pre.Allowed Accion.SinLiberar x.label

instance (x : Step (Sistema E) (Label Hebra Pedido)) : Decidable (SinLiberar x) :=
  inferInstanceAs (Decidable (x.pre.Allowed Accion.SinLiberar x.label))

/-- In a run in which no close finds a thread to release, no set of threads waits
in a circle. -/
theorem sinEsperaCircular (env : Entorno E) (c : Configuracion)
    {tr : List (Step (Sistema E) (Label Hebra Pedido))} {s : Sistema E}
    (hrun : Run (Transicion env) (inicial c) tr s) (hsin : ∀ x ∈ tr, SinLiberar x)
    (D : Set Hebra) : ¬ s.CircularWait D := by
  have hdis : s.Disciplined Sem.rango Accion.SinLiberar := by
    refine hrun.invariant (Config.Disciplined Sem.rango Accion.SinLiberar) SinLiberar ?_ ?_ hsin
    · exact ⟨fun _ => [], by simp, by simp [inicial], fun _ => rfl⟩
    · intro s e s' hdis hok hs
      exact hdis.next cuerpo_ordenado hs hok
  apply hdis.not_circularWait (n := 7)
  intro l
  cases l <;> decide

def pasos (hebra : Hebra) (n : ℕ) : List (Label Hebra Pedido) := List.replicate n (.step hebra)

/-- Two programs. While a thread of the first waits at the semaphore, `planificarReady` admits
the thread of the second, and finds the other thread of the first signalling and the metrics
being taken. -/
def admisionYSenial : List (Label Hebra Pedido) :=
  .start .conexion (.conectar 5) :: pasos .conexion 4 ++
  .start .conexion (.crear 5 0 (0, 0) 10) :: pasos .conexion 7 ++
  .start .planificador (.planificar 11) :: pasos .planificador 14 ++
  .start .conexion (.crear 5 1 (0, 0) 12) :: pasos .conexion 7 ++
  .start .planificador (.planificar 13) :: pasos .planificador 14 ++
  .start .conexion (.conectar 6) :: pasos .conexion 4 ++
  .start .conexion (.crear 6 0 (0, 0) 14) :: pasos .conexion 7 ++
  .start .conexion (.wait 5 0 "s") :: pasos .conexion 9 ++
  .start (.scheduleNext 0) (.scheduleNext 5 fun i => 20 + i) :: pasos (.scheduleNext 0) 11 ++
  .start .planificador (.planificar 30) :: pasos .planificador 12 ++
  .start .conexion (.signal 5 1 "s" 31) :: pasos .conexion 5 ++
  .start .metricas (.medir 32) :: pasos .metricas 4

/-- There the connection and the metrics wait for locks that `planificarReady` has. -/
theorem sinEsperaCircular_admisionYSenial :
    (final (paso entornoRacional) (inicial ⟨3, [("s", ⟨0, 1⟩)]⟩) admisionYSenial).Waits
        .conexion .diccionarioReady ∧
      (final (paso entornoRacional) (inicial ⟨3, [("s", ⟨0, 1⟩)]⟩) admisionYSenial).Waits
        .metricas .programas ∧
      ∀ D : Set Hebra, ¬ (final (paso entornoRacional) (inicial ⟨3, [("s", ⟨0, 1⟩)]⟩)
        admisionYSenial).CircularWait D := by
  have hespera : (final (paso entornoRacional) (inicial ⟨3, [("s", ⟨0, 1⟩)]⟩)
        admisionYSenial).waitsFor .conexion = some .diccionarioReady ∧
      (final (paso entornoRacional) (inicial ⟨3, [("s", ⟨0, 1⟩)]⟩)
        admisionYSenial).waitsFor .metricas = some .programas := by
    decide +kernel
  exact ⟨Config.waits_of_waitsFor hespera.1, Config.waits_of_waitsFor hespera.2,
    sinEsperaCircular entornoRacional ⟨3, [("s", ⟨0, 1⟩)]⟩
      (Run.execute (paso entornoRacional) admisionYSenial (by decide +kernel))
      (by decide +kernel)⟩

def tresLugares : Configuracion := ⟨3, []⟩

/-- Thread 0 of a program waits for thread 1, which is closed while
`planificarReady` admits thread 2. -/
def cierreConJoin : List (Label Hebra Pedido) :=
  .start .conexion (.conectar 5) :: pasos .conexion 4 ++
  .start .conexion (.crear 5 0 (0, 0) 0) :: pasos .conexion 7 ++
  .start .conexion (.crear 5 1 (0, 0) 0) :: pasos .conexion 7 ++
  .start .conexion (.crear 5 2 (0, 0) 0) :: pasos .conexion 7 ++
  .start .planificador (.planificar 0) :: pasos .planificador 14 ++
  .start .planificador (.planificar 0) :: pasos .planificador 14 ++
  .start .conexion (.join 5 1) :: pasos .conexion 3 ++
  .start (.scheduleNext 0) (.scheduleNext 5 fun _ => 0) :: pasos (.scheduleNext 0) 11 ++
  .start .planificador (.planificar 0) :: pasos .planificador 8 ++
  .start .conexion (.close 5 1 0) :: pasos .conexion 67 ++
  pasos .planificador 2

theorem sinEsperaCircular_cierreConJoin :
    ¬ ∀ (c : Configuracion) (tr : List (Step (Sistema ℚ) (Label Hebra Pedido)))
      (s : Sistema ℚ), Run (Transicion entornoRacional) (inicial c) tr s →
        ∀ D : Set Hebra, ¬ s.CircularWait D := by
  intro hclaim
  have hrun := Run.execute (paso entornoRacional) (s := inicial tresLugares) cierreConJoin
    (by decide +kernel)
  refine hclaim tresLugares _ _ hrun {.conexion, .planificador} ⟨⟨.conexion, by simp⟩, ?_⟩
  intro hebra hmem
  rcases hmem with rfl | rfl
  · refine ⟨.diccionarioReady, ?_, .planificador, by simp, by decide, by decide +kernel⟩
    apply Config.waits_of_waitsFor
    decide +kernel
  · refine ⟨.programas, ?_, .conexion, by simp, by decide, by decide +kernel⟩
    apply Config.waits_of_waitsFor
    decide +kernel

end Sistema

end Suse
