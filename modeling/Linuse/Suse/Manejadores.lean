import Linuse.Suse.Metricas

/-!
# The handlers

The functions of `SUSE.c` that move threads between the queues and lists, each
run from its start to its end. `planificarReady` is cut where it waits for
`MAXIMOPROCESAMIENTO`, and `calcularSiguienteHilo` where it waits for the
program's mutex: those are the two places where other handlers run before the
function goes on.

A `Falla` ends the run, so the state at that point is not kept.
-/

namespace Suse

variable {E : Type}

/-! ## Admission -/

def pasarAReady (s : Estado E) (unHilo : Puntero) (ahora : ℕ) :
    Except Falla (Estado E) := do
  let h ← noNulo (s.hilos unHilo)
  match s.diccionarioDeListasDeReady.get h.pid with
  | none =>
      -- the first thread of the program to arrive here goes straight to exec
      let p ← noNulo (s.diccionarioDeProgramas.get h.pid)
      return (s.ponerReady h.pid []).ponerPrograma h.pid { p with exec := some unHilo }
  | some listaDeReady =>
      let p ← noNulo (s.diccionarioDeProgramas.get h.pid)
      return ((s.ponerReady h.pid (listaDeReady ++ [unHilo])).ponerHilo unHilo
        { h with timestampReady := ahora }).ponerPrograma h.pid
          { p with cantidadDeHilosEnReady := p.cantidadDeHilosEnReady + 1 }

/-- `basura` is what `malloc` leaves in the two timestamps that are not
initialised. -/
def crearHilo (env : Entorno E) (s : Estado E) (pid : Pid) (tid : Tid)
    (basura : ℕ × ℕ) (ahora : ℕ) : Except Falla (Estado E) := do
  let unHilo : Hilo E :=
    { pid := pid, tid := tid, estimacion := env.cero, rafaga := 0
      tiempoDeEjecucion := 0, timestampCreacion := aInt ahora
      sumaDeIntervalosEnReady := 0, sumaDeIntervalosEnExec := 0
      timestampExec := basura.1, timestampReady := basura.2 }
  let p ← noNulo (s.diccionarioDeProgramas.get pid)
  return ({ s with
      hilos := Function.update s.hilos s.proximo (some unHilo)
      proximo := s.proximo + 1
      new := s.new ++ [s.proximo]
      hayNuevos := s.hayNuevos + 1 }).ponerPrograma pid
    { p with cantidadDeHilosEnNew := p.cantidadDeHilosEnNew + 1 }

/-- `planificarReady` up to its `queue_pop`. -/
def planificarReadyTomar (s : Estado E) : Except Falla (Estado E) :=
  if s.unHilo = none ∧ 0 < s.hayNuevos then
    match s.new with
    | [] => .error .punteroNulo
    | unHilo :: resto =>
        .ok { s with hayNuevos := s.hayNuevos - 1, new := resto, unHilo := some unHilo }
  else .error .espera

/-- `planificarReady` from its `sem_wait(&MAXIMOPROCESAMIENTO)` on. -/
def planificarReadyAdmitir (s : Estado E) (ahora : ℕ) : Except Falla (Estado E) :=
  match s.unHilo with
  | none => .error .espera
  | some unHilo =>
      if 0 < s.maximoProcesamiento then do
        let h ← noNulo (s.hilos unHilo)
        let p ← noNulo (s.diccionarioDeProgramas.get h.pid)
        pasarAReady
          ({ s with maximoProcesamiento := s.maximoProcesamiento - 1
                    unHilo := none }.ponerPrograma h.pid
            { p with cantidadDeHilosEnNew := p.cantidadDeHilosEnNew - 1 })
          unHilo ahora
      else .error .espera

/-! ## Semaphores -/

def sacar1HiloDeLaColaDeBloqueadosPorSemaforo (s : Estado E) (pid : Pid)
    (semID : String) (ahora : ℕ) : Except Falla (Estado E) := do
  let cola ← noNulo (s.diccionarioDeBlockedPorSemaforo.get semID)
  match cola with
  | [] => return s
  | unHilo :: resto =>
      let s₁ ← pasarAReady (s.ponerBlockedPorSemaforo semID resto) unHilo ahora
      let h ← noNulo (s₁.hilos unHilo)
      let unPrograma ← noNulo (s₁.diccionarioDeProgramas.get h.pid)
      let s₂ :=
        if unPrograma.estaBloqueado then
          s₁.ponerPrograma h.pid { unPrograma with mutexTomado := false, estaBloqueado := false }
        else s₁
      -- the counter is the one of the program that signals
      let p ← noNulo (s₂.diccionarioDeProgramas.get pid)
      return s₂.ponerPrograma pid
        { p with cantidadDeHilosEnBlocked := p.cantidadDeHilosEnBlocked - 1 }

def semSuseSignal (s : Estado E) (pid : Pid) (semID : String) (ahora : ℕ) :
    Except Falla (Estado E) :=
  match s.semaforos.get semID with
  | none => .ok s
  | some sem => do
      let siguiente ← sumarUno sem.valorActualSemaforo
      if siguiente ≤ sem.valorMaximoSemaforo then
        let cola ← noNulo (s.diccionarioDeBlockedPorSemaforo.get semID)
        if cola.isEmpty then
          return s.ponerSemaforo semID { sem with valorActualSemaforo := siguiente }
        else
          sacar1HiloDeLaColaDeBloqueadosPorSemaforo s pid semID ahora
      else return s

def semSuseWait (s : Estado E) (pid : Pid) (tid : Tid) (semID : String) :
    Except Falla (Estado E) :=
  match s.semaforos.get semID with
  | none => .ok s
  | some sem =>
      if 0 < sem.valorActualSemaforo then
        .ok (s.ponerSemaforo semID
          { sem with valorActualSemaforo := sem.valorActualSemaforo - 1 })
      else do
        let p ← noNulo (s.diccionarioDeProgramas.get pid)
        let exec ← noNulo p.exec
        let h ← noNulo (s.hilos exec)
        if h.tid = tid then
          let cola ← noNulo (s.diccionarioDeBlockedPorSemaforo.get semID)
          return (s.ponerBlockedPorSemaforo semID (cola ++ [exec])).ponerPrograma pid
            { p with
              cantidadDeHilosEnBlocked := p.cantidadDeHilosEnBlocked + 1
              exec := none }
        else .error .salida

/-! ## Joins and exits -/

/-- Whether the record at a pointer has this thread id. -/
def tieneTid (s : Estado E) (tid : Tid) (p : Puntero) : Bool :=
  match s.hilos p with
  | none => false
  | some h => h.tid == tid

/-- `estaEnExit` over every list of the exit dictionary, whatever its program. -/
def terminoElHilo (s : Estado E) (tid : Tid) : Bool :=
  s.diccionarioDeListasDeExit.toList.any fun e => e.2.any (tieneTid s tid)

def bloqueadoPorAlgunHilo (s : Estado E) (p : Programa) (tid : Tid) : Bool :=
  p.blocked.toList.any fun e => e.2.any (tieneTid s tid)

def ponerEnBlockedPorHilo (p : Programa) (hilo : Puntero) (tidAEsperar : Tid) :
    Programa :=
  { p with
    blocked := p.blocked.put tidAEsperar ((p.blocked.get tidAEsperar).getD [] ++ [hilo]) }

def realizarJoin (s : Estado E) (pid : Pid) (tidAEsperar : Tid) :
    Except Falla (Estado E) :=
  match s.diccionarioDeProgramas.get pid with
  | none => .ok s
  | some p =>
      match p.exec with
      | none => .ok s
      | some exec =>
          if terminoElHilo s tidAEsperar then .ok s
          else do
            let h ← noNulo (s.hilos exec)
            let cantidad :=
              if bloqueadoPorAlgunHilo s p h.tid then p.cantidadDeHilosEnBlocked
              else p.cantidadDeHilosEnBlocked + 1
            return s.ponerPrograma pid
              { ponerEnBlockedPorHilo p exec tidAEsperar with
                cantidadDeHilosEnBlocked := cantidad
                exec := none }

/-- The loop of `liberarBloqueadosPorElHilo` over the join list `lista` of the
thread `tid` of the program `pid`. -/
def liberarLista (pid : Pid) (tid : Tid) (ahora : ℕ) :
    List Puntero → Estado E → Except Falla (Estado E)
  | [], s => .ok s
  | hiloBloqueado :: resto, s => do
      let p ← noNulo (s.diccionarioDeProgramas.get pid)
      let s₁ := s.ponerPrograma pid { p with blocked := p.blocked.put tid resto }
      let h ← noNulo (s₁.hilos hiloBloqueado)
      let q ← noNulo (s₁.diccionarioDeProgramas.get h.pid)
      if bloqueadoPorAlgunHilo s₁ q h.tid then liberarLista pid tid ahora resto s₁
      else
        let l ← noNulo (s₁.diccionarioDeListasDeReady.get h.pid)
        liberarLista pid tid ahora resto
          (((s₁.ponerReady h.pid (l ++ [hiloBloqueado])).ponerHilo hiloBloqueado
            { h with timestampReady := ahora }).ponerPrograma h.pid
              { q with
                cantidadDeHilosEnBlocked := q.cantidadDeHilosEnBlocked - 1
                cantidadDeHilosEnReady := q.cantidadDeHilosEnReady + 1 })

def liberarBloqueadosPorElHilo (s : Estado E) (hiloBloqueante : Puntero)
    (ahora : ℕ) : Except Falla (Estado E) := do
  let h ← noNulo (s.hilos hiloBloqueante)
  let p ← noNulo (s.diccionarioDeProgramas.get h.pid)
  match p.blocked.get h.tid with
  | none => return s
  | some lista => liberarLista h.pid h.tid ahora lista s

def pasarAExit (s : Estado E) (unHilo : Puntero) (ahora : ℕ) :
    Except Falla (Estado E) := do
  let h ← noNulo (s.hilos unHilo)
  let lista := (s.diccionarioDeListasDeExit.get h.pid).getD []
  let s₁ ← tomarMetricas (s.ponerExit h.pid (lista ++ [unHilo])) ahora
  return { s₁ with maximoProcesamiento := s₁.maximoProcesamiento + 1 }

def realizarClose (s : Estado E) (pid : Pid) (tid : Tid) (ahora : ℕ) :
    Except Falla (Estado E) := do
  let p ← noNulo (s.diccionarioDeProgramas.get pid)
  let exec ← noNulo p.exec
  let h ← noNulo (s.hilos exec)
  if h.tid = tid then
    let s₁ ← pasarAExit s exec ahora
    let p₁ ← noNulo (s₁.diccionarioDeProgramas.get pid)
    liberarBloqueadosPorElHilo (s₁.ponerPrograma pid { p₁ with exec := none }) exec ahora
  else return s

/-! ## Choosing the next thread -/

def actualizarEstimacion (env : Entorno E) (h : Hilo E) : Hilo E :=
  { h with estimacion := env.actualizar h.estimacion h.rafaga }

def recalcularEstimacion (env : Entorno E) (s : Estado E) (pid : Pid) (ahora : ℕ) :
    Except Falla (Estado E) :=
  match s.diccionarioDeProgramas.get pid with
  | none => .ok s
  | some p =>
      match p.exec with
      | none => .ok s
      | some exec => do
          let h ← noNulo (s.hilos exec)
          let loQueTardo := aInt (ahora - s.inicioRafaga)
          return s.ponerHilo exec (actualizarEstimacion env { h with rafaga := loQueTardo })

def tieneMenorEstimacion (env : Entorno E) (s : Estado E) (unHilo otroHilo : Puntero) :
    Bool :=
  match s.hilos unHilo, s.hilos otroHilo with
  | some h, some h' => env.menorIgual h.estimacion h'.estimacion
  | _, _ => false

def replanificarHilos (env : Entorno E) (s : Estado E) (pid : Pid) :
    Except Falla (Estado E) := do
  let l ← noNulo (s.diccionarioDeListasDeReady.get pid)
  return s.ponerReady pid (env.listSort (tieneMenorEstimacion env s) l)

/-- The end of `calcularSiguienteHilo`: the head `candidato` of the ready list,
already removed from it, becomes the running thread. -/
def ponerEnExec (s : Estado E) (pid : Pid) (candidato : Puntero)
    (resto : List Puntero) (reloj : ℕ → ℕ) : Except Falla (Estado E × Option Tid) := do
  let p ← noNulo (s.diccionarioDeProgramas.get pid)
  let h ← noNulo (s.hilos candidato)
  let s₁ := ({ s with inicioRafaga := reloj 1 }.ponerReady pid resto).ponerPrograma pid
    { p with exec := some candidato
             cantidadDeHilosEnReady := p.cantidadDeHilosEnReady - 1 }
  return (s₁.ponerHilo candidato
    { h with
      sumaDeIntervalosEnReady :=
        h.sumaDeIntervalosEnReady + aInt (reloj 2 - h.timestampReady)
      timestampExec := reloj 3 }, some h.tid)

/-- The swap of `calcularSiguienteHilo`: the head of the ready list is shorter
than the running thread, which goes to the end of the list. -/
def desalojar (s : Estado E) (pid : Pid) (p : Programa) (ejecutando candidato : Puntero)
    (h c : Hilo E) (resto : List Puntero) (reloj : ℕ → ℕ) : Estado E :=
  let s₁ := ({ s with inicioRafaga := reloj 1 }.ponerReady pid
    (resto ++ [ejecutando])).ponerPrograma
    pid { p with exec := some candidato }
  let s₂ := s₁.ponerHilo ejecutando
    { h with
      sumaDeIntervalosEnExec := h.sumaDeIntervalosEnExec + aInt (reloj 2 - h.timestampExec)
      timestampReady := reloj 3 }
  s₂.ponerHilo candidato
    { c with
      sumaDeIntervalosEnReady := c.sumaDeIntervalosEnReady + aInt (reloj 4 - c.timestampReady)
      timestampExec := reloj 5 }

/-- The other branch with a running thread: it goes on running. -/
def seguirEjecutando (s : Estado E) (ejecutando : Puntero) (h : Hilo E) (reloj : ℕ → ℕ) :
    Estado E :=
  s.ponerHilo ejecutando
    { h with
      sumaDeIntervalosEnExec := h.sumaDeIntervalosEnExec + aInt (reloj 1 - h.timestampExec)
      timestampExec := reloj 2 }

/-- Up to its `pthread_mutex_lock`, in which case the result is `none`. -/
def calcularSiguienteHilo (env : Entorno E) (s : Estado E) (pid : Pid) (reloj : ℕ → ℕ) :
    Except Falla (Estado E × Option Tid) := do
  let listaDeReady ← noNulo (s.diccionarioDeListasDeReady.get pid)
  let p ← noNulo (s.diccionarioDeProgramas.get pid)
  match p.exec, listaDeReady with
  | some ejecutando, [] =>
      let h ← noNulo (s.hilos ejecutando)
      return (seguirEjecutando s ejecutando h reloj, some h.tid)
  | some ejecutando, candidato :: resto =>
      let h ← noNulo (s.hilos ejecutando)
      let c ← noNulo (s.hilos candidato)
      if env.menor c.estimacion h.estimacion then
        return (desalojar s pid p ejecutando candidato h c resto reloj, some c.tid)
      else return (seguirEjecutando s ejecutando h reloj, some h.tid)
  | none, candidato :: resto => ponerEnExec s pid candidato resto reloj
  | none, [] =>
      return ({ s with enMutex := Function.update s.enMutex pid (s.enMutex pid + 1) }.ponerPrograma
        pid { p with estaBloqueado := true }, none)

/-- `calcularSiguienteHilo` from the return of its `pthread_mutex_lock` on. -/
def calcularSiguienteHiloDespierto (s : Estado E) (pid : Pid) (reloj : ℕ → ℕ) :
    Except Falla (Estado E × Option Tid) := do
  let p ← noNulo (s.diccionarioDeProgramas.get pid)
  if s.enMutex pid = 0 ∨ p.mutexTomado then .error .espera
  else
    let listaDeReady ← noNulo (s.diccionarioDeListasDeReady.get pid)
    match listaDeReady with
    | [] => .error .punteroNulo
    | candidato :: resto =>
        ponerEnExec
          ({ s with enMutex := Function.update s.enMutex pid (s.enMutex pid - 1) }.ponerPrograma
            pid { p with mutexTomado := true })
          pid candidato resto reloj

def siguienteAEjecutar (env : Entorno E) (s : Estado E) (pid : Pid) (reloj : ℕ → ℕ) :
    Except Falla (Estado E × Option Tid) := do
  let s₁ ← recalcularEstimacion env s pid (reloj 0)
  let s₂ ← replanificarHilos env s₁ pid
  calcularSiguienteHilo env s₂ pid reloj

/-! ## Connections -/

def crearPrograma (s : Estado E) (pid : Pid) : Estado E :=
  s.ponerPrograma pid
    { estaBloqueado := false, mutexTomado := true, pid := pid, exec := none
      blocked := .empty, cantidadDeHilosEnNew := 0, cantidadDeHilosEnReady := 0
      cantidadDeHilosEnBlocked := 0, tiempoDeEjecucionDeTodosLosHilos := 0 }

/-- The records that `limpiarEstructuras` frees. -/
def hilosLiberados (s : Estado E) (pid : Pid) : List Puntero :=
  (s.diccionarioDeListasDeExit.get pid).getD [] ++
    (s.diccionarioDeListasDeReady.get pid).getD [] ++
    match s.diccionarioDeProgramas.get pid with
    | none => []
    | some p => (p.blocked.toList.flatMap fun e => e.2) ++ p.exec.toList

/-- The calls that wait at the program's mutex never return from it once the
mutex is destroyed. -/
def limpiarEstructuras (s : Estado E) (pid : Pid) : Estado E :=
  { s with
    hilos := fun p => if p ∈ hilosLiberados s pid then none else s.hilos p
    diccionarioDeListasDeExit := s.diccionarioDeListasDeExit.remove pid
    diccionarioDeListasDeReady := s.diccionarioDeListasDeReady.remove pid
    diccionarioDeProgramas := s.diccionarioDeProgramas.remove pid
    enMutex := Function.update s.enMutex pid 0 }

/-! ## One step of the scheduler -/

/-- What the scheduler does next: a message of a program, a step of
`planificarReady`, the return from a mutex, or a pass of the metrics thread. -/
inductive Evento where
  | conectar (pid : Pid)
  | crear (pid : Pid) (tid : Tid) (basura : ℕ × ℕ) (ahora : ℕ)
  | tomar
  | admitir (ahora : ℕ)
  | wait (pid : Pid) (tid : Tid) (semID : String)
  | signal (pid : Pid) (tid : Tid) (semID : String) (ahora : ℕ)
  | join (pid : Pid) (tidAEsperar : Tid)
  | close (pid : Pid) (tid : Tid) (ahora : ℕ)
  | scheduleNext (pid : Pid) (reloj : ℕ → ℕ)
  | despertar (pid : Pid) (reloj : ℕ → ℕ)
  | metricas (ahora : ℕ)
  | desconectar (pid : Pid)

/-- A new connection gets a descriptor that no connected program has. -/
def paso (env : Entorno E) (s : Estado E) : Evento → Except Falla (Estado E)
  | .conectar pid =>
      match s.diccionarioDeProgramas.get pid with
      | none => .ok (crearPrograma s pid)
      | some _ => .error .espera
  | .crear pid tid basura ahora => crearHilo env s pid tid basura ahora
  | .tomar => planificarReadyTomar s
  | .admitir ahora => planificarReadyAdmitir s ahora
  | .wait pid tid semID => semSuseWait s pid tid semID
  | .signal pid _ semID ahora => semSuseSignal s pid semID ahora
  | .join pid tidAEsperar => realizarJoin s pid tidAEsperar
  | .close pid tid ahora => realizarClose s pid tid ahora
  | .scheduleNext pid reloj => Prod.fst <$> siguienteAEjecutar env s pid reloj
  | .despertar pid reloj => Prod.fst <$> calcularSiguienteHiloDespierto s pid reloj
  | .metricas ahora => tomarMetricas s ahora
  | .desconectar pid =>
      match s.diccionarioDeProgramas.get pid with
      | none => .error .espera
      | some _ =>
          .ok (limpiarEstructuras
            { s with maximoProcesamiento := s.maximoProcesamiento + 1 } pid)

/-- The transitions of the scheduler. -/
def Transicion (env : Entorno E) (s : Estado E) (e : Evento) (s' : Estado E) : Prop :=
  paso env s e = .ok s'

end Suse
