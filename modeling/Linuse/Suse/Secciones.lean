import Linuse.Suse.Manejadores
import Linuse.Transition.Locks

/-!
# The handlers, section by section

The same functions as in `Manejadores`, as code that takes and releases the
semaphores. An `Accion` is what a handler does between two operations on
semaphores, mutexes or flags; the handlers are written in the order of the source.
`MAXIMOPROCESAMIENTO`, `hayNuevos` and the mutex of a program are actions that
wait. Every semaphore that is used as a lock is posted by the thread that waited
for it, so it is a lock with an owner.
-/

namespace Suse

open Locks (Prog)
open Locks.Prog (lock unlock perform guarded forEach)

variable {E : Type}

inductive Sem where
  | metricas
  | semaforos
  | blockedPorSemaforo
  | diccionarioReady
  | programas
  | new
  | exit
  deriving DecidableEq

/-- The three groups of passes of `tomarMetricasParaHilos`. -/
inductive Medida where
  | ejecucion
  | espera
  | porcentaje
  deriving DecidableEq

inductive Accion where
  | leer
  | crearPrograma (pid : Pid)
  | lockMutex (pid : Pid)
  | ponerEnNew (pid : Pid) (tid : Tid) (basura : ℕ × ℕ) (ahora : ℕ)
  | postHayNuevos
  | contarNew (pid : Pid)
  | waitHayNuevos
  | sacarDeNew
  | waitMaximo
  | descontarNew (unHilo : Puntero)
  | ponerEnReady (unHilo : Puntero) (ahora : ℕ)
  | anotarEnReady (unHilo : Puntero) (primero : Bool)
  | recalcularEstimacion (pid : Pid) (ahora : ℕ)
  | replanificarHilos (pid : Pid)
  | elegir (pid : Pid) (reloj : ℕ → ℕ)
  | subirBandera (pid : Pid)
  | resumir (pid : Pid) (reloj : ℕ → ℕ)
  | subirSemaforo (semID : String)
  | bajarSemaforo (semID : String)
  | sacarDeBlocked (semID : String)
  | unlockMutex (pid : Pid)
  | bajarBandera (pid : Pid)
  | descontarBlocked (pid : Pid)
  | ponerEnBlocked (pid : Pid) (semID : String)
  | vaciarExec (pid : Pid)
  | join (pid : Pid) (tidAEsperar : Tid)
  | ponerEnExit (unHilo : Puntero)
  | postMaximo
  | tomarHiloBloqueadoPor (pid : Pid) (tid : Tid)
  | bloqueadoPorAlgunHilo (hiloBloqueado : Puntero)
  | liberar (hiloBloqueado : Puntero) (ahora : ℕ)
  | contarLiberado (hiloBloqueado : Puntero)
  | medir (medida : Medida) (pasada : Pasada) (ahora : ℕ)
  | reiniciar (pid : Pid)
  | borrarExit (pid : Pid)
  | borrarReady (pid : Pid)
  | borrarPrograma (pid : Pid)

/-- The program of a thread, with its id. -/
def programaDe (s : Estado E) (unHilo : Puntero) : Option (Pid × Programa) := do
  let h ← s.hilos unHilo
  let p ← s.diccionarioDeProgramas.get h.pid
  return (h.pid, p)

/-- Rewriting a program that exists. -/
def cambiarPrograma (s : Estado E) (pid : Pid) (f : Programa → Programa) :
    Except Falla (Estado E) := do
  let p ← noNulo (s.diccionarioDeProgramas.get pid)
  return s.ponerPrograma pid (f p)

/-- The program has no running thread and nothing in ready. -/
def sinHilo (s : Estado E) (pid : Pid) : Bool :=
  ((s.diccionarioDeProgramas.get pid).bind Programa.exec).isNone &&
    ((s.diccionarioDeListasDeReady.get pid).getD []).isEmpty

/-- Whether `bloqueadoPorAlgunHilo` finds the thread in a join list. -/
def sigueBloqueado (s : Estado E) (unHilo : Puntero) : Bool :=
  match s.hilos unHilo, programaDe s unHilo with
  | some h, some (_, p) => Suse.bloqueadoPorAlgunHilo s p h.tid
  | _, _ => false

/-- What each action does to the data. -/
def Accion.hacer (env : Entorno E) (a : Accion) (s : Estado E) : Except Falla (Estado E) :=
  match a with
  | leer => .ok s
  | crearPrograma pid =>
      .ok (s.ponerPrograma pid
        { estaBloqueado := false, mutexTomado := false, pid := pid, exec := none
          blocked := .empty, cantidadDeHilosEnNew := 0, cantidadDeHilosEnReady := 0
          cantidadDeHilosEnBlocked := 0, tiempoDeEjecucionDeTodosLosHilos := 0 })
  | lockMutex pid => do
      let p ← noNulo (s.diccionarioDeProgramas.get pid)
      if p.mutexTomado then .error .espera
      else return s.ponerPrograma pid { p with mutexTomado := true }
  | ponerEnNew pid tid basura ahora =>
      .ok { s with
        hilos := Function.update s.hilos s.proximo (some
          { pid := pid, tid := tid, estimacion := env.cero, rafaga := 0
            tiempoDeEjecucion := 0, timestampCreacion := aInt ahora
            sumaDeIntervalosEnReady := 0, sumaDeIntervalosEnExec := 0
            timestampExec := basura.1, timestampReady := basura.2 })
        proximo := s.proximo + 1
        new := s.new ++ [s.proximo] }
  | postHayNuevos => .ok { s with hayNuevos := s.hayNuevos + 1 }
  | contarNew pid => cambiarPrograma s pid fun p =>
      { p with cantidadDeHilosEnNew := p.cantidadDeHilosEnNew + 1 }
  | waitHayNuevos =>
      if 0 < s.hayNuevos then .ok { s with hayNuevos := s.hayNuevos - 1 } else .error .espera
  | sacarDeNew => .ok { s with new := s.new.tail }
  | waitMaximo =>
      if 0 < s.maximoProcesamiento then
        .ok { s with maximoProcesamiento := s.maximoProcesamiento - 1 }
      else .error .espera
  | descontarNew unHilo => do
      let h ← noNulo (s.hilos unHilo)
      cambiarPrograma s h.pid fun p =>
        { p with cantidadDeHilosEnNew := p.cantidadDeHilosEnNew - 1 }
  | ponerEnReady unHilo ahora => do
      let h ← noNulo (s.hilos unHilo)
      match s.diccionarioDeListasDeReady.get h.pid with
      | none => return s.ponerReady h.pid []
      | some listaDeReady =>
          return (s.ponerReady h.pid (listaDeReady ++ [unHilo])).ponerHilo unHilo
            { h with timestampReady := ahora }
  | anotarEnReady unHilo primero => do
      let h ← noNulo (s.hilos unHilo)
      cambiarPrograma s h.pid fun p =>
        if primero then { p with exec := some unHilo }
        else { p with cantidadDeHilosEnReady := p.cantidadDeHilosEnReady + 1 }
  | recalcularEstimacion pid ahora => Suse.recalcularEstimacion env s pid ahora
  | replanificarHilos pid => Suse.replanificarHilos env s pid
  | elegir pid reloj =>
      if sinHilo s pid then .ok s else Prod.fst <$> calcularSiguienteHilo env s pid reloj
  | subirBandera pid => cambiarPrograma s pid fun p => { p with estaBloqueado := true }
  | resumir pid reloj => do
      let listaDeReady ← noNulo (s.diccionarioDeListasDeReady.get pid)
      match listaDeReady with
      | [] => .error .punteroNulo
      | candidato :: resto => Prod.fst <$> ponerEnExec s pid candidato resto reloj
  | subirSemaforo semID => do
      let sem ← noNulo (s.semaforos.get semID)
      return s.ponerSemaforo semID
        { sem with valorActualSemaforo := sem.valorActualSemaforo + 1 }
  | bajarSemaforo semID => do
      let sem ← noNulo (s.semaforos.get semID)
      return s.ponerSemaforo semID
        { sem with valorActualSemaforo := sem.valorActualSemaforo - 1 }
  | sacarDeBlocked semID => do
      let cola ← noNulo (s.diccionarioDeBlockedPorSemaforo.get semID)
      return s.ponerBlockedPorSemaforo semID cola.tail
  | unlockMutex pid => cambiarPrograma s pid fun p => { p with mutexTomado := false }
  | bajarBandera pid => cambiarPrograma s pid fun p => { p with estaBloqueado := false }
  | descontarBlocked pid => cambiarPrograma s pid fun p =>
      { p with cantidadDeHilosEnBlocked := p.cantidadDeHilosEnBlocked - 1 }
  | ponerEnBlocked pid semID => do
      let cola ← noNulo (s.diccionarioDeBlockedPorSemaforo.get semID)
      let p ← noNulo (s.diccionarioDeProgramas.get pid)
      let exec ← noNulo p.exec
      return (s.ponerBlockedPorSemaforo semID (cola ++ [exec])).ponerPrograma pid
        { p with cantidadDeHilosEnBlocked := p.cantidadDeHilosEnBlocked + 1 }
  | vaciarExec pid => cambiarPrograma s pid fun p => { p with exec := none }
  | join pid tidAEsperar => Suse.realizarJoin s pid tidAEsperar
  | ponerEnExit unHilo => do
      let h ← noNulo (s.hilos unHilo)
      return s.ponerExit h.pid ((s.diccionarioDeListasDeExit.get h.pid).getD [] ++ [unHilo])
  | postMaximo => .ok { s with maximoProcesamiento := s.maximoProcesamiento + 1 }
  | tomarHiloBloqueadoPor pid tid => cambiarPrograma s pid fun p =>
      { p with blocked := p.blocked.put tid ((p.blocked.get tid).getD []).tail }
  | bloqueadoPorAlgunHilo _ => .ok s
  | liberar hiloBloqueado ahora => do
      let h ← noNulo (s.hilos hiloBloqueado)
      let l ← noNulo (s.diccionarioDeListasDeReady.get h.pid)
      return (s.ponerReady h.pid (l ++ [hiloBloqueado])).ponerHilo hiloBloqueado
        { h with timestampReady := ahora }
  | contarLiberado hiloBloqueado => do
      let h ← noNulo (s.hilos hiloBloqueado)
      cambiarPrograma s h.pid fun p =>
        { p with
          cantidadDeHilosEnBlocked := p.cantidadDeHilosEnBlocked - 1
          cantidadDeHilosEnReady := p.cantidadDeHilosEnReady + 1 }
  | medir .ejecucion pasada ahora =>
      (pasada.hilos s).foldlM (tomarMetricasTiemposDeEjecucionPara1Hilo ahora) s
  | medir _ _ _ => .ok s
  | reiniciar pid => cambiarPrograma s pid fun p =>
      { p with tiempoDeEjecucionDeTodosLosHilos := 0 }
  | borrarExit pid =>
      let lista := (s.diccionarioDeListasDeExit.get pid).getD []
      .ok { s with
        hilos := fun p => if p ∈ lista then none else s.hilos p
        diccionarioDeListasDeExit := s.diccionarioDeListasDeExit.remove pid }
  | borrarReady pid =>
      let lista := (s.diccionarioDeListasDeReady.get pid).getD []
      .ok { s with
        hilos := fun p => if p ∈ lista then none else s.hilos p
        diccionarioDeListasDeReady := s.diccionarioDeListasDeReady.remove pid }
  | borrarPrograma pid => do
      let p ← noNulo (s.diccionarioDeProgramas.get pid)
      let lista := (p.blocked.toList.flatMap fun e => e.2) ++ p.exec.toList
      return { s with
        hilos := fun q => if q ∈ lista then none else s.hilos q
        diccionarioDeProgramas := s.diccionarioDeProgramas.remove pid }

namespace Seccionado

/-- The code of a handler. -/
abbrev Codigo (E : Type) := Prog (Estado E) Sem Accion

/-- An action outside every section. -/
def hacer (a : Accion) : Codigo E Unit := do
  let _ ← perform a
  pure ()

def crearPrograma (pid : Pid) : Codigo E Unit := do
  let _ ← guarded .programas (.crearPrograma pid)
  hacer (.lockMutex pid)

def crearHilo (pid : Pid) (tid : Tid) (basura : ℕ × ℕ) (ahora : ℕ) : Codigo E Unit := do
  let _ ← guarded .new (.ponerEnNew pid tid basura ahora)
  hacer .postHayNuevos
  let _ ← guarded .programas (.contarNew pid)
  pure ()

def pasarAReady (unHilo : Puntero) (ahora : ℕ) : Codigo E Unit := do
  lock .diccionarioReady
  let s ← perform (.ponerEnReady unHilo ahora)
  let primero :=
    ((s.hilos unHilo).bind fun h => s.diccionarioDeListasDeReady.get h.pid).isNone
  let _ ← guarded .programas (.anotarEnReady unHilo primero)
  unlock .diccionarioReady

/-- One iteration of the loop of `planificarReady`. -/
def planificarReady (ahora : ℕ) : Codigo E Unit := do
  hacer .waitHayNuevos
  let s ← guarded .new .sacarDeNew
  match s.new with
  | [] => .fail
  | unHilo :: _ =>
      hacer .waitMaximo
      let _ ← guarded .programas (.descontarNew unHilo)
      pasarAReady unHilo ahora

def calcularSiguienteHilo (pid : Pid) (reloj : ℕ → ℕ) : Codigo E Unit := do
  let s ← perform (.elegir pid reloj)
  if sinHilo s pid then
    unlock .diccionarioReady
    unlock .programas
    hacer (.subirBandera pid)
    hacer (.lockMutex pid)
    lock .diccionarioReady
    lock .programas
    hacer (.resumir pid reloj)
  else pure ()

def siguienteAEjecutar (pid : Pid) (reloj : ℕ → ℕ) : Codigo E Unit := do
  let _ ← guarded .programas (.recalcularEstimacion pid (reloj 0))
  let _ ← guarded .diccionarioReady (.replanificarHilos pid)
  lock .diccionarioReady
  lock .programas
  calcularSiguienteHilo pid reloj
  unlock .diccionarioReady
  unlock .programas

def sacar1HiloDeLaColaDeBloqueadosPorSemaforo (pid : Pid) (semID : String) (ahora : ℕ) :
    Codigo E Unit := do
  let s ← perform (.sacarDeBlocked semID)
  match s.diccionarioDeBlockedPorSemaforo.get semID with
  | some (unHilo :: _) =>
      pasarAReady unHilo ahora
      let s ← perform .leer
      match programaDe s unHilo with
      | none => .fail
      | some (destino, unPrograma) =>
          if unPrograma.estaBloqueado then
            hacer (.unlockMutex destino)
            hacer (.bajarBandera destino)
          let _ ← guarded .programas (.descontarBlocked pid)
          pure ()
  | _ => pure ()

def semSuseSignal (pid : Pid) (semID : String) (ahora : ℕ) : Codigo E Unit := do
  lock .semaforos
  let s ← perform .leer
  match s.semaforos.get semID with
  | none => pure ()
  | some sem =>
      match sumarUno sem.valorActualSemaforo with
      | .error _ => .fail
      | .ok siguiente =>
          if siguiente ≤ sem.valorMaximoSemaforo then
            lock .blockedPorSemaforo
            let s ← perform .leer
            match s.diccionarioDeBlockedPorSemaforo.get semID with
            | none => .fail
            | some [] => hacer (.subirSemaforo semID)
            | some _ => sacar1HiloDeLaColaDeBloqueadosPorSemaforo pid semID ahora
            unlock .blockedPorSemaforo
  unlock .semaforos

def semSuseWait (pid : Pid) (tid : Tid) (semID : String) : Codigo E Unit := do
  lock .semaforos
  let s ← perform .leer
  match s.semaforos.get semID with
  | none => pure ()
  | some sem =>
      if 0 < sem.valorActualSemaforo then hacer (.bajarSemaforo semID)
      else
        match ((s.diccionarioDeProgramas.get pid).bind Programa.exec).bind s.hilos with
        | none => .fail
        | some h =>
            if h.tid = tid then
              lock .blockedPorSemaforo
              let _ ← guarded .programas (.ponerEnBlocked pid semID)
              unlock .blockedPorSemaforo
              hacer (.vaciarExec pid)
            else .fail
  unlock .semaforos

def realizarJoin (pid : Pid) (tidAEsperar : Tid) : Codigo E Unit := do
  let _ ← guarded .programas (.join pid tidAEsperar)
  pure ()

/-- The passes of one group, each with its semaphore. -/
def tomarMetricasPara (medida : Medida) (ahora : ℕ) : Codigo E Unit := do
  let _ ← guarded .new (.medir medida .news ahora)
  let _ ← guarded .programas (.medir medida .blocked ahora)
  let _ ← guarded .diccionarioReady (.medir medida .ready ahora)
  let _ ← guarded .programas (.medir medida .exec ahora)
  let _ ← guarded .blockedPorSemaforo (.medir medida .sem ahora)
  pure ()

def reiniciarTiempoDeEjecucionTotal : Codigo E Unit := do
  let s ← perform .leer
  forEach (fun unPrograma : Pid × Programa => do
    let _ ← guarded .programas (.reiniciar unPrograma.2.pid)
    pure ()) s.diccionarioDeProgramas.toList

def tomarMetricas (ahora : ℕ) : Codigo E Unit := do
  tomarMetricasPara .ejecucion ahora
  tomarMetricasPara .espera ahora
  tomarMetricasPara .porcentaje ahora
  reiniciarTiempoDeEjecucionTotal
  let _ ← guarded .programas .leer
  let _ ← guarded .semaforos .leer
  pure ()

/-- One iteration of the loop of `atenderMetricas`. -/
def atenderMetricas (ahora : ℕ) : Codigo E Unit := do
  lock .metricas
  tomarMetricas ahora
  unlock .metricas

def pasarAExit (unHilo : Puntero) (ahora : ℕ) : Codigo E Unit := do
  let _ ← guarded .exit (.ponerEnExit unHilo)
  atenderMetricas ahora
  hacer .postMaximo

/-- The loop over the join list of the thread `tid` of the program `pid`. -/
def liberarLista (pid : Pid) (tid : Tid) (ahora : ℕ) : List Puntero → Codigo E Unit :=
  forEach fun hiloBloqueado => do
    hacer (.tomarHiloBloqueadoPor pid tid)
    let s ← perform (.bloqueadoPorAlgunHilo hiloBloqueado)
    if sigueBloqueado s hiloBloqueado then pure ()
    else
      let _ ← guarded .diccionarioReady (.liberar hiloBloqueado ahora)
      hacer (.contarLiberado hiloBloqueado)

def liberarBloqueadosPorElHilo (hiloBloqueante : Puntero) (ahora : ℕ) : Codigo E Unit := do
  lock .programas
  let s ← perform .leer
  match s.hilos hiloBloqueante, programaDe s hiloBloqueante with
  | some h, some (pid, p) => liberarLista pid h.tid ahora ((p.blocked.get h.tid).getD [])
  | _, _ => .fail
  unlock .programas

def realizarClose (pid : Pid) (tid : Tid) (ahora : ℕ) : Codigo E Unit := do
  let s ← perform .leer
  match (s.diccionarioDeProgramas.get pid).bind Programa.exec with
  | none => .fail
  | some exec =>
      match s.hilos exec with
      | none => .fail
      | some h =>
          if h.tid = tid then
            pasarAExit exec ahora
            hacer (.vaciarExec pid)
            liberarBloqueadosPorElHilo exec ahora
          else pure ()

/-- The end of a connection. -/
def desconectar (pid : Pid) : Codigo E Unit := do
  hacer .postMaximo
  let _ ← guarded .exit (.borrarExit pid)
  let _ ← guarded .diccionarioReady (.borrarReady pid)
  let _ ← guarded .programas (.borrarPrograma pid)
  pure ()

end Seccionado

/-- The threads of the scheduler. Each `schedule_next` has one of its own. -/
inductive Hebra where
  | conexion
  | planificador
  | metricas
  | scheduleNext (n : ℕ)
  deriving DecidableEq

/-- What a thread can be asked to do. -/
inductive Pedido where
  | conectar (pid : Pid)
  | crear (pid : Pid) (tid : Tid) (basura : ℕ × ℕ) (ahora : ℕ)
  | wait (pid : Pid) (tid : Tid) (semID : String)
  | signal (pid : Pid) (tid : Tid) (semID : String) (ahora : ℕ)
  | join (pid : Pid) (tidAEsperar : Tid)
  | close (pid : Pid) (tid : Tid) (ahora : ℕ)
  | desconectar (pid : Pid)
  | planificar (ahora : ℕ)
  | medir (ahora : ℕ)
  | scheduleNext (pid : Pid) (reloj : ℕ → ℕ)

/-- The code that a thread runs for each request. -/
def cuerpo : Hebra → Pedido → Option (Seccionado.Codigo E Unit)
  | .conexion, .conectar pid => some (Seccionado.crearPrograma pid)
  | .conexion, .crear pid tid basura ahora => some (Seccionado.crearHilo pid tid basura ahora)
  | .conexion, .wait pid tid semID => some (Seccionado.semSuseWait pid tid semID)
  | .conexion, .signal pid _ semID ahora => some (Seccionado.semSuseSignal pid semID ahora)
  | .conexion, .join pid tidAEsperar => some (Seccionado.realizarJoin pid tidAEsperar)
  | .conexion, .close pid tid ahora => some (Seccionado.realizarClose pid tid ahora)
  | .conexion, .desconectar pid => some (Seccionado.desconectar pid)
  | .planificador, .planificar ahora => some (Seccionado.planificarReady ahora)
  | .metricas, .medir ahora => some (Seccionado.atenderMetricas ahora)
  | .scheduleNext _, .scheduleNext pid reloj => some (Seccionado.siguienteAEjecutar pid reloj)
  | _, _ => none

/-- The threads, the data and the owners of the semaphores. -/
abbrev Sistema (E : Type) := Locks.Config (Estado E) Sem Accion Hebra

namespace Sistema

/-- One step of one thread, or the arrival of a request. -/
def paso (env : Entorno E) (c : Sistema E) :
    Locks.Label Hebra Pedido → Except Unit (Sistema E) :=
  c.next (Accion.hacer env) cuerpo

def Transicion (env : Entorno E) (c : Sistema E) (e : Locks.Label Hebra Pedido)
    (c' : Sistema E) : Prop :=
  paso env c e = .ok c'

def inicial (c : Configuracion) : Sistema E where
  data := iniciarSUSE c
  prog := fun _ => .ret ()
  owner := fun _ => none

end Sistema

end Suse
