import Linuse.Suse.Eleccion
import Linuse.Suse.Liberacion

/-!
# Parking and waking, step by step

The three activities that meet at `mutexPrograma`, cut at every critical section,
flag access and mutex operation: the `schedule_next` handlers, each in its own
thread; `sem_suse_signal`, in the thread of the connections, which runs one
message at a time; and `planificarReady`. Between two of their steps any other
may run. The other messages and the metrics run from start to end.

`calcularSiguienteHilo` lets go of both semaphores before it sets `estaBloqueado`
and locks the mutex (`FaseScheduleNext.vacio`), and only a signal looks at that
flag.
-/

namespace Suse

open Function (update)
open Fallible

variable {E : Type}

/-- Where a `schedule_next` handler is: before `recalcularEstimacion`, before
`replanificarHilos`, before the section of `calcularSiguienteHilo`, after it let
go of the semaphores, at `pthread_mutex_lock`, and after it. -/
inductive FaseScheduleNext where
  | recalcular
  | replanificar
  | elegir
  | vacio
  | enMutex
  | despierto
  deriving DecidableEq

/-- Where the thread of the connections is in a signal that hands over: before
`pasarAReady`, before it reads `estaBloqueado`, before `pthread_mutex_unlock`,
before it clears the flag, and before it writes the counter of the program `pid`
that signals. `destino` is the program of the thread that was taken out. -/
inductive FaseSenial where
  | libre
  | pasar (unHilo : Puntero) (pid : Pid)
  | leer (destino pid : Pid)
  | desbloquear (destino pid : Pid)
  | bajar (destino pid : Pid)
  | descontar (pid : Pid)
  deriving DecidableEq

/-- Where `planificarReady` is: before it gets a slot, before it writes the
counter, and before `pasarAReady`. -/
inductive FasePlanificar where
  | sinLugar
  | conLugar
  | contado
  deriving DecidableEq

/-- The data, and where each activity is. `manejadores pid` lists the phases of
the `schedule_next` handlers of the program that have not answered. -/
structure Fino (E : Type) where
  s : Estado E
  conexion : FaseSenial
  planificar : FasePlanificar
  manejadores : Pid → List FaseScheduleNext

namespace Evento

/-- The messages that run from start to end: all but `schedule_next` and
signals. -/
def esMensaje : Evento → Bool
  | conectar _ => true
  | crear _ _ _ _ => true
  | wait _ _ _ => true
  | join _ _ => true
  | close _ _ _ => true
  | _ => false

end Evento

inductive EventoFino where
  | mensaje (e : Evento)
  | metricas (ahora : ℕ)
  | senial (pid : Pid) (tid : Tid) (semID : String)
  | senialPasar (ahora : ℕ)
  | senialLeer
  | senialDesbloquear
  | senialBajar
  | senialDescontar
  | tomar
  | lugar
  | contar
  | pasar (ahora : ℕ)
  | scheduleNext (pid : Pid)
  | recalcular (pid : Pid) (ahora : ℕ)
  | replanificar (pid : Pid)
  | elegir (pid : Pid) (reloj : ℕ → ℕ)
  | bandera (pid : Pid)
  | lock (pid : Pid)
  | resumir (pid : Pid) (reloj : ℕ → ℕ)

namespace Fino

/-- A handler of `pid` goes from `fase` to the phases `nuevas`, none when it
answers. -/
def avanzar (f : Fino E) (s : Estado E) (pid : Pid) (fase : FaseScheduleNext)
    (nuevas : List FaseScheduleNext) : Fino E :=
  { f with
    s := s
    manejadores := update f.manejadores pid ((f.manejadores pid).erase fase ++ nuevas) }

/-! ## The signal -/

/-- `sem_suse_signal` up to the `queue_pop` of
`sacar1HiloDeLaColaDeBloqueadosPorSemaforo`. -/
def senial (f : Fino E) (pid : Pid) (semID : String) : Except Falla (Fino E) :=
  if f.conexion = .libre then
    match f.s.semaforos.get semID with
    | none => .ok f
    | some sem => do
        let siguiente ← sumarUno sem.valorActualSemaforo
        if siguiente ≤ sem.valorMaximoSemaforo then
          let cola ← noNulo (f.s.diccionarioDeBlockedPorSemaforo.get semID)
          match cola with
          | [] =>
              return { f with
                s := f.s.ponerSemaforo semID { sem with valorActualSemaforo := siguiente } }
          | unHilo :: resto =>
              return { f with
                s := f.s.ponerBlockedPorSemaforo semID resto, conexion := .pasar unHilo pid }
        else return f
  else .error .espera

def senialPasar (f : Fino E) (ahora : ℕ) : Except Falla (Fino E) :=
  match f.conexion with
  | .pasar unHilo pid => do
      let s ← pasarAReady f.s unHilo ahora
      let h ← noNulo (s.hilos unHilo)
      return { f with s := s, conexion := .leer h.pid pid }
  | _ => .error .espera

def senialLeer (f : Fino E) : Except Falla (Fino E) :=
  match f.conexion with
  | .leer destino pid => do
      let unPrograma ← noNulo (f.s.diccionarioDeProgramas.get destino)
      return { f with
        conexion :=
          if unPrograma.estaBloqueado then .desbloquear destino pid else .descontar pid }
  | _ => .error .espera

def senialDesbloquear (f : Fino E) : Except Falla (Fino E) :=
  match f.conexion with
  | .desbloquear destino pid => do
      let unPrograma ← noNulo (f.s.diccionarioDeProgramas.get destino)
      return { f with
        s := f.s.ponerPrograma destino { unPrograma with mutexTomado := false }
        conexion := .bajar destino pid }
  | _ => .error .espera

def senialBajar (f : Fino E) : Except Falla (Fino E) :=
  match f.conexion with
  | .bajar destino pid => do
      let unPrograma ← noNulo (f.s.diccionarioDeProgramas.get destino)
      return { f with
        s := f.s.ponerPrograma destino { unPrograma with estaBloqueado := false }
        conexion := .descontar pid }
  | _ => .error .espera

def senialDescontar (f : Fino E) : Except Falla (Fino E) :=
  match f.conexion with
  | .descontar pid => do
      let p ← noNulo (f.s.diccionarioDeProgramas.get pid)
      return { f with
        s := f.s.ponerPrograma pid
          { p with cantidadDeHilosEnBlocked := p.cantidadDeHilosEnBlocked - 1 }
        conexion := .libre }
  | _ => .error .espera

/-! ## `planificarReady` -/

def tomar (f : Fino E) : Except Falla (Fino E) :=
  if f.planificar = .sinLugar then do
    let s ← planificarReadyTomar f.s
    return { f with s := s }
  else .error .espera

def lugar (f : Fino E) : Except Falla (Fino E) :=
  if f.planificar = .sinLugar ∧ f.s.unHilo ≠ none ∧ 0 < f.s.maximoProcesamiento then
    .ok { f with
      s := { f.s with maximoProcesamiento := f.s.maximoProcesamiento - 1 }
      planificar := .conLugar }
  else .error .espera

def contar (f : Fino E) : Except Falla (Fino E) :=
  if f.planificar = .conLugar then do
    let unHilo ← noNulo f.s.unHilo
    let h ← noNulo (f.s.hilos unHilo)
    let p ← noNulo (f.s.diccionarioDeProgramas.get h.pid)
    return { f with
      s := f.s.ponerPrograma h.pid { p with cantidadDeHilosEnNew := p.cantidadDeHilosEnNew - 1 }
      planificar := .contado }
  else .error .espera

def pasar (f : Fino E) (ahora : ℕ) : Except Falla (Fino E) :=
  if f.planificar = .contado then do
    let unHilo ← noNulo f.s.unHilo
    let s ← pasarAReady { f.s with unHilo := none } unHilo ahora
    return { f with s := s, planificar := .sinLugar }
  else .error .espera

/-! ## `schedule_next` -/

def scheduleNext (f : Fino E) (pid : Pid) : Except Falla (Fino E) :=
  if f.conexion = .libre ∧ (f.s.diccionarioDeProgramas.get pid).isSome then
    .ok { f with
      manejadores := update f.manejadores pid (f.manejadores pid ++ [.recalcular]) }
  else .error .espera

def recalcular (env : Entorno E) (f : Fino E) (pid : Pid) (ahora : ℕ) :
    Except Falla (Fino E) :=
  if .recalcular ∈ f.manejadores pid then do
    let s ← recalcularEstimacion env f.s pid ahora
    return f.avanzar s pid .recalcular [.replanificar]
  else .error .espera

def replanificar (env : Entorno E) (f : Fino E) (pid : Pid) : Except Falla (Fino E) :=
  if .replanificar ∈ f.manejadores pid then do
    let s ← replanificarHilos env f.s pid
    return f.avanzar s pid .replanificar [.elegir]
  else .error .espera

/-- The section of `calcularSiguienteHilo`, which ends with an answer or with
both semaphores released. -/
def elegir (env : Entorno E) (f : Fino E) (pid : Pid) (reloj : ℕ → ℕ) :
    Except Falla (Fino E) :=
  if .elegir ∈ f.manejadores pid then do
    let listaDeReady ← noNulo (f.s.diccionarioDeListasDeReady.get pid)
    let p ← noNulo (f.s.diccionarioDeProgramas.get pid)
    if p.exec = none ∧ listaDeReady = [] then
      return f.avanzar f.s pid .elegir [.vacio]
    else
      let r ← calcularSiguienteHilo env f.s pid reloj
      return f.avanzar r.1 pid .elegir []
  else .error .espera

def bandera (f : Fino E) (pid : Pid) : Except Falla (Fino E) :=
  if .vacio ∈ f.manejadores pid then do
    let unPrograma ← noNulo (f.s.diccionarioDeProgramas.get pid)
    return f.avanzar (f.s.ponerPrograma pid { unPrograma with estaBloqueado := true })
      pid .vacio [.enMutex]
  else .error .espera

def lock (f : Fino E) (pid : Pid) : Except Falla (Fino E) :=
  if .enMutex ∈ f.manejadores pid then do
    let unPrograma ← noNulo (f.s.diccionarioDeProgramas.get pid)
    if unPrograma.mutexTomado then .error .espera
    else
      return f.avanzar (f.s.ponerPrograma pid { unPrograma with mutexTomado := true })
        pid .enMutex [.despierto]
  else .error .espera

def resumir (f : Fino E) (pid : Pid) (reloj : ℕ → ℕ) : Except Falla (Fino E) :=
  if .despierto ∈ f.manejadores pid then do
    let listaDeReady ← noNulo (f.s.diccionarioDeListasDeReady.get pid)
    match listaDeReady with
    | [] => .error .punteroNulo
    | candidato :: resto =>
        let r ← ponerEnExec f.s pid candidato resto reloj
        return f.avanzar r.1 pid .despierto []
  else .error .espera

/-! ## One step -/

def mensaje (env : Entorno E) (f : Fino E) (e : Evento) : Except Falla (Fino E) :=
  if f.conexion = .libre ∧ e.esMensaje then do
    let s ← paso env f.s e
    return { f with s := s }
  else .error .espera

def metricas (f : Fino E) (ahora : ℕ) : Except Falla (Fino E) := do
  let s ← tomarMetricas f.s ahora
  return { f with s := s }

def paso (env : Entorno E) (f : Fino E) : EventoFino → Except Falla (Fino E)
  | .mensaje e => f.mensaje env e
  | .metricas ahora => f.metricas ahora
  | .senial pid _ semID => f.senial pid semID
  | .senialPasar ahora => f.senialPasar ahora
  | .senialLeer => f.senialLeer
  | .senialDesbloquear => f.senialDesbloquear
  | .senialBajar => f.senialBajar
  | .senialDescontar => f.senialDescontar
  | .tomar => f.tomar
  | .lugar => f.lugar
  | .contar => f.contar
  | .pasar ahora => f.pasar ahora
  | .scheduleNext pid => f.scheduleNext pid
  | .recalcular pid ahora => f.recalcular env pid ahora
  | .replanificar pid => f.replanificar env pid
  | .elegir pid reloj => f.elegir env pid reloj
  | .bandera pid => f.bandera pid
  | .lock pid => f.lock pid
  | .resumir pid reloj => f.resumir pid reloj

/-- The transitions of the scheduler at this granularity. -/
def Transicion (env : Entorno E) (f : Fino E) (e : EventoFino) (f' : Fino E) : Prop :=
  paso env f e = .ok f'

def inicial (c : Configuracion) : Fino E where
  s := iniciarSUSE c
  conexion := .libre
  planificar := .sinLugar
  manejadores := fun _ => []

/-! ## What each step of a signal does -/

section Senial

variable {f f' : Fino E}

/-- A signal that takes no thread out leaves the places and the programs alone. -/
theorem senial_ok {pid : Pid} {semID : String} (h : f.senial pid semID = .ok f') :
    f.conexion = .libre ∧ (f' = f ∨
      (∃ sem, f' = { f with s := f.s.ponerSemaforo semID sem }) ∨
      ∃ unHilo resto,
        f.s.diccionarioDeBlockedPorSemaforo.get semID = some (unHilo :: resto) ∧
        f' = { f with
          s := f.s.ponerBlockedPorSemaforo semID resto, conexion := .pasar unHilo pid }) := by
  rw [senial] at h
  split_ifs at h with hlibre
  refine ⟨hlibre, ?_⟩
  cases hsem : f.s.semaforos.get semID with
  | none =>
      rw [hsem] at h
      cases h
      exact Or.inl rfl
  | some sem =>
      simp only [hsem, bind_eq_ok] at h
      obtain ⟨siguiente, -, h⟩ := h
      split_ifs at h with hmax
      · simp only [noNulo, bind_eq_ok, orFail_eq_ok] at h
        obtain ⟨cola, hcola, h⟩ := h
        cases cola with
        | nil =>
            cases h
            exact Or.inr (Or.inl ⟨_, rfl⟩)
        | cons unHilo resto =>
            cases h
            exact Or.inr (Or.inr ⟨unHilo, resto, hcola, rfl⟩)
      · cases h
        exact Or.inl rfl

theorem senialPasar_ok {ahora : ℕ} (h : f.senialPasar ahora = .ok f') :
    ∃ unHilo pid s hilo, f.conexion = .pasar unHilo pid ∧
      pasarAReady f.s unHilo ahora = .ok s ∧ s.hilos unHilo = some hilo ∧
      f' = { f with s := s, conexion := .leer hilo.pid pid } := by
  rw [senialPasar] at h
  cases hc : f.conexion with
  | pasar unHilo pid =>
      simp only [hc, noNulo, bind_eq_ok, orFail_eq_ok, pure_eq_ok] at h
      obtain ⟨s, hs, hilo, hhilo, rfl⟩ := h
      exact ⟨unHilo, pid, s, hilo, rfl, hs, hhilo, rfl⟩
  | _ => simp [hc] at h

theorem senialLeer_ok (h : f.senialLeer = .ok f') :
    ∃ destino pid p, f.conexion = .leer destino pid ∧
      f.s.diccionarioDeProgramas.get destino = some p ∧
      f' = { f with
        conexion := if p.estaBloqueado then .desbloquear destino pid else .descontar pid } := by
  rw [senialLeer] at h
  cases hc : f.conexion with
  | leer destino pid =>
      simp only [hc, noNulo, bind_eq_ok, orFail_eq_ok, pure_eq_ok] at h
      obtain ⟨p, hp, rfl⟩ := h
      exact ⟨destino, pid, p, rfl, hp, rfl⟩
  | _ => simp [hc] at h

theorem senialDesbloquear_ok (h : f.senialDesbloquear = .ok f') :
    ∃ destino pid p, f.conexion = .desbloquear destino pid ∧
      f.s.diccionarioDeProgramas.get destino = some p ∧
      f' = { f with
        s := f.s.ponerPrograma destino { p with mutexTomado := false }
        conexion := .bajar destino pid } := by
  rw [senialDesbloquear] at h
  cases hc : f.conexion with
  | desbloquear destino pid =>
      simp only [hc, noNulo, bind_eq_ok, orFail_eq_ok, pure_eq_ok] at h
      obtain ⟨p, hp, rfl⟩ := h
      exact ⟨destino, pid, p, rfl, hp, rfl⟩
  | _ => simp [hc] at h

theorem senialBajar_ok (h : f.senialBajar = .ok f') :
    ∃ destino pid p, f.conexion = .bajar destino pid ∧
      f.s.diccionarioDeProgramas.get destino = some p ∧
      f' = { f with
        s := f.s.ponerPrograma destino { p with estaBloqueado := false }
        conexion := .descontar pid } := by
  rw [senialBajar] at h
  cases hc : f.conexion with
  | bajar destino pid =>
      simp only [hc, noNulo, bind_eq_ok, orFail_eq_ok, pure_eq_ok] at h
      obtain ⟨p, hp, rfl⟩ := h
      exact ⟨destino, pid, p, rfl, hp, rfl⟩
  | _ => simp [hc] at h

theorem senialDescontar_ok (h : f.senialDescontar = .ok f') :
    ∃ pid p, f.conexion = .descontar pid ∧ f.s.diccionarioDeProgramas.get pid = some p ∧
      f' = { f with
        s := f.s.ponerPrograma pid
          { p with cantidadDeHilosEnBlocked := p.cantidadDeHilosEnBlocked - 1 }
        conexion := .libre } := by
  rw [senialDescontar] at h
  cases hc : f.conexion with
  | descontar pid =>
      simp only [hc, noNulo, bind_eq_ok, orFail_eq_ok, pure_eq_ok] at h
      obtain ⟨p, hp, rfl⟩ := h
      exact ⟨pid, p, rfl, hp, rfl⟩
  | _ => simp [hc] at h

end Senial

end Fino

end Suse
