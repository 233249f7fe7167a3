import Linuse.Collections.Moves
import Linuse.Suse.Manejadores

/-!
# Where the threads are

`Lugar` names the places where a handler can leave a thread: the New queue, the
hand of `planificarReady`, and for each program its ready list, its `exec`, its
join lists and its exit list, besides the queue of each semaphore. `contenido s`
lists the threads of each place, so that every handler is a movement of items
between the lists of one function, and each setter of the state is an update of
that function at one place.
-/

namespace Suse

open Function (update update_eq_self update_self update_of_ne)

variable {E : Type}

/-- The places where a thread can be. -/
inductive Lugar where
  | new
  | mano
  | ready (pid : Pid)
  | exec (pid : Pid)
  | semaforo (semID : String)
  | join (pid : Pid) (tid : Tid)
  | exit (pid : Pid)
  deriving DecidableEq

/-- How far a thread has got: not admitted yet, admitted, or closed. -/
inductive Fase where
  | nuevo
  | activo
  | terminado
  deriving DecidableEq

namespace Lugar

/-- Whether a thread of the program `pid` may be in the place: the places of a
program are for its own threads. -/
def esDe : Lugar → Pid → Prop
  | new, _ => True
  | mano, _ => True
  | semaforo _, _ => True
  | ready p, pid => p = pid
  | exec p, pid => p = pid
  | join p _, pid => p = pid
  | exit p, pid => p = pid

def fase : Lugar → Fase
  | new => .nuevo
  | mano => .nuevo
  | ready _ => .activo
  | exec _ => .activo
  | semaforo _ => .activo
  | join _ _ => .activo
  | exit _ => .terminado

end Lugar

/-- The threads in each place. -/
def contenido (s : Estado E) : Lugar → List Puntero
  | .new => s.new
  | .mano => s.unHilo.toList
  | .ready pid => (s.diccionarioDeListasDeReady.get pid).getD []
  | .exec pid => ((s.diccionarioDeProgramas.get pid).bind Programa.exec).toList
  | .semaforo semID => (s.diccionarioDeBlockedPorSemaforo.get semID).getD []
  | .join pid tid =>
      ((s.diccionarioDeProgramas.get pid).bind fun p => p.blocked.get tid).getD []
  | .exit pid => (s.diccionarioDeListasDeExit.get pid).getD []

section Contenido

variable {s : Estado E}

theorem contenido_ready {pid : Pid} {l : List Puntero}
    (h : s.diccionarioDeListasDeReady.get pid = some l) :
    contenido s (.ready pid) = l := by
  simp [contenido, h]

theorem contenido_exec {pid : Pid} {p : Programa}
    (h : s.diccionarioDeProgramas.get pid = some p) :
    contenido s (.exec pid) = p.exec.toList := by
  simp [contenido, h]

theorem contenido_semaforo {semID : String} {l : List Puntero}
    (h : s.diccionarioDeBlockedPorSemaforo.get semID = some l) :
    contenido s (.semaforo semID) = l := by
  simp [contenido, h]

theorem contenido_join {pid : Pid} {tid : Tid} {p : Programa}
    (h : s.diccionarioDeProgramas.get pid = some p) :
    contenido s (.join pid tid) = (p.blocked.get tid).getD [] := by
  simp [contenido, h]

end Contenido

section Setters

variable (s : Estado E)

@[simp] theorem contenido_ponerHilo (p : Puntero) (h : Hilo E) :
    contenido (s.ponerHilo p h) = contenido s := rfl

@[simp] theorem contenido_ponerSemaforo (semID : String) (v : Semaforo) :
    contenido (s.ponerSemaforo semID v) = contenido s := rfl

@[simp] theorem contenido_inicioRafaga (t : ℕ) :
    contenido { s with inicioRafaga := t } = contenido s := rfl

@[simp] theorem contenido_maximoProcesamiento (n : ℕ) :
    contenido { s with maximoProcesamiento := n } = contenido s := rfl

@[simp] theorem contenido_enMutex (f : Pid → ℕ) :
    contenido { s with enMutex := f } = contenido s := rfl

theorem contenido_ponerReady (pid : Pid) (l : List Puntero) :
    contenido (s.ponerReady pid l) = update (contenido s) (.ready pid) l := by
  funext lugar
  cases lugar with
  | ready pid' =>
      by_cases h : pid' = pid
      · subst h
        simp [contenido]
      · simp [contenido, h, Dictionary.get_put_of_ne]
  | _ => simp [contenido]

theorem contenido_ponerBlockedPorSemaforo (semID : String) (l : List Puntero) :
    contenido (s.ponerBlockedPorSemaforo semID l) =
      update (contenido s) (.semaforo semID) l := by
  funext lugar
  cases lugar with
  | semaforo semID' =>
      by_cases h : semID' = semID
      · subst h
        simp [contenido]
      · simp [contenido, h, Dictionary.get_put_of_ne]
  | _ => simp [contenido]

theorem contenido_ponerExit (pid : Pid) (l : List Puntero) :
    contenido (s.ponerExit pid l) = update (contenido s) (.exit pid) l := by
  funext lugar
  cases lugar with
  | exit pid' =>
      by_cases h : pid' = pid
      · subst h
        simp [contenido]
      · simp [contenido, h, Dictionary.get_put_of_ne]
  | _ => simp [contenido]

variable {s} {pid : Pid} {p q : Programa}

/-- Writing a program whose join lists stay is an update of its `exec`. -/
theorem contenido_ponerPrograma (h : s.diccionarioDeProgramas.get pid = some p)
    (hblocked : q.blocked = p.blocked) :
    contenido (s.ponerPrograma pid q) =
      update (contenido s) (.exec pid) q.exec.toList := by
  funext lugar
  cases lugar with
  | exec pid' =>
      by_cases hp : pid' = pid
      · subst hp
        simp [contenido]
      · simp [contenido, hp, Dictionary.get_put_of_ne]
  | join pid' tid =>
      by_cases hp : pid' = pid
      · subst hp
        simp [contenido, h, hblocked]
      · simp [contenido, hp, Dictionary.get_put_of_ne]
  | _ => simp [contenido]

/-- Writing a program whose join lists and `exec` stay moves nothing. -/
theorem contenido_ponerPrograma_eq (h : s.diccionarioDeProgramas.get pid = some p)
    (hblocked : q.blocked = p.blocked) (hexec : q.exec = p.exec) :
    contenido (s.ponerPrograma pid q) = contenido s := by
  rw [contenido_ponerPrograma h hblocked, hexec, ← contenido_exec h, update_eq_self]

/-- Writing a program with one join list replaced updates that list and its
`exec`. -/
theorem contenido_ponerPrograma_put (tid : Tid) (l : List Puntero)
    (h : s.diccionarioDeProgramas.get pid = some p)
    (hblocked : q.blocked = p.blocked.put tid l) :
    contenido (s.ponerPrograma pid q) =
      update (update (contenido s) (.exec pid) q.exec.toList) (.join pid tid) l := by
  funext lugar
  cases lugar with
  | exec pid' =>
      by_cases hp : pid' = pid
      · subst hp
        simp [contenido]
      · simp [contenido, hp, Dictionary.get_put_of_ne]
  | join pid' tid' =>
      by_cases hp : pid' = pid
      · subst hp
        by_cases ht : tid' = tid
        · subst ht
          simp [contenido, hblocked]
        · simp [contenido, h, hblocked, ht, Dictionary.get_put_of_ne]
      · simp [contenido, hp, Dictionary.get_put_of_ne]
  | _ => simp [contenido]

end Setters

end Suse
