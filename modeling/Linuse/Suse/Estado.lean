import Linuse.Collections.Dictionary
import Linuse.Transition.Fallible
import Mathlib.Data.List.Sort
import Mathlib.Data.Rat.Defs
import Mathlib.Logic.Function.Basic
import Mathlib.Tactic.Simps.Basic

/-!
# The data of the scheduler

The structures of `SUSE.c` and its global variables. A `hilo` is an allocated
record reached through a pointer, and the queues, ready lists, join lists and
exit lists hold pointers. The dictionaries keyed by `string_itoa(pid)` are keyed
by the number itself.

What the scheduler takes from outside is gathered in `Entorno`: the float
arithmetic on estimates and the sort of the commons library. A `getMicrotime`
reading is an argument of the function that takes it.
-/

namespace Suse

abbrev Puntero := ℕ

abbrev Pid := ℤ

abbrev Tid := ℤ

/-- Why a handler does not run to its end. -/
inductive Falla where
  /-- The step waits for a semaphore, a mutex or a message. -/
  | espera
  /-- A NULL pointer is dereferenced. -/
  | punteroNulo
  /-- The handler calls `exit`. -/
  | salida
  /-- An `int` addition overflows, which C leaves undefined. -/
  | desbordamiento
  deriving DecidableEq, Repr

/-- The float arithmetic on estimates and the list sort of the commons library.
`actualizar e r` is `(1 - ALPHA_SJF) * e + ALPHA_SJF * r`. -/
structure Entorno (E : Type) where
  cero : E
  menor : E → E → Bool
  menorIgual : E → E → Bool
  actualizar : E → ℤ → E
  listSort : (Puntero → Puntero → Bool) → List Puntero → List Puntero
  listSort_perm : ∀ f l, (listSort f l).Perm l

/-- Exact arithmetic with `ALPHA_SJF` a half, and insertion sort. -/
def entornoRacional : Entorno ℚ where
  cero := 0
  menor a b := decide (a < b)
  menorIgual a b := decide (a ≤ b)
  actualizar e r := (1 - 1 / 2) * e + 1 / 2 * r
  listSort f l := l.insertionSort fun a b => f a b = true
  listSort_perm _ l := l.perm_insertionSort _

structure Semaforo where
  valorActualSemaforo : ℤ
  valorMaximoSemaforo : ℤ
  deriving DecidableEq, Repr

structure Hilo (E : Type) where
  pid : Pid
  tid : Tid
  estimacion : E
  rafaga : ℤ
  tiempoDeEjecucion : ℤ
  timestampCreacion : ℤ
  sumaDeIntervalosEnReady : ℤ
  sumaDeIntervalosEnExec : ℤ
  timestampExec : ℕ
  timestampReady : ℕ

/-- `mutexTomado` says whether `mutexPrograma` is locked. -/
structure Programa where
  estaBloqueado : Bool
  mutexTomado : Bool
  pid : Pid
  exec : Option Puntero
  blocked : Dictionary Tid (List Puntero)
  cantidadDeHilosEnNew : ℤ
  cantidadDeHilosEnReady : ℤ
  cantidadDeHilosEnBlocked : ℤ
  tiempoDeEjecucionDeTodosLosHilos : ℤ

/-- The configuration file: `semaforos` lists `SEM_IDS` with `SEM_INIT` and
`SEM_MAX`. -/
structure Configuracion where
  gradoDeMultiprogramacion : ℕ
  semaforos : List (String × Semaforo)

/-- The global variables. `unHilo` is the local variable of `planificarReady`
between its `queue_pop` and its `pasarAReady`, and `enMutex pid` counts the
calls of `calcularSiguienteHilo` that wait at the program's mutex. -/
structure Estado (E : Type) where
  hilos : Puntero → Option (Hilo E)
  proximo : Puntero
  new : List Puntero
  unHilo : Option Puntero
  diccionarioDeListasDeReady : Dictionary Pid (List Puntero)
  diccionarioDeBlockedPorSemaforo : Dictionary String (List Puntero)
  semaforos : Dictionary String Semaforo
  diccionarioDeListasDeExit : Dictionary Pid (List Puntero)
  diccionarioDeProgramas : Dictionary Pid Programa
  hayNuevos : ℕ
  maximoProcesamiento : ℕ
  inicioRafaga : ℕ
  enMutex : Pid → ℕ

/-- The value that an `int` variable takes from a wider one. -/
def aInt (x : ℤ) : ℤ := Int.bmod x 4294967296

/-- `n + 1` on an `int`. -/
def sumarUno (n : ℤ) : Except Falla ℤ :=
  if n + 1 < 2147483648 then .ok (n + 1) else .error .desbordamiento

/-- Dereferencing a pointer that may be NULL. -/
abbrev noNulo {α : Type} (o : Option α) : Except Falla α :=
  Fallible.orFail .punteroNulo o

namespace Estado

variable {E : Type}

@[simps] def ponerHilo (s : Estado E) (p : Puntero) (h : Hilo E) : Estado E :=
  { s with hilos := Function.update s.hilos p (some h) }

@[simps] def ponerReady (s : Estado E) (pid : Pid) (l : List Puntero) : Estado E :=
  { s with diccionarioDeListasDeReady := s.diccionarioDeListasDeReady.put pid l }

@[simps] def ponerBlockedPorSemaforo (s : Estado E) (semID : String) (l : List Puntero) :
    Estado E :=
  { s with
    diccionarioDeBlockedPorSemaforo :=
      s.diccionarioDeBlockedPorSemaforo.put semID l }

@[simps] def ponerSemaforo (s : Estado E) (semID : String) (v : Semaforo) : Estado E :=
  { s with semaforos := s.semaforos.put semID v }

@[simps] def ponerExit (s : Estado E) (pid : Pid) (l : List Puntero) : Estado E :=
  { s with diccionarioDeListasDeExit := s.diccionarioDeListasDeExit.put pid l }

@[simps] def ponerPrograma (s : Estado E) (pid : Pid) (p : Programa) : Estado E :=
  { s with diccionarioDeProgramas := s.diccionarioDeProgramas.put pid p }

end Estado

/-- The state that `iniciarSUSE` leaves. -/
def iniciarSUSE {E : Type} (c : Configuracion) : Estado E where
  hilos := fun _ => none
  proximo := 0
  new := []
  unHilo := none
  diccionarioDeListasDeReady := .empty
  diccionarioDeBlockedPorSemaforo := .ofList (c.semaforos.map fun e => (e.1, []))
  semaforos := .ofList c.semaforos
  diccionarioDeListasDeExit := .empty
  diccionarioDeProgramas := .empty
  hayNuevos := 0
  maximoProcesamiento := c.gradoDeMultiprogramacion
  inicioRafaga := 0
  enMutex := fun _ => 0

end Suse
