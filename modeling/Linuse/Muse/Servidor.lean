import Linuse.Transition.Run
import Linuse.Muse.Accesos
import Linuse.Muse.Pedidos

/-!
# The memory server

One thread accepts the clients, serves their requests one at a time and notices
when one leaves. A step of the server is one of these events; `Alcanza` are its runs
from the start.
-/

namespace Muse

open Memory Marked

section Servidor

variable (cfg : Configuracion)

/-! ## Requests on tables -/

/-- `crearTablaSegmentosProceso`: a table that exists is kept. -/
def crearTablaSegmentosProceso (idSocketCliente : ℕ) : Codigo Unit :=
  modify fun s => if (s.tablasSegmentos.get idSocketCliente).isSome then s
    else s.ponerTabla idSocketCliente []

def museinit (idSocketCliente : ℕ) : Codigo ℤ := do
  let s ← gets id
  crearTablaSegmentosProceso idSocketCliente
  return if s.hayMemoriaDisponible then 0 else -1

/-- `museclose`: the dictionary is searched as if it were a list and the key as if it
were a position; where that position is not below its size the search gives NULL and
nothing is removed. -/
def museclose (idSocketCliente : ℕ) : Codigo ℤ :=
  if 0 ≤ cfg.direccionClave idSocketCliente ∧
      cfg.direccionClave idSocketCliente < cfg.tamanioDiccionario then fail
  else return 0

/-! ## Events -/

/-- What a request gives to the client. -/
inductive Respuesta
  | ninguna
  | direccion (p : Option ℤ)
  | resultado (res : ℤ)
  | datos (leido : Option (List UInt8))
  deriving DecidableEq

/-- The handler of a request. Those of maps send an answer and do nothing else. -/
def atenderLlamada (sd : ℕ) : Llamada → Codigo Respuesta
  | .init => do
      let _ ← museinit sd
      return .ninguna
  | .close => do
      let _ ← museclose cfg sd
      return .ninguna
  | .alloc tam => do
      let p ← musemalloc cfg tam.toNat sd
      return .direccion p
  | .free dir => do
      let _ ← musefree cfg sd dir.toNat
      return .ninguna
  | .get _ src n => do
      let leido ← museget cfg src.toNat n sd
      return .datos leido
  | .cpy dst src n => do
      let res ← musecpy cfg dst.toNat (src.take n) sd
      return .resultado res
  | .map _ _ _ => return .direccion (some 4294967295)
  | .sync _ _ => return .resultado 0
  | .unmap _ => return .resultado 0

inductive Evento
  /-- A client connects and gets this socket. -/
  | conecta (sd : ℕ)
  /-- The client at this position of `client_socket` has left. -/
  | desconecta (i : ℕ)
  | pide (sd : ℕ) (llamada : Llamada)

/-- The socket is put in the first position that has none. -/
def Estado.agregarCliente (s : Estado) (sd : ℕ) : Estado :=
  { s with clientSocket := (s.clientSocket.findIdx? (· == 0)).elim s.clientSocket fun i =>
      s.clientSocket.set i sd }

def Estado.quitarCliente (s : Estado) (i : ℕ) : Estado :=
  { s with clientSocket := s.clientSocket.set i 0 }

/-- One turn of the loop of the server, for one event: a new socket is none of those
in use, and only clients that are connected make requests. -/
def paso : Evento → Codigo Respuesta
  | .conecta sd => do
      let s ← gets id
      if sd = 0 ∨ sd ∈ s.clientSocket then fail
      else do
        modify fun s => s.agregarCliente sd
        return .ninguna
  | .desconecta i => do
      let s ← gets id
      if s.clientSocket[i]?.getD 0 = 0 then fail
      else do
        modify fun s => s.quitarCliente i
        return .ninguna
  | .pide sd llamada => do
      let s ← gets id
      if sd = 0 ∨ sd ∉ s.clientSocket then fail
      else atenderLlamada cfg sd llamada

/-! ## Runs -/

/-- The state after `arrancarMemoria`. -/
def inicial : Estado where
  frames := List.replicate cfg.cantidadFrames ⟨false, false, true⟩
  punteroClock := 0
  paginas := []
  segmentos := []
  tablasSegmentos := .empty
  clientSocket := List.replicate 30 0
  bitmapSwap := List.replicate cfg.maxBitSwap false
  memoria := cfg.basura
  swap := cfg.basura
  posicionSwap := 0
  archivos := fun _ => none

/-- The server goes from one state to another at an event. -/
def Avanza (s : Estado) (e : Evento) (s' : Estado) : Prop :=
  ∃ r marcas, Runs (paso cfg e) s r s' marcas

/-- The runs of the server. -/
abbrev Alcanza : List (Transition.Step Estado Evento) → Estado → Prop :=
  Transition.Run (Avanza cfg) (inicial cfg)

/-- Every mark that an event leaves is allowed. -/
def SinMarcas (ok : Estado → Suceso → Prop) (x : Transition.Step Estado Evento) : Prop :=
  ∀ r s' marcas, Runs (paso cfg x.label) x.pre r s' marcas → ∀ mk ∈ marcas, ok mk.1 mk.2

/-- The state after an event. -/
def siguienteEstado (s : Estado) (e : Evento) : Except Unit Estado :=
  (paso cfg e s).elim (.error ()) fun r => .ok r.2.1

theorem avanza_of_siguienteEstado {s s' : Estado} {e : Evento}
    (h : siguienteEstado cfg s e = .ok s') : Avanza cfg s e s' := by
  rw [siguienteEstado] at h
  cases hr : paso cfg e s with
  | none =>
      rw [hr] at h
      cases h
  | some r =>
      rw [hr, Option.elim_some, Except.ok.injEq] at h
      subst h
      exact ⟨r.1, r.2.2, hr⟩

/-- The events of a list are a run when none of them fails. -/
theorem alcanza_of_acceptsAll (eventos : List Evento)
    (h : Transition.acceptsAll (siguienteEstado cfg) (inicial cfg) eventos = true) :
    Alcanza cfg (Transition.trace (siguienteEstado cfg) (inicial cfg) eventos)
      (Transition.final (siguienteEstado cfg) (inicial cfg) eventos) :=
  (Transition.Run.execute (siguienteEstado cfg) eventos h).mono fun _ _ _ hs =>
    avanza_of_siguienteEstado cfg hs

/-- The marks that the events of a list leave. -/
def marcasDe : Estado → List Evento → List (Estado × Suceso)
  | _, [] => []
  | s, e :: eventos => (paso cfg e s).elim [] (fun r => r.2.2) ++
      marcasDe (Transition.after (siguienteEstado cfg) s e) eventos

theorem sinMarcas_of_marcasDe {ok : Estado → Suceso → Prop} {s : Estado} {eventos : List Evento}
    (h : ∀ mk ∈ marcasDe cfg s eventos, ok mk.1 mk.2) :
    ∀ x ∈ Transition.trace (siguienteEstado cfg) s eventos, SinMarcas cfg ok x := by
  induction eventos generalizing s with
  | nil =>
      intro x hx
      cases hx
  | cons e eventos ih =>
      intro x hx
      rw [marcasDe] at h
      rw [Transition.trace, List.mem_cons] at hx
      rcases hx with rfl | hx
      · intro r s' marcas hr mk hmk
        rw [Runs] at hr
        rw [hr, Option.elim_some] at h
        exact h mk (List.mem_append_left _ hmk)
      · exact ih (fun mk hmk => h mk (List.mem_append_right _ hmk)) x hx

end Servidor

end Muse
