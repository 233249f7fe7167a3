import Linuse.Hilolay.Biblioteca
import Linuse.Hilolay.Mensajes
import Linuse.Suse.Censo
import Linuse.Transition.Simulation

/-!
# The programs and the scheduler over their connections

Each program runs the hilolay library and its calls send bytes to the scheduler, which reads them
later, a request at a time and in any order of the programs. Only `schedule_next` waits for an
answer. A program may be ahead of the scheduler, but the requests in its connection are ones that
`Conectados` admits, in their order (`Encola`), and bring the scheduler to what the library knows
(`Refleja`), so every run is one of `Conectados` (`refina_of_run`).
-/

namespace Hilolay

open Suse Wire Transition Fallible
open Function (update update_self update_of_ne)

variable {E : Type} {env : Entorno E} {basura : ℕ → UInt8}

/-! ## The program -/

/-- A value of an `int`. -/
abbrev Entero : Type := {x : ℤ // FitsInt x}

/-- A C string that a message can carry. -/
abbrev Nombre : Type := {name : String // EsNombre name ∧ (bytesDe name).length < 2147483648}

/-- What the code of a program calls: `salir` is the return of the routine of a ULT to `wrap`, and
`retornar` the `hilolay_return` of the main thread, with which the program ends. -/
inductive Llamada where
  | create
  | yield
  | join (thread : Entero)
  | wait (sem : Nombre)
  | signal (sem : Nombre)
  | salir
  | retornar
  deriving DecidableEq

/-- Where a program is: before `hilolay_init`, in its code, before `schedule_next`, in the `recv` of
`schedule_next`, or ended. -/
inductive Etapa where
  | iniciando
  | corriendo
  | cediendo
  | esperando
  | terminado
  deriving DecidableEq

/-- A program, with the bytes that it and the scheduler have sent to each other and the other one
has not read. -/
structure Proceso where
  biblioteca : Biblioteca
  etapa : Etapa
  ida : List UInt8
  vuelta : List UInt8

namespace Proceso

def nuevo : Proceso := ⟨.enCero, .iniciando, [], []⟩

/-- Sends a request. -/
def enviar (basura : ℕ → UInt8) (p : Proceso) (b : Biblioteca) (etapa : Etapa) (q : Pedido) :
    Except Falla Proceso := do
  let bytes ← noNulo (q.envio basura)
  return { p with biblioteca := b, etapa := etapa, ida := p.ida ++ bytes }

/-- `hilolay_init` -/
def hilolayInit (basura : ℕ → UInt8) (p : Proceso) : Except Falla Proceso :=
  if p.etapa = .iniciando then do
    let tid ← noNulo p.biblioteca.initInternal.hilolayGetTid
    p.enviar basura p.biblioteca.initInternal .corriendo (.create tid)
  else .error .espera

/-- A call of the running ULT, up to the `schedule_next` of `hilolay_yield`. -/
def llamar (basura : ℕ → UInt8) (p : Proceso) (l : Llamada) : Except Falla Proceso :=
  if p.etapa = .corriendo then do
    let tid ← noNulo p.biblioteca.hilolayGetTid
    match l with
    | .create =>
        match p.biblioteca.hilolayCreate with
        | none => return p
        | some (nuevo, b) => p.enviar basura b .corriendo (.create nuevo)
    | .yield => return { p with etapa := .cediendo }
    | .join thread => p.enviar basura p.biblioteca .cediendo (.join thread.1)
    | .wait sem => p.enviar basura p.biblioteca .cediendo (.wait tid sem.1)
    | .signal sem => p.enviar basura p.biblioteca .cediendo (.signal tid sem.1)
    | .salir => p.enviar basura p.biblioteca .cediendo (.close tid)
    | .retornar => p.enviar basura p.biblioteca .terminado (.close tid)
  else .error .espera

/-- The `send` of `suse_schedule_next`. -/
def pedir (basura : ℕ → UInt8) (p : Proceso) : Except Falla Proceso :=
  if p.etapa = .cediendo then p.enviar basura p.biblioteca .esperando .scheduleNext
  else .error .espera

/-- The rest of `hilolay_yield`, from the `recv` on. `swap_context` dereferences what `get_next_tid`
returns. -/
def recibir (p : Proceso) : Except Falla Proceso :=
  if p.etapa = .esperando then
    match readInt.run p.vuelta with
    | none => .error .espera
    | some (tid, vuelta) => do
        let selectedUlt ← noNulo (p.biblioteca.getNextTid tid)
        return { p with
          biblioteca := p.biblioteca.swapContext selectedUlt
          etapa := .corriendo
          vuelta := vuelta }
  else .error .espera

/-- The program ends without a call. -/
def terminar (p : Proceso) : Except Falla Proceso :=
  if p.etapa = .corriendo then return { p with etapa := .terminado } else .error .espera

end Proceso

/-! ## The system -/

/-- The scheduler and the programs that are connected. -/
structure Sistema (E : Type) where
  estado : Estado E
  procesos : Pid → Option Proceso

/-- A step of a program, or of the scheduler: a connection, a request that it reads, the return from
a mutex, a disconnection, and the steps of its own threads. -/
inductive Suceso where
  | inicia (pid : Pid)
  | llama (pid : Pid) (l : Llamada)
  | pide (pid : Pid)
  | recibe (pid : Pid)
  | termina (pid : Pid)
  | conecta (pid : Pid)
  | atiende (pid : Pid) (m : Momento)
  | despierta (pid : Pid) (reloj : ℕ → ℕ)
  | desconecta (pid : Pid)
  | toma
  | admite (ahora : ℕ)
  | mide (ahora : ℕ)

namespace Sistema

def inicial (cfg : Configuracion) : Sistema E := ⟨iniciarSUSE cfg, fun _ => none⟩

/-- A step of a program. -/
def mover (x : Sistema E) (pid : Pid) (f : Proceso → Except Falla Proceso) :
    Except Falla (Sistema E) := do
  let p ← orFail .espera (x.procesos pid)
  let p' ← f p
  return ⟨x.estado, update x.procesos pid (some p')⟩

/-- A handler of a program, and its answer in the connection. -/
def manejar (env : Entorno E) (basura : ℕ → UInt8) (x : Sistema E) (pid : Pid) (p : Proceso)
    (e : Evento) : Except Falla (Sistema E) := do
  let s ← Suse.paso env x.estado e
  let bytes ← noNulo (responder basura (respuesta env x.estado e))
  return ⟨s, update x.procesos pid (some { p with vuelta := p.vuelta ++ bytes })⟩

/-- A step of the scheduler that is not about a program. -/
def propio (env : Entorno E) (x : Sistema E) (e : Evento) : Except Falla (Sistema E) := do
  let s ← Suse.paso env x.estado e
  return ⟨s, x.procesos⟩

/-- The scheduler reads a request and handles it. -/
def atender (env : Entorno E) (basura : ℕ → UInt8) (x : Sistema E) (pid : Pid) (m : Momento) :
    Except Falla (Sistema E) := do
  let p ← orFail .espera (x.procesos pid)
  let (q, ida) ← orFail .espera (leerPedido.run p.ida)
  match q with
  | none => return ⟨x.estado, update x.procesos pid (some { p with ida := ida })⟩
  | some q => manejar env basura x pid { p with ida := ida } (q.evento pid m)

def paso (env : Entorno E) (basura : ℕ → UInt8) (x : Sistema E) : Suceso → Except Falla (Sistema E)
  | .inicia pid => x.mover pid (Proceso.hilolayInit basura)
  | .llama pid l => x.mover pid fun p => p.llamar basura l
  | .pide pid => x.mover pid (Proceso.pedir basura)
  | .recibe pid => x.mover pid Proceso.recibir
  | .termina pid => x.mover pid Proceso.terminar
  | .conecta pid =>
      if (x.procesos pid).isNone then do
        let s ← Suse.paso env x.estado (.conectar pid)
        return ⟨s, update x.procesos pid (some .nuevo)⟩
      else .error .espera
  | .atiende pid m => atender env basura x pid m
  | .despierta pid reloj => do
      let p ← orFail .espera (x.procesos pid)
      manejar env basura x pid p (.despertar pid reloj)
  | .desconecta pid => do
      let p ← orFail .espera (x.procesos pid)
      -- a read answers 0 when the program has closed its end and nothing is left in it
      if p.etapa = .terminado ∧ p.ida = [] then
        let s ← Suse.paso env x.estado (.desconectar pid)
        return ⟨s, update x.procesos pid none⟩
      else .error .espera
  | .toma => x.propio env .tomar
  | .admite ahora => x.propio env (.admitir ahora)
  | .mide ahora => x.propio env (.metricas ahora)

def Transicion (env : Entorno E) (basura : ℕ → UInt8) (x : Sistema E) (e : Suceso)
    (x' : Sistema E) : Prop :=
  x.paso env basura e = .ok x'

/-- What a step is for the scheduler; the programs move on their own. -/
def mostrado (y : Step (Sistema E) Suceso) : Option Evento :=
  match y.label with
  | .conecta pid => some (.conectar pid)
  | .atiende pid m => do
      let p ← y.pre.procesos pid
      let (q, _) ← leerPedido.run p.ida
      q.map (Pedido.evento pid m)
  | .despierta pid reloj => some (.despertar pid reloj)
  | .desconecta pid => some (.desconectar pid)
  | .toma => some .tomar
  | .admite ahora => some (.admitir ahora)
  | .mide ahora => some (.metricas ahora)
  | _ => none

/-- A connection gets a descriptor of which no place of the scheduler holds a thread. -/
def ConexionLimpia (y : Step (Sistema E) Suceso) : Prop :=
  match y.label with
  | .conecta pid => ∀ l : Lugar, ∀ x ∈ contenido y.pre.estado l, ¬ esHiloDe y.pre.estado pid x
  | _ => True

end Sistema

/-! ## Requests that the scheduler has not read -/

/-- What the scheduler knows of a library after a request, if it does not answer at once. -/
def tras (c : Cliente) (q : Pedido) : Cliente := c.sigue none (q.evento 0 ⟨(0, 0), fun _ => 0⟩)

/-- The library may send the request. -/
def Admite (c : Cliente) (q : Pedido) : Prop := c.Admite (q.evento 0 ⟨(0, 0), fun _ => 0⟩)

/-- Each request is one that the library may send after the ones before it. -/
inductive Encola : Cliente → List Pedido → Cliente → Prop
  | nil (c : Cliente) : Encola c [] c
  | cons {c d : Cliente} {q : Pedido} {qs : List Pedido} :
      Admite c q → Encola (tras c q) qs d → Encola c (q :: qs) d

theorem admite_evento {c : Cliente} {q : Pedido} (pid : Pid) (m : Momento) :
    c.Admite (q.evento pid m) ↔ Admite c q := by
  cases q <;> exact Iff.rfl

theorem sigue_evento {c : Cliente} {q : Pedido} (pid : Pid) (m : Momento) :
    c.sigue none (q.evento pid m) = tras c q := by
  cases q <;> rfl

theorem Encola.snoc {c d : Cliente} {qs : List Pedido} {q : Pedido} (h : Encola c qs d)
    (hq : Admite d q) : Encola c (qs ++ [q]) (tras d q) := by
  induction h with
  | nil c => exact .cons hq (.nil _)
  | cons hadm _ ih => exact .cons hadm (ih hq)

/-- A library that waits for an answer sends nothing. -/
theorem Encola.eq_nil {c d : Cliente} {qs : List Pedido} (h : Encola c qs d)
    (hc : c.turno = .esperando) : qs = [] ∧ c = d := by
  cases h with
  | nil => exact ⟨rfl, rfl⟩
  | @cons _ _ q _ hadm _ =>
      exfalso
      have hcorre : ∀ tid, c.turno ≠ .corriendo tid := by simp [hc]
      cases q with
      | create tid =>
          rcases hadm with ⟨hturno, -⟩ | ⟨⟨tid', hc'⟩, -⟩
          · rw [hc] at hturno
            cases hturno
          · exact hcorre tid' hc'
      | scheduleNext =>
          rcases hadm with ⟨tid', hc'⟩ | hturno
          · exact hcorre tid' hc'
          · rw [hc] at hturno
            cases hturno
      | wait tid semID => exact hcorre tid hadm
      | signal tid semID => exact hcorre tid hadm
      | join tid =>
          obtain ⟨tid', hc'⟩ := hadm
          exact hcorre tid' hc'
      | close tid => exact hcorre tid hadm

/-- The requests give ids, and take none back. -/
theorem Encola.nextId_le {c d : Cliente} {qs : List Pedido} (h : Encola c qs d) :
    c.nextId ≤ d.nextId := by
  induction h with
  | nil c => exact le_refl _
  | @cons c d q qs hadm _ ih =>
      cases q with
      | create nuevo =>
          by_cases hturno : c.turno = .iniciando
          · have htras : tras c (.create nuevo) = { c with turno := .corriendo nuevo } :=
              if_pos hturno
            rw [htras] at ih
            exact ih
          · have htras : tras c (.create nuevo) = { c with nextId := c.nextId + 1 } := if_neg hturno
            rw [htras] at ih
            exact le_trans (le_of_lt (Int.lt_succ c.nextId)) ih
      | _ => exact ih

/-- After any request the scheduler knows the main thread. -/
theorem tras_ne_iniciando {c : Cliente} (q : Pedido) : (tras c q).turno ≠ .iniciando := by
  cases q with
  | create nuevo =>
      by_cases hturno : c.turno = .iniciando
      · have htras : tras c (.create nuevo) = { c with turno := .corriendo nuevo } := if_pos hturno
        rw [htras]
        simp
      · have htras : tras c (.create nuevo) = { c with nextId := c.nextId + 1 } := if_neg hturno
        rw [htras]
        exact hturno
  | _ => exact fun h => by cases h

theorem Encola.ne_iniciando {c d : Cliente} {qs : List Pedido} (h : Encola c qs d)
    (hc : c.turno ≠ .iniciando) : d.turno ≠ .iniciando := by
  induction h with
  | nil c => exact hc
  | cons _ _ ih => exact ih (tras_ne_iniciando _)

/-- A library that has not started has sent nothing. -/
theorem Encola.de_iniciando {c d : Cliente} {qs : List Pedido} (h : Encola c qs d)
    (hd : d.turno = .iniciando) : qs = [] ∧ c = d := by
  cases h with
  | nil => exact ⟨rfl, rfl⟩
  | cons _ henc => exact absurd hd (henc.ne_iniciando (tras_ne_iniciando _))

/-- While a ULT runs the program has sent creations only, and the scheduler knows that the ULT runs,
or does not know the main thread yet. -/
theorem Encola.de_corriendo {c d : Cliente} {qs : List Pedido} {tid : Tid} (h : Encola c qs d)
    (hd : d.turno = .corriendo tid) :
    (∀ q ∈ qs, ∃ nuevo, q = .create nuevo) ∧ (c.turno = .iniciando ∨ c.corre tid) := by
  induction h with
  | nil c => exact ⟨by simp, .inr hd⟩
  | @cons c d q qs hadm _ ih =>
      obtain ⟨hcreados, hturno⟩ := ih hd
      have hno : (tras c q).turno ≠ .iniciando → (tras c q).turno ≠ .corriendo tid → False := by
        intro hini hcorre
        rcases hturno with h | h
        · exact hini h
        · exact hcorre h
      cases q with
      | create nuevo =>
          refine ⟨fun q hq => ?_, ?_⟩
          · rcases List.mem_cons.1 hq with rfl | hq
            · exact ⟨nuevo, rfl⟩
            · exact hcreados q hq
          · by_cases hini : c.turno = .iniciando
            · exact .inl hini
            · have htras : tras c (.create nuevo) = { c with nextId := c.nextId + 1 } := if_neg hini
              rw [htras] at hturno
              exact hturno
      | scheduleNext => exact (hno (fun h => by cases h) fun h => by cases h).elim
      | wait t semID => exact (hno (fun h => by cases h) fun h => by cases h).elim
      | signal t semID => exact (hno (fun h => by cases h) fun h => by cases h).elim
      | join t => exact (hno (fun h => by cases h) fun h => by cases h).elim
      | close t => exact (hno (fun h => by cases h) fun h => by cases h).elim

/-- The state of a program whose requests in the connection bring the scheduler to know `d`. -/
inductive Refleja : Proceso → List Pedido → Cliente → Prop
  | iniciando {qs : List Pedido} :
      Refleja ⟨.enCero, .iniciando, qs.flatMap Pedido.bytes, []⟩ qs .inicial
  | corriendo {n c : ℕ} {qs : List Pedido} : c < n → n ≤ maxUlts →
      Refleja ⟨.de n c, .corriendo, qs.flatMap Pedido.bytes, []⟩ qs ⟨.corriendo c, n⟩
  | cediendo {n c : ℕ} {qs : List Pedido} {d : Cliente} {etapa : Etapa} :
      etapa = .cediendo ∨ etapa = .terminado → c < n → n ≤ maxUlts → d.turno ≠ .iniciando →
      d.turno ≠ .esperando → d.nextId = n →
      Refleja ⟨.de n c, etapa, qs.flatMap Pedido.bytes, []⟩ qs d
  | esperando {n c : ℕ} {qs : List Pedido} : c < n → n ≤ maxUlts →
      Refleja ⟨.de n c, .esperando, qs.flatMap Pedido.bytes, []⟩ qs ⟨.esperando, n⟩
  | contestado {n c t : ℕ} : c < n → n ≤ maxUlts → t < n →
      Refleja ⟨.de n c, .esperando, [], intBytes t⟩ [] ⟨.corriendo t, n⟩

/-- The ULT that runs for the scheduler is the one that runs, while no answer is on its way. -/
structure EnTurno (p : Proceso) (c : Cliente) : Prop where
  corre : ∀ tid, c.corre tid → p.vuelta = [] → p.biblioteca.hilolayGetTid = some tid
  inicia : c.turno = .iniciando → p.etapa ≠ .iniciando →
    p.biblioteca.hilolayGetTid = some mainThreadId

/-- The scheduler knows `c` of the program, which may be ahead of it. -/
structure Conoce (p : Proceso) (c : Cliente) : Prop where
  pedidos : ∃ qs d, (∀ q ∈ qs, q.Cabe) ∧ Encola c qs d ∧ Refleja p qs d
  enTurno : EnTurno p c

/-- The same ULT goes on. -/
theorem EnTurno.sigue {p p' : Proceso} {c : Cliente} (h : EnTurno p c)
    (hget : p'.biblioteca.hilolayGetTid = p.biblioteca.hilolayGetTid)
    (hvuelta : p'.vuelta = p.vuelta) (hetapa : p.etapa ≠ .iniciando) : EnTurno p' c where
  corre := by
    rw [hget, hvuelta]
    exact h.corre
  inicia hc _ := by
    rw [hget]
    exact h.inicia hc hetapa

/-! ### Steps of a program -/

section Pasos

variable {p p' : Proceso} {c : Cliente}

theorem enviar_ok {b : Biblioteca} {etapa : Etapa} {q : Pedido}
    (h : p.enviar basura b etapa q = .ok p') : p' = ⟨b, etapa, p.ida ++ q.bytes, p.vuelta⟩ := by
  rw [Proceso.enviar, q.envio_eq] at h
  cases h
  rfl

theorem flatMap_bytes_snoc (qs : List Pedido) (q : Pedido) :
    qs.flatMap Pedido.bytes ++ q.bytes = (qs ++ [q]).flatMap Pedido.bytes := by
  rw [List.flatMap_append, List.flatMap_singleton]

/-- An id of the table is an `int`. -/
theorem fitsInt_of_le {i : ℕ} (h : i ≤ maxUlts) : FitsInt (i : ℤ) := by
  have hmax : maxUlts = 5000 := rfl
  constructor <;> omega

/-- A program sends a request that it may send. -/
theorem Conoce.envia {qs : List Pedido} {q : Pedido} {d : Cliente} (hcabe : ∀ q ∈ qs, q.Cabe)
    (hq : q.Cabe) (henc : Encola c qs d) (hadm : Admite d q)
    (hrefleja : Refleja p' (qs ++ [q]) (tras d q)) (hturno : EnTurno p' c) : Conoce p' c := by
  refine ⟨⟨qs ++ [q], tras d q, fun r hr => ?_, henc.snoc hadm, hrefleja⟩, hturno⟩
  rcases List.mem_append.1 hr with hr | hr
  · exact hcabe r hr
  · rw [List.mem_singleton] at hr
    rw [hr]
    exact hq

theorem Conoce.hilolayInit (h : Conoce p c) (hs : p.hilolayInit basura = .ok p') :
    Conoce p' c := by
  obtain ⟨⟨qs, d, hcabe, henc, hrefleja⟩, -⟩ := h
  rw [Proceso.hilolayInit] at hs
  split_ifs at hs with hetapa
  cases hrefleja with
  | iniciando =>
      rw [Biblioteca.initInternal_enCero, Biblioteca.hilolayGetTid_de one_pos (by decide)] at hs
      have hp' := enviar_ok (q := .create (0 : ℕ)) hs
      rw [hp']
      refine Conoce.envia (q := .create (0 : ℕ)) hcabe (fitsInt_of_le (Nat.zero_le _)) henc
        (.inl ⟨rfl, rfl⟩) ?_ ?_
      · rw [flatMap_bytes_snoc]
        exact .corriendo one_pos (by decide)
      · obtain ⟨-, rfl⟩ := henc.de_iniciando rfl
        exact
          { corre := fun tid hc => by cases hc
            inicia := fun _ _ => Biblioteca.hilolayGetTid_de one_pos (by decide) }
  | cediendo h => rcases h with rfl | rfl <;> cases hetapa
  | _ => cases hetapa

/-- The running ULT sends a request after which it asks for the next one, or ends. -/
theorem Conoce.cede {n c₀ : ℕ} {qs : List Pedido} {q : Pedido} {etapa : Etapa}
    (hcabe : ∀ q ∈ qs, q.Cabe) (henc : Encola c qs ⟨.corriendo c₀, n⟩) (hc : c₀ < n)
    (hn : n ≤ maxUlts) (hq : q.Cabe) (hadm : Admite ⟨.corriendo c₀, n⟩ q)
    (htras : tras ⟨.corriendo c₀, n⟩ q = ⟨.cediendo, n⟩)
    (hetapa : etapa = .cediendo ∨ etapa = .terminado)
    (hturno : EnTurno ⟨.de n c₀, .corriendo, qs.flatMap Pedido.bytes, []⟩ c)
    (hs : Proceso.enviar basura ⟨.de n c₀, .corriendo, qs.flatMap Pedido.bytes, []⟩ (.de n c₀)
      etapa q = .ok p') : Conoce p' c := by
  rw [enviar_ok hs]
  refine Conoce.envia hcabe hq henc hadm ?_ (hturno.sigue rfl rfl (by simp))
  rw [flatMap_bytes_snoc, htras]
  exact .cediendo hetapa hc hn (by simp) (by simp) rfl

theorem Conoce.llamar {l : Llamada} (h : Conoce p c) (hs : p.llamar basura l = .ok p') :
    Conoce p' c := by
  obtain ⟨⟨qs, d, hcabe, henc, hrefleja⟩, hturno⟩ := h
  rw [Proceso.llamar] at hs
  split_ifs at hs with hetapa
  cases hrefleja with
  | @corriendo n c₀ _ hc hn =>
      obtain ⟨tid, hget, hs⟩ := bind_eq_ok.1 hs
      rw [orFail_eq_ok, Biblioteca.hilolayGetTid_de hc hn] at hget
      cases hget
      have htid : FitsInt (c₀ : ℤ) := fitsInt_of_le (by omega)
      have hcorre : Cliente.corre ⟨.corriendo c₀, n⟩ c₀ := rfl
      cases l with
      | create =>
          rcases Nat.lt_or_ge n maxUlts with hlt | hge
          · have hs' : Proceso.enviar basura ⟨.de n c₀, .corriendo, qs.flatMap Pedido.bytes, []⟩
                (.de (n + 1) c₀) .corriendo (.create (n : Tid)) = .ok p' := by
              simpa only [Biblioteca.hilolayCreate_de hc hlt] using hs
            rw [enviar_ok hs']
            refine Conoce.envia (q := .create (n : Tid)) hcabe (fitsInt_of_le hn) henc
              (.inr ⟨⟨c₀, rfl⟩, rfl⟩) ?_ (hturno.sigue ?_ rfl (by simp))
            swap
            · rw [Biblioteca.hilolayGetTid_de (by omega) hlt, Biblioteca.hilolayGetTid_de hc hn]
            have htras : tras ⟨.corriendo c₀, n⟩ (.create (n : Tid)) =
                ⟨.corriendo c₀, ((n + 1 : ℕ) : ℤ)⟩ := by
              rw [Nat.cast_succ]
              rfl
            rw [flatMap_bytes_snoc, htras]
            exact .corriendo (by omega) hlt
          · have hs' : (pure ⟨.de n c₀, .corriendo, qs.flatMap Pedido.bytes, []⟩ :
                Except Falla Proceso) = .ok p' := by
              simpa only [Biblioteca.hilolayCreate_de_of_le hge] using hs
            rw [← pure_eq_ok.1 hs']
            exact ⟨⟨qs, _, hcabe, henc, .corriendo hc hn⟩, hturno⟩
      | yield =>
          rw [← pure_eq_ok.1 hs]
          exact ⟨⟨qs, _, hcabe, henc, .cediendo (.inl rfl) hc hn (by simp) (by simp) rfl⟩,
            hturno.sigue rfl rfl (by simp)⟩
      | join thread =>
          exact Conoce.cede (q := .join thread.1) hcabe henc hc hn thread.2 ⟨c₀, rfl⟩ rfl
            (.inl rfl) hturno hs
      | wait sem =>
          exact Conoce.cede (q := .wait c₀ sem.1) hcabe henc hc hn ⟨htid, sem.2⟩ hcorre rfl
            (.inl rfl) hturno hs
      | signal sem =>
          exact Conoce.cede (q := .signal c₀ sem.1) hcabe henc hc hn ⟨htid, sem.2⟩ hcorre rfl
            (.inl rfl) hturno hs
      | salir =>
          exact Conoce.cede (q := .close c₀) hcabe henc hc hn htid hcorre rfl (.inl rfl)
            hturno hs
      | retornar =>
          exact Conoce.cede (q := .close c₀) hcabe henc hc hn htid hcorre rfl (.inr rfl)
            hturno hs
  | cediendo h => rcases h with rfl | rfl <;> cases hetapa
  | _ => cases hetapa

theorem Conoce.pedir (h : Conoce p c) (hs : p.pedir basura = .ok p') : Conoce p' c := by
  obtain ⟨⟨qs, d, hcabe, henc, hrefleja⟩, hturno⟩ := h
  rw [Proceso.pedir] at hs
  split_ifs at hs with hetapa
  cases hrefleja with
  | @cediendo n c₀ _ _ _ _ hc hn hini hesp hnext =>
      rw [enviar_ok hs]
      have hadm : Admite d .scheduleNext := by
        cases hturno : d.turno with
        | iniciando => exact absurd hturno hini
        | esperando => exact absurd hturno hesp
        | corriendo tid => exact .inl ⟨tid, hturno⟩
        | cediendo => exact .inr hturno
      refine Conoce.envia (q := .scheduleNext) hcabe trivial henc hadm ?_
        (hturno.sigue rfl rfl (by rw [hetapa]; simp))
      have htras : tras d .scheduleNext = ⟨.esperando, n⟩ := by
        rw [← hnext]
        rfl
      rw [flatMap_bytes_snoc, htras]
      exact .esperando hc hn
  | _ => cases hetapa

/-- There is an answer to read. -/
theorem recibir_espera (hs : p.recibir = .ok p') : p.etapa = .esperando ∧ p.vuelta ≠ [] := by
  have hetapa : p.etapa = .esperando := by
    by_contra hno
    rw [Proceso.recibir, if_neg hno] at hs
    cases hs
  refine ⟨hetapa, fun hvacia => ?_⟩
  rw [Proceso.recibir, if_pos hetapa, hvacia] at hs
  cases hs

/-- What the answer to `schedule_next` is when it can be read. -/
theorem Conoce.recibir_ok (h : Conoce p c) (hetapa : p.etapa = .esperando)
    (hvuelta : p.vuelta ≠ []) : ∃ n c₀ t : ℕ, c₀ < n ∧ n ≤ maxUlts ∧ t < n ∧
      p = ⟨.de n c₀, .esperando, [], intBytes t⟩ ∧ c = ⟨.corriendo t, n⟩ ∧
        p.recibir = .ok ⟨.de n t, .corriendo, [], []⟩ := by
  obtain ⟨⟨qs, d, hcabe, henc, hrefleja⟩, -⟩ := h
  cases hrefleja with
  | @contestado n c₀ t hc hn ht =>
      have hleido : readInt.run (intBytes (t : ℤ)) = some ((t : ℤ), []) :=
        (reads_readInt (fitsInt_of_le (by omega))).run_self
      cases henc
      refine ⟨n, c₀, t, hc, hn, ht, rfl, rfl, ?_⟩
      rw [Proceso.recibir, if_pos rfl]
      simp only [hleido, Biblioteca.getNextTid_de ht hn]
      rw [← Biblioteca.swapContext_de hc ht]
      rfl
  | cediendo h => rcases h with rfl | rfl <;> cases hetapa
  | esperando => exact absurd rfl hvuelta
  | _ => cases hetapa

theorem Conoce.recibir (h : Conoce p c) (hs : p.recibir = .ok p') : Conoce p' c := by
  obtain ⟨hetapa, hvuelta⟩ := recibir_espera hs
  obtain ⟨n, c₀, t, hc, hn, ht, -, rfl, hrecibir⟩ := h.recibir_ok hetapa hvuelta
  have hget := Biblioteca.hilolayGetTid_de ht hn
  have hcorre : Refleja ⟨.de n t, .corriendo, ([] : List Pedido).flatMap Pedido.bytes, []⟩ []
      ⟨.corriendo t, n⟩ := .corriendo ht hn
  rw [← Except.ok.inj (hrecibir.symm.trans hs)]
  exact ⟨⟨[], _, by simp, .nil _, hcorre⟩,
    { corre := fun tid htid _ => hget.trans (by cases htid; rfl)
      inicia := fun hc => by cases hc }⟩

theorem Conoce.terminar (h : Conoce p c) (hs : p.terminar = .ok p') : Conoce p' c := by
  obtain ⟨⟨qs, d, hcabe, henc, hrefleja⟩, hturno⟩ := h
  rw [Proceso.terminar] at hs
  split_ifs at hs with hetapa
  rw [← pure_eq_ok.1 hs]
  cases hrefleja with
  | corriendo hc hn =>
      exact ⟨⟨qs, _, hcabe, henc, .cediendo (.inr rfl) hc hn (by simp) (by simp) rfl⟩,
        hturno.sigue rfl rfl (by simp)⟩
  | cediendo h => rcases h with rfl | rfl <;> cases hetapa
  | _ => cases hetapa

end Pasos

/-! ### The scheduler reads a request -/

section Atender

variable {p : Proceso} {c : Cliente} {pid : Pid}

theorem run_leerPedido_nil : leerPedido.run [] = none := rfl

/-- What the scheduler reads is the next request that the library has sent. -/
theorem Conoce.lee (h : Conoce p c) {q : Option Pedido} {ida : List UInt8}
    (hleer : leerPedido.run p.ida = some (q, ida)) :
    ∃ r qs d, q = some r ∧ ida = qs.flatMap Pedido.bytes ∧ Admite c r ∧ (∀ q ∈ qs, q.Cabe) ∧
      Encola (tras c r) qs d ∧ Refleja p (r :: qs) d := by
  obtain ⟨⟨qs, d, hcabe, henc, hrefleja⟩, -⟩ := h
  have hida : p.ida = qs.flatMap Pedido.bytes := by cases hrefleja <;> rfl
  cases henc with
  | nil =>
      rw [hida, List.flatMap_nil, run_leerPedido_nil] at hleer
      cases hleer
  | @cons _ _ r qs hadm henc =>
      rw [hida, List.flatMap_cons, reads_leerPedido (hcabe r List.mem_cons_self)] at hleer
      cases hleer
      exact ⟨r, qs, d, rfl, rfl, hadm, fun q hq => hcabe q (List.mem_cons_of_mem r hq), henc,
        hrefleja⟩

/-- The request has been read. -/
theorem Refleja.sin {r : Pedido} {qs : List Pedido} {d : Cliente} (h : Refleja p (r :: qs) d) :
    Refleja { p with ida := qs.flatMap Pedido.bytes } qs d := by
  cases h with
  | iniciando => exact .iniciando
  | corriendo hc hn => exact .corriendo hc hn
  | cediendo he hc hn hini hesp hnext => exact .cediendo he hc hn hini hesp hnext
  | esperando hc hn => exact .esperando hc hn

/-- Only `schedule_next` is answered. -/
theorem respuesta_evento_of_ne (env : Entorno E) (s : Estado E) {q : Pedido}
    (hq : q ≠ .scheduleNext) (pid : Pid) (m : Momento) :
    respuesta env s (q.evento pid m) = none := by
  cases q with
  | scheduleNext => exact absurd rfl hq
  | _ => rfl

/-- The answer is on its way. -/
theorem Conoce.contestado {n i t : ℕ} (hi : i < n) (hn : n ≤ maxUlts) (ht : t < n) :
    Conoce ⟨.de n i, .esperando, [], intBytes t⟩ ⟨.corriendo t, n⟩ where
  pedidos := ⟨[], _, by simp, .nil _, .contestado hi hn ht⟩
  enTurno :=
    { corre := fun _ _ hvuelta => absurd hvuelta (intBytes_ne_nil _)
      inicia := fun hc => by cases hc }

theorem Refleja.ne_iniciando {qs : List Pedido} {d : Cliente} (h : Refleja p qs d)
    (hd : d.turno ≠ .iniciando) : p.etapa ≠ .iniciando := by
  cases h with
  | iniciando => exact absurd rfl hd
  | cediendo he => rcases he with rfl | rfl <;> simp
  | _ => simp

/-- The scheduler handles the request of the ULT that runs. -/
theorem EnTurno.tras {r : Pedido} (h : EnTurno p c) (hadm : Admite c r)
    (hetapa : p.etapa ≠ .iniciando) (ida : List UInt8) :
    EnTurno { p with ida := ida } (tras c r) where
  inicia hc := absurd hc (tras_ne_iniciando r)
  corre tid htid hvuelta := by
    cases r with
    | create nuevo =>
        rcases hadm with ⟨hturno, rfl⟩ | ⟨⟨tid', hcorre⟩, -⟩
        · have htras : Hilolay.tras c (.create mainThreadId) =
              { c with turno := .corriendo mainThreadId } := if_pos hturno
          rw [htras] at htid
          rw [h.inicia hturno hetapa, ← Turno.corriendo.inj htid]
        · have htras : Hilolay.tras c (.create nuevo) = { c with nextId := c.nextId + 1 } := by
            refine if_neg ?_
            rw [hcorre]
            simp
          rw [htras] at htid
          exact h.corre tid htid hvuelta
    | _ => cases htid

/-- The program after the scheduler has handled its request, when the answer is of a thread that the
library has created. -/
theorem Conoce.atendido {r : Pedido} {qs : List Pedido} {d : Cliente} {respuesta : Option Tid}
    {bytes : List UInt8} (hturno : EnTurno p c) (hadm : Admite c r) (hcabe : ∀ q ∈ qs, q.Cabe)
    (henc : Encola (tras c r) qs d) (hrefleja : Refleja p (r :: qs) d) (m : Momento)
    (hnada : r ≠ .scheduleNext → respuesta = none)
    (hcreado : ∀ t, respuesta = some t → 0 ≤ t ∧ t < c.nextId)
    (hbytes : responder basura respuesta = some bytes) :
    Conoce { p with ida := qs.flatMap Pedido.bytes, vuelta := p.vuelta ++ bytes }
      (c.sigue respuesta (r.evento pid m)) := by
  cases respuesta with
  | none =>
      cases hbytes
      rw [List.append_nil, sigue_evento]
      have hetapa := hrefleja.ne_iniciando (henc.ne_iniciando (tras_ne_iniciando r))
      exact ⟨⟨qs, d, hcabe, henc, hrefleja.sin⟩, hturno.tras hadm hetapa _⟩
  | some t =>
      obtain rfl : r = .scheduleNext := by
        by_contra hr
        cases hnada hr
      obtain ⟨hcero, hlt⟩ := hcreado t rfl
      rw [responder_some, Option.some.injEq] at hbytes
      subst hbytes
      -- nothing is sent while the library waits
      obtain ⟨rfl, rfl⟩ := henc.eq_nil rfl
      obtain ⟨i, rfl⟩ := Int.eq_ofNat_of_zero_le hcero
      obtain ⟨turno, nextId⟩ := c
      have hespera : Refleja p [.scheduleNext] ⟨.esperando, nextId⟩ := hrefleja
      cases hespera with
      | @esperando n c₀ _ hc hn => exact .contestado hc hn (Int.ofNat_lt.1 hlt)
      | cediendo _ _ _ _ hesp => exact absurd rfl hesp

end Atender

/-! ## The refinement -/

/-- The scheduler is in the state of `c`, and knows of each program what `c` has of its library. -/
structure Refina (x : Sistema E) (c : Conectados E) : Prop where
  estado : x.estado = c.estado
  atendidos : Atendidos c
  censados : Censados c
  conoce : ∀ pid, Option.Rel Conoce (x.procesos pid) (c.clientes pid)

section Refinamiento

variable {x x' : Sistema E} {c c' : Conectados E} {pid : Pid} {p p' : Proceso} {e : Evento}
  {s : Estado E}

theorem paso_conectados (hadm : c.Admite e) (hs : Suse.paso env c.estado e = .ok s) :
    Conectados.Transicion env c e ⟨s, c.clientesTras env e⟩ := by
  rw [Conectados.Transicion, Conectados.paso, if_pos hadm, hs]
  rfl

/-- An answer names a thread of the program. -/
theorem existeHilo_respuesta {S : Set Puntero} {t : Tid} {s' : Estado E} (hC : Coherente s S)
    (hs : Suse.paso env s e = .ok s') (hr : respuesta env s e = some t)
    (hpid : e.programa = some pid) : ExisteHilo s' pid t := by
  cases e with
  | scheduleNext pid' reloj =>
      cases hpid
      obtain ⟨r, hs⟩ := paso_scheduleNext hs
      rw [respuesta_scheduleNext env hs] at hr
      obtain ⟨y, -, hid⟩ := (siguienteAEjecutar_elige hC hs).1.contesta t hr
      exact ⟨y, hid⟩
  | despertar pid' reloj =>
      cases hpid
      obtain ⟨r, hs⟩ := paso_despertar hs
      rw [respuesta_despertar env hs] at hr
      obtain ⟨y, -, hid⟩ := (calcularSiguienteHiloDespierto_elige hC hs).1.contesta t hr
      exact ⟨y, hid⟩
  | _ => cases hr

namespace Refina

/-- A program and what is known of its library. -/
theorem cliente (h : Refina x c) (hp : x.procesos pid = some p) :
    ∃ cl, c.clientes pid = some cl ∧ Conoce p cl := by
  have hrel := h.conoce pid
  rw [hp] at hrel
  cases hcl : c.clientes pid with
  | none =>
      rw [hcl] at hrel
      cases hrel
  | some cl =>
      rw [hcl] at hrel
      cases hrel with
      | some hconoce => exact ⟨cl, rfl, hconoce⟩

/-- A program moves on its own. -/
theorem mover {f : Proceso → Except Falla Proceso}
    (hf : ∀ p p' cl, Conoce p cl → f p = .ok p' → Conoce p' cl) (h : Refina x c)
    (hs : x.mover pid f = .ok x') : Refina x' c := by
  obtain ⟨p, hp, hs⟩ := bind_eq_ok.1 hs
  obtain ⟨p', hp', hs⟩ := bind_eq_ok.1 hs
  rw [orFail_eq_ok] at hp
  obtain ⟨cl, hcl, hconoce⟩ := h.cliente hp
  rw [← pure_eq_ok.1 hs]
  refine ⟨h.estado, h.atendidos, h.censados, fun pid' => ?_⟩
  change Option.Rel Conoce (update x.procesos pid (some p') pid') _
  by_cases hpid : pid' = pid
  · subst hpid
    rw [hcl, update_self]
    exact .some (hf p p' cl hconoce hp')
  · rw [update_of_ne hpid]
    exact h.conoce pid'

/-- A step of the scheduler is one of `Conectados`. -/
theorem paso (h : Refina x c) (hadm : c.Admite e) (hs : Suse.paso env x.estado e = .ok s)
    (hlimpia : Suse.ConexionLimpia ⟨c, e, ⟨s, c.clientesTras env e⟩⟩) :
    Conectados.Transicion env c e ⟨s, c.clientesTras env e⟩ ∧
      Atendidos (⟨s, c.clientesTras env e⟩ : Conectados E) ∧
        Censados (⟨s, c.clientesTras env e⟩ : Conectados E) := by
  rw [h.estado] at hs
  have htrans := paso_conectados hadm hs
  exact ⟨htrans, h.atendidos.paso hlimpia htrans, h.censados.paso h.atendidos hlimpia htrans⟩

/-- The programs after a handler of one of them. -/
theorem conoce_update {cl : Cliente} (h : Refina x c) (hconoce : Conoce p' cl) (pid' : Pid) :
    Option.Rel Conoce (update x.procesos pid (some p') pid')
      (update c.clientes pid (some cl) pid') := by
  by_cases hpid : pid' = pid
  · subst hpid
    rw [update_self, update_self]
    exact .some hconoce
  · rw [update_of_ne hpid, update_of_ne hpid]
    exact h.conoce pid'

/-- The handler of a program whose request or awakening the library admits. -/
theorem manejar {q : Proceso} {cl : Cliente} (h : Refina x c)
    (hadm : c.Admite e) (hlimpia : ∀ c', Suse.ConexionLimpia ⟨c, e, c'⟩)
    (hprograma : e.programa = some pid)
    (hclientes : c.clientesTras env e =
      update c.clientes pid (some (cl.sigue (respuesta env c.estado e) e)))
    (hnext : ∀ t, respuesta env c.estado e = some t →
      (cl.sigue (respuesta env c.estado e) e).nextId = cl.nextId)
    (hconoce : ∀ bytes, responder basura (respuesta env c.estado e) = some bytes →
      (∀ t, respuesta env c.estado e = some t → 0 ≤ t ∧ t < cl.nextId) →
      Conoce { q with vuelta := q.vuelta ++ bytes } (cl.sigue (respuesta env c.estado e) e))
    (hs : Sistema.manejar env basura x pid q e = .ok x') :
    ∃ c', Conectados.Transicion env c e c' ∧ Refina x' c' := by
  obtain ⟨s, hs, hx⟩ := bind_eq_ok.1 hs
  obtain ⟨bytes, hbytes, hx⟩ := bind_eq_ok.1 hx
  rw [orFail_eq_ok, h.estado] at hbytes
  obtain ⟨htrans, hatendidos, hcensados⟩ := h.paso hadm hs (hlimpia _)
  refine ⟨_, htrans, ?_⟩
  rw [← pure_eq_ok.1 hx]
  refine ⟨rfl, hatendidos, hcensados, ?_⟩
  rw [hclientes]
  refine h.conoce_update (hconoce bytes hbytes fun t ht => ?_)
  -- the thread that is answered exists, so the library has created it
  obtain ⟨S, hC⟩ := h.atendidos.coherente
  rw [h.estado] at hs
  have hexiste := existeHilo_respuesta hC hs ht hprograma
  have hcl' : c.clientesTras env e pid = some (cl.sigue (respuesta env c.estado e) e) := by
    rw [hclientes, update_self]
  obtain ⟨-, hcero, hlt⟩ := (hcensados.ids pid _ hcl' t).1 hexiste
  rw [hnext t ht] at hlt
  exact ⟨hcero, hlt⟩

theorem atiende {m : Momento} (h : Refina x c)
    (hs : Sistema.atender env basura x pid m = .ok x') :
    ∃ e c', Sistema.mostrado ⟨x, .atiende pid m, x'⟩ = some e ∧
      Conectados.Transicion env c e c' ∧ Refina x' c' := by
  obtain ⟨p, hp, hs⟩ := bind_eq_ok.1 hs
  obtain ⟨⟨q, ida⟩, hleer, hs⟩ := bind_eq_ok.1 hs
  rw [orFail_eq_ok] at hp hleer
  obtain ⟨cl, hcl, hconoce⟩ := h.cliente hp
  obtain ⟨r, qs, d, rfl, rfl, hadm, hcabe, henc, hrefleja⟩ := hconoce.lee hleer
  have hmostrado : Sistema.mostrado ⟨x, .atiende pid m, x'⟩ = some (r.evento pid m) := by
    simp [Sistema.mostrado, hp, hleer]
  have hcladm : cl.Admite (r.evento pid m) := (admite_evento pid m).2 hadm
  have hcadm : c.Admite (r.evento pid m) := by
    cases r <;> exact fun pid' hpid' => by cases hpid'; exact ⟨cl, hcl, hcladm⟩
  have hclientes : c.clientesTras env (r.evento pid m) = update c.clientes pid
      (some (cl.sigue (respuesta env c.estado (r.evento pid m)) (r.evento pid m))) := by
    cases r <;> exact congrArg (update c.clientes pid) (by rw [hcl]; rfl)
  have hnext : ∀ t, respuesta env c.estado (r.evento pid m) = some t →
      (cl.sigue (respuesta env c.estado (r.evento pid m)) (r.evento pid m)).nextId = cl.nextId := by
    intro t ht
    cases r with
    | scheduleNext => exact cl.nextId_contestado _
    | _ => cases ht
  obtain ⟨c', htrans, hrefina⟩ := h.manejar hcadm (fun c' => by cases r <;> trivial)
    (by cases r <;> rfl) hclientes hnext
    (fun bytes hbytes hcreado => Conoce.atendido hconoce.enTurno hadm hcabe henc hrefleja m
      (fun hr => respuesta_evento_of_ne env c.estado hr pid m) hcreado hbytes) hs
  exact ⟨_, c', hmostrado, htrans, hrefina⟩

theorem despierta {reloj : ℕ → ℕ} (h : Refina x c)
    (hs : x.paso env basura (.despierta pid reloj) = .ok x') :
    ∃ c', Conectados.Transicion env c (.despertar pid reloj) c' ∧ Refina x' c' := by
  obtain ⟨p, hp, hs⟩ := bind_eq_ok.1 hs
  rw [orFail_eq_ok] at hp
  obtain ⟨cl, hcl, ⟨qs, d, hcabe, henc, hrefleja⟩, hturno'⟩ := h.cliente hp
  -- a call is parked, so the library waits and has sent nothing
  have hturno : cl.turno = .esperando := by
    obtain ⟨s, hpaso, -⟩ := bind_eq_ok.1 hs
    obtain ⟨r, hpaso⟩ := paso_despertar hpaso
    obtain ⟨q, candidato, resto, hilo, -, hmutex, -⟩ := calcularSiguienteHiloDespierto_ok hpaso
    rw [h.estado] at hmutex
    exact ((h.atendidos.cliente pid cl hcl).mutex hmutex).1
  obtain ⟨rfl, rfl⟩ := henc.eq_nil hturno
  refine h.manejar (fun pid' hpid' => ?_) (fun _ => trivial) rfl
    (congrArg (update c.clientes pid) (by rw [hcl]; rfl)) (fun t _ => cl.nextId_contestado _)
    (fun bytes hbytes hcreado => ?_) hs
  · cases hpid'
    exact ⟨cl, hcl, hturno⟩
  · obtain ⟨turno, nextId⟩ := cl
    obtain rfl : turno = .esperando := hturno
    cases hrefleja with
    | @esperando n c₀ _ hc hn =>
        cases hr : respuesta env c.estado (.despertar pid reloj) with
        | none =>
            rw [hr] at hbytes
            cases hbytes
            exact ⟨⟨[], _, by simp, .nil _, .esperando hc hn⟩, hturno'⟩
        | some t =>
            obtain ⟨hcero, hlt⟩ := hcreado t hr
            obtain ⟨i, rfl⟩ := Int.eq_ofNat_of_zero_le hcero
            rw [hr, responder_some, Option.some.injEq] at hbytes
            subst hbytes
            exact .contestado hc hn (Int.ofNat_lt.1 hlt)
    | cediendo _ _ _ _ hesp => exact absurd rfl hesp

theorem conecta (h : Refina x c)
    (hlimpia : Sistema.ConexionLimpia ⟨x, .conecta pid, x'⟩)
    (hs : x.paso env basura (.conecta pid) = .ok x') :
    ∃ c', Conectados.Transicion env c (.conectar pid) c' ∧ Refina x' c' := by
  rw [Sistema.paso] at hs
  split_ifs at hs with hnone
  obtain ⟨s, hs, hx⟩ := bind_eq_ok.1 hs
  have hcl : c.clientes pid = none := by
    have hrel := h.conoce pid
    rw [Option.isNone_iff_eq_none.1 hnone] at hrel
    cases hcl : c.clientes pid with
    | none => rfl
    | some cl =>
        rw [hcl] at hrel
        cases hrel
  have hlimpia' : Suse.ConexionLimpia
      ⟨c, .conectar pid, ⟨s, c.clientesTras env (.conectar pid)⟩⟩ := by
    intro l y hy
    have hlibre := hlimpia l y
    rw [h.estado] at hlibre
    exact hlibre hy
  have hnuevo : Refleja ⟨.enCero, .iniciando, ([] : List Pedido).flatMap Pedido.bytes, []⟩ []
      .inicial := .iniciando
  obtain ⟨htrans, hatendidos, hcensados⟩ :=
    h.paso (show c.Admite (.conectar pid) from hcl) hs hlimpia'
  refine ⟨_, htrans, ?_⟩
  rw [← pure_eq_ok.1 hx]
  refine ⟨rfl, hatendidos, hcensados, h.conoce_update ⟨⟨[], _, by simp, .nil _, hnuevo⟩, ?_⟩⟩
  exact
    { corre := fun tid hc => by cases hc
      inicia := fun _ he => absurd rfl he }

theorem desconecta (h : Refina x c) (hs : x.paso env basura (.desconecta pid) = .ok x') :
    ∃ c', Conectados.Transicion env c (.desconectar pid) c' ∧ Refina x' c' := by
  obtain ⟨p, hp, hs⟩ := bind_eq_ok.1 hs
  rw [orFail_eq_ok] at hp
  split_ifs at hs
  obtain ⟨s, hs, hx⟩ := bind_eq_ok.1 hs
  obtain ⟨cl, hcl, -⟩ := h.cliente hp
  have hadm : c.Admite (.desconectar pid) := fun pid' hpid' => by
    cases hpid'
    exact ⟨cl, hcl, trivial⟩
  obtain ⟨htrans, hatendidos, hcensados⟩ := h.paso hadm hs trivial
  refine ⟨_, htrans, ?_⟩
  rw [← pure_eq_ok.1 hx]
  refine ⟨rfl, hatendidos, hcensados, fun pid' => ?_⟩
  change Option.Rel Conoce (update x.procesos pid none pid') (update c.clientes pid none pid')
  by_cases hpid : pid' = pid
  · subst hpid
    rw [update_self, update_self]
    exact .none
  · rw [update_of_ne hpid, update_of_ne hpid]
    exact h.conoce pid'

theorem propio (h : Refina x c) (hadm : c.Admite e)
    (hlimpia : ∀ c', Suse.ConexionLimpia ⟨c, e, c'⟩) (hclientes : c.clientesTras env e = c.clientes)
    (hs : x.propio env e = .ok x') : ∃ c', Conectados.Transicion env c e c' ∧ Refina x' c' := by
  obtain ⟨s, hs, hx⟩ := bind_eq_ok.1 hs
  obtain ⟨htrans, hatendidos, hcensados⟩ := h.paso hadm hs (hlimpia _)
  refine ⟨_, htrans, ?_⟩
  rw [← pure_eq_ok.1 hx]
  exact ⟨rfl, hatendidos, hcensados, by rw [hclientes]; exact h.conoce⟩

/-- Each step is one of `Conectados`, or of a program alone. -/
theorem transicion {e : Suceso} (h : Refina x c)
    (hlimpia : Sistema.ConexionLimpia ⟨x, e, x'⟩) (hs : Sistema.Transicion env basura x e x') :
    (Sistema.mostrado ⟨x, e, x'⟩ = none ∧ Refina x' c) ∨
      ∃ e' c', Sistema.mostrado ⟨x, e, x'⟩ = some e' ∧ Conectados.Transicion env c e' c' ∧
        Refina x' c' := by
  cases e with
  | inicia pid => exact .inl ⟨rfl, h.mover (fun _ _ _ hc => hc.hilolayInit) hs⟩
  | llama pid l => exact .inl ⟨rfl, h.mover (fun _ _ _ hc => hc.llamar) hs⟩
  | pide pid => exact .inl ⟨rfl, h.mover (fun _ _ _ hc => hc.pedir) hs⟩
  | recibe pid => exact .inl ⟨rfl, h.mover (fun _ _ _ hc => hc.recibir) hs⟩
  | termina pid => exact .inl ⟨rfl, h.mover (fun _ _ _ hc => hc.terminar) hs⟩
  | conecta pid =>
      obtain ⟨c', htrans, hrefina⟩ := h.conecta hlimpia hs
      exact .inr ⟨_, c', rfl, htrans, hrefina⟩
  | atiende pid m => exact .inr (h.atiende hs)
  | despierta pid reloj =>
      obtain ⟨c', htrans, hrefina⟩ := h.despierta hs
      exact .inr ⟨_, c', rfl, htrans, hrefina⟩
  | desconecta pid =>
      obtain ⟨c', htrans, hrefina⟩ := h.desconecta hs
      exact .inr ⟨_, c', rfl, htrans, hrefina⟩
  | toma =>
      have hadm : c.Admite .tomar := fun _ hp => by cases hp
      obtain ⟨c', htrans, hrefina⟩ := h.propio hadm (fun _ => trivial) rfl hs
      exact .inr ⟨_, c', rfl, htrans, hrefina⟩
  | admite ahora =>
      have hadm : c.Admite (.admitir ahora) := fun _ hp => by cases hp
      obtain ⟨c', htrans, hrefina⟩ := h.propio hadm (fun _ => trivial) rfl hs
      exact .inr ⟨_, c', rfl, htrans, hrefina⟩
  | mide ahora =>
      have hadm : c.Admite (.metricas ahora) := fun _ hp => by cases hp
      obtain ⟨c', htrans, hrefina⟩ := h.propio hadm (fun _ => trivial) rfl hs
      exact .inr ⟨_, c', rfl, htrans, hrefina⟩

end Refina

theorem inicial_refina (cfg : Configuracion) :
    Refina (Sistema.inicial cfg : Sistema E) (Conectados.inicial cfg) :=
  ⟨rfl, iniciarSUSE_atendidos cfg, iniciarSUSE_censados cfg, fun _ => .none⟩

/-- The runs of the system are runs of `Conectados`, with the events of the scheduler. -/
theorem refina_of_run {cfg : Configuracion} {tr : List (Step (Sistema E) Suceso)} {x : Sistema E}
    (hrun : Run (Sistema.Transicion env basura) (.inicial cfg) tr x)
    (hlimpia : ∀ y ∈ tr, Sistema.ConexionLimpia y) :
    ∃ ctr c, Run (Conectados.Transicion env) (.inicial cfg) ctr c ∧
      ctr.map Step.label = tr.filterMap Sistema.mostrado ∧ Refina x c := by
  refine hrun.refine Refina Sistema.mostrado Sistema.ConexionLimpia (inicial_refina cfg) ?_ hlimpia
  intro x e x' c h hlimpia hs
  exact h.transicion hlimpia hs

end Refinamiento

end Hilolay
