import Linuse.Suse.Limpieza

/-!
# The programs that talk to the scheduler

A program sends what the hilolay library sends: it creates its main thread when
it connects, sends every request in the name of its running thread, and asks for
the next thread (`schedule_next`) after each wait, signal, join and close, and
whenever a thread yields. Between that request and its answer it sends nothing.
`Cliente` is what the library remembers, and `Conectados.paso` runs a handler
together with the library of the program that it answers.

The second half says what each handler leaves of a program: whether it got to
ready, the New queue and the calls parked at its mutex (`Deja`), and its running
thread (`DejaExec`).
-/

namespace Suse

open Function (update update_self update_of_ne)
open Fallible

variable {E : Type}

/-- What a program is doing: it has to create its main thread, it runs a thread,
it has to ask for the next thread, or it waits for the answer. -/
inductive Turno where
  | iniciando
  | corriendo (tid : Tid)
  | cediendo
  | esperando
  deriving DecidableEq

/-- The library's `current_ult` and `NEXT_ID`. -/
structure Cliente where
  turno : Turno
  nextId : Tid
  deriving DecidableEq

/-- The id of the main thread. -/
def mainThreadId : Tid := 0

namespace Cliente

def inicial : Cliente := ⟨.iniciando, 1⟩

/-- The running thread. -/
def corre (c : Cliente) (tid : Tid) : Prop := c.turno = .corriendo tid

def corriendo (c : Cliente) : Prop := ∃ tid, c.corre tid

instance (c : Cliente) (tid : Tid) : Decidable (c.corre tid) :=
  inferInstanceAs (Decidable (c.turno = .corriendo tid))

instance (c : Cliente) : Decidable c.corriendo :=
  match h : c.turno with
  | .corriendo tid => isTrue ⟨tid, h⟩
  | .iniciando => isFalse (by rintro ⟨tid, ht⟩; simp [corre, h] at ht)
  | .cediendo => isFalse (by rintro ⟨tid, ht⟩; simp [corre, h] at ht)
  | .esperando => isFalse (by rintro ⟨tid, ht⟩; simp [corre, h] at ht)

/-- What the library may send next, and the answer it may get. -/
def Admite (c : Cliente) : Evento → Prop
  | .conectar _ => False
  | .crear _ tid _ _ =>
      (c.turno = .iniciando ∧ tid = mainThreadId) ∨ (c.corriendo ∧ tid = c.nextId)
  | .wait _ tid _ => c.corre tid
  | .signal _ tid _ _ => c.corre tid
  | .join _ _ => c.corriendo
  | .close _ tid _ => c.corre tid
  | .scheduleNext _ _ => c.corriendo ∨ c.turno = .cediendo
  | .despertar _ _ => c.turno = .esperando
  | _ => True

instance (c : Cliente) (e : Evento) : Decidable (c.Admite e) :=
  match e with
  | .conectar _ => inferInstanceAs (Decidable False)
  | .crear _ tid _ _ => inferInstanceAs (Decidable
      ((c.turno = .iniciando ∧ tid = mainThreadId) ∨ (c.corriendo ∧ tid = c.nextId)))
  | .wait _ tid _ => inferInstanceAs (Decidable (c.corre tid))
  | .signal _ tid _ _ => inferInstanceAs (Decidable (c.corre tid))
  | .join _ _ => inferInstanceAs (Decidable c.corriendo)
  | .close _ tid _ => inferInstanceAs (Decidable (c.corre tid))
  | .scheduleNext _ _ => inferInstanceAs (Decidable (c.corriendo ∨ c.turno = .cediendo))
  | .despertar _ _ => inferInstanceAs (Decidable (c.turno = .esperando))
  | .tomar => isTrue trivial
  | .admitir _ => isTrue trivial
  | .metricas _ => isTrue trivial
  | .desconectar _ => isTrue trivial

/-- The thread that the answer to `schedule_next` makes the running one. -/
def contestado (c : Cliente) : Option Tid → Cliente
  | some tid => { c with turno := .corriendo tid }
  | none => { c with turno := .esperando }

/-- The library after the request or the answer. -/
def sigue (c : Cliente) (respuesta : Option Tid) : Evento → Cliente
  | .crear _ tid _ _ =>
      if c.turno = .iniciando then { c with turno := .corriendo tid }
      else { c with nextId := c.nextId + 1 }
  | .wait _ _ _ => { c with turno := .cediendo }
  | .signal _ _ _ _ => { c with turno := .cediendo }
  | .join _ _ => { c with turno := .cediendo }
  | .close _ _ _ => { c with turno := .cediendo }
  | .scheduleNext _ _ => c.contestado respuesta
  | .despertar _ _ => c.contestado respuesta
  | _ => c

end Cliente

namespace Evento

/-- The program that an event is about. -/
def programa : Evento → Option Pid
  | conectar pid => some pid
  | crear pid _ _ _ => some pid
  | wait pid _ _ => some pid
  | signal pid _ _ _ => some pid
  | join pid _ => some pid
  | close pid _ _ => some pid
  | scheduleNext pid _ => some pid
  | despertar pid _ => some pid
  | desconectar pid => some pid
  | _ => none

end Evento

/-- The answer that the event sends. -/
def respuesta (env : Entorno E) (s : Estado E) : Evento → Option Tid
  | .scheduleNext pid reloj =>
      match siguienteAEjecutar env s pid reloj with
      | .ok r => r.2
      | .error _ => none
  | .despertar pid reloj =>
      match calcularSiguienteHiloDespierto s pid reloj with
      | .ok r => r.2
      | .error _ => none
  | _ => none

/-- The scheduler and the connected programs. -/
structure Conectados (E : Type) where
  estado : Estado E
  clientes : Pid → Option Cliente

namespace Conectados

def inicial (c : Configuracion) : Conectados E := ⟨iniciarSUSE c, fun _ => none⟩

/-- Whether the programs can cause the event: a descriptor is given to one
connection at a time, and the library of a connected program sends the rest. -/
def Admite (c : Conectados E) : Evento → Prop
  | .conectar pid => c.clientes pid = none
  | e => ∀ pid ∈ e.programa, ∃ cliente ∈ c.clientes pid, cliente.Admite e

instance (c : Conectados E) (e : Evento) : Decidable (c.Admite e) :=
  match e with
  | .conectar pid => inferInstanceAs (Decidable (c.clientes pid = none))
  | .crear pid tid basura ahora => inferInstanceAs (Decidable (∀ p ∈ some pid,
      ∃ cliente ∈ c.clientes p, cliente.Admite (.crear pid tid basura ahora)))
  | .wait pid tid semID => inferInstanceAs (Decidable (∀ p ∈ some pid,
      ∃ cliente ∈ c.clientes p, cliente.Admite (.wait pid tid semID)))
  | .signal pid tid semID ahora => inferInstanceAs (Decidable (∀ p ∈ some pid,
      ∃ cliente ∈ c.clientes p, cliente.Admite (.signal pid tid semID ahora)))
  | .join pid tid => inferInstanceAs (Decidable (∀ p ∈ some pid,
      ∃ cliente ∈ c.clientes p, cliente.Admite (.join pid tid)))
  | .close pid tid ahora => inferInstanceAs (Decidable (∀ p ∈ some pid,
      ∃ cliente ∈ c.clientes p, cliente.Admite (.close pid tid ahora)))
  | .scheduleNext pid reloj => inferInstanceAs (Decidable (∀ p ∈ some pid,
      ∃ cliente ∈ c.clientes p, cliente.Admite (.scheduleNext pid reloj)))
  | .despertar pid reloj => inferInstanceAs (Decidable (∀ p ∈ some pid,
      ∃ cliente ∈ c.clientes p, cliente.Admite (.despertar pid reloj)))
  | .desconectar pid => inferInstanceAs (Decidable (∀ p ∈ some pid,
      ∃ cliente ∈ c.clientes p, cliente.Admite (.desconectar pid)))
  | .tomar => isTrue (by simp [Admite, Evento.programa])
  | .admitir _ => isTrue (by simp [Admite, Evento.programa])
  | .metricas _ => isTrue (by simp [Admite, Evento.programa])

/-- The libraries after the event. -/
def clientesTras (env : Entorno E) (c : Conectados E) : Evento → Pid → Option Cliente
  | .conectar pid => update c.clientes pid (some .inicial)
  | .desconectar pid => update c.clientes pid none
  | e =>
      match e.programa with
      | none => c.clientes
      | some pid => update c.clientes pid ((c.clientes pid).map fun cliente =>
          cliente.sigue (respuesta env c.estado e) e)

def paso (env : Entorno E) (c : Conectados E) (e : Evento) : Except Falla (Conectados E) :=
  if c.Admite e then do
    let s ← Suse.paso env c.estado e
    return ⟨s, c.clientesTras env e⟩
  else .error .espera

def Transicion (env : Entorno E) (c : Conectados E) (e : Evento) (c' : Conectados E) : Prop :=
  c.paso env e = .ok c'

theorem paso_ok {env : Entorno E} {c c' : Conectados E} {e : Evento}
    (h : c.paso env e = .ok c') :
    c.Admite e ∧ Suse.paso env c.estado e = .ok c'.estado ∧
      c'.clientes = c.clientesTras env e := by
  rw [paso] at h
  split_ifs at h with hadm
  obtain ⟨s, hs, h⟩ := bind_eq_ok.1 h
  cases h
  exact ⟨hadm, hs, rfl⟩

end Conectados

/-! ## What a handler leaves of a program -/

variable {s s' s'' : Estado E} {S : Set Puntero} {pid : Pid}

/-- The New queue and the hand of `planificarReady` stay, and of the program stay
the calls parked at its mutex and whether it has a ready list. -/
structure Deja (pid : Pid) (s s' : Estado E) : Prop where
  new : s'.new = s.new
  mano : s'.unHilo = s.unHilo
  conReady : tieneReady s' pid ↔ tieneReady s pid
  enMutex : s'.enMutex pid = s.enMutex pid

/-- The running thread of the program stays too. -/
structure DejaExec (pid : Pid) (s s' : Estado E) : Prop extends Deja pid s s' where
  exec : contenido s' (.exec pid) = contenido s (.exec pid)

namespace Deja

theorem refl (pid : Pid) (s : Estado E) : Deja pid s s := ⟨rfl, rfl, Iff.rfl, rfl⟩

theorem trans (h : Deja pid s s') (h' : Deja pid s' s'') : Deja pid s s'' where
  new := h'.new.trans h.new
  mano := h'.mano.trans h.mano
  conReady := h'.conReady.trans h.conReady
  enMutex := h'.enMutex.trans h.enMutex

theorem ponerPrograma (pid pid' : Pid) (q : Programa) :
    Deja pid s (s.ponerPrograma pid' q) := ⟨rfl, rfl, Iff.rfl, rfl⟩

end Deja

namespace DejaExec

theorem refl (pid : Pid) (s : Estado E) : DejaExec pid s s := ⟨.refl pid s, rfl⟩

theorem trans (h : DejaExec pid s s') (h' : DejaExec pid s' s'') : DejaExec pid s s'' :=
  ⟨h.toDeja.trans h'.toDeja, h'.exec.trans h.exec⟩

/-- Rewriting a program keeps the running thread of the others, and its own if it
is written back. -/
theorem ponerPrograma {pid' : Pid} {p q : Programa}
    (hp : s.diccionarioDeProgramas.get pid' = some p) (hexec : pid = pid' → q.exec = p.exec) :
    DejaExec pid s (s.ponerPrograma pid' q) where
  toDeja := .ponerPrograma _ _ _
  exec := by
    by_cases h : pid = pid'
    · subst h
      simp [contenido, hp, hexec rfl]
    · simp [contenido, Dictionary.get_put_of_ne _ _ h]

/-- Rewriting a ready list that exists. -/
theorem ponerReady {pid' : Pid} (h : tieneReady s pid') (l' : List Puntero) :
    DejaExec pid s (s.ponerReady pid' l') where
  new := rfl
  mano := rfl
  conReady := by
    rw [tieneReady_ponerReady]
    constructor
    · rintro (rfl | h')
      · exact h
      · exact h'
    · exact Or.inr
  enMutex := rfl
  exec := by rw [contenido_ponerReady, update_of_ne (by simp)]

/-- Rewriting what these facts do not speak of. -/
theorem resto (hilos : Puntero → Option (Hilo E)) (blocked : Dictionary String (List Puntero))
    (sems : Dictionary String Semaforo) (exits : Dictionary Pid (List Puntero))
    (nuevos maximo inicio : ℕ) :
    DejaExec pid s { s with
      hilos := hilos
      diccionarioDeBlockedPorSemaforo := blocked
      semaforos := sems
      diccionarioDeListasDeExit := exits
      hayNuevos := nuevos
      maximoProcesamiento := maximo
      inicioRafaga := inicio } where
  new := rfl
  mano := rfl
  conReady := Iff.rfl
  enMutex := rfl
  exec := rfl

end DejaExec

theorem SoloTiempos.dejaExec (h : SoloTiempos s s') : DejaExec pid s s' where
  new := h.campo Estado.new
  mano := h.campo Estado.unHilo
  conReady := by
    have hdic : s'.diccionarioDeListasDeReady = s.diccionarioDeListasDeReady :=
      h.campo Estado.diccionarioDeListasDeReady
    rw [tieneReady, tieneReady, hdic]
  enMutex := congrFun (h.campo Estado.enMutex) pid
  exec := by rw [h.contenido]

/-- `pasarAReady` of a thread whose program already has a ready list. -/
theorem pasarAReady_dejaExec {x : Puntero} {hilo : Hilo E} {ahora : ℕ}
    (h : pasarAReady s x ahora = .ok s') (hh : s.hilos x = some hilo)
    (hready : hilo.pid = pid → tieneReady s pid) : DejaExec pid s s' := by
  obtain ⟨hilo', p, hh', hp, hcaso⟩ := pasarAReady_ok h
  rw [hh] at hh'
  cases hh'
  rcases hcaso with ⟨hno, rfl⟩ | ⟨lista, hl, rfl⟩
  · have hne : pid ≠ hilo.pid := by
      rintro rfl
      obtain ⟨l, hl⟩ := hready rfl
      rw [hno] at hl
      cases hl
    refine ⟨⟨rfl, rfl, ?_, rfl⟩, ?_⟩
    · simp [tieneReady, Dictionary.get_put_of_ne _ _ hne]
    · simp [contenido, Dictionary.get_put_of_ne _ _ hne]
  · have hlista : DejaExec pid s (s.ponerReady hilo.pid (lista ++ [x])) :=
      .ponerReady ⟨lista, hl⟩ _
    have hhilo : DejaExec pid (s.ponerReady hilo.pid (lista ++ [x]))
        ((s.ponerReady hilo.pid (lista ++ [x])).ponerHilo x
          { hilo with timestampReady := ahora }) :=
      .resto _ _ _ _ _ _ _
    exact (hlista.trans hhilo).trans (.ponerPrograma (p := p) hp fun _ => rfl)

theorem semSuseWait_deja {pid' : Pid} {tid : Tid} {semID : String}
    (h : semSuseWait s pid' tid semID = .ok s') :
    Deja pid s s' ∧ (pid ≠ pid' → DejaExec pid s s') := by
  rcases semSuseWait_ok h with
    ⟨-, rfl⟩ | ⟨sem, -, ⟨-, rfl⟩ | ⟨-, p, exec, hilo, cola, hp, -, -, -, -, rfl⟩⟩
  · exact ⟨.refl _ _, fun _ => .refl _ _⟩
  · exact ⟨⟨rfl, rfl, Iff.rfl, rfl⟩, fun _ => .resto _ _ _ _ _ _ _⟩
  · refine ⟨⟨rfl, rfl, Iff.rfl, rfl⟩, fun hne => ?_⟩
    have hcola : DejaExec pid s (s.ponerBlockedPorSemaforo semID (cola ++ [exec])) :=
      .resto _ _ _ _ _ _ _
    exact hcola.trans (.ponerPrograma (p := p) hp fun he => absurd he hne)

theorem realizarJoin_deja {pid' : Pid} {tidAEsperar : Tid}
    (h : realizarJoin s pid' tidAEsperar = .ok s') :
    Deja pid s s' ∧ (pid ≠ pid' → DejaExec pid s s') := by
  rcases realizarJoin_ok h with rfl | ⟨p, exec, hilo, cantidad, hp, -, -, rfl⟩
  · exact ⟨.refl _ _, fun _ => .refl _ _⟩
  · exact ⟨.ponerPrograma _ _ _, fun hne => .ponerPrograma hp fun he => absurd he hne⟩

theorem liberarLista_dejaExec (pid : Pid) {pid' : Pid} {tid : Tid} {ahora : ℕ}
    (lista : List Puntero)
    (h : liberarLista pid' tid ahora lista s = .ok s') : DejaExec pid s s' := by
  induction lista generalizing s with
  | nil =>
      cases h
      exact .refl _ _
  | cons x resto ih =>
      obtain ⟨p, hilo, q, hp, hh, hq, hcaso⟩ := liberarLista_cons_ok h
      have hsacar : DejaExec pid s (sacarDeLista s pid' tid p resto) :=
        .ponerPrograma hp fun _ => rfl
      rcases hcaso with ⟨-, h⟩ | ⟨l, hl, -, h⟩
      · exact hsacar.trans (ih h)
      · have hlista : DejaExec pid (sacarDeLista s pid' tid p resto)
            ((sacarDeLista s pid' tid p resto).ponerReady hilo.pid (l ++ [x])) :=
          .ponerReady (s := sacarDeLista s pid' tid p resto) ⟨l, hl⟩ _
        have hhilo : DejaExec pid _
            (((sacarDeLista s pid' tid p resto).ponerReady hilo.pid (l ++ [x])).ponerHilo x
              { hilo with timestampReady := ahora }) := .resto _ _ _ _ _ _ _
        refine (hsacar.trans ((hlista.trans hhilo).trans ?_)).trans (ih h)
        exact .ponerPrograma (p := q) hq fun _ => rfl

theorem realizarClose_deja {pid' : Pid} {tid : Tid} {ahora : ℕ}
    (h : realizarClose s pid' tid ahora = .ok s') :
    Deja pid s s' ∧ (pid ≠ pid' → DejaExec pid s s') := by
  obtain ⟨p, x, hilo, hp, hexec, hh, ⟨-, rfl⟩ | ⟨-, s₁, p₁, hs₁, hp₁, h⟩⟩ :=
    realizarClose_ok h
  · exact ⟨.refl _ _, fun _ => .refl _ _⟩
  · obtain ⟨hilo', t, hh', ht, rfl⟩ := pasarAExit_ok hs₁
    obtain ⟨hilo₂, p₂, hh₂, hp₂, h⟩ := liberarBloqueadosPorElHilo_ok h
    have hexit : DejaExec pid s (ponerEnExit s hilo'.pid x) := .resto _ _ _ _ _ _ _
    have hmax : DejaExec pid t { t with maximoProcesamiento := t.maximoProcesamiento + 1 } :=
      .resto _ _ _ _ _ _ _
    have hsalida := (hexit.trans ht.dejaExec).trans hmax
    have hlista := liberarLista_dejaExec pid _ h
    refine ⟨(hsalida.toDeja.trans (.ponerPrograma _ _ _)).trans hlista.toDeja, fun hne => ?_⟩
    exact (hsalida.trans (.ponerPrograma (p := p₁) hp₁ fun he => absurd he hne)).trans hlista

/-- A signal wakes a thread of a program that got to ready. -/
theorem semSuseSignal_dejaExec {pid' : Pid} {semID : String} {ahora : ℕ}
    (h : semSuseSignal s pid' semID ahora = .ok s')
    (hcola : ∀ x ∈ contenido s (.semaforo semID), esHiloDe s pid x → tieneReady s pid) :
    DejaExec pid s s' := by
  rcases semSuseSignal_ok h with
    ⟨-, rfl⟩ | ⟨sem, -, ⟨-, rfl⟩ | ⟨-, -, rfl⟩ | ⟨-, -, h⟩⟩
  · exact .refl _ _
  · exact .refl _ _
  · exact .resto _ _ _ _ _ _ _
  · rcases sacar1HiloDeLaColaDeBloqueadosPorSemaforo_ok h with
      ⟨-, rfl⟩ | ⟨x, resto, s₁, hilo, unPrograma, p, hl, hs₁, hh, hprog, hp, rfl⟩
    · exact .refl _ _
    · obtain ⟨hilo', p', hh', hp', -⟩ := pasarAReady_ok hs₁
      have hsacar : DejaExec pid s (s.ponerBlockedPorSemaforo semID resto) :=
        .resto _ _ _ _ _ _ _
      have hpasar : DejaExec pid (s.ponerBlockedPorSemaforo semID resto) s₁ := by
        refine pasarAReady_dejaExec hs₁ hh' fun hpid => ?_
        refine hcola x (by simp [contenido_semaforo hl]) ⟨hilo'.tid, ?_⟩
        rw [← hpid]
        exact identidad_eq hh'
      have hdespertar : DejaExec pid s₁ (despertarPrograma s₁ hilo.pid unPrograma) := by
        rw [despertarPrograma]
        split_ifs
        · exact .ponerPrograma hprog fun _ => rfl
        · exact .refl _ _
      exact (hsacar.trans (hpasar.trans hdespertar)).trans (.ponerPrograma hp fun _ => rfl)

/-- What `schedule_next` of a program leaves of the others, and of its own. -/
structure Elige (pid : Pid) (r : Option Tid) (s s' : Estado E) : Prop where
  ajeno : ∀ pid', pid' ≠ pid → DejaExec pid' s s'
  new : s'.new = s.new
  mano : s'.unHilo = s.unHilo
  conReady : tieneReady s pid ∧ tieneReady s' pid
  contesta : ∀ tid, r = some tid →
    ∃ x, contenido s' (.exec pid) = [x] ∧ identidad s' x = some (pid, tid)

theorem enExec_elige {candidato : Puntero} {resto : List Puntero} {reloj : ℕ → ℕ}
    {p : Programa} {hilo : Hilo E} (hC : Coherente s S)
    (hl : s.diccionarioDeListasDeReady.get pid = some (candidato :: resto))
    (hh : s.hilos candidato = some hilo) :
    Elige pid (some hilo.tid) s (enExec s pid candidato resto reloj p hilo) where
  ajeno := by
    intro pid' hne
    refine ⟨⟨rfl, rfl, ?_, rfl⟩, ?_⟩
    · simp [enExec, tieneReady, Dictionary.get_put_of_ne _ _ hne]
    · simp [enExec, contenido, Dictionary.get_put_of_ne _ _ hne]
  new := rfl
  mano := rfl
  conReady := ⟨⟨_, hl⟩, by simp [enExec, tieneReady]⟩
  contesta := by
    rintro tid ⟨⟩
    have hpid : hilo.pid = pid :=
      (hC.identidad_of_mem (l := .ready pid) (by simp [contenido_ready hl]) hh).symm
    refine ⟨candidato, by simp [enExec, contenido], ?_⟩
    simp [enExec, identidad, hpid]

theorem calcularSiguienteHilo_elige {env : Entorno E} {reloj : ℕ → ℕ} {r : Option Tid}
    (hC : Coherente s S) (h : calcularSiguienteHilo env s pid reloj = .ok (s', r)) :
    Elige pid r s s' ∧ (r ≠ none → s'.enMutex = s.enMutex) ∧
      (r = none → s'.enMutex pid = s.enMutex pid + 1) := by
  obtain ⟨lista, p, hl, hp, hcaso⟩ := calcularSiguienteHilo_ok h
  rcases hcaso with ⟨x, hilo, hexec, hh, rfl, rfl⟩ |
    ⟨x, hilo, candidato, c, resto, hexec, hh, rfl, hc, rfl, rfl⟩ |
    ⟨candidato, resto, hilo, hexec, rfl, hh, rfl, rfl⟩ | ⟨hexec, rfl, rfl, rfl⟩
  · have htiempos := seguirEjecutando_soloTiempos reloj hh
    have hx : contenido s (.exec pid) = [x] := mem_exec hp hexec
    have hpid : hilo.pid = pid := (hC.identidad_of_mem (l := .exec pid) (by simp [hx]) hh).symm
    refine ⟨⟨fun _ _ => htiempos.dejaExec, rfl, rfl, ⟨⟨_, hl⟩, ⟨_, hl⟩⟩, ?_⟩, fun _ => rfl,
      by simp⟩
    rintro tid ⟨⟩
    refine ⟨x, by rw [htiempos.contenido, hx], ?_⟩
    rw [htiempos.hilos, identidad_eq hh, hpid]
  · have hpid : c.pid = pid :=
      (hC.identidad_of_mem (l := .ready pid) (by simp [contenido_ready hl]) hc).symm
    refine ⟨⟨fun pid' hne => ⟨⟨rfl, rfl, ?_, rfl⟩, ?_⟩, rfl, rfl, ⟨⟨_, hl⟩, ?_⟩, ?_⟩,
      fun _ => rfl, by simp⟩
    · simp [desalojar, tieneReady, Dictionary.get_put_of_ne _ _ hne]
    · simp [desalojar, contenido, Dictionary.get_put_of_ne _ _ hne]
    · simp [desalojar, tieneReady]
    · rintro tid ⟨⟩
      refine ⟨candidato, by simp [desalojar, contenido], ?_⟩
      simp [desalojar, identidad, hpid]
  · exact ⟨enExec_elige hC hl hh, fun _ => rfl, by simp⟩
  · refine ⟨⟨fun pid' hne => ⟨⟨rfl, rfl, Iff.rfl, ?_⟩, ?_⟩, rfl, rfl, ⟨⟨_, hl⟩, ⟨_, hl⟩⟩, ?_⟩,
      by simp, ?_⟩
    · simp [estacionado, hne]
    · simp [estacionado, contenido, Dictionary.get_put_of_ne _ _ hne]
    · simp
    · simp [estacionado]

theorem siguienteAEjecutar_elige {env : Entorno E} {reloj : ℕ → ℕ} {r : Option Tid}
    (hC : Coherente s S) (h : siguienteAEjecutar env s pid reloj = .ok (s', r)) :
    Elige pid r s s' ∧ (r ≠ none → s'.enMutex = s.enMutex) ∧
      (r = none → s'.enMutex pid = s.enMutex pid + 1) := by
  obtain ⟨s₁, s₂, htiempos, hreplan, hcalc⟩ := siguienteAEjecutar_ok h
  obtain ⟨hquieto₂, hmueve₂⟩ := replanificarHilos_mueve hreplan
  have hmueve₁ : Mueve Lugar.MismaFase False s s₂ :=
    (htiempos.mueve _ _).trans hmueve₂
  obtain ⟨helige, hmutex, hmutex'⟩ :=
    calcularSiguienteHilo_elige (hmueve₁.coherente_of_not not_false hC) hcalc
  have hm : s₂.enMutex = s.enMutex := (htiempos.quieto.trans hquieto₂).enMutex
  obtain ⟨l, l', hl, -, rfl⟩ := replanificarHilos_ok hreplan
  have hdeja : ∀ pid', DejaExec pid' s (s₁.ponerReady pid l') := fun pid' =>
    htiempos.dejaExec.trans (.ponerReady ⟨l, hl⟩ _)
  refine ⟨⟨fun pid' hne => (hdeja pid').trans (helige.ajeno pid' hne),
    helige.new.trans (hdeja pid).new, helige.mano.trans (hdeja pid).mano,
    ⟨(hdeja pid).conReady.1 helige.conReady.1, helige.conReady.2⟩, helige.contesta⟩, ?_, ?_⟩
  · rw [← hm]
    exact hmutex
  · rw [← hm]
    exact hmutex'

theorem calcularSiguienteHiloDespierto_elige {reloj : ℕ → ℕ} {r : Option Tid}
    (hC : Coherente s S) (h : calcularSiguienteHiloDespierto s pid reloj = .ok (s', r)) :
    Elige pid r s s' ∧ r ≠ none ∧ s'.enMutex pid = s.enMutex pid - 1 := by
  obtain ⟨p, candidato, resto, hilo, hp, hmutex, -, hl, hh, rfl, rfl⟩ :=
    calcularSiguienteHiloDespierto_ok h
  obtain ⟨hmueve₁, hcont₁⟩ := mutex_mueve (q := { p with mutexTomado := true })
    (f := update s.enMutex pid (s.enMutex pid - 1)) hp rfl rfl rfl rfl Lugar.MismaFase False
  have hC₁ : Coherente (despertado s pid p) S := hmueve₁.coherente_of_not not_false hC
  have helige : Elige pid (some hilo.tid) (despertado s pid p)
      (enExec (despertado s pid p) pid candidato resto reloj { p with mutexTomado := true } hilo) :=
    enExec_elige hC₁ hl hh
  refine ⟨⟨fun pid' hne => ?_, rfl, rfl, ⟨⟨_, hl⟩, helige.conReady.2⟩, helige.contesta⟩,
    by simp, by simp [enExec, despertado]⟩
  have hdespertado : DejaExec pid' s (despertado s pid p) := by
    refine ⟨⟨rfl, rfl, Iff.rfl, ?_⟩, congrFun hcont₁ _⟩
    simp [despertado, hne]
  exact hdespertado.trans (helige.ajeno pid' hne)

end Suse
