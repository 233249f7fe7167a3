import Linuse.Suse.Ejecucion
import Linuse.Suse.Vigilancia

/-!
# Lost wake-ups

`Acorde` lists the combinations in which the handler of a program, its two flags
and the signal that concerns it can be. From them follows when a handler stays
parked while its program has a thread in ready: when `planificarReady`, which
never looks at the flag, puts the thread there, or when the thread gets there
between the choice of the handler and the moment it sets the flag
(`Oportuno`). `sinDespertarPerdido_iff` says that there is no other way.
-/

namespace Suse

open Function (update update_self update_of_ne)
open Fallible Transition

variable {E : Type} {env : Entorno E}

/-- What the signal that runs is about to do for the program of the thread it
took out. -/
inductive Sobre where
  | ninguna
  | lee
  | desbloquea
  | baja
  deriving DecidableEq

def FaseSenial.sobre (pid : Pid) : FaseSenial → Sobre
  | .leer destino _ => if destino = pid then .lee else .ninguna
  | .desbloquear destino _ => if destino = pid then .desbloquea else .ninguna
  | .bajar destino _ => if destino = pid then .baja else .ninguna
  | _ => .ninguna

/-- The signal has not decided to wake the program. -/
def Sobre.Aparte (sobre : Sobre) : Prop := sobre = .ninguna ∨ sobre = .lee

/-- The phases in which a handler has found no thread for its program. -/
def FaseScheduleNext.SinHilo : FaseScheduleNext → Prop
  | vacio => True
  | enMutex => True
  | despierto => True
  | _ => False

/-- The handlers of a program, its flags and the signal about it, together. -/
inductive Acorde : List FaseScheduleNext → Option (Bool × Bool) → Sobre → Prop
  | sinPrograma : Acorde [] none .ninguna
  | libre {sobre : Sobre} : sobre.Aparte → Acorde [] (some (false, true)) sobre
  | antes {fase : FaseScheduleNext} {sobre : Sobre} :
      fase ≠ .enMutex → sobre.Aparte → Acorde [fase] (some (false, true)) sobre
  | bloqueado {sobre : Sobre} :
      sobre.Aparte → Acorde [.enMutex] (some (true, true)) sobre
  | desbloqueando : Acorde [.enMutex] (some (true, true)) .desbloquea
  | bajando : Acorde [.enMutex] (some (true, false)) .baja
  | bajandoDespierto : Acorde [.despierto] (some (true, true)) .baja
  | bajandoLibre : Acorde [] (some (true, true)) .baja
  | soltado {sobre : Sobre} :
      sobre.Aparte → Acorde [.enMutex] (some (false, false)) sobre

/-- The program whose request for its next thread arrives. -/
def EventoFino.pide : EventoFino → Option Pid
  | .scheduleNext pid => some pid
  | _ => none

namespace Fino

/-- The handler of the program is blocked on `mutexPrograma`. -/
def Bloqueado (f : Fino E) (pid : Pid) : Prop :=
  .enMutex ∈ f.manejadores pid ∧ ∃ estaBloqueado, banderas f.s pid = some (estaBloqueado, true)

/-- A signal has put a thread of the program in ready and is on its way to wake
the handler. -/
def Despertando (f : Fino E) (pid : Pid) : Prop :=
  f.conexion.sobre pid = .lee ∨ f.conexion.sobre pid = .desbloquea

/-- The handler does not wait in vain. -/
def Atendido (f : Fino E) (pid : Pid) : Prop :=
  Bloqueado f pid → ¬ Despertando f pid → contenido f.s (.ready pid) = []

/-- No wake-up is lost. -/
def SinDespertarPerdido (f : Fino E) : Prop := ∀ pid, Atendido f pid

/-- A program asks for its next thread only after the answer to its last
request. -/
def UnPedido (x : Step (Fino E) EventoFino) : Prop :=
  ∀ pid ∈ x.label.pide, x.pre.manejadores pid = []

/-- A handler sets its flag while its program has nothing in ready or a signal
that will look at the flag, and `planificarReady` puts no thread in ready for a
parked handler unless such a signal is on its way. -/
def Oportuno (x : Step (Fino E) EventoFino) : Prop :=
  match x.label with
  | .bandera pid => Despertando x.pre pid ∨ contenido x.pre.s (.ready pid) = []
  | .pasar _ => ∀ unHilo pid tid, x.pre.s.unHilo = some unHilo →
      identidad x.pre.s unHilo = some (pid, tid) → Bloqueado x.pre pid → Despertando x.pre pid
  | _ => True

structure Vigilado (f : Fino E) (pid : Pid) : Prop where
  acorde : Acorde (f.manejadores pid) (banderas f.s pid) (f.conexion.sobre pid)
  parado : ∀ fase ∈ f.manejadores pid, fase.SinHilo → Parado f.s pid

/-- What every run keeps. The thread that a signal has taken out is in nobody's
list. -/
structure Sano (f : Fino E) : Prop where
  coherente : ∃ S, Coherente f.s S ∧
    ∀ unHilo pid, f.conexion = .pasar unHilo pid → unHilo ∉ S
  vigilado : ∀ pid, Vigilado f pid

end Fino

namespace Acorde

variable {fases : List FaseScheduleNext} {b : Option (Bool × Bool)} {sobre : Sobre}

/-- A program has at most one handler. -/
theorem eq_singleton {fase : FaseScheduleNext} (h : Acorde fases b sobre)
    (hfase : fase ∈ fases) : fases = [fase] := by
  cases h <;> simp_all

/-- Before its handler parks, a program is as it was created. -/
theorem of_antes {fase : FaseScheduleNext} (h : Acorde [fase] b sobre)
    (hmutex : fase ≠ .enMutex) (hdespierto : fase ≠ .despierto) :
    b = some (false, true) ∧ sobre.Aparte := by
  cases h with
  | antes _ haparte => exact ⟨rfl, haparte⟩
  | bloqueado _ => exact absurd rfl hmutex
  | desbloqueando => exact absurd rfl hmutex
  | bajando => exact absurd rfl hmutex
  | bajandoDespierto => exact absurd rfl hdespierto
  | soltado _ => exact absurd rfl hmutex

/-- A program with no handler gets one. -/
theorem pedir {p : Bool × Bool} {fase : FaseScheduleNext} (h : Acorde [] (some p) .ninguna)
    (hfase : fase ≠ .enMutex) : Acorde [fase] (some p) .ninguna := by
  cases h with
  | libre haparte => exact .antes hfase haparte

theorem leer {p : Bool × Bool} (h : Acorde fases (some p) .ninguna) :
    Acorde fases (some p) .lee := by
  cases h with
  | libre _ => exact .libre (Or.inr rfl)
  | antes hfase _ => exact .antes hfase (Or.inr rfl)
  | bloqueado _ => exact .bloqueado (Or.inr rfl)
  | soltado _ => exact .soltado (Or.inr rfl)

/-- A signal that reads the flag finds it set exactly when the handler is
blocked. -/
theorem leida {estaBloqueado mutexTomado : Bool}
    (h : Acorde fases (some (estaBloqueado, mutexTomado)) .lee) :
    (estaBloqueado = true ∧ fases = [.enMutex] ∧ mutexTomado = true) ∨
      (estaBloqueado = false ∧ (.enMutex ∈ fases → mutexTomado = false) ∧
        Acorde fases (some (estaBloqueado, mutexTomado)) .ninguna) := by
  cases h with
  | libre _ => exact Or.inr ⟨rfl, by simp, .libre (Or.inl rfl)⟩
  | antes hfase _ => exact Or.inr ⟨rfl, by simpa using hfase.symm, .antes hfase (Or.inl rfl)⟩
  | bloqueado _ => exact Or.inl ⟨rfl, rfl, rfl⟩
  | soltado _ => exact Or.inr ⟨rfl, fun _ => rfl, .soltado (Or.inl rfl)⟩

/-- The handler gets the mutex. -/
theorem despertar {estaBloqueado : Bool}
    (h : Acorde [.enMutex] (some (estaBloqueado, false)) sobre) :
    Acorde [.despierto] (some (estaBloqueado, true)) sobre := by
  cases h with
  | bajando => exact .bajandoDespierto
  | soltado haparte => exact .antes (by decide) haparte

/-- The handler answers. -/
theorem resumir (h : Acorde [.despierto] b sobre) : Acorde [] b sobre := by
  cases h with
  | antes _ haparte => exact .libre haparte
  | bajandoDespierto => exact .bajandoLibre

end Acorde

namespace Fino

variable {f f' : Fino E} {pid : Pid}

theorem Vigilado.ajeno (h : Vigilado f pid) (hman : f'.manejadores pid = f.manejadores pid)
    (hsobre : f'.conexion.sobre pid = f.conexion.sobre pid) (hajeno : Ajeno pid f.s f'.s) :
    Vigilado f' pid := by
  constructor
  · rw [hman, hajeno.banderas, hsobre]
    exact h.acorde
  · intro fase hfase hsin
    exact hajeno.parado (h.parado fase (hman ▸ hfase) hsin)

theorem Atendido.ajeno (ha : Atendido f pid) (h : Vigilado f pid)
    (hman : f'.manejadores pid = f.manejadores pid)
    (hsobre : f'.conexion.sobre pid = f.conexion.sobre pid) (hajeno : Ajeno pid f.s f'.s) :
    Atendido f' pid := by
  rintro ⟨hmutex, hbandera⟩ hdesp
  rw [hman] at hmutex
  rw [hajeno.banderas] at hbandera
  rw [Despertando, hsobre] at hdesp
  have hparado := h.parado .enMutex hmutex trivial
  exact (hajeno.ready hparado).2 (ha ⟨hmutex, hbandera⟩ hdesp)

/-- One step from a state that a run reaches: the invariant is kept, and no
wake-up is lost exactly when `oportuno`. -/
structure Sigue (f f' : Fino E) (oportuno : Prop) : Prop where
  sano : Sano f'
  perdido : SinDespertarPerdido f → (SinDespertarPerdido f' ↔ oportuno)

/-- A step that concerns one program only. -/
theorem Sigue.of_uno {oportuno : Prop} (pid : Pid) (hf : Sano f)
    (hcoherente : ∃ S, Coherente f'.s S ∧
      ∀ unHilo pid, f'.conexion = .pasar unHilo pid → unHilo ∉ S)
    (hman : ∀ pid' ≠ pid, f'.manejadores pid' = f.manejadores pid')
    (hsobre : ∀ pid' ≠ pid, f'.conexion.sobre pid' = f.conexion.sobre pid')
    (hajeno : ∀ pid' ≠ pid, Ajeno pid' f.s f'.s) (hv : Vigilado f' pid)
    (ha : Atendido f pid → (Atendido f' pid ↔ oportuno)) : Sigue f f' oportuno := by
  constructor
  · refine ⟨hcoherente, fun pid' => ?_⟩
    by_cases hpid : pid' = pid
    · exact hpid ▸ hv
    · exact (hf.vigilado pid').ajeno (hman pid' hpid) (hsobre pid' hpid) (hajeno pid' hpid)
  · intro hperdido
    rw [← ha (hperdido pid)]
    constructor
    · exact fun h => h pid
    · intro h pid'
      by_cases hpid : pid' = pid
      · exact hpid ▸ h
      · exact (hperdido pid').ajeno (hf.vigilado pid') (hman pid' hpid) (hsobre pid' hpid)
          (hajeno pid' hpid)

/-- A step that concerns no program. -/
theorem Sigue.of_ninguno (hf : Sano f)
    (hcoherente : ∃ S, Coherente f'.s S ∧
      ∀ unHilo pid, f'.conexion = .pasar unHilo pid → unHilo ∉ S)
    (hman : f'.manejadores = f.manejadores)
    (hsobre : ∀ pid, f'.conexion.sobre pid = f.conexion.sobre pid)
    (hajeno : ∀ pid, Ajeno pid f.s f'.s) : Sigue f f' True := by
  have hman' : ∀ pid, f'.manejadores pid = f.manejadores pid := fun pid => by rw [hman]
  constructor
  · exact ⟨hcoherente, fun pid =>
      (hf.vigilado pid).ajeno (hman' pid) (hsobre pid) (hajeno pid)⟩
  · intro hperdido
    rw [iff_true]
    intro pid
    exact (hperdido pid).ajeno (hf.vigilado pid) (hman' pid) (hsobre pid) (hajeno pid)

/-- Coherence after a step that takes no thread out of a queue. -/
theorem Sano.coherente_of (hf : Sano f)
    (hconexion : ∀ unHilo pid, f'.conexion = .pasar unHilo pid → f.conexion = .pasar unHilo pid)
    (h : ∀ S, Coherente f.s S → ∃ S' ⊆ S, Coherente f'.s S') :
    ∃ S, Coherente f'.s S ∧ ∀ unHilo pid, f'.conexion = .pasar unHilo pid → unHilo ∉ S := by
  obtain ⟨S, hC, hmano⟩ := hf.coherente
  obtain ⟨S', hS, hC'⟩ := h S hC
  exact ⟨S', hC', fun unHilo pid hc hmem => hmano unHilo pid (hconexion unHilo pid hc) (hS hmem)⟩

theorem not_bloqueado_of (h : .enMutex ∉ f.manejadores pid) : ¬ Bloqueado f pid :=
  fun hb => h hb.1

theorem atendido_of_not_bloqueado (h : ¬ Bloqueado f pid) : Atendido f pid :=
  fun hb => absurd hb h

/-! ## Messages and metrics -/

theorem mensaje_sigue {e : Evento} (hf : Sano f) (h : f.mensaje env e = .ok f') :
    Sigue f f' True := by
  rw [mensaje] at h
  split_ifs at h with hcond
  obtain ⟨hlibre, he⟩ := hcond
  simp only [bind_eq_ok, pure_eq_ok] at h
  obtain ⟨s, hs, rfl⟩ := h
  obtain ⟨S, hC, -⟩ := hf.coherente
  obtain ⟨S', hC'⟩ := paso_coherente hC hs
  have hpaso := mensaje_ajeno hC he hs
  have hnueva : ∀ pid, Vigilado { f with s := s } pid ∧
      (Atendido f pid → Atendido { f with s := s } pid) := by
    intro pid
    have hv := hf.vigilado pid
    rcases hpaso pid with hajeno | ⟨hnone, hcreado⟩
    · exact ⟨hv.ajeno rfl rfl hajeno, fun ha => ha.ajeno hv rfl rfl hajeno⟩
    · have hacorde := hv.acorde
      rw [hnone] at hacorde
      cases hfases : f.manejadores pid with
      | nil =>
          have hsin : Vigilado { f with s := s } pid := by
            constructor
            · simp only [hfases, hcreado, hlibre]
              exact .libre (Or.inl rfl)
            · simp [hfases]
          exact ⟨hsin, fun _ => atendido_of_not_bloqueado (not_bloqueado_of (by simp [hfases]))⟩
      | cons fase fases =>
          rw [hfases] at hacorde
          cases hacorde
  constructor
  · refine ⟨⟨S', hC', ?_⟩, fun pid => (hnueva pid).1⟩
    intro unHilo pid hc
    rw [hlibre] at hc
    cases hc
  · intro hperdido
    rw [iff_true]
    exact fun pid => (hnueva pid).2 (hperdido pid)

theorem metricas_sigue {ahora : ℕ} (hf : Sano f) (h : f.metricas ahora = .ok f') :
    Sigue f f' True := by
  simp only [metricas, bind_eq_ok, pure_eq_ok] at h
  obtain ⟨s, hs, rfl⟩ := h
  have htiempos := tomarMetricas_soloTiempos hs
  apply Sigue.of_ninguno hf
  · exact hf.coherente_of (fun _ _ h => h) fun S hC =>
      (htiempos.mueve Lugar.MismaFase False).coherente hC
  · rfl
  · exact fun _ => rfl
  · exact htiempos.ajeno

/-! ## The signal -/

theorem senial_sigue {pid : Pid} {semID : String} (hf : Sano f)
    (h : f.senial pid semID = .ok f') : Sigue f f' True := by
  obtain ⟨hlibre, rfl | ⟨sem, rfl⟩ | ⟨unHilo, resto, hcola, rfl⟩⟩ := senial_ok h
  · exact .of_ninguno hf hf.coherente rfl (fun _ => rfl) fun pid => .refl pid _
  · apply Sigue.of_ninguno hf
    · exact hf.coherente_of (fun _ _ h => h) fun S hC => ⟨S, subset_rfl,
        hC.of_mem hC.particion (fun _ => rfl) rfl (fun _ _ h => h) (fun _ h => h) fun _ => Iff.rfl⟩
    · rfl
    · exact fun _ => rfl
    · exact fun _ => .of_get_eq rfl rfl
  · obtain ⟨S, hC, -⟩ := hf.coherente
    have hcont : contenido f.s (.semaforo semID) = [] ++ unHilo :: resto :=
      contenido_semaforo hcola
    have htomado := hC.particion.take hcont
    apply Sigue.of_ninguno hf
    · refine ⟨S \ {unHilo}, ?_, ?_⟩
      · apply hC.of_mem
        · rw [contenido_ponerBlockedPorSemaforo]
          exact htomado
        · exact fun _ => rfl
        · rfl
        · intro l x hx
          rw [contenido_ponerBlockedPorSemaforo] at hx
          by_cases hl : l = .semaforo semID
          · subst hl
            rw [update_self] at hx
            rw [hcont]
            exact List.mem_append_right _ (List.mem_cons_of_mem _ hx)
          · rwa [update_of_ne hl] at hx
        · exact fun _ h => h
        · exact fun _ => Iff.rfl
      · intro x pid' hc
        cases hc
        simp
    · rfl
    · intro pid'
      simp [hlibre, FaseSenial.sobre]
    · exact fun _ => .of_get_eq rfl rfl

theorem senialPasar_sigue {ahora : ℕ} (hf : Sano f) (h : f.senialPasar ahora = .ok f') :
    Sigue f f' True := by
  obtain ⟨unHilo, pid, s, hilo, hc, hs, hhilo, rfl⟩ := senialPasar_ok h
  obtain ⟨S, hC, hmano⟩ := hf.coherente
  obtain ⟨h₀, p, hh₀, hp, -⟩ := pasarAReady_ok hs
  have hpid : hilo.pid = h₀.pid := by
    have hid := (pasarAReady_quieto hs).identidad unHilo
    rw [identidad_eq hhilo, identidad_eq hh₀, Option.some_inj, Prod.mk.injEq] at hid
    exact hid.1
  obtain ⟨hband, hajeno, hparado, -⟩ := pasarAReady_ajeno hs hh₀
  have hv := hf.vigilado h₀.pid
  rw [hpid]
  apply Sigue.of_uno h₀.pid hf
  · exact ⟨_, hC.pasarAReady (hmano unHilo pid hc) hs, fun _ _ hc => by cases hc⟩
  · exact fun _ _ => rfl
  · intro pid' hne
    simp [hc, FaseSenial.sobre, hne.symm]
  · exact hajeno
  · constructor
    · have hacorde := hv.acorde
      rw [hc, banderas_eq hp] at hacorde
      rw [hband, banderas_eq hp]
      simpa [FaseSenial.sobre] using hacorde.leer
    · exact fun fase hfase hsin => (hparado (hv.parado fase hfase hsin)).1
  · intro _
    rw [iff_true]
    exact fun _ hdesp => absurd (Or.inl (by simp [FaseSenial.sobre])) hdesp

theorem senialLeer_sigue (hf : Sano f) (h : f.senialLeer = .ok f') : Sigue f f' True := by
  obtain ⟨destino, pid, p, hc, hp, rfl⟩ := senialLeer_ok h
  have hv := hf.vigilado destino
  have hacorde := hv.acorde
  rw [hc, banderas_eq hp] at hacorde
  have hleida := Acorde.leida (by simpa [FaseSenial.sobre, Programa.banderas] using hacorde)
  apply Sigue.of_uno destino hf
  · refine hf.coherente_of ?_ fun S hC => ⟨S, subset_rfl, hC⟩
    intro unHilo pid' hc'
    split_ifs at hc'
  · exact fun _ _ => rfl
  · intro pid' hne
    split_ifs
    · simp [hc, FaseSenial.sobre, hne.symm]
    · simp [hc, FaseSenial.sobre, hne.symm]
  · exact fun pid' _ => .refl pid' _
  · refine ⟨?_, hv.parado⟩
    rw [banderas_eq hp, Programa.banderas]
    rcases hleida with ⟨hflag, hfases, hmutex⟩ | ⟨hflag, -, hninguna⟩
    · rw [if_pos hflag, hfases, hflag, hmutex]
      simpa [FaseSenial.sobre] using Acorde.desbloqueando
    · rw [if_neg (by simp [hflag])]
      exact hninguna
  · intro _
    rw [iff_true]
    rintro ⟨hmutex, b, hb⟩ hdesp
    rcases hleida with ⟨hflag, -, -⟩ | ⟨-, hlibre, -⟩
    · exact absurd (Or.inr (by simp [hflag, FaseSenial.sobre])) hdesp
    · rw [banderas_eq hp, Programa.banderas, hlibre hmutex] at hb
      cases hb

/-- Rewriting a program without moving its threads. -/
theorem Sano.ponerPrograma {p q : Programa} (hf : Sano f)
    (hp : f.s.diccionarioDeProgramas.get pid = some p)
    (hs : f'.s = f.s.ponerPrograma pid q) (hexec : q.exec = p.exec)
    (hblocked : q.blocked = p.blocked)
    (hconexion : ∀ unHilo pid, f'.conexion = .pasar unHilo pid → f.conexion = .pasar unHilo pid) :
    ∃ S, Coherente f'.s S ∧ ∀ unHilo pid, f'.conexion = .pasar unHilo pid → unHilo ∉ S :=
  hf.coherente_of hconexion fun S hC =>
    ⟨S, subset_rfl, hs ▸ hC.ponerPrograma hp hexec hblocked⟩

/-- Writing the flags of a program concerns no other. -/
theorem ponerPrograma_ajeno {s : Estado E} {q : Programa} {pid' : Pid} (hne : pid' ≠ pid) :
    Ajeno pid' s (s.ponerPrograma pid q) :=
  .of_get_eq (by simp [Dictionary.get_put_of_ne _ _ hne]) rfl

theorem senialDesbloquear_sigue (hf : Sano f) (h : f.senialDesbloquear = .ok f') :
    Sigue f f' True := by
  obtain ⟨destino, pid, p, hc, hp, rfl⟩ := senialDesbloquear_ok h
  have hv := hf.vigilado destino
  have hacorde := hv.acorde
  rw [hc, banderas_eq hp] at hacorde
  have hfases : f.manejadores destino = [.enMutex] ∧ p.estaBloqueado = true := by
    generalize hb : some p.banderas = b at hacorde
    generalize hman : f.manejadores destino = fases at hacorde
    simp only [FaseSenial.sobre, if_true] at hacorde
    cases hacorde with
    | desbloqueando =>
        rw [Option.some_inj, Programa.banderas, Prod.mk.injEq] at hb
        exact ⟨rfl, hb.1⟩
    | libre haparte => rcases haparte with h | h <;> cases h
    | antes _ haparte => rcases haparte with h | h <;> cases h
    | bloqueado haparte => rcases haparte with h | h <;> cases h
    | soltado haparte => rcases haparte with h | h <;> cases h
  have hband : banderas (f.s.ponerPrograma destino { p with mutexTomado := false }) destino =
      some (true, false) := by
    rw [banderas_ponerPrograma, update_self, Programa.banderas, hfases.2]
  apply Sigue.of_uno destino hf
  · exact hf.ponerPrograma hp rfl rfl rfl fun _ _ hc' => by cases hc'
  · exact fun _ _ => rfl
  · intro pid' hne
    simp [hc, FaseSenial.sobre, hne.symm]
  · exact fun pid' hne => ponerPrograma_ajeno hne
  · constructor
    · rw [hband, hfases.1]
      simpa [FaseSenial.sobre] using Acorde.bajando
    · exact fun fase hfase hsin => (hv.parado fase hfase hsin).ponerPrograma hp rfl
  · intro _
    rw [iff_true]
    apply atendido_of_not_bloqueado
    rintro ⟨-, b, hb⟩
    rw [hband] at hb
    cases hb

theorem senialBajar_sigue (hf : Sano f) (h : f.senialBajar = .ok f') : Sigue f f' True := by
  obtain ⟨destino, pid, p, hc, hp, rfl⟩ := senialBajar_ok h
  have hv := hf.vigilado destino
  have hacorde := hv.acorde
  rw [hc, banderas_eq hp] at hacorde
  have hband : banderas (f.s.ponerPrograma destino { p with estaBloqueado := false }) destino =
      some (false, p.mutexTomado) := by
    rw [banderas_ponerPrograma, update_self, Programa.banderas]
  have hbajada : Acorde (f.manejadores destino) (some (false, p.mutexTomado)) .ninguna ∧
      (.enMutex ∈ f.manejadores destino → p.mutexTomado = false) := by
    generalize hb : some p.banderas = b at hacorde
    generalize f.manejadores destino = fases at hacorde
    simp only [FaseSenial.sobre, if_true] at hacorde
    cases hacorde with
    | bajando =>
        rw [Option.some_inj, Programa.banderas, Prod.mk.injEq] at hb
        exact ⟨hb.2 ▸ .soltado (Or.inl rfl), fun _ => hb.2⟩
    | bajandoDespierto =>
        rw [Option.some_inj, Programa.banderas, Prod.mk.injEq] at hb
        exact ⟨hb.2 ▸ .antes (by decide) (Or.inl rfl), by simp⟩
    | bajandoLibre =>
        rw [Option.some_inj, Programa.banderas, Prod.mk.injEq] at hb
        exact ⟨hb.2 ▸ .libre (Or.inl rfl), by simp⟩
    | libre haparte => rcases haparte with h | h <;> cases h
    | antes _ haparte => rcases haparte with h | h <;> cases h
    | bloqueado haparte => rcases haparte with h | h <;> cases h
    | soltado haparte => rcases haparte with h | h <;> cases h
  apply Sigue.of_uno destino hf
  · exact hf.ponerPrograma hp rfl rfl rfl fun _ _ hc' => by cases hc'
  · exact fun _ _ => rfl
  · intro pid' hne
    simp [hc, FaseSenial.sobre, hne.symm]
  · exact fun pid' hne => ponerPrograma_ajeno hne
  · constructor
    · rw [hband]
      exact hbajada.1
    · exact fun fase hfase hsin => (hv.parado fase hfase hsin).ponerPrograma hp rfl
  · intro _
    rw [iff_true]
    apply atendido_of_not_bloqueado
    rintro ⟨hmutex, b, hb⟩
    rw [hband, hbajada.2 hmutex] at hb
    cases hb

theorem senialDescontar_sigue (hf : Sano f) (h : f.senialDescontar = .ok f') :
    Sigue f f' True := by
  obtain ⟨pid, p, hc, hp, rfl⟩ := senialDescontar_ok h
  apply Sigue.of_ninguno hf
  · exact hf.ponerPrograma hp rfl rfl rfl fun _ _ hc' => by cases hc'
  · rfl
  · intro pid'
    simp [hc, FaseSenial.sobre]
  · exact fun pid' => .ponerPrograma pid' hp rfl (Or.inl rfl)

/-! ## `planificarReady` -/

theorem tomar_sigue (hf : Sano f) (h : f.tomar = .ok f') : Sigue f f' True := by
  rw [tomar] at h
  split_ifs at h
  simp only [bind_eq_ok, pure_eq_ok] at h
  obtain ⟨s, hs, rfl⟩ := h
  apply Sigue.of_ninguno hf
  · exact hf.coherente_of (fun _ _ h => h) fun S hC =>
      (planificarReadyTomar_mueve hC hs).2.coherente hC
  · rfl
  · exact fun _ => rfl
  · obtain ⟨-, -, unHilo, resto, -, rfl⟩ := planificarReadyTomar_ok hs
    exact fun _ => .of_get_eq rfl rfl

theorem lugar_sigue (hf : Sano f) (h : f.lugar = .ok f') : Sigue f f' True := by
  rw [lugar] at h
  split_ifs at h
  cases h
  apply Sigue.of_ninguno hf
  · exact hf.coherente_of (fun _ _ h => h) fun S hC => ⟨S, subset_rfl,
      hC.of_mem hC.particion (fun _ => rfl) rfl (fun _ _ h => h) (fun _ h => h) fun _ => Iff.rfl⟩
  · rfl
  · exact fun _ => rfl
  · exact fun _ => .of_get_eq rfl rfl

theorem contar_sigue (hf : Sano f) (h : f.contar = .ok f') : Sigue f f' True := by
  rw [contar] at h
  split_ifs at h
  simp only [noNulo, bind_eq_ok, orFail_eq_ok, pure_eq_ok] at h
  obtain ⟨unHilo, -, hilo, -, p, hp, rfl⟩ := h
  apply Sigue.of_ninguno hf
  · exact hf.ponerPrograma hp rfl rfl rfl fun _ _ hc => hc
  · rfl
  · exact fun _ => rfl
  · exact fun pid' => .ponerPrograma pid' hp rfl (Or.inl rfl)

/-- An admission loses a wake-up exactly when the program is parked and no signal
is about to wake it. -/
theorem pasar_sigue {ahora : ℕ} (hf : Sano f) (h : f.pasar ahora = .ok f') :
    Sigue f f' (Oportuno ⟨f, .pasar ahora, f'⟩) := by
  rw [pasar] at h
  split_ifs at h
  simp only [noNulo, bind_eq_ok, orFail_eq_ok, pure_eq_ok] at h
  obtain ⟨unHilo, hmano, s, hs, rfl⟩ := h
  obtain ⟨hilo, p, hh, hp, -⟩ := pasarAReady_ok hs
  obtain ⟨hband, hajeno, hparado, -⟩ := pasarAReady_ajeno hs hh
  have hv := hf.vigilado hilo.pid
  have hsin : ∀ pid, Ajeno pid f.s { f.s with unHilo := none } := fun _ => .of_get_eq rfl rfl
  have hcoherente : ∀ S, Coherente f.s S → ∃ S' ⊆ S, Coherente s S' := by
    intro S hC
    have hcont : contenido f.s .mano = [] ++ unHilo :: [] := by simp [contenido, hmano]
    have hx : unHilo ∈ S := hC.particion.mem (l := .mano) (by simp [hcont])
    have hC' : Coherente { f.s with unHilo := none } (S \ {unHilo}) := by
      have hcont' : contenido { f.s with unHilo := none } =
          update (contenido f.s) .mano [] := by
        funext l
        cases l with
        | mano => simp [contenido]
        | _ => simp [contenido]
      apply hC.of_mem
      · rw [hcont']
        exact hC.particion.take hcont
      · exact fun _ => rfl
      · rfl
      · intro l x hx
        rw [hcont'] at hx
        by_cases hl : l = .mano
        · subst hl
          simp at hx
        · rwa [update_of_ne hl] at hx
      · exact fun _ h => h
      · exact fun _ => Iff.rfl
    refine ⟨insert unHilo (S \ {unHilo}), ?_, hC'.pasarAReady (by simp) hs⟩
    exact Set.insert_subset hx Set.sdiff_subset
  apply Sigue.of_uno hilo.pid hf
  · exact hf.coherente_of (fun _ _ h => h) hcoherente
  · exact fun _ _ => rfl
  · exact fun _ _ => rfl
  · exact fun pid' hne => (hsin pid').trans (hajeno pid' hne)
  · constructor
    · rw [hband]
      exact hv.acorde
    · exact fun fase hfase hsin' =>
        (hparado ((hsin hilo.pid).parado (hv.parado fase hfase hsin'))).1
  · intro ha
    constructor
    · intro ha' unHilo' pid tid hmano' hid hbloq
      rw [hmano] at hmano'
      cases hmano'
      rw [identidad_eq (show f.s.hilos unHilo = some hilo from hh), Option.some_inj,
        Prod.mk.injEq] at hid
      rw [← hid.1] at hbloq ⊢
      by_contra hdesp
      have hvacia := ha' (show Bloqueado _ hilo.pid from ⟨hbloq.1, hband ▸ hbloq.2⟩) hdesp
      have hparado₀ := hv.parado .enMutex hbloq.1 trivial
      exact (hparado ((hsin hilo.pid).parado hparado₀)).2 hvacia
    · intro hop hbloq hdesp
      refine absurd (hop unHilo hilo.pid hilo.tid hmano (identidad_eq hh) ?_) hdesp
      exact ⟨hbloq.1, hband ▸ hbloq.2⟩

/-! ## `schedule_next` -/

/-- A step of the handler of a program that leaves it in the phases `fases`. -/
theorem Sigue.of_manejador {s : Estado E} {fases : List FaseScheduleNext} {oportuno : Prop}
    (hf : Sano f)
    (hf' : f' = { f with s := s, manejadores := update f.manejadores pid fases })
    (hcoherente : ∀ S, Coherente f.s S → ∃ S' ⊆ S, Coherente s S')
    (hajeno : ∀ pid' ≠ pid, Ajeno pid' f.s s)
    (hacorde : Acorde fases (banderas s pid) (f.conexion.sobre pid))
    (hparado : ∀ fase ∈ fases, fase.SinHilo → Parado s pid)
    (ha : Atendido f pid → (Atendido f' pid ↔ oportuno)) : Sigue f f' oportuno := by
  have hman : f'.manejadores pid = fases := by simp [hf']
  apply Sigue.of_uno pid hf
  · rw [hf']
    exact hf.coherente_of (fun _ _ h => h) hcoherente
  · intro pid' hne
    simp [hf', hne]
  · intro pid' _
    rw [hf']
  · rw [hf']
    exact hajeno
  · constructor
    · rw [hman, hf']
      exact hacorde
    · intro fase hfase hsin
      rw [hf']
      exact hparado fase (hman ▸ hfase) hsin
  · exact ha

/-- A step after which the handler is not at the mutex. -/
theorem Sigue.of_despierto {s : Estado E} {fases : List FaseScheduleNext} (hf : Sano f)
    (hf' : f' = { f with s := s, manejadores := update f.manejadores pid fases })
    (hcoherente : ∀ S, Coherente f.s S → ∃ S' ⊆ S, Coherente s S')
    (hajeno : ∀ pid' ≠ pid, Ajeno pid' f.s s)
    (hacorde : Acorde fases (banderas s pid) (f.conexion.sobre pid))
    (hparado : ∀ fase ∈ fases, fase.SinHilo → Parado s pid)
    (hmutex : .enMutex ∉ fases) : Sigue f f' True := by
  apply Sigue.of_manejador hf hf' hcoherente hajeno hacorde hparado
  intro _
  rw [iff_true]
  apply atendido_of_not_bloqueado
  apply not_bloqueado_of
  simpa [hf'] using hmutex

theorem avanzar_eq (s : Estado E) (nuevas : List FaseScheduleNext) {fase : FaseScheduleNext}
    (hv : Vigilado f pid) (hfase : fase ∈ f.manejadores pid) :
    f.manejadores pid = [fase] ∧ f.avanzar s pid fase nuevas =
      { f with s := s, manejadores := update f.manejadores pid nuevas } := by
  have hfases := hv.acorde.eq_singleton hfase
  refine ⟨hfases, ?_⟩
  rw [avanzar, hfases]
  simp

theorem scheduleNext_sigue (hf : Sano f) (hu : f.manejadores pid = [])
    (h : f.scheduleNext pid = .ok f') : Sigue f f' True := by
  rw [scheduleNext] at h
  split_ifs at h with hcond
  obtain ⟨hlibre, hprog⟩ := hcond
  obtain ⟨p, hp⟩ := Option.isSome_iff_exists.1 hprog
  rw [hu] at h
  cases h
  have hacorde := (hf.vigilado pid).acorde
  rw [hu, banderas_eq hp, hlibre] at hacorde
  apply Sigue.of_despierto hf rfl
  · exact fun S hC => ⟨S, subset_rfl, hC⟩
  · exact fun pid' _ => .refl pid' _
  · rw [banderas_eq hp, hlibre]
    exact hacorde.pedir (by decide)
  · intro fase hfase hsin
    rw [List.nil_append, List.mem_singleton] at hfase
    exact (hfase ▸ hsin).elim
  · simp

theorem recalcular_sigue {ahora : ℕ} (hf : Sano f) (h : f.recalcular env pid ahora = .ok f') :
    Sigue f f' True := by
  rw [recalcular] at h
  split_ifs at h with hfase
  simp only [bind_eq_ok, pure_eq_ok] at h
  obtain ⟨s, hs, rfl⟩ := h
  have hv := hf.vigilado pid
  obtain ⟨hfases, heq⟩ := avanzar_eq s [.replanificar] hv hfase
  have htiempos := recalcularEstimacion_soloTiempos hs
  have hacorde := hv.acorde
  rw [hfases] at hacorde
  obtain ⟨hband, haparte⟩ := hacorde.of_antes (by decide) (by decide)
  apply Sigue.of_despierto hf heq
  · exact fun S hC => (htiempos.mueve Lugar.MismaFase False).coherente hC
  · exact fun pid' _ => htiempos.ajeno pid'
  · rw [(htiempos.ajeno pid).banderas, hband]
    exact .antes (by decide) haparte
  · intro fase hfase hsin
    rw [List.mem_singleton] at hfase
    exact (hfase ▸ hsin).elim
  · simp

theorem replanificar_sigue (hf : Sano f) (h : f.replanificar env pid = .ok f') :
    Sigue f f' True := by
  rw [replanificar] at h
  split_ifs at h with hfase
  simp only [bind_eq_ok, pure_eq_ok] at h
  obtain ⟨s, hs, rfl⟩ := h
  have hv := hf.vigilado pid
  obtain ⟨hfases, heq⟩ := avanzar_eq s [.elegir] hv hfase
  have hacorde := hv.acorde
  rw [hfases] at hacorde
  obtain ⟨hband, haparte⟩ := hacorde.of_antes (by decide) (by decide)
  apply Sigue.of_despierto hf heq
  · exact fun S hC => (replanificarHilos_mueve hs).2.coherente hC
  · exact fun pid' _ => replanificarHilos_ajeno hs pid'
  · rw [(replanificarHilos_ajeno hs pid).banderas, hband]
    exact .antes (by decide) haparte
  · intro fase hfase hsin
    rw [List.mem_singleton] at hfase
    exact (hfase ▸ hsin).elim
  · simp

theorem elegir_sigue {reloj : ℕ → ℕ} (hf : Sano f) (h : f.elegir env pid reloj = .ok f') :
    Sigue f f' True := by
  rw [elegir] at h
  split_ifs at h with hfase
  simp only [noNulo, bind_eq_ok, orFail_eq_ok] at h
  obtain ⟨l, hl, p, hp, h⟩ := h
  have hv := hf.vigilado pid
  have hacorde := hv.acorde
  rw [hv.acorde.eq_singleton hfase] at hacorde
  obtain ⟨hband, haparte⟩ := hacorde.of_antes (by decide) (by decide)
  split_ifs at h with hvacio
  · -- it lets go of the semaphores with nothing chosen
    rw [pure_eq_ok] at h
    obtain ⟨-, heq⟩ := avanzar_eq f.s [.vacio] hv hfase
    have hparado : Parado f.s pid := by
      refine ⟨⟨l, hl⟩, ?_⟩
      rw [contenido_exec hp, hvacio.1]
      rfl
    apply Sigue.of_despierto hf (h.symm.trans heq)
    · exact fun S hC => ⟨S, subset_rfl, hC⟩
    · exact fun pid' _ => .refl pid' _
    · rw [hband]
      exact .antes (by decide) haparte
    · exact fun _ _ _ => hparado
    · simp
  · simp only [bind_eq_ok, pure_eq_ok] at h
    obtain ⟨r, hr, h⟩ := h
    obtain ⟨-, heq⟩ := avanzar_eq r.1 [] hv hfase
    obtain ⟨hband', hajeno⟩ := calcularSiguienteHilo_ajeno hr hp hl hvacio
    apply Sigue.of_despierto hf (h.symm.trans heq)
    · exact fun S hC => (calcularSiguienteHilo_mueve hC hr).1.coherente hC
    · exact hajeno
    · rw [hband', hband]
      exact .libre haparte
    · simp
    · simp

/-- Setting the flag loses a wake-up exactly when something is in ready already
and no signal will look at the flag. -/
theorem bandera_sigue (hf : Sano f) (h : f.bandera pid = .ok f') :
    Sigue f f' (Oportuno ⟨f, .bandera pid, f'⟩) := by
  rw [bandera] at h
  split_ifs at h with hfase
  simp only [noNulo, bind_eq_ok, orFail_eq_ok, pure_eq_ok] at h
  obtain ⟨p, hp, h⟩ := h
  have hv := hf.vigilado pid
  obtain ⟨hfases, heq⟩ := avanzar_eq
    (f.s.ponerPrograma pid { p with estaBloqueado := true }) [.enMutex] hv hfase
  have hacorde := hv.acorde
  rw [hfases] at hacorde
  obtain ⟨hband, haparte⟩ := hacorde.of_antes (by decide) (by decide)
  have hmutex : p.mutexTomado = true := by
    rw [banderas_eq hp, Programa.banderas, Option.some_inj, Prod.mk.injEq] at hband
    exact hband.2
  have hband' : banderas (f.s.ponerPrograma pid { p with estaBloqueado := true }) pid =
      some (true, true) := by
    rw [banderas_ponerPrograma, update_self, Programa.banderas, hmutex]
  have hf' := h.symm.trans heq
  apply Sigue.of_manejador hf hf'
  · exact fun S hC => ⟨S, subset_rfl, hC.ponerPrograma hp rfl rfl⟩
  · exact fun pid' hne => ponerPrograma_ajeno hne
  · rw [hband']
    exact .bloqueado haparte
  · exact fun _ _ _ => (hv.parado .vacio hfase trivial).ponerPrograma hp rfl
  · intro _
    have hbloq : Bloqueado f' pid := by
      rw [hf']
      exact ⟨by simp, true, hband'⟩
    have hdesp : Despertando f' pid ↔ Despertando f pid := by rw [hf']; rfl
    have hready : contenido f'.s (.ready pid) = contenido f.s (.ready pid) := by rw [hf']; rfl
    rw [Atendido, hdesp, hready]
    constructor
    · intro ha
      exact or_iff_not_imp_left.2 (ha hbloq)
    · exact fun hop _ => or_iff_not_imp_left.1 hop

theorem lock_sigue (hf : Sano f) (h : f.lock pid = .ok f') : Sigue f f' True := by
  rw [lock] at h
  split_ifs at h with hfase
  simp only [noNulo, bind_eq_ok, orFail_eq_ok] at h
  obtain ⟨p, hp, h⟩ := h
  split_ifs at h with htomado
  rw [pure_eq_ok] at h
  have hv := hf.vigilado pid
  obtain ⟨hfases, heq⟩ := avanzar_eq
    (f.s.ponerPrograma pid { p with mutexTomado := true }) [.despierto] hv hfase
  have hacorde := hv.acorde
  rw [hfases, banderas_eq hp, Programa.banderas, Bool.eq_false_iff.2 htomado] at hacorde
  apply Sigue.of_despierto hf (h.symm.trans heq)
  · exact fun S hC => ⟨S, subset_rfl, hC.ponerPrograma hp rfl rfl⟩
  · exact fun pid' hne => ponerPrograma_ajeno hne
  · rw [banderas_ponerPrograma, update_self, Programa.banderas]
    exact hacorde.despertar
  · exact fun _ _ _ => (hv.parado .enMutex hfase trivial).ponerPrograma hp rfl
  · simp

theorem resumir_sigue {reloj : ℕ → ℕ} (hf : Sano f) (h : f.resumir pid reloj = .ok f') :
    Sigue f f' True := by
  rw [resumir] at h
  split_ifs at h with hfase
  simp only [noNulo, bind_eq_ok, orFail_eq_ok] at h
  obtain ⟨l, hl, h⟩ := h
  cases l with
  | nil => cases h
  | cons candidato resto =>
      simp only [bind_eq_ok, pure_eq_ok] at h
      obtain ⟨⟨s, r⟩, hr, h⟩ := h
      obtain ⟨p, hilo, hp, hh, rfl, -⟩ := ponerEnExec_ok hr
      have hv := hf.vigilado pid
      obtain ⟨hfases, heq⟩ := avanzar_eq
        (enExec f.s pid candidato resto reloj p hilo) [] hv hfase
      obtain ⟨hband, hajeno⟩ := enExec_ajeno candidato resto reloj hilo hp
      have hacorde := hv.acorde
      rw [hfases] at hacorde
      apply Sigue.of_despierto hf (h.symm.trans heq)
      · exact fun S hC => (enExec_mueve reloj hC hp hl hh).1.coherente hC
      · exact hajeno
      · rw [hband]
        exact hacorde.resumir
      · simp
      · simp

/-! ## Runs -/

/-- One step of a run in which no program has two requests pending. -/
theorem paso_sigue {e : EventoFino} (hf : Sano f) (h : paso env f e = .ok f')
    (hu : UnPedido ⟨f, e, f'⟩) : Sigue f f' (Oportuno ⟨f, e, f'⟩) := by
  cases e with
  | mensaje e => exact mensaje_sigue hf h
  | metricas ahora => exact metricas_sigue hf h
  | senial pid tid semID => exact senial_sigue hf h
  | senialPasar ahora => exact senialPasar_sigue hf h
  | senialLeer => exact senialLeer_sigue hf h
  | senialDesbloquear => exact senialDesbloquear_sigue hf h
  | senialBajar => exact senialBajar_sigue hf h
  | senialDescontar => exact senialDescontar_sigue hf h
  | tomar => exact tomar_sigue hf h
  | lugar => exact lugar_sigue hf h
  | contar => exact contar_sigue hf h
  | pasar ahora => exact pasar_sigue hf h
  | scheduleNext pid => exact scheduleNext_sigue hf (hu pid rfl) h
  | recalcular pid ahora => exact recalcular_sigue hf h
  | replanificar pid => exact replanificar_sigue hf h
  | elegir pid reloj => exact elegir_sigue hf h
  | bandera pid => exact bandera_sigue hf h
  | lock pid => exact lock_sigue hf h
  | resumir pid reloj => exact resumir_sigue hf h

theorem inicial_sano (c : Configuracion) : Sano (inicial c : Fino E) := by
  constructor
  · refine ⟨∅, iniciarSUSE_coherente c, ?_⟩
    intro unHilo pid hc
    cases hc
  · exact fun pid => ⟨.sinPrograma, fun fase hfase => by cases hfase⟩

/-- In a run in which no program has two requests pending, no wake-up is lost in
any state if and only if every step is opportune. -/
theorem sinDespertarPerdido_iff (env : Entorno E) (c : Configuracion)
    {tr : List (Step (Fino E) EventoFino)}
    (hrun : Run (Transicion env) (inicial c) tr f) (hu : ∀ x ∈ tr, UnPedido x) :
    (∀ x ∈ tr, SinDespertarPerdido x.post) ↔ ∀ x ∈ tr, Oportuno x := by
  refine (hrun.restrict hu).forall_mem_iff SinDespertarPerdido Oportuno ?_ ?_
  · intro pid
    apply atendido_of_not_bloqueado
    apply not_bloqueado_of
    simp [inicial]
  · intro tr f e f' hrun hperdido hs
    have hsano : Sano f := by
      refine hrun.invariant Sano (fun _ => True) (inicial_sano c) ?_ (by simp)
      intro f e f' hf _ hs
      exact (paso_sigue hf hs.1 hs.2).sano
    exact (paso_sigue hsano hs.1 hs.2).perdido hperdido

/-- The main thread of a program waits on a semaphore, its handler parks, and
then `planificarReady` admits the second thread of the program. -/
def admisionTardia : List EventoFino :=
  [.mensaje (.conectar 5), .mensaje (.crear 5 0 (0, 0) 0), .mensaje (.crear 5 1 (0, 0) 0),
    .tomar, .lugar, .contar, .pasar 0, .mensaje (.wait 5 0 "s"),
    .scheduleNext 5, .recalcular 5 0, .replanificar 5, .elegir 5 fun _ => 0, .bandera 5,
    .tomar, .lugar, .contar, .pasar 0]

def dosLugares : Configuracion := ⟨2, [("s", ⟨0, 1⟩)]⟩

instance (x : Step (Fino E) EventoFino) : Decidable (UnPedido x) :=
  inferInstanceAs (Decidable (∀ pid ∈ x.label.pide, x.pre.manejadores pid = []))

/-- The main thread of program 5 waits on a semaphore, its handler parks, and a signal of
program 6 wakes it. -/
def despertarAjeno : List EventoFino :=
  [.mensaje (.conectar 5), .mensaje (.conectar 6), .mensaje (.crear 5 0 (0, 0) 0),
    .mensaje (.crear 6 0 (0, 0) 0), .tomar, .lugar, .contar, .pasar 0, .tomar, .lugar, .contar,
    .pasar 0, .mensaje (.wait 5 0 "s"), .scheduleNext 5, .recalcular 5 0, .replanificar 5,
    .elegir 5 fun _ => 0, .bandera 5, .senial 6 0 "s", .senialPasar 0, .senialLeer,
    .senialDesbloquear, .lock 5, .resumir 5 fun _ => 0, .senialBajar, .senialDescontar]

/-- The flag is set with nothing in ready, and no thread is admitted for a parked handler. -/
def SinParar (x : Step (Fino E) EventoFino) : Prop :=
  match x.label with
  | .bandera pid => contenido x.pre.s (.ready pid) = []
  | .pasar _ => ∀ unHilo ∈ x.pre.s.unHilo, ∀ id ∈ identidad x.pre.s unHilo,
      FaseScheduleNext.enMutex ∉ x.pre.manejadores id.1
  | _ => True

theorem SinParar.oportuno {x : Step (Fino E) EventoFino} (h : SinParar x) : Oportuno x := by
  rw [Oportuno]
  rw [SinParar] at h
  split at h
  · exact .inr h
  · exact fun unHilo pid tid hhilo hid hbloqueado =>
      absurd hbloqueado.1 (h unHilo hhilo (pid, tid) hid)
  · trivial

instance (x : Step (Fino E) EventoFino) : Decidable (SinParar x) :=
  match x with
  | ⟨f, .bandera pid, _⟩ => inferInstanceAs (Decidable (contenido f.s (.ready pid) = []))
  | ⟨f, .pasar _, _⟩ => inferInstanceAs (Decidable (∀ unHilo ∈ f.s.unHilo,
      ∀ id ∈ identidad f.s unHilo, FaseScheduleNext.enMutex ∉ f.manejadores id.1))
  | ⟨_, .mensaje _, _⟩ | ⟨_, .metricas _, _⟩ | ⟨_, .senial _ _ _, _⟩ | ⟨_, .senialPasar _, _⟩
  | ⟨_, .senialLeer, _⟩ | ⟨_, .senialDesbloquear, _⟩ | ⟨_, .senialBajar, _⟩
  | ⟨_, .senialDescontar, _⟩ | ⟨_, .tomar, _⟩ | ⟨_, .lugar, _⟩ | ⟨_, .contar, _⟩
  | ⟨_, .scheduleNext _, _⟩ | ⟨_, .recalcular _ _, _⟩ | ⟨_, .replanificar _, _⟩
  | ⟨_, .elegir _ _, _⟩ | ⟨_, .lock _, _⟩ | ⟨_, .resumir _ _, _⟩ => .isTrue trivial

theorem sinDespertarPerdido_iff_admisionTardia :
    (∀ x ∈ trace (paso entornoRacional) (inicial dosLugares) despertarAjeno,
        SinDespertarPerdido x.post) ∧
      ¬ ∀ x ∈ trace (paso entornoRacional) (inicial dosLugares) admisionTardia,
        SinDespertarPerdido x.post := by
  constructor
  · have hrun := Run.execute (paso entornoRacional) (s := inicial dosLugares) despertarAjeno
      (by decide +kernel)
    rw [sinDespertarPerdido_iff entornoRacional dosLugares hrun (by decide +kernel)]
    have hparar : ∀ x ∈ trace (paso entornoRacional) (inicial dosLugares) despertarAjeno,
        SinParar x := by
      decide +kernel
    exact fun x hx => (hparar x hx).oportuno
  · have hrun := Run.execute (paso entornoRacional) (s := inicial dosLugares) admisionTardia
      (by decide)
    rw [sinDespertarPerdido_iff entornoRacional dosLugares hrun (by decide)]
    intro hop
    have hultimo := hop _ (List.get_mem _ ⟨16, by decide⟩)
    rcases hultimo 1 5 1 rfl rfl ⟨by decide, true, by decide⟩ with h | h
    · exact absurd h (by decide)
    · exact absurd h (by decide)

theorem sinDespertarPerdido_admisionTardia :
    ¬ ∀ (c : Configuracion) (tr : List (Step (Fino ℚ) EventoFino)) (f : Fino ℚ),
      Run (Transicion entornoRacional) (inicial c) tr f → (∀ x ∈ tr, UnPedido x) →
        SinDespertarPerdido f := by
  intro hclaim
  have hrun := Run.execute (paso entornoRacional) (s := inicial dosLugares) admisionTardia
    (by decide)
  have hatendido := hclaim dosLugares _ _ hrun (by decide) 5
  have hbloq : Bloqueado (final (paso entornoRacional) (inicial dosLugares) admisionTardia) 5 :=
    ⟨by decide, true, by decide⟩
  have hdesp : ¬ Despertando
      (final (paso entornoRacional) (inicial dosLugares) admisionTardia) 5 := by
    rintro (h | h) <;> exact absurd h (by decide)
  exact absurd (hatendido hbloq hdesp) (by decide)

end Fino

end Suse
