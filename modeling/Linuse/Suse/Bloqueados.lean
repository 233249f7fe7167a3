import Linuse.Suse.Independencia

/-!
# The counter of blocked threads

`cantidadDeHilosEnBlocked` counts the threads of a program that are in the queue
of a semaphore or in one of its join lists. Two handlers lose the count: a signal
decrements the counter of the program that signals, whoever owns the thread it
wakes, and a join does not count a thread whose id is already in a join list of
its program. In a run without disconnections the counters are right in every state
if and only if no step does either (`cuentaJusta_iff`).

Each handler is measured by what it does to the `saldo` of a program, its counter
minus the number of its threads that are blocked.
-/

namespace Suse

open Function (update update_self update_of_ne)
open Fallible Transition

variable {E : Type} {s s' s'' : Estado E} {S : Set Puntero} {env : Entorno E}

/-- The join lists of a program, by the thread that is waited for. -/
def joinsDe (s : Estado E) (pid : Pid) : Dictionary Tid (List Puntero) :=
  ((s.diccionarioDeProgramas.get pid).map Programa.blocked).getD .empty

/-- The threads in the join lists of a program. -/
def enJoins (s : Estado E) (pid : Pid) : List Puntero := (joinsDe s pid).concat

/-- The threads in the queues of the semaphores. -/
def enColas (s : Estado E) : List Puntero := s.diccionarioDeBlockedPorSemaforo.concat

/-- The counter `cantidadDeHilosEnBlocked` of a program, 0 when there is no such
program. -/
def cuentaBlocked (s : Estado E) (pid : Pid) : ℤ :=
  ((s.diccionarioDeProgramas.get pid).map Programa.cantidadDeHilosEnBlocked).getD 0

/-- How many threads of a program are in the queue of a semaphore or in one of its
join lists. -/
def hilosEnBlocked (s : Estado E) (pid : Pid) : ℕ :=
  (enColas s).countP (esDelPrograma s pid) + (enJoins s pid).countP (esDelPrograma s pid)

/-- By how much the counter of a program is over. -/
def saldo (s : Estado E) (pid : Pid) : ℤ := cuentaBlocked s pid - hilosEnBlocked s pid

/-- Every counter is right. -/
def CuentaJusta (s : Estado E) : Prop :=
  ∀ pid p, s.diccionarioDeProgramas.get pid = some p →
    p.cantidadDeHilosEnBlocked = hilosEnBlocked s pid

/-- A signal on the semaphore takes the thread `x` out of its queue. -/
def Despierta (s : Estado E) (semID : String) (x : Puntero) : Prop :=
  ∃ sem resto, s.semaforos.get semID = some sem ∧
    sem.valorActualSemaforo + 1 ≤ sem.valorMaximoSemaforo ∧
    s.diccionarioDeBlockedPorSemaforo.get semID = some (x :: resto)

/-- A join on `tid` blocks the running thread `x` of the program. -/
def Bloquea (s : Estado E) (pid : Pid) (tid : Tid) (p : Programa) (x : Puntero) (h : Hilo E) :
    Prop :=
  s.diccionarioDeProgramas.get pid = some p ∧ p.exec = some x ∧ s.hilos x = some h ∧
    terminoElHilo s tid = false

/-- The steps that keep the counters: a signal wakes a thread of the program that
signals, and a join blocks a thread whose id is in no join list of its program. -/
def CuentaPropia (x : Step (Estado E) Evento) : Prop :=
  match x.label with
  | .signal pid _ semID _ => ∀ y, Despierta x.pre semID y → esDelPrograma x.pre pid y = true
  | .join pid tid => ∀ p y h, Bloquea x.pre pid tid p y h →
      bloqueadoPorAlgunHilo x.pre p h.tid = false
  | _ => True

theorem cuentaPropia_signal {s s' : Estado E} {pid : Pid} {tid : Tid} {semID : String}
    {ahora : ℕ} : CuentaPropia ⟨s, .signal pid tid semID ahora, s'⟩ ↔
      ∀ sem ∈ s.semaforos.get semID, sem.valorActualSemaforo + 1 ≤ sem.valorMaximoSemaforo →
        ∀ cola ∈ s.diccionarioDeBlockedPorSemaforo.get semID, ∀ y ∈ cola.head?,
          esDelPrograma s pid y = true := by
  constructor
  · intro h sem hsem hmax cola hcola y hy
    obtain ⟨resto, rfl⟩ := List.head?_eq_some_iff.1 hy
    exact h y ⟨sem, resto, hsem, hmax, hcola⟩
  · rintro h y ⟨sem, resto, hsem, hmax, hcola⟩
    exact h sem hsem hmax _ hcola y rfl

theorem cuentaPropia_join {s s' : Estado E} {pid : Pid} {tid : Tid} :
    CuentaPropia ⟨s, .join pid tid, s'⟩ ↔
      ∀ p ∈ s.diccionarioDeProgramas.get pid, ∀ y ∈ p.exec, ∀ h ∈ s.hilos y,
        terminoElHilo s tid = false → bloqueadoPorAlgunHilo s p h.tid = false :=
  ⟨fun h p hp y hy h' hh hno => h p y h' ⟨hp, hy, hh, hno⟩,
    fun h p y h' hb => h p hb.1 y hb.2.1 h' hb.2.2.1 hb.2.2.2⟩

instance : (x : Step (Estado E) Evento) → Decidable (CuentaPropia x)
  | ⟨_, .signal _ _ _ _, _⟩ => decidable_of_iff _ cuentaPropia_signal.symm
  | ⟨_, .join _ _, _⟩ => decidable_of_iff _ cuentaPropia_join.symm
  | ⟨_, .conectar _, _⟩ | ⟨_, .crear _ _ _ _, _⟩ | ⟨_, .tomar, _⟩ | ⟨_, .admitir _, _⟩
  | ⟨_, .wait _ _ _, _⟩ | ⟨_, .close _ _ _, _⟩ | ⟨_, .scheduleNext _ _, _⟩
  | ⟨_, .despertar _ _, _⟩ | ⟨_, .metricas _, _⟩ | ⟨_, .desconectar _, _⟩ => isTrue trivial

/-- Every thread is of a connected program. -/
def ConPrograma (s : Estado E) : Prop :=
  ∀ x i, identidad s x = some i → tienePrograma s i.1

/-- No two threads in the join lists of a program have the same id. -/
def JoinsDistintos (s : Estado E) : Prop :=
  ∀ pid x y, x ∈ enJoins s pid → y ∈ enJoins s pid → identidad s x = identidad s y → x = y

theorem joinsDe_eq {pid : Pid} {p : Programa} (hp : s.diccionarioDeProgramas.get pid = some p) :
    joinsDe s pid = p.blocked := by
  simp [joinsDe, hp]

theorem enJoins_eq {pid : Pid} {p : Programa} (hp : s.diccionarioDeProgramas.get pid = some p) :
    enJoins s pid = p.blocked.concat := by
  rw [enJoins, joinsDe_eq hp]

theorem contenido_join_eq (s : Estado E) (pid : Pid) (tid : Tid) :
    contenido s (.join pid tid) = ((joinsDe s pid).get tid).getD [] := by
  cases hp : s.diccionarioDeProgramas.get pid with
  | none => simp [joinsDe, contenido, hp]
  | some p => rw [contenido_join hp, joinsDe_eq hp]

theorem cuentaBlocked_eq {pid : Pid} {p : Programa}
    (hp : s.diccionarioDeProgramas.get pid = some p) :
    cuentaBlocked s pid = p.cantidadDeHilosEnBlocked := by
  simp [cuentaBlocked, hp]

theorem mem_enJoins {pid : Pid} {x : Puntero} :
    x ∈ enJoins s pid ↔ ∃ tid, x ∈ contenido s (.join pid tid) := by
  simp only [enJoins, Dictionary.mem_concat, contenido_join_eq]

theorem mem_enColas {x : Puntero} :
    x ∈ enColas s ↔ ∃ semID, x ∈ contenido s (.semaforo semID) :=
  Dictionary.mem_concat

/-- The search finds a thread of the join lists with this id. -/
theorem bloqueadoPorAlgunHilo_iff_mem (hC : Coherente s S) {pid : Pid} {p : Programa} {tid : Tid}
    (hp : s.diccionarioDeProgramas.get pid = some p) :
    bloqueadoPorAlgunHilo s p tid = true ↔
      ∃ y ∈ enJoins s pid, identidad s y = some (pid, tid) := by
  constructor
  · intro h
    obtain ⟨y, t, hilo, hy, hh, rfl⟩ := bloqueadoPorAlgunHilo_mem hp h
    have hpid : pid = hilo.pid := hC.identidad_of_mem hy hh
    exact ⟨y, mem_enJoins.2 ⟨t, hy⟩, hpid ▸ identidad_eq hh⟩
  · rintro ⟨y, hy, hid⟩
    obtain ⟨t, hy⟩ := mem_enJoins.1 hy
    refine (bloqueadoPorAlgunHilo_iff hp).2 ⟨t, pid, ?_⟩
    rw [vistaLugar, List.mem_map]
    exact ⟨y, hy, hid⟩

/-- The counters are right when nobody's is over: a program that is not connected
has no thread. -/
theorem cuentaJusta_iff_saldo (hcon : ConPrograma s) :
    CuentaJusta s ↔ ∀ pid, saldo s pid = 0 := by
  constructor
  · intro h pid
    cases hp : s.diccionarioDeProgramas.get pid with
    | none =>
        have hnadie : ∀ l : List Puntero, l.countP (esDelPrograma s pid) = 0 := by
          intro l
          rw [List.countP_eq_zero]
          intro x _ hx
          rw [esDelPrograma, beq_iff_eq, Option.map_eq_some_iff] at hx
          obtain ⟨i, hi, rfl⟩ := hx
          obtain ⟨p, hp'⟩ := hcon x i hi
          rw [hp] at hp'
          cases hp'
        simp [saldo, hilosEnBlocked, hnadie, cuentaBlocked, hp]
    | some p =>
        rw [saldo, cuentaBlocked_eq hp, h pid p hp]
        omega
  · intro h pid p hp
    have hsaldo := h pid
    rw [saldo, cuentaBlocked_eq hp] at hsaldo
    omega

/-! ## Handlers that block nobody -/

theorem joinsDe_ponerPrograma {pid : Pid} {p q : Programa}
    (hp : s.diccionarioDeProgramas.get pid = some p) (hblocked : q.blocked = p.blocked)
    (pid' : Pid) : joinsDe (s.ponerPrograma pid q) pid' = joinsDe s pid' := by
  by_cases heq : pid' = pid
  · subst heq
    simp [joinsDe, hp, hblocked]
  · simp [joinsDe, Dictionary.get_put_of_ne _ _ heq]

/-- The queues of the semaphores, the join lists and the counters are the same. -/
structure MismosBloqueados (s s' : Estado E) : Prop where
  colas : enColas s' = enColas s
  joins : ∀ pid, joinsDe s' pid = joinsDe s pid
  cuenta : ∀ pid, cuentaBlocked s' pid = cuentaBlocked s pid

namespace MismosBloqueados

theorem refl (s : Estado E) : MismosBloqueados s s := ⟨rfl, fun _ => rfl, fun _ => rfl⟩

theorem trans (h : MismosBloqueados s s') (h' : MismosBloqueados s' s'') :
    MismosBloqueados s s'' where
  colas := h'.colas.trans h.colas
  joins := fun pid => (h'.joins pid).trans (h.joins pid)
  cuenta := fun pid => (h'.cuenta pid).trans (h.cuenta pid)

/-- Rewriting what these facts do not speak of. -/
theorem of_eq (hcolas : s'.diccionarioDeBlockedPorSemaforo = s.diccionarioDeBlockedPorSemaforo)
    (hprog : s'.diccionarioDeProgramas = s.diccionarioDeProgramas) : MismosBloqueados s s' :=
  ⟨by simp only [enColas, hcolas], fun _ => by simp only [joinsDe, hprog],
    fun _ => by simp only [cuentaBlocked, hprog]⟩

/-- Writing a program whose join lists and counter stay. -/
theorem ponerPrograma {pid : Pid} {p q : Programa}
    (hp : s.diccionarioDeProgramas.get pid = some p) (hblocked : q.blocked = p.blocked)
    (hcuenta : q.cantidadDeHilosEnBlocked = p.cantidadDeHilosEnBlocked) :
    MismosBloqueados s (s.ponerPrograma pid q) := by
  refine ⟨rfl, joinsDe_ponerPrograma hp hblocked, fun pid' => ?_⟩
  by_cases heq : pid' = pid
  · subst heq
    simp [cuentaBlocked, hp, hcuenta]
  · simp [cuentaBlocked, Dictionary.get_put_of_ne _ _ heq]

theorem enJoins (h : MismosBloqueados s s') (pid : Pid) : enJoins s' pid = enJoins s pid := by
  rw [Suse.enJoins, Suse.enJoins, h.joins]

theorem contenido_join (h : MismosBloqueados s s') (pid : Pid) (tid : Tid) :
    contenido s' (.join pid tid) = contenido s (.join pid tid) := by
  rw [contenido_join_eq, contenido_join_eq, h.joins]

/-- When the blocked threads keep their ids, nobody's counter changes its
distance. -/
theorem saldo (h : MismosBloqueados s s')
    (hid : ∀ x l, x ∈ contenido s l → identidad s' x = identidad s x) (pid : Pid) :
    saldo s' pid = saldo s pid := by
  have hcolas : (enColas s').countP (esDelPrograma s' pid) =
      (enColas s).countP (esDelPrograma s pid) := by
    rw [h.colas]
    refine List.countP_congr fun x hx => ?_
    obtain ⟨semID, hx⟩ := mem_enColas.1 hx
    rw [esDelPrograma, esDelPrograma, hid x _ hx]
  have hjoins : (Suse.enJoins s' pid).countP (esDelPrograma s' pid) =
      (Suse.enJoins s pid).countP (esDelPrograma s pid) := by
    rw [h.enJoins]
    refine List.countP_congr fun x hx => ?_
    obtain ⟨tid, hx⟩ := mem_enJoins.1 hx
    rw [esDelPrograma, esDelPrograma, hid x _ hx]
  rw [Suse.saldo, Suse.saldo, hilosEnBlocked, hilosEnBlocked, hcolas, hjoins, h.cuenta]

theorem joinsDistintos (h : MismosBloqueados s s')
    (hid : ∀ x l, x ∈ contenido s l → identidad s' x = identidad s x)
    (hd : JoinsDistintos s) : JoinsDistintos s' := by
  intro pid x y hx hy heq
  rw [h.enJoins] at hx hy
  obtain ⟨tx, hx'⟩ := mem_enJoins.1 hx
  obtain ⟨ty, hy'⟩ := mem_enJoins.1 hy
  rw [hid x _ hx', hid y _ hy'] at heq
  exact hd pid x y hx hy heq

end MismosBloqueados

theorem SoloTiempos.mismosBloqueados (h : SoloTiempos s s') : MismosBloqueados s s' := by
  refine ⟨h.campo enColas, fun pid => ?_, fun pid => ?_⟩
  · have hmap := congrArg (fun o => (o.map Programa.blocked).getD .empty) (h.programas pid)
    simpa [Function.comp_def, Programa.sinTiempo, joinsDe] using hmap
  · have hmap := congrArg
      (fun o => (o.map Programa.cantidadDeHilosEnBlocked).getD 0) (h.programas pid)
    simpa [Function.comp_def, Programa.sinTiempo, cuentaBlocked] using hmap

theorem pasarAReady_mismosBloqueados {x : Puntero} {ahora : ℕ}
    (h : pasarAReady s x ahora = .ok s') : MismosBloqueados s s' := by
  obtain ⟨hilo, p, -, hp, ⟨-, rfl⟩ | ⟨lista, -, rfl⟩⟩ := pasarAReady_ok h
  · have hready : MismosBloqueados s (s.ponerReady hilo.pid []) := .of_eq rfl rfl
    exact hready.trans (.ponerPrograma hp rfl rfl)
  · have hready : MismosBloqueados s ((s.ponerReady hilo.pid (lista ++ [x])).ponerHilo x
        { hilo with timestampReady := ahora }) := .of_eq rfl rfl
    exact hready.trans (.ponerPrograma hp rfl rfl)

theorem despertarPrograma_mismosBloqueados {pid : Pid} {p : Programa}
    (hp : s.diccionarioDeProgramas.get pid = some p) :
    MismosBloqueados s (despertarPrograma s pid p) := by
  rw [despertarPrograma]
  split_ifs
  · exact .ponerPrograma hp rfl rfl
  · exact .refl s

theorem enExec_mismosBloqueados {pid : Pid} {x : Puntero} {resto : List Puntero} (reloj : ℕ → ℕ)
    {p : Programa} (h : Hilo E) (hp : s.diccionarioDeProgramas.get pid = some p) :
    MismosBloqueados s (enExec s pid x resto reloj p h) := by
  have hready : MismosBloqueados s ({ s with inicioRafaga := reloj 1 }.ponerReady pid resto) :=
    .of_eq rfl rfl
  have hprog := hready.trans (.ponerPrograma (q := { p with
    exec := some x, cantidadDeHilosEnReady := p.cantidadDeHilosEnReady - 1 }) hp rfl rfl)
  exact hprog.trans (.of_eq rfl rfl)

theorem siguienteAEjecutar_mismosBloqueados {pid : Pid} {reloj : ℕ → ℕ} {r : Option Tid}
    (h : siguienteAEjecutar env s pid reloj = .ok (s', r)) : MismosBloqueados s s' := by
  obtain ⟨s₁, s₂, htiempos, h₂, h⟩ := siguienteAEjecutar_ok h
  obtain ⟨l, l', -, -, rfl⟩ := replanificarHilos_ok h₂
  have hmismos : MismosBloqueados s (s₁.ponerReady pid l') :=
    htiempos.mismosBloqueados.trans (.of_eq rfl rfl)
  obtain ⟨_, p, -, hp, hcaso⟩ := calcularSiguienteHilo_ok h
  rcases hcaso with ⟨x, hilo, -, -, rfl, -⟩ |
    ⟨x, hilo, candidato, c, resto, -, -, -, -, rfl, -⟩ |
    ⟨candidato, resto, hilo, -, -, -, rfl, -⟩ | ⟨-, -, rfl, -⟩
  · exact hmismos.trans (.of_eq rfl rfl)
  · have hready : MismosBloqueados (s₁.ponerReady pid l')
        ({ s₁.ponerReady pid l' with inicioRafaga := reloj 1 }.ponerReady pid (resto ++ [x])) :=
      .of_eq rfl rfl
    have hprog := hready.trans (.ponerPrograma (q := { p with exec := some candidato }) hp rfl rfl)
    exact hmismos.trans (hprog.trans (.of_eq rfl rfl))
  · exact hmismos.trans (enExec_mismosBloqueados reloj hilo hp)
  · have hmutex : MismosBloqueados (s₁.ponerReady pid l') { s₁.ponerReady pid l' with
        enMutex := update s₁.enMutex pid (s₁.enMutex pid + 1) } := .of_eq rfl rfl
    exact hmismos.trans (hmutex.trans
      (.ponerPrograma (q := { p with estaBloqueado := true }) hp rfl rfl))

theorem calcularSiguienteHiloDespierto_mismosBloqueados {pid : Pid} {reloj : ℕ → ℕ}
    {r : Option Tid} (h : calcularSiguienteHiloDespierto s pid reloj = .ok (s', r)) :
    MismosBloqueados s s' := by
  obtain ⟨p, x, resto, hilo, hp, -, -, -, -, rfl, -⟩ := calcularSiguienteHiloDespierto_ok h
  have hmutex : MismosBloqueados s
      { s with enMutex := update s.enMutex pid (s.enMutex pid - 1) } := .of_eq rfl rfl
  have hdesp : MismosBloqueados s (despertado s pid p) :=
    hmutex.trans (.ponerPrograma (q := { p with mutexTomado := true }) hp rfl rfl)
  exact hdesp.trans (enExec_mismosBloqueados reloj hilo (Dictionary.get_put_self _ _ _))

/-- The events whose handler blocks or wakes threads, and the disconnection. -/
def Evento.MueveBloqueados : Evento → Prop
  | .wait _ _ _ => True
  | .signal _ _ _ _ => True
  | .join _ _ => True
  | .close _ _ _ => True
  | .desconectar _ => True
  | _ => False

theorem paso_mismosBloqueados {e : Evento} (he : ¬ e.MueveBloqueados)
    (h : paso env s e = .ok s') : MismosBloqueados s s' := by
  cases e with
  | conectar pid =>
      obtain ⟨hp, rfl⟩ := paso_conectar h
      refine ⟨rfl, fun pid' => ?_, fun pid' => ?_⟩
      · by_cases heq : pid' = pid
        · subst heq
          simp [joinsDe, crearPrograma, hp]
        · simp [joinsDe, crearPrograma, Dictionary.get_put_of_ne _ _ heq]
      · by_cases heq : pid' = pid
        · subst heq
          simp [cuentaBlocked, crearPrograma, hp]
        · simp [cuentaBlocked, crearPrograma, Dictionary.get_put_of_ne _ _ heq]
  | crear pid tid basura ahora =>
      obtain ⟨p, hp, rfl⟩ := crearHilo_ok h
      have hnuevo : MismosBloqueados s { s with
          hilos := update s.hilos s.proximo (some (hiloNuevo env pid tid basura ahora))
          proximo := s.proximo + 1
          new := s.new ++ [s.proximo]
          hayNuevos := s.hayNuevos + 1 } := .of_eq rfl rfl
      exact hnuevo.trans (.ponerPrograma hp rfl rfl)
  | tomar =>
      obtain ⟨-, -, unHilo, resto, -, rfl⟩ := planificarReadyTomar_ok h
      exact .of_eq rfl rfl
  | admitir ahora =>
      obtain ⟨unHilo, hilo, p, -, -, -, hp, h⟩ := planificarReadyAdmitir_ok h
      have hmano : MismosBloqueados s { s with
          maximoProcesamiento := s.maximoProcesamiento - 1, unHilo := none } := .of_eq rfl rfl
      have hsacar : MismosBloqueados s (sacarDeMano s hilo.pid p) :=
        hmano.trans (.ponerPrograma hp rfl rfl)
      exact hsacar.trans (pasarAReady_mismosBloqueados h)
  | scheduleNext pid reloj =>
      obtain ⟨r, h⟩ := paso_scheduleNext h
      exact siguienteAEjecutar_mismosBloqueados h
  | despertar pid reloj =>
      obtain ⟨r, h⟩ := paso_despertar h
      exact calcularSiguienteHiloDespierto_mismosBloqueados h
  | metricas ahora => exact (tomarMetricas_soloTiempos h).mismosBloqueados
  | wait pid tid semID => exact absurd trivial he
  | signal pid tid semID ahora => exact absurd trivial he
  | join pid tid => exact absurd trivial he
  | close pid tid ahora => exact absurd trivial he
  | desconectar pid => exact absurd trivial he

/-- No step but a disconnection changes the id of a thread that is somewhere. -/
theorem paso_identidad {e : Evento} (hC : Coherente s S) (he : ∀ pid, e ≠ .desconectar pid)
    (h : paso env s e = .ok s') (x : Puntero) (l : Lugar) (hx : x ∈ contenido s l) :
    identidad s' x = identidad s x := by
  by_cases hint : e.Interno
  · exact (paso_mueve hC h hint).identidad x
  · cases e with
    | conectar pid =>
        obtain ⟨-, rfl⟩ := paso_conectar h
        rfl
    | crear pid tid basura ahora =>
        rw [identidad_crearHilo h, if_neg (Nat.ne_of_lt (hC.lt_proximo hx))]
    | desconectar pid => exact absurd rfl (he pid)
    | _ => exact absurd trivial hint

theorem paso_conPrograma {e : Evento} (hC : Coherente s S) (he : ∀ pid, e ≠ .desconectar pid)
    (hcon : ConPrograma s) (h : paso env s e = .ok s') : ConPrograma s' := by
  by_cases hint : e.Interno
  · have hm := paso_mueve hC h hint
    intro x i hx
    rw [hm.identidad] at hx
    exact (hm.conPrograma i.1).2 (hcon x i hx)
  · cases e with
    | conectar pid =>
        obtain ⟨-, rfl⟩ := paso_conectar h
        intro x i hx
        obtain ⟨p, hp⟩ := hcon x i hx
        by_cases heq : i.1 = pid
        · exact ⟨_, by rw [heq]; exact Dictionary.get_put_self _ _ _⟩
        · exact ⟨p, by simp [crearPrograma, Dictionary.get_put_of_ne _ _ heq, hp]⟩
    | crear pid tid basura ahora =>
        have hid := identidad_crearHilo h
        obtain ⟨p, hp, rfl⟩ := crearHilo_ok h
        intro x i hx
        refine (tienePrograma_ponerPrograma hp i.1).2 ?_
        rw [hid] at hx
        split_ifs at hx with hxp
        · cases hx
          exact ⟨p, hp⟩
        · exact hcon x i hx
    | desconectar pid => exact absurd rfl (he pid)
    | _ => exact absurd trivial hint

/-! ## Handlers that block or wake a thread -/

theorem saldo_ponerBlockedPorSemaforo (semID : String) (l : List Puntero) (pid : Pid) :
    saldo (s.ponerBlockedPorSemaforo semID l) pid + l.countP (esDelPrograma s pid) =
      saldo s pid + (contenido s (.semaforo semID)).countP (esDelPrograma s pid) := by
  have hput := Dictionary.countP_concat_put (esDelPrograma s pid)
    s.diccionarioDeBlockedPorSemaforo semID l
  have hes : esDelPrograma (s.ponerBlockedPorSemaforo semID l) pid = esDelPrograma s pid := rfl
  have hjoins : enJoins (s.ponerBlockedPorSemaforo semID l) pid = enJoins s pid := rfl
  have hcuenta : cuentaBlocked (s.ponerBlockedPorSemaforo semID l) pid = cuentaBlocked s pid := rfl
  rw [saldo, saldo, hilosEnBlocked, hilosEnBlocked, hes, hjoins, hcuenta, enColas, enColas,
    Estado.ponerBlockedPorSemaforo_diccionarioDeBlockedPorSemaforo, contenido]
  omega

theorem saldo_ponerPrograma {pid : Pid} {p : Programa} (q : Programa)
    (hp : s.diccionarioDeProgramas.get pid = some p) (pid' : Pid) :
    saldo (s.ponerPrograma pid q) pid' = saldo s pid' +
      if pid' = pid then
        q.cantidadDeHilosEnBlocked - p.cantidadDeHilosEnBlocked +
          p.blocked.concat.countP (esDelPrograma s pid) -
            q.blocked.concat.countP (esDelPrograma s pid)
      else 0 := by
  have hes : esDelPrograma (s.ponerPrograma pid q) pid' = esDelPrograma s pid' := rfl
  have hcolas : enColas (s.ponerPrograma pid q) = enColas s := rfl
  rw [saldo, saldo, hilosEnBlocked, hilosEnBlocked, hes, hcolas]
  by_cases heq : pid' = pid
  · subst heq
    rw [if_pos rfl, enJoins_eq hp, enJoins_eq (Dictionary.get_put_self _ _ _),
      cuentaBlocked_eq hp, cuentaBlocked_eq (Dictionary.get_put_self _ _ _)]
    omega
  · have hjoins : enJoins (s.ponerPrograma pid q) pid' = enJoins s pid' := by
      simp [enJoins, joinsDe, Dictionary.get_put_of_ne _ _ heq]
    have hcuenta : cuentaBlocked (s.ponerPrograma pid q) pid' = cuentaBlocked s pid' := by
      simp [cuentaBlocked, Dictionary.get_put_of_ne _ _ heq]
    rw [if_neg heq, hjoins, hcuenta]
    omega

/-- Writing a program with another counter, and the same join lists. -/
theorem saldo_ponerPrograma_eq {pid : Pid} {p q : Programa}
    (hp : s.diccionarioDeProgramas.get pid = some p) (hblocked : q.blocked = p.blocked)
    (pid' : Pid) :
    saldo (s.ponerPrograma pid q) pid' = saldo s pid' +
      if pid' = pid then q.cantidadDeHilosEnBlocked - p.cantidadDeHilosEnBlocked else 0 := by
  rw [saldo_ponerPrograma q hp, hblocked, Int.add_sub_cancel]

/-- Writing a program with one join list replaced. -/
theorem saldo_ponerPrograma_put {pid : Pid} {p q : Programa} (tid : Tid) (l : List Puntero)
    (hp : s.diccionarioDeProgramas.get pid = some p) (hblocked : q.blocked = p.blocked.put tid l)
    (pid' : Pid) :
    saldo (s.ponerPrograma pid q) pid' = saldo s pid' +
      if pid' = pid then
        q.cantidadDeHilosEnBlocked - p.cantidadDeHilosEnBlocked +
          (contenido s (.join pid tid)).countP (esDelPrograma s pid) -
            l.countP (esDelPrograma s pid)
      else 0 := by
  have hput := Dictionary.countP_concat_put (esDelPrograma s pid) p.blocked tid l
  rw [saldo_ponerPrograma q hp, hblocked, contenido_join hp]
  split_ifs
  · omega
  · rfl

/-! ### Waits and signals -/

theorem esDelPrograma_eq {x : Puntero} {i : Pid × Tid} (h : identidad s x = some i) (pid : Pid) :
    esDelPrograma s pid x = decide (i.1 = pid) := by
  rw [esDelPrograma, h]
  rfl

/-- A wait that blocks takes the running thread of the program that waits. -/
theorem semSuseWait_saldo {pid : Pid} {tid : Tid} {semID : String} (hC : Coherente s S)
    (h : semSuseWait s pid tid semID = .ok s') (pid' : Pid) : saldo s' pid' = saldo s pid' := by
  rcases semSuseWait_ok h with
    ⟨-, rfl⟩ | ⟨sem, -, ⟨-, rfl⟩ | ⟨-, p, x, hilo, cola, hp, hexec, hh, -, hcola, rfl⟩⟩
  · rfl
  · rfl
  · have hx : x ∈ contenido s (.exec pid) := by rw [mem_exec hp hexec]; simp
    have hpid : pid = hilo.pid := hC.identidad_of_mem hx hh
    have hes := esDelPrograma_eq (identidad_eq hh) pid'
    have hcola' := saldo_ponerBlockedPorSemaforo (s := s) semID (cola ++ [x]) pid'
    rw [contenido_semaforo hcola, List.countP_append, List.countP_singleton, hes, ← hpid] at hcola'
    rw [saldo_ponerPrograma_eq (p := p)]
    · by_cases heq : pid' = pid
      · simp only [heq, decide_true, if_true] at hcola' ⊢
        omega
      · have hne : ¬ pid = pid' := fun h => heq h.symm
        simp only [heq, hne, decide_false, if_false, Bool.false_eq_true] at hcola' ⊢
        omega
    · exact hp
    · rfl

/-- A signal that wakes the thread `x` takes one from the counter of the program
that signals, and one from the blocked threads of the owner of `x`. -/
theorem semSuseSignal_saldo {pid : Pid} {semID : String} {ahora : ℕ} (hC : Coherente s S)
    (h : semSuseSignal s pid semID ahora = .ok s') :
    ((∀ x, ¬ Despierta s semID x) ∧ ∀ pid', saldo s' pid' = saldo s pid') ∨
      ∃ x, Despierta s semID x ∧ tienePrograma s' pid ∧ ∀ pid', saldo s' pid' = saldo s pid' -
        (if pid' = pid then 1 else 0) + if esDelPrograma s pid' x then 1 else 0 := by
  rcases semSuseSignal_ok h with
    ⟨hno, rfl⟩ | ⟨sem, hsem, ⟨hmax, rfl⟩ | ⟨-, hcola, rfl⟩ | ⟨hmax, ⟨x, resto, hcola⟩, hsacar⟩⟩
  · refine Or.inl ⟨?_, fun _ => rfl⟩
    rintro x ⟨sem, _, hsem, -⟩
    rw [hno] at hsem
    cases hsem
  · refine Or.inl ⟨?_, fun _ => rfl⟩
    rintro x ⟨sem', _, hsem', hmax', -⟩
    rw [hsem] at hsem'
    cases hsem'
    omega
  · refine Or.inl ⟨?_, fun _ => rfl⟩
    rintro x ⟨_, resto, -, -, hcola'⟩
    rw [hcola] at hcola'
    cases hcola'
  · refine Or.inr ⟨x, ⟨sem, resto, hsem, hmax, hcola⟩, ?_⟩
    rcases sacar1HiloDeLaColaDeBloqueadosPorSemaforo_ok hsacar with ⟨hvacia, -⟩ |
      ⟨x', resto', s₁, hilo, unPrograma, p, hcola', hs₁, -, hprog, hp, rfl⟩
    · rw [hcola] at hvacia
      cases hvacia
    rw [hcola] at hcola'
    cases hcola'
    refine ⟨⟨_, Dictionary.get_put_self _ _ _⟩, fun pid' => ?_⟩
    have hmismos := (pasarAReady_mismosBloqueados hs₁).trans
      (despertarPrograma_mismosBloqueados hprog)
    have hid : ∀ y l, y ∈ contenido (s.ponerBlockedPorSemaforo semID resto) l →
        identidad (despertarPrograma s₁ hilo.pid unPrograma) y =
          identidad (s.ponerBlockedPorSemaforo semID resto) y := fun y _ _ =>
      ((despertarPrograma_quieto hprog).1.identidad y).trans ((pasarAReady_quieto hs₁).identidad y)
    have hcola' := saldo_ponerBlockedPorSemaforo (s := s) semID resto pid'
    rw [contenido_semaforo hcola, List.countP_cons] at hcola'
    rw [saldo_ponerPrograma_eq (p := p), hmismos.saldo hid]
    · dsimp only
      split_ifs at hcola' ⊢ <;> omega
    · exact hp
    · rfl

theorem semSuseWait_joinsDe {pid : Pid} {tid : Tid} {semID : String}
    (h : semSuseWait s pid tid semID = .ok s') (pid' : Pid) : joinsDe s' pid' = joinsDe s pid' := by
  rcases semSuseWait_ok h with
    ⟨-, rfl⟩ | ⟨sem, -, ⟨-, rfl⟩ | ⟨-, p, x, hilo, cola, hp, -, -, -, -, rfl⟩⟩
  · rfl
  · rfl
  · rw [joinsDe_ponerPrograma (p := p)]
    · rfl
    · exact hp
    · rfl

theorem semSuseSignal_joinsDe {pid : Pid} {semID : String} {ahora : ℕ}
    (h : semSuseSignal s pid semID ahora = .ok s') (pid' : Pid) :
    joinsDe s' pid' = joinsDe s pid' := by
  rcases semSuseSignal_ok h with
    ⟨-, rfl⟩ | ⟨sem, -, ⟨-, rfl⟩ | ⟨-, -, rfl⟩ | ⟨-, -, hsacar⟩⟩
  · rfl
  · rfl
  · rfl
  · rcases sacar1HiloDeLaColaDeBloqueadosPorSemaforo_ok hsacar with ⟨-, rfl⟩ |
      ⟨x, resto, s₁, hilo, unPrograma, p, -, hs₁, -, hprog, hp, rfl⟩
    · rfl
    · rw [joinsDe_ponerPrograma (p := p), (despertarPrograma_mismosBloqueados hprog).joins,
        (pasarAReady_mismosBloqueados hs₁).joins]
      · rfl
      · exact hp
      · rfl

/-! ### Joins and closes -/

/-- A join that blocks the running thread counts it, unless its id is in a join
list of the program already. -/
theorem realizarJoin_saldo {pid : Pid} {tid : Tid} (hC : Coherente s S)
    (h : realizarJoin s pid tid = .ok s') :
    ((∀ p x hilo, ¬ Bloquea s pid tid p x hilo) ∧ s' = s) ∨
      ∃ p x hilo, Bloquea s pid tid p x hilo ∧
        s' = s.ponerPrograma pid (trasJoin s p x hilo tid) ∧
        ∀ pid', saldo s' pid' = saldo s pid' -
          if pid' = pid ∧ bloqueadoPorAlgunHilo s p hilo.tid = true then 1 else 0 := by
  by_cases hbloq : ∃ p x hilo, Bloquea s pid tid p x hilo
  · obtain ⟨p, x, hilo, hp, hexec, hh, htermino⟩ := hbloq
    have hs' : s' = s.ponerPrograma pid (trasJoin s p x hilo tid) := by
      rw [realizarJoin_espera hp hexec hh htermino] at h
      cases h
      rfl
    refine Or.inr ⟨p, x, hilo, ⟨hp, hexec, hh, htermino⟩, hs', fun pid' => ?_⟩
    have hx : x ∈ contenido s (.exec pid) := by rw [mem_exec hp hexec]; simp
    have hpid : pid = hilo.pid := hC.identidad_of_mem hx hh
    have hes : esDelPrograma s pid x = true := by
      rw [esDelPrograma_eq (identidad_eq hh), hpid]
      simp
    rw [hs', saldo_ponerPrograma_put (q := trasJoin s p x hilo tid) tid
      ((p.blocked.get tid).getD [] ++ [x]) hp rfl, contenido_join hp, List.countP_append,
      List.countP_singleton, hes]
    simp only [trasJoin, if_true]
    by_cases heq : pid' = pid
    · cases bloqueadoPorAlgunHilo s p hilo.tid <;> simp [heq] <;> omega
    · simp [heq]
  · have hno : ∀ p x hilo, ¬ Bloquea s pid tid p x hilo := fun p x hilo hb =>
      hbloq ⟨p, x, hilo, hb⟩
    refine Or.inl ⟨hno, ?_⟩
    rcases realizarJoin_ok h with rfl | ⟨p, x, hilo, _, hp, hexec, hh, -⟩
    · rfl
    · cases htermino : terminoElHilo s tid with
      | false => exact absurd ⟨hp, hexec, hh, htermino⟩ (hno p x hilo)
      | true =>
          rw [realizarJoin_ignora hp hexec htermino] at h
          cases h
          rfl

/-- A pass of the release loop takes one from the counter and one blocked thread
from the same program. -/
theorem liberado_saldo {pid : Pid} {tid : Tid} {ahora : ℕ} {p q : Programa} {x : Puntero}
    {resto l : List Puntero} {hilo : Hilo E} (hC : Coherente s S)
    (hl : contenido s (.join pid tid) = x :: resto)
    (hp : s.diccionarioDeProgramas.get pid = some p) (hh : s.hilos x = some hilo)
    (hq : (sacarDeLista s pid tid p resto).diccionarioDeProgramas.get hilo.pid = some q)
    (pid' : Pid) :
    saldo (liberado s pid tid ahora p q x resto l hilo) pid' = saldo s pid' := by
  have hpid : pid = hilo.pid := hC.identidad_of_mem (l := .join pid tid) (by simp [hl]) hh
  have hes : esDelPrograma s pid x = true := by
    rw [esDelPrograma_eq (identidad_eq hh), hpid]
    simp
  have hsacar : saldo (sacarDeLista s pid tid p resto) pid' =
      saldo s pid' + if pid' = pid then 1 else 0 := by
    rw [sacarDeLista, saldo_ponerPrograma_put tid resto hp rfl, hl, List.countP_cons, hes,
      if_pos (rfl : true = true)]
    dsimp only
    split_ifs <;> omega
  have hmismos : MismosBloqueados (sacarDeLista s pid tid p resto)
      (((sacarDeLista s pid tid p resto).ponerReady hilo.pid (l ++ [x])).ponerHilo x
        { hilo with timestampReady := ahora }) := .of_eq rfl rfl
  have hid : ∀ y lugar, y ∈ contenido (sacarDeLista s pid tid p resto) lugar →
      identidad (((sacarDeLista s pid tid p resto).ponerReady hilo.pid (l ++ [x])).ponerHilo x
        { hilo with timestampReady := ahora }) y =
          identidad (sacarDeLista s pid tid p resto) y := by
    intro y _ _
    exact identidad_ponerHilo (s := (sacarDeLista s pid tid p resto).ponerReady hilo.pid (l ++ [x]))
      hh (by rfl) (by rfl) y
  rw [liberado, saldo_ponerPrograma_eq (p := q), hmismos.saldo hid, hsacar, hpid]
  · dsimp only
    split_ifs <;> omega
  · exact hq
  · rfl

theorem liberado_joinsDistintos {pid : Pid} {tid : Tid} {ahora : ℕ} {p q : Programa} {x : Puntero}
    {resto l : List Puntero} {hilo : Hilo E} (hC : Coherente s S)
    (hl : contenido s (.join pid tid) = x :: resto)
    (hp : s.diccionarioDeProgramas.get pid = some p) (hh : s.hilos x = some hilo)
    (hq : (sacarDeLista s pid tid p resto).diccionarioDeProgramas.get hilo.pid = some q)
    (hready : s.diccionarioDeListasDeReady.get hilo.pid = some l) (hd : JoinsDistintos s) :
    JoinsDistintos (liberado s pid tid ahora p q x resto l hilo) := by
  obtain ⟨hquieto, hcont, -⟩ := liberado_mueve hC hl hp hh hq hready
  have hsub : ∀ pid' y, y ∈ enJoins (liberado s pid tid ahora p q x resto l hilo) pid' →
      y ∈ enJoins s pid' := by
    intro pid' y hy
    obtain ⟨t, hy⟩ := mem_enJoins.1 hy
    refine mem_enJoins.2 ⟨t, ?_⟩
    rw [hcont, update_of_ne (by simp)] at hy
    by_cases heq : Lugar.join pid' t = .join pid tid
    · rw [heq, update_self] at hy
      rw [heq, hl]
      exact List.mem_cons_of_mem x hy
    · rwa [update_of_ne heq] at hy
  intro pid' y z hy hz heq
  rw [hquieto.identidad, hquieto.identidad] at heq
  exact hd pid' y z (hsub pid' y hy) (hsub pid' z hz) heq

/-- The release loop, by induction on the join list. -/
theorem liberarLista_saldo {pid : Pid} {tid : Tid} {ahora : ℕ} (lista : List Puntero)
    (hC : Coherente s S) (hd : JoinsDistintos s) (hl : contenido s (.join pid tid) = lista)
    (h : liberarLista pid tid ahora lista s = .ok s') :
    (∀ pid', saldo s' pid' = saldo s pid') ∧ JoinsDistintos s' := by
  induction lista generalizing s S with
  | nil =>
      cases h
      exact ⟨fun _ => rfl, hd⟩
  | cons x resto ih =>
      obtain ⟨p, hilo, q, hp, hh, hq, hcaso⟩ := liberarLista_cons_ok h
      have hx : x ∈ contenido s (.join pid tid) := by simp [hl]
      have hpid : pid = hilo.pid := hC.identidad_of_mem hx hh
      have hunico : ∀ y t, y ∈ contenido s (.join pid t) → identidad s y = identidad s x →
          y = x := fun y t hy heq =>
        hd pid y x (mem_enJoins.2 ⟨t, hy⟩) (mem_enJoins.2 ⟨tid, hx⟩) heq
      rcases hcaso with ⟨hbloq, -⟩ | ⟨l, hready, -, h⟩
      · rw [sacarDeLista_libre hC hunico hp hl hh (by rwa [← hpid] at hq)] at hbloq
        cases hbloq
      · obtain ⟨hquieto, hcont, hmueve⟩ :=
          liberado_mueve hC hl hp hh hq hready
        have hd' : JoinsDistintos (liberado s pid tid ahora p q x resto l hilo) :=
          liberado_joinsDistintos hC hl hp hh hq hready hd
        obtain ⟨hsaldo, hdis⟩ := ih (hmueve.coherente_of_not not_false hC) hd'
          (by rw [hcont, update_of_ne (by simp), update_self]) h
        refine ⟨fun pid' => ?_, hdis⟩
        rw [hsaldo, liberado_saldo hC hl hp hh hq]

theorem realizarClose_saldo {pid : Pid} {tid : Tid} {ahora : ℕ} (hC : Coherente s S)
    (hd : JoinsDistintos s) (h : realizarClose s pid tid ahora = .ok s') :
    (∀ pid', saldo s' pid' = saldo s pid') ∧ JoinsDistintos s' := by
  obtain ⟨p, x, hilo, hp, hexec, -, ⟨-, rfl⟩ | ⟨-, s₁, p₁, hs₁, hp₁, h⟩⟩ := realizarClose_ok h
  · exact ⟨fun _ => rfl, hd⟩
  · obtain ⟨hquieto, hcont, hpropio⟩ := pasarAExit_mueve hC hp hexec hs₁ hp₁
    have hmueve : Mueve Lugar.Cierra False s (s₁.ponerPrograma pid { p₁ with exec := none }) :=
      .of_head _ hquieto.toConserva (mem_exec hp hexec) hcont hpropio (by simp)
        (Or.inr ⟨pid, rfl, rfl⟩)
    have hmismos : MismosBloqueados s (s₁.ponerPrograma pid { p₁ with exec := none }) := by
      obtain ⟨hilo', t, -, ht, rfl⟩ := pasarAExit_ok hs₁
      have hexit : MismosBloqueados s (ponerEnExit s hilo'.pid x) := .of_eq rfl rfl
      have hmax : MismosBloqueados t { t with maximoProcesamiento := t.maximoProcesamiento + 1 } :=
        .of_eq rfl rfl
      exact ((hexit.trans ht.mismosBloqueados).trans hmax).trans
        (.ponerPrograma (q := { p₁ with exec := none }) hp₁ rfl rfl)
    have hid : ∀ y l, y ∈ contenido s l →
        identidad (s₁.ponerPrograma pid { p₁ with exec := none }) y = identidad s y :=
      fun y _ _ => hquieto.identidad y
    obtain ⟨hilo', p', -, hp', h⟩ := liberarBloqueadosPorElHilo_ok h
    obtain ⟨hsaldo, hdis⟩ := liberarLista_saldo _ (hmueve.coherente_of_not not_false hC)
      (hmismos.joinsDistintos hid hd) (contenido_join hp') h
    refine ⟨fun pid' => ?_, hdis⟩
    rw [hsaldo, hmismos.saldo hid]

/-- A join keeps the ids of the join lists distinct when the thread it blocks has
an id that is not there. -/
theorem joinsDistintos_trasJoin {pid : Pid} {tid : Tid} {p : Programa} {x : Puntero}
    {hilo : Hilo E} (hC : Coherente s S) (hd : JoinsDistintos s)
    (hb : Bloquea s pid tid p x hilo) (hno : bloqueadoPorAlgunHilo s p hilo.tid = false) :
    JoinsDistintos (s.ponerPrograma pid (trasJoin s p x hilo tid)) := by
  obtain ⟨hp, hexec, hh, -⟩ := hb
  have hx : x ∈ contenido s (.exec pid) := by rw [mem_exec hp hexec]; simp
  have hpid : pid = hilo.pid := hC.identidad_of_mem hx hh
  have hmem : ∀ pid' y, y ∈ enJoins (s.ponerPrograma pid (trasJoin s p x hilo tid)) pid' →
      y ∈ enJoins s pid' ∨ (pid' = pid ∧ y = x) := by
    intro pid' y hy
    obtain ⟨t, hy⟩ := mem_enJoins.1 hy
    rw [contenido_trasJoin hp] at hy
    by_cases heq : Lugar.join pid' t = .join pid tid
    · obtain ⟨rfl, rfl⟩ := Lugar.join.inj heq
      rw [update_self, List.mem_append, List.mem_singleton] at hy
      exact hy.imp (fun hy => mem_enJoins.2 ⟨_, hy⟩) fun hy => ⟨rfl, hy⟩
    · rw [update_of_ne heq, update_of_ne (by simp)] at hy
      exact Or.inl (mem_enJoins.2 ⟨t, hy⟩)
  have hnuevo : ∀ y ∈ enJoins s pid, identidad s y ≠ identidad s x := by
    intro y hy heq
    rw [identidad_eq hh, ← hpid] at heq
    rw [(bloqueadoPorAlgunHilo_iff_mem hC hp).2 ⟨y, hy, heq⟩] at hno
    cases hno
  intro pid' y z hy hz heq
  have heq' : identidad s y = identidad s z := heq
  rcases hmem pid' y hy with hy' | ⟨hpid', hyx⟩
  · rcases hmem pid' z hz with hz' | ⟨hpid', hzx⟩
    · exact hd pid' y z hy' hz' heq'
    · rw [hzx] at heq'
      exact absurd heq' (hnuevo y (hpid' ▸ hy'))
  · rcases hmem pid' z hz with hz' | ⟨-, hzx⟩
    · rw [hyx] at heq'
      exact absurd heq'.symm (hnuevo z (hpid' ▸ hz'))
    · rw [hyx, hzx]

/-! ## Runs -/

/-- Where the counters are right, a step keeps them if and only if it is one of
`CuentaPropia`, and then the ids of the join lists stay distinct. -/
theorem paso_cuenta {e : Evento} (hC : Coherente s S) (hcon : ConPrograma s)
    (hd : JoinsDistintos s) (he : ∀ pid, e ≠ .desconectar pid) (h : paso env s e = .ok s')
    (hjusta : CuentaJusta s) :
    (CuentaJusta s' ↔ CuentaPropia ⟨s, e, s'⟩) ∧
      (CuentaPropia ⟨s, e, s'⟩ → JoinsDistintos s') := by
  have hcon' := paso_conPrograma hC he hcon h
  have hid := paso_identidad hC he h
  rw [cuentaJusta_iff_saldo hcon] at hjusta
  rw [cuentaJusta_iff_saldo hcon']
  have hjoins : (∀ pid, joinsDe s' pid = joinsDe s pid) → JoinsDistintos s' := by
    intro hjoins pid x y hx hy heq
    rw [enJoins, hjoins] at hx hy
    obtain ⟨tx, hx'⟩ := mem_enJoins.1 hx
    obtain ⟨ty, hy'⟩ := mem_enJoins.1 hy
    rw [hid x _ hx', hid y _ hy'] at heq
    exact hd pid x y hx hy heq
  have hquieto : ¬ e.MueveBloqueados → (∀ pid, saldo s' pid = 0) ∧ JoinsDistintos s' := by
    intro hno
    have hmismos := paso_mismosBloqueados hno h
    exact ⟨fun pid => by rw [hmismos.saldo hid, hjusta], hjoins hmismos.joins⟩
  cases e with
  | wait pid tid semID =>
      refine ⟨iff_of_true (fun pid' => ?_) trivial, fun _ => hjoins (semSuseWait_joinsDe h)⟩
      rw [semSuseWait_saldo hC h, hjusta]
  | signal pid tid semID ahora =>
      refine ⟨?_, fun _ => hjoins (semSuseSignal_joinsDe h)⟩
      rcases semSuseSignal_saldo hC h with ⟨hno, hsaldo⟩ | ⟨x, hx, -, hsaldo⟩
      · refine iff_of_true (fun pid' => ?_) fun y hy => absurd hy (hno y)
        rw [hsaldo, hjusta]
      · have hunico : ∀ y, Despierta s semID y → y = x := by
          rintro y ⟨_, _, -, -, hcola⟩
          obtain ⟨_, _, -, -, hcola'⟩ := hx
          rw [hcola] at hcola'
          cases hcola'
          rfl
        constructor
        · intro hcero y hy
          rw [hunico y hy]
          have hpid := hsaldo pid
          rw [hcero, hjusta, if_pos rfl] at hpid
          by_contra hno
          rw [if_neg hno] at hpid
          omega
        · intro hpropia pid'
          have hes := hpropia x hx
          obtain ⟨i, hi, hpid⟩ : ∃ i, identidad s x = some i ∧ i.1 = pid := by
            rw [esDelPrograma, beq_iff_eq, Option.map_eq_some_iff] at hes
            exact hes
          rw [hsaldo, hjusta, esDelPrograma_eq hi, hpid]
          by_cases heq : pid' = pid
          · simp [heq]
          · simp [heq, Ne.symm heq]
  | join pid tid =>
      rcases realizarJoin_saldo hC h with ⟨hno, rfl⟩ | ⟨p, x, hilo, hb, rfl, hsaldo⟩
      · exact ⟨iff_of_true hjusta fun p y hilo hb => absurd hb (hno p y hilo), fun _ => hd⟩
      · have hunico : ∀ p' x' hilo', Bloquea s pid tid p' x' hilo' → p' = p ∧ hilo' = hilo := by
          rintro p' x' hilo' ⟨hp', hx', hh', -⟩
          obtain ⟨hp, hx, hh, -⟩ := hb
          rw [hp] at hp'
          cases hp'
          rw [hx] at hx'
          cases hx'
          rw [hh] at hh'
          cases hh'
          exact ⟨rfl, rfl⟩
        refine ⟨?_, fun hpropia => joinsDistintos_trasJoin hC hd hb (hpropia p x hilo hb)⟩
        constructor
        · intro hcero p' x' hilo' hb'
          obtain ⟨rfl, rfl⟩ := hunico p' x' hilo' hb'
          have hpid := hsaldo pid
          rw [hcero, hjusta] at hpid
          by_contra hbloq
          rw [if_pos ⟨rfl, by simpa using hbloq⟩] at hpid
          omega
        · intro hpropia pid'
          rw [hsaldo, hjusta, if_neg]
          · omega
          · rw [hpropia p x hilo hb]
            simp
  | close pid tid ahora =>
      obtain ⟨hsaldo, hdis⟩ := realizarClose_saldo hC hd h
      exact ⟨iff_of_true (fun pid' => by rw [hsaldo, hjusta]) trivial, fun _ => hdis⟩
  | desconectar pid => exact absurd rfl (he pid)
  | _ =>
      obtain ⟨hsaldo, hdis⟩ := hquieto not_false
      exact ⟨iff_of_true hsaldo trivial, fun _ => hdis⟩

theorem conPrograma_of_run {c : Configuracion} {tr : List (Step (Estado E) Evento)}
    (hrun : Run (Transicion env) (iniciarSUSE c) tr s) (hsin : ∀ x ∈ tr, SinDesconexion x) :
    ConPrograma s := by
  have hinv : (∃ S, Coherente s S) ∧ ConPrograma s := by
    refine hrun.invariant (fun s => (∃ S, Coherente s S) ∧ ConPrograma s) SinDesconexion
      ⟨⟨∅, iniciarSUSE_coherente c⟩, fun x i hx => by cases hx⟩ ?_ hsin
    rintro s e s' ⟨⟨S, hC⟩, hcon⟩ he hs
    exact ⟨paso_coherente hC hs, paso_conPrograma hC he hcon hs⟩
  exact hinv.2

theorem iniciarSUSE_joinsDistintos (c : Configuracion) :
    JoinsDistintos (iniciarSUSE c : Estado E) := by
  intro pid x y hx
  cases hx

theorem iniciarSUSE_cuentaJusta (c : Configuracion) : CuentaJusta (iniciarSUSE c : Estado E) := by
  intro pid p hp
  cases hp

/-- In a run without disconnections, every counter of blocked threads is right in
every state if and only if every signal that wakes a thread wakes one of the
program that signals, and every join that blocks a thread blocks one whose id is in
no join list of its program. -/
theorem cuentaJusta_iff (env : Entorno E) (c : Configuracion)
    {tr : List (Step (Estado E) Evento)} (hrun : Run (Transicion env) (iniciarSUSE c) tr s)
    (hsin : ∀ x ∈ tr, SinDesconexion x) :
    (∀ x ∈ tr, CuentaJusta x.post) ↔ ∀ x ∈ tr, CuentaPropia x := by
  have hrec : ((∀ x ∈ tr, CuentaJusta x.post) ↔ ∀ x ∈ tr, CuentaPropia x) ∧
      ((∀ x ∈ tr, CuentaPropia x) → CuentaJusta s ∧ JoinsDistintos s) := by
    induction hrun with
    | nil => exact ⟨by simp, fun _ => ⟨iniciarSUSE_cuentaJusta c, iniciarSUSE_joinsDistintos c⟩⟩
    | @snoc tr s s' e hrun hs ih =>
        simp only [List.forall_mem_append, List.forall_mem_singleton] at hsin ⊢
        obtain ⟨hiff, hbien⟩ := ih hsin.1
        obtain ⟨S, hC⟩ := coherente_of_run hrun
        have hcon := conPrograma_of_run hrun hsin.1
        refine ⟨⟨fun hjusta => ?_, fun hpropia => ?_⟩, fun hpropia => ?_⟩
        · obtain ⟨hj, hd⟩ := hbien (hiff.1 hjusta.1)
          exact ⟨hiff.1 hjusta.1, (paso_cuenta hC hcon hd hsin.2 hs hj).1.1 hjusta.2⟩
        · obtain ⟨hj, hd⟩ := hbien hpropia.1
          exact ⟨hiff.2 hpropia.1, (paso_cuenta hC hcon hd hsin.2 hs hj).1.2 hpropia.2⟩
        · obtain ⟨hj, hd⟩ := hbien hpropia.1
          have hpaso := paso_cuenta hC hcon hd hsin.2 hs hj
          exact ⟨hpaso.1.2 hpropia.2, hpaso.2 hpropia.2⟩
  exact hrec.1

/-- A thread waits, and another program signals. -/
def senialAjena : List Evento :=
  [.conectar 5, .conectar 6, .crear 5 0 (0, 0) 0, .tomar, .admitir 0, .wait 5 0 "s",
    .signal 6 0 "s" 0]

/-- The counters stay right when a program signals for its own threads. -/
theorem cuentaJusta_iff_jornada :
    (∀ x ∈ trace (paso entornoRacional) (iniciarSUSE unSemaforo) jornada, CuentaJusta x.post) ∧
      ¬ ∀ x ∈ trace (paso entornoRacional) (iniciarSUSE ⟨1, [("s", ⟨0, 1⟩)]⟩) senialAjena,
        CuentaJusta x.post :=
  ⟨(cuentaJusta_iff entornoRacional unSemaforo run_jornada
      (by simp [jornada, trace, SinDesconexion])).2 (by decide +kernel),
    (cuentaJusta_iff entornoRacional ⟨1, [("s", ⟨0, 1⟩)]⟩
      (Run.execute (paso entornoRacional) senialAjena (by decide +kernel))
      (by simp [senialAjena, trace, SinDesconexion])).not.2 (by decide +kernel)⟩

/-- The program that signals ends with a counter of -1. -/
theorem not_cuentaJusta :
    ¬ ∀ (c : Configuracion) (tr : List (Step (Estado ℚ) Evento)) (s : Estado ℚ),
      Run (Transicion entornoRacional) (iniciarSUSE c) tr s → (∀ x ∈ tr, SinDesconexion x) →
        CuentaJusta s := by
  intro h
  have hjusta := h ⟨1, [("s", ⟨0, 1⟩)]⟩ _ _
    (Run.execute (paso entornoRacional) senialAjena (by decide +kernel))
    (by simp [senialAjena, trace, SinDesconexion])
  have hcuenta : cuentaBlocked (final (paso entornoRacional) (iniciarSUSE ⟨1, [("s", ⟨0, 1⟩)]⟩)
      senialAjena) 6 = -1 := by decide +kernel
  have hprog : ((final (paso entornoRacional) (iniciarSUSE ⟨1, [("s", ⟨0, 1⟩)]⟩)
      senialAjena).diccionarioDeProgramas.get 6).isSome = true := by decide +kernel
  obtain ⟨p, hp⟩ := Option.isSome_iff_exists.1 hprog
  rw [cuentaBlocked_eq hp, hjusta 6 p hp] at hcuenta
  omega

end Suse
