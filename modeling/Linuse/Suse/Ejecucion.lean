import Linuse.Suse.Eleccion
import Linuse.Suse.Liberacion
import Linuse.Transition.Run

/-!
# Runs of the scheduler

Every event but a connection, a creation and a disconnection is a movement of the
threads that exist (`paso_mueve`), so `Coherente` holds after every run
(`coherente_of_run`). When no program disconnects, ids are unique inside each
program and no program has two calls of `schedule_next` pending, no thread is
ever lost and the counters are exact (`hilo_enUnSoloLugar`).
-/

namespace Suse

open Function (update update_self update_of_ne update_eq_self update_comm)
open Transition

variable {E : Type} {s s' : Estado E} {S : Set Puntero} {env : Entorno E}

namespace Evento

/-- The events that handle the threads of programs that are connected. -/
def Interno : Evento → Prop
  | conectar _ => False
  | crear _ _ _ _ => False
  | desconectar _ => False
  | _ => True

/-- Along which relation an event moves threads. -/
def relacion : Evento → Lugar → Lugar → Prop
  | admitir _ => Lugar.Admite
  | close _ _ _ => Lugar.Cierra
  | _ => Lugar.MismaFase

/-- When an event may lose a thread. -/
def Pierde (s : Estado E) : Evento → Prop
  | close _ _ _ => ¬ TidUnico s
  | despertar pid _ => contenido s (.exec pid) ≠ []
  | _ => False

end Evento

theorem paso_mueve {e : Evento} (hC : Coherente s S) (h : paso env s e = .ok s')
    (he : e.Interno) : Mueve e.relacion (e.Pierde s) s s' := by
  cases e with
  | conectar pid => exact he.elim
  | crear pid tid basura ahora => exact he.elim
  | tomar => exact (planificarReadyTomar_mueve hC h).2
  | admitir ahora => exact (planificarReadyAdmitir_mueve hC h).2
  | wait pid tid semID => exact (semSuseWait_mueve hC h).2
  | signal pid tid semID ahora => exact (semSuseSignal_mueve hC h).2
  | join pid tidAEsperar => exact (realizarJoin_mueve hC h).2
  | close pid tid ahora => exact (realizarClose_mueve hC h).2
  | scheduleNext pid reloj =>
      obtain ⟨r, h⟩ := paso_scheduleNext h
      exact (siguienteAEjecutar_mueve hC h).1
  | despertar pid reloj =>
      obtain ⟨r, h⟩ := paso_despertar h
      exact (calcularSiguienteHiloDespierto_mueve hC h).1
  | metricas ahora => exact (tomarMetricas_soloTiempos h).mueve _ _
  | desconectar pid => exact he.elim

/-! ## Connections and creations -/

theorem contenido_conectar {pid : Pid} (hp : s.diccionarioDeProgramas.get pid = none) :
    contenido (crearPrograma s pid) = contenido s := by
  funext l
  cases l with
  | exec pid' =>
      by_cases h : pid' = pid
      · subst h
        simp [contenido, crearPrograma, hp]
      · simp [contenido, crearPrograma, Dictionary.get_put_of_ne _ _ h]
  | join pid' tid =>
      by_cases h : pid' = pid
      · subst h
        simp [contenido, crearPrograma, hp]
      · simp [contenido, crearPrograma, Dictionary.get_put_of_ne _ _ h]
  | _ => rfl

theorem conectar_coherente {pid : Pid} (hC : Coherente s S)
    (hp : s.diccionarioDeProgramas.get pid = none) :
    Coherente (crearPrograma s pid) S where
  particion := (contenido_conectar hp).symm ▸ hC.particion
  propio := fun x l hx => hC.propio x l (contenido_conectar hp ▸ hx)
  fresco := hC.fresco
  readyConPrograma := by
    intro pid' hr
    obtain ⟨p, hp'⟩ := hC.readyConPrograma pid' hr
    by_cases h : pid' = pid
    · rw [h, hp] at hp'
      cases hp'
    · exact ⟨p, by simp [crearPrograma, Dictionary.get_put_of_ne _ _ h, hp']⟩
  execConReady := fun pid' he => hC.execConReady pid' (contenido_conectar hp ▸ he)

theorem contenido_crearHilo {pid : Pid} {tid : Tid} {basura : ℕ × ℕ} {ahora : ℕ}
    (h : crearHilo env s pid tid basura ahora = .ok s') :
    contenido s' = update (contenido s) .new (contenido s .new ++ [s.proximo]) := by
  obtain ⟨p, hp, rfl⟩ := crearHilo_ok h
  rw [contenido_ponerPrograma_eq (p := p)]
  · funext l
    cases l with
    | new => simp [contenido]
    | _ => simp [contenido]
  · exact hp
  · rfl
  · rfl

theorem identidad_crearHilo {pid : Pid} {tid : Tid} {basura : ℕ × ℕ} {ahora : ℕ}
    (h : crearHilo env s pid tid basura ahora = .ok s') (q : Puntero) :
    identidad s' q = if q = s.proximo then some (pid, tid) else identidad s q := by
  obtain ⟨p, hp, rfl⟩ := crearHilo_ok h
  by_cases hq : q = s.proximo
  · subst hq
    simp [identidad, hiloNuevo]
  · simp [identidad, hq]

namespace Coherente

/-- A thread that is in some place is allocated. -/
theorem lt_proximo (hC : Coherente s S) {x : Puntero} {l : Lugar}
    (hx : x ∈ contenido s l) : x < s.proximo := by
  obtain ⟨pid, tid, hid, -⟩ := hC.propio x l hx
  by_contra hle
  rw [hC.fresco x (not_lt.1 hle)] at hid
  cases hid

theorem proximo_not_mem (hC : Coherente s S) : s.proximo ∉ S := by
  intro hmem
  obtain ⟨l, hl⟩ := (hC.particion.mem_iff _).1 hmem
  exact lt_irrefl _ (hC.lt_proximo hl)

end Coherente

theorem crearHilo_coherente {pid : Pid} {tid : Tid} {basura : ℕ × ℕ} {ahora : ℕ}
    (hC : Coherente s S) (h : crearHilo env s pid tid basura ahora = .ok s') :
    Coherente s' (insert s.proximo S) := by
  have hcont := contenido_crearHilo h
  have hid := identidad_crearHilo h
  obtain ⟨p, hp, rfl⟩ := crearHilo_ok h
  refine
    { particion := ?_, propio := ?_, fresco := ?_, readyConPrograma := ?_
      execConReady := ?_ }
  · rw [hcont]
    exact hC.particion.push .new hC.proximo_not_mem
  · intro x l hx
    by_cases hxp : x = s.proximo
    · subst hxp
      have hl : l = .new := by
        by_contra hne
        rw [hcont, update_of_ne hne] at hx
        exact lt_irrefl _ (hC.lt_proximo hx)
      subst hl
      exact ⟨pid, tid, by rw [hid, if_pos rfl], trivial⟩
    · have hx' : x ∈ contenido s l := by
        rw [hcont] at hx
        by_cases hl : l = .new
        · subst hl
          rw [update_self, List.mem_append, List.mem_singleton] at hx
          exact hx.resolve_right hxp
        · rwa [update_of_ne hl] at hx
      obtain ⟨pid', tid', hid', hde⟩ := hC.propio x l hx'
      exact ⟨pid', tid', by rw [hid, if_neg hxp, hid'], hde⟩
  · intro x hx
    have hx' : s.proximo + 1 ≤ x := hx
    rw [hid, if_neg (Nat.ne_of_gt hx')]
    exact hC.fresco x (Nat.le_of_succ_le hx')
  · intro pid' hr
    exact (tienePrograma_ponerPrograma hp pid').2 (hC.readyConPrograma pid' hr)
  · intro pid' he
    rw [hcont, update_of_ne (by simp)] at he
    exact hC.execConReady pid' he

/-! ## Disconnections -/

/-- The places that go away with a program. -/
def Lugar.DelPrograma (pid : Pid) : Lugar → Prop
  | .ready p => p = pid
  | .exec p => p = pid
  | .join p _ => p = pid
  | .exit p => p = pid
  | _ => False

theorem contenido_limpiarEstructuras {pid : Pid} (l : Lugar) :
    (l.DelPrograma pid → contenido (limpiarEstructuras s pid) l = []) ∧
      (¬ l.DelPrograma pid → contenido (limpiarEstructuras s pid) l = contenido s l) := by
  cases l with
  | new => exact ⟨False.elim, fun _ => rfl⟩
  | mano => exact ⟨False.elim, fun _ => rfl⟩
  | semaforo semID => exact ⟨False.elim, fun _ => rfl⟩
  | ready p =>
      refine ⟨fun h => ?_, fun h => ?_⟩
      · simp [contenido, limpiarEstructuras, Dictionary.get_remove, show p = pid from h]
      · simp [contenido, limpiarEstructuras, Dictionary.get_remove, show ¬ p = pid from h]
  | exec p =>
      refine ⟨fun h => ?_, fun h => ?_⟩
      · simp [contenido, limpiarEstructuras, Dictionary.get_remove, show p = pid from h]
      · simp [contenido, limpiarEstructuras, Dictionary.get_remove, show ¬ p = pid from h]
  | join p tid =>
      refine ⟨fun h => ?_, fun h => ?_⟩
      · simp [contenido, limpiarEstructuras, Dictionary.get_remove, show p = pid from h]
      · simp [contenido, limpiarEstructuras, Dictionary.get_remove, show ¬ p = pid from h]
  | exit p =>
      refine ⟨fun h => ?_, fun h => ?_⟩
      · simp [contenido, limpiarEstructuras, Dictionary.get_remove, show p = pid from h]
      · simp [contenido, limpiarEstructuras, Dictionary.get_remove, show ¬ p = pid from h]

/-- The records that are freed are the ones in the places that go away. -/
theorem mem_hilosLiberados {pid : Pid} {x : Puntero} (h : x ∈ hilosLiberados s pid) :
    ∃ l : Lugar, l.DelPrograma pid ∧ x ∈ contenido s l := by
  rw [hilosLiberados, List.mem_append, List.mem_append] at h
  rcases h with (hexit | hready) | h
  · exact ⟨.exit pid, rfl, hexit⟩
  · exact ⟨.ready pid, rfl, hready⟩
  · cases hp : s.diccionarioDeProgramas.get pid with
    | none =>
        rw [hp] at h
        cases h
    | some p =>
        simp only [hp, List.mem_append, List.mem_flatMap] at h
        rcases h with ⟨e, he, hx⟩ | hexec
        · have hget := (Dictionary.mem_toList _ _ _).1 he
          refine ⟨.join pid e.1, rfl, ?_⟩
          rw [contenido_join hp, hget]
          exact hx
        · refine ⟨.exec pid, rfl, ?_⟩
          rw [contenido_exec hp]
          exact hexec

theorem limpiarEstructuras_coherente {pid : Pid} (hC : Coherente s S) :
    Coherente (limpiarEstructuras s pid)
      {x | ∃ l : Lugar, ¬ l.DelPrograma pid ∧ x ∈ contenido s l} where
  particion := hC.particion.clear (Lugar.DelPrograma pid)
    (fun l => (contenido_limpiarEstructuras l).1) fun l => (contenido_limpiarEstructuras l).2
  propio := by
    intro x l hx
    have hl : ¬ l.DelPrograma pid := by
      intro hl
      rw [(contenido_limpiarEstructuras l).1 hl] at hx
      cases hx
    rw [(contenido_limpiarEstructuras l).2 hl] at hx
    have hvivo : x ∉ hilosLiberados s pid := by
      intro hlib
      obtain ⟨l', hl', hx'⟩ := mem_hilosLiberados hlib
      exact hl (hC.particion.unique x l l' hx hx' ▸ hl')
    obtain ⟨pid', tid', hid, hde⟩ := hC.propio x l hx
    refine ⟨pid', tid', ?_, hde⟩
    rw [← hid]
    simp [identidad, limpiarEstructuras, hvivo]
  fresco := by
    intro x hx
    have hnone := hC.fresco x hx
    rw [identidad, Option.map_eq_none_iff] at hnone ⊢
    simp [limpiarEstructuras, hnone]
  readyConPrograma := by
    rintro pid' ⟨l, hl⟩
    have hget : (s.diccionarioDeListasDeReady.remove pid).get pid' = some l := hl
    rw [Dictionary.get_remove] at hget
    split_ifs at hget with hpid
    obtain ⟨p, hp⟩ := hC.readyConPrograma pid' ⟨l, hget⟩
    refine ⟨p, ?_⟩
    simp [limpiarEstructuras, Dictionary.get_remove, hpid, hp]
  execConReady := by
    intro pid' he
    have hpid : pid' ≠ pid := by
      intro hpid
      exact he ((contenido_limpiarEstructuras (.exec pid')).1 hpid)
    rw [(contenido_limpiarEstructuras (.exec pid')).2 hpid] at he
    obtain ⟨l, hl⟩ := hC.execConReady pid' he
    refine ⟨l, ?_⟩
    simp [limpiarEstructuras, Dictionary.get_remove, hpid, hl]

/-- One step keeps coherence, for the threads that are still somewhere. -/
theorem paso_coherente {e : Evento} (hC : Coherente s S) (h : paso env s e = .ok s') :
    ∃ S', Coherente s' S' := by
  by_cases he : e.Interno
  · obtain ⟨S', -, hC'⟩ := (paso_mueve hC h he).coherente hC
    exact ⟨S', hC'⟩
  · cases e with
    | conectar pid =>
        obtain ⟨hp, rfl⟩ := paso_conectar h
        exact ⟨S, conectar_coherente hC hp⟩
    | crear pid tid basura ahora => exact ⟨_, crearHilo_coherente hC h⟩
    | desconectar pid =>
        obtain ⟨-, rfl⟩ := paso_desconectar h
        have hmax : Mueve Lugar.MismaFase False s
            { s with maximoProcesamiento := s.maximoProcesamiento + 1 } :=
          .of_contenido_eq (Quieto.resto _ _ _ _ _ _).toConserva rfl
        exact ⟨_, limpiarEstructuras_coherente (hmax.coherente_of_not not_false hC)⟩
    | _ => exact absurd trivial he

/-- Nobody disconnects. -/
def SinDesconexion (x : Step (Estado E) Evento) : Prop := ∀ pid, x.label ≠ .desconectar pid

theorem iniciarSUSE_contenido (c : Configuracion) (l : Lugar) :
    contenido (iniciarSUSE c : Estado E) l = [] := by
  cases l with
  | semaforo semID =>
      rw [contenido, iniciarSUSE, Dictionary.get_ofList_map (fun _ : Semaforo => [])]
      cases (Dictionary.ofList c.semaforos).get semID <;> rfl
  | _ => simp [contenido, iniciarSUSE]

theorem iniciarSUSE_coherente (c : Configuracion) :
    Coherente (iniciarSUSE c : Estado E) ∅ where
  particion := by
    refine ⟨fun l => ?_, fun x l l' hx => ?_, fun x => ?_⟩
    · rw [iniciarSUSE_contenido]
      exact List.nodup_nil
    · rw [iniciarSUSE_contenido] at hx
      cases hx
    · simp [iniciarSUSE_contenido]
  propio := by
    intro x l hx
    rw [iniciarSUSE_contenido] at hx
    cases hx
  fresco := fun _ _ => rfl
  readyConPrograma := by
    rintro pid ⟨l, hl⟩
    cases hl
  execConReady := by
    intro pid he
    rw [iniciarSUSE_contenido] at he
    exact absurd rfl he

/-- After every run the threads that are somewhere are each in one place of their
own program. -/
theorem coherente_of_run {c : Configuracion} {tr : List (Step (Estado E) Evento)}
    (h : Run (Transicion env) (iniciarSUSE c) tr s) : ∃ S, Coherente s S := by
  refine h.invariant (fun s => ∃ S, Coherente s S) (fun _ => True)
    ⟨∅, iniciarSUSE_coherente c⟩ ?_ fun _ _ => trivial
  rintro s e s' ⟨S, hC⟩ _ hs
  exact paso_coherente hC hs

/-! ## A run of two programs -/

/-- Three slots and a semaphore without units. -/
def unSemaforo : Configuracion := ⟨3, [("s", ⟨0, 1⟩)]⟩

/-- Thread 0 of program 5 waits at the semaphore until thread 1 signals; then it waits for
thread 1, which is closed. The thread of program 6 waits at the semaphore to the end. -/
def jornada : List Evento :=
  [.conectar 5, .crear 5 0 (0, 0) 10, .tomar, .admitir 11, .crear 5 1 (0, 0) 12, .tomar,
    .admitir 13, .conectar 6, .crear 6 0 (0, 0) 14, .tomar, .admitir 15, .wait 5 0 "s",
    .scheduleNext 5 fun i => 20 + i, .scheduleNext 5 fun i => 30 + i, .signal 5 1 "s" 40,
    .scheduleNext 5 fun i => 50 + i, .join 5 1, .scheduleNext 5 fun i => 60 + i, .close 5 1 70,
    .scheduleNext 5 fun i => 80 + i, .wait 6 0 "s"]

def finDeJornada : Estado ℚ := final (paso entornoRacional) (iniciarSUSE unSemaforo) jornada

theorem run_jornada : Run (Transicion entornoRacional) (iniciarSUSE unSemaforo)
    (trace (paso entornoRacional) (iniciarSUSE unSemaforo) jornada) finDeJornada :=
  Run.execute (paso entornoRacional) jornada (by decide +kernel)

theorem lugares_jornada :
    finDeJornada.proximo = 3 ∧ contenido finDeJornada (.exec 5) = [0] ∧
      contenido finDeJornada (.exit 5) = [1] ∧
      contenido finDeJornada (.semaforo "s") = [2] := by
  decide +kernel

end Suse
