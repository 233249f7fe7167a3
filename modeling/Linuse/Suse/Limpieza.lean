import Linuse.Suse.Ejecucion

/-!
# What a disconnection leaves behind

`limpiarEstructuras` empties the places of the program that disconnects: its
ready list, `exec`, join lists and exit list. It does not look at the places that
the programs share (`Lugar.Compartido`). After a disconnection no place holds a
thread of the program if and only if no shared place held one before
(`limpiarEstructuras_sinRestos_iff`); then none holds one later either, until the
descriptor is given to another connection.
-/

namespace Suse

open Function (update update_self update_of_ne)
open Transition

variable {E : Type} {s s' : Estado E} {S : Set Puntero} {env : Entorno E}

/-- The places that can hold threads of any program. -/
def Lugar.Compartido : Lugar → Prop
  | .new => True
  | .mano => True
  | .semaforo _ => True
  | _ => False

/-- The thread was created by the program. -/
def esHiloDe (s : Estado E) (pid : Pid) (x : Puntero) : Prop :=
  ∃ tid, identidad s x = some (pid, tid)

/-- No place of `s'` holds a thread that is of the program in `s`. -/
def SinRestos (s s' : Estado E) (pid : Pid) : Prop :=
  ∀ l : Lugar, ∀ x ∈ contenido s' l, ¬ esHiloDe s pid x

/-- No thread of the program is in New, in the hand of `planificarReady` or in the
queue of a semaphore. -/
def Recogido (s : Estado E) (pid : Pid) : Prop :=
  ∀ l : Lugar, l.Compartido → ∀ x ∈ contenido s l, ¬ esHiloDe s pid x

namespace Lugar

theorem Compartido.not_delPrograma {l : Lugar} (h : l.Compartido) (pid : Pid) :
    ¬ l.DelPrograma pid := by
  cases l with
  | new => exact not_false
  | mano => exact not_false
  | semaforo semID => exact not_false
  | _ => exact h.elim

/-- A place where a thread of the program can be is shared, or goes away with the
program. -/
theorem compartido_of_esDe {l : Lugar} {pid : Pid} (h : l.esDe pid)
    (hno : ¬ l.DelPrograma pid) : l.Compartido := by
  cases l with
  | new => trivial
  | mano => trivial
  | semaforo semID => trivial
  | _ => exact absurd h hno

end Lugar

theorem contenido_desconectar {pid : Pid} (l : Lugar) :
    (l.DelPrograma pid → contenido (limpiarEstructuras
        { s with maximoProcesamiento := s.maximoProcesamiento + 1 } pid) l = []) ∧
      (¬ l.DelPrograma pid → contenido (limpiarEstructuras
        { s with maximoProcesamiento := s.maximoProcesamiento + 1 } pid) l = contenido s l) :=
  contenido_limpiarEstructuras l

theorem sinRestos_iff_recogido {pid : Pid} (hC : Coherente s S)
    (h : paso env s (.desconectar pid) = .ok s') : SinRestos s s' pid ↔ Recogido s pid := by
  obtain ⟨-, rfl⟩ := paso_desconectar h
  constructor
  · intro hsin l hl x hx
    apply hsin l x
    rw [(contenido_desconectar l).2 (hl.not_delPrograma pid)]
    exact hx
  · rintro hrec l x hx ⟨tid, hid⟩
    by_cases hdel : l.DelPrograma pid
    · rw [(contenido_desconectar l).1 hdel] at hx
      cases hx
    · rw [(contenido_desconectar l).2 hdel] at hx
      obtain ⟨pid', tid', hid', hde⟩ := hC.propio x l hx
      rw [hid] at hid'
      cases hid'
      exact hrec l (Lugar.compartido_of_esDe hde hdel) x hx ⟨tid, hid⟩

/-! ## Later steps -/

/-- The program is not connected, and no place holds a thread of it. -/
structure Ausente (s : Estado E) (pid : Pid) : Prop where
  coherente : ∃ S, Coherente s S
  sinPrograma : s.diccionarioDeProgramas.get pid = none
  sinHilos : ∀ l : Lugar, ∀ x ∈ contenido s l, ¬ esHiloDe s pid x

theorem identidad_limpiarEstructuras {pid : Pid} {x : Puntero} {i : Pid × Tid}
    (h : identidad (limpiarEstructuras s pid) x = some i) : identidad s x = some i := by
  by_cases hx : x ∈ hilosLiberados s pid
  · simp [identidad, limpiarEstructuras, hx] at h
  · simpa [identidad, limpiarEstructuras, hx] using h

theorem mem_contenido_limpiarEstructuras {pid : Pid} {l : Lugar} {x : Puntero}
    (h : x ∈ contenido (limpiarEstructuras s pid) l) : x ∈ contenido s l := by
  by_cases hl : l.DelPrograma pid
  · rw [(contenido_limpiarEstructuras l).1 hl] at h
    cases h
  · rwa [(contenido_limpiarEstructuras l).2 hl] at h

namespace Ausente

variable {pid : Pid}

theorem mueve {F : Lugar → Lugar → Prop} {pierde : Prop} (h : Ausente s pid)
    (hm : Mueve F pierde s s') : Ausente s' pid where
  coherente := by
    obtain ⟨S, hC⟩ := h.coherente
    obtain ⟨S', -, hC'⟩ := hm.coherente hC
    exact ⟨S', hC'⟩
  sinPrograma := by
    have hno : ¬ tienePrograma s pid := by
      rintro ⟨p, hp⟩
      rw [h.sinPrograma] at hp
      cases hp
    rw [Option.eq_none_iff_forall_ne_some]
    intro p hp
    exact hno ((hm.conPrograma pid).1 ⟨p, hp⟩)
  sinHilos := by
    rintro l x hx ⟨tid, hid⟩
    obtain ⟨l₀, hx₀, -⟩ := hm.moves.origin hx
    exact h.sinHilos l₀ x hx₀ ⟨tid, hm.identidad x ▸ hid⟩

theorem conectar {pid' : Pid} (h : Ausente s pid) (hne : pid' ≠ pid)
    (hp : s.diccionarioDeProgramas.get pid' = none) : Ausente (crearPrograma s pid') pid where
  coherente := by
    obtain ⟨S, hC⟩ := h.coherente
    exact ⟨S, conectar_coherente hC hp⟩
  sinPrograma := by
    rw [crearPrograma, Estado.ponerPrograma_diccionarioDeProgramas,
      Dictionary.get_put_of_ne _ _ hne.symm]
    exact h.sinPrograma
  sinHilos := by
    intro l x hx
    rw [contenido_conectar hp] at hx
    exact h.sinHilos l x hx

theorem crear {pid' : Pid} {tid : Tid} {basura : ℕ × ℕ} {ahora : ℕ} (h : Ausente s pid)
    (hs : crearHilo env s pid' tid basura ahora = .ok s') : Ausente s' pid := by
  have hid := identidad_crearHilo hs
  have hcont := contenido_crearHilo hs
  obtain ⟨S, hC⟩ := h.coherente
  have hC' := crearHilo_coherente hC hs
  obtain ⟨p, hp, rfl⟩ := crearHilo_ok hs
  have hne : pid ≠ pid' := by
    rintro rfl
    rw [h.sinPrograma] at hp
    cases hp
  refine ⟨⟨_, hC'⟩, ?_, ?_⟩
  · rw [Estado.ponerPrograma_diccionarioDeProgramas, Dictionary.get_put_of_ne _ _ hne]
    exact h.sinPrograma
  · rintro l x hx ⟨tid', hx'⟩
    rw [hid] at hx'
    by_cases hxp : x = s.proximo
    · rw [if_pos hxp] at hx'
      cases hx'
      exact hne rfl
    · rw [if_neg hxp] at hx'
      refine h.sinHilos l x ?_ ⟨tid', hx'⟩
      rw [hcont] at hx
      by_cases hl : l = .new
      · subst hl
        rw [update_self, List.mem_append, List.mem_singleton] at hx
        exact hx.resolve_right hxp
      · rwa [update_of_ne hl] at hx

theorem limpiar {pid' : Pid} (h : Ausente s pid) : Ausente (limpiarEstructuras s pid') pid where
  coherente := by
    obtain ⟨S, hC⟩ := h.coherente
    exact ⟨_, limpiarEstructuras_coherente hC⟩
  sinPrograma := by
    rw [limpiarEstructuras, Dictionary.get_remove, h.sinPrograma, ite_self]
  sinHilos := by
    rintro l x hx ⟨tid, hid⟩
    exact h.sinHilos l x (mem_contenido_limpiarEstructuras hx)
      ⟨tid, identidad_limpiarEstructuras hid⟩

/-- Only a connection with its descriptor brings the program back. -/
theorem paso {e : Evento} (h : Ausente s pid) (he : e ≠ .conectar pid)
    (hs : paso env s e = .ok s') : Ausente s' pid := by
  obtain ⟨S, hC⟩ := h.coherente
  by_cases hint : e.Interno
  · exact h.mueve (paso_mueve hC hs hint)
  · cases e with
    | conectar pid' =>
        obtain ⟨hp, rfl⟩ := paso_conectar hs
        have hne : pid' ≠ pid := by
          rintro rfl
          exact he rfl
        exact h.conectar hne hp
    | crear pid' tid basura ahora => exact h.crear hs
    | desconectar pid' =>
        obtain ⟨-, rfl⟩ := paso_desconectar hs
        have hmax : Mueve Lugar.MismaFase False s
            { s with maximoProcesamiento := s.maximoProcesamiento + 1 } :=
          .of_contenido_eq (Quieto.resto _ _ _ _ _ _).toConserva rfl
        exact (h.mueve hmax).limpiar
    | _ => exact absurd trivial hint

end Ausente

/-- A disconnection that leaves no thread of its program behind. -/
theorem ausente_of_sinRestos {pid : Pid} (hC : Coherente s S)
    (h : paso env s (.desconectar pid) = .ok s') (hsin : SinRestos s s' pid) :
    Ausente s' pid where
  coherente := paso_coherente hC h
  sinPrograma := by
    obtain ⟨-, rfl⟩ := paso_desconectar h
    rw [limpiarEstructuras, Dictionary.get_remove, if_pos rfl]
  sinHilos := by
    rintro l x hx ⟨tid, hid⟩
    obtain ⟨-, rfl⟩ := paso_desconectar h
    exact hsin l x hx ⟨tid, identidad_limpiarEstructuras hid⟩

/-- After a disconnection no place holds a thread of the program if and only if
none was in New, in the hand of `planificarReady` or in the queue of a semaphore
before; and then no place holds one in any later state, as long as the descriptor
is not connected again. -/
theorem limpiarEstructuras_sinRestos_iff (env : Entorno E) (c : Configuracion)
    {tr : List (Step (Estado E) Evento)} {pid : Pid}
    (hrun : Run (Transicion env) (iniciarSUSE c) tr s)
    (hs : Transicion env s (.desconectar pid) s') :
    (SinRestos s s' pid ↔ Recogido s pid) ∧
      (SinRestos s s' pid → ∀ tr' s'', Run (Transicion env) s' tr' s'' →
        (∀ x ∈ tr', x.label ≠ .conectar pid) →
          ∀ l : Lugar, ∀ x ∈ contenido s'' l, ¬ esHiloDe s'' pid x) := by
  obtain ⟨S, hC⟩ := coherente_of_run hrun
  refine ⟨sinRestos_iff_recogido hC hs, fun hsin tr' s'' hrun' hcon => ?_⟩
  have hausente : Ausente s'' pid := by
    refine hrun'.invariant (fun s => Ausente s pid) (fun x => x.label ≠ .conectar pid)
      (ausente_of_sinRestos hC hs hsin) ?_ hcon
    intro s e s' h he hs
    exact h.paso he hs
  exact hausente.sinHilos

/-- At the end of `jornada` a thread of program 5 runs and the other is in its exit list. -/
theorem recogido_finDeJornada : Recogido finDeJornada 5 := by
  obtain ⟨S, hC⟩ := coherente_of_run run_jornada
  obtain ⟨hproximo, hexec, hexit, -⟩ := lugares_jornada
  intro l hl x hx hes
  have htres : ∀ n : ℕ, n < 3 → n = 0 ∨ n = 1 ∨ n = 2 := by omega
  have hpropio : ∀ l' : Lugar, l'.DelPrograma 5 → x ∉ contenido finDeJornada l' := by
    intro l' hl' hx'
    rw [hC.particion.unique x l l' hx hx'] at hl
    exact hl.not_delPrograma 5 hl'
  obtain rfl | rfl | rfl := htres x (hproximo ▸ hC.lt_proximo hx)
  · exact hpropio (.exec 5) rfl (by rw [hexec]; exact List.mem_singleton_self _)
  · exact hpropio (.exit 5) rfl (by rw [hexit]; exact List.mem_singleton_self _)
  · obtain ⟨tid, htid⟩ := hes
    have hid : identidad finDeJornada 2 = some (6, 0) := by decide +kernel
    rw [hid] at htid
    cases htid

theorem limpiarEstructuras_sinRestos_iff_jornada :
    SinRestos finDeJornada (after (paso entornoRacional) finDeJornada (.desconectar 5)) 5 ∧
      ∀ tr' s'', Run (Transicion entornoRacional)
          (after (paso entornoRacional) finDeJornada (.desconectar 5)) tr' s'' →
        (∀ x ∈ tr', x.label ≠ .conectar 5) →
          ∀ l : Lugar, ∀ x ∈ contenido s'' l, ¬ esHiloDe s'' 5 x := by
  obtain ⟨hiff, hdespues⟩ := limpiarEstructuras_sinRestos_iff entornoRacional unSemaforo
    run_jornada (eq_ok_after (paso entornoRacional) (e := .desconectar 5) (by decide +kernel))
  have hsin := hiff.2 recogido_finDeJornada
  exact ⟨hsin, hdespues hsin⟩

/-- A program connects, creates a thread and disconnects before it is admitted:
the New queue keeps the thread. -/
theorem limpiarEstructuras_sinRestos_sinAdmitir :
    ¬ ∀ (c : Configuracion) (tr : List (Step (Estado ℚ) Evento)) (s s' : Estado ℚ) (pid : Pid),
      Run (Transicion entornoRacional) (iniciarSUSE c) tr s →
        Transicion entornoRacional s (.desconectar pid) s' → SinRestos s s' pid := by
  intro hclaim
  have hrun := Run.execute (paso entornoRacional) (s := iniciarSUSE ⟨1, []⟩)
    [.conectar 5, .crear 5 0 (0, 0) 0] (by decide)
  have hsin := hclaim ⟨1, []⟩ _ _ _ 5 hrun (eq_ok_after (paso entornoRacional) (by decide))
  exact hsin .new 0 (by decide) ⟨0, rfl⟩

end Suse
