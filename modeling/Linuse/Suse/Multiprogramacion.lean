import Linuse.Suse.Recursos
import Mathlib.Data.Finset.Card

/-!
# The multiprogramming slots

`MAXIMOPROCESAMIENTO` is taken once for each thread that `planificarReady`
admits, given back once for each thread that closes, and given back once for each
program that disconnects, whatever the number of threads it still has. The value
and the active threads add up to `GRADO_DE_MULTIPROGRAMACION` in every state of a
run if and only if every disconnection is of a program with exactly one active
thread, and no thread of a program that has left is admitted or closed later
(`maximoProcesamiento_iff`).
-/

namespace Suse

open Function (update update_self update_of_ne)
open Transition

variable {E : Type} {s s' : Estado E} {env : Entorno E}
  {tr : List (Step (Estado E) Evento)} {S : Set Puntero}

/-- The thread that a step admits. -/
def admite (x : Step (Estado E) Evento) : List Puntero :=
  match x.label with
  | .admitir _ => x.pre.unHilo.toList
  | _ => []

/-- The thread that a step closes: the one that gets to the exit list. -/
def cierra (x : Step (Estado E) Evento) : List Puntero :=
  match x.label with
  | .close pid _ _ =>
      (contenido x.post (.exit pid)).filter fun p => p ∉ contenido x.pre (.exit pid)
  | _ => []

/-- The threads of the program that a step disconnects. -/
def desconecta (x : Step (Estado E) Evento) : List Puntero :=
  match x.label with
  | .desconectar pid => (List.range x.pre.proximo).filter (esDelPrograma x.pre pid)
  | _ => []

def admitidos (tr : List (Step (Estado E) Evento)) : Finset ℕ := (tr.flatMap admite).toFinset

def cerrados (tr : List (Step (Estado E) Evento)) : Finset ℕ := (tr.flatMap cierra).toFinset

def desconectados (tr : List (Step (Estado E) Evento)) : Finset ℕ :=
  (tr.flatMap desconecta).toFinset

/-- The threads that were admitted and have neither been closed nor belonged to a
disconnected program. -/
def activos (tr : List (Step (Estado E) Evento)) : Finset ℕ :=
  (admitidos tr \ cerrados tr) \ desconectados tr

/-- The free slots and the active threads are as many as the configured
degree, so there are never more active threads than that. -/
def CupoJusto (c : Configuracion) (tr : List (Step (Estado E) Evento)) (s : Estado E) : Prop :=
  s.maximoProcesamiento + (activos tr).card = c.gradoDeMultiprogramacion ∧
    (activos tr).card ≤ c.gradoDeMultiprogramacion

/-- The steps that keep the slots exact: a disconnection of a program with exactly
one active thread, an admission or a close of a thread whose program never
disconnected, and every step of another kind. -/
def CupoExacto (tr : List (Step (Estado E) Evento)) (x : Step (Estado E) Evento) : Prop :=
  match x.label with
  | .admitir _ => ∀ p ∈ contenido x.pre .mano, p ∉ desconectados tr
  | .close pid tid _ =>
      ∀ p ∈ contenido x.pre (.exec pid), tieneTid x.pre tid p = true → p ∉ desconectados tr
  | .desconectar pid => ((activos tr).filter fun p => esDelPrograma x.pre pid p).card = 1
  | _ => True

/-- What the places of the threads tell about the history: a thread in New was
not admitted yet, and one in an active place was, and was not closed. -/
structure Historia (tr : List (Step (Estado E) Evento)) (s : Estado E) : Prop where
  nuevo : ∀ x (l : Lugar), l.fase = .nuevo → x ∈ contenido s l → x ∉ admitidos tr
  activo : ∀ x (l : Lugar), l.fase = .activo → x ∈ contenido s l →
    x ∈ admitidos tr ∧ x ∉ cerrados tr
  cerrado : cerrados tr ⊆ admitidos tr
  alocado : ∀ x ∈ admitidos tr, x < s.proximo

/-! ## One more transition -/

section Snoc

variable (tr) (x : Step (Estado E) Evento)

theorem admitidos_snoc : admitidos (tr ++ [x]) = admitidos tr ∪ (admite x).toFinset := by
  rw [admitidos, List.flatMap_append, List.flatMap_singleton, List.toFinset_append, admitidos]

theorem cerrados_snoc : cerrados (tr ++ [x]) = cerrados tr ∪ (cierra x).toFinset := by
  rw [cerrados, List.flatMap_append, List.flatMap_singleton, List.toFinset_append, cerrados]

theorem desconectados_snoc :
    desconectados (tr ++ [x]) = desconectados tr ∪ (desconecta x).toFinset := by
  rw [desconectados, List.flatMap_append, List.flatMap_singleton, List.toFinset_append,
    desconectados]

end Snoc

/-- The events that neither admit, nor close, nor disconnect. -/
def Evento.SinCupo : Evento → Prop
  | admitir _ => False
  | close _ _ _ => False
  | desconectar _ => False
  | _ => True

theorem historia_sinCupo (tr : List (Step (Estado E) Evento)) (s s' : Estado E)
    {e : Evento} (he : e.SinCupo) :
    admitidos (tr ++ [⟨s, e, s'⟩]) = admitidos tr ∧
      cerrados (tr ++ [⟨s, e, s'⟩]) = cerrados tr ∧
      desconectados (tr ++ [⟨s, e, s'⟩]) = desconectados tr := by
  rw [admitidos_snoc, cerrados_snoc, desconectados_snoc]
  cases e with
  | admitir ahora => exact he.elim
  | close pid tid ahora => exact he.elim
  | desconectar pid => exact he.elim
  | _ => simp [admite, cierra, desconecta]

/-- Such an event leaves the slots alone. -/
theorem paso_maximo {e : Evento} (he : e.SinCupo) (h : paso env s e = .ok s') :
    s'.maximoProcesamiento = s.maximoProcesamiento := by
  cases e with
  | conectar pid =>
      obtain ⟨-, rfl⟩ := paso_conectar h
      rfl
  | crear pid tid basura ahora =>
      obtain ⟨p, -, rfl⟩ := crearHilo_ok h
      rfl
  | tomar =>
      obtain ⟨-, -, unHilo, resto, -, rfl⟩ := planificarReadyTomar_ok h
      rfl
  | admitir ahora => exact he.elim
  | wait pid tid semID =>
      rcases semSuseWait_ok h with
        ⟨-, rfl⟩ | ⟨sem, -, ⟨-, rfl⟩ | ⟨-, p, exec, hilo, cola, -, -, -, -, -, rfl⟩⟩
      · rfl
      · rfl
      · rfl
  | signal pid tid semID ahora =>
      rcases semSuseSignal_ok h with
        ⟨-, rfl⟩ | ⟨sem, -, ⟨-, rfl⟩ | ⟨-, -, rfl⟩ | ⟨-, -, hsacar⟩⟩
      · rfl
      · rfl
      · rfl
      · rcases sacar1HiloDeLaColaDeBloqueadosPorSemaforo_ok hsacar with ⟨-, rfl⟩ |
          ⟨unHilo, resto, s₁, hilo, unPrograma, p, -, hs₁, -, -, -, rfl⟩
        · rfl
        · have hready := pasarAReady_recursos hs₁
          have hdesp := despertarPrograma_recursos s₁ hilo.pid unPrograma
          exact hdesp.maximo.trans hready.maximo
  | join pid tidAEsperar =>
      rcases realizarJoin_ok h with rfl | ⟨p, exec, hilo, cantidad, -, -, -, rfl⟩
      · rfl
      · rfl
  | close pid tid ahora => exact he.elim
  | scheduleNext pid reloj =>
      obtain ⟨r, h⟩ := paso_scheduleNext h
      exact (siguienteAEjecutar_recursos h).maximo
  | despertar pid reloj =>
      obtain ⟨r, h⟩ := paso_despertar h
      exact (calcularSiguienteHiloDespierto_recursos h).maximo
  | metricas ahora => exact (tomarMetricas_soloTiempos h).mismosRecursos.maximo
  | desconectar pid => exact he.elim

/-- An admission empties the hand, takes a slot and records the thread. -/
theorem admitir_efecto (tr : List (Step (Estado E) Evento)) {ahora : ℕ}
    (h : paso env s (.admitir ahora) = .ok s') :
    ∃ p, s.unHilo = some p ∧ s'.unHilo = none ∧
      s.maximoProcesamiento = s'.maximoProcesamiento + 1 ∧
      admitidos (tr ++ [⟨s, .admitir ahora, s'⟩]) = insert p (admitidos tr) ∧
      cerrados (tr ++ [⟨s, .admitir ahora, s'⟩]) = cerrados tr ∧
      desconectados (tr ++ [⟨s, .admitir ahora, s'⟩]) = desconectados tr := by
  obtain ⟨p, hilo, q, hmano, hmax, -, -, h⟩ := planificarReadyAdmitir_ok h
  have hmano' : s'.unHilo = none := by
    obtain ⟨hilo', q', -, -, ⟨-, rfl⟩ | ⟨lista, -, rfl⟩⟩ := pasarAReady_ok h
    · rfl
    · rfl
  have hmax' : s'.maximoProcesamiento = s.maximoProcesamiento - 1 :=
    (pasarAReady_recursos h).maximo
  refine ⟨p, hmano, hmano', by omega, ?_, ?_, ?_⟩
  · rw [admitidos_snoc]
    simp [admite, hmano]
  · rw [cerrados_snoc]
    simp [cierra]
  · rw [desconectados_snoc]
    simp [desconecta]

/-- A close of the running thread gives a slot back and records the thread; any
other close changes nothing. -/
theorem close_efecto (tr : List (Step (Estado E) Evento)) {pid : Pid} {tid : Tid}
    {ahora : ℕ} (hC : Coherente s S)
    (h : paso env s (.close pid tid ahora) = .ok s') :
    admitidos (tr ++ [⟨s, .close pid tid ahora, s'⟩]) = admitidos tr ∧
    desconectados (tr ++ [⟨s, .close pid tid ahora, s'⟩]) = desconectados tr ∧
    ∃ p, contenido s (.exec pid) = [p] ∧
      ((tieneTid s tid p = false ∧ s' = s ∧
          cerrados (tr ++ [⟨s, .close pid tid ahora, s'⟩]) = cerrados tr) ∨
        (tieneTid s tid p = true ∧ p ∈ contenido s' (.exit pid) ∧
          s'.maximoProcesamiento = s.maximoProcesamiento + 1 ∧
          cerrados (tr ++ [⟨s, .close pid tid ahora, s'⟩]) = insert p (cerrados tr))) := by
  obtain ⟨-, -, p, hexec, hcaso⟩ := realizarClose_recursos hC h
  refine ⟨by rw [admitidos_snoc]; simp [admite],
    by rw [desconectados_snoc]; simp [desconecta], p, hexec, ?_⟩
  rcases hcaso with ⟨htid, rfl⟩ | ⟨htid, hmax, hexit⟩
  · have hcierra : cierra (⟨s', .close pid tid ahora, s'⟩ : Step (Estado E) Evento) = [] :=
      List.filter_eq_nil_iff.2 (by simp)
    refine Or.inl ⟨htid, rfl, ?_⟩
    rw [cerrados_snoc, hcierra]
    simp
  · refine Or.inr ⟨htid, by simp [hexit], hmax, ?_⟩
    have hnuevo : p ∉ contenido s (.exit pid) :=
      hC.particion.not_mem_of_ne (l := .exec pid) (by simp [hexec]) (by simp)
    have hcierra : cierra (⟨s, .close pid tid ahora, s'⟩ : Step (Estado E) Evento) = [p] := by
      simp only [cierra, hexit, List.filter_append]
      rw [List.filter_eq_nil_iff.2 (by simp), List.nil_append,
        List.filter_cons_of_pos (by simpa using hnuevo), List.filter_nil]
    rw [cerrados_snoc, hcierra]
    simp

theorem desconectar_efecto (tr : List (Step (Estado E) Evento)) {pid : Pid}
    (h : paso env s (.desconectar pid) = .ok s') :
    s'.maximoProcesamiento = s.maximoProcesamiento + 1 ∧
      admitidos (tr ++ [⟨s, .desconectar pid, s'⟩]) = admitidos tr ∧
      cerrados (tr ++ [⟨s, .desconectar pid, s'⟩]) = cerrados tr ∧
      desconectados (tr ++ [⟨s, .desconectar pid, s'⟩]) = desconectados tr ∪
        ((List.range s.proximo).filter (esDelPrograma s pid)).toFinset := by
  obtain ⟨-, rfl⟩ := paso_desconectar h
  refine ⟨rfl, ?_, ?_, ?_⟩
  · rw [admitidos_snoc]
    simp [admite]
  · rw [cerrados_snoc]
    simp [cierra]
  · rw [desconectados_snoc]
    rfl

/-! ## The history -/

namespace Historia

/-- A path of moves that keep the phase ends in the phase where it starts. -/
theorem fase_of_path {x : Puntero} {l l' : Lugar}
    (h : Relation.ReflTransGen (Muda s Lugar.MismaFase x) l l') : l.fase = l'.fase := by
  induction h with
  | refl => rfl
  | tail _ hm ih => exact ih.trans hm.1

/-- Under moves of a close, an active place or New is reached from a place of the
same phase. -/
theorem fase_of_path_cierra {x : Puntero} {l l' : Lugar}
    (h : Relation.ReflTransGen (Muda s Lugar.Cierra x) l l') (hl' : l'.fase ≠ .terminado) :
    l.fase = l'.fase := by
  induction h with
  | refl => rfl
  | @tail b c _ hm ih =>
      rcases hm.1 with hfase | ⟨pid, rfl, rfl⟩
      · rw [ih (by rwa [hfase]), hfase]
      · exact absurd rfl hl'

/-- Under the move of an admission, a place is reached from itself, or from the
hand and then it is active. -/
theorem path_admite {x : Puntero} {l l' : Lugar}
    (h : Relation.ReflTransGen (Muda s Lugar.Admite x) l l') :
    l = l' ∨ (l = .mano ∧ l'.fase = .activo) := by
  induction h with
  | refl => exact Or.inl rfl
  | @tail b c _ hm ih =>
      obtain ⟨rfl, hc⟩ := hm.1
      rcases ih with rfl | ⟨rfl, hb⟩
      · exact Or.inr ⟨rfl, hc⟩
      · cases hb

theorem inicial (c : Configuracion) : Historia [] (iniciarSUSE c : Estado E) := by
  refine ⟨fun x l _ hx => ?_, fun x l _ hx => ?_, by simp [cerrados], by simp [admitidos]⟩
  · rw [iniciarSUSE_contenido] at hx
    cases hx
  · rw [iniciarSUSE_contenido] at hx
    cases hx

/-- A step that records nothing and keeps the phase of the threads it moves. -/
theorem congr {tr' : List (Step (Estado E) Evento)} (h : Historia tr s)
    (hadm : admitidos tr' = admitidos tr) (hcer : cerrados tr' = cerrados tr)
    (hprox : s.proximo ≤ s'.proximo)
    (horigen : ∀ x l', x ∈ contenido s' l' → x ∈ admitidos tr ∨ l'.fase ≠ .nuevo →
      ∃ l, x ∈ contenido s l ∧ l.fase = l'.fase) : Historia tr' s' := by
  refine ⟨fun x l hl hx => ?_, fun x l hl hx => ?_, by rw [hadm, hcer]; exact h.cerrado,
    fun x hx => (h.alocado x (hadm ▸ hx)).trans_le hprox⟩
  · rw [hadm]
    intro hmem
    obtain ⟨l₀, hx₀, hfase⟩ := horigen x l hx (Or.inl hmem)
    exact h.nuevo x l₀ (hfase.trans hl) hx₀ hmem
  · rw [hadm, hcer]
    obtain ⟨l₀, hx₀, hfase⟩ := horigen x l hx (Or.inr (by rw [hl]; decide))
    exact h.activo x l₀ (hfase.trans hl) hx₀

theorem sinCupo {e : Evento} (h : Historia tr s) (hC : Coherente s S) (he : e.SinCupo)
    (hs : paso env s e = .ok s') : Historia (tr ++ [⟨s, e, s'⟩]) s' := by
  obtain ⟨hadm, hcer, -⟩ := historia_sinCupo tr s s' he
  have hinterno : e.Interno → e.relacion = Lugar.MismaFase →
      Historia (tr ++ [⟨s, e, s'⟩]) s' := by
    intro hint hrel
    have hm := paso_mueve hC hs hint
    rw [hrel] at hm
    refine h.congr hadm hcer hm.proximo.ge fun x l' hx _ => ?_
    obtain ⟨l, hxl, hpath⟩ := hm.moves.origin hx
    exact ⟨l, hxl, fase_of_path hpath⟩
  cases e with
  | conectar pid =>
      obtain ⟨hp, rfl⟩ := paso_conectar hs
      refine h.congr hadm hcer (le_refl _) fun x l' hx _ => ⟨l', ?_, rfl⟩
      rwa [contenido_conectar hp] at hx
  | crear pid tid basura ahora =>
      have hcont := contenido_crearHilo hs
      obtain ⟨p, -, rfl⟩ := crearHilo_ok hs
      refine h.congr hadm hcer (Nat.le_succ _) fun x l' hx hcaso => ⟨l', ?_, rfl⟩
      rw [hcont] at hx
      by_cases hl : l' = .new
      · subst hl
        rw [update_self, List.mem_append, List.mem_singleton] at hx
        rcases hx with hx | rfl
        · exact hx
        · rcases hcaso with hmem | hfase
          · exact absurd (h.alocado _ hmem) (lt_irrefl _)
          · exact absurd rfl hfase
      · rwa [update_of_ne hl] at hx
  | admitir ahora => exact he.elim
  | close pid tid ahora => exact he.elim
  | desconectar pid => exact he.elim
  | _ => exact hinterno trivial rfl

theorem admitir {ahora : ℕ} (h : Historia tr s) (hC : Coherente s S)
    (hs : paso env s (.admitir ahora) = .ok s') :
    Historia (tr ++ [⟨s, .admitir ahora, s'⟩]) s' := by
  have hm : Mueve Lugar.Admite False s s' := paso_mueve hC hs trivial
  obtain ⟨p, hmano, hmano', -, hadm, hcer, -⟩ := admitir_efecto tr hs
  have hp : p ∈ contenido s .mano := by simp [contenido, hmano]
  have hp' : p ∉ admitidos tr := h.nuevo p .mano rfl hp
  refine ⟨fun x l' hl' hx => ?_, fun x l' hl' hx => ?_, ?_, fun x hx => ?_⟩
  · obtain ⟨l, hxl, hpath⟩ := hm.moves.origin hx
    rw [hadm, Finset.mem_insert]
    rcases path_admite hpath with rfl | ⟨-, hact⟩
    · rintro (rfl | hmem)
      · -- the hand is empty after the step, and the thread was in the hand
        have hl : l = .mano := hC.particion.unique x l .mano hxl hp
        subst hl
        simp [contenido, hmano'] at hx
      · exact h.nuevo x l hl' hxl hmem
    · rw [hl'] at hact
      cases hact
  · obtain ⟨l, hxl, hpath⟩ := hm.moves.origin hx
    rw [hadm, hcer, Finset.mem_insert]
    rcases path_admite hpath with rfl | ⟨rfl, -⟩
    · exact ⟨Or.inr (h.activo x l hl' hxl).1, (h.activo x l hl' hxl).2⟩
    · have hxp : x = p := by
        rw [contenido, hmano] at hxl
        simpa using hxl
      subst hxp
      exact ⟨Or.inl rfl, fun hmem => hp' (h.cerrado hmem)⟩
  · rw [hadm, hcer]
    exact h.cerrado.trans (Finset.subset_insert _ _)
  · rw [hadm, Finset.mem_insert] at hx
    rw [hm.proximo]
    rcases hx with rfl | hx
    · exact hC.lt_proximo hp
    · exact h.alocado x hx

theorem close {pid : Pid} {tid : Tid} {ahora : ℕ} (h : Historia tr s) (hC : Coherente s S)
    (hs : paso env s (.close pid tid ahora) = .ok s') :
    Historia (tr ++ [⟨s, .close pid tid ahora, s'⟩]) s' := by
  have hm : Mueve Lugar.Cierra (¬ TidUnico s) s s' := paso_mueve hC hs trivial
  obtain ⟨S', -, hC'⟩ := hm.coherente hC
  obtain ⟨hadm, -, p, hexec, hcaso⟩ := close_efecto tr hC hs
  have horigen : ∀ x l', x ∈ contenido s' l' → l'.fase ≠ .terminado →
      ∃ l, x ∈ contenido s l ∧ l.fase = l'.fase := by
    intro x l' hx hl'
    obtain ⟨l, hxl, hpath⟩ := hm.moves.origin hx
    exact ⟨l, hxl, fase_of_path_cierra hpath hl'⟩
  refine ⟨fun x l' hl' hx => ?_, fun x l' hl' hx => ?_, ?_, fun x hx => ?_⟩
  · obtain ⟨l, hxl, hfase⟩ := horigen x l' hx (by rw [hl']; decide)
    rw [hadm]
    exact h.nuevo x l (hfase.trans hl') hxl
  · obtain ⟨l, hxl, hfase⟩ := horigen x l' hx (by rw [hl']; decide)
    obtain ⟨hmem, hno⟩ := h.activo x l (hfase.trans hl') hxl
    rw [hadm]
    refine ⟨hmem, ?_⟩
    rcases hcaso with ⟨-, -, hcer⟩ | ⟨-, hexit, -, hcer⟩
    · rw [hcer]
      exact hno
    · rw [hcer, Finset.mem_insert]
      rintro (rfl | hcerrado)
      · have heq := hC'.particion.unique x l' (.exit pid) hx hexit
        rw [heq] at hl'
        cases hl'
      · exact hno hcerrado
  · rw [hadm]
    rcases hcaso with ⟨-, -, hcer⟩ | ⟨-, -, -, hcer⟩
    · rw [hcer]
      exact h.cerrado
    · rw [hcer]
      exact Finset.insert_subset (h.activo p (.exec pid) rfl (by simp [hexec])).1 h.cerrado
  · rw [hadm] at hx
    rw [hm.proximo]
    exact h.alocado x hx

theorem desconectar {pid : Pid} (h : Historia tr s)
    (hs : paso env s (.desconectar pid) = .ok s') :
    Historia (tr ++ [⟨s, .desconectar pid, s'⟩]) s' := by
  obtain ⟨-, hadm, hcer, -⟩ := desconectar_efecto tr hs
  obtain ⟨-, rfl⟩ := paso_desconectar hs
  refine h.congr hadm hcer (le_refl _) fun x l' hx _ => ⟨l', ?_, rfl⟩
  by_cases hl : l'.DelPrograma pid
  · rw [(contenido_limpiarEstructuras l').1 hl] at hx
    cases hx
  · rwa [(contenido_limpiarEstructuras l').2 hl] at hx

theorem paso {e : Evento} (h : Historia tr s) (hC : Coherente s S)
    (hs : paso env s e = .ok s') : Historia (tr ++ [⟨s, e, s'⟩]) s' := by
  cases e with
  | admitir ahora => exact h.admitir hC hs
  | close pid tid ahora => exact h.close hC hs
  | desconectar pid => exact h.desconectar hs
  | _ => exact h.sinCupo hC trivial hs

end Historia

theorem historia_of_run {c : Configuracion}
    (hrun : Run (Transicion env) (iniciarSUSE c) tr s) : Historia tr s := by
  refine hrun.invariant_trace Historia (Historia.inicial c) ?_
  intro tr s e s' hrun h hs
  obtain ⟨S, hC⟩ := coherente_of_run hrun
  exact h.paso hC hs

/-! ## The balance of the slots -/

/-- Where the slots and the active threads add up to `g`, a step keeps the sum if
and only if it is one of `CupoExacto`. -/
theorem saldo_paso {e : Evento} {g : ℕ} (h : Historia tr s) (hC : Coherente s S)
    (hs : paso env s e = .ok s') (hsaldo : s.maximoProcesamiento + (activos tr).card = g) :
    s'.maximoProcesamiento + (activos (tr ++ [⟨s, e, s'⟩])).card = g ↔
      CupoExacto tr ⟨s, e, s'⟩ := by
  by_cases he : e.SinCupo
  · obtain ⟨hadm, hcer, hdes⟩ := historia_sinCupo tr s s' he
    have hsaldo' : s'.maximoProcesamiento + (activos (tr ++ [⟨s, e, s'⟩])).card = g := by
      rw [activos, hadm, hcer, hdes, paso_maximo he hs]
      exact hsaldo
    refine iff_of_true hsaldo' ?_
    cases e with
    | admitir ahora => exact he.elim
    | close pid tid ahora => exact he.elim
    | desconectar pid => exact he.elim
    | _ => trivial
  · cases e with
    | admitir ahora =>
        obtain ⟨p, hmano, -, hmax, hadm, hcer, hdes⟩ := admitir_efecto tr hs
        have hp : p ∈ contenido s .mano := by simp [contenido, hmano]
        have hnuevo : p ∉ admitidos tr := h.nuevo p .mano rfl hp
        have hexacto : CupoExacto tr ⟨s, .admitir ahora, s'⟩ ↔ p ∉ desconectados tr := by
          simp [CupoExacto, contenido, hmano]
        have hact : p ∉ activos tr := fun hmem =>
          hnuevo (Finset.mem_sdiff.1 (Finset.mem_sdiff.1 hmem).1).1
        rw [hexacto, activos, hadm, hcer, hdes,
          Finset.insert_sdiff_of_notMem _ fun hmem => hnuevo (h.cerrado hmem)]
        by_cases hd : p ∈ desconectados tr
        · rw [Finset.insert_sdiff_of_mem _ hd, ← activos]
          exact iff_of_false (by omega) (not_not.2 hd)
        · rw [Finset.insert_sdiff_of_notMem _ hd, ← activos, Finset.card_insert_of_notMem hact]
          exact iff_of_true (by omega) hd
    | close pid tid ahora =>
        obtain ⟨hadm, hdes, p, hexec, hcaso⟩ := close_efecto tr hC hs
        have hexacto : CupoExacto tr ⟨s, .close pid tid ahora, s'⟩ ↔
            (tieneTid s tid p = true → p ∉ desconectados tr) := by
          simp [CupoExacto, hexec]
        rw [hexacto, activos, hadm, hdes]
        rcases hcaso with ⟨htid, rfl, hcer⟩ | ⟨htid, -, hmax, hcer⟩
        · rw [hcer, ← activos, htid]
          exact iff_of_true hsaldo (by simp)
        · obtain ⟨hadmitido, hno⟩ := h.activo p (.exec pid) rfl (by simp [hexec])
          have hsdiff : (admitidos tr \ insert p (cerrados tr)) \ desconectados tr =
              (activos tr).erase p := by
            ext x
            simp only [activos, Finset.mem_sdiff, Finset.mem_insert, Finset.mem_erase]
            tauto
          rw [hcer, hsdiff, hmax, htid]
          by_cases hd : p ∈ desconectados tr
          · have hact : p ∉ activos tr := fun hmem => (Finset.mem_sdiff.1 hmem).2 hd
            rw [Finset.erase_eq_of_notMem hact]
            exact iff_of_false (by omega) fun hno => hno rfl hd
          · have hact : p ∈ activos tr :=
              Finset.mem_sdiff.2 ⟨Finset.mem_sdiff.2 ⟨hadmitido, hno⟩, hd⟩
            have hcard := Finset.card_erase_add_one hact
            exact iff_of_true (by omega) fun _ => hd
    | desconectar pid =>
        obtain ⟨hmax, hadm, hcer, hdes⟩ := desconectar_efecto tr hs
        have hsdiff : activos (tr ++ [⟨s, .desconectar pid, s'⟩]) =
            (activos tr).filter fun p => ¬ esDelPrograma s pid p = true := by
          ext x
          simp only [activos, hadm, hcer, hdes, Finset.mem_sdiff, Finset.mem_union,
            Finset.mem_filter, List.mem_toFinset, List.mem_filter, List.mem_range]
          have halocado := h.alocado x
          tauto
        have hcard : ((activos tr).filter fun p => esDelPrograma s pid p).card +
            ((activos tr).filter fun p => ¬ esDelPrograma s pid p = true).card =
              (activos tr).card := Finset.card_filter_add_card_filter_not _
        have hexacto : CupoExacto tr ⟨s, .desconectar pid, s'⟩ ↔
            ((activos tr).filter fun p => esDelPrograma s pid p).card = 1 := Iff.rfl
        rw [hexacto, hsdiff, hmax]
        omega
    | _ => exact absurd trivial he

/-- In a run, the free slots and the active threads add up to the configured
degree in every state if and only if every disconnection is of a program with
exactly one active thread and no thread of a program that left is admitted or
closed later. -/
theorem maximoProcesamiento_iff (env : Entorno E) (c : Configuracion)
    (hrun : Run (Transicion env) (iniciarSUSE c) tr s) :
    (∀ tr₁ x tr₂, tr = tr₁ ++ x :: tr₂ → CupoJusto c (tr₁ ++ [x]) x.post) ↔
      ∀ tr₁ x tr₂, tr = tr₁ ++ x :: tr₂ → CupoExacto tr₁ x := by
  refine hrun.forall_prefix_iff (CupoJusto c) CupoExacto ?_ ?_
  · simp [CupoJusto, activos, admitidos, iniciarSUSE]
  · intro tr s e s' hrun hjusto hs
    obtain ⟨S, hC⟩ := coherente_of_run hrun
    rw [← saldo_paso (historia_of_run hrun) hC hs hjusto.1, CupoJusto]
    omega

/-- A program that connects and disconnects without a thread leaves one slot too
many. -/
theorem maximoProcesamiento_desconexionSinHilos :
    ¬ ∀ (c : Configuracion) (tr : List (Step (Estado ℚ) Evento)) (s : Estado ℚ),
      Run (Transicion entornoRacional) (iniciarSUSE c) tr s → CupoJusto c tr s := by
  intro hclaim
  have hrun := Run.execute (paso entornoRacional) (s := iniciarSUSE ⟨1, []⟩)
    [.conectar 5, .desconectar 5] (by decide)
  have hjusto := (hclaim ⟨1, []⟩ _ _ hrun).1
  exact absurd hjusto (by decide)

/-- Two programs with a thread each, the first of which disconnects and the second closes its
thread. -/
def salidas : List Evento :=
  [.conectar 5, .conectar 6, .crear 5 0 (0, 0) 10, .crear 6 0 (0, 0) 11, .tomar, .admitir 12,
    .tomar, .admitir 13, .desconectar 5, .close 6 0 14]

instance (tr : List (Step (Estado E) Evento)) (x : Step (Estado E) Evento) :
    Decidable (CupoExacto tr x) :=
  match x with
  | ⟨s, .admitir _, _⟩ =>
      inferInstanceAs (Decidable (∀ p ∈ contenido s .mano, p ∉ desconectados tr))
  | ⟨s, .close pid tid _, _⟩ =>
      inferInstanceAs (Decidable (∀ p ∈ contenido s (.exec pid), tieneTid s tid p = true →
        p ∉ desconectados tr))
  | ⟨s, .desconectar pid, _⟩ =>
      inferInstanceAs (Decidable (((activos tr).filter fun p => esDelPrograma s pid p).card = 1))
  | ⟨_, .conectar _, _⟩ | ⟨_, .crear _ _ _ _, _⟩ | ⟨_, .tomar, _⟩ | ⟨_, .wait _ _ _, _⟩
  | ⟨_, .signal _ _ _ _, _⟩ | ⟨_, .join _ _, _⟩ | ⟨_, .scheduleNext _ _, _⟩
  | ⟨_, .despertar _ _, _⟩ | ⟨_, .metricas _, _⟩ => .isTrue trivial

theorem maximoProcesamiento_iff_unaDesconexion :
    (∀ tr₁ x tr₂, trace (paso entornoRacional) (iniciarSUSE ⟨2, []⟩) salidas =
        tr₁ ++ x :: tr₂ → CupoJusto (⟨2, []⟩ : Configuracion) (tr₁ ++ [x]) x.post) ∧
      ¬ ∀ tr₁ x tr₂, trace (paso entornoRacional) (iniciarSUSE ⟨1, []⟩)
        [.conectar 5, .desconectar 5] = tr₁ ++ x :: tr₂ →
          CupoJusto (⟨1, []⟩ : Configuracion) (tr₁ ++ [x]) x.post := by
  constructor
  · refine (maximoProcesamiento_iff entornoRacional ⟨2, []⟩
      (Run.execute (paso entornoRacional) salidas (by decide +kernel))).2 ?_
    exact forall_append_cons_iff.2 (by decide +kernel)
  · have hrun := Run.execute (paso entornoRacional) (s := iniciarSUSE ⟨1, []⟩)
      [.conectar 5, .desconectar 5] (by decide)
    rw [maximoProcesamiento_iff entornoRacional ⟨1, []⟩ hrun]
    intro hexacto
    -- the disconnection is of a program with no active thread
    have huno : (0 : ℕ) = 1 := hexacto [⟨iniciarSUSE ⟨1, []⟩, .conectar 5, _⟩] _ [] rfl
    exact absurd huno (by decide)

end Suse
