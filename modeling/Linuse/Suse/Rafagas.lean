import Linuse.Suse.Independencia

/-!
# The burst that is measured

`recalcularEstimacion` stores in the running thread the time since `inicioRafaga`,
one variable for all the programs. Only `calcularSiguienteHilo` writes it, when it
takes a thread from a ready list to `exec`, so `inicioRafaga` is the time of the
last such choice, of any program (`inicioRafaga_of_run`). `pasarAReady`, which puts
the first thread of a program in `exec`, does not write it.

The stored burst is the time since the thread was placed if and only if that last
choice was made at the time at which the thread was placed (`mideBien_iff`).
-/

namespace Suse

open Function (update update_self update_of_ne)
open Fallible Transition

variable {E : Type} {s s' s'' : Estado E} {S : Set Puntero} {env : Entorno E} {pid : Pid}

/-- The time at which an event puts a thread in `exec`: the reading that
`calcularSiguienteHilo` takes there, and the time of the event where `pasarAReady`
does it and reads no clock. -/
def Evento.momento : Evento → Option ℕ
  | .admitir ahora => some ahora
  | .signal _ _ _ ahora => some ahora
  | .scheduleNext _ reloj => some (reloj 1)
  | .despertar _ reloj => some (reloj 1)
  | _ => none

/-- The readings of the clock that the handler of an event takes, in order. -/
def Evento.lecturas : Evento → List ℕ
  | .crear _ _ _ ahora => [ahora]
  | .admitir ahora => [ahora]
  | .signal _ _ _ ahora => [ahora]
  | .close _ _ ahora => [ahora]
  | .scheduleNext _ reloj => (List.range 6).map reloj
  | .despertar _ reloj => (List.range 4).map reloj
  | .metricas ahora => [ahora]
  | _ => []

/-- The step puts a thread in the `exec` of the program. -/
def Coloca (pid : Pid) (x : Step (Estado E) Evento) : Prop :=
  contenido x.post (.exec pid) ≠ [] ∧
    contenido x.post (.exec pid) ≠ contenido x.pre (.exec pid)

instance (pid : Pid) (x : Step (Estado E) Evento) : Decidable (Coloca pid x) :=
  inferInstanceAs (Decidable (_ ∧ _))

/-- When the step puts a thread in the `exec` of the program. -/
def colocacion (pid : Pid) (x : Step (Estado E) Evento) : Option ℕ :=
  if Coloca pid x then x.label.momento else none

/-- When the step is one of `calcularSiguienteHilo` that takes a thread from a ready
list to the `exec` of its program. -/
def eleccion (x : Step (Estado E) Evento) : Option ℕ :=
  match x.label with
  | .scheduleNext pid reloj => if Coloca pid x then some (reloj 1) else none
  | .despertar pid reloj => if Coloca pid x then some (reloj 1) else none
  | _ => none

/-- When the thread that runs in the program was placed there. -/
def colocado (tr : List (Step (Estado E) Evento)) (pid : Pid) : Option ℕ :=
  lastShown (colocacion pid) tr

/-- When `calcularSiguienteHilo` last took a thread to `exec`, for any program; 0
before the first time. -/
def ultimaEleccion (tr : List (Step (Estado E) Evento)) : ℕ :=
  (lastShown eleccion tr).getD 0

/-- A `recalcularEstimacion` of the program stores in its running thread the time
since it was placed, when an `int` holds it. -/
def RafagaJusta (env : Entorno E) (tr : List (Step (Estado E) Evento)) (s : Estado E)
    (pid : Pid) (ahora : ℕ) : Prop :=
  ∀ x, contenido s (.exec pid) = [x] → ∃ t s' h, colocado tr pid = some t ∧
    recalcularEstimacion env s pid ahora = .ok s' ∧ s'.hilos x = some h ∧
    (aInt (ahora - t) = ahora - t → h.rafaga = ahora - t)

/-- The thread that runs in the program was placed at the time of the last choice
of a thread, up to what an `int` tells apart. -/
def EmpiezaAlli (tr : List (Step (Estado E) Evento)) (s : Estado E) (pid : Pid) (ahora : ℕ) :
    Prop :=
  contenido s (.exec pid) ≠ [] → ∀ t, colocado tr pid = some t →
    aInt (ahora - t) = ahora - t → aInt t = aInt (ultimaEleccion tr)

/-- The clock of the run does not go back. -/
def NoRetrocede (tr : List (Step (Estado E) Evento)) : Prop :=
  (tr.flatMap fun x => x.label.lecturas).Pairwise (· ≤ ·)

instance (tr : List (Step (Estado E) Evento)) : Decidable (NoRetrocede tr) :=
  inferInstanceAs (Decidable (List.Pairwise _ _))

/-! ## Handlers that put no thread in `exec` -/

/-- The step leaves `inicioRafaga`, and each `exec` as it was or empty. -/
structure SinColocar (s s' : Estado E) : Prop where
  inicio : s'.inicioRafaga = s.inicioRafaga
  exec : ∀ pid, contenido s' (.exec pid) = contenido s (.exec pid) ∨
    contenido s' (.exec pid) = []

namespace SinColocar

theorem refl (s : Estado E) : SinColocar s s := ⟨rfl, fun _ => .inl rfl⟩

theorem trans (h : SinColocar s s') (h' : SinColocar s' s'') : SinColocar s s'' := by
  refine ⟨h'.inicio.trans h.inicio, fun pid => ?_⟩
  rcases h'.exec pid with heq | hvacio
  · rcases h.exec pid with heq' | hvacio
    · exact .inl (heq.trans heq')
    · exact .inr (heq.trans hvacio)
  · exact .inr hvacio

/-- Rewriting what these facts do not speak of. -/
theorem of_eq (hinicio : s'.inicioRafaga = s.inicioRafaga)
    (hprog : s'.diccionarioDeProgramas = s.diccionarioDeProgramas) : SinColocar s s' :=
  ⟨hinicio, fun pid => .inl (by simp only [contenido, hprog])⟩

theorem ponerPrograma {p q : Programa} (hp : s.diccionarioDeProgramas.get pid = some p)
    (hexec : q.exec = p.exec ∨ q.exec = none) : SinColocar s (s.ponerPrograma pid q) := by
  refine ⟨rfl, fun pid' => ?_⟩
  by_cases heq : pid' = pid
  · subst heq
    rcases hexec with hexec | hexec
    · exact .inl (by simp [contenido, hp, hexec])
    · exact .inr (by simp [contenido, hexec])
  · exact .inl (by simp [contenido, Dictionary.get_put_of_ne _ _ heq])

end SinColocar

theorem tomarMetricas_sinColocar {ahora : ℕ} (h : tomarMetricas s ahora = .ok s') :
    SinColocar s s' := by
  refine ⟨?_, fun pid => .inl (by rw [(tomarMetricas_soloTiempos h).contenido])⟩
  rw [tomarMetricas, bind_eq_ok] at h
  obtain ⟨s₁, h₁, h₂⟩ := h
  have hpasada : s₁.inicioRafaga = s.inicioRafaga := by
    refine foldlM_rel (fun s s' : Estado E => s'.inicioRafaga = s.inicioRafaga)
      (fun _ => rfl) (fun _ _ _ h h' => h'.trans h) ?_ _ h₁
    intro t unHilo t' ht
    simp only [tomarMetricasTiemposDeEjecucionPara1Hilo, noNulo, bind_eq_ok,
      orFail_eq_ok, pure_eq_ok] at ht
    obtain ⟨hilo, -, p, -, rfl⟩ := ht
    rfl
  have hreinicio : s'.inicioRafaga = s₁.inicioRafaga := by
    refine foldlM_rel (fun s s' : Estado E => s'.inicioRafaga = s.inicioRafaga)
      (fun _ => rfl) (fun _ _ _ h h' => h'.trans h) ?_ _ h₂
    intro t unPrograma t' ht
    simp only [reiniciarTiempoDeEjecucionDe1Programa, noNulo, bind_eq_ok,
      orFail_eq_ok, pure_eq_ok] at ht
    obtain ⟨p, -, rfl⟩ := ht
    rfl
  exact hreinicio.trans hpasada

theorem liberarLista_sinColocar {tid : Tid} {ahora : ℕ} (lista : List Puntero)
    (h : liberarLista pid tid ahora lista s = .ok s') : SinColocar s s' := by
  induction lista generalizing s with
  | nil =>
      cases h
      exact .refl _
  | cons x resto ih =>
      obtain ⟨p, hilo, q, hp, -, hq, hcaso⟩ := liberarLista_cons_ok h
      have hsacar : SinColocar s (sacarDeLista s pid tid p resto) :=
        .ponerPrograma hp (.inl rfl)
      rcases hcaso with ⟨-, h⟩ | ⟨l, -, -, h⟩
      · exact hsacar.trans (ih h)
      · have hready : SinColocar (sacarDeLista s pid tid p resto)
            (((sacarDeLista s pid tid p resto).ponerReady hilo.pid (l ++ [x])).ponerHilo x
              { hilo with timestampReady := ahora }) := .of_eq rfl rfl
        refine (hsacar.trans (hready.trans ?_)).trans (ih h)
        exact .ponerPrograma hq (.inl rfl)

theorem realizarClose_sinColocar {tid : Tid} {ahora : ℕ}
    (h : realizarClose s pid tid ahora = .ok s') : SinColocar s s' := by
  obtain ⟨p, x, hilo, -, -, -, ⟨-, rfl⟩ | ⟨-, s₁, p₁, hs₁, hp₁, h⟩⟩ := realizarClose_ok h
  · exact .refl _
  · simp only [pasarAExit, noNulo, bind_eq_ok, orFail_eq_ok, pure_eq_ok] at hs₁
    obtain ⟨hilo', -, t, ht, rfl⟩ := hs₁
    have hexit : SinColocar s (s.ponerExit hilo'.pid
        ((s.diccionarioDeListasDeExit.get hilo'.pid).getD [] ++ [x])) := .of_eq rfl rfl
    have hmax : SinColocar t { t with maximoProcesamiento := t.maximoProcesamiento + 1 } :=
      .of_eq rfl rfl
    obtain ⟨_, _, -, -, h⟩ := liberarBloqueadosPorElHilo_ok h
    have hvaciar : SinColocar { t with maximoProcesamiento := t.maximoProcesamiento + 1 }
        ({ t with maximoProcesamiento := t.maximoProcesamiento + 1 }.ponerPrograma pid
          { p₁ with exec := none }) := .ponerPrograma hp₁ (.inr rfl)
    exact (hexit.trans (tomarMetricas_sinColocar ht)).trans
      (hmax.trans (hvaciar.trans (liberarLista_sinColocar _ h)))

/-- An event at which no thread is placed. -/
theorem paso_sinColocar {e : Evento} (he : e.momento = none) (h : paso env s e = .ok s') :
    SinColocar s s' := by
  cases e with
  | conectar pid =>
      obtain ⟨hp, rfl⟩ := paso_conectar h
      refine ⟨rfl, fun pid' => ?_⟩
      by_cases heq : pid' = pid
      · subst heq
        exact .inr (by simp [contenido, crearPrograma])
      · exact .inl (by simp [contenido, crearPrograma, Dictionary.get_put_of_ne _ _ heq])
  | crear pid tid basura ahora =>
      obtain ⟨p, hp, rfl⟩ := crearHilo_ok h
      have hnuevo : SinColocar s { s with
          hilos := update s.hilos s.proximo (some (hiloNuevo env pid tid basura ahora))
          proximo := s.proximo + 1
          new := s.new ++ [s.proximo]
          hayNuevos := s.hayNuevos + 1 } := .of_eq rfl rfl
      exact hnuevo.trans (.ponerPrograma hp (.inl rfl))
  | tomar =>
      obtain ⟨-, -, unHilo, resto, -, rfl⟩ := planificarReadyTomar_ok h
      exact .of_eq rfl rfl
  | wait pid tid semID =>
      rcases semSuseWait_ok h with ⟨-, rfl⟩ | ⟨sem, -, ⟨-, rfl⟩ |
        ⟨-, p, x, hilo, cola, hp, -, -, -, -, rfl⟩⟩
      · exact .refl _
      · exact .of_eq rfl rfl
      · have hcola : SinColocar s (s.ponerBlockedPorSemaforo semID (cola ++ [x])) :=
          .of_eq rfl rfl
        exact hcola.trans (.ponerPrograma hp (.inr rfl))
  | join pid tid =>
      rcases realizarJoin_ok h with rfl | ⟨p, x, hilo, cantidad, hp, -, -, rfl⟩
      · exact .refl _
      · exact .ponerPrograma hp (.inr rfl)
  | close pid tid ahora => exact realizarClose_sinColocar h
  | metricas ahora => exact tomarMetricas_sinColocar h
  | desconectar pid =>
      obtain ⟨-, rfl⟩ := paso_desconectar h
      refine ⟨rfl, fun pid' => ?_⟩
      by_cases heq : pid' = pid
      · subst heq
        exact .inr (by simp [contenido, limpiarEstructuras, Dictionary.get_remove])
      · exact .inl (by simp [contenido, limpiarEstructuras, Dictionary.get_remove, heq])
  | admitir ahora => cases he
  | signal pid tid semID ahora => cases he
  | scheduleNext pid reloj => cases he
  | despertar pid reloj => cases he

/-! ## Choices -/

theorem pasarAReady_inicio {x : Puntero} {ahora : ℕ} (h : pasarAReady s x ahora = .ok s') :
    s'.inicioRafaga = s.inicioRafaga := by
  obtain ⟨hilo, p, -, -, ⟨-, rfl⟩ | ⟨lista, -, rfl⟩⟩ := pasarAReady_ok h
  · rfl
  · rfl

theorem semSuseSignal_inicio {semID : String} {ahora : ℕ}
    (h : semSuseSignal s pid semID ahora = .ok s') : s'.inicioRafaga = s.inicioRafaga := by
  rcases semSuseSignal_ok h with
    ⟨-, rfl⟩ | ⟨sem, -, ⟨-, rfl⟩ | ⟨-, -, rfl⟩ | ⟨-, -, hsacar⟩⟩
  · rfl
  · rfl
  · rfl
  · rcases sacar1HiloDeLaColaDeBloqueadosPorSemaforo_ok hsacar with ⟨-, rfl⟩ |
      ⟨unHilo, resto, s₁, hilo, unPrograma, p, -, hs₁, -, -, -, rfl⟩
    · rfl
    · have hdespertar : (despertarPrograma s₁ hilo.pid unPrograma).inicioRafaga =
          s₁.inicioRafaga := by
        rw [despertarPrograma]
        split_ifs
        · rfl
        · rfl
      have hpasar : s₁.inicioRafaga = (s.ponerBlockedPorSemaforo semID resto).inicioRafaga :=
        pasarAReady_inicio hs₁
      exact hdespertar.trans hpasar

theorem recalcularEstimacion_inicio {ahora : ℕ}
    (h : recalcularEstimacion env s pid ahora = .ok s') : s'.inicioRafaga = s.inicioRafaga := by
  rw [recalcularEstimacion] at h
  split at h
  · cases h
    rfl
  · split at h
    · cases h
      rfl
    · simp only [noNulo, bind_eq_ok, orFail_eq_ok, pure_eq_ok] at h
      obtain ⟨hilo, -, rfl⟩ := h
      rfl

/-- A call of `calcularSiguienteHilo` with the clock `reloj` changes the `exec` of
the program, and writes `inicioRafaga`, or does neither. -/
def EligeAlli (pid : Pid) (reloj : ℕ → ℕ) (s s' : Estado E) : Prop :=
  (contenido s' (.exec pid) = contenido s (.exec pid) ∧ s'.inicioRafaga = s.inicioRafaga) ∨
    (contenido s' (.exec pid) ≠ [] ∧ contenido s' (.exec pid) ≠ contenido s (.exec pid) ∧
      s'.inicioRafaga = reloj 1)

theorem EligeAlli.inicio {reloj : ℕ → ℕ} {x : Step (Estado E) Evento} {o : Option ℕ}
    (h : EligeAlli pid reloj x.pre x.post)
    (ho : o = if Coloca pid x then some (reloj 1) else none) :
    x.post.inicioRafaga = o.getD x.pre.inicioRafaga := by
  rcases h with ⟨heq, hinicio⟩ | ⟨hne, hne', hinicio⟩
  · rw [hinicio, ho, if_neg fun hcol => hcol.2 heq, Option.getD_none]
  · rw [hinicio, ho, if_pos ⟨hne, hne'⟩, Option.getD_some]

theorem enExec_exec (s : Estado E) (candidato : Puntero) (resto : List Puntero)
    (reloj : ℕ → ℕ) (p : Programa) (hilo : Hilo E) :
    contenido (enExec s pid candidato resto reloj p hilo) (.exec pid) = [candidato] := by
  simp [contenido, enExec]

/-- A ready thread that is now the only one in `exec` was not there before. -/
theorem exec_ne_of_ready (hC : Coherente s S) {x : Puntero} {l : List Puntero}
    (hx : x ∈ contenido s (.ready pid)) (hl : l = [x]) :
    l ≠ [] ∧ l ≠ contenido s (.exec pid) := by
  rw [hl]
  refine ⟨by simp, fun heq => ?_⟩
  have hexec : x ∈ contenido s (.exec pid) := by simp [← heq]
  cases hC.particion.unique x _ _ hx hexec

theorem siguienteAEjecutar_eligeAlli (hC : Coherente s S) {reloj : ℕ → ℕ} {r : Option Tid}
    (h : siguienteAEjecutar env s pid reloj = .ok (s', r)) : EligeAlli pid reloj s s' := by
  simp only [siguienteAEjecutar, bind_eq_ok] at h
  obtain ⟨s₁, h₁, s₂, h₂, h⟩ := h
  have hcont := (recalcularEstimacion_soloTiempos h₁).contenido
  have hinicio := recalcularEstimacion_inicio h₁
  obtain ⟨l, l', hl, hperm, rfl⟩ := replanificarHilos_ok h₂
  have hexec₂ : contenido (s₁.ponerReady pid l') (.exec pid) = contenido s (.exec pid) := by
    rw [← hcont]
    rfl
  have hready : ∀ x ∈ l', x ∈ contenido s (.ready pid) := by
    intro x hx
    rw [← hcont, contenido_ready hl]
    exact hperm.mem_iff.1 hx
  obtain ⟨lista, p, hlista, hp, hcaso⟩ := calcularSiguienteHilo_ok h
  have hl' : l' = lista := by simpa using hlista
  subst hl'
  rcases hcaso with ⟨x, hilo, -, -, rfl, -⟩ |
    ⟨x, hilo, candidato, c, resto, -, -, hresto, -, rfl, -⟩ |
    ⟨candidato, resto, hilo, -, hresto, -, rfl, -⟩ | ⟨hnone, -, rfl, -⟩
  · exact .inl ⟨hexec₂, hinicio⟩
  · have hexec : contenido (desalojar (s₁.ponerReady pid l') pid p x candidato hilo c resto
        reloj) (.exec pid) = [candidato] := by simp [contenido, desalojar]
    obtain ⟨hne, hne'⟩ := exec_ne_of_ready hC (hready candidato (by simp [hresto])) hexec
    exact .inr ⟨hne, hne', rfl⟩
  · obtain ⟨hne, hne'⟩ := exec_ne_of_ready hC (hready candidato (by simp [hresto]))
      (enExec_exec (s₁.ponerReady pid l') candidato resto reloj p hilo)
    exact .inr ⟨hne, hne', rfl⟩
  · refine .inl ⟨?_, hinicio⟩
    rw [← hexec₂, contenido_exec hp]
    simp [contenido, estacionado]

theorem calcularSiguienteHiloDespierto_eligeAlli (hC : Coherente s S) {reloj : ℕ → ℕ}
    {r : Option Tid} (h : calcularSiguienteHiloDespierto s pid reloj = .ok (s', r)) :
    EligeAlli pid reloj s s' := by
  obtain ⟨p, x, resto, hilo, hp, -, -, hlista, -, rfl, -⟩ := calcularSiguienteHiloDespierto_ok h
  have hx : x ∈ contenido s (.ready pid) := by simp [contenido_ready hlista]
  obtain ⟨hne, hne'⟩ := exec_ne_of_ready hC hx (enExec_exec (despertado s pid p) x resto reloj
    { p with mutexTomado := true } hilo)
  exact .inr ⟨hne, hne', rfl⟩

/-- A step writes `inicioRafaga` exactly when it is a choice, with its time. -/
theorem paso_inicioRafaga (hC : Coherente s S) {e : Evento} (h : paso env s e = .ok s') :
    s'.inicioRafaga = (eleccion ⟨s, e, s'⟩).getD s.inicioRafaga := by
  cases e with
  | admitir ahora =>
      obtain ⟨unHilo, hilo, p, -, -, -, -, h⟩ := planificarReadyAdmitir_ok h
      have hpasar : s'.inicioRafaga = (sacarDeMano s hilo.pid p).inicioRafaga :=
        pasarAReady_inicio h
      exact hpasar
  | signal pid tid semID ahora => exact semSuseSignal_inicio h
  | scheduleNext pid reloj =>
      obtain ⟨r, h⟩ := paso_scheduleNext h
      exact EligeAlli.inicio (x := ⟨s, .scheduleNext pid reloj, s'⟩)
        (siguienteAEjecutar_eligeAlli hC h) rfl
  | despertar pid reloj =>
      obtain ⟨r, h⟩ := paso_despertar h
      exact EligeAlli.inicio (x := ⟨s, .despertar pid reloj, s'⟩)
        (calcularSiguienteHiloDespierto_eligeAlli hC h) rfl
  | _ => exact (paso_sinColocar rfl h).inicio

/-! ## Over a run -/

variable {c : Configuracion} {tr : List (Step (Estado E) Evento)}

/-- `inicioRafaga` is the time of the last choice. -/
theorem inicioRafaga_of_run (hrun : Run (Transicion env) (iniciarSUSE c) tr s) :
    s.inicioRafaga = ultimaEleccion tr := by
  refine hrun.eq_lastShown Estado.inicioRafaga eleccion fun tr s e s' hrun hs => ?_
  obtain ⟨S, hC⟩ := coherente_of_run hrun
  exact paso_inicioRafaga hC hs

/-- A thread that runs was placed there at some time. -/
theorem colocado_of_run (hrun : Run (Transicion env) (iniciarSUSE c) tr s)
    (hexec : contenido s (.exec pid) ≠ []) : ∃ t, colocado tr pid = some t := by
  induction hrun with
  | nil => exact absurd rfl hexec
  | @snoc tr s s' e hrun hs ih =>
      rw [colocado, lastShown_snoc]
      by_cases heq : contenido s' (.exec pid) = contenido s (.exec pid)
      · obtain ⟨t, ht⟩ := ih (heq ▸ hexec)
        rw [colocado] at ht
        rw [ht]
        cases colocacion pid ⟨s, e, s'⟩ with
        | none => exact ⟨t, rfl⟩
        | some t' => exact ⟨t', rfl⟩
      · rw [colocacion, if_pos ⟨hexec, heq⟩]
        cases hmomento : e.momento with
        | none =>
            rcases (paso_sinColocar hmomento hs).exec pid with hexec' | hexec'
            · exact absurd hexec' heq
            · exact absurd hexec' hexec
        | some t => exact ⟨t, rfl⟩

theorem aInt_eq_iff (x y : ℤ) : aInt x = aInt y ↔ x % 4294967296 = y % 4294967296 := by
  simp only [aInt, Int.bmod_def]
  omega

/-- The step that `recalcularEstimacion` makes on the running thread. -/
theorem recalcularEstimacion_exec {x : Puntero} {p : Programa} {h : Hilo E} (ahora : ℕ)
    (hp : s.diccionarioDeProgramas.get pid = some p) (hexec : p.exec = some x)
    (hh : s.hilos x = some h) :
    recalcularEstimacion env s pid ahora = .ok (s.ponerHilo x
      (actualizarEstimacion env { h with rafaga := aInt (ahora - s.inicioRafaga) })) := by
  simp [recalcularEstimacion, hp, hexec, hh, noNulo, orFail]

/-- In a state that a run reaches, the burst is the time since the thread was placed
if and only if it was placed at the time of the last choice. -/
theorem rafagaJusta_iff (hrun : Run (Transicion env) (iniciarSUSE c) tr s) (pid : Pid)
    (ahora : ℕ) : RafagaJusta env tr s pid ahora ↔ EmpiezaAlli tr s pid ahora := by
  obtain ⟨S, hC⟩ := coherente_of_run hrun
  have hinicio : aInt (ahora - s.inicioRafaga) = aInt (ahora - ultimaEleccion tr) := by
    rw [inicioRafaga_of_run hrun]
  constructor
  · intro hjusta hexec t ht hcabe
    obtain ⟨p, x, hilo, hp, hx, hh, -, hcont⟩ := enEjecucion hC hexec
    obtain ⟨t', s', h, ht', hrec, hh', hrafaga⟩ := hjusta x hcont
    rw [ht, Option.some.injEq] at ht'
    subst ht'
    rw [recalcularEstimacion_exec ahora hp hx hh, Except.ok.injEq] at hrec
    subst hrec
    have hh'' : h.rafaga = aInt (ahora - s.inicioRafaga) := by
      rw [Estado.ponerHilo_hilos, update_self, Option.some.injEq] at hh'
      rw [← hh']
      rfl
    have heq := hrafaga hcabe
    rw [hh'', hinicio, ← hcabe, aInt_eq_iff] at heq
    rw [aInt_eq_iff]
    omega
  · intro hempieza x hcont
    have hexec : contenido s (.exec pid) ≠ [] := by simp [hcont]
    obtain ⟨p, y, hilo, hp, hy, hh, -, hcont'⟩ := enEjecucion hC hexec
    rw [hcont, List.singleton_inj] at hcont'
    subst hcont'
    obtain ⟨t, ht⟩ := colocado_of_run hrun hexec
    refine ⟨t, _, _, ht, recalcularEstimacion_exec ahora hp hy hh, update_self .., fun hcabe => ?_⟩
    have heq := hempieza hexec t ht hcabe
    rw [aInt_eq_iff] at heq
    show aInt (ahora - s.inicioRafaga) = ahora - t
    rw [hinicio, ← hcabe, aInt_eq_iff]
    omega

/-- In every run, each `schedule_next` measures the burst of the running thread from
when it was placed if and only if at each of them the thread had been placed at the
time of the last choice of any program. -/
theorem mideBien_iff (env : Entorno E) (c : Configuracion)
    {tr : List (Step (Estado E) Evento)} (hrun : Run (Transicion env) (iniciarSUSE c) tr s) :
    (∀ tr₁ x tr₂, tr = tr₁ ++ x :: tr₂ → ∀ pid reloj, x.label = .scheduleNext pid reloj →
      RafagaJusta env tr₁ x.pre pid (reloj 0)) ↔
    ∀ tr₁ x tr₂, tr = tr₁ ++ x :: tr₂ → ∀ pid reloj, x.label = .scheduleNext pid reloj →
      EmpiezaAlli tr₁ x.pre pid (reloj 0) := by
  refine forall_congr' fun tr₁ => forall_congr' fun x => forall_congr' fun tr₂ =>
    forall_congr' fun heq => forall_congr' fun pid => forall_congr' fun reloj =>
    imp_congr_right fun _ => ?_
  exact rafagaJusta_iff (hrun.prefix_of_append heq) pid (reloj 0)

instance (tr : List (Step (Estado E) Evento)) (s : Estado E) (pid : Pid) (ahora : ℕ) :
    Decidable (EmpiezaAlli tr s pid ahora) :=
  inferInstanceAs (Decidable (_ → ∀ t ∈ colocado tr pid, _ → _))

/-- The program that a `schedule_next` is for, and its first reading of the clock. -/
def medicion : Evento → Option (Pid × ℕ)
  | .scheduleNext pid reloj => some (pid, reloj 0)
  | _ => none

theorem medicion_eq_some {e : Evento} {pid : Pid} {ahora : ℕ} :
    medicion e = some (pid, ahora) ↔ ∃ reloj, e = .scheduleNext pid reloj ∧ reloj 0 = ahora := by
  cases e with
  | scheduleNext pid' reloj =>
      rw [medicion, Option.some_inj, Prod.mk.injEq]
      constructor
      · rintro ⟨rfl, h⟩
        exact ⟨reloj, rfl, h⟩
      · rintro ⟨reloj', heq, h⟩
        cases heq
        exact ⟨rfl, h⟩
  | _ => exact iff_of_false (by rintro ⟨⟩) (by rintro ⟨_, ⟨⟩, _⟩)

/-- The condition of `mideBien_iff` at one step. -/
def MideDesdeAlli (tr : List (Step (Estado E) Evento)) (x : Step (Estado E) Evento) : Prop :=
  ∀ p ∈ medicion x.label, EmpiezaAlli tr x.pre p.1 p.2

instance (tr : List (Step (Estado E) Evento)) (x : Step (Estado E) Evento) :
    Decidable (MideDesdeAlli tr x) :=
  inferInstanceAs (Decidable (∀ p ∈ medicion x.label, _))

theorem mideDesdeAlli_iff {tr : List (Step (Estado E) Evento)} {x : Step (Estado E) Evento} :
    MideDesdeAlli tr x ↔ ∀ pid reloj, x.label = .scheduleNext pid reloj →
      EmpiezaAlli tr x.pre pid (reloj 0) := by
  constructor
  · intro h pid reloj heq
    exact h (pid, reloj 0) (medicion_eq_some.2 ⟨reloj, heq, rfl⟩)
  · rintro h ⟨pid, ahora⟩ hp
    obtain ⟨reloj, heq, rfl⟩ := medicion_eq_some.1 hp
    exact h pid reloj heq

/-- The main thread of a program is admitted at 100 and measured at 150. -/
def unPrograma : List Evento :=
  [.conectar 5, .crear 5 0 (0, 0) 90, .tomar, .admitir 100, .scheduleNext 5 fun i => 150 + i]

theorem mideBien_iff_jornada :
    (∀ tr₁ x tr₂, trace (paso entornoRacional) (iniciarSUSE unSemaforo) jornada =
        tr₁ ++ x :: tr₂ → ∀ pid reloj, x.label = .scheduleNext pid reloj →
      RafagaJusta entornoRacional tr₁ x.pre pid (reloj 0)) ∧
    ¬ ∀ tr₁ x tr₂, trace (paso entornoRacional) (iniciarSUSE ⟨1, []⟩) unPrograma =
        tr₁ ++ x :: tr₂ → ∀ pid reloj, x.label = .scheduleNext pid reloj →
      RafagaJusta entornoRacional tr₁ x.pre pid (reloj 0) := by
  constructor
  · refine (mideBien_iff entornoRacional unSemaforo run_jornada).2 ?_
    simp only [← mideDesdeAlli_iff]
    exact forall_append_cons_iff.2 (by decide +kernel)
  · refine (mideBien_iff entornoRacional ⟨1, []⟩
      (Run.execute (paso entornoRacional) unPrograma (by decide +kernel))).not.2 ?_
    simp only [← mideDesdeAlli_iff]
    exact forall_append_cons_iff.not.2 (by decide +kernel)

/-- The burst of that thread comes out as 150 instead of 50. -/
theorem not_mideBien :
    ¬ ∀ (c : Configuracion) (tr : List (Step (Estado ℚ) Evento)) (s : Estado ℚ),
      Run (Transicion entornoRacional) (iniciarSUSE c) tr s → NoRetrocede tr →
      ∀ tr₁ x tr₂, tr = tr₁ ++ x :: tr₂ → ∀ pid reloj, x.label = .scheduleNext pid reloj →
        RafagaJusta entornoRacional tr₁ x.pre pid (reloj 0) := by
  intro h
  have hjusta := h ⟨1, []⟩ _ _
    (Run.execute (paso entornoRacional) unPrograma (by decide +kernel)) (by decide +kernel)
    (trace (paso entornoRacional) (iniciarSUSE ⟨1, []⟩) (unPrograma.take 4)) _ [] rfl 5 _ rfl
  have hrun := Run.execute (paso entornoRacional) (s := iniciarSUSE ⟨1, []⟩)
    (unPrograma.take 4) (by decide +kernel)
  have hempieza := (rafagaJusta_iff hrun 5 150).1 hjusta
  have heq := hempieza (by decide +kernel) 100 (by decide +kernel) (by decide)
  exact absurd heq (by decide +kernel)

end Suse
