import Linuse.Suse.Recursos

/-!
# Accounting of the semaphores

For one semaphore, the value and the queue are followed over a run. Only waits
and signals on it change them (`paso_semaforo`), in the ways of
`CambioSemaforo`, and the laws follow by induction on the run
(`Contabilidad`): the value stays between 0 and its maximum, nobody is
queued while it is positive, the queue is first in first out, a wait takes a unit
if there is one and queues its thread otherwise, and the initial value and the
effective signals account for the value, the waits granted at once and the threads
taken out of the queue. The laws need nothing of the thread that waits: a wait that
is not granted and does not come from the running thread ends the run.

A signal adds 1 to the value before it looks at the maximum. On the value
`INT_MAX` this is an overflow, so that the next signal is always defined only for
the semaphores with a smaller maximum (`semaforo_contabilidad_iff`).
-/

namespace Suse

open Function (update update_self update_of_ne)
open Transition Fallible

variable {E : Type} {s s' s'' : Estado E} {env : Entorno E}

namespace Evento

/-- The events on the semaphore `semID`. -/
def Sobre (semID : String) : Evento → Prop
  | wait _ _ id => id = semID
  | signal _ _ id _ => id = semID
  | _ => False

end Evento

/-- The value and the queue of a semaphore are the same in the two states. -/
def MismoSemaforo (semID : String) (s s' : Estado E) : Prop :=
  s'.semaforos.get semID = s.semaforos.get semID ∧
    contenido s' (.semaforo semID) = contenido s (.semaforo semID)

theorem MismosRecursos.uno (h : MismosRecursos s s') (semID : String) :
    MismoSemaforo semID s s' :=
  ⟨by rw [h.semaforos], h.contenido_semaforo semID⟩

/-- The five things that a step can do to a semaphore with `valor` and
`maximo`. -/
inductive CambioSemaforo (semID : String) (maximo valor : ℤ) (s : Estado E) (e : Evento)
    (s' : Estado E) : Prop
  | nada : MismoSemaforo semID s s' → (¬ ∃ pid tid, e = .wait pid tid semID) →
      ((∃ pid tid ahora, e = .signal pid tid semID ahora) → maximo < valor + 1) →
      CambioSemaforo semID maximo valor s e s'
  | suma : (∃ pid tid ahora, e = .signal pid tid semID ahora) → valor + 1 ≤ maximo →
      contenido s (.semaforo semID) = [] →
      s'.semaforos.get semID = some ⟨valor + 1, maximo⟩ →
      contenido s' (.semaforo semID) = [] → CambioSemaforo semID maximo valor s e s'
  | entrega (unHilo : Puntero) (resto : List Puntero) :
      (∃ pid tid ahora, e = .signal pid tid semID ahora) →
      contenido s (.semaforo semID) = unHilo :: resto →
      s'.semaforos.get semID = some ⟨valor, maximo⟩ →
      contenido s' (.semaforo semID) = resto → CambioSemaforo semID maximo valor s e s'
  | concede : (∃ pid tid, e = .wait pid tid semID) → 0 < valor →
      s'.semaforos.get semID = some ⟨valor - 1, maximo⟩ →
      contenido s' (.semaforo semID) = contenido s (.semaforo semID) →
      CambioSemaforo semID maximo valor s e s'
  | bloquea (exec : Puntero) (pid : Pid) (tid : Tid) :
      e = .wait pid tid semID → valor ≤ 0 → contenido s (.exec pid) = [exec] →
      contenido s' (.exec pid) = [] → s'.semaforos.get semID = some ⟨valor, maximo⟩ →
      contenido s' (.semaforo semID) = contenido s (.semaforo semID) ++ [exec] →
      CambioSemaforo semID maximo valor s e s'

theorem sacar1HiloDeLaColaDeBloqueadosPorSemaforo_semaforo (semID : String) {pid : Pid}
    {id : String}
    {ahora : ℕ} (h : sacar1HiloDeLaColaDeBloqueadosPorSemaforo s pid id ahora = .ok s') :
    s'.semaforos = s.semaforos ∧
      (id ≠ semID → contenido s' (.semaforo semID) = contenido s (.semaforo semID)) ∧
      ∀ unHilo resto, s.diccionarioDeBlockedPorSemaforo.get id = some (unHilo :: resto) →
        contenido s' (.semaforo id) = resto := by
  rcases sacar1HiloDeLaColaDeBloqueadosPorSemaforo_ok h with ⟨hcola, rfl⟩ |
    ⟨unHilo, resto, s₁, hilo, unPrograma, p, hcola, hs₁, -, -, -, rfl⟩
  · exact ⟨rfl, fun _ => rfl, fun unHilo resto hc => by rw [hcola] at hc; cases hc⟩
  · have hprog : MismosRecursos (s.ponerBlockedPorSemaforo id resto)
        ((despertarPrograma s₁ hilo.pid unPrograma).ponerPrograma pid
          { p with cantidadDeHilosEnBlocked := p.cantidadDeHilosEnBlocked - 1 }) :=
      ((pasarAReady_recursos hs₁).trans
        (despertarPrograma_recursos s₁ hilo.pid unPrograma)).trans ⟨rfl, rfl, rfl, rfl⟩
    refine ⟨hprog.semaforos, fun hne => ?_, fun unHilo' resto' hc => ?_⟩
    · rw [hprog.contenido_semaforo, contenido_ponerBlockedPorSemaforo,
        update_of_ne (by simpa using Ne.symm hne)]
    · rw [hcola] at hc
      cases hc
      rw [hprog.contenido_semaforo, contenido_ponerBlockedPorSemaforo, update_self]

/-- A step on another semaphore, or on none, does not change this one. -/
theorem paso_mismoSemaforo {S : Set Puntero} {semID : String} {e : Evento}
    (hC : Coherente s S) (h : paso env s e = .ok s') (he : ¬ e.Sobre semID) :
    MismoSemaforo semID s s' := by
  cases e with
  | conectar pid =>
      obtain ⟨-, rfl⟩ := paso_conectar h
      exact ⟨rfl, rfl⟩
  | crear pid tid basura ahora =>
      obtain ⟨p, -, rfl⟩ := crearHilo_ok h
      exact ⟨rfl, rfl⟩
  | tomar =>
      obtain ⟨-, -, unHilo, resto, -, rfl⟩ := planificarReadyTomar_ok h
      exact ⟨rfl, rfl⟩
  | admitir ahora =>
      obtain ⟨unHilo, hilo, p, -, -, -, -, h⟩ := planificarReadyAdmitir_ok h
      exact (pasarAReady_recursos h).uno semID
  | wait pid tid id =>
      rcases semSuseWait_ok h with ⟨-, rfl⟩ |
        ⟨sem, -, ⟨-, rfl⟩ | ⟨-, p, exec, hilo, cola, -, -, -, -, -, rfl⟩⟩
      · exact ⟨rfl, rfl⟩
      · exact ⟨Dictionary.get_put_of_ne _ _ (Ne.symm he), rfl⟩
      · refine ⟨rfl, ?_⟩
        have hne : semID ≠ id := Ne.symm he
        simp [contenido, Dictionary.get_put_of_ne _ _ hne]
  | signal pid tid id ahora =>
      rcases semSuseSignal_ok h with
        ⟨-, rfl⟩ | ⟨sem, -, ⟨-, rfl⟩ | ⟨-, -, rfl⟩ | ⟨-, -, hsacar⟩⟩
      · exact ⟨rfl, rfl⟩
      · exact ⟨rfl, rfl⟩
      · exact ⟨Dictionary.get_put_of_ne _ _ (Ne.symm he), rfl⟩
      · obtain ⟨hsem, hcola, -⟩ :=
          sacar1HiloDeLaColaDeBloqueadosPorSemaforo_semaforo semID hsacar
        exact ⟨by rw [hsem], hcola he⟩
  | join pid tidAEsperar =>
      rcases realizarJoin_ok h with rfl | ⟨p, exec, hilo, cantidad, -, -, -, rfl⟩
      · exact ⟨rfl, rfl⟩
      · exact ⟨rfl, rfl⟩
  | close pid tid ahora =>
      obtain ⟨hsem, hbloq, -⟩ := realizarClose_recursos hC h
      exact ⟨by rw [hsem], by simp only [contenido, hbloq]⟩
  | scheduleNext pid reloj =>
      obtain ⟨r, h⟩ := paso_scheduleNext h
      exact (siguienteAEjecutar_recursos h).uno semID
  | despertar pid reloj =>
      obtain ⟨r, h⟩ := paso_despertar h
      exact (calcularSiguienteHiloDespierto_recursos h).uno semID
  | metricas ahora => exact (tomarMetricas_soloTiempos h).mismosRecursos.uno semID
  | desconectar pid =>
      obtain ⟨-, rfl⟩ := paso_desconectar h
      exact ⟨rfl, rfl⟩

/-- What a step does to a configured semaphore. -/
theorem paso_semaforo {S : Set Puntero} {semID : String} {maximo valor : ℤ} {e : Evento}
    (hC : Coherente s S) (hsem : s.semaforos.get semID = some ⟨valor, maximo⟩)
    (h : paso env s e = .ok s') :
    CambioSemaforo semID maximo valor s e s' := by
  by_cases he : e.Sobre semID
  · cases e with
    | wait pid tid id =>
        have hid : id = semID := he
        subst hid
        rcases semSuseWait_ok h with ⟨hnone, -⟩ |
          ⟨sem, hget, ⟨hpos, rfl⟩ | ⟨hneg, p, exec, hilo, cola, hp, hexec, -, -, hcola, rfl⟩⟩
        · rw [hsem] at hnone
          cases hnone
        · rw [hsem] at hget
          cases hget
          refine .concede ⟨pid, tid, rfl⟩ hpos ?_ rfl
          exact Dictionary.get_put_self _ _ _
        · rw [hsem] at hget
          cases hget
          refine .bloquea exec pid tid rfl hneg (mem_exec hp hexec) ?_ hsem ?_
          · simp [contenido]
          · simp [contenido, hcola]
    | signal pid tid id ahora =>
        have hid : id = semID := he
        subst hid
        rcases semSuseSignal_ok h with ⟨hnone, -⟩ |
          ⟨sem, hget, ⟨hmax, rfl⟩ | ⟨hmax, hcola, rfl⟩ | ⟨hmax, ⟨unHilo, resto, hcola⟩, hsacar⟩⟩
        · rw [hsem] at hnone
          cases hnone
        · rw [hsem] at hget
          cases hget
          refine .nada ⟨rfl, rfl⟩ ?_ fun _ => hmax
          rintro ⟨pid', tid', hwait⟩
          cases hwait
        · rw [hsem] at hget
          cases hget
          have hvacia := contenido_semaforo hcola
          exact .suma ⟨pid, tid, ahora, rfl⟩ hmax hvacia (Dictionary.get_put_self _ _ _) hvacia
        · rw [hsem] at hget
          cases hget
          obtain ⟨hsems, -, hresto⟩ :=
            sacar1HiloDeLaColaDeBloqueadosPorSemaforo_semaforo id hsacar
          exact .entrega unHilo resto ⟨pid, tid, ahora, rfl⟩ (contenido_semaforo hcola)
            (by rw [hsems, hsem]) (hresto unHilo resto hcola)
    | _ => exact he.elim
  · refine .nada (paso_mismoSemaforo hC h he) ?_ ?_
    · rintro ⟨pid, tid, hwait⟩
      subst hwait
      exact he rfl
    · rintro ⟨pid, tid, ahora, hsignal⟩
      subst hsignal
      exact absurd rfl he

/-! ## What a run does to a semaphore -/

section Contabilidad

variable (semID : String)

/-- The signals on the semaphore that change its value or its queue. -/
def SenialEfectiva (x : Step (Estado E) Evento) : Prop :=
  (∃ pid tid ahora, x.label = .signal pid tid semID ahora) ∧ ¬ MismoSemaforo semID x.pre x.post

/-- The waits on the semaphore that find a unit. -/
def EsperaConcedida (x : Step (Estado E) Evento) : Prop :=
  (∃ pid tid, x.label = .wait pid tid semID) ∧
    ∃ sem, x.pre.semaforos.get semID = some sem ∧ 0 < sem.valorActualSemaforo

/-- The threads that a step adds to the queue. -/
def entran (x : Step (Estado E) Evento) : List Puntero :=
  (contenido x.post (.semaforo semID)).filter fun p => p ∉ contenido x.pre (.semaforo semID)

/-- The threads that a step takes out of the queue. -/
def salen (x : Step (Estado E) Evento) : List Puntero :=
  (contenido x.pre (.semaforo semID)).filter fun p => p ∉ contenido x.post (.semaforo semID)

/-- The laws of one step: a signal has no effect only at the maximum, a wait that finds
a unit takes it, and a wait that finds none puts the running thread in the queue. -/
structure LeyDelPaso (maximo : ℤ) (x : Step (Estado E) Evento) : Prop where
  sinEfecto : (∃ pid tid ahora, x.label = .signal pid tid semID ahora) →
    ¬ SenialEfectiva semID x → x.pre.semaforos.get semID = some ⟨maximo, maximo⟩ ∧
      contenido x.pre (.semaforo semID) = []
  concedida : EsperaConcedida semID x → ∃ valor,
    x.pre.semaforos.get semID = some ⟨valor, maximo⟩ ∧
      x.post.semaforos.get semID = some ⟨valor - 1, maximo⟩ ∧
      contenido x.post (.semaforo semID) = contenido x.pre (.semaforo semID)
  demorada : ∀ pid tid, x.label = .wait pid tid semID → ¬ EsperaConcedida semID x →
    x.post.semaforos.get semID = x.pre.semaforos.get semID ∧
      ∃ exec, contenido x.pre (.exec pid) = [exec] ∧ contenido x.post (.exec pid) = [] ∧
        contenido x.post (.semaforo semID) = contenido x.pre (.semaforo semID) ++ [exec]

open Classical in
/-- The laws of a semaphore with initial value `inicial` and maximum `maximo`
after the transitions `tr`. -/
structure Contabilidad (inicial maximo : ℤ) (tr : List (Step (Estado E) Evento))
    (s : Estado E) (valor : ℤ) : Prop where
  actual : s.semaforos.get semID = some ⟨valor, maximo⟩
  noNegativo : 0 ≤ valor
  acotado : valor ≤ maximo
  cola : contenido s (.semaforo semID) ≠ [] → valor = 0
  fifo : tr.flatMap (entran semID) = tr.flatMap (salen semID) ++ contenido s (.semaforo semID)
  pasos : ∀ x ∈ tr, LeyDelPaso semID maximo x
  balance : inicial + tr.countP (fun x => SenialEfectiva semID x) =
    valor + tr.countP (fun x => EsperaConcedida semID x) + (tr.flatMap (salen semID)).length

/-- The laws hold, and the value can be followed one signal more. -/
def Contable (env : Entorno E) (inicial maximo : ℤ) (tr : List (Step (Estado E) Evento))
    (s : Estado E) : Prop :=
  (∃ valor, Contabilidad semID inicial maximo tr s valor) ∧
    ∀ pid tid ahora, paso env s (.signal pid tid semID ahora) ≠ .error .desbordamiento

end Contabilidad

theorem filter_not_mem_of_subset {l l' : List Puntero} (h : ∀ p ∈ l, p ∈ l') :
    (l.filter fun p => p ∉ l') = [] := by
  rw [List.filter_eq_nil_iff]
  intro p hp
  simp [h p hp]

section

variable {semID : String} {inicial maximo valor : ℤ} {tr : List (Step (Estado E) Evento)}
  {e : Evento}

theorem entran_of_mismo (h : contenido s' (.semaforo semID) = contenido s (.semaforo semID)) :
    entran semID (⟨s, e, s'⟩ : Step (Estado E) Evento) = [] :=
  filter_not_mem_of_subset fun _ hp => h ▸ hp

theorem salen_of_mismo (h : contenido s' (.semaforo semID) = contenido s (.semaforo semID)) :
    salen semID (⟨s, e, s'⟩ : Step (Estado E) Evento) = [] :=
  filter_not_mem_of_subset fun _ hp => h.symm ▸ hp

namespace Contabilidad

open Classical in
/-- One more transition: what it adds to each side of the laws. -/
theorem snoc {valor' : ℤ} (h : Contabilidad semID inicial maximo tr s valor)
    (hactual : s'.semaforos.get semID = some ⟨valor', maximo⟩) (hnoneg : 0 ≤ valor')
    (hacotado : valor' ≤ maximo) (hcola : contenido s' (.semaforo semID) ≠ [] → valor' = 0)
    (hfifo : contenido s (.semaforo semID) ++ entran semID (⟨s, e, s'⟩ : Step _ _) =
      salen semID (⟨s, e, s'⟩ : Step _ _) ++ contenido s' (.semaforo semID))
    (hley : LeyDelPaso semID maximo (⟨s, e, s'⟩ : Step _ _))
    (hbalance : valor + (if SenialEfectiva semID (⟨s, e, s'⟩ : Step _ _) then 1 else 0 : ℕ) =
      valor' + (if EsperaConcedida semID (⟨s, e, s'⟩ : Step _ _) then 1 else 0 : ℕ) +
        (salen semID (⟨s, e, s'⟩ : Step _ _)).length) :
    Contabilidad semID inicial maximo (tr ++ [⟨s, e, s'⟩]) s' valor' where
  actual := hactual
  noNegativo := hnoneg
  acotado := hacotado
  cola := hcola
  fifo := by
    rw [List.flatMap_append, List.flatMap_append, List.flatMap_singleton,
      List.flatMap_singleton, h.fifo, List.append_assoc, List.append_assoc, hfifo]
  pasos := by
    intro x hx
    rcases List.mem_append.1 hx with hx | hx
    · exact h.pasos x hx
    · rw [List.mem_singleton] at hx
      subst hx
      exact hley
  balance := by
    have hant := h.balance
    rw [List.countP_append, List.countP_append, List.flatMap_append, List.flatMap_singleton,
      List.length_append, List.countP_singleton, List.countP_singleton]
    simp only [decide_eq_true_eq]
    omega

theorem no_signal (hwait : ∃ pid tid, e = .wait pid tid semID) :
    ¬ ∃ pid tid ahora, e = .signal pid tid semID ahora := by
  rintro ⟨pid', tid', ahora, hsignal⟩
  obtain ⟨pid, tid, rfl⟩ := hwait
  cases hsignal

theorem no_concedida (hsin : ¬ ∃ pid tid, e = .wait pid tid semID) :
    ¬ EsperaConcedida semID (⟨s, e, s'⟩ : Step _ _) := fun hw => hsin hw.1

/-- A step that is not a wait keeps the laws of the waits. -/
theorem ley_of_sinEspera (hsin : ¬ ∃ pid tid, e = .wait pid tid semID)
    (hsignal : (∃ pid tid ahora, e = .signal pid tid semID ahora) →
      ¬ SenialEfectiva semID (⟨s, e, s'⟩ : Step _ _) →
        s.semaforos.get semID = some ⟨maximo, maximo⟩ ∧ contenido s (.semaforo semID) = []) :
    LeyDelPaso semID maximo (⟨s, e, s'⟩ : Step _ _) :=
  ⟨hsignal, fun hw => absurd hw (no_concedida hsin),
    fun pid tid hwait _ => absurd ⟨pid, tid, hwait⟩ hsin⟩

/-- A step that leaves the semaphore alone. -/
theorem nada (h : Contabilidad semID inicial maximo tr s valor) (hmaximo : 1 ≤ maximo)
    (hmismo : MismoSemaforo semID s s') (hsin : ¬ ∃ pid tid, e = .wait pid tid semID)
    (hsignal : (∃ pid tid ahora, e = .signal pid tid semID ahora) → maximo < valor + 1) :
    Contabilidad semID inicial maximo (tr ++ [⟨s, e, s'⟩]) s' valor := by
  have hnoefectiva : ¬ SenialEfectiva semID (⟨s, e, s'⟩ : Step _ _) := fun hs => hs.2 hmismo
  refine h.snoc (hmismo.1.trans h.actual) h.noNegativo h.acotado ?_ ?_
    (ley_of_sinEspera hsin fun hlabel _ => ?_) ?_
  · rw [hmismo.2]
    exact h.cola
  · rw [entran_of_mismo hmismo.2, salen_of_mismo hmismo.2, hmismo.2, List.append_nil,
      List.nil_append]
  · have hacotado := h.acotado
    have hvalor : valor = maximo := by
      have hlleno := hsignal hlabel
      omega
    refine ⟨hvalor ▸ h.actual, ?_⟩
    by_contra hne
    have hcero := h.cola hne
    omega
  · rw [if_neg hnoefectiva, if_neg (no_concedida hsin), salen_of_mismo hmismo.2]
    simp

theorem no_wait (hsignal : ∃ pid tid ahora, e = .signal pid tid semID ahora) :
    ¬ ∃ pid tid, e = .wait pid tid semID := fun hwait => no_signal hwait hsignal

/-- A signal that adds 1 to the value. -/
theorem suma (h : Contabilidad semID inicial maximo tr s valor)
    (hsignal : ∃ pid tid ahora, e = .signal pid tid semID ahora) (hmax : valor + 1 ≤ maximo)
    (hvacia : contenido s (.semaforo semID) = [])
    (hvalor : s'.semaforos.get semID = some ⟨valor + 1, maximo⟩)
    (hvacia' : contenido s' (.semaforo semID) = []) :
    Contabilidad semID inicial maximo (tr ++ [⟨s, e, s'⟩]) s' (valor + 1) := by
  have hmismo : contenido s' (.semaforo semID) = contenido s (.semaforo semID) := by
    rw [hvacia, hvacia']
  have hefectiva : SenialEfectiva semID (⟨s, e, s'⟩ : Step _ _) := by
    refine ⟨hsignal, fun hm => ?_⟩
    have hget := hm.1
    rw [hvalor, h.actual] at hget
    simp only [Option.some.injEq, Semaforo.mk.injEq] at hget
    omega
  have hnoneg := h.noNegativo
  refine h.snoc hvalor (by omega) hmax (fun hne => absurd hvacia' hne) ?_
    (ley_of_sinEspera (no_wait hsignal) fun _ hno => absurd hefectiva hno) ?_
  · rw [entran_of_mismo hmismo, salen_of_mismo hmismo, hmismo, List.append_nil,
      List.nil_append]
  · rw [if_pos hefectiva, if_neg (no_concedida (no_wait hsignal)), salen_of_mismo hmismo]
    simp

/-- A signal that hands over to the first thread of the queue. -/
theorem entrega {S : Set Puntero} {unHilo : Puntero} {resto : List Puntero}
    (hC : Coherente s S) (h : Contabilidad semID inicial maximo tr s valor)
    (hsignal : ∃ pid tid ahora, e = .signal pid tid semID ahora)
    (hcola : contenido s (.semaforo semID) = unHilo :: resto)
    (hvalor : s'.semaforos.get semID = some ⟨valor, maximo⟩)
    (hcola' : contenido s' (.semaforo semID) = resto) :
    Contabilidad semID inicial maximo (tr ++ [⟨s, e, s'⟩]) s' valor := by
  have hnd := hC.particion.nodup (.semaforo semID)
  rw [hcola, List.nodup_cons] at hnd
  have hefectiva : SenialEfectiva semID (⟨s, e, s'⟩ : Step _ _) := by
    refine ⟨hsignal, fun hm => ?_⟩
    have hq := hm.2
    rw [hcola, hcola'] at hq
    exact List.cons_ne_self _ _ hq.symm
  have hentran : entran semID (⟨s, e, s'⟩ : Step (Estado E) Evento) = [] := by
    apply filter_not_mem_of_subset
    intro p hp
    rw [hcola'] at hp
    rw [hcola]
    exact List.mem_cons_of_mem unHilo hp
  have hsalen : salen semID (⟨s, e, s'⟩ : Step (Estado E) Evento) = [unHilo] := by
    rw [salen, hcola, hcola', List.filter_cons_of_pos (by simpa using hnd.1),
      filter_not_mem_of_subset fun _ hp => hp]
  have hcero : valor = 0 := h.cola (by simp [hcola])
  refine h.snoc hvalor h.noNegativo h.acotado (fun _ => hcero) ?_
    (ley_of_sinEspera (no_wait hsignal) fun _ hno => absurd hefectiva hno) ?_
  · rw [hentran, hsalen, hcola, hcola', List.append_nil, List.singleton_append]
  · rw [if_pos hefectiva, if_neg (no_concedida (no_wait hsignal)), hsalen]
    simp

/-- A wait that is granted at once. -/
theorem concede (h : Contabilidad semID inicial maximo tr s valor)
    (hwait : ∃ pid tid, e = .wait pid tid semID) (hpos : 0 < valor)
    (hvalor : s'.semaforos.get semID = some ⟨valor - 1, maximo⟩)
    (hmismo : contenido s' (.semaforo semID) = contenido s (.semaforo semID)) :
    Contabilidad semID inicial maximo (tr ++ [⟨s, e, s'⟩]) s' (valor - 1) := by
  have hnoefectiva : ¬ SenialEfectiva semID (⟨s, e, s'⟩ : Step _ _) :=
    fun hs => no_signal hwait hs.1
  have hconcedida : EsperaConcedida semID (⟨s, e, s'⟩ : Step _ _) :=
    ⟨hwait, _, h.actual, hpos⟩
  have hacotado := h.acotado
  refine h.snoc hvalor (by omega) (by omega) (fun hne => ?_) ?_
    ⟨fun hsignal _ => absurd hsignal (no_signal hwait), fun _ => ⟨valor, h.actual, hvalor, hmismo⟩,
      fun _ _ _ hno => absurd hconcedida hno⟩ ?_
  · rw [hmismo] at hne
    have hcero := h.cola hne
    omega
  · rw [entran_of_mismo hmismo, salen_of_mismo hmismo, hmismo, List.append_nil,
      List.nil_append]
  · rw [if_neg hnoefectiva, if_pos hconcedida, salen_of_mismo hmismo]
    simp

/-- A wait that blocks the running thread, which was not in the queue. -/
theorem bloquea {S : Set Puntero} {exec : Puntero} {pid : Pid} {tid : Tid} (hC : Coherente s S)
    (h : Contabilidad semID inicial maximo tr s valor) (hwait : e = .wait pid tid semID)
    (hneg : valor ≤ 0) (hexec : contenido s (.exec pid) = [exec])
    (hsinExec : contenido s' (.exec pid) = [])
    (hvalor : s'.semaforos.get semID = some ⟨valor, maximo⟩)
    (hcola : contenido s' (.semaforo semID) = contenido s (.semaforo semID) ++ [exec]) :
    Contabilidad semID inicial maximo (tr ++ [⟨s, e, s'⟩]) s' valor := by
  have hnoefectiva : ¬ SenialEfectiva semID (⟨s, e, s'⟩ : Step _ _) :=
    fun hs => no_signal ⟨pid, tid, hwait⟩ hs.1
  have hnoconcedida : ¬ EsperaConcedida semID (⟨s, e, s'⟩ : Step _ _) := by
    rintro ⟨-, sem, hget, hpos⟩
    obtain rfl : (⟨valor, maximo⟩ : Semaforo) = sem := Option.some.inj (h.actual.symm.trans hget)
    exact absurd hpos (not_lt.2 hneg)
  have hnuevo : exec ∉ contenido s (.semaforo semID) :=
    hC.particion.not_mem_of_ne (l := .exec pid) (by simp [hexec]) (by simp)
  have hentran : entran semID (⟨s, e, s'⟩ : Step (Estado E) Evento) = [exec] := by
    rw [entran, hcola, List.filter_append, filter_not_mem_of_subset fun _ hp => hp,
      List.nil_append, List.filter_cons_of_pos (by simpa using hnuevo), List.filter_nil]
  have hsalen : salen semID (⟨s, e, s'⟩ : Step (Estado E) Evento) = [] := by
    apply filter_not_mem_of_subset
    intro p hp
    rw [hcola]
    exact List.mem_append_left [exec] hp
  have hley : LeyDelPaso semID maximo (⟨s, e, s'⟩ : Step _ _) := by
    refine ⟨fun hsignal _ => absurd hsignal (no_signal ⟨pid, tid, hwait⟩),
      fun hconcedida => absurd hconcedida hnoconcedida, fun pid' tid' hlabel _ => ?_⟩
    obtain rfl : pid = pid' := by
      have hmismo : Evento.wait pid tid semID = .wait pid' tid' semID := hwait.symm.trans hlabel
      cases hmismo
      rfl
    exact ⟨hvalor.trans h.actual.symm, exec, hexec, hsinExec, hcola⟩
  have hnoneg := h.noNegativo
  refine h.snoc hvalor hnoneg h.acotado (fun _ => by omega) ?_ hley ?_
  · rw [hentran, hsalen, hcola, List.nil_append]
  · rw [if_neg hnoefectiva, if_neg hnoconcedida, hsalen]
    simp

/-- The step lemma. -/
theorem paso {S : Set Puntero} (hC : Coherente s S) (hmaximo : 1 ≤ maximo)
    (h : Contabilidad semID inicial maximo tr s valor)
    (hcambio : CambioSemaforo semID maximo valor s e s') :
    ∃ valor', Contabilidad semID inicial maximo (tr ++ [⟨s, e, s'⟩]) s' valor' := by
  cases hcambio with
  | nada hmismo hsin hsignal => exact ⟨_, h.nada hmaximo hmismo hsin hsignal⟩
  | suma hsignal hmax hvacia hvalor hvacia' =>
      exact ⟨_, h.suma hsignal hmax hvacia hvalor hvacia'⟩
  | entrega unHilo resto hsignal hcola hvalor hcola' =>
      exact ⟨_, h.entrega hC hsignal hcola hvalor hcola'⟩
  | concede hwait hpos hvalor hmismo => exact ⟨_, h.concede hwait hpos hvalor hmismo⟩
  | bloquea exec pid tid hwait hneg hexec hsinExec hvalor hcola =>
      exact ⟨_, h.bloquea hC hwait hneg hexec hsinExec hvalor hcola⟩

end Contabilidad

end

/-- The laws of a configured semaphore after every run. -/
theorem contabilidad_of_run {c : Configuracion} {semID : String} {inicial maximo : ℤ}
    {tr : List (Step (Estado E) Evento)}
    (hsem : (iniciarSUSE c : Estado E).semaforos.get semID = some ⟨inicial, maximo⟩)
    (hinicial : 0 ≤ inicial) (hle : inicial ≤ maximo) (hmaximo : 1 ≤ maximo)
    (hrun : Run (Transicion env) (iniciarSUSE c) tr s) :
    ∃ valor, Contabilidad semID inicial maximo tr s valor := by
  refine hrun.invariant_trace
    (fun tr s => ∃ valor, Contabilidad semID inicial maximo tr s valor) ?_ ?_
  · refine ⟨inicial, hsem, hinicial, hle, fun hne => ?_, ?_, by simp, by simp⟩
    · exact absurd (iniciarSUSE_contenido c _) hne
    · rw [iniciarSUSE_contenido]
      rfl
  · rintro tr s e s' hrun ⟨valor, hcont⟩ hs
    obtain ⟨S, hC⟩ := coherente_of_run hrun
    exact hcont.paso hC hmaximo (paso_semaforo hC hcont.actual hs)

/-! ## The signals that overflow -/

/-- A signal overflows on the value `INT_MAX` only. -/
theorem signal_desborda_iff {pid : Pid} {tid : Tid} {semID : String} {ahora : ℕ} :
    paso env s (.signal pid tid semID ahora) = .error .desbordamiento ↔
      ∃ sem, s.semaforos.get semID = some sem ∧ 2147483647 ≤ sem.valorActualSemaforo := by
  show semSuseSignal s pid semID ahora = _ ↔ _
  rw [semSuseSignal]
  cases hsem : s.semaforos.get semID with
  | none => simp
  | some sem =>
      simp only [Option.some.injEq, exists_eq_left', sumarUno]
      split_ifs with hcabe
      · refine iff_of_false ?_ (by omega)
        show (if _ then _ else _) ≠ _
        split_ifs
        · apply bind_ne_error (noNulo_ne_error (by decide) _)
          intro cola
          split_ifs
          · simp [pure, Except.pure]
          · exact sacar1HiloDeLaColaDeBloqueadosPorSemaforo_ne_error (by decide) _ _ _ _
        · simp [pure, Except.pure]
      · exact iff_of_true rfl (by omega)

/-- With nobody queued, signals take the value to any number up to the maximum. -/
theorem llega_con_seniales (env : Entorno E) {c : Configuracion} {semID : String}
    {inicial maximo : ℤ}
    (hsem : (iniciarSUSE c : Estado E).semaforos.get semID = some ⟨inicial, maximo⟩) (n : ℕ)
    (hle : inicial + n ≤ maximo) (hcabe : inicial + n < 2147483648) :
    ∃ tr s, Run (Transicion env) (iniciarSUSE c) tr s ∧ (∀ x ∈ tr, SinDesconexion x) ∧
      s.semaforos.get semID = some ⟨inicial + n, maximo⟩ ∧
      s.diccionarioDeBlockedPorSemaforo.get semID = some [] := by
  induction n with
  | zero =>
      refine ⟨[], _, .nil, by simp, by simpa using hsem, ?_⟩
      have hcola := Dictionary.get_ofList_map (fun _ : Semaforo => ([] : List Puntero))
        c.semaforos semID
      rw [show (Dictionary.ofList c.semaforos).get semID = some ⟨inicial, maximo⟩ from hsem]
        at hcola
      exact hcola
  | succ n ih =>
      obtain ⟨tr, s, hrun, htr, hvalor, hvacia⟩ := ih (by omega) (by omega)
      have hsignal : paso env s (.signal 0 0 semID 0) =
          .ok (s.ponerSemaforo semID ⟨inicial + n + 1, maximo⟩) := by
        show semSuseSignal s 0 semID 0 = _
        have hsuma : inicial + n + 1 < 2147483648 := by omega
        simp only [semSuseSignal, hvalor, sumarUno, if_pos hsuma, hvacia, orFail, bind, Except.bind]
        rw [if_pos (by omega)]
        rfl
      refine ⟨_, _, hrun.snoc hsignal, ?_, ?_, hvacia⟩
      · intro x hx pid
        rcases List.mem_append.1 hx with hx | hx
        · exact htr x hx pid
        · rw [List.mem_singleton] at hx
          subst hx
          simp
      · rw [Estado.ponerSemaforo_semaforos, Dictionary.get_put_self]
        simp [add_assoc]

/-- The laws of the semaphores, for every semaphore of the configuration with an initial
value between 0 and its maximum, which is at least 1. In every run without
disconnections: the value is between 0 and the maximum, and is 0 while a thread is
queued; the threads that entered the queue are those that left it, in the same order,
followed by those in it; each step follows the laws of the waits and the signals; and
the initial value and the effective signals are the value, the waits granted at once
and the threads that left the queue. No signal overflows, in all of them, if and only if
the maximum is less than `INT_MAX`. -/
theorem semaforo_contabilidad_iff (env : Entorno E) (c : Configuracion) (semID : String)
    (inicial maximo : ℤ)
    (hsem : (iniciarSUSE c : Estado E).semaforos.get semID = some ⟨inicial, maximo⟩)
    (hinicial : 0 ≤ inicial) (hle : inicial ≤ maximo) (hmaximo : 1 ≤ maximo) :
    (∀ tr s, Run (Transicion env) (iniciarSUSE c) tr s → (∀ x ∈ tr, SinDesconexion x) →
      Contable semID env inicial maximo tr s) ↔ maximo < 2147483647 := by
  constructor
  · intro h
    by_contra hno
    rw [not_lt] at hno
    by_cases hlleno : 2147483647 ≤ inicial
    · exact (h [] _ .nil (by simp)).2 0 0 0
        (signal_desborda_iff.2 ⟨_, hsem, hlleno⟩)
    · obtain ⟨tr, s, hrun, htr, hvalor, -⟩ :=
        llega_con_seniales env hsem (2147483647 - inicial).toNat (by omega) (by omega)
      exact (h tr s hrun htr).2 0 0 0
        (signal_desborda_iff.2 ⟨_, hvalor, show _ ≤ inicial + _ by omega⟩)
  · intro hmenor tr s hrun _
    obtain ⟨valor, h⟩ := contabilidad_of_run hsem hinicial hle hmaximo hrun
    refine ⟨⟨valor, h⟩, fun pid tid ahora herror => ?_⟩
    obtain ⟨sem, hget, hlleno⟩ := signal_desborda_iff.1 herror
    obtain rfl : (⟨valor, maximo⟩ : Semaforo) = sem := Option.some.inj (h.actual.symm.trans hget)
    have hacotado := h.acotado
    exact absurd hlleno (not_le.2 (lt_of_le_of_lt hacotado hmenor))

/-- Two programs and one unit: a wait takes it, the other waits for a signal, and of the
three signals after it the last finds the maximum. -/
def dosProgramas : List Evento :=
  [.conectar 5, .crear 5 0 (0, 0) 10, .tomar, .admitir 10, .conectar 6, .crear 6 0 (0, 0) 11,
    .tomar, .admitir 11, .wait 5 0 "s", .wait 6 0 "s", .signal 5 0 "s" 20, .signal 6 0 "s" 21,
    .signal 6 0 "s" 22, .signal 5 0 "s" 23]

theorem semaforo_contabilidad_iff_dosProgramas :
    Contable "s" entornoRacional 1 2
      (trace (paso entornoRacional) (iniciarSUSE ⟨2, [("s", ⟨1, 2⟩)]⟩) dosProgramas)
      (final (paso entornoRacional) (iniciarSUSE ⟨2, [("s", ⟨1, 2⟩)]⟩) dosProgramas) :=
  (semaforo_contabilidad_iff entornoRacional ⟨2, [("s", ⟨1, 2⟩)]⟩ "s" 1 2 rfl (by decide)
    (by decide) (by decide)).2 (by decide) _ _
    (Run.execute (paso entornoRacional) dosProgramas (by decide +kernel))
    (by simp [dosProgramas, trace, SinDesconexion])

/-- With the maximum `INT_MAX` and all the units free, the first signal overflows. -/
theorem not_semaforo_contabilidad :
    ¬ ∀ (c : Configuracion) (semID : String) (inicial maximo : ℤ)
      (tr : List (Step (Estado ℚ) Evento)) (s : Estado ℚ),
      (iniciarSUSE c : Estado ℚ).semaforos.get semID = some ⟨inicial, maximo⟩ →
      0 ≤ inicial → inicial ≤ maximo → 1 ≤ maximo →
      Run (Transicion entornoRacional) (iniciarSUSE c) tr s → (∀ x ∈ tr, SinDesconexion x) →
      Contable semID entornoRacional inicial maximo tr s := by
  intro h
  have hrun := Run.execute (paso entornoRacional)
    (s := iniciarSUSE ⟨1, [("s", ⟨2147483647, 2147483647⟩)]⟩)
    [.conectar 5, .crear 5 0 (0, 0) 10, .tomar, .admitir 10] (by decide +kernel)
  exact (h _ "s" _ _ _ _ rfl (by decide) (by decide) (by decide) hrun
    (by simp [trace, SinDesconexion])).2 5 0 20
    (signal_desborda_iff.2 ⟨⟨2147483647, 2147483647⟩, rfl, le_refl _⟩)

end Suse
