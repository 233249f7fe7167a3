import Linuse.Suse.Bloqueados
import Linuse.Suse.Conservacion
import Linuse.Suse.Recursos
import Linuse.Suse.Visitas

/-!
# A close releases the threads that wait

When thread ids are unique inside each program and nobody disconnects, the release
loop of `realizarClose` finds none of the threads it pops in another join list, so
it takes the whole list to ready, in order (`realizarClose_libera`). From then on
no join on the closed thread waits: its join list stays empty while the thread is
in the exit list, and until it closes the list has the threads that joined it, in
the order in which they did (`EsperasJustas`).
-/

namespace Suse

open Function (update update_self update_of_ne update_eq_self update_comm)
open Fallible Transition

variable {E : Type} {s s' s'' : Estado E} {S : Set Puntero} {env : Entorno E} {pid : Pid}
  {tid : Tid}

/-- A new thread has an id that no thread of its program has, and nobody
disconnects. -/
def SinRepetir (x : Step (Estado E) Evento) : Prop :=
  match x.label with
  | .crear pid tid _ _ => ∀ p, identidad x.pre p ≠ some (pid, tid)
  | .desconectar _ => False
  | _ => True

/-- The thread that a step makes wait for the thread `tid` of the program. -/
def esperan (pid : Pid) (tid : Tid) (x : Step (Estado E) Evento) : List Puntero :=
  match x.label with
  | .join pid' tid' =>
      if pid' = pid ∧ tid' = tid ∧ terminoElHilo x.pre tid = false then
        contenido x.pre (.exec pid)
      else []
  | _ => []

theorem esperan_join (pid pid' : Pid) (tid tid' : Tid) (s s' : Estado E) :
    esperan pid tid ⟨s, .join pid' tid', s'⟩ =
      if pid' = pid ∧ tid' = tid ∧ terminoElHilo s tid = false then contenido s (.exec pid)
      else [] := rfl

theorem termino_iff : Termino s pid tid ↔
    ∃ x ∈ contenido s (.exit pid), identidad s x = some (pid, tid) := List.mem_map

/-- Nobody waits for a thread that has closed, and the join list of any other has
the threads that joined it, in order. -/
structure EsperasJustas (tr : List (Step (Estado E) Evento)) (s : Estado E) : Prop where
  cerrado : ∀ pid tid, Termino s pid tid → contenido s (.join pid tid) = []
  abierto : ∀ pid tid, ¬ Termino s pid tid →
    contenido s (.join pid tid) = tr.flatMap (esperan pid tid)

/-! ## The metrics go through -/

theorem reinicio_isOk {l : List Programa} (h : ∀ q ∈ l, tienePrograma s q.pid) :
    ∃ s', l.foldlM reiniciarTiempoDeEjecucionDe1Programa s = .ok s' := by
  induction l generalizing s with
  | nil => exact ⟨s, rfl⟩
  | cons q l ih =>
      obtain ⟨p, hp⟩ := h q List.mem_cons_self
      obtain ⟨s', hs'⟩ := ih (s := s.ponerPrograma q.pid
        { p with tiempoDeEjecucionDeTodosLosHilos := 0 }) fun q' hq' =>
          (tienePrograma_ponerPrograma hp q'.pid).2 (h q' (List.mem_cons_of_mem q hq'))
      refine ⟨s', ?_⟩
      rw [List.foldlM_cons, bind_eq_ok]
      refine ⟨_, ?_, hs'⟩
      simp [reiniciarTiempoDeEjecucionDe1Programa, hp, orFail, bind, Except.bind, pure, Except.pure]

/-- A pass over the metrics goes through when the program of every visited thread
is connected. -/
theorem tomarMetricas_isOk (hcon : ∀ x ∈ hilosMedibles s, Conectado s x) (hcero : EnCero s)
    (ahora : ℕ) : ∃ s', tomarMetricas s ahora = .ok s' := by
  have hlista : (hilosVisitados s).zipIdx.map Prod.fst = hilosVisitados s :=
    List.zipIdx_map_fst 0 _
  obtain ⟨s₁, h₁⟩ := visitas_isOk (l := (hilosVisitados s).zipIdx) (fun _ => ahora)
    fun x hx => hcon x (mem_hilosMedibles_of_visitado (hlista ▸ hx))
  obtain ⟨htiempos, -⟩ := visitas_ok (fun _ => ahora) h₁
  have hprog : ∀ q ∈ s₁.diccionarioDeProgramas.toList.map Prod.snd, tienePrograma s₁ q.pid := by
    intro q hq
    obtain ⟨e, he, rfl⟩ := List.mem_map.1 hq
    have hget := (Dictionary.mem_toList _ _ _).1 he
    obtain ⟨p, hp, hsin⟩ := htiempos.programa hget
    have hpid : e.2.pid = p.pid := by
      simpa [Programa.sinTiempo] using congrArg Programa.pid hsin
    rw [hpid, (hcero e.1 p hp).1]
    exact ⟨e.2, hget⟩
  obtain ⟨s', h'⟩ := reinicio_isOk hprog
  refine ⟨s', ?_⟩
  rw [tomarMetricas_eq, bind_eq_ok]
  exact ⟨s₁, h₁, h'⟩

/-- Every thread of the containers is in some place. -/
theorem mem_contenido_of_medible {x : Puntero} (hx : x ∈ hilosMedibles s) :
    ∃ l, x ∈ contenido s l := by
  have hpasada : ∃ pasada : Pasada, x ∈ pasada.propios s := by
    simp only [hilosMedibles, List.mem_append] at hx
    rcases hx with (((hx | hx) | hx) | hx) | hx
    · exact ⟨.news, hx⟩
    · exact ⟨.blocked, hx⟩
    · exact ⟨.ready, hx⟩
    · exact ⟨.exec, hx⟩
    · exact ⟨.sem, hx⟩
  obtain ⟨pasada, hx⟩ := hpasada
  obtain ⟨l, -, hx⟩ := Pasada.mem_propios hx
  exact ⟨l, hx⟩

theorem conectado_of_medible (hC : Coherente s S) (hcon : ConPrograma s) {x : Puntero}
    (hx : x ∈ hilosMedibles s) : Conectado s x := by
  obtain ⟨l, hl⟩ := mem_contenido_of_medible hx
  obtain ⟨pid, tid, hid, -⟩ := hC.propio x l hl
  exact ⟨_, hid, hcon x _ hid⟩

/-! ## The release loop -/

theorem liberarLista_cons_libera {ahora : ℕ} {p q : Programa} {x : Puntero}
    {resto l : List Puntero} {hilo : Hilo E} (hp : s.diccionarioDeProgramas.get pid = some p)
    (hh : s.hilos x = some hilo)
    (hq : (sacarDeLista s pid tid p resto).diccionarioDeProgramas.get hilo.pid = some q)
    (hready : s.diccionarioDeListasDeReady.get hilo.pid = some l)
    (hno : bloqueadoPorAlgunHilo (sacarDeLista s pid tid p resto) q hilo.tid = false) :
    liberarLista pid tid ahora (x :: resto) s =
      liberarLista pid tid ahora resto (liberado s pid tid ahora p q x resto l hilo) := by
  have hh' : (sacarDeLista s pid tid p resto).hilos x = some hilo := hh
  have hready' : (sacarDeLista s pid tid p resto).diccionarioDeListasDeReady.get hilo.pid =
      some l := hready
  rw [sacarDeLista] at hq hno hh' hready'
  simp only [liberarLista, hp, noNulo, orFail, bind, Except.bind, hh', hq, hno, hready',
    Bool.false_eq_true, if_false]
  rfl

/-- When no two threads of the join lists have the same id, the loop takes the
whole list to the end of ready, in order. The induction is on the list. -/
theorem liberarLista_libera (tid : Tid) (ahora : ℕ) (lista : List Puntero) (hC : Coherente s S)
    (hd : JoinsDistintos s) (hprog : tienePrograma s pid) (hready : tieneReady s pid)
    (hl : contenido s (.join pid tid) = lista) :
    ∃ s', liberarLista pid tid ahora lista s = .ok s' ∧
      contenido s' = update (update (contenido s) (.join pid tid) []) (.ready pid)
        (contenido s (.ready pid) ++ lista) := by
  induction lista generalizing s S with
  | nil =>
      refine ⟨s, rfl, ?_⟩
      rw [List.append_nil, ← hl, update_eq_self, update_eq_self]
  | cons x resto ih =>
      have hx : x ∈ contenido s (.join pid tid) := by simp [hl]
      obtain ⟨pid', tid', hid, rfl⟩ := hC.propio x _ hx
      obtain ⟨hilo, hh, heq⟩ := Option.map_eq_some_iff.1 hid
      have hpid : hilo.pid = pid := congrArg Prod.fst heq
      subst hpid
      obtain ⟨p, hp⟩ := hprog
      obtain ⟨l, hl'⟩ := hready
      have hq : (sacarDeLista s hilo.pid tid p resto).diccionarioDeProgramas.get hilo.pid =
          some { p with blocked := p.blocked.put tid resto } := Dictionary.get_put_self _ _ _
      have hunico : ∀ y t, y ∈ contenido s (.join hilo.pid t) → identidad s y = identidad s x →
          y = x := fun y t hy heq =>
        hd hilo.pid y x (mem_enJoins.2 ⟨t, hy⟩) (mem_enJoins.2 ⟨tid, hx⟩) heq
      have hno := sacarDeLista_libre hC hunico hp hl hh hq
      obtain ⟨hquieto, hcont, hmueve⟩ := liberado_mueve hC hl hp hh hq hl'
      have hd' : JoinsDistintos (liberado s hilo.pid tid ahora p
          { p with blocked := p.blocked.put tid resto } x resto l hilo) :=
        liberado_joinsDistintos hC hl hp hh hq hl' hd
      obtain ⟨s', hs', hcont'⟩ := ih (hmueve.coherente_of_not not_false hC) hd'
        ((hquieto.conPrograma hilo.pid).2 ⟨p, hp⟩) (hquieto.conReady hilo.pid ⟨l, hl'⟩)
        (by rw [hcont, update_of_ne (by simp), update_self])
      refine ⟨s', ?_, ?_⟩
      · rw [liberarLista_cons_libera hp hh hq hl' hno]
        exact hs'
      · rw [hcont', hcont, update_self, List.append_assoc, List.singleton_append]
        funext lugar
        by_cases h₁ : lugar = .ready hilo.pid
        · rw [h₁, update_self, update_self]
        · rw [update_of_ne h₁, update_of_ne h₁]
          by_cases h₂ : lugar = .join hilo.pid tid
          · rw [h₂, update_self, update_self]
          · rw [update_of_ne h₂, update_of_ne h₂, update_of_ne h₁, update_of_ne h₂]

/-- A close of the running thread goes through: it takes the thread to the exit list
and the threads of its join list to the end of ready, in order, and nothing else
moves. -/
theorem realizarClose_libera {x : Puntero} (hC : Coherente s S) (hd : JoinsDistintos s)
    (hcon : ConPrograma s) (hcero : EnCero s) (hexec : contenido s (.exec pid) = [x])
    (hid : identidad s x = some (pid, tid)) (ahora : ℕ) :
    ∃ s', realizarClose s pid tid ahora = .ok s' ∧
      contenido s' = update (update (update (update (contenido s) (.exec pid) []) (.exit pid)
        (contenido s (.exit pid) ++ [x])) (.join pid tid) []) (.ready pid)
          (contenido s (.ready pid) ++ contenido s (.join pid tid)) := by
  obtain ⟨p, x', hilo, hp, hx, hh, hpid, hexec'⟩ :=
    enEjecucion hC (by rw [hexec]; exact List.cons_ne_nil _ _)
  obtain rfl : x' = x := by
    rw [hexec] at hexec'
    exact (List.cons.inj hexec').1.symm
  obtain ⟨rfl, rfl⟩ : hilo.pid = pid ∧ hilo.tid = tid := by
    rw [identidad_eq hh] at hid
    exact Prod.mk.inj (Option.some.inj hid)
  -- the metrics go through, for the lists of exit do not count
  have hmedibles : ∀ y ∈ hilosMedibles (ponerEnExit s hilo.pid x'), Conectado s y :=
    fun y hy => conectado_of_medible (s := s) hC hcon hy
  obtain ⟨t, ht⟩ := tomarMetricas_isOk (s := ponerEnExit s hilo.pid x') hmedibles hcero ahora
  have htiempos := tomarMetricas_soloTiempos ht
  have hs₁ : pasarAExit s x' ahora =
      .ok { t with maximoProcesamiento := t.maximoProcesamiento + 1 } := by
    simp only [pasarAExit, noNulo, bind_eq_ok, orFail_eq_ok, pure_eq_ok]
    exact ⟨hilo, hh, t, ht, rfl⟩
  obtain ⟨p₁, hp₁⟩ : tienePrograma t hilo.pid :=
    (htiempos.quieto.conPrograma hilo.pid).2 ⟨p, hp⟩
  obtain ⟨hquieto, hcont, hpropio⟩ := pasarAExit_mueve hC hp hx hs₁ hp₁
  have hmueve : Mueve Lugar.Cierra False s ({ t with
      maximoProcesamiento := t.maximoProcesamiento + 1 }.ponerPrograma hilo.pid
        { p₁ with exec := none }) :=
    .of_head _ hquieto.toConserva hexec hcont hpropio (by simp) (Or.inr ⟨_, rfl, rfl⟩)
  have hmismos : MismosBloqueados s ({ t with
      maximoProcesamiento := t.maximoProcesamiento + 1 }.ponerPrograma hilo.pid
        { p₁ with exec := none }) := by
    have hexit : MismosBloqueados s (ponerEnExit s hilo.pid x') := .of_eq rfl rfl
    have hmax : MismosBloqueados t { t with maximoProcesamiento := t.maximoProcesamiento + 1 } :=
      .of_eq rfl rfl
    exact ((hexit.trans htiempos.mismosBloqueados).trans hmax).trans
      (.ponerPrograma (q := { p₁ with exec := none }) hp₁ rfl rfl)
  have hready : tieneReady s hilo.pid :=
    hC.execConReady _ (by rw [hexec]; exact List.cons_ne_nil _ _)
  obtain ⟨s', hs', hcont'⟩ := liberarLista_libera hilo.tid ahora _
    (hmueve.coherente_of_not not_false hC)
    (hmismos.joinsDistintos (fun y _ _ => hquieto.identidad y) hd)
    ((hquieto.conPrograma hilo.pid).2 ⟨p, hp⟩) (hquieto.conReady hilo.pid hready) rfl
  refine ⟨s', ?_, ?_⟩
  · have hh₁ : ∃ h₁, ({ t with maximoProcesamiento := t.maximoProcesamiento + 1 }.ponerPrograma
        hilo.pid { p₁ with exec := none }).hilos x' = some h₁ ∧
          (h₁.pid, h₁.tid) = (hilo.pid, hilo.tid) := by
      have hid₁ := hquieto.identidad x'
      rw [identidad_eq hh] at hid₁
      exact Option.map_eq_some_iff.1 hid₁
    obtain ⟨h₁, hh₁, hid₁⟩ := hh₁
    obtain ⟨hpid₁, htid₁⟩ := Prod.mk.inj hid₁
    simp only [realizarClose, noNulo, bind_eq_ok, orFail_eq_ok]
    refine ⟨p, hp, x', hx, hilo, hh, ?_⟩
    rw [if_pos rfl, bind_eq_ok]
    refine ⟨_, hs₁, ?_⟩
    rw [bind_eq_ok]
    refine ⟨p₁, orFail_eq_ok.2 hp₁, ?_⟩
    simp only [liberarBloqueadosPorElHilo, noNulo, bind_eq_ok, orFail_eq_ok]
    refine ⟨h₁, hh₁, { p₁ with exec := none }, ?_, ?_⟩
    · rw [hpid₁]
      exact Dictionary.get_put_self _ _ _
    · rw [contenido_join (Dictionary.get_put_self _ _ _)] at hs'
      rw [hpid₁, htid₁]
      dsimp only at hs' ⊢
      cases hb : p₁.blocked.get hilo.tid with
      | none =>
          rw [hb] at hs'
          exact hs'
      | some lista =>
          rw [hb] at hs'
          exact hs'
  · rw [hcont', hcont, update_of_ne (by simp), update_of_ne (by simp), update_of_ne (by simp),
      update_of_ne (by simp)]

/-! ## Runs -/

theorem paso_exits {e : Evento} (he : ∀ pid tid ahora, e ≠ .close pid tid ahora)
    (he' : ∀ pid, e ≠ .desconectar pid) (h : paso env s e = .ok s') :
    s'.diccionarioDeListasDeExit = s.diccionarioDeListasDeExit := by
  cases e with
  | conectar pid =>
      obtain ⟨-, rfl⟩ := paso_conectar h
      rfl
  | crear pid tid basura ahora =>
      obtain ⟨p, -, rfl⟩ := crearHilo_ok h
      rfl
  | tomar =>
      obtain ⟨-, -, unHilo, resto, -, rfl⟩ := planificarReadyTomar_ok h
      rfl
  | admitir ahora =>
      obtain ⟨unHilo, hilo, p, -, -, -, -, h⟩ := planificarReadyAdmitir_ok h
      exact (pasarAReady_recursos h).exits
  | wait pid tid semID =>
      rcases semSuseWait_ok h with
        ⟨-, rfl⟩ | ⟨sem, -, ⟨-, rfl⟩ | ⟨-, p, exec, hilo, cola, -, -, -, -, -, rfl⟩⟩
      · rfl
      · rfl
      · rfl
  | signal pid tid semID ahora =>
      rcases semSuseSignal_ok h with
        ⟨-, rfl⟩ | ⟨sem, -, ⟨-, rfl⟩ | ⟨-, -, rfl⟩ | ⟨-, -, hsacar⟩⟩
      · rfl
      · rfl
      · rfl
      · rcases sacar1HiloDeLaColaDeBloqueadosPorSemaforo_ok hsacar with ⟨-, rfl⟩ |
          ⟨unHilo, resto, s₁, hilo, unPrograma, p, -, hs₁, -, -, -, rfl⟩
        · rfl
        · exact (despertarPrograma_recursos s₁ hilo.pid unPrograma).exits.trans
            (pasarAReady_recursos hs₁).exits
  | join pid tidAEsperar =>
      rcases realizarJoin_ok h with rfl | ⟨p, exec, hilo, cantidad, -, -, -, rfl⟩
      · rfl
      · rfl
  | close pid tid ahora => exact absurd rfl (he pid tid ahora)
  | scheduleNext pid reloj =>
      obtain ⟨r, h⟩ := paso_scheduleNext h
      exact (siguienteAEjecutar_recursos h).exits
  | despertar pid reloj =>
      obtain ⟨r, h⟩ := paso_despertar h
      exact (calcularSiguienteHiloDespierto_recursos h).exits
  | metricas ahora => exact (tomarMetricas_soloTiempos h).mismosRecursos.exits
  | desconectar pid => exact absurd rfl (he' pid)

/-- Only a join and a close change a join list. -/
theorem paso_joins {e : Evento} (hjoin : ∀ pid tid, e ≠ .join pid tid)
    (hclose : ∀ pid tid ahora, e ≠ .close pid tid ahora) (hdesc : ∀ pid, e ≠ .desconectar pid)
    (h : paso env s e = .ok s') (pid : Pid) (tid : Tid) :
    contenido s' (.join pid tid) = contenido s (.join pid tid) := by
  rw [contenido_join_eq, contenido_join_eq]
  cases e with
  | wait pid' tid' semID => rw [semSuseWait_joinsDe h]
  | signal pid' tid' semID ahora => rw [semSuseSignal_joinsDe h]
  | join pid' tid' => exact absurd rfl (hjoin pid' tid')
  | close pid' tid' ahora => exact absurd rfl (hclose pid' tid' ahora)
  | desconectar pid' => exact absurd rfl (hdesc pid')
  | _ => rw [(paso_mismosBloqueados (by exact not_false) h).joins]

/-- The same threads are in the exit lists, under the same ids. -/
theorem termino_congr (hexit : contenido s' (.exit pid) = contenido s (.exit pid))
    (hid : ∀ x ∈ contenido s (.exit pid), identidad s' x = identidad s x) :
    Termino s' pid tid ↔ Termino s pid tid := by
  rw [termino_iff, termino_iff, hexit]
  refine exists_congr fun x => and_congr_right fun hx => ?_
  rw [hid x hx]

namespace EsperasJustas

variable {tr : List (Step (Estado E) Evento)} {e : Evento}

/-- A step that adds nobody to a join list and closes nobody. -/
theorem igual (h : EsperasJustas tr s)
    (hjoin : ∀ pid tid, contenido s' (.join pid tid) = contenido s (.join pid tid))
    (hexit : ∀ pid tid, Termino s' pid tid ↔ Termino s pid tid)
    (hnadie : ∀ pid tid, esperan pid tid ⟨s, e, s'⟩ = []) :
    EsperasJustas (tr ++ [⟨s, e, s'⟩]) s' where
  cerrado := fun pid tid hc => by rw [hjoin, h.cerrado pid tid ((hexit pid tid).1 hc)]
  abierto := fun pid tid ha => by
    rw [hjoin, h.abierto pid tid fun hc => ha ((hexit pid tid).2 hc), List.flatMap_append,
      List.flatMap_singleton, hnadie, List.append_nil]

/-- A join that blocks adds the running thread at the end of the list of a thread
that has not closed. -/
theorem join (h : EsperasJustas tr s) (hC : Coherente s S) {p : Programa} {x : Puntero}
    {hilo : Hilo E} (hb : Bloquea s pid tid p x hilo) :
    EsperasJustas (tr ++ [⟨s, .join pid tid, s.ponerPrograma pid (trasJoin s p x hilo tid)⟩])
      (s.ponerPrograma pid (trasJoin s p x hilo tid)) := by
  obtain ⟨hp, hexec, -, htermino⟩ := hb
  have hcont : contenido (s.ponerPrograma pid (trasJoin s p x hilo tid)) = _ :=
    contenido_trasJoin hp
  have hexit : ∀ pid' tid', Termino (s.ponerPrograma pid (trasJoin s p x hilo tid)) pid' tid' ↔
      Termino s pid' tid' := fun pid' tid' =>
    termino_congr (by rw [hcont, update_of_ne (by simp), update_of_ne (by simp)]) fun _ _ => rfl
  have hvivo : ¬ Termino s pid tid := by
    intro hc
    have htermino' := (terminoElHilo_iff hC).2 ⟨pid, hc⟩
    rw [htermino] at htermino'
    cases htermino'
  have hotro : ∀ pid' tid', (pid', tid') ≠ (pid, tid) →
      contenido (s.ponerPrograma pid (trasJoin s p x hilo tid)) (.join pid' tid') =
        contenido s (.join pid' tid') := by
    intro pid' tid' hne
    rw [hcont, update_of_ne (by simpa using hne), update_of_ne (by simp)]
  refine ⟨fun pid' tid' hc => ?_, fun pid' tid' ha => ?_⟩
  · have hne : (pid', tid') ≠ (pid, tid) := by
      intro heq
      obtain ⟨rfl, rfl⟩ := Prod.mk.inj heq
      exact hvivo ((hexit pid' tid').1 hc)
    rw [hotro pid' tid' hne, h.cerrado pid' tid' ((hexit pid' tid').1 hc)]
  · have hant := h.abierto pid' tid' fun hc => ha ((hexit pid' tid').2 hc)
    rw [List.flatMap_append, List.flatMap_singleton, ← hant]
    by_cases heq : (pid', tid') = (pid, tid)
    · obtain ⟨rfl, rfl⟩ := Prod.mk.inj heq
      rw [hcont, update_self, esperan_join, if_pos ⟨rfl, rfl, htermino⟩, mem_exec hp hexec]
    · have hno : ¬ (pid = pid' ∧ tid = tid' ∧ terminoElHilo s tid' = false) := by
        rintro ⟨rfl, rfl, -⟩
        exact heq rfl
      rw [hotro pid' tid' heq, esperan_join, if_neg hno, List.append_nil]

/-- A close empties the list of the thread that goes to the exit list. -/
theorem close (h : EsperasJustas tr s) {x : Puntero} {ahora : ℕ}
    (hid : identidad s x = some (pid, tid))
    (hids : ∀ y l, y ∈ contenido s l → identidad s' y = identidad s y)
    (hexec : contenido s (.exec pid) = [x])
    (hcont : contenido s' = update (update (update (update (contenido s) (.exec pid) [])
      (.exit pid) (contenido s (.exit pid) ++ [x])) (.join pid tid) []) (.ready pid)
        (contenido s (.ready pid) ++ contenido s (.join pid tid))) :
    EsperasJustas (tr ++ [⟨s, .close pid tid ahora, s'⟩]) s' := by
  have hotro : ∀ pid' tid', (pid', tid') ≠ (pid, tid) →
      contenido s' (.join pid' tid') = contenido s (.join pid' tid') := by
    intro pid' tid' hne
    rw [hcont, update_of_ne (by simp), update_of_ne (by simpa using hne),
      update_of_ne (by simp), update_of_ne (by simp)]
  have hvacia : contenido s' (.join pid tid) = [] := by
    rw [hcont, update_of_ne (by simp), update_self]
  have hexit : ∀ pid' tid', (pid', tid') ≠ (pid, tid) →
      (Termino s' pid' tid' ↔ Termino s pid' tid') := by
    intro pid' tid' hne
    by_cases hpid : pid' = pid
    · subst hpid
      have hlista : contenido s' (.exit pid') = contenido s (.exit pid') ++ [x] := by
        rw [hcont, update_of_ne (by simp), update_of_ne (by simp), update_self]
      have hx' : identidad s' x = some (pid', tid) := by
        rw [hids x (.exec pid') (by rw [hexec]; simp), hid]
      rw [termino_iff, termino_iff]
      constructor
      · rintro ⟨y, hy, hidy⟩
        rw [hlista, List.mem_append, List.mem_singleton] at hy
        rcases hy with hy | rfl
        · exact ⟨y, hy, (hids y _ hy).symm.trans hidy⟩
        · rw [hx'] at hidy
          exact absurd (Option.some.inj hidy).symm hne
      · rintro ⟨y, hy, hidy⟩
        exact ⟨y, by rw [hlista]; exact List.mem_append_left _ hy, (hids y _ hy).trans hidy⟩
    · refine termino_congr ?_ fun y hy => hids y _ hy
      rw [hcont, update_of_ne (by simp), update_of_ne (by simp),
        update_of_ne (by simpa using hpid), update_of_ne (by simp)]
  have hcerrado : Termino s' pid tid := by
    refine termino_iff.2 ⟨x, ?_, ?_⟩
    · rw [hcont, update_of_ne (by simp), update_of_ne (by simp), update_self]
      simp
    · rw [hids x (.exec pid) (by rw [hexec]; simp), hid]
  refine ⟨fun pid' tid' hc => ?_, fun pid' tid' ha => ?_⟩
  · by_cases heq : (pid', tid') = (pid, tid)
    · obtain ⟨rfl, rfl⟩ := Prod.mk.inj heq
      exact hvacia
    · rw [hotro pid' tid' heq, h.cerrado pid' tid' ((hexit pid' tid' heq).1 hc)]
  · have hne : (pid', tid') ≠ (pid, tid) := by
      intro heq
      obtain ⟨rfl, rfl⟩ := Prod.mk.inj heq
      exact ha hcerrado
    rw [hotro pid' tid' hne, h.abierto pid' tid' fun hc => ha ((hexit pid' tid' hne).2 hc),
      List.flatMap_append, List.flatMap_singleton, esperan, List.append_nil]

end EsperasJustas

theorem TidUnico.joinsDistintos (h : TidUnico s) (hC : Coherente s S) : JoinsDistintos s := by
  intro pid x y hx _ heq
  obtain ⟨t, hx⟩ := mem_enJoins.1 hx
  obtain ⟨pid', tid', hid, -⟩ := hC.propio x _ hx
  exact h x y _ hid (heq ▸ hid)

theorem paso_tidUnico {e : Evento} (hC : Coherente s S) (h : TidUnico s)
    (hsin : SinRepetir ⟨s, e, s'⟩) (hs : paso env s e = .ok s') : TidUnico s' := by
  by_cases hint : e.Interno
  · exact (tidUnico_congr (paso_mueve hC hs hint).identidad).2 h
  · cases e with
    | conectar pid =>
        obtain ⟨-, rfl⟩ := paso_conectar hs
        exact h
    | crear pid tid basura ahora => exact tidUnico_crearHilo h hsin hs
    | desconectar pid => exact hsin.elim
    | _ => exact absurd trivial hint

theorem sinDesconexion_of_sinRepetir {x : Step (Estado E) Evento} (h : SinRepetir x) :
    SinDesconexion x := by
  intro pid heq
  rw [SinRepetir, heq] at h
  exact h

/-- One step keeps the join lists in order. -/
theorem EsperasJustas.paso {tr : List (Step (Estado E) Evento)} {e : Evento}
    (h : EsperasJustas tr s) (hC : Coherente s S) (hunico : TidUnico s) (hcon : ConPrograma s)
    (hcero : EnCero s) (hsin : SinRepetir ⟨s, e, s'⟩) (hs : paso env s e = .ok s') :
    EsperasJustas (tr ++ [⟨s, e, s'⟩]) s' := by
  have hdesc : ∀ pid, e ≠ .desconectar pid := sinDesconexion_of_sinRepetir hsin
  have hids := paso_identidad hC hdesc hs
  have hotro : (∀ pid tid, e ≠ .join pid tid) → (∀ pid tid ahora, e ≠ .close pid tid ahora) →
      (∀ pid tid, esperan pid tid ⟨s, e, s'⟩ = []) → EsperasJustas (tr ++ [⟨s, e, s'⟩]) s' := by
    intro hjoin hclose hnadie
    have hexits := paso_exits hclose hdesc hs
    refine h.igual (paso_joins hjoin hclose hdesc hs) (fun pid tid => ?_) hnadie
    refine termino_congr ?_ fun x hx => hids x _ hx
    rw [contenido, contenido, hexits]
  cases e with
  | join pid tid =>
      rcases realizarJoin_saldo hC hs with ⟨hno, rfl⟩ | ⟨p, x, hilo, hb, rfl, -⟩
      · refine h.igual (fun _ _ => rfl) (fun _ _ => Iff.rfl) fun pid' tid' => ?_
        rw [esperan_join]
        split_ifs with hcond
        · obtain ⟨rfl, rfl, htermino⟩ := hcond
          by_contra hexec
          obtain ⟨p, x, hilo, hp, hx, hh, -⟩ := enEjecucion hC hexec
          exact hno p x hilo ⟨hp, hx, hh, htermino⟩
        · rfl
      · exact h.join hC hb
  | close pid tid ahora =>
      obtain ⟨p, x, hilo, hp, hx, hh, hcaso⟩ := realizarClose_ok hs
      rcases hcaso with ⟨-, rfl⟩ | ⟨rfl, -⟩
      · exact h.igual (fun _ _ => rfl) (fun _ _ => Iff.rfl) fun _ _ => rfl
      · have hexec := mem_exec hp hx
        have hpid : pid = hilo.pid :=
          hC.identidad_of_mem (l := .exec pid) (by rw [hexec]; simp) hh
        have hid : identidad s x = some (pid, hilo.tid) := by rw [identidad_eq hh, hpid]
        obtain ⟨s'', hs'', hcont⟩ := realizarClose_libera hC (hunico.joinsDistintos hC) hcon
          hcero hexec hid ahora
        have heq : s'' = s' := Except.ok.inj (hs''.symm.trans hs)
        subst heq
        exact h.close hid hids hexec hcont
  | desconectar pid => exact hsin.elim
  | _ => exact hotro (by simp) (by simp) fun _ _ => rfl

theorem esperasJustas_of_run {c : Configuracion} {tr : List (Step (Estado E) Evento)}
    (hrun : Run (Transicion env) (iniciarSUSE c) tr s) (hsin : ∀ x ∈ tr, SinRepetir x) :
    TidUnico s ∧ EsperasJustas tr s := by
  induction hrun with
  | nil =>
      refine ⟨fun x y i hx => (by cases hx), fun pid tid hc => ?_, fun pid tid _ => ?_⟩
      · rw [iniciarSUSE_contenido]
      · rw [iniciarSUSE_contenido]
        rfl
  | @snoc tr s s' e hrun hs ih =>
      simp only [List.forall_mem_append, List.forall_mem_singleton] at hsin
      obtain ⟨hunico, hesperas⟩ := ih hsin.1
      obtain ⟨S, hC⟩ := coherente_of_run hrun
      have hcon := conPrograma_of_run hrun fun x hx => sinDesconexion_of_sinRepetir (hsin.1 x hx)
      exact ⟨paso_tidUnico hC hunico hsin.2 hs,
        hesperas.paso hC hunico hcon (enCero_of_run hrun) hsin.2 hs⟩

/-- In a run without disconnections and with unique ids, nobody waits for a thread
that is in the exit list of its program. A close of the running thread goes through
and takes the threads of its join list, which are those that joined it, each once
and in that order, to the end of ready; every other join list stays. -/
theorem realizarClose_liberaEsperas (env : Entorno E) (c : Configuracion)
    {tr : List (Step (Estado E) Evento)} (hrun : Run (Transicion env) (iniciarSUSE c) tr s)
    (hsin : ∀ x ∈ tr, SinRepetir x) :
    (∀ pid tid, Termino s pid tid → contenido s (.join pid tid) = []) ∧
      ∀ pid tid x ahora, contenido s (.exec pid) = [x] → identidad s x = some (pid, tid) →
        contenido s (.join pid tid) = tr.flatMap (esperan pid tid) ∧
        (contenido s (.join pid tid)).Nodup ∧
        ∃ s', realizarClose s pid tid ahora = .ok s' ∧
          contenido s' (.ready pid) = contenido s (.ready pid) ++ contenido s (.join pid tid) ∧
          contenido s' (.join pid tid) = [] ∧
          ∀ pid' tid', (pid', tid') ≠ (pid, tid) →
            contenido s' (.join pid' tid') = contenido s (.join pid' tid') := by
  obtain ⟨hunico, hesperas⟩ := esperasJustas_of_run hrun hsin
  obtain ⟨S, hC⟩ := coherente_of_run hrun
  have hcon := conPrograma_of_run hrun fun x hx => sinDesconexion_of_sinRepetir (hsin x hx)
  refine ⟨hesperas.cerrado, fun pid tid x ahora hexec hid => ?_⟩
  have hvivo : ¬ Termino s pid tid := by
    rw [termino_iff]
    rintro ⟨y, hy, hidy⟩
    have hyx : y = x := hunico y x _ hidy hid
    rw [hyx] at hy
    have hlugar := hC.particion.unique x _ (.exec pid) hy (by rw [hexec]; simp)
    cases hlugar
  obtain ⟨s', hs', hcont⟩ := realizarClose_libera hC (hunico.joinsDistintos hC) hcon
    (enCero_of_run hrun) hexec hid ahora
  refine ⟨hesperas.abierto pid tid hvivo, hC.particion.nodup _, s', hs', ?_, ?_,
    fun pid' tid' hne => ?_⟩
  · rw [hcont, update_self]
  · rw [hcont, update_of_ne (by simp), update_self]
  · rw [hcont, update_of_ne (by simp), update_of_ne (by simpa using hne),
      update_of_ne (by simp), update_of_ne (by simp)]

/-- A program with two threads, of which the first waits for the second. -/
def unoEspera : List Evento :=
  [.conectar 5, .crear 5 0 (0, 0) 0, .tomar, .admitir 0, .crear 5 1 (0, 0) 0, .tomar,
    .admitir 0, .join 5 1, .scheduleNext 5 id]

theorem realizarClose_liberaEsperas_unoEspera :
    ∃ s', realizarClose (final (paso entornoRacional) (iniciarSUSE ⟨2, []⟩) unoEspera) 5 1 0 =
        .ok s' ∧ contenido s' (.ready 5) = [0] := by
  have hsin : ∀ x ∈ trace (paso entornoRacional) (iniciarSUSE ⟨2, []⟩) unoEspera,
      SinRepetir x := by
    simp only [unoEspera, trace, List.forall_mem_cons, SinRepetir]
    refine ⟨trivial, ?_, trivial, trivial, ?_, trivial, trivial, trivial, trivial, by simp⟩
    · intro p h
      cases (show (none : Option (Pid × Tid)) = some (5, 0) from h)
    · intro p h
      by_cases hp : p = 0
      · subst hp
        exact absurd h (by decide +kernel)
      · obtain ⟨S, hC⟩ := coherente_of_run (Run.execute (paso entornoRacional)
          (s := iniciarSUSE ⟨2, []⟩) (unoEspera.take 4) (by decide +kernel))
        have hproximo : (final (paso entornoRacional) (iniciarSUSE ⟨2, []⟩)
            (unoEspera.take 4)).proximo = 1 := by decide +kernel
        have hnada := hC.fresco p (hproximo ▸ Nat.pos_of_ne_zero hp)
        cases hnada.symm.trans h
  obtain ⟨-, hclose⟩ := realizarClose_liberaEsperas entornoRacional ⟨2, []⟩
    (Run.execute (paso entornoRacional) unoEspera (by decide +kernel)) hsin
  obtain ⟨-, -, s', hs', hready, -⟩ := hclose 5 1 1 0 (by decide +kernel) (by decide +kernel)
  refine ⟨s', hs', hready.trans ?_⟩
  decide +kernel

end Suse
