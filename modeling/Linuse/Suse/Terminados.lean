import Linuse.Suse.Censo
import Linuse.Suse.Cierre

/-!
# Threads that have closed and threads that wait for them

Of each event: which threads it adds to the exit lists, and which ones it takes out of the join
lists. A thread gets to the exit list of its program by its own close only (`termino_antes`), and
leaves the join list of another one only when that one closes (`mem_join_paso`), until the program
disconnects.
-/

namespace Suse

open Fallible
open Function (update update_self update_of_ne)

variable {E : Type} {env : Entorno E} {s s' : Estado E} {S : Set Puntero} {pid : Pid} {tid : Tid}

/-! ## Exit lists -/

/-- The release loop takes threads out of one join list. -/
theorem liberarLista_joins {ahora : ℕ} (lista : List Puntero)
    (h : liberarLista pid tid ahora lista s = .ok s') {pid' : Pid} {tid' : Tid}
    (hne : (pid', tid') ≠ (pid, tid)) :
    contenido s' (.join pid' tid') = contenido s (.join pid' tid') := by
  induction lista generalizing s with
  | nil =>
      cases h
      rfl
  | cons x resto ih =>
      obtain ⟨p, hilo, q, hp, -, hq, hcaso⟩ := liberarLista_cons_ok h
      have hsacar : contenido (sacarDeLista s pid tid p resto) (.join pid' tid') =
          contenido s (.join pid' tid') := by
        rw [sacarDeLista, contenido_ponerPrograma_put tid resto hp rfl,
          update_of_ne (by simpa using hne), update_of_ne (by simp)]
      rcases hcaso with ⟨-, h⟩ | ⟨l, -, -, h⟩
      · exact (ih h).trans hsacar
      · rw [ih h, contenido_ponerPrograma_eq (p := q), contenido_ponerHilo, contenido_ponerReady,
          update_of_ne (by simp), hsacar]
        · exact hq
        · rfl
        · rfl

/-- What a close changes of the exit lists and the join lists. -/
theorem realizarClose_lugares {ahora : ℕ} (hC : Coherente s S)
    (h : realizarClose s pid tid ahora = .ok s') :
    s' = s ∨ ∃ x, contenido s (.exec pid) = [x] ∧ identidad s x = some (pid, tid) ∧
      (∀ pid', contenido s' (.exit pid') =
        update (contenido s) (.exit pid) (contenido s (.exit pid) ++ [x]) (.exit pid')) ∧
      ∀ pid' tid', (pid', tid') ≠ (pid, tid) →
        contenido s' (.join pid' tid') = contenido s (.join pid' tid') := by
  obtain ⟨p, x, hilo, hp, hexec, hh, ⟨-, rfl⟩ | ⟨rfl, s₁, p₁, hs₁, hp₁, h⟩⟩ := realizarClose_ok h
  · exact .inl rfl
  · have hmem := mem_exec hp hexec
    have hpid : pid = hilo.pid := hC.identidad_of_mem (l := .exec pid) (by rw [hmem]; simp) hh
    have hid : identidad s x = some (pid, hilo.tid) := by rw [identidad_eq hh, hpid]
    obtain ⟨hquieto, hcont, -⟩ := pasarAExit_mueve hC hp hexec hs₁ hp₁
    obtain ⟨hilo', q, hh', -, h⟩ := liberarBloqueadosPorElHilo_ok h
    have hid' := hquieto.identidad x
    rw [identidad_eq hh', hid, Option.some.injEq, Prod.mk.injEq] at hid'
    obtain ⟨hpid', htid'⟩ := hid'
    rw [hpid', htid'] at h
    refine .inr ⟨x, hmem, hid, fun pid' => ?_, fun pid' tid' hne => ?_⟩
    · rw [(liberarLista_recursos _ h).contenido_exit, hcont]
      by_cases hpid : pid' = pid
      · rw [hpid, update_self, update_self]
      · rw [update_of_ne (by simpa using hpid), update_of_ne (by simp),
          update_of_ne (by simpa using hpid)]
    · rw [liberarLista_joins _ h hne, hcont, update_of_ne (by simp), update_of_ne (by simp)]

/-- A thread that is in some place before a step and after it goes on being the same. -/
theorem identidad_paso {e : Evento} {y : Puntero} {l l' : Lugar} (hC : Coherente s S)
    (hC' : Coherente s' (registrados s')) (hs : paso env s e = .ok s') (hy : y ∈ contenido s l)
    (hy' : y ∈ contenido s' l') : identidad s' y = identidad s y := by
  by_cases hdesc : ∃ pid', e = .desconectar pid'
  · obtain ⟨pid', rfl⟩ := hdesc
    obtain ⟨-, rfl⟩ := paso_desconectar hs
    -- its record is not one of those that are freed
    obtain ⟨pid₁, tid₁, hid₁, -⟩ := hC'.propio y _ hy'
    have hviejo := identidad_limpiarEstructuras hid₁
    exact hid₁.trans hviejo.symm
  · exact paso_identidad hC (fun pid' he => hdesc ⟨pid', he⟩) hs y l hy

/-- The threads in the exit list of a program stay there until it disconnects. -/
theorem termino_paso {e : Evento} (hC : Coherente s S) (hC' : Coherente s' (registrados s'))
    (hs : paso env s e = .ok s') (he : e ≠ .desconectar pid) (h : Termino s pid tid) :
    Termino s' pid tid := by
  obtain ⟨y, hy, hid⟩ := termino_iff.1 h
  have hy' : y ∈ contenido s' (.exit pid) := by
    by_cases hdesc : ∃ pid', e = .desconectar pid'
    · obtain ⟨pid', rfl⟩ := hdesc
      obtain ⟨-, rfl⟩ := paso_desconectar hs
      have hne : ¬ (Lugar.exit pid).DelPrograma pid' := by
        rintro rfl
        exact he rfl
      rw [(contenido_desconectar (.exit pid)).2 hne]
      exact hy
    by_cases hclose : ∃ pid' tid' ahora, e = .close pid' tid' ahora
    · obtain ⟨pid', tid', ahora, rfl⟩ := hclose
      rcases realizarClose_lugares hC hs with rfl | ⟨x, -, -, hexit, -⟩
      · exact hy
      · rw [hexit]
        by_cases hpid : pid = pid'
        · rw [← hpid, update_self]
          exact List.mem_append_left _ hy
        · rw [update_of_ne (by simpa using hpid)]
          exact hy
    · rw [contenido, paso_exits (fun pid' tid' ahora he => hclose ⟨pid', tid', ahora, he⟩)
        (fun pid' he => hdesc ⟨pid', he⟩) hs]
      exact hy
  exact termino_iff.2 ⟨y, hy', (identidad_paso hC hC' hs hy hy').trans hid⟩

/-- A close that the library may send puts its thread in the exit list. -/
theorem termino_close {c : Conectados E} {cl : Cliente} {m : ℕ} (hatendidos : Atendidos c)
    (hC : Coherente c.estado (registrados c.estado)) (hcl : c.clientes pid = some cl)
    (hcorre : cl.corre tid) (hs : Suse.paso env c.estado (.close pid tid m) = .ok s') :
    Termino s' pid tid := by
  obtain ⟨-, -, y, hexec, hcaso⟩ := realizarClose_recursos hC hs
  have hready := hC.execConReady pid (by rw [hexec]; simp)
  obtain ⟨z, hexec', hid⟩ := (hatendidos.cliente pid cl hcl).corre tid hcorre hready
  obtain rfl : y = z := by simpa using hexec.symm.trans hexec'
  obtain ⟨hilo, hhilo, hident⟩ := Option.map_eq_some_iff.1 hid
  have htid : tieneTid c.estado tid y = true := by
    rw [tieneTid, hhilo, beq_iff_eq]
    exact congrArg Prod.snd hident
  rcases hcaso with ⟨hno, -⟩ | ⟨-, -, hexit⟩
  · rw [htid] at hno
    cases hno
  · refine termino_iff.2 ⟨y, by rw [hexit]; simp, ?_⟩
    rw [(paso_mueve hC hs trivial).identidad, hid]

/-- Only a close adds a thread to an exit list. -/
theorem termino_antes {e : Evento} (hC : Coherente s S) (hs : paso env s e = .ok s')
    (h : Termino s' pid tid) : Termino s pid tid ∨ ∃ ahora, e = .close pid tid ahora := by
  obtain ⟨y, hy, hid⟩ := termino_iff.1 h
  by_cases hdesc : ∃ pid', e = .desconectar pid'
  · obtain ⟨pid', rfl⟩ := hdesc
    obtain ⟨-, rfl⟩ := paso_desconectar hs
    refine .inl (termino_iff.2 ⟨y, ?_, identidad_limpiarEstructuras hid⟩)
    by_cases hpid : (Lugar.exit pid).DelPrograma pid'
    · rw [(contenido_desconectar (.exit pid)).1 hpid] at hy
      cases hy
    · rwa [(contenido_desconectar (.exit pid)).2 hpid] at hy
  have hdesc' : ∀ pid', e ≠ .desconectar pid' := fun pid' he => hdesc ⟨pid', he⟩
  have hviejo : y ∈ contenido s (.exit pid) → Termino s pid tid := fun hmem =>
    termino_iff.2 ⟨y, hmem, (paso_identidad hC hdesc' hs y _ hmem).symm.trans hid⟩
  by_cases hclose : ∃ pid' tid' ahora, e = .close pid' tid' ahora
  · obtain ⟨pid', tid', ahora, rfl⟩ := hclose
    rcases realizarClose_lugares hC hs with rfl | ⟨x, hexec, hidx, hexit, -⟩
    · exact .inl h
    · rw [hexit] at hy
      by_cases hpid : pid = pid'
      · subst hpid
        rw [update_self, List.mem_append, List.mem_singleton] at hy
        rcases hy with hy | rfl
        · exact .inl (hviejo hy)
        · have hmem : y ∈ contenido s (.exec pid) := by rw [hexec]; simp
          rw [paso_identidad hC hdesc' hs y _ hmem, hidx] at hid
          cases hid
          exact .inr ⟨ahora, rfl⟩
      · rw [update_of_ne (by simpa using hpid)] at hy
        exact .inl (hviejo hy)
  · refine .inl (hviejo ?_)
    rw [contenido, paso_exits (fun pid' tid' ahora he => hclose ⟨pid', tid', ahora, he⟩) hdesc' hs]
      at hy
    exact hy

/-! ## Join lists -/

/-- A thread waits until the other one closes, or its program disconnects. -/
theorem mem_join_paso {e : Evento} {x : Puntero} (hC : Coherente s S)
    (hs : paso env s e = .ok s') (hx : x ∈ contenido s (.join pid tid)) :
    x ∈ contenido s' (.join pid tid) ∨ (∃ ahora, e = .close pid tid ahora) ∨
      e = .desconectar pid := by
  by_cases hdesc : ∃ pid', e = .desconectar pid'
  · obtain ⟨pid', rfl⟩ := hdesc
    obtain ⟨-, rfl⟩ := paso_desconectar hs
    by_cases hpid : (Lugar.join pid tid).DelPrograma pid'
    · exact .inr (.inr (congrArg Evento.desconectar (show pid = pid' from hpid).symm))
    · rw [(contenido_desconectar (.join pid tid)).2 hpid]
      exact .inl hx
  by_cases hclose : ∃ pid' tid' ahora, e = .close pid' tid' ahora
  · obtain ⟨pid', tid', ahora, rfl⟩ := hclose
    rcases realizarClose_lugares hC hs with rfl | ⟨-, -, -, -, hjoin⟩
    · exact .inl hx
    · by_cases hne : (pid, tid) = (pid', tid')
      · cases hne
        exact .inr (.inl ⟨ahora, rfl⟩)
      · rw [hjoin pid tid hne]
        exact .inl hx
  by_cases hjoin : ∃ pid' tid', e = .join pid' tid'
  · obtain ⟨pid', tid', rfl⟩ := hjoin
    rcases realizarJoin_saldo hC hs with ⟨-, rfl⟩ | ⟨p, y, hilo, ⟨hp, -⟩, rfl, -⟩
    · exact .inl hx
    · rw [contenido_trasJoin hp]
      by_cases hne : (pid, tid) = (pid', tid')
      · cases hne
        rw [update_self]
        exact .inl (List.mem_append_left _ hx)
      · rw [update_of_ne (by simpa using hne), update_of_ne (by simp)]
        exact .inl hx
  · rw [paso_joins (fun pid' tid' he => hjoin ⟨pid', tid', he⟩)
      (fun pid' tid' ahora he => hclose ⟨pid', tid', ahora, he⟩)
      (fun pid' he => hdesc ⟨pid', he⟩) hs]
    exact .inl hx

/-- A join of the thread that runs waits for the other one, unless the search finds it closed. -/
theorem realizarJoin_aguarda {x : Puntero} (hC : Coherente s S)
    (hexec : contenido s (.exec pid) = [x]) (hs : realizarJoin s pid tid = .ok s') :
    terminoElHilo s tid = true ∧ s' = s ∨ x ∈ contenido s' (.join pid tid) := by
  have hcorre : contenido s (.exec pid) ≠ [] := by rw [hexec]; simp
  obtain ⟨p, y, hilo, hp, hy, hh, -, hmem⟩ := enEjecucion hC hcorre
  obtain rfl : y = x := by simpa using hmem.symm.trans hexec
  cases htermino : terminoElHilo s tid with
  | true =>
      exact .inl ⟨rfl, (Except.ok.inj ((realizarJoin_ignora hp hy htermino).symm.trans hs)).symm⟩
  | false =>
      rw [← Except.ok.inj ((realizarJoin_espera hp hy hh htermino).symm.trans hs),
        contenido_trasJoin hp, update_self]
      exact .inr (List.mem_append_right _ (List.mem_singleton_self _))

end Suse
