import Linuse.Suse.Peticiones

/-!
# The threads of the connected programs

The library of a program numbers its threads from the main one on, so the ids of the threads that
the scheduler knows of a connected program are the ones before `NEXT_ID`, each of one thread, and
each of these threads is in exactly one place, however the programs come and go (`Censados`).
-/

namespace Suse

open Function (update update_self update_of_ne)
open Transition Fallible

variable {E : Type} {s s' : Estado E} {S : Set Puntero} {env : Entorno E} {pid : Pid}

/-- The threads that have a record. -/
def registrados (s : Estado E) : Set Puntero := {x | identidad s x ≠ none}

theorem mem_registrados {x : Puntero} : x ∈ registrados s ↔ identidad s x ≠ none := Iff.rfl

theorem registrados_congr (h : ∀ x, identidad s' x = identidad s x) :
    registrados s' = registrados s :=
  Set.ext fun x => by rw [mem_registrados, mem_registrados, h]

/-- Whether a thread of the program has the id. -/
def ExisteHilo (s : Estado E) (pid : Pid) (tid : Tid) : Prop :=
  ∃ x, identidad s x = some (pid, tid)

/-- The ids that the library of a program has given to threads that the scheduler knows. -/
def Cliente.HaCreado (c : Cliente) (tid : Tid) : Prop :=
  c.turno ≠ .iniciando ∧ 0 ≤ tid ∧ tid < c.nextId

/-- Every record is of a thread that is in exactly one place, no two threads of a program have the
same id, and the ids of a connected program are the ones before the `NEXT_ID` of its library. -/
structure Censados (c : Conectados E) : Prop where
  coherente : Coherente c.estado (registrados c.estado)
  tidUnico : TidUnico c.estado
  estacionados : Estacionados c.estado
  ids : ∀ pid cliente, c.clientes pid = some cliente →
    ∀ tid, ExisteHilo c.estado pid tid ↔ cliente.HaCreado tid
  siguiente : ∀ pid cliente, c.clientes pid = some cliente →
    1 ≤ cliente.nextId ∧ (cliente.turno = .iniciando → cliente.nextId = 1)

/-! ## Disconnections -/

/-- The records that are freed are the ones of the places that go away. -/
theorem mem_hilosLiberados_iff {x : Puntero} :
    x ∈ hilosLiberados s pid ↔ ∃ l : Lugar, l.DelPrograma pid ∧ x ∈ contenido s l := by
  constructor
  · exact mem_hilosLiberados
  · rintro ⟨l, hl, hx⟩
    rw [hilosLiberados, List.mem_append, List.mem_append]
    cases l with
    | new => exact hl.elim
    | mano => exact hl.elim
    | semaforo semID => exact hl.elim
    | ready pid' =>
        obtain rfl : pid' = pid := hl
        exact .inl (.inr hx)
    | exit pid' =>
        obtain rfl : pid' = pid := hl
        exact .inl (.inl hx)
    | exec pid' =>
        obtain rfl : pid' = pid := hl
        cases hp : s.diccionarioDeProgramas.get pid' with
        | none => simp [contenido, hp] at hx
        | some p =>
            rw [contenido_exec hp] at hx
            exact .inr (List.mem_append_right _ hx)
    | join pid' tid =>
        obtain rfl : pid' = pid := hl
        cases hp : s.diccionarioDeProgramas.get pid' with
        | none => simp [contenido, hp] at hx
        | some p =>
            rw [contenido_join hp] at hx
            cases hget : p.blocked.get tid with
            | none => simp [hget] at hx
            | some l =>
                refine .inr (List.mem_append_left _ (List.mem_flatMap.2 ⟨(tid, l), ?_, ?_⟩))
                · exact (Dictionary.mem_toList _ _ _).2 hget
                · simpa [hget] using hx

theorem identidad_limpiarEstructuras_eq (x : Puntero) :
    identidad (limpiarEstructuras s pid) x =
      if x ∈ hilosLiberados s pid then none else identidad s x := by
  by_cases hx : x ∈ hilosLiberados s pid <;> simp [identidad, limpiarEstructuras, hx]

/-- The threads that stay are the ones of the places that stay. -/
theorem registrados_limpiarEstructuras (hC : Coherente s (registrados s)) :
    registrados (limpiarEstructuras s pid) =
      {x | ∃ l : Lugar, ¬ l.DelPrograma pid ∧ x ∈ contenido s l} := by
  ext x
  rw [mem_registrados, identidad_limpiarEstructuras_eq]
  constructor
  · intro hx
    have hlib : x ∉ hilosLiberados s pid := fun h => hx (if_pos h)
    rw [if_neg hlib] at hx
    obtain ⟨l, hl⟩ := (hC.particion.mem_iff x).1 hx
    exact ⟨l, fun hdel => hlib (mem_hilosLiberados_iff.2 ⟨l, hdel, hl⟩), hl⟩
  · rintro ⟨l, hdel, hl⟩
    have hlib : x ∉ hilosLiberados s pid := by
      intro hlib
      obtain ⟨l', hdel', hl'⟩ := mem_hilosLiberados hlib
      exact hdel (hC.particion.unique x l l' hl hl' ▸ hdel')
    rw [if_neg hlib]
    exact (hC.particion.mem_iff x).2 ⟨l, hl⟩

/-- The threads of the other programs keep their records. -/
theorem existeHilo_limpiarEstructuras {pid' : Pid} (hC : Coherente s S) (hne : pid ≠ pid')
    (tid : Tid) : ExisteHilo (limpiarEstructuras s pid') pid tid ↔ ExisteHilo s pid tid := by
  constructor
  · rintro ⟨x, hx⟩
    exact ⟨x, identidad_limpiarEstructuras hx⟩
  · rintro ⟨x, hx⟩
    refine ⟨x, ?_⟩
    rw [identidad_limpiarEstructuras_eq, if_neg, hx]
    intro hlib
    obtain ⟨l, hdel, hl⟩ := mem_hilosLiberados hlib
    obtain ⟨pid₁, tid₁, hid, hde⟩ := hC.propio x l hl
    rw [hx] at hid
    cases hid
    cases l with
    | new => exact hdel.elim
    | mano => exact hdel.elim
    | semaforo semID => exact hdel.elim
    | ready p => exact hne (hde.symm.trans hdel)
    | exec p => exact hne (hde.symm.trans hdel)
    | join p t => exact hne (hde.symm.trans hdel)
    | exit p => exact hne (hde.symm.trans hdel)

/-! ## What a request leaves of what the library remembers -/

namespace Cliente

variable {c : Cliente}

/-- A request of a thread that is not a creation is not of a program that is starting. -/
theorem Admite.turno_ne {e : Evento} (h : c.Admite e) (he : e.Interno)
    (hprograma : e.programa ≠ none) : c.turno ≠ .iniciando := by
  intro hturno
  have hcorre : ∀ {tid}, ¬ c.corre tid := by
    intro tid hc
    have hc' : c.turno = .corriendo tid := hc
    rw [hturno] at hc'
    cases hc'
  cases e with
  | conectar pid => exact he
  | crear pid tid basura ahora => exact he
  | desconectar pid => exact he
  | tomar => exact hprograma rfl
  | admitir ahora => exact hprograma rfl
  | metricas ahora => exact hprograma rfl
  | wait pid tid semID => exact hcorre h
  | signal pid tid semID ahora => exact hcorre h
  | close pid tid ahora => exact hcorre h
  | join pid tid =>
      obtain ⟨tid', hc⟩ := h
      exact hcorre hc
  | scheduleNext pid reloj =>
      rcases h with ⟨tid', hc⟩ | hc
      · exact hcorre hc
      · rw [hturno] at hc
        cases hc
  | despertar pid reloj =>
      have hc : c.turno = .esperando := h
      rw [hturno] at hc
      cases hc

theorem nextId_contestado (c : Cliente) (r : Option Tid) : (c.contestado r).nextId = c.nextId := by
  cases r <;> rfl

theorem contestado_turno_ne (c : Cliente) (r : Option Tid) :
    (c.contestado r).turno ≠ .iniciando := by
  cases r <;> exact fun h => by cases h

theorem nextId_sigue {e : Evento} (r : Option Tid) (he : e.Interno) :
    (c.sigue r e).nextId = c.nextId := by
  cases e with
  | crear pid tid basura ahora => exact he.elim
  | scheduleNext pid reloj => exact c.nextId_contestado r
  | despertar pid reloj => exact c.nextId_contestado r
  | _ => rfl

theorem sigue_turno_ne {e : Evento} (r : Option Tid) (he : e.Interno)
    (h : c.turno ≠ .iniciando) : (c.sigue r e).turno ≠ .iniciando := by
  cases e with
  | crear pid tid basura ahora => exact he.elim
  | scheduleNext pid reloj => exact c.contestado_turno_ne r
  | despertar pid reloj => exact c.contestado_turno_ne r
  | wait pid tid semID => exact fun h => by cases h
  | signal pid tid semID ahora => exact fun h => by cases h
  | join pid tid => exact fun h => by cases h
  | close pid tid ahora => exact fun h => by cases h
  | _ => exact h

end Cliente

/-! ## Steps -/

/-- What an event that only moves threads leaves of the libraries: `NEXT_ID`, and which programs
are starting. -/
theorem clientesTras_interno {c : Conectados E} {e : Evento} (he : e.Interno) (hadm : c.Admite e)
    {cliente' : Cliente} (h : c.clientesTras env e pid = some cliente') :
    ∃ cliente, c.clientes pid = some cliente ∧ cliente'.nextId = cliente.nextId ∧
      (cliente'.turno = .iniciando ↔ cliente.turno = .iniciando) := by
  have hprograma : ∀ pid', e.programa = some pid' →
      c.clientesTras env e = update c.clientes pid' ((c.clientes pid').map fun cliente =>
        cliente.sigue (respuesta env c.estado e) e) ∧
      ∃ cliente ∈ c.clientes pid', cliente.Admite e := by
    intro pid' hpid'
    cases e with
    | conectar pid => exact he.elim
    | crear pid tid basura ahora => exact he.elim
    | desconectar pid => exact he.elim
    | tomar => cases hpid'
    | admitir ahora => cases hpid'
    | metricas ahora => cases hpid'
    | _ =>
        cases hpid'
        exact ⟨rfl, hadm pid' rfl⟩
  cases hp : e.programa with
  | none =>
      have hclientes : c.clientesTras env e = c.clientes := by
        cases e with
        | tomar => rfl
        | admitir ahora => rfl
        | metricas ahora => rfl
        | _ => cases hp
      rw [hclientes] at h
      exact ⟨cliente', h, rfl, Iff.rfl⟩
  | some pid' =>
      obtain ⟨hclientes, cl, hcl, hcladm⟩ := hprograma pid' hp
      rw [hclientes] at h
      by_cases hpid : pid = pid'
      · subst hpid
        rw [update_self, Option.map_eq_some_iff] at h
        obtain ⟨cliente, hcliente, rfl⟩ := h
        obtain rfl : cl = cliente := Option.some_inj.1 (hcl.symm.trans hcliente)
        have hturno := hcladm.turno_ne he (by rw [hp]; simp)
        exact ⟨cl, hcliente, cl.nextId_sigue _ he,
          iff_of_false (cl.sigue_turno_ne _ he hturno) hturno⟩
      · rw [update_of_ne hpid] at h
        exact ⟨cliente', h, rfl, Iff.rfl⟩

namespace Censados

variable {c c' : Conectados E}

/-- A movement of threads that loses none. -/
theorem mueve {F : Lugar → Lugar → Prop} {pierde : Prop} (h : Censados c)
    (hm : Mueve F pierde c.estado c'.estado) (hpierde : ¬ pierde)
    (hestacionados : Estacionados c'.estado)
    (hclientes : ∀ pid cliente', c'.clientes pid = some cliente' →
      ∃ cliente, c.clientes pid = some cliente ∧ cliente'.nextId = cliente.nextId ∧
        (cliente'.turno = .iniciando ↔ cliente.turno = .iniciando)) : Censados c' where
  coherente := by
    rw [registrados_congr hm.identidad]
    exact hm.coherente_of_not hpierde h.coherente
  tidUnico := (tidUnico_congr hm.identidad).2 h.tidUnico
  estacionados := hestacionados
  ids := by
    intro pid cliente' hcl tid
    obtain ⟨cliente, hcl, hnext, hini⟩ := hclientes pid cliente' hcl
    have hexiste : ExisteHilo c'.estado pid tid ↔ ExisteHilo c.estado pid tid :=
      exists_congr fun x => by rw [hm.identidad]
    rw [hexiste, h.ids pid cliente hcl, Cliente.HaCreado, Cliente.HaCreado, hnext, ne_eq, ne_eq,
      hini]
  siguiente := by
    intro pid cliente' hcl
    obtain ⟨cliente, hcl, hnext, hini⟩ := hclientes pid cliente' hcl
    rw [hnext, hini]
    exact h.siguiente pid cliente hcl

/-- An event of a program or of the scheduler that only moves threads. -/
theorem interno {e : Evento} (h : Censados c) (ha : Atendidos c) (he : e.Interno)
    (hs : Conectados.Transicion env c e c') : Censados c' := by
  obtain ⟨hadm, hs, hclientes⟩ := Conectados.paso_ok hs
  have hm := paso_mueve h.coherente hs he
  have hcl : ∀ pid cliente', c'.clientes pid = some cliente' →
      ∃ cliente, c.clientes pid = some cliente ∧ cliente'.nextId = cliente.nextId ∧
        (cliente'.turno = .iniciando ↔ cliente.turno = .iniciando) := by
    intro pid cliente' hcl
    rw [hclientes] at hcl
    exact clientesTras_interno he hadm hcl
  cases e with
  | conectar pid => exact he.elim
  | crear pid tid basura ahora => exact he.elim
  | desconectar pid => exact he.elim
  | scheduleNext pid reloj =>
      obtain ⟨cliente, hcliente, hadm⟩ := hadm pid rfl
      have hcero : c.estado.enMutex pid = 0 := by
        refine ha.enMutex_eq_zero hcliente ?_
        rcases hadm with ⟨tid, hturno⟩ | hturno
        · have hturno' : cliente.turno = .corriendo tid := hturno
          simp [hturno']
        · simp [hturno]
      obtain ⟨r, hs⟩ := paso_scheduleNext hs
      obtain ⟨-, hexec, hmutex⟩ := siguienteAEjecutar_mueve h.coherente hs
      exact h.mueve hm not_false (h.estacionados.scheduleNext hm.toConserva hcero hexec hmutex) hcl
  | despertar pid reloj =>
      obtain ⟨r, hs⟩ := paso_despertar hs
      obtain ⟨-, hexec, hpos, hmutex⟩ := calcularSiguienteHiloDespierto_mueve h.coherente hs
      have huno : c.estado.enMutex pid = 1 := by
        have hle := (h.estacionados pid).1
        omega
      exact h.mueve hm (fun hne => hne ((h.estacionados pid).2 huno).1)
        (h.estacionados.despertar hm.toConserva hexec hmutex) hcl
  | close pid tid ahora =>
      exact h.mueve hm (fun hno => hno h.tidUnico)
        (h.estacionados.quieto (paso_quieto h.coherente hs trivial not_false)) hcl
  | _ =>
      exact h.mueve hm not_false
        (h.estacionados.quieto (paso_quieto h.coherente hs trivial not_false)) hcl

/-- A connection with a descriptor of which no place holds a thread. -/
theorem conectar (h : Censados c) (hs : Suse.paso env c.estado (.conectar pid) = .ok c'.estado)
    (hclientes : c'.clientes = update c.clientes pid (some .inicial))
    (hnadie : ∀ l : Lugar, ∀ p ∈ contenido c.estado l, ¬ esHiloDe c.estado pid p) :
    Censados c' := by
  obtain ⟨hp, heq⟩ := paso_conectar hs
  have hid : ∀ x, identidad c'.estado x = identidad c.estado x := fun x => by rw [heq]; rfl
  have hexiste : ∀ pid' tid, ExisteHilo c'.estado pid' tid ↔ ExisteHilo c.estado pid' tid :=
    fun pid' tid => exists_congr fun x => by rw [hid]
  refine
    { coherente := ?_, tidUnico := (tidUnico_congr hid).2 h.tidUnico, estacionados := ?_
      ids := ?_, siguiente := ?_ }
  · rw [registrados_congr hid, heq]
    exact conectar_coherente h.coherente hp
  · intro pid'
    rw [heq, contenido_conectar hp]
    exact h.estacionados pid'
  · intro pid' cliente hcl tid
    rw [hexiste]
    rw [hclientes] at hcl
    by_cases hpid : pid' = pid
    · subst hpid
      rw [update_self, Option.some_inj] at hcl
      subst hcl
      refine iff_of_false ?_ fun hcreado => hcreado.1 rfl
      rintro ⟨x, hx⟩
      have hmem : x ∈ registrados c.estado := by
        rw [mem_registrados, hx]
        simp
      obtain ⟨l, hl⟩ := (h.coherente.particion.mem_iff x).1 hmem
      exact hnadie l x hl ⟨tid, hx⟩
    · rw [update_of_ne hpid] at hcl
      exact h.ids pid' cliente hcl tid
  · intro pid' cliente hcl
    rw [hclientes] at hcl
    by_cases hpid : pid' = pid
    · subst hpid
      rw [update_self, Option.some_inj] at hcl
      subst hcl
      exact ⟨le_refl _, fun _ => rfl⟩
    · rw [update_of_ne hpid] at hcl
      exact h.siguiente pid' cliente hcl

theorem desconectar (h : Censados c)
    (hs : Suse.paso env c.estado (.desconectar pid) = .ok c'.estado)
    (hclientes : c'.clientes = update c.clientes pid none) : Censados c' := by
  obtain ⟨-, heq⟩ := paso_desconectar hs
  have hmax : Mueve Lugar.MismaFase False c.estado
      { c.estado with maximoProcesamiento := c.estado.maximoProcesamiento + 1 } :=
    .of_contenido_eq (Quieto.resto _ _ _ _ _ _).toConserva rfl
  have hC := hmax.coherente_of_not not_false h.coherente
  have hotro : ∀ pid' cliente, c'.clientes pid' = some cliente →
      pid' ≠ pid ∧ c.clientes pid' = some cliente := by
    intro pid' cliente hcl
    rw [hclientes] at hcl
    by_cases hpid : pid' = pid
    · subst hpid
      rw [update_self] at hcl
      cases hcl
    · rw [update_of_ne hpid] at hcl
      exact ⟨hpid, hcl⟩
  refine
    { coherente := ?_, tidUnico := ?_, estacionados := ?_, ids := ?_
      siguiente := fun pid' cliente hcl => h.siguiente pid' cliente (hotro pid' cliente hcl).2 }
  · rw [heq, registrados_limpiarEstructuras hC]
    exact limpiarEstructuras_coherente hC
  · intro x y i hx hy
    rw [heq] at hx hy
    exact h.tidUnico x y i (identidad_limpiarEstructuras hx) (identidad_limpiarEstructuras hy)
  · intro pid'
    rw [heq]
    by_cases hpid : pid' = pid
    · subst hpid
      simp [limpiarEstructuras]
    · have hmutex : (limpiarEstructuras
          { c.estado with maximoProcesamiento := c.estado.maximoProcesamiento + 1 } pid).enMutex
            pid' = c.estado.enMutex pid' := by
        simp [limpiarEstructuras, hpid]
      rw [hmutex, (contenido_desconectar (.exec pid')).2 hpid]
      refine ⟨(h.estacionados pid').1, fun huno => ?_⟩
      obtain ⟨hexec, l, hl⟩ := (h.estacionados pid').2 huno
      exact ⟨hexec, l, by simp [limpiarEstructuras, Dictionary.get_remove, hpid, hl]⟩
  · intro pid' cliente hcl tid
    obtain ⟨hpid, hcl⟩ := hotro pid' cliente hcl
    rw [heq, existeHilo_limpiarEstructuras hC hpid, ← h.ids pid' cliente hcl]
    exact Iff.rfl

/-- A creation, by a library that numbers its threads. -/
theorem crear {tid : Tid} {basura : ℕ × ℕ} {ahora : ℕ} {cliente : Cliente} (h : Censados c)
    (hcliente : c.clientes pid = some cliente) (hadm : cliente.Admite (.crear pid tid basura ahora))
    (hs : crearHilo env c.estado pid tid basura ahora = .ok c'.estado)
    (hclientes : c'.clientes = update c.clientes pid
      (some (cliente.sigue none (.crear pid tid basura ahora)))) : Censados c' := by
  have hid := identidad_crearHilo hs
  obtain ⟨hnext, hini⟩ := h.siguiente pid cliente hcliente
  have huno : ∀ t : ℤ, 0 ≤ t ∧ t < 1 ↔ t = 0 := fun t => by omega
  have hsucc : ∀ n t : ℤ, 1 ≤ n → (0 ≤ t ∧ t < n + 1 ↔ t = n ∨ 0 ≤ t ∧ t < n) :=
    fun n t hn => by omega
  -- the new id is the first one that no thread has
  have hsigue : ∀ t, (cliente.sigue none (.crear pid tid basura ahora)).HaCreado t ↔
      t = tid ∨ cliente.HaCreado t := by
    intro t
    by_cases hturno : cliente.turno = .iniciando
    · have htid : tid = 0 := by
        rcases hadm with ⟨-, htid⟩ | ⟨⟨tid', hc⟩, -⟩
        · exact htid
        · have hc' : cliente.turno = .corriendo tid' := hc
          rw [hturno] at hc'
          cases hc'
      rw [Cliente.sigue, if_pos hturno, Cliente.HaCreado, Cliente.HaCreado]
      simp only [hturno, hini hturno, ne_eq, reduceCtorEq, not_true_eq_false, not_false_eq_true,
        true_and, false_and, or_false, htid]
      exact huno t
    · have htid : tid = cliente.nextId := by
        rcases hadm with ⟨hc, -⟩ | ⟨-, htid⟩
        · exact absurd hc hturno
        · exact htid
      rw [Cliente.sigue, if_neg hturno, Cliente.HaCreado, Cliente.HaCreado]
      simp only [ne_eq, hturno, not_false_eq_true, true_and, htid]
      exact hsucc _ t hnext
  have hlibre : ∀ p, identidad c.estado p ≠ some (pid, tid) := by
    intro p hp
    obtain ⟨hturno, -, hlt⟩ := (h.ids pid cliente hcliente tid).1 ⟨p, hp⟩
    rcases hadm with ⟨hc, -⟩ | ⟨-, htid⟩
    · exact hturno hc
    · exact hlt.ne htid
  have hfresco : ∀ {x i}, identidad c.estado x = some i → x ≠ c.estado.proximo := by
    rintro x i hx rfl
    rw [h.coherente.fresco _ (le_refl _)] at hx
    cases hx
  have hexiste : ∀ pid' t, ExisteHilo c'.estado pid' t ↔
      (pid' = pid ∧ t = tid) ∨ ExisteHilo c.estado pid' t := by
    intro pid' t
    constructor
    · rintro ⟨x, hx⟩
      rw [hid] at hx
      split_ifs at hx with hxp
      · cases hx
        exact .inl ⟨rfl, rfl⟩
      · exact .inr ⟨x, hx⟩
    · rintro (⟨rfl, rfl⟩ | ⟨x, hx⟩)
      · exact ⟨c.estado.proximo, by rw [hid, if_pos rfl]⟩
      · exact ⟨x, by rw [hid, if_neg (hfresco hx), hx]⟩
  refine
    { coherente := ?_, tidUnico := tidUnico_crearHilo h.tidUnico hlibre hs, estacionados := ?_
      ids := ?_, siguiente := ?_ }
  · have hset : registrados c'.estado = insert c.estado.proximo (registrados c.estado) := by
      ext x
      rw [mem_registrados, Set.mem_insert_iff, mem_registrados, hid]
      split_ifs with hxp
      · simp [hxp]
      · simp [hxp]
    rw [hset]
    exact crearHilo_coherente h.coherente hs
  · obtain ⟨hready, hmutex, -⟩ := tieneReady_crearHilo pid hs
    intro pid'
    rw [hmutex, contenido_crearHilo hs, update_of_ne (by simp), (tieneReady_crearHilo pid' hs).1]
    exact h.estacionados pid'
  · intro pid' cl hcl t
    rw [hclientes] at hcl
    rw [hexiste]
    by_cases hpid : pid' = pid
    · subst hpid
      rw [update_self, Option.some_inj] at hcl
      subst hcl
      rw [hsigue, h.ids pid' cliente hcliente]
      simp
    · rw [update_of_ne hpid] at hcl
      rw [← h.ids pid' cl hcl]
      simp [hpid]
  · intro pid' cl hcl
    rw [hclientes] at hcl
    by_cases hpid : pid' = pid
    · subst hpid
      rw [update_self, Option.some_inj] at hcl
      subst hcl
      rw [Cliente.sigue]
      split_ifs with hturno
      · exact ⟨hnext, fun hc => by cases hc⟩
      · exact ⟨Int.le_add_one hnext, fun hc => absurd hc hturno⟩
    · rw [update_of_ne hpid] at hcl
      exact h.siguiente pid' cl hcl

theorem paso {e : Evento} (h : Censados c) (ha : Atendidos c)
    (hlimpia : ConexionLimpia ⟨c, e, c'⟩) (hs : Conectados.Transicion env c e c') :
    Censados c' := by
  by_cases he : e.Interno
  · exact h.interno ha he hs
  · obtain ⟨hadm, hs, hclientes⟩ := Conectados.paso_ok hs
    cases e with
    | conectar pid => exact h.conectar hs hclientes hlimpia
    | desconectar pid => exact h.desconectar hs hclientes
    | crear pid tid basura ahora =>
        obtain ⟨cliente, hcliente, hadm⟩ := hadm pid rfl
        refine h.crear hcliente hadm hs (hclientes.trans ?_)
        have hmap : (c.clientes pid).map (fun cl : Cliente => cl.sigue none
            (.crear pid tid basura ahora)) =
              some (cliente.sigue none (.crear pid tid basura ahora)) := by
          rw [Option.mem_def.1 hcliente, Option.map_some]
        exact congrArg (update c.clientes pid) hmap
    | _ => exact absurd trivial he

end Censados

theorem iniciarSUSE_censados (cfg : Configuracion) :
    Censados (Conectados.inicial cfg : Conectados E) where
  coherente := by
    have hvacio : registrados (iniciarSUSE cfg : Estado E) = ∅ :=
      Set.eq_empty_iff_forall_notMem.2 fun x hx => hx rfl
    have h := iniciarSUSE_coherente (E := E) cfg
    rw [← hvacio] at h
    exact h
  tidUnico := by
    intro x y i hx
    cases hx
  estacionados := (iniciarSUSE_ordenado cfg).estacionados
  ids := by
    intro pid cliente hcl
    cases hcl
  siguiente := by
    intro pid cliente hcl
    cases hcl

end Suse
