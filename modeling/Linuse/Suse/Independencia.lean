import Linuse.Suse.Ejecucion

/-!
# Joins and the other programs

A join looks for the thread that it waits for in the exit lists of every program, and
thread ids repeat from one program to another. Whether the running thread of a program
waits, and the whole effect of the join on the program, depend on the program alone if and
only if no other program has closed a thread with that id, or the program itself has
(`realizarJoin_independiente_iff`).
-/

namespace Suse

open Fallible
open Function (update update_self update_of_ne)
open Transition

variable {E : Type} {s s' s₁ s₂ : Estado E} {S : Set Puntero} {env : Entorno E} {pid : Pid}
  {tid : Tid}

/-- The threads of a place, by their program and id. -/
def vistaLugar (s : Estado E) (l : Lugar) : List (Option (Pid × Tid)) :=
  (contenido s l).map (identidad s)

/-- The thread is in the exit list of its program. -/
def Termino (s : Estado E) (pid : Pid) (tid : Tid) : Prop :=
  some (pid, tid) ∈ vistaLugar s (.exit pid)

instance (s : Estado E) (pid : Pid) (tid : Tid) : Decidable (Termino s pid tid) :=
  inferInstanceAs (Decidable (_ ∈ _))

theorem not_termino_of_toList
    (h : ∀ e ∈ s.diccionarioDeListasDeExit.toList, some (e.1, tid) ∉ e.2.map (identidad s))
    (pid : Pid) : ¬ Termino s pid tid := by
  rw [Termino, vistaLugar, contenido]
  cases hget : s.diccionarioDeListasDeExit.get pid with
  | none => exact List.not_mem_nil
  | some l => exact h (pid, l) ((Dictionary.mem_toList _ _ _).2 hget)

/-- The states have the same threads in the places of the program and the same counters and
flags in its record. -/
structure Coinciden (s₁ s₂ : Estado E) (pid : Pid) : Prop where
  lugares : ∀ l : Lugar, l.DelPrograma pid → vistaLugar s₁ l = vistaLugar s₂ l
  registro : ((s₁.diccionarioDeProgramas.get pid).map fun p =>
      { p with exec := none, blocked := .empty }) =
    (s₂.diccionarioDeProgramas.get pid).map fun p => { p with exec := none, blocked := .empty }

/-- The running thread of the program has gone to the join list of the thread. -/
def Espera (s s' : Estado E) (pid : Pid) (tid : Tid) : Prop :=
  contenido s' (.exec pid) = [] ∧
    contenido s' (.join pid tid) = contenido s (.join pid tid) ++ contenido s (.exec pid)

/-- In both states the running thread waits exactly when the other one has not closed, as
its own program knows, and what the program has afterwards is the same in both. -/
def JoinIndependiente (s₁ s₂ : Estado E) (pid : Pid) (tid : Tid) : Prop :=
  ∃ s₁' s₂', realizarJoin s₁ pid tid = .ok s₁' ∧ realizarJoin s₂ pid tid = .ok s₂' ∧
    (Espera s₁ s₁' pid tid ↔ ¬ Termino s₁ pid tid) ∧
    (Espera s₂ s₂' pid tid ↔ ¬ Termino s₂ pid tid) ∧ Coinciden s₁' s₂' pid

/-- The thread has closed, or no thread of another program with its id has. -/
def SinHomonimos (s : Estado E) (pid : Pid) (tid : Tid) : Prop :=
  Termino s pid tid ∨ ∀ pid', pid' ≠ pid → ¬ Termino s pid' tid

/-! ## What is looked at -/

theorem tieneTid_iff {x : Puntero} :
    tieneTid s tid x = true ↔ ∃ pid, identidad s x = some (pid, tid) := by
  rw [tieneTid, identidad]
  cases s.hilos x with
  | none => simp
  | some h => simp

/-- The search goes through the exit lists of all the programs. -/
theorem terminoElHilo_iff (hC : Coherente s S) :
    terminoElHilo s tid = true ↔ ∃ pid, Termino s pid tid := by
  simp only [terminoElHilo, List.any_eq_true, tieneTid_iff]
  constructor
  · rintro ⟨e, he, x, hx, pid, hid⟩
    have hcont : x ∈ contenido s (.exit e.1) := by
      rw [contenido, (Dictionary.mem_toList _ _ _).1 he]
      exact hx
    obtain ⟨pid', tid', hid', hde⟩ := hC.propio x _ hcont
    rw [hid] at hid'
    cases hid'
    have hpid : e.1 = pid := hde
    rw [hpid] at hcont
    exact ⟨pid, List.mem_map.2 ⟨x, hcont, hid⟩⟩
  · rintro ⟨pid, h⟩
    obtain ⟨x, hx, hid⟩ := List.mem_map.1 h
    cases hlista : s.diccionarioDeListasDeExit.get pid with
    | none =>
        rw [contenido, hlista] at hx
        cases hx
    | some lista =>
        rw [contenido, hlista] at hx
        exact ⟨(pid, lista), (Dictionary.mem_toList _ _ _).2 hlista, x, hx, pid, hid⟩

theorem terminoElHilo_iff_of_sinHomonimos (hC : Coherente s S) (h : SinHomonimos s pid tid) :
    terminoElHilo s tid = true ↔ Termino s pid tid := by
  rw [terminoElHilo_iff hC]
  refine ⟨fun hexiste => ?_, fun htermino => ⟨pid, htermino⟩⟩
  obtain ⟨pid', htermino⟩ := hexiste
  rcases h with hpropio | hajeno
  · exact hpropio
  · by_cases hpid : pid' = pid
    · exact hpid ▸ htermino
    · exact absurd htermino (hajeno pid' hpid)

/-- Whether a thread waits already can be seen in the join lists of its program. -/
theorem bloqueadoPorAlgunHilo_iff {p : Programa}
    (hp : s.diccionarioDeProgramas.get pid = some p) {t : Tid} :
    bloqueadoPorAlgunHilo s p t = true ↔
      ∃ tid pid', some (pid', t) ∈ vistaLugar s (.join pid tid) := by
  simp only [bloqueadoPorAlgunHilo, List.any_eq_true, tieneTid_iff, vistaLugar, List.mem_map,
    contenido_join hp]
  constructor
  · rintro ⟨e, he, x, hx, pid', hid⟩
    refine ⟨e.1, pid', x, ?_, hid⟩
    rw [(Dictionary.mem_toList _ _ _).1 he]
    exact hx
  · rintro ⟨tid, pid', x, hx, hid⟩
    cases hlista : p.blocked.get tid with
    | none =>
        rw [hlista] at hx
        cases hx
    | some lista =>
        rw [hlista] at hx
        exact ⟨(tid, lista), (Dictionary.mem_toList _ _ _).2 hlista, x, hx, pid', hid⟩

/-! ## What a join does -/

/-- A program with a running thread, the record of the thread and its identity. -/
theorem enEjecucion (hC : Coherente s S) (h : contenido s (.exec pid) ≠ []) :
    ∃ p x hilo, s.diccionarioDeProgramas.get pid = some p ∧ p.exec = some x ∧
      s.hilos x = some hilo ∧ hilo.pid = pid ∧ contenido s (.exec pid) = [x] := by
  cases hp : s.diccionarioDeProgramas.get pid with
  | none => exact absurd (by rw [contenido, hp]; rfl) h
  | some p =>
      cases hexec : p.exec with
      | none => exact absurd (by rw [contenido_exec hp, hexec]; rfl) h
      | some x =>
          have hmem := mem_exec hp hexec
          have hx : x ∈ contenido s (.exec pid) := hmem ▸ List.mem_singleton_self x
          obtain ⟨pid', tid', hid, -⟩ := hC.propio x _ hx
          rw [identidad, Option.map_eq_some_iff] at hid
          obtain ⟨hilo, hhilo, -⟩ := hid
          have hde : pid = hilo.pid := hC.identidad_of_mem hx hhilo
          exact ⟨p, x, hilo, rfl, hexec, hhilo, hde.symm, hmem⟩

/-- The record that a join leaves when the thread has to wait. -/
def trasJoin (s : Estado E) (p : Programa) (x : Puntero) (hilo : Hilo E) (tid : Tid) : Programa :=
  { ponerEnBlockedPorHilo p x tid with
    cantidadDeHilosEnBlocked :=
      if bloqueadoPorAlgunHilo s p hilo.tid then p.cantidadDeHilosEnBlocked
      else p.cantidadDeHilosEnBlocked + 1
    exec := none }

theorem realizarJoin_espera {p : Programa} {x : Puntero} {hilo : Hilo E}
    (hp : s.diccionarioDeProgramas.get pid = some p) (hx : p.exec = some x)
    (hhilo : s.hilos x = some hilo) (hno : terminoElHilo s tid = false) :
    realizarJoin s pid tid = .ok (s.ponerPrograma pid (trasJoin s p x hilo tid)) := by
  rw [realizarJoin, hp]
  dsimp only
  rw [hx]
  dsimp only
  rw [hno, hhilo]
  rfl

theorem realizarJoin_ignora {p : Programa} {x : Puntero}
    (hp : s.diccionarioDeProgramas.get pid = some p) (hx : p.exec = some x)
    (htermino : terminoElHilo s tid = true) : realizarJoin s pid tid = .ok s := by
  rw [realizarJoin, hp]
  dsimp only
  rw [hx]
  dsimp only
  rw [htermino]
  rfl

theorem contenido_trasJoin {p : Programa} {x : Puntero} {hilo : Hilo E}
    (hp : s.diccionarioDeProgramas.get pid = some p) :
    contenido (s.ponerPrograma pid (trasJoin s p x hilo tid)) =
      update (update (contenido s) (.exec pid) []) (.join pid tid)
        (contenido s (.join pid tid) ++ [x]) := by
  rw [contenido_ponerPrograma_put tid ((p.blocked.get tid).getD [] ++ [x]) hp rfl,
    contenido_join hp]
  rfl

/-- The thread that runs waits exactly when the search does not find the other one. -/
theorem espera_iff (hC : Coherente s S) (hexec : contenido s (.exec pid) ≠ []) :
    ∃ s', realizarJoin s pid tid = .ok s' ∧
      (Espera s s' pid tid ↔ terminoElHilo s tid = false) := by
  obtain ⟨p, x, hilo, hp, hx, hhilo, -, hmem⟩ := enEjecucion hC hexec
  cases htermino : terminoElHilo s tid with
  | false =>
      refine ⟨_, realizarJoin_espera hp hx hhilo htermino, iff_of_true ?_ rfl⟩
      rw [Espera, contenido_trasJoin hp, update_of_ne (by simp), update_self, update_self, hmem]
      exact ⟨rfl, rfl⟩
  | true =>
      refine ⟨s, realizarJoin_ignora hp hx htermino, iff_of_false ?_ (by simp)⟩
      exact fun h => hexec h.1

/-! ## The same program in two states -/

/-- The join list of the thread, and the program without a running thread; its other places
are as they were. -/
theorem vistaLugar_trasJoin {p : Programa} {x : Puntero} {hilo : Hilo E} {l : Lugar}
    (hp : s.diccionarioDeProgramas.get pid = some p) :
    vistaLugar (s.ponerPrograma pid (trasJoin s p x hilo tid)) l =
      if l = .join pid tid then vistaLugar s l ++ [identidad s x]
      else if l = .exec pid then [] else vistaLugar s l := by
  have hid : identidad (s.ponerPrograma pid (trasJoin s p x hilo tid)) = identidad s := rfl
  rw [vistaLugar, vistaLugar, hid, contenido_trasJoin hp]
  split_ifs with hjoin hexec
  · rw [hjoin, update_self, List.map_append]
    rfl
  · rw [update_of_ne hjoin, hexec, update_self]
    rfl
  · rw [update_of_ne hjoin, update_of_ne hexec]

/-- Programs that agree do the same when their running threads have to wait. -/
theorem Coinciden.trasJoin (h : Coinciden s₁ s₂ pid) {p₁ p₂ : Programa} {x₁ x₂ : Puntero}
    {hilo₁ hilo₂ : Hilo E} (hp₁ : s₁.diccionarioDeProgramas.get pid = some p₁)
    (hp₂ : s₂.diccionarioDeProgramas.get pid = some p₂) (hhilo₁ : s₁.hilos x₁ = some hilo₁)
    (hhilo₂ : s₂.hilos x₂ = some hilo₂) (hid : identidad s₁ x₁ = identidad s₂ x₂) :
    Coinciden (s₁.ponerPrograma pid (trasJoin s₁ p₁ x₁ hilo₁ tid))
      (s₂.ponerPrograma pid (trasJoin s₂ p₂ x₂ hilo₂ tid)) pid where
  lugares l hl := by
    rw [vistaLugar_trasJoin hp₁, vistaLugar_trasJoin hp₂, h.lugares l hl, hid]
  registro := by
    have hregistro := h.registro
    rw [hp₁, hp₂, Option.map_some, Option.map_some, Option.some_inj] at hregistro
    have hbloqueado : bloqueadoPorAlgunHilo s₁ p₁ hilo₁.tid =
        bloqueadoPorAlgunHilo s₂ p₂ hilo₂.tid := by
      rw [identidad_eq hhilo₁, identidad_eq hhilo₂, Option.some_inj, Prod.mk.injEq] at hid
      rw [Bool.eq_iff_iff, bloqueadoPorAlgunHilo_iff hp₁, bloqueadoPorAlgunHilo_iff hp₂, hid.2]
      simp only [h.lugares (.join pid _) rfl]
    simp only [Estado.ponerPrograma_diccionarioDeProgramas, Dictionary.get_put_self,
      Option.map_some, Option.some_inj]
    rw [Programa.mk.injEq] at hregistro
    obtain ⟨hbloq, hmutex, hpid, -, -, hnew, hready, hblocked, htiempo⟩ := hregistro
    simp only [Suse.trasJoin, ponerEnBlockedPorHilo, hbloqueado, hbloq, hmutex, hpid, hnew, hready,
      hblocked, htiempo]

theorem Coinciden.termino_iff (h : Coinciden s₁ s₂ pid) :
    Termino s₁ pid tid ↔ Termino s₂ pid tid := by
  rw [Termino, Termino, h.lugares (.exit pid) rfl]

theorem Coinciden.exec_ne_nil (h : Coinciden s₁ s₂ pid) (hexec : contenido s₁ (.exec pid) ≠ []) :
    contenido s₂ (.exec pid) ≠ [] := by
  intro hvacio
  have hvista := h.lugares (.exec pid) rfl
  rw [vistaLugar, vistaLugar, hvacio, List.map_nil, List.map_eq_nil_iff] at hvista
  exact hexec hvista

/-- The running thread waits as its own program would decide exactly when the search is not
misled by another program. -/
theorem espera_propia_iff (hC : Coherente s S) (hexec : contenido s (.exec pid) ≠ []) :
    (∃ s', realizarJoin s pid tid = .ok s' ∧ (Espera s s' pid tid ↔ ¬ Termino s pid tid)) ↔
      SinHomonimos s pid tid := by
  obtain ⟨s', hs', hespera⟩ : ∃ s', realizarJoin s pid tid = .ok s' ∧
      (Espera s s' pid tid ↔ terminoElHilo s tid = false) := espera_iff hC hexec
  constructor
  · rintro ⟨s'', hs'', hpropia⟩
    rw [hs', Except.ok.injEq] at hs''
    subst hs''
    by_cases htermino : Termino s pid tid
    · exact .inl htermino
    · have hno := hespera.1 (hpropia.2 htermino)
      refine .inr fun pid' _ hajeno => ?_
      rw [(terminoElHilo_iff hC).2 ⟨pid', hajeno⟩] at hno
      cases hno
  · intro h
    refine ⟨s', hs', ?_⟩
    rw [hespera, ← terminoElHilo_iff_of_sinHomonimos hC h, Bool.not_eq_true]

/-- A join depends on its own program alone, in two reachable states in which the program is
the same, exactly when in neither of them another program has closed a thread with the id
that the program still has to wait for. -/
theorem realizarJoin_independiente_iff (env : Entorno E) (c₁ c₂ : Configuracion)
    {tr₁ tr₂ : List (Step (Estado E) Evento)}
    (hrun₁ : Run (Transicion env) (iniciarSUSE c₁) tr₁ s₁)
    (hrun₂ : Run (Transicion env) (iniciarSUSE c₂) tr₂ s₂) (pid : Pid) (tid : Tid)
    (hexec : contenido s₁ (.exec pid) ≠ []) (h : Coinciden s₁ s₂ pid) :
    JoinIndependiente s₁ s₂ pid tid ↔ SinHomonimos s₁ pid tid ∧ SinHomonimos s₂ pid tid := by
  obtain ⟨S₁, hC₁⟩ := coherente_of_run hrun₁
  obtain ⟨S₂, hC₂⟩ := coherente_of_run hrun₂
  have hexec₂ := h.exec_ne_nil hexec
  constructor
  · rintro ⟨s₁', s₂', hs₁', hs₂', hespera₁, hespera₂, -⟩
    exact ⟨(espera_propia_iff hC₁ hexec).1 ⟨s₁', hs₁', hespera₁⟩,
      (espera_propia_iff hC₂ hexec₂).1 ⟨s₂', hs₂', hespera₂⟩⟩
  · rintro ⟨h₁, h₂⟩
    obtain ⟨s₁', hs₁', hespera₁⟩ := (espera_propia_iff hC₁ hexec).2 h₁
    obtain ⟨s₂', hs₂', hespera₂⟩ := (espera_propia_iff hC₂ hexec₂).2 h₂
    refine ⟨s₁', s₂', hs₁', hs₂', hespera₁, hespera₂, ?_⟩
    obtain ⟨p₁, x₁, hilo₁, hp₁, hx₁, hhilo₁, -, hmem₁⟩ := enEjecucion hC₁ hexec
    obtain ⟨p₂, x₂, hilo₂, hp₂, hx₂, hhilo₂, -, hmem₂⟩ := enEjecucion hC₂ hexec₂
    have hmismo : terminoElHilo s₁ tid = terminoElHilo s₂ tid := by
      rw [Bool.eq_iff_iff, terminoElHilo_iff_of_sinHomonimos hC₁ h₁, h.termino_iff,
        terminoElHilo_iff_of_sinHomonimos hC₂ h₂]
    cases htermino : terminoElHilo s₂ tid with
    | false =>
        rw [realizarJoin_espera hp₁ hx₁ hhilo₁ (hmismo.trans htermino), Except.ok.injEq] at hs₁'
        rw [realizarJoin_espera hp₂ hx₂ hhilo₂ htermino, Except.ok.injEq] at hs₂'
        subst hs₁' hs₂'
        have hid := h.lugares (.exec pid) rfl
        rw [vistaLugar, vistaLugar, hmem₁, hmem₂, List.map_singleton, List.map_singleton,
          List.cons.injEq] at hid
        exact h.trasJoin hp₁ hp₂ hhilo₁ hhilo₂ hid.1
    | true =>
        rw [realizarJoin_ignora hp₁ hx₁ (hmismo.trans htermino), Except.ok.injEq] at hs₁'
        rw [realizarJoin_ignora hp₂ hx₂ htermino, Except.ok.injEq] at hs₂'
        subst hs₁' hs₂'
        exact h

/-! ## Two programs -/

/-- Program 5 has the threads 0 and 1, of which 0 runs; program 6 closes its thread 1. -/
def cierraOtro : List Evento :=
  [.conectar 5, .conectar 6, .crear 5 0 (0, 0) 10, .tomar, .admitir 10, .crear 5 1 (0, 0) 11,
    .crear 6 1 (0, 0) 12, .tomar, .admitir 13, .tomar, .admitir 14, .close 6 1 15]

/-- The state after these events. -/
def cerradoOtro : Estado ℚ := final (paso entornoRacional) (iniciarSUSE ⟨5, []⟩) cierraOtro

theorem alcanza_cerradoOtro : Run (Transicion entornoRacional) (iniciarSUSE ⟨5, []⟩)
    (trace (paso entornoRacional) (iniciarSUSE ⟨5, []⟩) cierraOtro) cerradoOtro :=
  Run.execute (paso entornoRacional) cierraOtro (by decide)

theorem Coinciden.refl (s : Estado E) (pid : Pid) : Coinciden s s pid := ⟨fun _ _ => rfl, rfl⟩

/-- Program 5 does the same, and there is no other one. -/
def soloUno : List Evento :=
  [.conectar 5, .crear 5 0 (0, 0) 10, .tomar, .admitir 10, .crear 5 1 (0, 0) 11, .tomar,
    .admitir 13]

/-- The state after these events. -/
def sinOtro : Estado ℚ := final (paso entornoRacional) (iniciarSUSE ⟨5, []⟩) soloUno

theorem alcanza_sinOtro : Run (Transicion entornoRacional) (iniciarSUSE ⟨5, []⟩)
    (trace (paso entornoRacional) (iniciarSUSE ⟨5, []⟩) soloUno) sinOtro :=
  Run.execute (paso entornoRacional) soloUno (by decide)

theorem coinciden_sinOtro : Coinciden cerradoOtro sinOtro 5 where
  lugares l hl := by
    cases l with
    | new => exact hl.elim
    | mano => exact hl.elim
    | semaforo semID => exact hl.elim
    | ready pid =>
        obtain rfl : pid = 5 := hl
        decide
    | exec pid =>
        obtain rfl : pid = 5 := hl
        decide
    | exit pid =>
        obtain rfl : pid = 5 := hl
        decide
    | join pid tid =>
        obtain rfl : pid = 5 := hl
        rfl
  registro := rfl

/-- Nobody has closed a thread 7; program 6 has closed a thread 1, and program 5 has not. -/
theorem realizarJoin_independiente_iff_cerradoOtro :
    JoinIndependiente cerradoOtro sinOtro 5 7 ∧ ¬ JoinIndependiente cerradoOtro sinOtro 5 1 := by
  have hiff (tid : Tid) := realizarJoin_independiente_iff entornoRacional ⟨5, []⟩ ⟨5, []⟩
    alcanza_cerradoOtro alcanza_sinOtro 5 tid (by decide) coinciden_sinOtro
  constructor
  · exact (hiff 7).2 ⟨.inr fun pid' _ => not_termino_of_toList (by decide) pid',
      .inr fun pid' _ => not_termino_of_toList (by decide) pid'⟩
  · intro h
    rcases ((hiff 1).1 h).1 with hpropio | hajeno
    · exact absurd hpropio (by decide)
    · exact hajeno 6 (by decide) (by decide)

/-- Thread 0 of program 5 does not wait for thread 1 of its program, which is ready, since
program 6 has closed its own thread 1. -/
theorem not_realizarJoin_independiente :
    ¬ ∀ (env : Entorno ℚ) (c₁ c₂ : Configuracion) (tr₁ tr₂ : List (Step (Estado ℚ) Evento))
      (s₁ s₂ : Estado ℚ) (pid : Pid) (tid : Tid),
      Run (Transicion env) (iniciarSUSE c₁) tr₁ s₁ → Run (Transicion env) (iniciarSUSE c₂) tr₂ s₂ →
        contenido s₁ (.exec pid) ≠ [] → Coinciden s₁ s₂ pid → JoinIndependiente s₁ s₂ pid tid := by
  intro hclaim
  obtain ⟨s', -, hs', -, hespera, -⟩ := hclaim entornoRacional ⟨5, []⟩ ⟨5, []⟩ _ _ cerradoOtro
    cerradoOtro 5 1 alcanza_cerradoOtro alcanza_cerradoOtro (by decide) (.refl _ 5)
  obtain ⟨S, hC⟩ := coherente_of_run alcanza_cerradoOtro
  have hexit : vistaLugar cerradoOtro (.exit 5) = [] := rfl
  have hexit' : vistaLugar cerradoOtro (.exit 6) = [some (6, 1)] := rfl
  rcases (espera_propia_iff hC (by decide)).1 ⟨s', hs', hespera⟩ with hpropio | hajeno
  · rw [Termino, hexit] at hpropio
    cases hpropio
  · refine hajeno 6 (by decide) ?_
    rw [Termino, hexit']
    exact List.mem_singleton_self _

end Suse
