import Linuse.Suse.Despertar

/-!
# What a parked program notices

A program whose `schedule_next` waits at its mutex depends on three things: its
two flags, having no running thread, and its ready list. `Ajeno pid s s'` says
that a step leaves them as they are for the program `pid`. The messages, the
metrics and the parts of `schedule_next` that do not choose a thread are foreign
to every program; `pasarAReady` and the choice of the next thread are foreign to
every program but one.
-/

namespace Suse

open Function (update update_self update_of_ne)
open Fallible

variable {E : Type} {s s' s'' : Estado E} {S : Set Puntero}

/-- `estaBloqueado`, and whether `mutexPrograma` is locked. -/
def Programa.banderas (p : Programa) : Bool × Bool := (p.estaBloqueado, p.mutexTomado)

def banderas (s : Estado E) (pid : Pid) : Option (Bool × Bool) :=
  (s.diccionarioDeProgramas.get pid).map Programa.banderas

/-- The program got to ready once and has no running thread. -/
structure Parado (s : Estado E) (pid : Pid) : Prop where
  conReady : tieneReady s pid
  sinExec : contenido s (.exec pid) = []

structure Ajeno (pid : Pid) (s s' : Estado E) : Prop where
  banderas : banderas s' pid = banderas s pid
  parado : Parado s pid → Parado s' pid
  ready : Parado s pid → (contenido s' (.ready pid) = [] ↔ contenido s (.ready pid) = [])

theorem banderas_eq {pid : Pid} {p : Programa}
    (hp : s.diccionarioDeProgramas.get pid = some p) : banderas s pid = some p.banderas := by
  rw [banderas, hp]
  rfl

theorem banderas_ponerPrograma (s : Estado E) (pid : Pid) (q : Programa) :
    banderas (s.ponerPrograma pid q) = update (banderas s) pid (some q.banderas) := by
  funext pid'
  by_cases h : pid' = pid
  · subst h
    simp [banderas]
  · simp [banderas, Dictionary.get_put_of_ne _ _ h, h]

theorem banderas_ponerPrograma_eq {pid : Pid} {p q : Programa}
    (hp : s.diccionarioDeProgramas.get pid = some p) (hq : q.banderas = p.banderas) :
    banderas (s.ponerPrograma pid q) = banderas s := by
  rw [banderas_ponerPrograma, hq, ← banderas_eq hp, Function.update_eq_self]

namespace Ajeno

variable {pid : Pid}

theorem refl (pid : Pid) (s : Estado E) : Ajeno pid s s :=
  ⟨rfl, fun h => h, fun _ => Iff.rfl⟩

theorem trans (h : Ajeno pid s s') (h' : Ajeno pid s' s'') : Ajeno pid s s'' where
  banderas := h'.banderas.trans h.banderas
  parado := fun hp => h'.parado (h.parado hp)
  ready := fun hp => (h'.ready (h.parado hp)).trans (h.ready hp)

/-- A step that leaves the record and the ready list of the program alone. -/
theorem of_get_eq
    (hprog : s'.diccionarioDeProgramas.get pid = s.diccionarioDeProgramas.get pid)
    (hready : s'.diccionarioDeListasDeReady.get pid = s.diccionarioDeListasDeReady.get pid) :
    Ajeno pid s s' := by
  have hparado : Parado s pid → Parado s' pid := by
    rintro ⟨⟨l, hl⟩, hexec⟩
    constructor
    · exact ⟨l, hready.trans hl⟩
    · simpa [contenido, hprog] using hexec
  refine ⟨?_, hparado, fun _ => ?_⟩
  · rw [Suse.banderas, hprog, ← Suse.banderas]
  · simp only [contenido, hready]

/-- Writing a program with its flags kept, and its `exec` kept or emptied. -/
theorem ponerPrograma {p q : Programa} (pid' : Pid)
    (hp : s.diccionarioDeProgramas.get pid = some p) (hq : q.banderas = p.banderas)
    (hexec : q.exec = p.exec ∨ q.exec = none) : Ajeno pid' s (s.ponerPrograma pid q) where
  banderas := congrFun (banderas_ponerPrograma_eq hp hq) pid'
  parado := by
    rintro ⟨hready, hvacio⟩
    refine ⟨hready, ?_⟩
    by_cases hpid : pid' = pid
    · subst hpid
      rw [contenido_exec hp] at hvacio
      rcases hexec with he | he
      · simp [contenido, he, hvacio]
      · simp [contenido, he]
    · simpa [contenido, Dictionary.get_put_of_ne _ _ hpid] using hvacio
  ready := fun _ => Iff.rfl

end Ajeno

/-- A parked program stays so when its flags are written. -/
theorem Parado.ponerPrograma {pid : Pid} {p q : Programa} (h : Parado s pid)
    (hp : s.diccionarioDeProgramas.get pid = some p) (hexec : q.exec = p.exec) :
    Parado (s.ponerPrograma pid q) pid := by
  refine ⟨h.conReady, ?_⟩
  have hvacio := h.sinExec
  rw [contenido_exec hp] at hvacio
  simp [contenido, hexec, hvacio]

theorem SoloTiempos.ajeno (h : SoloTiempos s s') (pid : Pid) : Ajeno pid s s' where
  banderas := by
    have hsin : Programa.banderas ∘ Programa.sinTiempo = Programa.banderas := rfl
    have hmap := congrArg (Option.map Programa.banderas) (h.programas pid)
    rwa [Option.map_map, Option.map_map, hsin] at hmap
  parado := by
    rintro ⟨hready, hvacio⟩
    exact ⟨h.quieto.conReady pid hready, h.contenido ▸ hvacio⟩
  ready := fun _ => by rw [h.contenido]

/-! ## Messages -/

theorem crearHilo_ajeno {env : Entorno E} {pid : Pid} {tid : Tid} {basura : ℕ × ℕ}
    {ahora : ℕ} (h : crearHilo env s pid tid basura ahora = .ok s') (pid' : Pid) :
    Ajeno pid' s s' := by
  obtain ⟨p, hp, rfl⟩ := crearHilo_ok h
  have hnuevo : Ajeno pid' s { s with
      hilos := update s.hilos s.proximo (some (hiloNuevo env pid tid basura ahora))
      proximo := s.proximo + 1
      new := s.new ++ [s.proximo]
      hayNuevos := s.hayNuevos + 1 } := .of_get_eq rfl rfl
  exact hnuevo.trans (.ponerPrograma pid' hp rfl (Or.inl rfl))

theorem semSuseWait_ajeno {pid : Pid} {tid : Tid} {semID : String}
    (h : semSuseWait s pid tid semID = .ok s') (pid' : Pid) : Ajeno pid' s s' := by
  rcases semSuseWait_ok h with
    ⟨-, rfl⟩ | ⟨sem, -, ⟨-, rfl⟩ | ⟨-, p, exec, hilo, cola, hp, -, -, -, -, rfl⟩⟩
  · exact .refl _ _
  · exact .of_get_eq rfl rfl
  · have hcola : Ajeno pid' s (s.ponerBlockedPorSemaforo semID (cola ++ [exec])) :=
      .of_get_eq rfl rfl
    exact hcola.trans (.ponerPrograma pid' hp rfl (Or.inr rfl))

theorem realizarJoin_ajeno {pid : Pid} {tidAEsperar : Tid}
    (h : realizarJoin s pid tidAEsperar = .ok s') (pid' : Pid) : Ajeno pid' s s' := by
  rcases realizarJoin_ok h with rfl | ⟨p, exec, hilo, cantidad, hp, -, -, rfl⟩
  · exact .refl _ _
  · exact .ponerPrograma pid' hp rfl (Or.inr rfl)

/-- Releasing threads that wait for a thread of the program `pid` concerns no
other program: those threads are its own. -/
theorem liberarLista_ajeno {pid : Pid} {tid : Tid} {ahora : ℕ} (lista : List Puntero)
    (hlista : ∀ x ∈ lista, ∃ tid', identidad s x = some (pid, tid'))
    (h : liberarLista pid tid ahora lista s = .ok s') :
    banderas s' = banderas s ∧ ∀ pid' ≠ pid, Ajeno pid' s s' := by
  induction lista generalizing s with
  | nil =>
      cases h
      exact ⟨rfl, fun pid' _ => .refl pid' _⟩
  | cons x resto ih =>
      obtain ⟨p, hilo, q, hp, hh, hq, hcaso⟩ := liberarLista_cons_ok h
      obtain ⟨tid', hid⟩ := hlista x List.mem_cons_self
      rw [identidad_eq hh, Option.some_inj, Prod.mk.injEq] at hid
      have hpid : hilo.pid = pid := hid.1
      subst hpid
      have hband₁ : banderas (sacarDeLista s hilo.pid tid p resto) = banderas s :=
        banderas_ponerPrograma_eq hp rfl
      have hresto : ∀ y ∈ resto, ∃ tid', identidad s y = some (hilo.pid, tid') :=
        fun y hy => hlista y (List.mem_cons_of_mem _ hy)
      rcases hcaso with ⟨-, h⟩ | ⟨l, -, -, h⟩
      · obtain ⟨hband, hajeno⟩ := ih (s := sacarDeLista s hilo.pid tid p resto) hresto h
        refine ⟨hband.trans hband₁, fun pid' hne => ?_⟩
        refine Ajeno.trans ?_ (hajeno pid' hne)
        exact .ponerPrograma pid' hp rfl (Or.inl rfl)
      · have hid' : ∀ y, identidad (s.ponerHilo x { hilo with timestampReady := ahora }) y =
            identidad s y := identidad_ponerHilo hh rfl rfl
        obtain ⟨hband, hajeno⟩ := ih (fun y hy => (hid' y).symm ▸ hresto y hy) h
        have hband₂ := banderas_ponerPrograma_eq (q := { q with
          cantidadDeHilosEnBlocked := q.cantidadDeHilosEnBlocked - 1
          cantidadDeHilosEnReady := q.cantidadDeHilosEnReady + 1 }) hq rfl
        refine ⟨hband.trans (hband₂.trans hband₁), fun pid' hne => ?_⟩
        refine Ajeno.trans (.of_get_eq ?_ ?_) (hajeno pid' hne)
        · simp [sacarDeLista, Dictionary.get_put_of_ne _ _ hne]
        · simp [sacarDeLista, Dictionary.get_put_of_ne _ _ hne]

theorem realizarClose_ajeno {pid : Pid} {tid : Tid} {ahora : ℕ} (hC : Coherente s S)
    (h : realizarClose s pid tid ahora = .ok s') (pid' : Pid) : Ajeno pid' s s' := by
  obtain ⟨p, x, hilo, hp, hexec, hh, ⟨-, rfl⟩ | ⟨-, s₁, p₁, hs₁, hp₁, h⟩⟩ :=
    realizarClose_ok h
  · exact .refl _ _
  · obtain ⟨hquieto₁, hcont₁, -⟩ := pasarAExit_mueve hC hp hexec hs₁ hp₁
    obtain ⟨hilo', t, hh', ht, rfl⟩ := pasarAExit_ok hs₁
    obtain ⟨hilo₂, p₂, hh₂, hp₂, h⟩ := liberarBloqueadosPorElHilo_ok h
    have hmem := mem_exec hp hexec
    have hx : x ∈ contenido s (.exec pid) := by simp [hmem]
    have hpid : hilo₂.pid = pid := by
      obtain ⟨pid₀, tid₀, hid, hde⟩ := hC.propio x _ hx
      rw [← hquieto₁.identidad x, identidad_eq hh₂, Option.some_inj, Prod.mk.injEq] at hid
      exact hid.1.trans hde.symm
    have hsalida : Ajeno pid' s ({ t with
        maximoProcesamiento := t.maximoProcesamiento + 1 }.ponerPrograma pid
          { p₁ with exec := none }) := by
      have hexit : Ajeno pid' s (ponerEnExit s hilo'.pid x) := .of_get_eq rfl rfl
      have hmax : Ajeno pid' t { t with maximoProcesamiento := t.maximoProcesamiento + 1 } :=
        .of_get_eq rfl rfl
      exact ((hexit.trans (ht.ajeno pid')).trans hmax).trans
        (.ponerPrograma pid' hp₁ rfl (Or.inr rfl))
    obtain ⟨hband, hajeno⟩ := liberarLista_ajeno _ (by
      intro y hy
      have hy' : y ∈ contenido s (.join hilo₂.pid hilo₂.tid) := by
        have hjoin : _ = (p₂.blocked.get hilo₂.tid).getD [] := contenido_join hp₂
        rw [hcont₁, update_of_ne (by simp), update_of_ne (by simp)] at hjoin
        rwa [hjoin]
      obtain ⟨pid₀, tid₀, hid, hde⟩ := hC.propio y _ hy'
      refine ⟨tid₀, ?_⟩
      rw [hquieto₁.identidad, hid, show hilo₂.pid = pid₀ from hde]) h
    by_cases hne : pid' = pid
    · -- the program had a running thread
      subst hne
      have hno : ¬ Parado s pid' := fun hparado => by simp [hparado.sinExec] at hx
      constructor
      · rw [hband, hsalida.banderas]
      · exact fun hparado => absurd hparado hno
      · exact fun hparado => absurd hparado hno
    · exact hsalida.trans (hajeno pid' (hpid ▸ hne))

theorem conectar_ajeno {pid pid' : Pid} (hne : pid' ≠ pid) :
    Ajeno pid' s (crearPrograma s pid) :=
  .of_get_eq (by simp [crearPrograma, Dictionary.get_put_of_ne _ _ hne]) rfl

/-- A message concerns no program but the one that it connects. -/
theorem mensaje_ajeno {env : Entorno E} {e : Evento} (hC : Coherente s S)
    (he : e.esMensaje = true) (h : paso env s e = .ok s') (pid : Pid) :
    Ajeno pid s s' ∨ (banderas s pid = none ∧ banderas s' pid = some (false, true)) := by
  cases e with
  | conectar pid' =>
      obtain ⟨hp, rfl⟩ := paso_conectar h
      by_cases hpid : pid = pid'
      · subst hpid
        right
        simp [banderas, hp, crearPrograma, Programa.banderas]
      · exact Or.inl (conectar_ajeno hpid)
  | crear pid' tid basura ahora => exact Or.inl (crearHilo_ajeno h pid)
  | wait pid' tid semID => exact Or.inl (semSuseWait_ajeno h pid)
  | join pid' tidAEsperar => exact Or.inl (realizarJoin_ajeno h pid)
  | close pid' tid ahora => exact Or.inl (realizarClose_ajeno hC h pid)
  | _ => cases he

/-! ## Ready lists -/

theorem replanificarHilos_ajeno {env : Entorno E} {pid : Pid}
    (h : replanificarHilos env s pid = .ok s') (pid' : Pid) : Ajeno pid' s s' := by
  obtain ⟨l, l', hl, hperm, rfl⟩ := replanificarHilos_ok h
  by_cases hpid : pid' = pid
  · subst hpid
    refine ⟨rfl, ?_, fun _ => ?_⟩
    · rintro ⟨-, hvacio⟩
      refine ⟨(tieneReady_ponerReady pid').2 (Or.inl rfl), ?_⟩
      rwa [contenido_ponerReady, update_of_ne (by simp)]
    · rw [contenido_ponerReady, update_self, contenido_ready hl]
      rw [← List.length_eq_zero_iff, hperm.length_eq, List.length_eq_zero_iff]
  · exact .of_get_eq rfl (by simp [Dictionary.get_put_of_ne _ _ hpid])

/-- `pasarAReady` concerns the program of the thread only, whose list grows by the
thread if it has one. -/
theorem pasarAReady_ajeno {x : Puntero} {h : Hilo E} {ahora : ℕ}
    (hpasar : pasarAReady s x ahora = .ok s') (hh : s.hilos x = some h) :
    banderas s' = banderas s ∧ (∀ pid ≠ h.pid, Ajeno pid s s') ∧
      (Parado s h.pid → Parado s' h.pid ∧ contenido s' (.ready h.pid) ≠ []) ∧
      (¬ tieneReady s h.pid → contenido s' (.ready h.pid) = []) := by
  obtain ⟨hilo, p, hhilo, hp, hcaso⟩ := pasarAReady_ok hpasar
  rw [hh] at hhilo
  cases hhilo
  rcases hcaso with ⟨hr, rfl⟩ | ⟨lista, hr, rfl⟩
  · refine ⟨?_, fun pid hne => .of_get_eq ?_ ?_, ?_, fun _ => ?_⟩
    · exact banderas_ponerPrograma_eq (s := s.ponerReady h.pid []) hp rfl
    · simp [Dictionary.get_put_of_ne _ _ hne]
    · simp [Dictionary.get_put_of_ne _ _ hne]
    · rintro ⟨⟨l, hl⟩, -⟩
      rw [hr] at hl
      cases hl
    · simp [contenido]
  · refine ⟨?_, fun pid hne => .of_get_eq ?_ ?_, ?_, fun hno => absurd ⟨lista, hr⟩ hno⟩
    · exact banderas_ponerPrograma_eq (s := (s.ponerReady h.pid (lista ++ [x])).ponerHilo x
        { h with timestampReady := ahora }) hp rfl
    · simp [Dictionary.get_put_of_ne _ _ hne]
    · simp [Dictionary.get_put_of_ne _ _ hne]
    · rintro ⟨-, hvacio⟩
      refine ⟨⟨(tieneReady_ponerReady h.pid).2 (Or.inl rfl), ?_⟩, ?_⟩
      · rw [contenido_exec hp] at hvacio
        simpa [contenido] using hvacio
      · simp [contenido]

theorem elegido_banderas (lista : List Puntero) (t : ℕ) {pid : Pid} {p q : Programa}
    (hp : s.diccionarioDeProgramas.get pid = some p) (hq : q.banderas = p.banderas) :
    banderas (elegido s pid lista q t) = banderas s := by
  have hp' : ({ s with inicioRafaga := t }.ponerReady pid lista).diccionarioDeProgramas.get
      pid = some p := hp
  rw [elegido, banderas_ponerPrograma_eq hp' hq]
  rfl

theorem enExec_ajeno (candidato : Puntero) (resto : List Puntero) (reloj : ℕ → ℕ) (h : Hilo E)
    {pid : Pid} {p : Programa} (hp : s.diccionarioDeProgramas.get pid = some p) :
    banderas (enExec s pid candidato resto reloj p h) = banderas s ∧
      ∀ pid' ≠ pid, Ajeno pid' s (enExec s pid candidato resto reloj p h) := by
  refine ⟨?_, fun pid' hne => .of_get_eq ?_ ?_⟩
  · exact elegido_banderas (q := { p with
      exec := some candidato, cantidadDeHilosEnReady := p.cantidadDeHilosEnReady - 1 })
      resto (reloj 1) hp rfl
  · simp [enExec, Dictionary.get_put_of_ne _ _ hne]
  · simp [enExec, Dictionary.get_put_of_ne _ _ hne]

/-- When it does not park, `calcularSiguienteHilo` concerns its program only. -/
theorem calcularSiguienteHilo_ajeno {env : Entorno E} {pid : Pid} {reloj : ℕ → ℕ}
    {r : Option Tid} {p : Programa} {l : List Puntero}
    (h : calcularSiguienteHilo env s pid reloj = .ok (s', r))
    (hp : s.diccionarioDeProgramas.get pid = some p)
    (hl : s.diccionarioDeListasDeReady.get pid = some l) (hno : ¬ (p.exec = none ∧ l = [])) :
    banderas s' = banderas s ∧ ∀ pid' ≠ pid, Ajeno pid' s s' := by
  obtain ⟨l', p', hl', hp', hcaso⟩ := calcularSiguienteHilo_ok h
  rw [hp] at hp'
  cases hp'
  rw [hl] at hl'
  cases hl'
  rcases hcaso with ⟨x, hilo, -, hh, rfl, -⟩ | ⟨x, hilo, candidato, c, resto, -, -, -, -, rfl, -⟩ |
    ⟨candidato, resto, hilo, -, -, -, rfl, -⟩ | ⟨hexec, hvacia, -, -⟩
  · have htiempos := seguirEjecutando_soloTiempos reloj hh
    exact ⟨funext fun pid' => (htiempos.ajeno pid').banderas, fun pid' _ => htiempos.ajeno pid'⟩
  · refine ⟨?_, fun pid' hne => .of_get_eq ?_ ?_⟩
    · exact elegido_banderas (q := { p with exec := some candidato }) (resto ++ [x])
        (reloj 1) hp rfl
    · simp [desalojar, Dictionary.get_put_of_ne _ _ hne]
    · simp [desalojar, Dictionary.get_put_of_ne _ _ hne]
  · exact enExec_ajeno _ _ _ _ hp
  · exact absurd ⟨hexec, hvacia⟩ hno

/-! ## Threads on their way -/

namespace Coherente

/-- Coherence does not depend on more than the identities, the places and which
programs and ready lists there are. -/
theorem of_mem {S' : Set Puntero} (hC : Coherente s S)
    (hp : Placement (contenido s') S') (hid : ∀ x, identidad s' x = identidad s x)
    (hproximo : s'.proximo = s.proximo)
    (hmem : ∀ l x, x ∈ contenido s' l → x ∈ contenido s l)
    (hprog : ∀ pid, tienePrograma s pid → tienePrograma s' pid)
    (hready : ∀ pid, tieneReady s' pid ↔ tieneReady s pid) : Coherente s' S' where
  particion := hp
  propio := fun x l hx => (propio_congr hid x l).2 (hC.propio x l (hmem l x hx))
  fresco := fun x hx => (hid x).trans (hC.fresco x (hproximo ▸ hx))
  readyConPrograma := fun pid hr => hprog pid (hC.readyConPrograma pid ((hready pid).1 hr))
  execConReady := by
    intro pid he
    obtain ⟨x, hx⟩ := List.exists_mem_of_ne_nil _ he
    exact (hready pid).2 (hC.execConReady pid (List.ne_nil_of_mem (hmem _ x hx)))

/-- Rewriting a program without moving its threads. -/
theorem ponerPrograma {pid : Pid} {p q : Programa} (hC : Coherente s S)
    (hp : s.diccionarioDeProgramas.get pid = some p) (hexec : q.exec = p.exec)
    (hblocked : q.blocked = p.blocked) : Coherente (s.ponerPrograma pid q) S := by
  have hcont := contenido_ponerPrograma_eq hp hblocked hexec
  apply hC.of_mem
  · rw [hcont]
    exact hC.particion
  · exact fun _ => rfl
  · rfl
  · exact fun l x hx => hcont ▸ hx
  · exact fun pid' => (tienePrograma_ponerPrograma hp pid').2
  · exact fun _ => Iff.rfl

/-- A thread that is in nobody's list gets to ready. -/
theorem pasarAReady {x : Puntero} {ahora : ℕ} (hC : Coherente s S) (hx : x ∉ S)
    (h : pasarAReady s x ahora = .ok s') : Coherente s' (insert x S) := by
  have hquieto := pasarAReady_quieto h
  obtain ⟨pid, l, -, hpropio, hcont⟩ := pasarAReady_contenido h hC.execConReady
  refine
    { particion := hcont ▸ hC.particion.push l hx, propio := ?_, fresco := ?_
      readyConPrograma := ?_, execConReady := ?_ }
  · intro y l' hy
    rw [propio_congr hquieto.identidad]
    by_cases hl : l' = l
    · subst hl
      rw [hcont, update_self, List.mem_append, List.mem_singleton] at hy
      rcases hy with hy | rfl
      · exact hC.propio y l' hy
      · exact hpropio
    · rw [hcont, update_of_ne hl] at hy
      exact hC.propio y l' hy
  · intro y hy
    rw [hquieto.identidad]
    exact hC.fresco y (hquieto.proximo ▸ hy)
  · intro pid' hr
    rw [hquieto.conPrograma]
    rcases hquieto.readyConPrograma pid' hr with hr | hp
    · exact hC.readyConPrograma pid' hr
    · exact hp
  · intro pid' he
    rcases hquieto.execConReady pid' he with he | hr
    · exact hquieto.conReady pid' (hC.execConReady pid' he)
    · exact hr

end Coherente

end Suse
