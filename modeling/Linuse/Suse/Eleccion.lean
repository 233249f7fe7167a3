import Linuse.Suse.Movimientos

/-!
# Choosing the next thread

`siguienteAEjecutar` sorts the ready list and then keeps the running thread,
swaps it with the head of the list, takes the head, or parks at the mutex of the
program. `calcularSiguienteHiloDespierto` takes the head when the mutex is
released; a thread that got to `exec` in between would be lost.
-/

namespace Suse

open Function (update update_self update_of_ne update_eq_self update_comm)

variable {E : Type} {s s' s'' : Estado E} {S : Set Puntero}

theorem replanificarHilos_mueve {env : Entorno E} {pid : Pid}
    (h : replanificarHilos env s pid = .ok s') :
    Quieto s s' ∧ Mueve Lugar.MismaFase False s s' := by
  obtain ⟨l, l', hl, hperm, rfl⟩ := replanificarHilos_ok h
  have hexec : ∀ pid', contenido (s.ponerReady pid l') (.exec pid') =
      contenido s (.exec pid') := by
    intro pid'
    rw [contenido_ponerReady, update_of_ne (by simp)]
  have hquieto : Quieto s (s.ponerReady pid l') := by
    refine
      { identidad := fun _ => rfl, proximo := rfl, conPrograma := fun _ => Iff.rfl
        conReady := fun pid' hr => (tieneReady_ponerReady pid').2 (Or.inr hr)
        readyConPrograma := ?_, execConReady := fun pid' he => Or.inl (hexec pid' ▸ he)
        ready := ?_, enNew := fun _ => rfl, enMutex := rfl
        exec := fun pid' _ he => (hexec pid').trans he }
    · intro pid' hr
      rcases (tieneReady_ponerReady pid').1 hr with rfl | hr
      · exact Or.inl ⟨l, hl⟩
      · exact Or.inl hr
    · intro pid'
      rw [contenido_ponerReady]
      by_cases hpid : pid' = pid
      · subst hpid
        rw [update_self, hperm.length_eq, contenido_ready hl]
        rfl
      · rw [update_of_ne (by simpa using hpid)]
        rfl
  have hperm' : l'.Perm (contenido s (.ready pid)) := by rwa [contenido_ready hl]
  exact ⟨hquieto, hquieto.toConserva, contenido_ponerReady s pid l' ▸ Moves.perm .refl hperm'⟩

/-- The ready list and the program as `calcularSiguienteHilo` leaves them, before
it writes the times of the threads. -/
def elegido (s : Estado E) (pid : Pid) (lista : List Puntero) (q : Programa) (t : ℕ) :
    Estado E :=
  ({ s with inicioRafaga := t }.ponerReady pid lista).ponerPrograma pid q

theorem elegido_contenido (lista : List Puntero) (t : ℕ) {pid : Pid} {p q : Programa}
    (hp : s.diccionarioDeProgramas.get pid = some p) (hblocked : q.blocked = p.blocked) :
    contenido (elegido s pid lista q t) =
      update (update (contenido s) (.ready pid) lista) (.exec pid) q.exec.toList := by
  rw [elegido, contenido_ponerPrograma (p := p), contenido_ponerReady,
    contenido_inicioRafaga]
  · exact hp
  · exact hblocked

/-- Choosing a thread keeps the frame facts when the ready list and its counter
change together. -/
theorem elegido_conserva (lista : List Puntero) (t : ℕ) {pid : Pid} {l : List Puntero}
    {p q : Programa}
    (hp : s.diccionarioDeProgramas.get pid = some p)
    (hl : s.diccionarioDeListasDeReady.get pid = some l) (hblocked : q.blocked = p.blocked)
    (hnew : q.cantidadDeHilosEnNew = p.cantidadDeHilosEnNew)
    (hready : q.cantidadDeHilosEnReady - lista.length =
      p.cantidadDeHilosEnReady - l.length) :
    Conserva s (elegido s pid lista q t) := by
  have hcont := elegido_contenido lista t hp hblocked
  refine
    { identidad := fun _ => rfl, proximo := rfl
      conPrograma := tienePrograma_ponerPrograma hp
      conReady := fun pid' hr => (tieneReady_ponerReady pid').2 (Or.inr hr)
      readyConPrograma := ?_, execConReady := ?_, ready := ?_, enNew := ?_ }
  · intro pid' hr
    rcases (tieneReady_ponerReady pid').1 hr with rfl | hr
    · exact Or.inl ⟨l, hl⟩
    · exact Or.inl hr
  · intro pid' he
    by_cases hpid : pid' = pid
    · exact Or.inr ((tieneReady_ponerReady pid').2 (Or.inl hpid))
    · rw [hcont, update_of_ne (by simpa using hpid), update_of_ne (by simp)] at he
      exact Or.inl he
  · intro pid'
    rw [hcont, update_of_ne (by simp), elegido, cuentaReady_ponerPrograma]
    by_cases hpid : pid' = pid
    · subst hpid
      rw [update_self, update_self, hready, cuentaReady_eq hp, contenido_ready hl]
    · rw [update_of_ne hpid, update_of_ne (by simpa using hpid)]
      rfl
  · refine enNew_congr (fun _ => rfl) rfl rfl ?_
    rw [elegido, cuentaNew_ponerPrograma_eq (p := p)]
    · rfl
    · exact hp
    · exact hnew

/-- The swap of the running thread with the head of the ready list. -/
theorem desalojar_mueve (reloj : ℕ → ℕ) {pid : Pid} {p : Programa}
    {ejecutando candidato : Puntero} {h c : Hilo E} {resto : List Puntero} (hC : Coherente s S)
    (hp : s.diccionarioDeProgramas.get pid = some p) (hexec : p.exec = some ejecutando)
    (hh : s.hilos ejecutando = some h)
    (hl : s.diccionarioDeListasDeReady.get pid = some (candidato :: resto))
    (hc : s.hilos candidato = some c) :
    Quieto s (desalojar s pid p ejecutando candidato h c resto reloj) ∧
      Mueve Lugar.MismaFase False s
        (desalojar s pid p ejecutando candidato h c resto reloj) := by
  have hmem := mem_exec hp hexec
  have hready := contenido_ready hl
  have hne : candidato ≠ ejecutando := by
    intro heq
    have hx : candidato ∈ contenido s (.ready pid) := by simp [hready]
    have hx' : candidato ∈ contenido s (.exec pid) := by simp [hmem, heq]
    have hlugar := hC.particion.unique candidato _ _ hx hx'
    cases hlugar
  have hconserva : Conserva s
      (desalojar s pid p ejecutando candidato h c resto reloj) := by
    refine (elegido_conserva (resto ++ [ejecutando]) (reloj 1)
      (q := { p with exec := some candidato }) hp hl rfl rfl (by simp)).trans ?_
    refine Conserva.trans (Quieto.ponerHilo (h := h) ?_ ?_ ?_).toConserva
      (Quieto.ponerHilo (h := c) ?_ ?_ ?_).toConserva
    rotate_left 3
    · simpa [elegido, hne] using hc
    · rfl
    · rfl
    · exact hh
    · rfl
    · rfl
  have hcont : contenido (desalojar s pid p ejecutando candidato h c resto reloj) =
      update (update (contenido s) (.ready pid) (resto ++ [ejecutando])) (.exec pid)
        [candidato] :=
    elegido_contenido (q := { p with exec := some candidato }) _ (reloj 1) hp rfl
  have hquieto : Quieto s (desalojar s pid p ejecutando candidato h c resto reloj) := by
    refine ⟨hconserva, rfl, ?_⟩
    intro pid' _ he
    have hpid : pid' ≠ pid := by
      intro heq
      rw [heq, hmem] at he
      cases he
    rw [hcont, update_of_ne (by simpa using hpid), update_of_ne (by simp), he]
  refine ⟨hquieto, hconserva, ?_⟩
  have hpropio : Propio s ejecutando (.ready pid) :=
    hC.propio_of_mem (l := .exec pid) (by rw [hmem]; simp) (fun _ h => h) rfl
  have hpropio' : Propio s candidato (.exec pid) :=
    hC.propio_of_mem (l := .ready pid) (by rw [hready]; simp) (fun _ h => h) rfl
  -- the running thread goes to the end of ready, then the head comes to `exec`
  have hm₁ : Moves (Muda s Lugar.MismaFase) (fun _ _ => False) (contenido s)
      (update (update (contenido s) (.exec pid) []) (.ready pid)
        (candidato :: (resto ++ [ejecutando]))) := by
    have hmuda : Muda s Lugar.MismaFase ejecutando (.exec pid) (.ready pid) :=
      ⟨rfl, hpropio⟩
    have hm := Moves.head (fun _ _ => False) hmuda (by simp) hmem
    rwa [hready, List.cons_append] at hm
  have hmuda : Muda s Lugar.MismaFase candidato (.ready pid) (.exec pid) := ⟨rfl, hpropio'⟩
  have hm₂ := Moves.move (a := []) (b := resto ++ [ejecutando]) hm₁ hmuda (by simp)
    (by rw [update_self]; rfl)
  rw [hcont]
  convert hm₂ using 1
  simp [update_comm (a := Lugar.exec pid) (b := Lugar.ready pid)]

/-- The head of the ready list becomes the running thread. -/
theorem enExec_mueve (reloj : ℕ → ℕ) {pid : Pid} {p : Programa} {candidato : Puntero}
    {h : Hilo E} {resto : List Puntero} (hC : Coherente s S)
    (hp : s.diccionarioDeProgramas.get pid = some p)
    (hl : s.diccionarioDeListasDeReady.get pid = some (candidato :: resto))
    (hh : s.hilos candidato = some h) :
    Mueve Lugar.MismaFase (contenido s (.exec pid) ≠ []) s
        (enExec s pid candidato resto reloj p h) ∧
      contenido (enExec s pid candidato resto reloj p h) =
        update (update (contenido s) (.ready pid) resto) (.exec pid) [candidato] := by
  have hready := contenido_ready hl
  have hcont : contenido (enExec s pid candidato resto reloj p h) =
      update (update (contenido s) (.ready pid) resto) (.exec pid) [candidato] :=
    elegido_contenido (q := { p with
      exec := some candidato, cantidadDeHilosEnReady := p.cantidadDeHilosEnReady - 1 })
      _ (reloj 1) hp rfl
  have hconserva : Conserva s (enExec s pid candidato resto reloj p h) := by
    refine (elegido_conserva resto (reloj 1) (q := { p with
      exec := some candidato, cantidadDeHilosEnReady := p.cantidadDeHilosEnReady - 1 })
      hp hl rfl rfl (by simp; omega)).trans ?_
    apply Quieto.toConserva
    apply Quieto.ponerHilo (h := h)
    · exact hh
    · rfl
    · rfl
  have hpropio : Propio s candidato (.exec pid) :=
    hC.propio_of_mem (l := .ready pid) (by rw [hready]; simp) (fun _ h => h) rfl
  refine ⟨⟨hconserva, ?_⟩, hcont⟩
  rw [hcont]
  -- what was in `exec`, if anything, is lost first
  have hm₁ : Moves (Muda s Lugar.MismaFase) (fun _ _ => contenido s (.exec pid) ≠ [])
      (contenido s) (update (contenido s) (.exec pid) []) := by
    cases he : p.exec with
    | none =>
        have hvacio : contenido s (.exec pid) = [] := by rw [contenido_exec hp, he]; rfl
        rw [← hvacio, update_eq_self]
        exact .refl
    | some x =>
        have hmem := mem_exec hp he
        exact Moves.drop (a := []) (x := x) .refl (by simp [hmem]) hmem
  have hmuda : Muda s Lugar.MismaFase candidato (.ready pid) (.exec pid) := ⟨rfl, hpropio⟩
  have hm₂ := Moves.move (a := []) (b := resto) hm₁ hmuda (by simp)
    (by rw [update_of_ne (by simp)]; exact hready)
  convert hm₂ using 1
  simp [update_comm (a := Lugar.exec pid) (b := Lugar.ready pid)]

/-- Stopping at the mutex, or coming back from it, moves no thread. -/
theorem mutex_mueve {pid : Pid} {p q : Programa} {f : Pid → ℕ}
    (hp : s.diccionarioDeProgramas.get pid = some p) (hq : q.exec = p.exec)
    (hblocked : q.blocked = p.blocked)
    (hready : q.cantidadDeHilosEnReady = p.cantidadDeHilosEnReady)
    (hnew : q.cantidadDeHilosEnNew = p.cantidadDeHilosEnNew) (F : Lugar → Lugar → Prop)
    (pierde : Prop) :
    Mueve F pierde s ({ s with enMutex := f }.ponerPrograma pid q) ∧
      contenido ({ s with enMutex := f }.ponerPrograma pid q) = contenido s := by
  have hquieto : Quieto s (s.ponerPrograma pid q) :=
    .ponerPrograma hp (Or.inl hq) hready hnew
  have hcont : contenido ({ s with enMutex := f }.ponerPrograma pid q) = contenido s := by
    rw [contenido_ponerPrograma_eq (p := p), contenido_enMutex]
    · exact hp
    · exact hblocked
    · exact hq
  have hconserva : Conserva s ({ s with enMutex := f }.ponerPrograma pid q) :=
    ⟨hquieto.identidad, rfl, hquieto.conPrograma, hquieto.conReady, hquieto.readyConPrograma,
      hquieto.execConReady, hquieto.ready, hquieto.enNew⟩
  exact ⟨.of_contenido_eq hconserva hcont, hcont⟩

/-- What `calcularSiguienteHilo` does: it does not touch the other programs, and
either it leaves the mutexes alone or it parks, with nothing in `exec`. -/
theorem calcularSiguienteHilo_mueve {env : Entorno E} {pid : Pid} {reloj : ℕ → ℕ}
    {r : Option Tid} (hC : Coherente s S)
    (h : calcularSiguienteHilo env s pid reloj = .ok (s', r)) :
    Mueve Lugar.MismaFase False s s' ∧
      (∀ pid', pid' ≠ pid → contenido s' (.exec pid') = contenido s (.exec pid')) ∧
      (s'.enMutex = s.enMutex ∨
        s'.enMutex = update s.enMutex pid (s.enMutex pid + 1) ∧
          contenido s' (.exec pid) = [] ∧ tieneReady s' pid) := by
  obtain ⟨lista, p, hl, hp, hcaso⟩ := calcularSiguienteHilo_ok h
  rcases hcaso with ⟨x, hilo, -, hh, rfl, -⟩ |
    ⟨x, hilo, candidato, c, resto, hexec, hh, rfl, hc, rfl, -⟩ |
    ⟨candidato, resto, hilo, hexec, rfl, hh, rfl, -⟩ | ⟨hexec, rfl, rfl, -⟩
  · have htiempos := seguirEjecutando_soloTiempos reloj hh
    exact ⟨htiempos.mueve _ _, fun _ _ => by rw [htiempos.contenido], Or.inl rfl⟩
  · obtain ⟨-, hmueve⟩ := desalojar_mueve reloj hC hp hexec hh hl hc
    refine ⟨hmueve, fun pid' hpid => ?_, Or.inl rfl⟩
    simp [desalojar, contenido, Dictionary.get_put_of_ne _ _ hpid]
  · obtain ⟨hmueve, hcont⟩ := enExec_mueve reloj hC hp hl hh
    have hvacio : contenido s (.exec pid) = [] := by rw [contenido_exec hp, hexec]; rfl
    refine ⟨hmueve.mono (fun _ _ hF => hF) fun hne => hne hvacio, fun pid' hpid => ?_,
      Or.inl rfl⟩
    rw [hcont, update_of_ne (by simpa using hpid), update_of_ne (by simp)]
  · obtain ⟨hmueve, hcont⟩ := mutex_mueve (q := { p with estaBloqueado := true })
      (f := update s.enMutex pid (s.enMutex pid + 1)) hp rfl rfl rfl rfl Lugar.MismaFase False
    refine ⟨hmueve, fun pid' _ => congrFun hcont _, Or.inr ⟨rfl, ?_, [], hl⟩⟩
    have hvacio : contenido s (.exec pid) = [] := by rw [contenido_exec hp, hexec]; rfl
    rw [← hvacio]
    exact congrFun hcont _

theorem siguienteAEjecutar_mueve {env : Entorno E} {pid : Pid} {reloj : ℕ → ℕ}
    {r : Option Tid} (hC : Coherente s S)
    (h : siguienteAEjecutar env s pid reloj = .ok (s', r)) :
    Mueve Lugar.MismaFase False s s' ∧
      (∀ pid', pid' ≠ pid → contenido s' (.exec pid') = contenido s (.exec pid')) ∧
      (s'.enMutex = s.enMutex ∨
        s'.enMutex = update s.enMutex pid (s.enMutex pid + 1) ∧
          contenido s' (.exec pid) = [] ∧ tieneReady s' pid) := by
  obtain ⟨s₁, s₂, htiempos, hreplan, hcalc⟩ := siguienteAEjecutar_ok h
  obtain ⟨hquieto₂, hmueve₂⟩ := replanificarHilos_mueve hreplan
  have hmueve₁ : Mueve Lugar.MismaFase False s s₂ :=
    (htiempos.mueve _ _).trans hmueve₂
  obtain ⟨hmueve, hexec, hmutex⟩ :=
    calcularSiguienteHilo_mueve (hmueve₁.coherente_of_not not_false hC) hcalc
  have hquieto := htiempos.quieto.trans hquieto₂
  obtain ⟨l, l', -, -, rfl⟩ := replanificarHilos_ok hreplan
  refine ⟨hmueve₁.trans hmueve, fun pid' hpid => ?_, ?_⟩
  · rw [hexec pid' hpid, contenido_ponerReady, update_of_ne (by simp), htiempos.contenido]
  · rw [hquieto.enMutex] at hmutex
    exact hmutex

theorem calcularSiguienteHiloDespierto_mueve {pid : Pid} {reloj : ℕ → ℕ}
    {r : Option Tid} (hC : Coherente s S)
    (h : calcularSiguienteHiloDespierto s pid reloj = .ok (s', r)) :
    Mueve Lugar.MismaFase (contenido s (.exec pid) ≠ []) s s' ∧
      (∀ pid', pid' ≠ pid → contenido s' (.exec pid') = contenido s (.exec pid')) ∧
      0 < s.enMutex pid ∧ s'.enMutex = update s.enMutex pid (s.enMutex pid - 1) := by
  obtain ⟨p, candidato, resto, hilo, hp, hmutex, -, hl, hh, rfl, -⟩ :=
    calcularSiguienteHiloDespierto_ok h
  obtain ⟨hmueve₁, hcont₁⟩ := mutex_mueve (q := { p with mutexTomado := true })
    (f := update s.enMutex pid (s.enMutex pid - 1)) hp rfl rfl rfl rfl Lugar.MismaFase
    (contenido s (.exec pid) ≠ [])
  have hcont₁' : contenido (despertado s pid p) = contenido s := hcont₁
  have hC₁ : Coherente (despertado s pid p) S :=
    hmueve₁.coherente_of hC (hcont₁'.symm ▸ hC.particion)
  have hp₁ : (despertado s pid p).diccionarioDeProgramas.get pid =
      some { p with mutexTomado := true } := by simp [despertado]
  obtain ⟨hmueve₂, hcont₂⟩ := enExec_mueve reloj hC₁ hp₁ hl hh
  rw [hcont₁'] at hmueve₂ hcont₂
  refine ⟨hmueve₁.trans hmueve₂, fun pid' hpid => ?_, hmutex, rfl⟩
  rw [hcont₂, update_of_ne (by simpa using hpid), update_of_ne (by simp)]

end Suse
