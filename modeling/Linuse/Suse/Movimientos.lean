import Linuse.Suse.Coherencia
import Mathlib.Algebra.Group.Basic
import Mathlib.Algebra.Group.Int.Defs

/-!
# The handlers as movements

Each handler that runs to its end moves threads between places along one
relation: `Lugar.MismaFase` for all but an admission, which takes the thread from
the hand to an active place, and a close, which also takes the running thread to
the exit list (`Lugar.Cierra`).
-/

namespace Suse

open Function (update update_self update_of_ne update_eq_self update_comm)
open Fallible

variable {E : Type} {s s' s'' : Estado E} {S : Set Puntero}

namespace Lugar

def MismaFase (l l' : Lugar) : Prop := l.fase = l'.fase

def Admite (l l' : Lugar) : Prop := l = mano ∧ l'.fase = .activo

def Cierra (l l' : Lugar) : Prop :=
  l.fase = l'.fase ∨ ∃ pid, l = exec pid ∧ l' = exit pid

end Lugar

namespace Mueve

variable {F F' : Lugar → Lugar → Prop} {pierde pierde' : Prop}

theorem of_contenido_eq (h : Conserva s s') (hc : contenido s' = contenido s) :
    Mueve F pierde s s' :=
  ⟨h, hc ▸ .refl⟩

theorem refl (s : Estado E) : Mueve F pierde s s := of_contenido_eq (.refl s) rfl

theorem mono (h : Mueve F pierde s s') (hF : ∀ l l', F l l' → F' l l')
    (hpierde : pierde → pierde') : Mueve F' pierde' s s' :=
  ⟨h.toConserva, h.moves.mono (fun _ l l' hm => ⟨hF l l' hm.1, hm.2⟩) fun _ _ => hpierde⟩

theorem trans (h : Mueve F pierde s s') (h' : Mueve F pierde s' s'') :
    Mueve F pierde s s'' := by
  refine ⟨h.toConserva.trans h'.toConserva, h.moves.trans (h'.moves.mono ?_ fun _ _ hp => hp)⟩
  intro x l l' hm
  exact ⟨hm.1, (propio_congr h.identidad x l').1 hm.2⟩

/-- A handler that takes the first thread of one place to the end of another. -/
theorem of_head (l' : Lugar) {x : Puntero} {l : Lugar} {b : List Puntero} (h : Conserva s s')
    (hl : contenido s l = x :: b)
    (hc : contenido s' = update (update (contenido s) l b) l' (contenido s l' ++ [x]))
    (hx : Propio s x l') (hne : l' ≠ l) (hF : F l l') : Mueve F pierde s s' :=
  ⟨h, hc ▸ Moves.head _ ⟨hF, hx⟩ hne hl⟩

/-- A movement keeps coherence, for the threads that are still somewhere. -/
theorem coherente_of (h : Mueve F pierde s s') (hC : Coherente s S) {S' : Set Puntero}
    (hp : Placement (contenido s') S') : Coherente s' S' where
  particion := hp
  propio := by
    intro x l hx
    rw [propio_congr h.identidad]
    exact h.moves.keeps (Propio s) (fun _ _ _ hm _ => hm.2) hC.propio x l hx
  fresco := by
    intro x hx
    rw [h.identidad]
    exact hC.fresco x (h.proximo ▸ hx)
  readyConPrograma := by
    intro pid hr
    rw [h.conPrograma]
    rcases h.readyConPrograma pid hr with hr | hp
    · exact hC.readyConPrograma pid hr
    · exact hp
  execConReady := by
    intro pid he
    rcases h.toConserva.execConReady pid he with he | hr
    · exact h.conReady pid (hC.execConReady pid he)
    · exact hr

theorem coherente (h : Mueve F pierde s s') (hC : Coherente s S) :
    ∃ S' ⊆ S, Coherente s' S' := by
  obtain ⟨S', hS, hp⟩ := h.moves.partition hC.particion
  exact ⟨S', hS, h.coherente_of hC hp⟩

theorem coherente_of_not (h : Mueve F pierde s s') (hpierde : ¬ pierde)
    (hC : Coherente s S) : Coherente s' S := by
  have hmoves : Moves (Muda s F) (fun _ _ => False) (contenido s) (contenido s') :=
    h.moves.mono (fun _ _ _ hm => hm) fun _ _ => hpierde
  exact h.coherente_of hC (hmoves.partition_of_lossless hC.particion)

end Mueve

theorem SoloTiempos.mueve (h : SoloTiempos s s') (F : Lugar → Lugar → Prop)
    (pierde : Prop) : Mueve F pierde s s' :=
  .of_contenido_eq h.quieto.toConserva h.contenido

/-- The pointer that is running is in the place `exec` of its program. -/
theorem mem_exec {pid : Pid} {p : Programa} {x : Puntero}
    (hp : s.diccionarioDeProgramas.get pid = some p) (hx : p.exec = some x) :
    contenido s (.exec pid) = [x] := by
  rw [contenido_exec hp, hx]
  rfl

namespace Coherente

theorem identidad_of_mem (hC : Coherente s S) {x : Puntero} {l : Lugar} {h : Hilo E}
    (hx : x ∈ contenido s l) (hh : s.hilos x = some h) : l.esDe h.pid := by
  obtain ⟨pid, tid, hid, hde⟩ := hC.propio x l hx
  rw [identidad_eq hh] at hid
  cases hid
  exact hde

/-- A thread that is somewhere may go to any place of the program `pid`, if it is
somewhere in a place of that program. -/
theorem propio_of_mem (hC : Coherente s S) {x : Puntero} {l l' : Lugar} {pid : Pid}
    (hx : x ∈ contenido s l) (hl : ∀ pid', l.esDe pid' → pid = pid')
    (hl' : l'.esDe pid) : Propio s x l' := by
  obtain ⟨pid', tid, hid, hde⟩ := hC.propio x l hx
  rw [← hl pid' hde] at hid
  exact ⟨pid, tid, hid, hl'⟩

end Coherente

/-! ## Admission -/

/-- Adding a thread to a ready list together with its counter. -/
theorem agregarAReady_quieto {pid : Pid} {l : List Puntero} {x : Puntero} {h : Hilo E}
    {p q : Programa} {t : ℕ} (hp : s.diccionarioDeProgramas.get pid = some p)
    (hl : s.diccionarioDeListasDeReady.get pid = some l) (hh : s.hilos x = some h)
    (hexec : q.exec = p.exec)
    (hready : q.cantidadDeHilosEnReady = p.cantidadDeHilosEnReady + 1)
    (hnew : q.cantidadDeHilosEnNew = p.cantidadDeHilosEnNew) :
    Quieto s (((s.ponerReady pid (l ++ [x])).ponerHilo x
      { h with timestampReady := t }).ponerPrograma pid q) := by
  have hhilo : Quieto s (s.ponerHilo x { h with timestampReady := t }) :=
    .ponerHilo hh rfl rfl
  have hexec' : ∀ pid', contenido (((s.ponerReady pid (l ++ [x])).ponerHilo x
      { h with timestampReady := t }).ponerPrograma pid q) (.exec pid') =
        contenido s (.exec pid') := by
    intro pid'
    by_cases hpid : pid' = pid
    · subst hpid
      simp [contenido, hp, hexec]
    · simp [contenido, Dictionary.get_put_of_ne _ _ hpid]
  refine
    { identidad := hhilo.identidad, proximo := rfl
      conPrograma := tienePrograma_ponerPrograma hp
      conReady := fun pid' hr => (tieneReady_ponerReady pid').2 (Or.inr hr)
      readyConPrograma := ?_, execConReady := ?_, ready := ?_, enNew := ?_
      enMutex := rfl, exec := ?_ }
  · intro pid' hr
    rcases (tieneReady_ponerReady pid').1 hr with rfl | hr
    · exact Or.inr ⟨p, hp⟩
    · exact Or.inl hr
  · intro pid' he
    rw [hexec'] at he
    exact Or.inl he
  · intro pid'
    rw [cuentaReady_ponerPrograma]
    by_cases hpid : pid' = pid
    · subst hpid
      simp only [update_self, hready, cuentaReady_eq hp]
      simp [contenido, hl]
    · simp [contenido, hpid, Dictionary.get_put_of_ne _ _ hpid, cuentaReady]
  · refine enNew_congr hhilo.identidad rfl rfl ?_
    exact cuentaNew_ponerPrograma_eq (s := (s.ponerReady pid (l ++ [x])).ponerHilo x
      { h with timestampReady := t }) hp hnew
  · intro pid' _ he
    rw [hexec', he]

theorem agregarAReady_contenido {pid : Pid} {l : List Puntero} {x : Puntero} {h : Hilo E}
    {p q : Programa} (hp : s.diccionarioDeProgramas.get pid = some p)
    (hexec : q.exec = p.exec) (hblocked : q.blocked = p.blocked) :
    contenido (((s.ponerReady pid l).ponerHilo x h).ponerPrograma pid q) =
      update (contenido s) (.ready pid) l := by
  have hp' : ((s.ponerReady pid l).ponerHilo x h).diccionarioDeProgramas.get pid =
      some p := hp
  rw [contenido_ponerPrograma_eq hp' hblocked hexec, contenido_ponerHilo,
    contenido_ponerReady]

/-- `pasarAReady` puts the thread in the ready list of its program, or in `exec`
when it is the first of the program to get there. -/
theorem pasarAReady_contenido {x : Puntero} {ahora : ℕ}
    (h : pasarAReady s x ahora = .ok s')
    (hexec : ∀ pid, contenido s (.exec pid) ≠ [] → tieneReady s pid) :
    ∃ pid l, (l = .ready pid ∨ l = .exec pid) ∧ Propio s x l ∧
      contenido s' = update (contenido s) l (contenido s l ++ [x]) := by
  obtain ⟨hilo, p, hhilo, hp, hcaso⟩ := pasarAReady_ok h
  rcases hcaso with ⟨hr, rfl⟩ | ⟨lista, hr, rfl⟩
  · refine ⟨hilo.pid, .exec hilo.pid, Or.inr rfl,
      ⟨hilo.pid, hilo.tid, identidad_eq hhilo, rfl⟩, ?_⟩
    have hvacio : contenido s (.exec hilo.pid) = [] := by
      by_contra hne
      obtain ⟨l, hl⟩ := hexec hilo.pid hne
      rw [hr] at hl
      cases hl
    have hready : contenido s (.ready hilo.pid) = [] := by simp [contenido, hr]
    have hp' : (s.ponerReady hilo.pid []).diccionarioDeProgramas.get hilo.pid = some p := hp
    rw [contenido_ponerPrograma (q := { p with exec := some x }) hp' rfl, hvacio,
      contenido_ponerReady]
    nth_rewrite 1 [← hready]
    rw [update_eq_self]
    rfl
  · refine ⟨hilo.pid, .ready hilo.pid, Or.inl rfl,
      ⟨hilo.pid, hilo.tid, identidad_eq hhilo, rfl⟩, ?_⟩
    rw [agregarAReady_contenido (q := { p with
      cantidadDeHilosEnReady := p.cantidadDeHilosEnReady + 1 }) hp rfl rfl,
      contenido_ready hr]

theorem pasarAReady_quieto {x : Puntero} {ahora : ℕ}
    (h : pasarAReady s x ahora = .ok s') : Quieto s s' := by
  obtain ⟨hilo, p, hhilo, hp, ⟨hr, rfl⟩ | ⟨lista, hr, rfl⟩⟩ := pasarAReady_ok h
  · have hexec : ∀ pid, pid ≠ hilo.pid →
        contenido ((s.ponerReady hilo.pid []).ponerPrograma hilo.pid
          { p with exec := some x }) (.exec pid) = contenido s (.exec pid) := by
      intro pid hpid
      simp [contenido, Dictionary.get_put_of_ne _ _ hpid]
    refine
      { identidad := fun _ => rfl, proximo := rfl
        conPrograma := tienePrograma_ponerPrograma hp
        conReady := fun pid hr => (tieneReady_ponerReady pid).2 (Or.inr hr)
        readyConPrograma := ?_, execConReady := ?_, ready := ?_, enNew := ?_
        enMutex := rfl, exec := ?_ }
    · intro pid hr
      rcases (tieneReady_ponerReady pid).1 hr with rfl | hr
      · exact Or.inr ⟨p, hp⟩
      · exact Or.inl hr
    · intro pid he
      by_cases hpid : pid = hilo.pid
      · exact Or.inr ((tieneReady_ponerReady pid).2 (Or.inl hpid))
      · rw [hexec pid hpid] at he
        exact Or.inl he
    · intro pid
      rw [cuentaReady_ponerPrograma]
      by_cases hpid : pid = hilo.pid
      · subst hpid
        simp [contenido, hr, cuentaReady_eq hp]
      · simp [contenido, hpid, Dictionary.get_put_of_ne _ _ hpid, cuentaReady]
    · refine enNew_congr (fun _ => rfl) rfl rfl ?_
      exact cuentaNew_ponerPrograma_eq (s := s.ponerReady hilo.pid []) hp rfl
    · rintro pid ⟨l, hl⟩ he
      have hpid : pid ≠ hilo.pid := by
        intro heq
        rw [heq, hr] at hl
        cases hl
      rw [hexec pid hpid, he]
  · exact agregarAReady_quieto hp hr hhilo rfl rfl rfl

theorem planificarReadyTomar_mueve (hC : Coherente s S)
    (h : planificarReadyTomar s = .ok s') :
    Quieto s s' ∧ Mueve Lugar.MismaFase False s s' := by
  obtain ⟨hmano, -, unHilo, resto, hnew, rfl⟩ := planificarReadyTomar_ok h
  have hquieto : Quieto s { s with
      hayNuevos := s.hayNuevos - 1, new := resto, unHilo := some unHilo } := by
    refine ⟨⟨fun _ => rfl, rfl, fun _ => Iff.rfl, fun _ h => h, fun _ h => Or.inl h,
      fun _ h => Or.inl h, fun _ => rfl, ?_⟩, rfl, fun _ _ h => h⟩
    intro pid
    have hperm : (resto ++ [unHilo]).Perm (s.new ++ s.unHilo.toList) := by
      rw [hnew, hmano]
      exact (List.perm_append_singleton unHilo resto).trans (by simp)
    have hn := hperm.countP_eq (esDelPrograma s pid)
    rw [← hilosEnNew] at hn
    rw [← hn]
    rfl
  refine ⟨hquieto, .of_head (l := .new) .mano hquieto.toConserva hnew ?_ ?_
    (by simp) rfl⟩
  rotate_left
  · have hx : unHilo ∈ contenido s .new := by simp [contenido, hnew]
    obtain ⟨pid, tid, hid, -⟩ := hC.propio unHilo .new hx
    exact ⟨pid, tid, hid, trivial⟩
  · funext l
    cases l with
    | new => simp [contenido]
    | mano => simp [contenido, hmano]
    | _ => simp [contenido]

theorem cuentaReady_ponerPrograma_eq {pid : Pid} {p q : Programa}
    (hp : s.diccionarioDeProgramas.get pid = some p)
    (hready : q.cantidadDeHilosEnReady = p.cantidadDeHilosEnReady) :
    cuentaReady (s.ponerPrograma pid q) = cuentaReady s := by
  rw [cuentaReady_ponerPrograma, hready, ← cuentaReady_eq hp, update_eq_self]

/-- The thread in the hand of `planificarReady` leaves it, and the counter of its
program follows. -/
theorem sacarDeMano_quieto {x : Puntero} {h : Hilo E} {p : Programa}
    (hmano : s.unHilo = some x) (hh : s.hilos x = some h)
    (hp : s.diccionarioDeProgramas.get h.pid = some p) :
    Quieto s (sacarDeMano s h.pid p) ∧
      contenido (sacarDeMano s h.pid p) = update (contenido s) .mano [] := by
  have hcont : contenido (sacarDeMano s h.pid p) = update (contenido s) .mano [] := by
    have hmano' : contenido { s with
        maximoProcesamiento := s.maximoProcesamiento - 1, unHilo := none } =
          update (contenido s) .mano [] := by
      funext l
      cases l with
      | mano => simp [contenido]
      | _ => simp [contenido]
    rw [sacarDeMano, contenido_ponerPrograma_eq (p := p), hmano']
    · exact hp
    · rfl
    · rfl
  have hexec : ∀ pid, contenido (sacarDeMano s h.pid p) (.exec pid) =
      contenido s (.exec pid) := by
    intro pid
    rw [hcont, update_of_ne (by simp)]
  have hn : ∀ pid, hilosEnNew (sacarDeMano s h.pid p) pid =
      s.new.countP (esDelPrograma s pid) := by
    intro pid
    have hes : esDelPrograma (sacarDeMano s h.pid p) pid = esDelPrograma s pid := rfl
    rw [hilosEnNew, hes]
    simp [sacarDeMano]
  have hes : ∀ pid, esDelPrograma s pid x = (h.pid == pid) := by
    intro pid
    simp [esDelPrograma, identidad, hh]
  refine ⟨⟨⟨fun _ => rfl, rfl, tienePrograma_ponerPrograma hp, fun _ h => h,
    fun _ h => Or.inl h, fun pid he => Or.inl (hexec pid ▸ he), ?_, ?_⟩, rfl, ?_⟩, hcont⟩
  · intro pid
    rw [hcont, update_of_ne (by simp), sacarDeMano, cuentaReady_ponerPrograma_eq (p := p)]
    · rfl
    · exact hp
    · rfl
  · intro pid
    rw [hn, sacarDeMano, cuentaNew_ponerPrograma, hilosEnNew, hmano, List.countP_append]
    by_cases hpid : pid = h.pid
    · subst hpid
      simp only [update_self, cuentaNew_eq hp, Option.toList_some, List.countP_singleton,
        hes, beq_self_eq_true, if_true]
      omega
    · have hne : (h.pid == pid) = false := by simpa using Ne.symm hpid
      simp only [update_of_ne hpid, Option.toList_some, List.countP_singleton, hes, hne]
      rfl
  · intro pid _ he
    rw [hexec, he]

theorem planificarReadyAdmitir_mueve {ahora : ℕ} (hC : Coherente s S)
    (h : planificarReadyAdmitir s ahora = .ok s') :
    Quieto s s' ∧ Mueve Lugar.Admite False s s' := by
  obtain ⟨unHilo, hilo, p, hmano, -, hhilo, hp, h⟩ := planificarReadyAdmitir_ok h
  obtain ⟨hquieto, hcont⟩ := sacarDeMano_quieto hmano hhilo hp
  have hquieto' := hquieto.trans (pasarAReady_quieto h)
  obtain ⟨pid, l, hl, hpropio, hcont'⟩ := pasarAReady_contenido h (by
    intro pid he
    rw [hcont, update_of_ne (by simp)] at he
    exact hC.execConReady pid he)
  have hne : l ≠ .mano := by rcases hl with rfl | rfl <;> simp
  have hcmano : contenido s .mano = [unHilo] := by simp [contenido, hmano]
  have hcont'' : contenido s' =
      update (update (contenido s) .mano []) l (contenido s l ++ [unHilo]) := by
    rw [hcont', hcont, update_of_ne hne]
  refine ⟨hquieto', .of_head _ hquieto'.toConserva hcmano hcont''
    ((propio_congr hquieto.identidad _ _).1 hpropio) hne ⟨rfl, ?_⟩⟩
  rcases hl with rfl | rfl <;> rfl

/-! ## Semaphores -/

theorem despertarPrograma_quieto {pid : Pid} {p : Programa}
    (hp : s.diccionarioDeProgramas.get pid = some p) :
    Quieto s (despertarPrograma s pid p) ∧
      contenido (despertarPrograma s pid p) = contenido s := by
  rw [despertarPrograma]
  split_ifs with hbloq
  · exact ⟨.ponerPrograma hp (Or.inl rfl) rfl rfl, contenido_ponerPrograma_eq hp rfl rfl⟩
  · exact ⟨.refl s, rfl⟩

theorem sacar1HiloDeLaColaDeBloqueadosPorSemaforo_mueve {pid : Pid} {semID : String}
    {ahora : ℕ} (hC : Coherente s S)
    (h : sacar1HiloDeLaColaDeBloqueadosPorSemaforo s pid semID ahora = .ok s') :
    Quieto s s' ∧ Mueve Lugar.MismaFase False s s' := by
  rcases sacar1HiloDeLaColaDeBloqueadosPorSemaforo_ok h with ⟨-, rfl⟩ |
    ⟨unHilo, resto, s₁, hilo, unPrograma, p, hcola, hs₁, -, hprog, hp, rfl⟩
  · exact ⟨.refl _, .refl _⟩
  have hblocked : Quieto s (s.ponerBlockedPorSemaforo semID resto) := .resto _ _ _ _ _ _
  obtain ⟨hdesp, hcdesp⟩ := despertarPrograma_quieto hprog
  have hquieto : Quieto s ((despertarPrograma s₁ hilo.pid unPrograma).ponerPrograma pid
      { p with cantidadDeHilosEnBlocked := p.cantidadDeHilosEnBlocked - 1 }) :=
    ((hblocked.trans (pasarAReady_quieto hs₁)).trans hdesp).trans
      (.ponerPrograma hp (Or.inl rfl) rfl rfl)
  obtain ⟨pid', l, hl, hpropio, hcont⟩ := pasarAReady_contenido hs₁ (by
    intro pid he
    rw [contenido_ponerBlockedPorSemaforo, update_of_ne (by simp)] at he
    exact hC.execConReady pid he)
  have hne : l ≠ .semaforo semID := by rcases hl with rfl | rfl <;> simp
  refine ⟨hquieto, .of_head _ hquieto.toConserva (contenido_semaforo hcola) ?_ hpropio hne
    (by rcases hl with rfl | rfl <;> rfl)⟩
  rw [contenido_ponerPrograma_eq (p := p), hcdesp, hcont,
    contenido_ponerBlockedPorSemaforo, update_of_ne hne]
  · exact hp
  · rfl
  · rfl

theorem semSuseSignal_mueve {pid : Pid} {semID : String} {ahora : ℕ}
    (hC : Coherente s S) (h : semSuseSignal s pid semID ahora = .ok s') :
    Quieto s s' ∧ Mueve Lugar.MismaFase False s s' := by
  rcases semSuseSignal_ok h with
    ⟨-, rfl⟩ | ⟨sem, -, ⟨-, rfl⟩ | ⟨-, -, rfl⟩ | ⟨-, -, hsacar⟩⟩
  · exact ⟨.refl _, .refl _⟩
  · exact ⟨.refl _, .refl _⟩
  · have hquieto : Quieto s (s.ponerSemaforo semID
        { sem with valorActualSemaforo := sem.valorActualSemaforo + 1 }) :=
      .resto _ _ _ _ _ _
    exact ⟨hquieto, .of_contenido_eq hquieto.toConserva rfl⟩
  · exact sacar1HiloDeLaColaDeBloqueadosPorSemaforo_mueve hC hsacar

theorem semSuseWait_mueve {pid : Pid} {tid : Tid} {semID : String}
    (hC : Coherente s S) (h : semSuseWait s pid tid semID = .ok s') :
    Quieto s s' ∧ Mueve Lugar.MismaFase False s s' := by
  rcases semSuseWait_ok h with
    ⟨-, rfl⟩ | ⟨sem, -, ⟨-, rfl⟩ | ⟨-, p, exec, hilo, cola, hp, hexec, -, -, hcola, rfl⟩⟩
  · exact ⟨.refl _, .refl _⟩
  · have hquieto : Quieto s (s.ponerSemaforo semID
        { sem with valorActualSemaforo := sem.valorActualSemaforo - 1 }) :=
      .resto _ _ _ _ _ _
    exact ⟨hquieto, .of_contenido_eq hquieto.toConserva rfl⟩
  · have hcola' : Quieto s (s.ponerBlockedPorSemaforo semID (cola ++ [exec])) :=
      .resto _ _ _ _ _ _
    have hquieto := hcola'.trans (.ponerPrograma (q := { p with
      cantidadDeHilosEnBlocked := p.cantidadDeHilosEnBlocked + 1, exec := none })
        hp (Or.inr rfl) rfl rfl)
    have hmem := mem_exec hp hexec
    refine ⟨hquieto, .of_head (.semaforo semID) hquieto.toConserva hmem ?_ ?_
      (by simp) rfl⟩
    rotate_left
    · obtain ⟨pid', tid', hid, -⟩ := hC.propio exec (.exec pid) (by simp [hmem])
      exact ⟨pid', tid', hid, trivial⟩
    · rw [contenido_ponerPrograma (p := p), contenido_ponerBlockedPorSemaforo,
        contenido_semaforo hcola, update_comm (by simp)]
      · rfl
      · exact hp
      · rfl

/-! ## Joins -/

theorem realizarJoin_mueve {pid : Pid} {tidAEsperar : Tid} (hC : Coherente s S)
    (h : realizarJoin s pid tidAEsperar = .ok s') :
    Quieto s s' ∧ Mueve Lugar.MismaFase False s s' := by
  rcases realizarJoin_ok h with rfl | ⟨p, exec, hilo, cantidad, hp, hexec, -, rfl⟩
  · exact ⟨.refl _, .refl _⟩
  · have hquieto : Quieto s (s.ponerPrograma pid
        { ponerEnBlockedPorHilo p exec tidAEsperar with
          cantidadDeHilosEnBlocked := cantidad, exec := none }) :=
      .ponerPrograma hp (Or.inr rfl) rfl rfl
    have hmem := mem_exec hp hexec
    refine ⟨hquieto, .of_head (.join pid tidAEsperar) hquieto.toConserva hmem ?_ ?_
      (by simp) rfl⟩
    rotate_left
    · have hx : exec ∈ contenido s (.exec pid) := by simp [hmem]
      exact hC.propio_of_mem hx (fun _ h => h) rfl
    · rw [contenido_ponerPrograma_put tidAEsperar
        ((p.blocked.get tidAEsperar).getD [] ++ [exec]) (p := p), contenido_join hp]
      · rfl
      · exact hp
      · rfl

end Suse
