import Linuse.Suse.Efectos

/-!
# Coherence of the lists

`Coherente s S` says that the threads of `S` are each in exactly one place of the
scheduler, in a place of their own program. A handler keeps it when what it does
is a movement of threads between places, each into a place of its own program
(`Mueve`), and when it keeps the frame facts of `Conserva`: the identities, the
existence of programs and ready lists, and the distance between each counter and
the list it counts.

The flag `pierde` of a movement tells when it may lose threads. Two handlers can:
`liberarLista` when two threads of a program have the same id, and
`calcularSiguienteHiloDespierto` when the program has a running thread by then.
-/

namespace Suse

open Function (update update_self update_of_ne)

variable {E : Type} {s s' s'' : Estado E}

def tieneReady (s : Estado E) (pid : Pid) : Prop :=
  ∃ l, s.diccionarioDeListasDeReady.get pid = some l

def tienePrograma (s : Estado E) (pid : Pid) : Prop :=
  ∃ p, s.diccionarioDeProgramas.get pid = some p

/-- The counter `cantidadDeHilosEnReady` of a program, 0 when there is no such
program. -/
def cuentaReady (s : Estado E) (pid : Pid) : ℤ :=
  ((s.diccionarioDeProgramas.get pid).map Programa.cantidadDeHilosEnReady).getD 0

/-- The counter `cantidadDeHilosEnNew` of a program, 0 when there is no such
program. -/
def cuentaNew (s : Estado E) (pid : Pid) : ℤ :=
  ((s.diccionarioDeProgramas.get pid).map Programa.cantidadDeHilosEnNew).getD 0

def esDelPrograma (s : Estado E) (pid : Pid) (p : Puntero) : Bool :=
  (identidad s p).map Prod.fst == some pid

/-- How many threads of a program are in New or in the hand of
`planificarReady`. -/
def hilosEnNew (s : Estado E) (pid : Pid) : ℕ :=
  (s.new ++ s.unHilo.toList).countP (esDelPrograma s pid)

/-- No two threads of a program have the same id. -/
def TidUnico (s : Estado E) : Prop :=
  ∀ p q i, identidad s p = some i → identidad s q = some i → p = q

/-- The thread `x` is of the program whose place `l` is. -/
def Propio (s : Estado E) (x : Puntero) (l : Lugar) : Prop :=
  ∃ pid tid, identidad s x = some (pid, tid) ∧ l.esDe pid

/-- The threads of `S` are each in exactly one place, in a place of their own
program, and no other thread is in any place. -/
structure Coherente (s : Estado E) (S : Set Puntero) : Prop where
  particion : Placement (contenido s) S
  propio : ∀ x l, x ∈ contenido s l → Propio s x l
  fresco : ∀ x, s.proximo ≤ x → identidad s x = none
  readyConPrograma : ∀ pid, tieneReady s pid → tienePrograma s pid
  execConReady : ∀ pid, contenido s (.exec pid) ≠ [] → tieneReady s pid

/-- What every handler between the creation of a thread and the end of its
program keeps, apart from the places of the threads. -/
structure Conserva (s s' : Estado E) : Prop where
  identidad : ∀ p, identidad s' p = identidad s p
  proximo : s'.proximo = s.proximo
  conPrograma : ∀ pid, tienePrograma s' pid ↔ tienePrograma s pid
  conReady : ∀ pid, tieneReady s pid → tieneReady s' pid
  readyConPrograma : ∀ pid, tieneReady s' pid → tieneReady s pid ∨ tienePrograma s pid
  execConReady : ∀ pid, contenido s' (.exec pid) ≠ [] →
    contenido s (.exec pid) ≠ [] ∨ tieneReady s' pid
  ready : ∀ pid, cuentaReady s' pid - (contenido s' (.ready pid)).length =
    cuentaReady s pid - (contenido s (.ready pid)).length
  enNew : ∀ pid, cuentaNew s' pid - hilosEnNew s' pid = cuentaNew s pid - hilosEnNew s pid

/-- A handler that does not choose the next thread to run: it leaves the calls
that wait at a mutex alone, and gives no thread to a program without one, except
the first that gets to ready. -/
structure Quieto (s s' : Estado E) : Prop extends Conserva s s' where
  enMutex : s'.enMutex = s.enMutex
  exec : ∀ pid, tieneReady s pid → contenido s (.exec pid) = [] →
    contenido s' (.exec pid) = []

/-- A move of the thread `x` from `l` to `l'`, which is a place of its own
program. -/
def Muda (s : Estado E) (F : Lugar → Lugar → Prop) (x : Puntero) (l l' : Lugar) : Prop :=
  F l l' ∧ Propio s x l'

/-- The handler moves threads along `F`, and may lose some only if `pierde`. -/
structure Mueve (F : Lugar → Lugar → Prop) (pierde : Prop) (s s' : Estado E) : Prop
    extends Conserva s s' where
  moves : Moves (Muda s F) (fun _ _ => pierde) (contenido s) (contenido s')

/-! ## Frames -/

theorem propio_congr (h : ∀ p, identidad s' p = identidad s p) (x : Puntero) (l : Lugar) :
    Propio s' x l ↔ Propio s x l := by
  simp only [Propio, h]

theorem tidUnico_congr (h : ∀ p, identidad s' p = identidad s p) :
    TidUnico s' ↔ TidUnico s := by
  simp only [TidUnico, h]

theorem hilosEnNew_congr (h : ∀ p, identidad s' p = identidad s p) (hnew : s'.new = s.new)
    (hmano : s'.unHilo = s.unHilo) (pid : Pid) : hilosEnNew s' pid = hilosEnNew s pid := by
  have hes : esDelPrograma s' pid = esDelPrograma s pid := by
    funext p
    simp only [esDelPrograma, h]
  rw [hilosEnNew, hilosEnNew, hes, hnew, hmano]

theorem tienePrograma_ponerPrograma {pid : Pid} {p q : Programa}
    (hp : s.diccionarioDeProgramas.get pid = some p) (pid' : Pid) :
    tienePrograma (s.ponerPrograma pid q) pid' ↔ tienePrograma s pid' := by
  by_cases h : pid' = pid
  · subst h
    simp [tienePrograma, hp]
  · simp [tienePrograma, Dictionary.get_put_of_ne _ _ h]

theorem tieneReady_ponerReady {pid : Pid} {l : List Puntero} (pid' : Pid) :
    tieneReady (s.ponerReady pid l) pid' ↔ pid' = pid ∨ tieneReady s pid' := by
  by_cases h : pid' = pid
  · subst h
    simp [tieneReady]
  · simp [tieneReady, Dictionary.get_put_of_ne _ _ h, h]

theorem cuentaReady_ponerPrograma (pid : Pid) (q : Programa) :
    cuentaReady (s.ponerPrograma pid q) =
      update (cuentaReady s) pid q.cantidadDeHilosEnReady := by
  funext pid'
  by_cases h : pid' = pid
  · subst h
    simp [cuentaReady]
  · simp [cuentaReady, Dictionary.get_put_of_ne _ _ h, h]

theorem cuentaNew_ponerPrograma (pid : Pid) (q : Programa) :
    cuentaNew (s.ponerPrograma pid q) = update (cuentaNew s) pid q.cantidadDeHilosEnNew := by
  funext pid'
  by_cases h : pid' = pid
  · subst h
    simp [cuentaNew]
  · simp [cuentaNew, Dictionary.get_put_of_ne _ _ h, h]

theorem cuentaNew_ponerPrograma_eq {pid : Pid} {p q : Programa}
    (hp : s.diccionarioDeProgramas.get pid = some p)
    (hnew : q.cantidadDeHilosEnNew = p.cantidadDeHilosEnNew) :
    cuentaNew (s.ponerPrograma pid q) = cuentaNew s := by
  have heq : cuentaNew s pid = p.cantidadDeHilosEnNew := by simp [cuentaNew, hp]
  rw [cuentaNew_ponerPrograma, hnew, ← heq, Function.update_eq_self]

theorem enNew_congr (h : ∀ p, identidad s' p = identidad s p) (hnew : s'.new = s.new)
    (hmano : s'.unHilo = s.unHilo) (hcuenta : cuentaNew s' = cuentaNew s) (pid : Pid) :
    cuentaNew s' pid - hilosEnNew s' pid = cuentaNew s pid - hilosEnNew s pid := by
  rw [hcuenta, hilosEnNew_congr h hnew hmano]

theorem cuentaReady_eq {pid : Pid} {p : Programa}
    (hp : s.diccionarioDeProgramas.get pid = some p) :
    cuentaReady s pid = p.cantidadDeHilosEnReady := by
  simp [cuentaReady, hp]

theorem cuentaNew_eq {pid : Pid} {p : Programa}
    (hp : s.diccionarioDeProgramas.get pid = some p) :
    cuentaNew s pid = p.cantidadDeHilosEnNew := by
  simp [cuentaNew, hp]

namespace Conserva

theorem refl (s : Estado E) : Conserva s s where
  identidad := fun _ => rfl
  proximo := rfl
  conPrograma := fun _ => Iff.rfl
  conReady := fun _ h => h
  readyConPrograma := fun _ h => Or.inl h
  execConReady := fun _ h => Or.inl h
  ready := fun _ => rfl
  enNew := fun _ => rfl

theorem trans (h : Conserva s s') (h' : Conserva s' s'') : Conserva s s'' where
  identidad := fun p => (h'.identidad p).trans (h.identidad p)
  proximo := h'.proximo.trans h.proximo
  conPrograma := fun pid => (h'.conPrograma pid).trans (h.conPrograma pid)
  conReady := fun pid hr => h'.conReady pid (h.conReady pid hr)
  readyConPrograma := by
    intro pid hr
    rcases h'.readyConPrograma pid hr with hr | hp
    · exact h.readyConPrograma pid hr
    · exact Or.inr ((h.conPrograma pid).1 hp)
  execConReady := by
    intro pid he
    rcases h'.execConReady pid he with he | hr
    · rcases h.execConReady pid he with he | hr
      · exact Or.inl he
      · exact Or.inr (h'.conReady pid hr)
    · exact Or.inr hr
  ready := fun pid => (h'.ready pid).trans (h.ready pid)
  enNew := fun pid => (h'.enNew pid).trans (h.enNew pid)

end Conserva

namespace Quieto

theorem refl (s : Estado E) : Quieto s s where
  toConserva := .refl s
  enMutex := rfl
  exec := fun _ _ h => h

theorem trans (h : Quieto s s') (h' : Quieto s' s'') : Quieto s s'' where
  toConserva := h.toConserva.trans h'.toConserva
  enMutex := h'.enMutex.trans h.enMutex
  exec := fun pid hr he => h'.exec pid (h.conReady pid hr) (h.exec pid hr he)

/-- Rewriting a program with its two counters kept, and its `exec` kept or
emptied. -/
theorem ponerPrograma {pid : Pid} {p q : Programa}
    (hp : s.diccionarioDeProgramas.get pid = some p)
    (hexec : q.exec = p.exec ∨ q.exec = none)
    (hready : q.cantidadDeHilosEnReady = p.cantidadDeHilosEnReady)
    (hnew : q.cantidadDeHilosEnNew = p.cantidadDeHilosEnNew) :
    Quieto s (s.ponerPrograma pid q) := by
  have hcont : ∀ pid', contenido (s.ponerPrograma pid q) (.exec pid') =
      contenido s (.exec pid') ∨ contenido (s.ponerPrograma pid q) (.exec pid') = [] := by
    intro pid'
    by_cases h : pid' = pid
    · subst h
      rcases hexec with hexec | hexec <;> simp [contenido, hp, hexec]
    · simp [contenido, Dictionary.get_put_of_ne _ _ h]
  refine
    { identidad := fun _ => rfl, proximo := rfl
      conPrograma := tienePrograma_ponerPrograma hp
      conReady := fun _ h => h, readyConPrograma := fun _ h => Or.inl h
      execConReady := ?_, ready := ?_, enNew := ?_, enMutex := rfl, exec := ?_ }
  · intro pid' he
    rcases hcont pid' with hc | hc
    · exact Or.inl (hc ▸ he)
    · exact absurd hc he
  · intro pid'
    have hcuenta : cuentaReady (s.ponerPrograma pid q) = cuentaReady s := by
      rw [cuentaReady_ponerPrograma, hready, ← cuentaReady_eq hp, Function.update_eq_self]
    rw [hcuenta]
    rfl
  · exact enNew_congr (fun _ => rfl) rfl rfl (cuentaNew_ponerPrograma_eq hp hnew)
  · intro pid' _ he
    rcases hcont pid' with hc | hc
    · rw [hc, he]
    · exact hc

theorem ponerHilo {p : Puntero} {h h' : Hilo E} (hp : s.hilos p = some h)
    (hpid : h'.pid = h.pid) (htid : h'.tid = h.tid) : Quieto s (s.ponerHilo p h') where
  identidad := identidad_ponerHilo hp hpid htid
  proximo := rfl
  conPrograma := fun _ => Iff.rfl
  conReady := fun _ h => h
  readyConPrograma := fun _ h => Or.inl h
  execConReady := fun _ h => Or.inl h
  ready := fun _ => rfl
  enNew := enNew_congr (identidad_ponerHilo hp hpid htid) rfl rfl rfl
  enMutex := rfl
  exec := fun _ _ h => h

/-- Rewriting what these facts do not speak of. -/
theorem resto (blocked : Dictionary String (List Puntero)) (sems : Dictionary String Semaforo)
    (exits : Dictionary Pid (List Puntero)) (nuevos maximo inicio : ℕ) :
    Quieto s { s with
      diccionarioDeBlockedPorSemaforo := blocked
      semaforos := sems
      diccionarioDeListasDeExit := exits
      hayNuevos := nuevos
      maximoProcesamiento := maximo
      inicioRafaga := inicio } where
  identidad := fun _ => rfl
  proximo := rfl
  conPrograma := fun _ => Iff.rfl
  conReady := fun _ h => h
  readyConPrograma := fun _ h => Or.inl h
  execConReady := fun _ h => Or.inl h
  ready := fun _ => rfl
  enNew := fun _ => rfl
  enMutex := rfl
  exec := fun _ _ h => h

end Quieto

theorem SoloTiempos.quieto (h : SoloTiempos s s') : Quieto s s' := by
  have hready : ∀ pid, tieneReady s' pid ↔ tieneReady s pid := by
    intro pid
    have hdic : s'.diccionarioDeListasDeReady = s.diccionarioDeListasDeReady :=
      h.campo Estado.diccionarioDeListasDeReady
    rw [tieneReady, tieneReady, hdic]
  have hprog : ∀ pid, tienePrograma s' pid ↔ tienePrograma s pid := by
    intro pid
    have hmap := congrArg Option.isSome (h.programas pid)
    simp only [Option.isSome_map] at hmap
    simp only [tienePrograma, ← Option.isSome_iff_exists, hmap]
  refine
    { identidad := h.hilos, proximo := h.campo Estado.proximo, conPrograma := hprog
      conReady := fun pid => (hready pid).2
      readyConPrograma := fun pid hr => Or.inl ((hready pid).1 hr)
      execConReady := ?_, ready := ?_, enNew := ?_
      enMutex := h.campo Estado.enMutex, exec := ?_ }
  · intro pid he
    rw [h.contenido] at he
    exact Or.inl he
  · intro pid
    have hcuenta : cuentaReady s' pid = cuentaReady s pid := by
      have hmap := congrArg
        (fun o => (o.map Programa.cantidadDeHilosEnReady).getD 0) (h.programas pid)
      simpa [Function.comp_def, Programa.sinTiempo, cuentaReady] using hmap
    rw [h.contenido, hcuenta]
  · refine enNew_congr h.hilos (h.campo Estado.new) (h.campo Estado.unHilo) ?_
    funext pid
    have hmap := congrArg
      (fun o => (o.map Programa.cantidadDeHilosEnNew).getD 0) (h.programas pid)
    simpa [Function.comp_def, Programa.sinTiempo, cuentaNew] using hmap
  · intro pid _ he
    rw [h.contenido, he]

end Suse
