import Linuse.Suse.Ejecucion
import Mathlib.Order.Lattice
import Mathlib.Algebra.Order.Ring.Unbundled.Rat

/-!
# Shortest job first

`siguienteAEjecutar` estimates the running thread again, sorts the ready list and
compares its head with the running thread. When estimates are totally ordered and
`list_sort` sorts by them (`Entorno.EnOrden`), the thread it leaves in `exec` is
one of the running and ready threads and none of them has a smaller estimate
(`siguienteAEjecutar_menor`).

The function dereferences the running thread and the threads of the ready list
without a check: `Disponible` says that their records exist, as they do in every
state that a run reaches (`disponible_of_run`).
-/

namespace Suse

open Function (update update_self update_of_ne update_eq_self)
open Transition

variable {E : Type} {s s' : Estado E} {env : Entorno E} {pid : Pid}

/-- The comparisons are those of a total order, and `list_sort` sorts threads by
their estimates. -/
structure Entorno.EnOrden [LinearOrder E] (env : Entorno E) : Prop where
  menor : ∀ a b, env.menor a b = true ↔ a < b
  menorIgual : ∀ a b, env.menorIgual a b = true ↔ a ≤ b
  listSort : ∀ (s : Estado E) l, (∀ x ∈ l, ∃ h, s.hilos x = some h) →
    (env.listSort (tieneMenorEstimacion env s) l).Pairwise fun x y =>
      tieneMenorEstimacion env s x y = true

/-- The program has a ready list, and the records of its running and ready
threads exist and are its own. -/
structure Disponible (s : Estado E) (pid : Pid) (p : Programa) (l : List Puntero) : Prop where
  programa : s.diccionarioDeProgramas.get pid = some p
  ready : s.diccionarioDeListasDeReady.get pid = some l
  registro : ∀ x ∈ p.exec.toList ++ l, ∃ h, s.hilos x = some h ∧ h.pid = pid

/-- The running thread of a program and its ready threads. -/
def candidatos (s : Estado E) (pid : Pid) : List Puntero :=
  contenido s (.exec pid) ++ contenido s (.ready pid)

def estimacionDe (s : Estado E) (x : Puntero) : Option E := (s.hilos x).map Hilo.estimacion

/-- The estimate of a thread after `recalcularEstimacion`. -/
def reestimada (env : Entorno E) (s : Estado E) (pid : Pid) (ahora : ℕ) (x : Puntero) :
    Option E :=
  if x ∈ contenido s (.exec pid) then
    (estimacionDe s x).map fun e => env.actualizar e (aInt (ahora - s.inicioRafaga))
  else estimacionDe s x

/-- The estimate of `x` is not greater than that of any thread of `l`. -/
def Minima [LE E] (s : Estado E) (l : List Puntero) (x : Puntero) : Prop :=
  ∃ e, estimacionDe s x = some e ∧ ∀ y ∈ l, ∃ e', estimacionDe s y = some e' ∧ e ≤ e'

theorem disponible_of_coherente {S : Set Puntero} (hC : Coherente s S)
    (h : candidatos s pid ≠ []) : ∃ p l, Disponible s pid p l := by
  have hready : tieneReady s pid := by
    by_cases hexec : contenido s (.exec pid) = []
    · cases hl : s.diccionarioDeListasDeReady.get pid with
      | none =>
          have hvacia : contenido s (.ready pid) = [] := by simp [contenido, hl]
          exact absurd (by rw [candidatos, hexec, hvacia, List.nil_append]) h
      | some l => exact ⟨l, hl⟩
    · exact hC.execConReady pid hexec
  obtain ⟨p, hp⟩ := hC.readyConPrograma pid hready
  obtain ⟨l, hl⟩ := hready
  refine ⟨p, l, hp, hl, fun x hx => ?_⟩
  have hpropio : ∃ tid, identidad s x = some (pid, tid) := by
    rw [← contenido_exec hp, ← contenido_ready hl, List.mem_append] at hx
    rcases hx with hx | hx
    · obtain ⟨_, tid, hid, rfl⟩ := hC.propio x _ hx
      exact ⟨tid, hid⟩
    · obtain ⟨_, tid, hid, rfl⟩ := hC.propio x _ hx
      exact ⟨tid, hid⟩
  obtain ⟨tid, hid⟩ := hpropio
  obtain ⟨hilo, hhilo, heq⟩ := Option.map_eq_some_iff.1 hid
  exact ⟨hilo, hhilo, congrArg Prod.fst heq⟩

/-- In every state of a run, a program with a running or a ready thread has the
records that its `schedule_next` reads. -/
theorem disponible_of_run {c : Configuracion} {tr : List (Step (Estado E) Evento)}
    (hrun : Run (Transicion env) (iniciarSUSE c) tr s) (h : candidatos s pid ≠ []) :
    ∃ p l, Disponible s pid p l := by
  obtain ⟨S, hC⟩ := coherente_of_run hrun
  exact disponible_of_coherente hC h

namespace Disponible

variable {p : Programa} {l : List Puntero}

theorem contenidoExec (h : Disponible s pid p l) : contenido s (.exec pid) = p.exec.toList :=
  contenido_exec h.programa

theorem contenidoReady (h : Disponible s pid p l) : contenido s (.ready pid) = l :=
  contenido_ready h.ready

theorem candidatos_eq (h : Disponible s pid p l) : candidatos s pid = p.exec.toList ++ l := by
  rw [candidatos, h.contenidoExec, h.contenidoReady]

theorem pid_eq (hd : Disponible s pid p l) {x : Puntero} {h : Hilo E}
    (hx : x ∈ p.exec.toList ++ l) (hh : s.hilos x = some h) : h.pid = pid := by
  obtain ⟨h', hh', hpid⟩ := hd.registro x hx
  rw [hh] at hh'
  cases hh'
  exact hpid

end Disponible

/-! ## Estimating again and sorting -/

/-- The two states differ in the records of the threads of `l` only, and these
keep their ids. -/
structure SoloRegistros (l : List Puntero) (s s' : Estado E) : Prop where
  identidad : ∀ y, identidad s' y = identidad s y
  ajenos : ∀ y, y ∉ l → s'.hilos y = s.hilos y

namespace SoloRegistros

variable {l : List Puntero} {s'' : Estado E}

theorem of_eq (h : s'.hilos = s.hilos) : SoloRegistros l s s' :=
  ⟨fun _ => by simp only [Suse.identidad, h], fun _ _ => by rw [h]⟩

theorem trans (h : SoloRegistros l s s') (h' : SoloRegistros l s' s'') : SoloRegistros l s s'' :=
  ⟨fun y => (h'.identidad y).trans (h.identidad y),
    fun y hy => (h'.ajenos y hy).trans (h.ajenos y hy)⟩

theorem ponerHilo {x : Puntero} {h h' : Hilo E} (hx : x ∈ l) (hh : s.hilos x = some h)
    (hpid : h'.pid = h.pid) (htid : h'.tid = h.tid) :
    SoloRegistros l s (s.ponerHilo x h') := by
  refine ⟨identidad_ponerHilo hh hpid htid, fun y hy => ?_⟩
  have hyx : y ≠ x := fun heq => hy (heq ▸ hx)
  simp [hyx]

end SoloRegistros

/-- The step only moves threads between `exec` and the ready list of the program
`pid`, and rewrites the records of those threads. -/
structure Reparte (s s' : Estado E) (pid : Pid) : Prop where
  reparto : (candidatos s' pid).Perm (candidatos s pid)
  lugares : ∀ l : Lugar, l ≠ .exec pid → l ≠ .ready pid → contenido s' l = contenido s l
  programas : ∀ pid', pid' ≠ pid →
    s'.diccionarioDeProgramas.get pid' = s.diccionarioDeProgramas.get pid'
  registros : SoloRegistros (candidatos s pid) s s'

namespace Reparte

theorem trans {s'' : Estado E} (h : Reparte s s' pid) (h' : Reparte s' s'' pid) :
    Reparte s s'' pid where
  reparto := h'.reparto.trans h.reparto
  lugares := fun l he hr => (h'.lugares l he hr).trans (h.lugares l he hr)
  programas := fun pid' hne => (h'.programas pid' hne).trans (h.programas pid' hne)
  registros := by
    refine h.registros.trans ⟨h'.registros.identidad, fun y hy => h'.registros.ajenos y ?_⟩
    rwa [h.reparto.mem_iff]

/-- Rewriting the record of a running or ready thread of the program. -/
theorem ponerHilo {x : Puntero} {h h' : Hilo E} (hx : x ∈ candidatos s pid)
    (hh : s.hilos x = some h) (hpid : h'.pid = h.pid) (htid : h'.tid = h.tid) :
    Reparte s (s.ponerHilo x h') pid where
  reparto := .refl _
  lugares := fun _ _ _ => rfl
  programas := fun _ _ => rfl
  registros := .ponerHilo hx hh hpid htid

/-- Choosing a thread: the ready list and `exec` of the program are rewritten. -/
theorem elegido {p q : Programa} {l lista : List Puntero} (t : ℕ)
    (hd : Disponible s pid p l) (hblocked : q.blocked = p.blocked)
    (hperm : (q.exec.toList ++ lista).Perm (p.exec.toList ++ l)) :
    Reparte s (elegido s pid lista q t) pid := by
  have hcont := elegido_contenido lista t hd.programa hblocked
  refine ⟨?_, ?_, ?_, .of_eq rfl⟩
  · rw [hd.candidatos_eq, candidatos, hcont, update_self, update_of_ne (by simp), update_self]
    exact hperm
  · intro lugar he hr
    rw [hcont, update_of_ne he, update_of_ne hr]
  · intro pid' hne
    simp [Suse.elegido, Dictionary.get_put_of_ne _ _ hne]

end Reparte

/-! ## Estimating again and sorting -/

theorem estimacionDe_ponerHilo (x : Puntero) (h : Hilo E) (y : Puntero) :
    estimacionDe (s.ponerHilo x h) y =
      if y = x then some h.estimacion else estimacionDe s y := by
  by_cases hyx : y = x
  · simp [estimacionDe, hyx]
  · simp [estimacionDe, hyx]

/-- Rewriting a record without its estimate changes no estimate. -/
theorem estimacionDe_ponerHilo_eq {x : Puntero} {h h' : Hilo E} (hh : s.hilos x = some h)
    (he : h'.estimacion = h.estimacion) (y : Puntero) :
    estimacionDe (s.ponerHilo x h') y = estimacionDe s y := by
  rw [estimacionDe_ponerHilo, he]
  split_ifs with hyx
  · rw [hyx, estimacionDe, hh]
    rfl
  · rfl

section Pasos

variable {p : Programa} {l : List Puntero}

/-- Rewriting the record of a thread under its program keeps the program
available. -/
theorem Disponible.ponerHilo (hd : Disponible s pid p l) {x : Puntero} {h : Hilo E}
    (hh : h.pid = pid) : Disponible (s.ponerHilo x h) pid p l where
  programa := hd.programa
  ready := hd.ready
  registro := by
    intro y hy
    by_cases hyx : y = x
    · exact ⟨h, by simp [hyx], hh⟩
    · obtain ⟨h', hh', hpid⟩ := hd.registro y hy
      exact ⟨h', by simpa [hyx] using hh', hpid⟩

theorem Disponible.estimacionDe (hd : Disponible s pid p l) {x : Puntero}
    (hx : x ∈ candidatos s pid) : ∃ e, estimacionDe s x = some e := by
  rw [hd.candidatos_eq] at hx
  obtain ⟨h, hh, -⟩ := hd.registro x hx
  exact ⟨h.estimacion, by simp [Suse.estimacionDe, hh]⟩

theorem recalcularEstimacion_reestima (env : Entorno E) (hd : Disponible s pid p l) (ahora : ℕ) :
    ∃ s₁, recalcularEstimacion env s pid ahora = .ok s₁ ∧ Disponible s₁ pid p l ∧
      Reparte s s₁ pid ∧ (contenido s₁ = contenido s) ∧
      ∀ y, estimacionDe s₁ y = reestimada env s pid ahora y := by
  cases hexec : p.exec with
  | none =>
      refine ⟨s, ?_, hd, ⟨.refl _, fun _ _ _ => rfl, fun _ _ => rfl, .of_eq rfl⟩, rfl, ?_⟩
      · simp [recalcularEstimacion, hd.programa, hexec]
      · intro y
        simp [reestimada, hd.contenidoExec, hexec]
  | some x =>
      obtain ⟨h, hh, hpid⟩ := hd.registro x (by simp [hexec])
      have hx : x ∈ candidatos s pid := by simp [hd.candidatos_eq, hexec]
      refine ⟨s.ponerHilo x (actualizarEstimacion env
        { h with rafaga := aInt (ahora - s.inicioRafaga) }), ?_, hd.ponerHilo hpid,
        .ponerHilo hx hh rfl rfl, rfl, ?_⟩
      · simp [recalcularEstimacion, hd.programa, hexec, hh, Fallible.orFail, bind, Except.bind,
          pure, Except.pure]
      · intro y
        rw [estimacionDe_ponerHilo, reestimada, hd.contenidoExec, hexec, Option.toList_some]
        simp only [List.mem_singleton]
        split_ifs with hyx
        · rw [hyx, estimacionDe, hh]
          rfl
        · rfl

theorem replanificarHilos_ordena [LinearOrder E] (horden : env.EnOrden)
    (hd : Disponible s pid p l) :
    ∃ l', replanificarHilos env s pid = .ok (s.ponerReady pid l') ∧
      Disponible (s.ponerReady pid l') pid p l' ∧ Reparte s (s.ponerReady pid l') pid ∧
      l'.Pairwise fun x y => tieneMenorEstimacion env s x y = true := by
  have hperm := env.listSort_perm (tieneMenorEstimacion env s) l
  refine ⟨env.listSort (tieneMenorEstimacion env s) l, ?_, ⟨hd.programa, by simp, ?_⟩, ?_, ?_⟩
  · simp [replanificarHilos, hd.ready, Fallible.orFail, bind, Except.bind, pure, Except.pure]
  · intro x hx
    apply hd.registro x
    rw [List.mem_append] at hx ⊢
    exact hx.imp id hperm.mem_iff.1
  · refine ⟨?_, fun lugar _ hr => ?_, fun _ _ => rfl, .of_eq rfl⟩
    · rw [hd.candidatos_eq, candidatos, contenido_ponerReady, update_self,
        update_of_ne (by simp), hd.contenidoExec]
      exact hperm.append_left _
    · rw [contenido_ponerReady, update_of_ne hr]
  · apply horden.listSort
    intro x hx
    obtain ⟨h, hh, -⟩ := hd.registro x (List.mem_append_right _ hx)
    exact ⟨h, hh⟩

end Pasos

/-! ## The choice -/

/-- The step leaves `x` in `exec`, with no smaller estimate among the running and
ready threads, and answers with its id. -/
structure EligeMenor [LE E] (s s' : Estado E) (pid : Pid) (x : Puntero) (tid : Tid) :
    Prop where
  exec : contenido s' (.exec pid) = [x]
  respuesta : identidad s' x = some (pid, tid)
  minima : Minima s' (candidatos s pid) x
  empate : ∀ y ∈ contenido s (.exec pid), Minima s' (candidatos s pid) y → y = x
  reparte : Reparte s s' pid

section Eleccion

variable [LinearOrder E] {p : Programa} {l : List Puntero}

theorem tieneMenorEstimacion_iff (horden : env.EnOrden) {x y : Puntero} {h h' : Hilo E}
    (hh : s.hilos x = some h) (hh' : s.hilos y = some h') :
    tieneMenorEstimacion env s x y = true ↔ h.estimacion ≤ h'.estimacion := by
  simp only [tieneMenorEstimacion, hh, hh']
  exact horden.menorIgual _ _

theorem minima_congr {l' : List Puntero} (h : ∀ y, estimacionDe s' y = estimacionDe s y)
    (x : Puntero) : Minima s' l' x ↔ Minima s l' x := by
  simp only [Minima, h]

theorem minima_of_le {l' : List Puntero} {x : Puntero} {h : Hilo E} (hh : s.hilos x = some h)
    (hle : ∀ y ∈ l', ∃ h', s.hilos y = some h' ∧ h.estimacion ≤ h'.estimacion) :
    Minima s l' x := by
  refine ⟨h.estimacion, by simp [estimacionDe, hh], fun y hy => ?_⟩
  obtain ⟨h', hh', hle'⟩ := hle y hy
  exact ⟨h'.estimacion, by simp [estimacionDe, hh'], hle'⟩

/-- The running thread goes on: no ready thread has a smaller estimate. -/
theorem seguirEjecutando_menor (hd : Disponible s pid p l) {x : Puntero} {h : Hilo E}
    (hexec : p.exec = some x) (hh : s.hilos x = some h)
    (hle : ∀ y ∈ l, ∃ h', s.hilos y = some h' ∧ h.estimacion ≤ h'.estimacion)
    (reloj : ℕ → ℕ) :
    EligeMenor s (seguirEjecutando s x h reloj) pid x h.tid ∧
      ∀ y, estimacionDe (seguirEjecutando s x h reloj) y = estimacionDe s y := by
  have hest : ∀ y, estimacionDe (seguirEjecutando s x h reloj) y = estimacionDe s y :=
    estimacionDe_ponerHilo_eq hh rfl
  have hx : x ∈ candidatos s pid := by simp [hd.candidatos_eq, hexec]
  have hpid : h.pid = pid := hd.pid_eq (by simp [hexec]) hh
  have hrep : Reparte s (seguirEjecutando s x h reloj) pid := .ponerHilo hx hh rfl rfl
  refine ⟨⟨?_, ?_, ?_, ?_, hrep⟩, hest⟩
  · exact mem_exec hd.programa hexec
  · rw [hrep.registros.identidad, identidad_eq hh, hpid]
  · rw [minima_congr hest]
    refine minima_of_le hh fun y hy => ?_
    rw [hd.candidatos_eq, hexec, Option.toList_some, List.singleton_append,
      List.mem_cons] at hy
    rcases hy with rfl | hy
    · exact ⟨h, hh, le_refl _⟩
    · exact hle y hy
  · intro y hy _
    rw [hd.contenidoExec, hexec] at hy
    simpa using hy

/-- The head of the ready list goes to `exec` in place of the running thread,
which has a greater estimate. -/
theorem desalojar_menor {x y : Puntero} {resto : List Puntero}
    (hd : Disponible s pid p (y :: resto)) {h c : Hilo E} (hexec : p.exec = some x)
    (hh : s.hilos x = some h) (hc : s.hilos y = some c) (hlt : c.estimacion < h.estimacion)
    (hle : ∀ z ∈ resto, ∃ h', s.hilos z = some h' ∧ c.estimacion ≤ h'.estimacion)
    (reloj : ℕ → ℕ) :
    EligeMenor s (desalojar s pid p x y h c resto reloj) pid y c.tid ∧
      ∀ z, estimacionDe (desalojar s pid p x y h c resto reloj) z = estimacionDe s z := by
  have hne : y ≠ x := by
    intro heq
    rw [heq, hh] at hc
    cases hc
    exact lt_irrefl _ hlt
  -- the two records are written after the swap
  obtain ⟨t₁, ht₁⟩ : ∃ t₁, t₁ = elegido s pid (resto ++ [x]) { p with exec := some y } (reloj 1) :=
    ⟨_, rfl⟩
  obtain ⟨h', hh'⟩ : ∃ h' : Hilo E, h' = { h with
      sumaDeIntervalosEnExec := h.sumaDeIntervalosEnExec + aInt (reloj 2 - h.timestampExec)
      timestampReady := reloj 3 } := ⟨_, rfl⟩
  obtain ⟨c', hc'⟩ : ∃ c' : Hilo E, c' = { c with
      sumaDeIntervalosEnReady := c.sumaDeIntervalosEnReady + aInt (reloj 4 - c.timestampReady)
      timestampExec := reloj 5 } := ⟨_, rfl⟩
  have hdes : desalojar s pid p x y h c resto reloj = (t₁.ponerHilo x h').ponerHilo y c' := by
    rw [ht₁, hh', hc']
    rfl
  have hx₁ : t₁.hilos x = some h := by rw [ht₁]; exact hh
  have hy₁ : (t₁.ponerHilo x h').hilos y = some c := by
    simpa [ht₁, hne, elegido] using hc
  have hreparte₁ : Reparte s t₁ pid := by
    rw [ht₁]
    refine .elegido _ hd rfl ?_
    simp only [hexec, Option.toList_some, List.singleton_append]
    exact (List.perm_append_singleton x (y :: resto)).trans (.refl _)
  have hcand : ∀ z, z ∈ candidatos t₁ pid ↔ z = x ∨ z = y ∨ z ∈ resto := by
    intro z
    rw [hreparte₁.reparto.mem_iff, hd.candidatos_eq, hexec]
    simp
  have hreparte : Reparte s ((t₁.ponerHilo x h').ponerHilo y c') pid :=
    (hreparte₁.trans (.ponerHilo ((hcand x).2 (Or.inl rfl)) hx₁ (by rw [hh']) (by rw [hh']))).trans
      (.ponerHilo ((hcand y).2 (Or.inr (Or.inl rfl))) hy₁ (by rw [hc']) (by rw [hc']))
  have hest : ∀ z, estimacionDe ((t₁.ponerHilo x h').ponerHilo y c') z = estimacionDe s z := by
    intro z
    rw [estimacionDe_ponerHilo_eq hy₁ (by rw [hc']), estimacionDe_ponerHilo_eq hx₁ (by rw [hh']),
      ht₁]
    rfl
  have hpid : c.pid = pid := hd.pid_eq (by simp) hc
  rw [hdes]
  refine ⟨⟨?_, ?_, ?_, ?_, hreparte⟩, hest⟩
  · rw [contenido_ponerHilo, contenido_ponerHilo, ht₁, elegido_contenido (p := p), update_self]
    · rfl
    · exact hd.programa
    · rfl
  · rw [hreparte.registros.identidad, identidad_eq hc, hpid]
  · rw [minima_congr hest]
    refine minima_of_le hc fun z hz => ?_
    rw [← hreparte₁.reparto.mem_iff, hcand] at hz
    rcases hz with rfl | rfl | hz
    · exact ⟨h, hh, hlt.le⟩
    · exact ⟨c, hc, le_refl _⟩
    · exact hle z hz
  · intro z hz hmin
    rw [hd.contenidoExec, hexec, Option.toList_some, List.mem_singleton] at hz
    subst hz
    rw [minima_congr hest] at hmin
    obtain ⟨e, he, hle'⟩ := hmin
    obtain ⟨e', he', hle''⟩ := hle' y (by simp [hd.candidatos_eq])
    simp only [estimacionDe, hh, hc, Option.map_some, Option.some.injEq] at he he'
    subst he
    subst he'
    exact absurd hle'' (not_le.2 hlt)

/-- The head of the ready list goes to an empty `exec`. -/
theorem enExec_menor {y : Puntero} {resto : List Puntero}
    (hd : Disponible s pid p (y :: resto)) {c : Hilo E} (hexec : p.exec = none)
    (hc : s.hilos y = some c)
    (hle : ∀ z ∈ resto, ∃ h', s.hilos z = some h' ∧ c.estimacion ≤ h'.estimacion)
    (reloj : ℕ → ℕ) :
    EligeMenor s (enExec s pid y resto reloj p c) pid y c.tid ∧
      ∀ z, estimacionDe (enExec s pid y resto reloj p c) z = estimacionDe s z := by
  obtain ⟨t₁, ht₁⟩ : ∃ t₁, t₁ = elegido s pid resto { p with
      exec := some y, cantidadDeHilosEnReady := p.cantidadDeHilosEnReady - 1 } (reloj 1) :=
    ⟨_, rfl⟩
  obtain ⟨c', hc'⟩ : ∃ c' : Hilo E, c' = { c with
      sumaDeIntervalosEnReady := c.sumaDeIntervalosEnReady + aInt (reloj 2 - c.timestampReady)
      timestampExec := reloj 3 } := ⟨_, rfl⟩
  have hen : enExec s pid y resto reloj p c = t₁.ponerHilo y c' := by
    rw [ht₁, hc']
    rfl
  have hy₁ : t₁.hilos y = some c := by rw [ht₁]; exact hc
  have hreparte₁ : Reparte s t₁ pid := by
    rw [ht₁]
    refine .elegido _ hd rfl ?_
    simp [hexec]
  have hcand : ∀ z, z ∈ candidatos t₁ pid ↔ z = y ∨ z ∈ resto := by
    intro z
    rw [hreparte₁.reparto.mem_iff, hd.candidatos_eq, hexec]
    simp
  have hreparte : Reparte s (t₁.ponerHilo y c') pid :=
    hreparte₁.trans (.ponerHilo ((hcand y).2 (Or.inl rfl)) hy₁ (by rw [hc']) (by rw [hc']))
  have hest : ∀ z, estimacionDe (t₁.ponerHilo y c') z = estimacionDe s z := by
    intro z
    rw [estimacionDe_ponerHilo_eq hy₁ (by rw [hc']), ht₁]
    rfl
  have hpid : c.pid = pid := hd.pid_eq (by simp) hc
  rw [hen]
  refine ⟨⟨?_, ?_, ?_, ?_, hreparte⟩, hest⟩
  · rw [contenido_ponerHilo, ht₁, elegido_contenido (p := p), update_self]
    · rfl
    · exact hd.programa
    · rfl
  · rw [hreparte.registros.identidad, identidad_eq hc, hpid]
  · rw [minima_congr hest]
    refine minima_of_le hc fun z hz => ?_
    rw [← hreparte₁.reparto.mem_iff, hcand] at hz
    rcases hz with rfl | hz
    · exact ⟨c, hc, le_refl _⟩
    · exact hle z hz
  · intro z hz
    rw [hd.contenidoExec, hexec] at hz
    cases hz

/-- From a sorted ready list, `calcularSiguienteHilo` chooses a thread of smallest
estimate. -/
theorem calcularSiguienteHilo_menor (horden : env.EnOrden) (hd : Disponible s pid p l)
    (hno : candidatos s pid ≠ [])
    (hsort : l.Pairwise fun x y => tieneMenorEstimacion env s x y = true) (reloj : ℕ → ℕ) :
    ∃ s' x tid, calcularSiguienteHilo env s pid reloj = .ok (s', some tid) ∧
      EligeMenor s s' pid x tid ∧ ∀ y, estimacionDe s' y = estimacionDe s y := by
  have hcola : ∀ {y : Puntero} {resto : List Puntero} {c : Hilo E}, l = y :: resto →
      s.hilos y = some c →
      ∀ z ∈ resto, ∃ h', s.hilos z = some h' ∧ c.estimacion ≤ h'.estimacion := by
    intro y resto c hl hc z hz
    rw [hl, List.pairwise_cons] at hsort
    obtain ⟨h', hh', -⟩ := hd.registro z (by simp [hl, hz])
    exact ⟨h', hh', (tieneMenorEstimacion_iff horden hc hh').1 (hsort.1 z hz)⟩
  cases hexec : p.exec with
  | none =>
      cases l with
      | nil => simp [hd.candidatos_eq, hexec] at hno
      | cons y resto =>
          obtain ⟨c, hc, -⟩ := hd.registro y (by simp)
          refine ⟨_, y, c.tid, ?_, enExec_menor hd hexec hc (hcola rfl hc) reloj⟩
          simp [calcularSiguienteHilo, hd.ready, hd.programa, hexec, ponerEnExec, hc, enExec,
            Fallible.orFail, bind, Except.bind, pure, Except.pure]
  | some x =>
      obtain ⟨h, hh, -⟩ := hd.registro x (by simp [hexec])
      cases l with
      | nil =>
          refine ⟨_, x, h.tid, ?_, seguirEjecutando_menor hd hexec hh (by simp) reloj⟩
          simp [calcularSiguienteHilo, hd.ready, hd.programa, hexec, hh, Fallible.orFail, bind,
            Except.bind, pure, Except.pure]
      | cons y resto =>
          obtain ⟨c, hc, -⟩ := hd.registro y (by simp)
          by_cases hlt : c.estimacion < h.estimacion
          · refine ⟨_, y, c.tid, ?_,
              desalojar_menor hd hexec hh hc hlt (hcola rfl hc) reloj⟩
            simp [calcularSiguienteHilo, hd.ready, hd.programa, hexec, hh, hc,
              (horden.menor _ _).2 hlt, Fallible.orFail, bind, Except.bind, pure, Except.pure]
          · have hle : ∀ z ∈ y :: resto, ∃ h', s.hilos z = some h' ∧
                h.estimacion ≤ h'.estimacion := by
              intro z hz
              rcases List.mem_cons.1 hz with rfl | hz
              · exact ⟨c, hc, not_lt.1 hlt⟩
              · obtain ⟨h', hh', hle⟩ := hcola rfl hc z hz
                exact ⟨h', hh', (not_lt.1 hlt).trans hle⟩
            have hmenor : env.menor c.estimacion h.estimacion = false := by
              rw [Bool.eq_false_iff, ne_eq, horden.menor]
              exact hlt
            refine ⟨_, x, h.tid, ?_, seguirEjecutando_menor hd hexec hh hle reloj⟩
            simp [calcularSiguienteHilo, hd.ready, hd.programa, hexec, hh, hc, hmenor,
              Fallible.orFail, bind, Except.bind, pure, Except.pure]

end Eleccion

theorem Minima.perm [LE E] {l l' : List Puntero} (h : l.Perm l') (x : Puntero) :
    Minima s l x ↔ Minima s l' x := by
  simp only [Minima, h.mem_iff]

/-- When estimates are totally ordered and the ready list is sorted by them, a
`schedule_next` of a program with a running or a ready thread answers with the
thread it leaves in `exec`: one of the running and ready threads, with the
smallest of their new estimates, and the running one if it has it. It moves no
thread out of `exec` and ready, and no thread of another program. -/
theorem siguienteAEjecutar_menor [LinearOrder E] {env : Entorno E} (horden : env.EnOrden)
    {p : Programa} {l : List Puntero} (hd : Disponible s pid p l)
    (hno : candidatos s pid ≠ []) (reloj : ℕ → ℕ) :
    ∃ s' x tid, siguienteAEjecutar env s pid reloj = .ok (s', some tid) ∧
      x ∈ candidatos s pid ∧ EligeMenor s s' pid x tid ∧
      (∀ y, estimacionDe s' y = reestimada env s pid (reloj 0) y) ∧
      ∀ y h, s.hilos y = some h → h.pid ≠ pid → s'.hilos y = some h := by
  obtain ⟨s₁, h₁, hd₁, hrep₁, hcont₁, hest₁⟩ := recalcularEstimacion_reestima env hd (reloj 0)
  obtain ⟨l', h₂, hd₂, hrep₂, hsort⟩ := replanificarHilos_ordena horden hd₁
  have hrep := hrep₁.trans hrep₂
  have hno₂ : candidatos (s₁.ponerReady pid l') pid ≠ [] := by
    intro hnil
    exact hno (List.nil_perm.1 (hnil ▸ hrep.reparto))
  obtain ⟨s', x, tid, h₃, helige, hest⟩ :=
    calcularSiguienteHilo_menor horden hd₂ hno₂ hsort reloj
  have hrep' := hrep.trans helige.reparte
  refine ⟨s', x, tid, ?_, ?_, ⟨helige.exec, helige.respuesta, ?_, ?_, hrep'⟩, ?_, ?_⟩
  · simp only [siguienteAEjecutar, h₁, h₂, bind, Except.bind]
    exact h₃
  · rw [← hrep'.reparto.mem_iff, candidatos, helige.exec]
    simp
  · exact (Minima.perm hrep.reparto x).1 helige.minima
  · intro y hy hmin
    apply helige.empate y
    · rw [contenido_ponerReady, update_of_ne (by simp), hcont₁]
      exact hy
    · exact (Minima.perm hrep.reparto y).2 hmin
  · intro y
    rw [hest, ← hest₁]
    rfl
  · intro y h hh hne
    have hy : y ∉ candidatos s pid := by
      intro hy
      rw [hd.candidatos_eq] at hy
      exact hne (hd.pid_eq hy hh)
    rw [hrep'.registros.ajenos y hy, hh]

/-! ## Exact arithmetic -/

/-- The estimate of a thread, 0 for a pointer without a record. -/
def clave (s : Estado ℚ) (x : Puntero) : ℚ := (estimacionDe s x).getD 0

/-- Insertion sort sorts threads whose records exist. -/
theorem entornoRacional_enOrden : entornoRacional.EnOrden where
  menor a b := by simp [entornoRacional]
  menorIgual a b := by simp [entornoRacional]
  listSort := by
    intro s l hl
    have hclave : ∀ x ∈ l, ∀ y ∈ l,
        tieneMenorEstimacion entornoRacional s x y = true ↔ clave s x ≤ clave s y := by
      intro x hx y hy
      obtain ⟨h, hh⟩ := hl x hx
      obtain ⟨h', hh'⟩ := hl y hy
      simp [tieneMenorEstimacion, clave, estimacionDe, hh, hh', entornoRacional]
    -- on the threads of the list the comparison is the order of the keys
    have hsort : l.insertionSort (fun x y => tieneMenorEstimacion entornoRacional s x y = true) =
        l.insertionSort fun x y => clave s x ≤ clave s y := by
      have hmap := List.map_insertionSort
        (r := fun x y => tieneMenorEstimacion entornoRacional s x y = true)
        (s := fun x y => clave s x ≤ clave s y) id l hclave
      simpa using hmap
    have hmem : ∀ x ∈ l.insertionSort (fun x y => clave s x ≤ clave s y), x ∈ l :=
      fun x hx => List.mem_insertionSort _ |>.1 hx
    have horden := List.pairwise_insertionSort (fun x y => clave s x ≤ clave s y) l
    change (l.insertionSort _).Pairwise _
    rw [hsort]
    exact horden.imp_of_mem fun hx hy hle => (hclave _ (hmem _ hx) _ (hmem _ hy)).2 hle

/-- A program with a thread in `exec` and another in ready. -/
def unoEnCada : Estado ℚ :=
  final (paso entornoRacional) (iniciarSUSE ⟨2, []⟩)
    [.conectar 5, .crear 5 0 (0, 0) 0, .tomar, .admitir 0, .crear 5 1 (0, 0) 0, .tomar, .admitir 0]

theorem siguienteAEjecutar_menor_unoEnCada :
    ∃ s' x tid, siguienteAEjecutar entornoRacional unoEnCada 5 id = .ok (s', some tid) ∧
      x ∈ candidatos unoEnCada 5 ∧ EligeMenor unoEnCada s' 5 x tid := by
  have hno : candidatos unoEnCada 5 ≠ [] := by decide +kernel
  obtain ⟨p, l, hd⟩ := disponible_of_run
    (Run.execute (paso entornoRacional) (s := iniciarSUSE ⟨2, []⟩) _ (by decide +kernel)) hno
  obtain ⟨s', x, tid, hok, hx, helige, -⟩ :=
    siguienteAEjecutar_menor entornoRacional_enOrden hd hno id
  exact ⟨s', x, tid, hok, hx, helige⟩

end Suse
