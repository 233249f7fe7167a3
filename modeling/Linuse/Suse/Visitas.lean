import Linuse.Suse.Ejecucion
import Linuse.Wire.Int32
import Mathlib.Algebra.BigOperators.Group.List.Basic
import Mathlib.Algebra.Ring.Int.Defs

/-!
# The threads that a pass over the times visits

The pass over the execution times is for the threads in New, the join lists, the
ready lists, `exec` and the queues of the semaphores (`hilosMedibles`). It visits
New once more for each semaphore instead of the queue of the semaphore, and every
ready list once for each ready list, so that it visits each of those threads once
only in the states of `Cabal`. What a program accumulates is an `int`, and is the sum
of the times of its threads only if the sum is one (`visitaUnaVez_iff`).

The states are those in which no thread is in two containers and no program has
accumulated time, as are all that a run reaches (`medible_of_run`).
-/

namespace Suse

open Function (update update_self update_of_ne)
open Fallible Transition
open Wire (FitsInt)

variable {E : Type} {s s' s'' : Estado E} {env : Entorno E}

/-- The threads that a pass is for. -/
def Pasada.propios (s : Estado E) : Pasada → List Puntero
  | news => s.new
  | blocked => Pasada.blocked.hilos s
  | ready => s.diccionarioDeListasDeReady.toList.flatMap fun l => l.2
  | exec => Pasada.exec.hilos s
  | sem => s.diccionarioDeBlockedPorSemaforo.toList.flatMap fun l => l.2

/-- The threads in New, the join lists, the ready lists, `exec` and the queues of
the semaphores. -/
def hilosMedibles (s : Estado E) : List Puntero :=
  Pasada.news.propios s ++ Pasada.blocked.propios s ++ Pasada.ready.propios s ++
    Pasada.exec.propios s ++ Pasada.sem.propios s

/-- The pass over the execution times, with the readings of the clock at each
visit. -/
def tomarMetricasTiemposDeEjecucion (reloj : ℕ → ℕ) (s : Estado E) :
    Except Falla (Estado E) :=
  (hilosVisitados s).zipIdx.foldlM
    (fun s x => tomarMetricasTiemposDeEjecucionPara1Hilo (reloj x.2) s x.1) s

def tiempoDe (s : Estado E) (x : Puntero) : ℤ :=
  ((s.hilos x).map Hilo.tiempoDeEjecucion).getD 0

/-- The time of a thread at a reading of the clock, as an `int`. -/
def tiempoAl (s : Estado E) (x : Puntero) (ahora : ℕ) : ℤ :=
  aInt (ahora - ((s.hilos x).map Hilo.timestampCreacion).getD 0)

/-- The times of the threads of a program, each at the reading of the clock of its visit. -/
def tiempoTotal (reloj : ℕ → ℕ) (s : Estado E) (pid : Pid) : ℤ :=
  (((hilosMedibles s).filter (esDelPrograma s pid)).map fun x =>
    tiempoAl s x (reloj ((hilosVisitados s).idxOf x))).sum

/-- The time that a program has accumulated, 0 when there is no such program. -/
def acumulado (s : Estado E) (pid : Pid) : ℤ :=
  ((s.diccionarioDeProgramas.get pid).map
    Programa.tiempoDeEjecucionDeTodosLosHilos).getD 0

/-- The pass visits each thread once, and each program accumulates the times of its
own threads. -/
structure VisitaUnaVez (reloj : ℕ → ℕ) (s : Estado E) : Prop where
  una : ∀ x ∈ hilosMedibles s, (hilosVisitados s).count x = 1
  suma : ∃ s₁, tomarMetricasTiemposDeEjecucion reloj s = .ok s₁ ∧
    ∀ pid p, s₁.diccionarioDeProgramas.get pid = some p →
      p.tiempoDeEjecucionDeTodosLosHilos =
        (((hilosMedibles s).filter (esDelPrograma s pid)).map (tiempoDe s₁)).sum

/-- No thread is in two containers, and no program has accumulated time. -/
structure Medible (s : Estado E) : Prop where
  unicos : (hilosMedibles s).Nodup
  enCero : ∀ pid p, s.diccionarioDeProgramas.get pid = some p →
    p.tiempoDeEjecucionDeTodosLosHilos = 0

/-- The record of the thread exists, and its program is connected. -/
def Conectado (s : Estado E) (x : Puntero) : Prop :=
  ∃ i, identidad s x = some i ∧ tienePrograma s i.1

theorem conectado_iff (s : Estado E) (x : Puntero) : Conectado s x ↔
    ((identidad s x).bind fun i => s.diccionarioDeProgramas.get i.1).isSome := by
  simp only [Conectado, tienePrograma, Option.isSome_iff_exists, Option.bind_eq_some_iff]
  constructor
  · rintro ⟨i, hi, p, hp⟩
    exact ⟨p, i, hi, hp⟩
  · rintro ⟨p, i, hi, hp⟩
    exact ⟨i, hi, p, hp⟩

instance (s : Estado E) (x : Puntero) : Decidable (Conectado s x) :=
  decidable_of_iff _ (conectado_iff s x).symm

/-- The states where each thread is visited once: New has threads only if there is
no semaphore, there are ready threads only if there is one ready list, and no
thread waits at a semaphore. The visit also needs the program of each thread to be
connected. -/
structure Cabal (s : Estado E) : Prop where
  conectados : ∀ x ∈ hilosMedibles s, Conectado s x
  news : s.new = [] ∨ s.diccionarioDeBlockedPorSemaforo.toList = []
  ready : Pasada.ready.propios s = [] ∨ s.diccionarioDeListasDeReady.toList.length = 1
  sem : Pasada.sem.propios s = []

/-- `tomarMetricas` is this pass with one reading of the clock, and the reset. -/
theorem tomarMetricas_eq (s : Estado E) (ahora : ℕ) :
    tomarMetricas s ahora =
      tomarMetricasTiemposDeEjecucion (fun _ => ahora) s >>= reiniciarTiempoDeEjecucionTotal := by
  have hlista : (hilosVisitados s).zipIdx.map Prod.fst = hilosVisitados s :=
    List.zipIdx_map_fst 0 _
  rw [tomarMetricas, tomarMetricasTiemposDeEjecucion]
  nth_rewrite 1 [← hlista]
  rw [List.foldlM_map]

/-! ## How many times each thread is visited -/

theorem count_flatMap_const {α β : Type} [BEq β] (l : List α) (l' : List β) (x : β) :
    (l.flatMap fun _ => l').count x = l.length * l'.count x := by
  induction l with
  | nil => simp
  | cons a l ih =>
      rw [List.flatMap_cons, List.count_append, ih, List.length_cons, Nat.add_mul, Nat.one_mul,
        Nat.add_comm]

theorem count_hilosVisitados (s : Estado E) (x : Puntero) :
    (hilosVisitados s).count x =
      (1 + s.diccionarioDeBlockedPorSemaforo.toList.length) * s.new.count x +
        (Pasada.blocked.propios s).count x +
        s.diccionarioDeListasDeReady.toList.length * (Pasada.ready.propios s).count x +
        (Pasada.exec.propios s).count x := by
  have hnews : Pasada.news.hilos s = s.new := rfl
  have hready : (Pasada.ready.hilos s).count x =
      s.diccionarioDeListasDeReady.toList.length * (Pasada.ready.propios s).count x :=
    count_flatMap_const _ _ _
  have hsem : (Pasada.sem.hilos s).count x =
      s.diccionarioDeBlockedPorSemaforo.toList.length * s.new.count x :=
    count_flatMap_const _ _ _
  simp only [hilosVisitados, List.count_append, hnews, hready, hsem, Pasada.propios]
  rw [Nat.add_mul]
  omega

theorem count_hilosMedibles (s : Estado E) (x : Puntero) :
    (hilosMedibles s).count x =
      s.new.count x + (Pasada.blocked.propios s).count x + (Pasada.ready.propios s).count x +
        (Pasada.exec.propios s).count x + (Pasada.sem.propios s).count x := by
  simp only [hilosMedibles, List.count_append]
  rfl

/-- When no thread is in two containers, each is visited once in exactly the states
whose queues and lists have the shape that `Cabal` asks. -/
theorem visitados_una_iff (hnd : (hilosMedibles s).Nodup) :
    (∀ x ∈ hilosMedibles s, (hilosVisitados s).count x = 1) ↔
      (s.new = [] ∨ s.diccionarioDeBlockedPorSemaforo.toList = []) ∧
        (Pasada.ready.propios s = [] ∨ s.diccionarioDeListasDeReady.toList.length = 1) ∧
          Pasada.sem.propios s = [] := by
  have huna : ∀ x ∈ hilosMedibles s, (hilosMedibles s).count x = 1 := fun x hx =>
    List.count_eq_one_of_mem hnd hx
  constructor
  · intro hvis
    refine ⟨?_, ?_, ?_⟩
    · by_contra hno
      rw [not_or] at hno
      obtain ⟨x, hx⟩ := List.exists_mem_of_ne_nil _ hno.1
      have hmem : x ∈ hilosMedibles s := by simp [hilosMedibles, Pasada.propios, hx]
      have hpos : 0 < s.new.count x := List.count_pos_iff.2 hx
      have hlargo := List.length_pos_iff.2 hno.2
      have h₁ := hvis x hmem
      rw [count_hilosVisitados] at h₁
      have hdos : 2 * 1 ≤
          (1 + s.diccionarioDeBlockedPorSemaforo.toList.length) * s.new.count x :=
        Nat.mul_le_mul (by omega) hpos
      omega
    · by_contra hno
      rw [not_or] at hno
      obtain ⟨x, hx⟩ := List.exists_mem_of_ne_nil _ hno.1
      have hmem : x ∈ hilosMedibles s := by simp [hilosMedibles, hx]
      have hpos : 0 < (Pasada.ready.propios s).count x := List.count_pos_iff.2 hx
      have h₁ := hvis x hmem
      have h₂ := huna x hmem
      rw [count_hilosVisitados] at h₁
      rw [count_hilosMedibles] at h₂
      have hready : (Pasada.ready.propios s).count x = 1 := by omega
      have hnew : s.new.count x = 0 := by omega
      rw [hready, hnew] at h₁
      omega
    · by_contra hno
      obtain ⟨x, hx⟩ := List.exists_mem_of_ne_nil _ hno
      have hmem : x ∈ hilosMedibles s := by simp [hilosMedibles, hx]
      have hpos : 0 < (Pasada.sem.propios s).count x := List.count_pos_iff.2 hx
      have h₁ := hvis x hmem
      have h₂ := huna x hmem
      rw [count_hilosVisitados] at h₁
      rw [count_hilosMedibles] at h₂
      have hnew : s.new.count x = 0 := by omega
      have hready : (Pasada.ready.propios s).count x = 0 := by omega
      rw [hready, hnew] at h₁
      omega
  · rintro ⟨hnews, hready, hsem⟩ x hx
    rw [← huna x hx, count_hilosVisitados, count_hilosMedibles, hsem]
    have hn : (1 + s.diccionarioDeBlockedPorSemaforo.toList.length) * s.new.count x =
        s.new.count x := by
      rcases hnews with h | h <;> simp [h]
    have hr : s.diccionarioDeListasDeReady.toList.length * (Pasada.ready.propios s).count x =
        (Pasada.ready.propios s).count x := by
      rcases hready with h | h <;> simp [h]
    rw [hn, hr]
    simp

/-- The visited threads are those of the containers. -/
theorem mem_hilosMedibles_of_visitado {x : Puntero} (hx : x ∈ hilosVisitados s) :
    x ∈ hilosMedibles s := by
  have hpos := List.count_pos_iff.2 hx
  rw [count_hilosVisitados] at hpos
  rw [← List.count_pos_iff, count_hilosMedibles]
  by_contra hno
  have hnew : s.new.count x = 0 := by omega
  have hready : (Pasada.ready.propios s).count x = 0 := by omega
  rw [hnew, hready] at hpos
  omega

/-! ## What the visits add up to -/

theorem aInt_eq_self_iff (n : ℤ) : aInt n = n ↔ FitsInt n := by
  rw [aInt, Int.bmod_def, FitsInt]
  split_ifs <;> omega

theorem fitsInt_aInt (n : ℤ) : FitsInt (aInt n) := by
  rw [aInt, Int.bmod_def, FitsInt]
  split_ifs <;> omega

theorem aInt_add_aInt (a b : ℤ) : aInt (aInt a + b) = aInt (a + b) := by
  rw [aInt, aInt, aInt, Int.bmod_add_bmod]

/-- One visit: what it leaves of the rest, and what its program accumulates. -/
theorem visita_ok {ahora : ℕ} {x : Puntero}
    (h : tomarMetricasTiemposDeEjecucionPara1Hilo ahora s x = .ok s') :
    SoloTiempos s s' ∧ Conectado s x ∧
      (∀ y, y ≠ x → tiempoDe s' y = tiempoDe s y) ∧
      ∀ pid, acumulado s' pid =
        if esDelPrograma s pid x then aInt (acumulado s pid + tiempoDe s' x)
        else acumulado s pid := by
  simp only [tomarMetricasTiemposDeEjecucionPara1Hilo, noNulo, bind_eq_ok, orFail_eq_ok,
    pure_eq_ok] at h
  obtain ⟨h, hh, p, hp, rfl⟩ := h
  refine ⟨?_, ⟨(h.pid, h.tid), identidad_eq hh, p, hp⟩, ?_, ?_⟩
  · have hponer : SoloTiempos s (s.ponerHilo x
        { h with tiempoDeEjecucion := aInt (ahora - h.timestampCreacion) }) := .ponerHilo hh rfl rfl
    exact hponer.trans (.ponerPrograma hp rfl)
  · intro y hy
    simp [tiempoDe, hy]
  · intro pid
    have hes : esDelPrograma s pid x = (h.pid == pid) := by simp [esDelPrograma, identidad, hh]
    by_cases hpid : pid = h.pid
    · subst hpid
      simp [acumulado, tiempoDe, hp, hes]
    · simp [acumulado, Dictionary.get_put_of_ne _ _ hpid, hes, Ne.symm hpid]

/-- One visit: the time of the thread. No visit changes when a thread was created. -/
theorem visita_tiempo {ahora : ℕ} {x : Puntero}
    (h : tomarMetricasTiemposDeEjecucionPara1Hilo ahora s x = .ok s') :
    tiempoDe s' x = tiempoAl s x ahora ∧ ∀ y t, tiempoAl s' y t = tiempoAl s y t := by
  simp only [tomarMetricasTiemposDeEjecucionPara1Hilo, noNulo, bind_eq_ok, orFail_eq_ok,
    pure_eq_ok] at h
  obtain ⟨h, hh, p, -, rfl⟩ := h
  refine ⟨by simp [tiempoDe, tiempoAl, hh], fun y t => ?_⟩
  by_cases hy : y = x
  · subst hy
    simp [tiempoAl, hh]
  · simp [tiempoAl, hy]

/-- A visit goes through when the record of the thread and its program exist. -/
theorem visita_isOk (ahora : ℕ) {x : Puntero} (h : Conectado s x) :
    ∃ s', tomarMetricasTiemposDeEjecucionPara1Hilo ahora s x = .ok s' := by
  obtain ⟨i, hi, p, hp⟩ := h
  obtain ⟨h, hh, rfl⟩ := Option.map_eq_some_iff.1 hi
  simp [tomarMetricasTiemposDeEjecucionPara1Hilo, hh, hp, orFail, bind, Except.bind, pure,
    Except.pure]

theorem conectado_congr (h : SoloTiempos s s') (x : Puntero) :
    Conectado s' x ↔ Conectado s x := by
  simp only [Conectado, h.hilos, h.quieto.conPrograma]

theorem esDelPrograma_congr (h : SoloTiempos s s') (pid : Pid) :
    esDelPrograma s' pid = esDelPrograma s pid := by
  funext x
  rw [esDelPrograma, esDelPrograma, h.hilos]

/-- The whole pass, by induction on the visits that are left: a thread that is not
among them keeps its time, and a program accumulates as an `int` does. -/
theorem visitas_ok (reloj : ℕ → ℕ) {l : List (Puntero × ℕ)}
    (h : l.foldlM (fun s x => tomarMetricasTiemposDeEjecucionPara1Hilo (reloj x.2) s x.1) s =
      .ok s') :
    SoloTiempos s s' ∧ (∀ x ∈ l.map Prod.fst, Conectado s x) ∧
      (∀ y, y ∉ l.map Prod.fst → tiempoDe s' y = tiempoDe s y) ∧
      ((l.map Prod.fst).Nodup → ∀ pid, FitsInt (acumulado s pid) →
        acumulado s' pid = aInt (acumulado s pid +
          (((l.map Prod.fst).filter (esDelPrograma s pid)).map (tiempoDe s')).sum)) := by
  induction l generalizing s with
  | nil =>
      rw [List.foldlM_nil, pure_eq_ok] at h
      subst h
      refine ⟨.refl s, by simp, fun _ _ => rfl, fun _ pid hfit => ?_⟩
      simpa using ((aInt_eq_self_iff _).2 hfit).symm
  | cons x l ih =>
      rw [List.foldlM_cons, bind_eq_ok] at h
      obtain ⟨s₁, h₁, h⟩ := h
      obtain ⟨htiempos₁, hcon₁, htiempo₁, hac₁⟩ := visita_ok h₁
      obtain ⟨htiempos, hcon, htiempo, hac⟩ := ih h
      refine ⟨htiempos₁.trans htiempos, ?_, ?_, ?_⟩
      · intro y hy
        rcases List.mem_cons.1 hy with rfl | hy
        · exact hcon₁
        · exact (conectado_congr htiempos₁ y).1 (hcon y hy)
      · intro y hy
        rw [List.map_cons, List.mem_cons, not_or] at hy
        rw [htiempo y hy.2, htiempo₁ y hy.1]
      · intro hnd pid hfit
        rw [List.map_cons, List.nodup_cons] at hnd
        have hfit₁ : FitsInt (acumulado s₁ pid) := by
          rw [hac₁ pid]
          split_ifs
          · exact fitsInt_aInt _
          · exact hfit
        rw [hac hnd.2 pid hfit₁, hac₁ pid, esDelPrograma_congr htiempos₁, List.map_cons,
          List.filter_cons]
        split_ifs with hes
        · rw [List.map_cons, List.sum_cons, htiempo x.1 hnd.1, aInt_add_aInt, Int.add_assoc]
        · rfl

/-- Each thread has the time of its visit. -/
theorem visitas_tiempo (reloj : ℕ → ℕ) {l : List (Puntero × ℕ)} (hnd : (l.map Prod.fst).Nodup)
    (h : l.foldlM (fun s x => tomarMetricasTiemposDeEjecucionPara1Hilo (reloj x.2) s x.1) s =
      .ok s') {x : Puntero × ℕ} (hx : x ∈ l) :
    tiempoDe s' x.1 = tiempoAl s x.1 (reloj x.2) := by
  induction l generalizing s with
  | nil => cases hx
  | cons y l ih =>
      rw [List.foldlM_cons, bind_eq_ok] at h
      obtain ⟨s₁, h₁, h⟩ := h
      obtain ⟨htiempo₁, hal⟩ := visita_tiempo h₁
      rw [List.map_cons, List.nodup_cons] at hnd
      rcases List.mem_cons.1 hx with rfl | hx
      · rw [(visitas_ok reloj h).2.2.1 x.1 hnd.1, htiempo₁]
      · rw [ih hnd.2 h hx, hal]

theorem visitas_isOk (reloj : ℕ → ℕ) {l : List (Puntero × ℕ)}
    (h : ∀ x ∈ l.map Prod.fst, Conectado s x) :
    ∃ s', l.foldlM (fun s x => tomarMetricasTiemposDeEjecucionPara1Hilo (reloj x.2) s x.1) s =
      .ok s' := by
  induction l generalizing s with
  | nil => exact ⟨s, rfl⟩
  | cons x l ih =>
      obtain ⟨s₁, h₁⟩ := visita_isOk (reloj x.2) (h x.1 (by simp))
      obtain ⟨htiempos, -⟩ := visita_ok h₁
      obtain ⟨s', h'⟩ := ih fun y hy =>
        (conectado_congr htiempos y).2 (h y (List.mem_cons_of_mem _ hy))
      refine ⟨s', ?_⟩
      rw [List.foldlM_cons, bind_eq_ok]
      exact ⟨s₁, h₁, h'⟩

theorem acumulado_eq {pid : Pid} {p : Programa}
    (hp : s.diccionarioDeProgramas.get pid = some p) :
    acumulado s pid = p.tiempoDeEjecucionDeTodosLosHilos := by
  simp [acumulado, hp]

theorem Medible.acumulado (h : Medible s) (pid : Pid) : acumulado s pid = 0 := by
  cases hp : s.diccionarioDeProgramas.get pid with
  | none => simp [Suse.acumulado, hp]
  | some p => rw [acumulado_eq hp, h.enCero pid p hp]

/-- Where each thread is visited once, a program accumulates its total as an `int`. -/
theorem Cabal.pasada (hm : Medible s) (h : Cabal s) (reloj : ℕ → ℕ) :
    (∀ x ∈ hilosMedibles s, (hilosVisitados s).count x = 1) ∧
      ∃ s₁, tomarMetricasTiemposDeEjecucion reloj s = .ok s₁ ∧
        ∀ pid, (((hilosMedibles s).filter (esDelPrograma s pid)).map (tiempoDe s₁)).sum =
            tiempoTotal reloj s pid ∧ acumulado s₁ pid = aInt (tiempoTotal reloj s pid) := by
  have hlista : (hilosVisitados s).zipIdx.map Prod.fst = hilosVisitados s :=
    List.zipIdx_map_fst 0 _
  have huna := (visitados_una_iff hm.unicos).2 ⟨h.news, h.ready, h.sem⟩
  have hperm : (hilosVisitados s).Perm (hilosMedibles s) := by
    rw [List.perm_iff_count]
    intro x
    by_cases hx : x ∈ hilosMedibles s
    · rw [huna x hx, List.count_eq_one_of_mem hm.unicos hx]
    · rw [List.count_eq_zero_of_not_mem hx,
        List.count_eq_zero_of_not_mem fun hv => hx (mem_hilosMedibles_of_visitado hv)]
  have hnd : (hilosVisitados s).Nodup := hperm.nodup_iff.2 hm.unicos
  have hndIdx : ((hilosVisitados s).zipIdx.map Prod.fst).Nodup := by rwa [hlista]
  obtain ⟨s₁, hpasada⟩ := visitas_isOk (l := (hilosVisitados s).zipIdx) reloj fun x hx =>
    h.conectados x (mem_hilosMedibles_of_visitado (hlista ▸ hx))
  -- the place of a thread in the pass is that of its only visit
  have htiempo : ∀ x ∈ hilosMedibles s,
      tiempoDe s₁ x = tiempoAl s x (reloj ((hilosVisitados s).idxOf x)) := by
    intro x hx
    have hlt := List.idxOf_lt_length_iff.2 (hperm.mem_iff.2 hx)
    refine visitas_tiempo reloj hndIdx hpasada (x := (x, (hilosVisitados s).idxOf x)) ?_
    rw [List.mem_zipIdx_iff_getElem?, List.getElem?_eq_getElem hlt, List.getElem_idxOf]
  refine ⟨huna, s₁, hpasada, fun pid => ?_⟩
  have htotal : (((hilosMedibles s).filter (esDelPrograma s pid)).map (tiempoDe s₁)).sum =
      tiempoTotal reloj s pid := by
    rw [tiempoTotal, List.map_congr_left fun x hx => htiempo x (List.mem_of_mem_filter hx)]
  obtain ⟨-, -, -, hac⟩ := visitas_ok reloj hpasada
  have hsuma := hac hndIdx pid (by rw [hm.acumulado]; decide)
  rw [hlista, hm.acumulado, Int.zero_add, ((hperm.filter _).map _).sum_eq, htotal] at hsuma
  exact ⟨htotal, hsuma⟩

/-- In a state where no thread is in two containers and no program has accumulated
time, the pass visits each thread of the containers once, and each program
accumulates the times of its own, if and only if the state is one of `Cabal` and the
times of the threads of each program add up to an `int`. -/
theorem visitaUnaVez_iff (hm : Medible s) (reloj : ℕ → ℕ) :
    VisitaUnaVez reloj s ↔
      Cabal s ∧ ∀ pid, tienePrograma s pid → FitsInt (tiempoTotal reloj s pid) := by
  constructor
  · rintro ⟨huna, s₁, hpasada, hsuma⟩
    obtain ⟨hnews, hready, hsem⟩ := (visitados_una_iff hm.unicos).1 huna
    obtain ⟨htiempos, hcon, -, -⟩ := visitas_ok reloj hpasada
    have hcabal : Cabal s := by
      refine ⟨fun x hx => hcon x ?_, hnews, hready, hsem⟩
      rw [List.zipIdx_map_fst, ← List.count_pos_iff, huna x hx]
      exact Nat.one_pos
    refine ⟨hcabal, fun pid hpid => ?_⟩
    obtain ⟨-, s₂, hpasada₂, htotal⟩ := hcabal.pasada hm reloj
    obtain rfl : s₁ = s₂ := Except.ok.inj (hpasada.symm.trans hpasada₂)
    obtain ⟨hmedido, hac⟩ := htotal pid
    obtain ⟨p, hp⟩ := (htiempos.quieto.conPrograma pid).2 hpid
    rw [← aInt_eq_self_iff, ← hac, acumulado_eq hp, hsuma pid p hp, hmedido]
  · rintro ⟨hcabal, hfit⟩
    obtain ⟨huna, s₁, hpasada, htotal⟩ := hcabal.pasada hm reloj
    obtain ⟨htiempos, -⟩ := visitas_ok reloj hpasada
    refine ⟨huna, s₁, hpasada, fun pid p hp => ?_⟩
    obtain ⟨hmedido, hac⟩ := htotal pid
    rw [hmedido, ← acumulado_eq hp, hac, aInt_eq_self_iff]
    exact hfit pid ((htiempos.quieto.conPrograma pid).1 ⟨p, hp⟩)

/-! ## Between two passes no program has accumulated time -/

/-- Every program is under its own descriptor and has accumulated no time. -/
def EnCero (s : Estado E) : Prop :=
  ∀ pid p, s.diccionarioDeProgramas.get pid = some p →
    p.pid = pid ∧ p.tiempoDeEjecucionDeTodosLosHilos = 0

theorem EnCero.ponerPrograma (h : EnCero s) {pid : Pid} {p q : Programa}
    (hp : s.diccionarioDeProgramas.get pid = some p) (hpid : q.pid = p.pid)
    (htotal : q.tiempoDeEjecucionDeTodosLosHilos = p.tiempoDeEjecucionDeTodosLosHilos) :
    EnCero (s.ponerPrograma pid q) := by
  intro pid' p' hp'
  by_cases heq : pid' = pid
  · subst heq
    have hq : q = p' := by simpa using hp'
    rw [← hq, hpid, htotal]
    exact h pid' p hp
  · exact h pid' p' (by simpa [Dictionary.get_put_of_ne _ _ heq] using hp')

/-- The reset empties the account of every program it is given. -/
theorem reinicio_ok {l : List Programa}
    (h : l.foldlM reiniciarTiempoDeEjecucionDe1Programa s = .ok s') {pid : Pid} {p' : Programa}
    (hp' : s'.diccionarioDeProgramas.get pid = some p') :
    (p'.tiempoDeEjecucionDeTodosLosHilos = 0 ∨ s.diccionarioDeProgramas.get pid = some p') ∧
      (pid ∈ l.map Programa.pid → p'.tiempoDeEjecucionDeTodosLosHilos = 0) := by
  induction l generalizing s with
  | nil =>
      rw [List.foldlM_nil, pure_eq_ok] at h
      subst h
      exact ⟨Or.inr hp', by simp⟩
  | cons q l ih =>
      rw [List.foldlM_cons, bind_eq_ok] at h
      obtain ⟨s₁, h₁, h⟩ := h
      simp only [reiniciarTiempoDeEjecucionDe1Programa, noNulo, bind_eq_ok, orFail_eq_ok,
        pure_eq_ok] at h₁
      obtain ⟨p, hp, rfl⟩ := h₁
      obtain ⟨hcaso, hmem⟩ := ih h
      have hpropio : pid = q.pid → p'.tiempoDeEjecucionDeTodosLosHilos = 0 := by
        intro heq
        subst heq
        rcases hcaso with hcero | hget
        · exact hcero
        · have heq : { p with tiempoDeEjecucionDeTodosLosHilos := 0 } = p' := by simpa using hget
          rw [← heq]
      refine ⟨?_, ?_⟩
      · by_cases heq : pid = q.pid
        · exact Or.inl (hpropio heq)
        · exact hcaso.imp id fun hget => by simpa [Dictionary.get_put_of_ne _ _ heq] using hget
      · intro hpid
        rcases List.mem_cons.1 hpid with heq | hpid
        · exact hpropio heq
        · exact hmem hpid

theorem tomarMetricas_enCero {ahora : ℕ} (hcero : EnCero s)
    (h : tomarMetricas s ahora = .ok s') : EnCero s' := by
  intro pid p' hp'
  obtain ⟨p, hp, hsin⟩ := (tomarMetricas_soloTiempos h).programa hp'
  have hpid : p'.pid = p.pid := by
    simpa [Programa.sinTiempo] using congrArg Programa.pid hsin
  refine ⟨hpid.trans (hcero pid p hp).1, ?_⟩
  rw [tomarMetricas_eq, bind_eq_ok] at h
  obtain ⟨s₁, h₁, h₂⟩ := h
  obtain ⟨htiempos, -⟩ := visitas_ok (fun _ => ahora) h₁
  have hprog := htiempos.programas pid
  rw [hp, Option.map_some, Option.map_eq_some_iff] at hprog
  obtain ⟨p₁, hp₁, hsin₁⟩ := hprog
  have hpid₁ : p₁.pid = p.pid := by
    simpa [Programa.sinTiempo] using congrArg Programa.pid hsin₁
  rw [(hcero pid p hp).1] at hpid₁
  refine (reinicio_ok h₂ hp').2 (List.mem_map.2 ⟨p₁, ?_, hpid₁⟩)
  exact List.mem_map.2 ⟨(pid, p₁), (Dictionary.mem_toList _ _ _).2 hp₁, rfl⟩

theorem pasarAReady_enCero {x : Puntero} {ahora : ℕ} (hcero : EnCero s)
    (h : pasarAReady s x ahora = .ok s') : EnCero s' := by
  obtain ⟨hilo, p, -, hp, ⟨-, rfl⟩ | ⟨lista, -, rfl⟩⟩ := pasarAReady_ok h
  · have hcero' : EnCero (s.ponerReady hilo.pid []) := hcero
    exact hcero'.ponerPrograma hp rfl rfl
  · have hcero' : EnCero ((s.ponerReady hilo.pid (lista ++ [x])).ponerHilo x
        { hilo with timestampReady := ahora }) := hcero
    exact hcero'.ponerPrograma hp rfl rfl

theorem despertarPrograma_enCero {pid : Pid} {p : Programa} (hcero : EnCero s)
    (hp : s.diccionarioDeProgramas.get pid = some p) : EnCero (despertarPrograma s pid p) := by
  rw [despertarPrograma]
  split_ifs
  · exact hcero.ponerPrograma hp rfl rfl
  · exact hcero

theorem semSuseSignal_enCero {pid : Pid} {semID : String} {ahora : ℕ} (hcero : EnCero s)
    (h : semSuseSignal s pid semID ahora = .ok s') : EnCero s' := by
  rcases semSuseSignal_ok h with
    ⟨-, rfl⟩ | ⟨sem, -, ⟨-, rfl⟩ | ⟨-, -, rfl⟩ | ⟨-, -, hsacar⟩⟩
  · exact hcero
  · exact hcero
  · exact hcero
  · rcases sacar1HiloDeLaColaDeBloqueadosPorSemaforo_ok hsacar with ⟨-, rfl⟩ |
      ⟨unHilo, resto, s₁, hilo, unPrograma, p, -, hs₁, -, hprog, hp, rfl⟩
    · exact hcero
    · have hcero₁ : EnCero (s.ponerBlockedPorSemaforo semID resto) := hcero
      exact (despertarPrograma_enCero (pasarAReady_enCero hcero₁ hs₁) hprog).ponerPrograma
        hp rfl rfl

theorem liberarLista_enCero {pid : Pid} {tid : Tid} {ahora : ℕ} (lista : List Puntero)
    (hcero : EnCero s) (h : liberarLista pid tid ahora lista s = .ok s') : EnCero s' := by
  induction lista generalizing s with
  | nil =>
      cases h
      exact hcero
  | cons x resto ih =>
      obtain ⟨p, hilo, q, hp, -, hq, hcaso⟩ := liberarLista_cons_ok h
      have hcero₁ : EnCero (sacarDeLista s pid tid p resto) := hcero.ponerPrograma hp rfl rfl
      rcases hcaso with ⟨-, h⟩ | ⟨l, -, -, h⟩
      · exact ih hcero₁ h
      · refine ih ?_ h
        have hcero₂ : EnCero (((sacarDeLista s pid tid p resto).ponerReady hilo.pid
            (l ++ [x])).ponerHilo x { hilo with timestampReady := ahora }) := hcero₁
        exact hcero₂.ponerPrograma hq rfl rfl

theorem realizarClose_enCero {pid : Pid} {tid : Tid} {ahora : ℕ} (hcero : EnCero s)
    (h : realizarClose s pid tid ahora = .ok s') : EnCero s' := by
  obtain ⟨p, x, hilo, -, -, -, ⟨-, rfl⟩ | ⟨-, s₁, p₁, hs₁, hp₁, h⟩⟩ := realizarClose_ok h
  · exact hcero
  · simp only [pasarAExit, noNulo, bind_eq_ok, orFail_eq_ok, pure_eq_ok] at hs₁
    obtain ⟨hilo', -, t, ht, rfl⟩ := hs₁
    have hcero₁ : EnCero (s.ponerExit hilo'.pid
        ((s.diccionarioDeListasDeExit.get hilo'.pid).getD [] ++ [x])) := hcero
    have hcero₂ : EnCero t := tomarMetricas_enCero hcero₁ ht
    have hcero₃ : EnCero { t with maximoProcesamiento := t.maximoProcesamiento + 1 } := hcero₂
    obtain ⟨_, _, -, -, h⟩ := liberarBloqueadosPorElHilo_ok h
    have hcero₄ := hcero₃.ponerPrograma (q := { p₁ with exec := none }) hp₁ rfl rfl
    exact liberarLista_enCero _ hcero₄ h

theorem recalcularEstimacion_enCero {pid : Pid} {ahora : ℕ} (hcero : EnCero s)
    (h : recalcularEstimacion env s pid ahora = .ok s') : EnCero s' := by
  have hdic : s'.diccionarioDeProgramas = s.diccionarioDeProgramas := by
    rw [recalcularEstimacion] at h
    split at h
    · cases h
      rfl
    · split at h
      · cases h
        rfl
      · simp only [noNulo, bind_eq_ok, orFail_eq_ok, pure_eq_ok] at h
        obtain ⟨hilo, -, rfl⟩ := h
        rfl
  intro pid' p hp
  rw [hdic] at hp
  exact hcero pid' p hp

theorem enExec_enCero {pid : Pid} {x : Puntero} {resto : List Puntero} (reloj : ℕ → ℕ)
    {p : Programa} (h : Hilo E) (hcero : EnCero s)
    (hp : s.diccionarioDeProgramas.get pid = some p) :
    EnCero (enExec s pid x resto reloj p h) := by
  have hcero' : EnCero ({ s with inicioRafaga := reloj 1 }.ponerReady pid resto) := hcero
  exact hcero'.ponerPrograma (q := { p with
    exec := some x, cantidadDeHilosEnReady := p.cantidadDeHilosEnReady - 1 }) hp rfl rfl

theorem siguienteAEjecutar_enCero {pid : Pid} {reloj : ℕ → ℕ} {r : Option Tid}
    (hcero : EnCero s) (h : siguienteAEjecutar env s pid reloj = .ok (s', r)) : EnCero s' := by
  simp only [siguienteAEjecutar, bind_eq_ok] at h
  obtain ⟨s₁, h₁, s₂, h₂, h⟩ := h
  have hcero₁ := recalcularEstimacion_enCero hcero h₁
  obtain ⟨l, l', -, -, rfl⟩ := replanificarHilos_ok h₂
  have hcero₂ : EnCero (s₁.ponerReady pid l') := hcero₁
  obtain ⟨_, p, -, hp, hcaso⟩ := calcularSiguienteHilo_ok h
  rcases hcaso with ⟨x, hilo, -, -, rfl, -⟩ |
    ⟨x, hilo, candidato, c, resto, -, -, -, -, rfl, -⟩ |
    ⟨candidato, resto, hilo, -, -, -, rfl, -⟩ | ⟨-, -, rfl, -⟩
  · exact hcero₂
  · have hcero₃ : EnCero ({ s₁.ponerReady pid l' with inicioRafaga := reloj 1 }.ponerReady pid
        (resto ++ [x])) := hcero₂
    exact hcero₃.ponerPrograma (q := { p with exec := some candidato }) hp rfl rfl
  · exact enExec_enCero reloj hilo hcero₂ hp
  · have hcero₃ : EnCero { s₁.ponerReady pid l' with
        enMutex := update s₁.enMutex pid (s₁.enMutex pid + 1) } := hcero₂
    exact hcero₃.ponerPrograma (q := { p with estaBloqueado := true }) hp rfl rfl

theorem calcularSiguienteHiloDespierto_enCero {pid : Pid} {reloj : ℕ → ℕ} {r : Option Tid}
    (hcero : EnCero s) (h : calcularSiguienteHiloDespierto s pid reloj = .ok (s', r)) :
    EnCero s' := by
  obtain ⟨p, x, resto, hilo, hp, -, -, -, -, rfl, -⟩ := calcularSiguienteHiloDespierto_ok h
  have hcero₁ : EnCero { s with enMutex := update s.enMutex pid (s.enMutex pid - 1) } := hcero
  have hcero₂ : EnCero (despertado s pid p) := hcero₁.ponerPrograma hp rfl rfl
  exact enExec_enCero reloj hilo hcero₂ (Dictionary.get_put_self _ _ _)

theorem paso_enCero {e : Evento} (hcero : EnCero s) (h : paso env s e = .ok s') :
    EnCero s' := by
  cases e with
  | conectar pid =>
      obtain ⟨hp, rfl⟩ := paso_conectar h
      intro pid' p' hp'
      by_cases heq : pid' = pid
      · subst heq
        simp only [crearPrograma, Estado.ponerPrograma_diccionarioDeProgramas,
          Dictionary.get_put_self, Option.some.injEq] at hp'
        subst hp'
        exact ⟨rfl, rfl⟩
      · exact hcero pid' p' (by simpa [crearPrograma, Dictionary.get_put_of_ne _ _ heq] using hp')
  | crear pid tid basura ahora =>
      obtain ⟨p, hp, rfl⟩ := crearHilo_ok h
      have hcero' : EnCero { s with
          hilos := update s.hilos s.proximo (some (hiloNuevo env pid tid basura ahora))
          proximo := s.proximo + 1
          new := s.new ++ [s.proximo]
          hayNuevos := s.hayNuevos + 1 } := hcero
      exact hcero'.ponerPrograma hp rfl rfl
  | tomar =>
      obtain ⟨-, -, unHilo, resto, -, rfl⟩ := planificarReadyTomar_ok h
      exact hcero
  | admitir ahora =>
      obtain ⟨unHilo, hilo, p, -, -, -, hp, h⟩ := planificarReadyAdmitir_ok h
      have hcero' : EnCero { s with
          maximoProcesamiento := s.maximoProcesamiento - 1, unHilo := none } := hcero
      have hcero'' : EnCero (sacarDeMano s hilo.pid p) := hcero'.ponerPrograma hp rfl rfl
      exact pasarAReady_enCero hcero'' h
  | wait pid tid semID =>
      rcases semSuseWait_ok h with
        ⟨-, rfl⟩ | ⟨sem, -, ⟨-, rfl⟩ | ⟨-, p, x, hilo, cola, hp, -, -, -, -, rfl⟩⟩
      · exact hcero
      · exact hcero
      · have hcero' : EnCero (s.ponerBlockedPorSemaforo semID (cola ++ [x])) := hcero
        exact hcero'.ponerPrograma hp rfl rfl
  | signal pid tid semID ahora => exact semSuseSignal_enCero hcero h
  | join pid tidAEsperar =>
      rcases realizarJoin_ok h with rfl | ⟨p, x, hilo, cantidad, hp, -, -, rfl⟩
      · exact hcero
      · exact hcero.ponerPrograma hp rfl rfl
  | close pid tid ahora => exact realizarClose_enCero hcero h
  | scheduleNext pid reloj =>
      obtain ⟨r, h⟩ := paso_scheduleNext h
      exact siguienteAEjecutar_enCero hcero h
  | despertar pid reloj =>
      obtain ⟨r, h⟩ := paso_despertar h
      exact calcularSiguienteHiloDespierto_enCero hcero h
  | metricas ahora => exact tomarMetricas_enCero hcero h
  | desconectar pid =>
      obtain ⟨-, rfl⟩ := paso_desconectar h
      intro pid' p' hp'
      simp only [limpiarEstructuras, Dictionary.get_remove] at hp'
      split_ifs at hp'
      exact hcero pid' p' hp'

theorem enCero_of_run {c : Configuracion} {tr : List (Step (Estado E) Evento)}
    (hrun : Run (Transicion env) (iniciarSUSE c) tr s) : EnCero s := by
  refine hrun.invariant EnCero (fun _ => True) ?_ ?_ fun _ _ => trivial
  · intro pid p hp
    cases hp
  · intro s e s' hcero _ hs
    exact paso_enCero hcero hs

/-! ## No thread is in two containers -/

theorem mem_blocked {x : Puntero} (hx : x ∈ Pasada.blocked.propios s) :
    ∃ pid tid, x ∈ contenido s (.join pid tid) := by
  obtain ⟨e, he, hx⟩ := List.mem_flatMap.1 hx
  obtain ⟨l, hl, hx⟩ := List.mem_flatMap.1 hx
  have hp := (Dictionary.mem_toList _ _ _).1 he
  have hget := (Dictionary.mem_toList _ _ _).1 hl
  refine ⟨e.1, l.1, ?_⟩
  rw [contenido_join hp, hget]
  exact hx

theorem mem_ready {x : Puntero} (hx : x ∈ Pasada.ready.propios s) :
    ∃ pid, x ∈ contenido s (.ready pid) := by
  obtain ⟨e, he, hx⟩ := List.mem_flatMap.1 hx
  refine ⟨e.1, ?_⟩
  rw [contenido_ready ((Dictionary.mem_toList _ _ _).1 he)]
  exact hx

theorem mem_enExec {x : Puntero} (hx : x ∈ Pasada.exec.propios s) :
    ∃ pid, x ∈ contenido s (.exec pid) := by
  obtain ⟨e, he, hx⟩ := List.mem_flatMap.1 hx
  refine ⟨e.1, ?_⟩
  rw [contenido_exec ((Dictionary.mem_toList _ _ _).1 he)]
  exact hx

theorem mem_sem {x : Puntero} (hx : x ∈ Pasada.sem.propios s) :
    ∃ semID, x ∈ contenido s (.semaforo semID) := by
  obtain ⟨e, he, hx⟩ := List.mem_flatMap.1 hx
  refine ⟨e.1, ?_⟩
  rw [contenido_semaforo ((Dictionary.mem_toList _ _ _).1 he)]
  exact hx

/-- The pass that is for the threads of a place, if there is one. -/
def Lugar.pasada : Lugar → Option Pasada
  | .new => some .news
  | .join _ _ => some .blocked
  | .ready _ => some .ready
  | .exec _ => some .exec
  | .semaforo _ => some .sem
  | .mano => none
  | .exit _ => none

theorem Pasada.mem_propios {x : Puntero} {pasada : Pasada} (hx : x ∈ pasada.propios s) :
    ∃ l : Lugar, l.pasada = some pasada ∧ x ∈ contenido s l := by
  cases pasada with
  | news => exact ⟨.new, rfl, hx⟩
  | blocked =>
      obtain ⟨pid, tid, hx⟩ := mem_blocked hx
      exact ⟨_, rfl, hx⟩
  | ready =>
      obtain ⟨pid, hx⟩ := mem_ready hx
      exact ⟨_, rfl, hx⟩
  | exec =>
      obtain ⟨pid, hx⟩ := mem_enExec hx
      exact ⟨_, rfl, hx⟩
  | sem =>
      obtain ⟨semID, hx⟩ := mem_sem hx
      exact ⟨_, rfl, hx⟩

section Placement

variable {S : Set Puntero}

/-- The threads of two passes are different. -/
theorem Pasada.disjoint_propios (hC : Placement (contenido s) S) {pasada pasada' : Pasada}
    (hne : pasada ≠ pasada') : (pasada.propios s).Disjoint (pasada'.propios s) := by
  intro x hx hx'
  obtain ⟨l, hl, hmem⟩ := Pasada.mem_propios hx
  obtain ⟨l', hl', hmem'⟩ := Pasada.mem_propios hx'
  have heq := hC.unique x l l' hmem hmem'
  rw [heq, hl'] at hl
  exact hne (Option.some.inj hl.symm)

/-- The threads of one pass are all different. -/
theorem Pasada.nodup_propios (hC : Placement (contenido s) S) (pasada : Pasada) :
    (pasada.propios s).Nodup := by
  have hunico : ∀ (l l' : Lugar) {x : Puntero}, x ∈ contenido s l → l ≠ l' →
      x ∉ contenido s l' := fun l l' x hx hne hx' => hne (hC.unique x l l' hx hx')
  cases pasada with
  | news => exact hC.nodup .new
  | blocked =>
      refine Dictionary.nodup_flatMap _ (fun pid p hp => ?_)
        fun pid p pid' p' hp hp' hne x hx hx' => ?_
      · refine Dictionary.nodup_flatMap _ (fun tid l hl => ?_)
          fun tid l tid' l' hl hl' hne x hx hx' => ?_
        · have hcont : contenido s (.join pid tid) = l := by rw [contenido_join hp, hl]; rfl
          exact hcont ▸ hC.nodup (.join pid tid)
        · have hcont : contenido s (.join pid tid) = l := by rw [contenido_join hp, hl]; rfl
          have hcont' : contenido s (.join pid tid') = l' := by rw [contenido_join hp, hl']; rfl
          exact hunico (.join pid tid) (.join pid tid') (hcont.symm ▸ hx) (by simpa using hne)
            (hcont'.symm ▸ hx')
      · obtain ⟨e, he, hx⟩ := List.mem_flatMap.1 hx
        obtain ⟨e', he', hx'⟩ := List.mem_flatMap.1 hx'
        have hcont : contenido s (.join pid e.1) = e.2 := by
          rw [contenido_join hp, (Dictionary.mem_toList _ _ _).1 he]
          rfl
        have hcont' : contenido s (.join pid' e'.1) = e'.2 := by
          rw [contenido_join hp', (Dictionary.mem_toList _ _ _).1 he']
          rfl
        exact hunico (.join pid e.1) (.join pid' e'.1) (hcont.symm ▸ hx) (by simp [hne])
          (hcont'.symm ▸ hx')
  | ready =>
      refine Dictionary.nodup_flatMap _ (fun pid l hl => ?_)
        fun pid l pid' l' hl hl' hne x hx hx' => ?_
      · exact contenido_ready hl ▸ hC.nodup (.ready pid)
      · exact hunico (.ready pid) (.ready pid') ((contenido_ready hl).symm ▸ hx)
          (by simpa using hne) ((contenido_ready hl').symm ▸ hx')
  | exec =>
      refine Dictionary.nodup_flatMap _ (fun pid p hp => ?_)
        fun pid p pid' p' hp hp' hne x hx hx' => ?_
      · exact contenido_exec hp ▸ hC.nodup (.exec pid)
      · exact hunico (.exec pid) (.exec pid') ((contenido_exec hp).symm ▸ hx) (by simpa using hne)
          ((contenido_exec hp').symm ▸ hx')
  | sem =>
      refine Dictionary.nodup_flatMap _ (fun semID l hl => ?_)
        fun semID l semID' l' hl hl' hne x hx hx' => ?_
      · exact contenido_semaforo hl ▸ hC.nodup (.semaforo semID)
      · exact hunico (.semaforo semID) (.semaforo semID') ((contenido_semaforo hl).symm ▸ hx)
          (by simpa using hne) ((contenido_semaforo hl').symm ▸ hx')

theorem nodup_hilosMedibles (hC : Placement (contenido s) S) : (hilosMedibles s).Nodup := by
  have hdisj : ∀ {p p' : Pasada}, p ≠ p' → (p.propios s).Disjoint (p'.propios s) :=
    fun hne => Pasada.disjoint_propios hC hne
  have hnd := fun p : Pasada => Pasada.nodup_propios hC p
  simp only [hilosMedibles, List.nodup_append', List.disjoint_append_left]
  refine ⟨⟨⟨⟨hnd .news, hnd .blocked, ?_⟩, hnd .ready, ?_, ?_⟩, hnd .exec, ⟨?_, ?_⟩, ?_⟩,
    hnd .sem, ⟨⟨?_, ?_⟩, ?_⟩, ?_⟩
  all_goals exact hdisj (by simp)

end Placement

/-- In every state of a run no thread is in two containers and no program has
accumulated time. -/
theorem medible_of_run {c : Configuracion} {tr : List (Step (Estado E) Evento)}
    (hrun : Run (Transicion env) (iniciarSUSE c) tr s) : Medible s := by
  obtain ⟨S, hC⟩ := coherente_of_run hrun
  exact ⟨nodup_hilosMedibles hC.particion, fun pid p hp => (enCero_of_run hrun pid p hp).2⟩

/-- A program connects and creates a thread. -/
def unoEnNew (semaforos : List (String × Semaforo)) : Estado ℚ :=
  final (paso entornoRacional) (iniciarSUSE ⟨1, semaforos⟩)
    [.conectar 5, .crear 5 0 (0, 0) 0]

/-- Two programs without semaphores: of the first, one thread waits for the other, which
is ready, and the thread of the second is in New. -/
def unoEnCadaLista : Estado ℚ :=
  final (paso entornoRacional) (iniciarSUSE ⟨2, []⟩)
    [.conectar 5, .crear 5 0 (0, 0) 0, .tomar, .admitir 1, .scheduleNext 5 fun _ => 2,
      .crear 5 1 (0, 0) 3, .tomar, .admitir 4, .join 5 1, .conectar 6, .crear 6 0 (0, 0) 5]

theorem visitaUnaVez_iff_unoEnCadaLista : VisitaUnaVez (fun _ => 10) unoEnCadaLista := by
  have hmedible : Medible unoEnCadaLista :=
    medible_of_run (Run.execute (paso entornoRacional) _ (by decide +kernel))
  have hprogramas : unoEnCadaLista.diccionarioDeProgramas.toList.map Prod.fst = [6, 5] := by
    decide +kernel
  refine (visitaUnaVez_iff hmedible _).2 ⟨⟨?_, ?_, ?_, ?_⟩, fun pid hpid => ?_⟩
  · decide +kernel
  · exact Or.inr (by decide +kernel)
  · exact Or.inr (by decide +kernel)
  · decide +kernel
  · obtain ⟨p, hp⟩ := hpid
    have hmem : pid ∈ unoEnCadaLista.diccionarioDeProgramas.toList.map Prod.fst :=
      List.mem_map.2 ⟨(pid, p), (Dictionary.mem_toList _ _ _).2 hp, rfl⟩
    rw [hprogramas, List.mem_cons, List.mem_singleton] at hmem
    rcases hmem with rfl | rfl <;> decide +kernel

/-- With a semaphore, the thread in New is visited twice. -/
theorem not_visitaUnaVez :
    ¬ ∀ (c : Configuracion) (tr : List (Step (Estado ℚ) Evento)) (s : Estado ℚ) (reloj : ℕ → ℕ),
      Run (Transicion entornoRacional) (iniciarSUSE c) tr s → VisitaUnaVez reloj s := by
  intro h
  have hvisita := h ⟨1, [("s", ⟨1, 1⟩)]⟩ _ (unoEnNew [("s", ⟨1, 1⟩)]) id
    (Run.execute (paso entornoRacional) _ (by decide +kernel))
  exact absurd (hvisita.una 0 (by decide +kernel)) (by decide +kernel)

end Suse
