import Linuse.Suse.Estado
import Linuse.Transition.Run

/-!
# The New queue under the passes over the times

The calls of `crearHilo`, `planificarReady` and the passes of `tomarMetricas` over
`new`, one operation on a queue or a semaphore at a time. The calls of
`tomarMetricas` take turns by `sem_metricas`, so there is one pass at most. Each
pass takes the threads out of `new`, one by one, into its own `colaAux`, and puts
them back; `tomarMetricasParaLosNews` does it with `sem_new`, and the passes over
the semaphores, once for each of them, without it.

`planificarReady` finds the threads in the order in which `crearHilo` put them
there, and never an empty queue, as long as it takes no thread from a queue that a
pass without `sem_new` has part of, and `crearHilo` puts none behind the part that
is back (`ordenada_of_run`).
-/

namespace Suse

open Transition

/-- A call of `crearHilo`, up to its `sem_post(&hayNuevos)`. -/
inductive Creador (α : Type) where
  | inicio (unHilo : α)
  | enSeccion (unHilo : α)
  | puesto
  | fuera
  | listo
  deriving DecidableEq

/-- The loop of `planificarReady`, with what its `queue_pop` returned. -/
inductive Planificador (α : Type) where
  | inicio
  | conNuevo
  | enSeccion
  | saco (unHilo : Option α)
  | fuera (unHilo : Option α)
  deriving DecidableEq

/-- The passes over `new`: `quedan` are those to come, and each is with `sem_new` or
without it. -/
inductive Medidor (α : Type) where
  | libre
  | entre (quedan : List Bool)
  | vaciando (conSem : Bool) (colaAux : List α) (quedan : List Bool)
  | rellenando (conSem : Bool) (colaAux : List α) (quedan : List Bool)
  deriving DecidableEq

/-- The queue, the semaphores that its users wait for, and where each of them is. -/
structure Nuevos (α : Type) where
  new : List α
  semNew : ℕ
  hayNuevos : ℕ
  maximoProcesamiento : ℕ
  creadores : List (Creador α)
  planificador : Planificador α
  medidor : Medidor α

/-- The next operation of one of the users, the start of a `crearHilo`, or a
`sem_post(&MAXIMOPROCESAMIENTO)`. -/
inductive Movimiento (α : Type) where
  | crear (unHilo : α)
  | creador (i : ℕ)
  | planificador
  | medidor
  | postMaximo

namespace Nuevos

variable {α : Type}

/-- The passes of a `tomarMetricas` over `new` with `semaforos` semaphores: for each
of the three measures, the one of `tomarMetricasParaLosNews` and one for each
semaphore. -/
def pasadas (semaforos : ℕ) : List Bool :=
  (List.replicate 3 (true :: List.replicate semaforos false)).flatten

def pasoCreador (s : Nuevos α) (i : ℕ) : Creador α → Except Falla (Nuevos α)
  | .inicio unHilo =>
      if 0 < s.semNew then
        .ok { s with semNew := s.semNew - 1
                     creadores := s.creadores.set i (.enSeccion unHilo) }
      else .error .espera
  | .enSeccion unHilo =>
      .ok { s with new := s.new ++ [unHilo], creadores := s.creadores.set i .puesto }
  | .puesto => .ok { s with semNew := s.semNew + 1, creadores := s.creadores.set i .fuera }
  | .fuera => .ok { s with hayNuevos := s.hayNuevos + 1, creadores := s.creadores.set i .listo }
  | .listo => .error .espera

def pasoPlanificador (s : Nuevos α) : Except Falla (Nuevos α) :=
  match s.planificador with
  | .inicio =>
      if 0 < s.hayNuevos then
        .ok { s with hayNuevos := s.hayNuevos - 1, planificador := .conNuevo }
      else .error .espera
  | .conNuevo =>
      if 0 < s.semNew then .ok { s with semNew := s.semNew - 1, planificador := .enSeccion }
      else .error .espera
  | .enSeccion => .ok { s with new := s.new.tail, planificador := .saco s.new.head? }
  | .saco unHilo => .ok { s with semNew := s.semNew + 1, planificador := .fuera unHilo }
  | .fuera unHilo =>
      if 0 < s.maximoProcesamiento then
        match unHilo with
        | none => .error .punteroNulo
        | some _ => .ok { s with
            maximoProcesamiento := s.maximoProcesamiento - 1, planificador := .inicio }
      else .error .espera

/-- What a pass does with its own `colaAux` goes together with its operation on
`new`. -/
def pasoMedidor (semaforos : ℕ) (s : Nuevos α) : Except Falla (Nuevos α) :=
  match s.medidor with
  | .libre => .ok { s with medidor := .entre (pasadas semaforos) }
  | .entre [] => .ok { s with medidor := .libre }
  | .entre (true :: quedan) =>
      if 0 < s.semNew then
        .ok { s with semNew := s.semNew - 1, medidor := .vaciando true [] quedan }
      else .error .espera
  | .entre (false :: quedan) => .ok { s with medidor := .vaciando false [] quedan }
  | .vaciando conSem colaAux quedan =>
      match s.new with
      | [] => .ok { s with medidor := .rellenando conSem colaAux quedan }
      | unHilo :: resto =>
          .ok { s with new := resto, medidor := .vaciando conSem (colaAux ++ [unHilo]) quedan }
  | .rellenando conSem (unHilo :: colaAux) quedan =>
      .ok { s with new := s.new ++ [unHilo], medidor := .rellenando conSem colaAux quedan }
  | .rellenando true [] quedan =>
      .ok { s with semNew := s.semNew + 1, medidor := .entre quedan }
  | .rellenando false [] quedan => .ok { s with medidor := .entre quedan }

def paso (semaforos : ℕ) (s : Nuevos α) : Movimiento α → Except Falla (Nuevos α)
  | .crear unHilo => .ok { s with creadores := s.creadores ++ [.inicio unHilo] }
  | .creador i =>
      match s.creadores[i]? with
      | none => .error .espera
      | some c => s.pasoCreador i c
  | .planificador => s.pasoPlanificador
  | .medidor => s.pasoMedidor semaforos
  | .postMaximo => .ok { s with maximoProcesamiento := s.maximoProcesamiento + 1 }

def Transicion (semaforos : ℕ) (s : Nuevos α) (e : Movimiento α) (s' : Nuevos α) : Prop :=
  paso semaforos s e = .ok s'

/-- The state that `iniciarSUSE` leaves. -/
def inicial (gradoDeMultiprogramacion : ℕ) : Nuevos α where
  new := []
  semNew := 1
  hayNuevos := 0
  maximoProcesamiento := gradoDeMultiprogramacion
  creadores := []
  planificador := .inicio
  medidor := .libre

/-! ## What a step does to the queue -/

/-- The thread that a step of `crearHilo` puts in `new`. -/
def empuja (x : Step (Nuevos α) (Movimiento α)) : Option α :=
  match x.label with
  | .creador i =>
      match x.pre.creadores[i]? with
      | some (.enSeccion unHilo) => some unHilo
      | _ => none
  | _ => none

/-- What the `queue_pop` of `planificarReady` returns, when the step is that one. -/
def saca (x : Step (Nuevos α) (Movimiento α)) : Option (Option α) :=
  match x.label, x.pre.planificador with
  | .planificador, .enSeccion => some x.pre.new.head?
  | _, _ => none

/-- The thread that a step of `planificarReady` admits. -/
def admite (x : Step (Nuevos α) (Movimiento α)) : Option α :=
  match x.label, x.pre.planificador with
  | .planificador, .fuera unHilo => unHilo
  | _, _ => none

/-- Every `queue_pop` of `planificarReady` returned a thread, and the threads were
admitted in the order in which `crearHilo` put them in `new`. -/
structure Ordenada (tr : List (Step (Nuevos α) (Movimiento α))) : Prop where
  noNulo : ∀ o ∈ tr.filterMap saca, o ≠ none
  orden : tr.filterMap admite <+: tr.filterMap empuja

/-- The threads that a pass without `sem_new` has taken out of `new` so far. -/
def fueraDeNew (s : Nuevos α) : List α :=
  match s.medidor with
  | .vaciando false colaAux _ => colaAux
  | _ => []

/-- The threads that a pass without `sem_new` has not put back yet. -/
def porVolver (s : Nuevos α) : List α :=
  match s.medidor with
  | .rellenando false colaAux _ => colaAux
  | _ => []

/-- No thread is taken while a pass without `sem_new` has taken part of the queue
out, nor from an empty queue while it puts it back, and none is put in the queue
while it puts it back. -/
structure NoEstorba (x : Step (Nuevos α) (Movimiento α)) : Prop where
  sacar : saca x ≠ none → x.pre.fueraDeNew = [] ∧ (x.pre.porVolver = [] ∨ x.pre.new ≠ [])
  poner : empuja x ≠ none → x.pre.porVolver = []

instance [DecidableEq α] (x : Step (Nuevos α) (Movimiento α)) : Decidable (NoEstorba x) :=
  decidable_of_iff
    ((saca x ≠ none → x.pre.fueraDeNew = [] ∧ (x.pre.porVolver = [] ∨ x.pre.new ≠ [])) ∧
      (empuja x ≠ none → x.pre.porVolver = []))
    ⟨fun h => ⟨h.1, h.2⟩, fun h => ⟨h.sacar, h.poner⟩⟩

/-! ## The queue with what a pass has of it -/

/-- The threads in `new`, with those of the pass where they come from or go to. -/
def enNew (s : Nuevos α) : List α :=
  match s.medidor with
  | .vaciando _ colaAux _ => colaAux ++ s.new
  | .rellenando _ colaAux _ => s.new ++ colaAux
  | _ => s.new

end Nuevos

/-- Whether the call owns `sem_new`. -/
def Creador.dentro {α : Type} : Creador α → Bool
  | .enSeccion _ | .puesto => true
  | _ => false

/-- Whether the call has put its thread and has not told yet. -/
def Creador.sinAvisar {α : Type} : Creador α → Bool
  | .puesto | .fuera => true
  | _ => false

def Planificador.dentro {α : Type} : Planificador α → Bool
  | .enSeccion | .saco _ => true
  | _ => false

/-- Whether `planificarReady` knows of a thread that it has not taken. -/
def Planificador.espera {α : Type} : Planificador α → Bool
  | .conNuevo | .enSeccion => true
  | _ => false

/-- The result of the `queue_pop` that has not been admitted. -/
def Planificador.enMano {α : Type} : Planificador α → List (Option α)
  | .saco unHilo | .fuera unHilo => [unHilo]
  | _ => []

def Medidor.dentro {α : Type} : Medidor α → Bool
  | .vaciando true _ _ | .rellenando true _ _ => true
  | _ => false

namespace Nuevos

variable {α : Type} {s s' : Nuevos α} {tr : List (Step (Nuevos α) (Movimiento α))}

/-- One user at a time owns `sem_new`, `hayNuevos` tells of the threads that are in
the queue, and those are the ones put there and not yet taken, in order. -/
structure Lleva (tr : List (Step (Nuevos α) (Movimiento α))) (s : Nuevos α) : Prop where
  uno : s.semNew + s.creadores.countP Creador.dentro + s.planificador.dentro.toNat +
    s.medidor.dentro.toNat = 1
  cuenta : s.hayNuevos + s.creadores.countP Creador.sinAvisar +
    s.planificador.espera.toNat = s.enNew.length
  orden : (tr.filterMap empuja).map some =
    (tr.filterMap admite).map some ++ s.planificador.enMano ++ s.enNew.map some
  noNulo : ∀ o ∈ tr.filterMap saca, o ≠ none

theorem lleva_inicial (grado : ℕ) : Lleva (α := α) [] (inicial grado) :=
  ⟨rfl, rfl, rfl, by simp⟩

/-- Replacing a member of a list changes what it counts. -/
theorem countP_set_add {β : Type} (p : β → Bool) {l : List β} {i : ℕ} {b : β} (c : β)
    (h : l[i]? = some b) :
    (l.set i c).countP p + (p b).toNat = l.countP p + (p c).toNat := by
  obtain ⟨hi, rfl⟩ := List.getElem?_eq_some_iff.1 h
  have hle := List.boole_getElem_le_countP (p := p) hi
  rw [List.countP_set hi]
  cases hb : p l[i] <;> cases hc : p c <;> simp_all

theorem countP_pos_of_get {β : Type} (p : β → Bool) {l : List β} {i : ℕ} {b : β}
    (h : l[i]? = some b) (hb : p b = true) : 0 < l.countP p :=
  List.countP_pos_iff.2 ⟨b, List.mem_of_getElem? h, hb⟩

/-- A thread put at the end of `new` is the last one in the queue. -/
theorem enNew_poner (unHilo : α) (creadores : List (Creador α))
    (h : ∀ conSem colaAux quedan, s.medidor = .rellenando conSem colaAux quedan →
      colaAux = []) :
    enNew { s with new := s.new ++ [unHilo], creadores := creadores } =
      s.enNew ++ [unHilo] := by
  cases hm : s.medidor with
  | rellenando conSem colaAux quedan => simp [enNew, hm, h conSem colaAux quedan hm]
  | _ => simp [enNew, hm]

/-- The head of `new` is the first one in the queue. -/
theorem enNew_sacar (planificador : Planificador α) (hlen : 0 < s.enNew.length)
    (hvaciando : ∀ conSem colaAux quedan, s.medidor = .vaciando conSem colaAux quedan →
      colaAux = [])
    (hrellenando : ∀ conSem colaAux quedan, s.medidor = .rellenando conSem colaAux quedan →
      colaAux = [] ∨ s.new ≠ []) :
    ∃ unHilo, s.new.head? = some unHilo ∧ s.enNew = unHilo ::
      enNew { s with new := s.new.tail, planificador := planificador } := by
  have hnew : s.new ≠ [] := by
    intro hnil
    cases hm : s.medidor with
    | vaciando conSem colaAux quedan =>
        simp [enNew, hm, hnil, hvaciando conSem colaAux quedan hm] at hlen
    | rellenando conSem colaAux quedan =>
        rcases hrellenando conSem colaAux quedan hm with hcola | hnew
        · simp [enNew, hm, hnil, hcola] at hlen
        · exact hnew hnil
    | _ => simp [enNew, hm, hnil] at hlen
  obtain ⟨unHilo, resto, hcons⟩ := List.exists_cons_of_ne_nil hnew
  refine ⟨unHilo, by rw [hcons, List.head?_cons], ?_⟩
  cases hm : s.medidor with
  | vaciando conSem colaAux quedan =>
      simp [enNew, hm, hcons, hvaciando conSem colaAux quedan hm]
  | _ => simp [enNew, hm, hcons]

/-- What a step has to do: keep the two counts, and take from the front of the queue
or put at its end. -/
theorem Lleva.sigue {e : Movimiento α} (h : Lleva tr s)
    (huno : s'.semNew + s'.creadores.countP Creador.dentro + s'.planificador.dentro.toNat +
      s'.medidor.dentro.toNat = 1)
    (hcuenta : s'.hayNuevos + s'.creadores.countP Creador.sinAvisar +
      s'.planificador.espera.toNat = s'.enNew.length)
    (hcola : (admite ⟨s, e, s'⟩).toList.map some ++ s'.planificador.enMano ++
        s'.enNew.map some =
      s.planificador.enMano ++ s.enNew.map some ++ (empuja ⟨s, e, s'⟩).toList.map some)
    (hsaca : ∀ o ∈ saca ⟨s, e, s'⟩, o ≠ none) : Lleva (tr ++ [⟨s, e, s'⟩]) s' := by
  refine ⟨huno, hcuenta, ?_, ?_⟩
  · rw [filterMap_snoc, filterMap_snoc, List.map_append, List.map_append, h.orden]
    simp only [List.append_assoc] at hcola ⊢
    rw [hcola]
  · rw [filterMap_snoc]
    intro o ho
    rcases List.mem_append.1 ho with ho | ho
    · exact h.noNulo o ho
    · exact hsaca o (by simpa using ho)

theorem Lleva.creador {i : ℕ} {c : Creador α} (h : Lleva tr s) (hc : s.creadores[i]? = some c)
    (hlibre : NoEstorba ⟨s, .creador i, s'⟩) (hs : s.pasoCreador i c = .ok s') :
    Lleva (tr ++ [⟨s, .creador i, s'⟩]) s' := by
  have huno := h.uno
  have hcuenta := h.cuenta
  have hdentro := fun c' => countP_set_add Creador.dentro c' hc
  have hsin := fun c' => countP_set_add Creador.sinAvisar c' hc
  cases c with
  | inicio unHilo =>
      rw [pasoCreador] at hs
      split_ifs at hs with hsem
      cases hs
      have hd := hdentro (.enSeccion unHilo)
      have hn := hsin (.enSeccion unHilo)
      simp only [Creador.dentro, Creador.sinAvisar, Bool.toNat_true, Bool.toNat_false] at hd hn
      refine h.sigue ?_ ?_ ?_ (by simp [saca])
      · simp only
        omega
      · simp only
        rw [Nat.add_zero] at hn
        rw [hn]
        exact hcuenta
      · simp [admite, empuja, hc, enNew]
  | enSeccion unHilo =>
      cases hs
      have hd := hdentro .puesto
      have hn := hsin .puesto
      have hpos := countP_pos_of_get Creador.dentro hc rfl
      simp only [Creador.dentro, Creador.sinAvisar, Bool.toNat_true, Bool.toNat_false] at hd hn
      have hcola : ∀ conSem colaAux quedan, s.medidor = .rellenando conSem colaAux quedan →
          colaAux = [] := by
        intro conSem colaAux quedan hm
        cases conSem with
        | true =>
            rw [hm, Medidor.dentro, Bool.toNat_true] at huno
            omega
        | false => simpa [porVolver, hm] using hlibre.poner (by simp [empuja, hc])
      have hnew := enNew_poner unHilo (s.creadores.set i .puesto) hcola
      refine h.sigue ?_ ?_ ?_ (by simp [saca])
      · simp only
        omega
      · rw [hnew, List.length_append, List.length_singleton]
        simp only
        omega
      · rw [hnew]
        simp [admite, empuja, hc]
  | puesto =>
      cases hs
      have hd := hdentro .fuera
      have hn := hsin .fuera
      simp only [Creador.dentro, Creador.sinAvisar, Bool.toNat_true, Bool.toNat_false] at hd hn
      refine h.sigue ?_ ?_ ?_ (by simp [saca])
      · simp only
        omega
      · simp only
        rw [Nat.add_right_cancel hn]
        exact hcuenta
      · simp [admite, empuja, hc, enNew]
  | fuera =>
      cases hs
      have hd := hdentro .listo
      have hn := hsin .listo
      simp only [Creador.dentro, Creador.sinAvisar, Bool.toNat_true, Bool.toNat_false] at hd hn
      refine h.sigue ?_ ?_ ?_ (by simp [saca])
      · simp only
        omega
      · have hnew : enNew { s with
            hayNuevos := s.hayNuevos + 1, creadores := s.creadores.set i .listo } = s.enNew := rfl
        rw [hnew]
        simp only
        omega
      · simp [admite, empuja, hc, enNew]
  | listo => cases hs

theorem Lleva.planificador (h : Lleva tr s) (hlibre : NoEstorba ⟨s, .planificador, s'⟩)
    (hs : s.pasoPlanificador = .ok s') : Lleva (tr ++ [⟨s, .planificador, s'⟩]) s' := by
  have huno := h.uno
  have hcuenta := h.cuenta
  rw [pasoPlanificador] at hs
  cases hp : s.planificador with
  | inicio =>
      simp only [hp] at hs
      split_ifs at hs with hhay
      cases hs
      simp only [hp, Planificador.dentro, Planificador.espera, Bool.toNat_false] at huno hcuenta
      refine h.sigue ?_ ?_ ?_ (by simp [saca, hp])
      · simpa only [Planificador.dentro, Bool.toNat_false] using huno
      · have hnew : enNew { s with
            hayNuevos := s.hayNuevos - 1, planificador := .conNuevo } = s.enNew := rfl
        rw [hnew]
        simp only [Planificador.espera, Bool.toNat_true]
        omega
      · simp [admite, empuja, hp, Planificador.enMano, enNew]
  | conNuevo =>
      simp only [hp] at hs
      split_ifs at hs with hsem
      cases hs
      simp only [hp, Planificador.dentro, Planificador.espera, Bool.toNat_false,
        Bool.toNat_true] at huno hcuenta
      refine h.sigue ?_ ?_ ?_ (by simp [saca, hp])
      · simp only [Planificador.dentro, Bool.toNat_true]
        omega
      · exact hcuenta
      · simp [admite, empuja, hp, Planificador.enMano, enNew]
  | enSeccion =>
      simp only [hp] at hs
      cases hs
      simp only [hp, Planificador.dentro, Planificador.espera, Bool.toNat_true] at huno hcuenta
      have hsaca : saca ⟨s, .planificador, { s with
          new := s.new.tail, planificador := .saco s.new.head? }⟩ = some s.new.head? := by
        simp [saca, hp]
      obtain ⟨hvacia, hvuelve⟩ := hlibre.sacar (by simp [hsaca])
      have hvaciando : ∀ conSem colaAux quedan, s.medidor = .vaciando conSem colaAux quedan →
          colaAux = [] := by
        intro conSem colaAux quedan hm
        cases conSem with
        | true =>
            rw [hm, Medidor.dentro, Bool.toNat_true] at huno
            omega
        | false => simpa [fueraDeNew, hm] using hvacia
      have hrellenando : ∀ conSem colaAux quedan,
          s.medidor = .rellenando conSem colaAux quedan → colaAux = [] ∨ s.new ≠ [] := by
        intro conSem colaAux quedan hm
        cases conSem with
        | true =>
            rw [hm, Medidor.dentro, Bool.toNat_true] at huno
            omega
        | false => simpa [porVolver, hm] using hvuelve
      obtain ⟨unHilo, hhead, hnew⟩ := enNew_sacar (.saco s.new.head?) (by omega)
        hvaciando hrellenando
      refine h.sigue ?_ ?_ ?_ ?_
      · simpa only [Planificador.dentro, Bool.toNat_true] using huno
      · rw [hnew, List.length_cons] at hcuenta
        simp only [Planificador.espera, Bool.toNat_false]
        omega
      · rw [hnew]
        simp [admite, empuja, hp, Planificador.enMano, hhead]
      · rw [hsaca, hhead]
        simp
  | saco unHilo =>
      simp only [hp] at hs
      cases hs
      simp only [hp, Planificador.dentro, Planificador.espera, Bool.toNat_false,
        Bool.toNat_true] at huno hcuenta
      refine h.sigue ?_ ?_ ?_ (by simp [saca, hp])
      · simp only [Planificador.dentro, Bool.toNat_false]
        omega
      · exact hcuenta
      · simp [admite, empuja, hp, Planificador.enMano, enNew]
  | fuera unHilo =>
      simp only [hp] at hs
      split_ifs at hs with hmax
      cases unHilo with
      | none => cases hs
      | some unHilo =>
          cases hs
          simp only [hp, Planificador.dentro, Planificador.espera, Bool.toNat_false]
            at huno hcuenta
          refine h.sigue ?_ ?_ ?_ (by simp [saca, hp])
          · exact huno
          · exact hcuenta
          · simp [admite, empuja, hp, Planificador.enMano, enNew]

/-- A pass keeps the queue, and owns `sem_new` from beginning to end if it takes
it. -/
theorem pasoMedidor_ok {semaforos : ℕ} (hs : s.pasoMedidor semaforos = .ok s') :
    s'.semNew + s'.medidor.dentro.toNat = s.semNew + s.medidor.dentro.toNat ∧
      s'.enNew = s.enNew ∧ s'.hayNuevos = s.hayNuevos ∧ s'.creadores = s.creadores ∧
      s'.planificador = s.planificador := by
  rw [pasoMedidor] at hs
  split at hs
  · rename_i hm
    cases hs
    exact ⟨by simp [hm, Medidor.dentro], by simp [enNew, hm], rfl, rfl, rfl⟩
  · rename_i hm
    cases hs
    exact ⟨by simp [hm, Medidor.dentro], by simp [enNew, hm], rfl, rfl, rfl⟩
  · rename_i quedan hm
    split_ifs at hs with hsem
    cases hs
    refine ⟨?_, by simp [enNew, hm], rfl, rfl, rfl⟩
    simp only [hm, Medidor.dentro, Bool.toNat_true, Bool.toNat_false]
    omega
  · rename_i quedan hm
    cases hs
    exact ⟨by simp [hm, Medidor.dentro], by simp [enNew, hm], rfl, rfl, rfl⟩
  · rename_i conSem colaAux quedan hm
    cases hnew : s.new with
    | nil =>
        simp only [hnew] at hs
        cases hs
        refine ⟨?_, by simp [enNew, hm, hnew], rfl, rfl, rfl⟩
        cases conSem <;> simp [hm, Medidor.dentro]
    | cons unHilo resto =>
        simp only [hnew] at hs
        cases hs
        refine ⟨?_, by simp [enNew, hm, hnew], rfl, rfl, rfl⟩
        cases conSem <;> simp [hm, Medidor.dentro]
  · rename_i conSem unHilo colaAux quedan hm
    cases hs
    refine ⟨?_, by simp [enNew, hm], rfl, rfl, rfl⟩
    cases conSem <;> simp [hm, Medidor.dentro]
  · rename_i quedan hm
    cases hs
    exact ⟨by simp [hm, Medidor.dentro], by simp [enNew, hm], rfl, rfl, rfl⟩
  · rename_i quedan hm
    cases hs
    exact ⟨by simp [hm, Medidor.dentro], by simp [enNew, hm], rfl, rfl, rfl⟩

theorem Lleva.medidor {semaforos : ℕ} (h : Lleva tr s)
    (hs : s.pasoMedidor semaforos = .ok s') : Lleva (tr ++ [⟨s, .medidor, s'⟩]) s' := by
  obtain ⟨hsem, hnew, hhay, hcreadores, hplanificador⟩ := pasoMedidor_ok hs
  have huno := h.uno
  refine h.sigue ?_ ?_ ?_ (by simp [saca])
  · rw [hcreadores, hplanificador]
    omega
  · rw [hhay, hcreadores, hplanificador, hnew]
    exact h.cuenta
  · simp [admite, empuja, hplanificador, hnew]

/-- One step. -/
theorem Lleva.paso {semaforos : ℕ} {e : Movimiento α} (h : Lleva tr s)
    (hlibre : NoEstorba ⟨s, e, s'⟩) (hs : s.paso semaforos e = .ok s') :
    Lleva (tr ++ [⟨s, e, s'⟩]) s' := by
  cases e with
  | crear unHilo =>
      cases hs
      refine h.sigue ?_ ?_ ?_ (by simp [saca])
      · simpa [Creador.dentro] using h.uno
      · simpa [Creador.sinAvisar, enNew] using h.cuenta
      · simp [admite, empuja, enNew]
  | creador i =>
      cases hc : s.creadores[i]? with
      | none =>
          simp only [Nuevos.paso, hc] at hs
          cases hs
      | some c =>
          simp only [Nuevos.paso, hc] at hs
          exact h.creador hc hlibre hs
  | planificador => exact h.planificador hlibre hs
  | medidor => exact h.medidor hs
  | postMaximo =>
      cases hs
      refine h.sigue h.uno h.cuenta ?_ (by simp [saca])
      simp [admite, empuja, enNew]

theorem lleva_of_run {semaforos grado : ℕ}
    (hrun : Run (Transicion semaforos) (inicial grado) tr s) (hlibre : ∀ x ∈ tr, NoEstorba x) :
    Lleva tr s := by
  refine hrun.invariant_trace_of Lleva (fun _ x => NoEstorba x) (lleva_inicial grado)
    (fun tr s e s' _ h hlibre hs => h.paso hlibre hs) fun tr₁ x tr₂ heq => hlibre x ?_
  rw [heq]
  simp

/-- In every run whose steps leave the passes without `sem_new` alone,
`planificarReady` always takes a thread, and admits the threads in the order in
which `crearHilo` put them in `new`. -/
theorem ordenada_of_run {semaforos grado : ℕ}
    (hrun : Run (Transicion semaforos) (inicial grado) tr s) (hlibre : ∀ x ∈ tr, NoEstorba x) :
    Ordenada tr := by
  have h := lleva_of_run hrun hlibre
  refine ⟨h.noNulo, ?_⟩
  have horden : ((tr.filterMap admite).map some : List (Option α)) <+:
      (tr.filterMap empuja).map some := by
    rw [h.orden, List.append_assoc]
    exact List.prefix_append _ _
  exact (List.prefix_map_iff_of_injective (Option.some_injective α)).1 horden

/-- Three threads are created, the last one while a pass without `sem_new` takes the first two
out of the queue. The first is admitted while that pass puts them back, and the others after
all the passes, each when a thread ends. -/
def entrePasadas : List (Movimiento ℕ) :=
  List.flatten [[.crear 7, .crear 8, .crear 9], .replicate 4 (.creador 0),
    .replicate 4 (.creador 1), .replicate 10 .medidor, .replicate 4 (.creador 2),
    .replicate 4 .medidor, .replicate 5 .planificador, .replicate 32 .medidor,
    .replicate 4 .planificador, [.postMaximo], .replicate 5 .planificador, [.postMaximo],
    [.planificador]]

theorem ordenada_of_run_entrePasadas :
    (trace (paso 1) (inicial 1) entrePasadas).filterMap admite = [7, 8, 9] ∧
      Ordenada (trace (paso 1) (inicial 1) entrePasadas) :=
  ⟨by decide +kernel, ordenada_of_run (Run.execute (paso 1) entrePasadas (by decide +kernel))
    (by decide +kernel)⟩

/-- The pass over the queue of a semaphore has the only thread when
`planificarReady` comes for it. -/
def enUnaPasada : List (Movimiento ℕ) :=
  .crear 7 :: (List.replicate 4 (.creador 0) ++ List.replicate 8 .medidor ++
    List.replicate 3 .planificador)

theorem not_ordenada_of_run :
    ¬ ∀ (semaforos grado : ℕ) (tr : List (Step (Nuevos ℕ) (Movimiento ℕ))) (s : Nuevos ℕ),
      Run (Transicion semaforos) (inicial grado) tr s → Ordenada tr := by
  intro h
  have hrun := Run.execute (paso 1) (s := inicial 1) enUnaPasada (by decide +kernel)
  have hsaca : none ∈ (trace (paso 1) (inicial 1) enUnaPasada).filterMap saca := by
    decide +kernel
  exact (h 1 1 _ _ hrun).noNulo none hsaca rfl

end Nuevos

end Suse
