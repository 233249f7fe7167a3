import Linuse.Hilolay.Sistema

/-!
# What the programs and the scheduler agree on

The libraries keep their own account of which ULT runs, and the scheduler its own. In every
reachable state they agree (`acuerdo_of_run`): the ULT that runs is the thread in `exec`, each
thread of the scheduler has its TCB, each TCB in use has its thread when the scheduler has read what
the program sent, and `get_next_tid` finds the TCB of every answer.
-/

namespace Hilolay

open Suse Wire Transition Fallible
open Function (update update_self update_of_ne)

variable {E : Type} {env : Entorno E} {basura : ℕ → UInt8} {s s' : Estado E} {pid : Pid}
  {x x' : Sistema E} {c d : Cliente} {qs : List Pedido} {p p' : Proceso} {tid : Tid}

/-! ## What the scheduler knows of a library -/

/-- The table of a program that has started, with room for what the scheduler knows of it. -/
theorem Conoce.biblioteca (h : Conoce p c) (hini : c.turno ≠ .iniciando) :
    ∃ n i : ℕ, i < n ∧ n ≤ maxUlts ∧ p.biblioteca = .de n i ∧ c.nextId ≤ n := by
  obtain ⟨⟨qs, d, -, henc, hrefleja⟩, -⟩ := h
  have hle := henc.nextId_le
  cases hrefleja with
  | iniciando =>
      obtain ⟨-, rfl⟩ := henc.de_iniciando rfl
      exact absurd rfl hini
  | @corriendo n i _ hi hn => exact ⟨n, i, hi, hn, rfl, hle⟩
  | @cediendo n i _ _ _ _ hi hn _ _ hnext => exact ⟨n, i, hi, hn, rfl, hnext ▸ hle⟩
  | @esperando n i _ hi hn => exact ⟨n, i, hi, hn, rfl, hle⟩
  | @contestado n i _ hi hn _ => exact ⟨n, i, hi, hn, rfl, hle⟩

/-- The scheduler knows all the ids that were given when it has read what the program sent. -/
theorem Conoce.alDia (h : Conoce p c) (hida : p.ida = []) (hetapa : p.etapa ≠ .iniciando) :
    c.turno ≠ .iniciando ∧ ∃ n i : ℕ, i < n ∧ p.biblioteca = .de n i ∧ c.nextId = n := by
  obtain ⟨⟨qs, d, -, henc, hrefleja⟩, -⟩ := h
  have hnil : qs = [] := by
    have hbytes : qs.flatMap Pedido.bytes = [] := by cases hrefleja <;> exact hida
    rw [List.flatMap_eq_nil_iff] at hbytes
    exact List.eq_nil_iff_forall_not_mem.2 fun q hq => q.bytes_ne_nil (hbytes q hq)
  subst hnil
  cases henc with
  | nil =>
      cases hrefleja with
      | iniciando => exact absurd rfl hetapa
      | @corriendo n i _ hi _ => exact ⟨(by simp), n, i, hi, rfl, rfl⟩
      | @cediendo n i _ _ _ _ hi _ hini _ hnext => exact ⟨hini, n, i, hi, rfl, hnext⟩
      | @esperando n i _ hi _ => exact ⟨(by simp), n, i, hi, rfl, rfl⟩
      | @contestado n i _ hi _ _ => exact ⟨(by simp), n, i, hi, rfl, rfl⟩

theorem Biblioteca.running_iff {n i j : ℕ} {t : TCB} (h : (Biblioteca.de n i).ults[j]? = some t) :
    t.state = .running ↔ j = (Biblioteca.de n i).currentUlt := by
  rw [getElem?_ults_de] at h
  split_ifs at h
  rw [← Option.some.inj h, tcb]
  have hcurrent : (Biblioteca.de n i).currentUlt = i := rfl
  rw [hcurrent]
  split_ifs with hj <;> simp [hj]

theorem Biblioteca.creado_of_ne_free {n i j : ℕ} {t : TCB} (hi : i < n)
    (h : (Biblioteca.de n i).ults[j]? = some t) (hfree : t.state ≠ .free) : j < n ∧ t.id = j := by
  rw [getElem?_ults_de] at h
  split_ifs at h
  rw [← Option.some.inj h, tcb] at hfree ⊢
  split_ifs at hfree ⊢ with hj hlt
  · exact ⟨hj ▸ hi, rfl⟩
  · exact ⟨hlt, rfl⟩
  · exact absurd rfl hfree

/-! ## The agreement -/

/-- The thread of the program that is in `exec` is the ULT that runs. -/
def EnExec (s : Estado E) (pid : Pid) (b : Biblioteca) : Prop :=
  ∃ y tid, contenido s (.exec pid) = [y] ∧ identidad s y = some (pid, tid) ∧
    b.hilolayGetTid = some tid

/-- What the library of a program and the scheduler agree on, once the main thread was admitted
where they need it. -/
structure Acuerdo (s : Estado E) (pid : Pid) (p : Proceso) : Prop where
  corre : p.etapa = .corriendo → tieneReady s pid → EnExec s pid p.biblioteca
  sigue : ∀ p', p.recibir = .ok p' → tieneReady s pid → EnExec s pid p'.biblioteca
  sinNulo : p.recibir ≠ .error .punteroNulo
  conTcb : ∀ tid, ExisteHilo s pid tid → ∃ (i : ℕ) (t : TCB),
    p.biblioteca.getNextTid tid = some i ∧ p.biblioteca.ults[i]? = some t ∧ t.id = tid ∧
      t.state ≠ .free
  sinPerder : p.ida = [] → p.etapa ≠ .iniciando → ∀ (i : ℕ) (t : TCB),
    p.biblioteca.ults[i]? = some t → t.state ≠ .free → ExisteHilo s pid t.id
  unaCorre : p.etapa ≠ .iniciando → ∀ (i : ℕ) (t : TCB), p.biblioteca.ults[i]? = some t →
    (t.state = .running ↔ i = p.biblioteca.currentUlt)
  unLugar : ∀ y, esHiloDe s pid y → ∃! l, y ∈ contenido s l
  unId : ∀ y z, esHiloDe s pid y → identidad s y = identidad s z → y = z

/-- The scheduler knows which ULT runs. -/
theorem Conoce.corre (h : Conoce p c) (ha : Atendido s pid c) (hetapa : p.etapa = .corriendo)
    (hready : tieneReady s pid) : EnExec s pid p.biblioteca := by
  obtain ⟨⟨qs, d, -, henc, hrefleja⟩, -⟩ := h
  cases hrefleja with
  | @corriendo n i _ hi hn =>
      rcases (henc.de_corriendo rfl).2 with hini | hcorre
      · exact absurd hready (ha.iniciando hini).1
      · obtain ⟨y, hexec, hid⟩ := ha.corre i hcorre hready
        exact ⟨y, i, hexec, hid, Biblioteca.hilolayGetTid_de hi hn⟩
  | cediendo h => rcases h with rfl | rfl <;> cases hetapa
  | _ => cases hetapa

theorem Conoce.sinNulo (h : Conoce p c) : p.recibir ≠ .error .punteroNulo := by
  by_cases hetapa : p.etapa = .esperando
  · by_cases hvuelta : p.vuelta = []
    · rw [Proceso.recibir, if_pos hetapa, hvuelta]
      exact fun h => by cases h
    · obtain ⟨n, i, t, -, -, -, -, -, hrecibir⟩ := h.recibir_ok hetapa hvuelta
      rw [hrecibir]
      exact fun h => by cases h
  · rw [Proceso.recibir, if_neg hetapa]
    exact fun h => by cases h

theorem Conoce.sigue (h : Conoce p c) (ha : Atendido s pid c) (hrecibir : p.recibir = .ok p')
    (hready : tieneReady s pid) : EnExec s pid p'.biblioteca := by
  obtain ⟨hetapa, hvuelta⟩ := recibir_espera hrecibir
  obtain ⟨n, i, t, hi, hn, ht, -, rfl, hok⟩ := h.recibir_ok hetapa hvuelta
  obtain ⟨y, hexec, hid⟩ := ha.corre t rfl hready
  rw [← Except.ok.inj (hok.symm.trans hrecibir)]
  exact ⟨y, t, hexec, hid, Biblioteca.hilolayGetTid_de ht hn⟩

theorem Refina.acuerdo {c : Conectados E} (h : Refina x c) (hp : x.procesos pid = some p) :
    Acuerdo x.estado pid p := by
  obtain ⟨cl, hcl, hconoce⟩ := h.cliente hp
  have hatendido := h.atendidos.cliente pid cl hcl
  rw [h.estado]
  refine
    { corre := hconoce.corre hatendido
      sigue := fun p' hrecibir => hconoce.sigue hatendido hrecibir
      sinNulo := hconoce.sinNulo
      conTcb := fun tid hexiste => ?_
      sinPerder := fun hida hetapa i t hi hfree => ?_
      unaCorre := fun hetapa i t hi => ?_
      unLugar := fun y hy => ?_
      unId := fun y z hy hid => ?_ }
  · obtain ⟨hini, hcero, hlt⟩ := (h.censados.ids pid cl hcl tid).1 hexiste
    obtain ⟨n, i, -, hn, hbiblioteca, hnext⟩ := hconoce.biblioteca hini
    obtain ⟨k, rfl⟩ := Int.eq_ofNat_of_zero_le hcero
    have hk : k < n := Int.ofNat_lt.1 (lt_of_lt_of_le hlt hnext)
    rw [hbiblioteca]
    refine ⟨k, Biblioteca.tcb n i k, Biblioteca.getNextTid_de hk hn, ?_, ?_, ?_⟩
    · rw [Biblioteca.getElem?_ults_de, if_pos (by omega)]
    · rw [Biblioteca.tcb]
      split_ifs <;> rfl
    · rw [Biblioteca.tcb]
      split_ifs <;> simp
  · obtain ⟨hini, n, j, hj, hbiblioteca, hnext⟩ := hconoce.alDia hida hetapa
    rw [hbiblioteca] at hi
    obtain ⟨hlt, hid⟩ := Biblioteca.creado_of_ne_free hj hi hfree
    rw [hid]
    exact (h.censados.ids pid cl hcl _).2 ⟨hini, Int.natCast_nonneg i,
      by rw [hnext]; exact Int.ofNat_lt.2 hlt⟩
  · obtain ⟨⟨qs, d, -, -, hrefleja⟩, -⟩ := hconoce
    cases hrefleja with
    | iniciando => exact absurd rfl hetapa
    | _ => exact Biblioteca.running_iff hi
  · obtain ⟨tid, hid⟩ := hy
    exact h.censados.coherente.particion.existsUnique (mem_registrados.2 (by rw [hid]; simp))
  · obtain ⟨tid, hy⟩ := hy
    exact h.censados.tidUnico y z _ hy (hid ▸ hy)

/-! ## Runs -/

section Runs

variable {cfg : Configuracion} {tr : List (Step (Sistema E) Suceso)}

/-- A program creates a ULT and joins it. The ULT runs, and its routine returns. -/
def ultSale : List Suceso :=
  let m : Momento := ⟨(0, 0), id⟩
  [.conecta 5, .inicia 5, .atiende 5 m, .toma, .admite 10, .llama 5 .create, .atiende 5 m, .toma,
    .admite 10, .llama 5 (.join ⟨1, by decide⟩), .pide 5, .atiende 5 m, .atiende 5 m, .recibe 5,
    .llama 5 .salir, .pide 5, .atiende 5 m, .atiende 5 m, .recibe 5]

theorem run_ultSale : Run (Sistema.Transicion entornoRacional fun _ => 0) (.inicial ⟨2, []⟩)
    (trace (Sistema.paso entornoRacional fun _ => 0) (.inicial ⟨2, []⟩) ultSale)
    (final (Sistema.paso entornoRacional fun _ => 0) (.inicial ⟨2, []⟩) ultSale) :=
  Run.execute _ ultSale (by decide +kernel)

theorem etapa_ultSale : ((final (Sistema.paso entornoRacional fun _ => 0) (.inicial ⟨2, []⟩)
    ultSale).procesos 5).map Proceso.etapa = some .corriendo := by decide +kernel

theorem conexionLimpia_ultSale : ∀ y ∈ trace (Sistema.paso entornoRacional fun _ => 0)
    (.inicial ⟨2, []⟩) ultSale, Sistema.ConexionLimpia y := by
  simp only [ultSale, trace, List.forall_mem_cons, Sistema.ConexionLimpia]
  refine ⟨fun l y hy => ?_, by simp⟩
  rw [show contenido (Sistema.inicial ⟨2, []⟩ : Sistema ℚ).estado l = [] from
    iniciarSUSE_contenido ⟨2, []⟩ l] at hy
  cases hy

/-- Over their connections, the programs and the scheduler do what they do when each request is
handled at the moment of the call. -/
theorem conectados_of_run (hrun : Run (Sistema.Transicion env basura) (.inicial cfg) tr x)
    (hlimpia : ∀ y ∈ tr, Sistema.ConexionLimpia y) :
    ∃ ctr c, Run (Conectados.Transicion env) (.inicial cfg) ctr c ∧
      ctr.map Step.label = tr.filterMap Sistema.mostrado ∧ x.estado = c.estado ∧
        ∀ pid, Option.Rel Conoce (x.procesos pid) (c.clientes pid) := by
  obtain ⟨ctr, c, hcrun, hlabels, hrefina⟩ := refina_of_run hrun hlimpia
  exact ⟨ctr, c, hcrun, hlabels, hrefina.estado, hrefina.conoce⟩

theorem conectados_of_run_ultSale : ∃ ctr c,
    Run (Conectados.Transicion entornoRacional) (.inicial ⟨2, []⟩) ctr c ∧
      ctr.map Step.label = (trace (Sistema.paso entornoRacional fun _ => 0) (.inicial ⟨2, []⟩)
        ultSale).filterMap Sistema.mostrado ∧
      (final (Sistema.paso entornoRacional fun _ => 0) (.inicial ⟨2, []⟩) ultSale).estado =
        c.estado ∧
      ∀ pid, Option.Rel Conoce ((final (Sistema.paso entornoRacional fun _ => 0)
        (.inicial ⟨2, []⟩) ultSale).procesos pid) (c.clientes pid) :=
  conectados_of_run run_ultSale conexionLimpia_ultSale

/-- The library of every program agrees with the scheduler. -/
theorem acuerdo_of_run (hrun : Run (Sistema.Transicion env basura) (.inicial cfg) tr x)
    (hlimpia : ∀ y ∈ tr, Sistema.ConexionLimpia y) (hp : x.procesos pid = some p) :
    Acuerdo x.estado pid p := by
  obtain ⟨-, c, -, -, hrefina⟩ := refina_of_run hrun hlimpia
  exact hrefina.acuerdo hp

theorem acuerdo_of_run_ultSale : ∃ p, (final (Sistema.paso entornoRacional fun _ => 0)
    (.inicial ⟨2, []⟩) ultSale).procesos 5 = some p ∧
      Acuerdo (final (Sistema.paso entornoRacional fun _ => 0) (.inicial ⟨2, []⟩) ultSale).estado
        5 p := by
  obtain ⟨p, hp, -⟩ := Option.map_eq_some_iff.1 etapa_ultSale
  exact ⟨p, hp, acuerdo_of_run run_ultSale conexionLimpia_ultSale hp⟩

end Runs

end Hilolay
