import Linuse.Hilolay.Acuerdo
import Linuse.Hilolay.Vista
import Linuse.Suse.Terminados

/-!
# ULTs that return

The calls that a program has made and the closes that the scheduler knows of agree (`Cierres`): the
close of a ULT that has returned is in the connection or its thread is in the exit list, and no
other thread is there. Hence a ULT whose routine has returned does not run again
(`salido_of_run`). The induction over a run is done once for what is kept by each `Vista`
(`vista_of_run`).
-/

namespace Hilolay

open Suse Wire Transition Fallible
open Function (update update_self update_of_ne)

variable {E : Type} {env : Entorno E} {basura : ℕ → UInt8} {s s' : Estado E} {pid : Pid}
  {x x' : Sistema E} {c c' : Conectados E} {p p' : Proceso} {tid : Tid} {e : Suceso}
  {ls : List (Tid × Llamada)}

/-! ## Runs that are seen by a program -/

/-- A new connection. -/
theorem conecta_ok (hs : Sistema.Transicion env basura x (.conecta pid) x') :
    Suse.paso env x.estado (.conectar pid) = .ok x'.estado ∧
      x'.procesos pid = some .nuevo := by
  rw [Sistema.Transicion, Sistema.paso] at hs
  split_ifs at hs
  obtain ⟨t, ht, hs⟩ := bind_eq_ok.1 hs
  rw [← pure_eq_ok.1 hs]
  exact ⟨ht, update_self ..⟩

theorem Refina.coherente (h : Refina x c) : Coherente x.estado (registrados x.estado) := by
  rw [h.estado]
  exact h.censados.coherente

/-- What holds of a program when it connects, and is kept by each step that it sees, holds of it in
every run. -/
theorem vista_of_run {cfg : Configuracion} {tr : List (Step (Sistema E) Suceso)}
    (I : Estado E → Pid → Proceso → List (Tid × Llamada) → Prop)
    (P : Step (Sistema E) Suceso → Prop)
    (hnuevo : ∀ (x x' : Sistema E) c pid, Refina x c →
      Sistema.ConexionLimpia ⟨x, .conecta pid, x'⟩ →
      Suse.paso env x.estado (.conectar pid) = .ok x'.estado → I x'.estado pid .nuevo [])
    (hpaso : ∀ (x x' : Sistema E) c c' pid p p' e ls, Refina x c → Refina x' c' → P ⟨x, e, x'⟩ →
      e ≠ .conecta pid → x.procesos pid = some p → x'.procesos pid = some p' →
      Vista env basura pid x.estado p e x'.estado p' → I x.estado pid p ls →
        I x'.estado pid p' (trasLlamar pid ls ⟨x, e, x'⟩))
    (hrun : Run (Sistema.Transicion env basura) (.inicial cfg) tr x)
    (hlimpia : ∀ y ∈ tr, Sistema.ConexionLimpia y) (hP : ∀ y ∈ tr, P y)
    (hp : x.procesos pid = some p) : I x.estado pid p (llamadas pid tr) := by
  suffices h : (∃ c, Refina x c) ∧ ∀ pid p, x.procesos pid = some p →
      I x.estado pid p (llamadas pid tr) from h.2 pid p hp
  refine hrun.invariant_trace_of (fun tr x => (∃ c, Refina x c) ∧ ∀ pid p,
    x.procesos pid = some p → I x.estado pid p (llamadas pid tr))
    (fun _ y => Sistema.ConexionLimpia y ∧ P y) ⟨⟨_, inicial_refina cfg⟩, fun _ _ h => by cases h⟩
    ?_ fun tr₁ y tr₂ heq => ⟨hlimpia y (by rw [heq]; simp), hP y (by rw [heq]; simp)⟩
  rintro tr x e x' - ⟨⟨c, hr⟩, hI⟩ ⟨hlimpia, hP⟩ hs
  have hr' : ∃ c', Refina x' c' := by
    rcases hr.transicion hlimpia hs with ⟨-, hr'⟩ | ⟨-, c', -, -, hr'⟩
    · exact ⟨c, hr'⟩
    · exact ⟨c', hr'⟩
  refine ⟨hr', fun pid p' hp' => ?_⟩
  obtain ⟨c', hr'⟩ := hr'
  rw [llamadas_snoc]
  by_cases he : e = .conecta pid
  · subst he
    obtain ⟨hpaso, hnew⟩ := conecta_ok hs
    obtain rfl : Proceso.nuevo = p' := Option.some.inj (hnew.symm.trans hp')
    rw [trasLlamar_conecta]
    exact hnuevo x x' c pid hr hlimpia hpaso
  · obtain ⟨p, hp, hvista⟩ := vista_of_transicion hr he hs hp'
    exact hpaso x x' c c' pid p p' e _ hr hr' hP he hp hp' hvista (hI pid p hp)

/-! ## The threads of a program -/

theorem not_enCamino_nuevo {q : Pedido} : ¬ EnCamino .nuevo q := by
  have hcabe : ∀ r ∈ ([] : List Pedido), r.Cabe := by simp
  rw [enCamino_iff hcabe rfl]
  simp

/-- A program that connects has no threads. -/
theorem not_termino_conecta (hr : Refina x c)
    (hlimpia : Sistema.ConexionLimpia ⟨x, .conecta pid, x'⟩)
    (hs : Suse.paso env x.estado (.conectar pid) = .ok x'.estado) :
    ¬ Termino x'.estado pid tid := by
  intro h
  rcases termino_antes hr.coherente hs h with h | ⟨ahora, he⟩
  · obtain ⟨y, hy, hid⟩ := termino_iff.1 h
    exact hlimpia (.exit pid) y hy ⟨tid, hid⟩
  · cases he

/-- The threads in the exit list stay there while the program is connected. -/
theorem Vista.termino {cl : Cliente} (h : Vista env basura pid x.estado p e x'.estado p')
    (hconoce : Conoce p cl) (hr : Refina x c) (hr' : Refina x' c')
    (htermino : Termino x.estado pid tid) : Termino x'.estado pid tid := by
  rcases h.evento hconoce with hs | ⟨e', hpaso, hdesc, -⟩
  · rwa [hs]
  · exact termino_paso hr.coherente hr'.coherente hpaso hdesc htermino

/-- A close that the scheduler reads is of the ULT that runs for it. -/
theorem Refina.termino_close {cl : Cliente} {ahora : ℕ} (hr : Refina x c)
    (hcl : c.clientes pid = some cl) (hcorre : cl.corre tid)
    (hs : Suse.paso env x.estado (.close pid tid ahora) = .ok s') : Termino s' pid tid := by
  rw [hr.estado] at hs
  exact Suse.termino_close hr.atendidos hr.censados.coherente hcl hcorre hs

/-- The thread of the ULT that runs is in `exec`, or waits to be admitted. -/
theorem Refina.enExec {l : Lugar} {y : Puntero} (hr : Refina x c) (hp : x.procesos pid = some p)
    (hetapa : p.etapa = .corriendo) (hget : p.biblioteca.hilolayGetTid = some tid)
    (hy : y ∈ contenido x.estado l) (hid : identidad x.estado y = some (pid, tid)) :
    l = .exec pid ∨ l.fase = .nuevo := by
  obtain ⟨cl, hcl, hconoce⟩ := hr.cliente hp
  have hatendido := hr.atendidos.cliente pid cl hcl
  rw [hr.estado] at hy hid
  by_cases hready : tieneReady c.estado pid
  · obtain ⟨z, tid', hexec, hid', hget'⟩ := hconoce.corre hatendido hetapa hready
    obtain rfl : tid = tid' := Option.some.inj (hget.symm.trans hget')
    obtain rfl := hr.censados.tidUnico y z _ hid hid'
    exact .inl (hr.censados.coherente.particion.unique y l (.exec pid) hy (by rw [hexec]; simp))
  · exact .inr (hatendido.sinAdmitir hready l y hy ⟨tid, hid⟩)

/-! ## Closes -/

/-- The close of each ULT that has returned is in the connection, or the scheduler has handled it;
and there are no others, until the program ends. -/
structure Cierres (s : Estado E) (pid : Pid) (p : Proceso) (ls : List (Tid × Llamada)) : Prop where
  enviado : ∀ tid, (tid, .salir) ∈ ls → Termino s pid tid ∨ EnCamino p (.close tid)
  llamado : ∀ tid, Termino s pid tid ∨ EnCamino p (.close tid) →
    (tid, .salir) ∈ ls ∨ p.etapa = .terminado

theorem Cierres.nuevo (hr : Refina x c) (hlimpia : Sistema.ConexionLimpia ⟨x, .conecta pid, x'⟩)
    (hs : Suse.paso env x.estado (.conectar pid) = .ok x'.estado) :
    Cierres x'.estado pid .nuevo [] where
  enviado _ h := by cases h
  llamado _ h := (h.elim (not_termino_conecta hr hlimpia hs) not_enCamino_nuevo).elim

theorem Cierres.paso (h : Cierres x.estado pid p ls) (hr : Refina x c) (hr' : Refina x' c')
    (he : e ≠ .conecta pid) (hp : x.procesos pid = some p)
    (hv : Vista env basura pid x.estado p e x'.estado p') :
    Cierres x'.estado pid p' (trasLlamar pid ls ⟨x, e, x'⟩) := by
  obtain ⟨cl, hcl, hconoce⟩ := hr.cliente hp
  have hterminado : ∀ tid, (tid, .salir) ∈ ls ∨ p.etapa = .terminado →
      (tid, .salir) ∈ trasLlamar pid ls ⟨x, e, x'⟩ ∨ p'.etapa = .terminado := by
    intro tid hantes
    exact hantes.imp (fun h => (mem_trasLlamar hp he).2 (.inl h)) hv.terminado
  refine { enviado := fun tid hmem => ?_, llamado := fun tid hcierre => ?_ }
  · rcases (mem_trasLlamar hp he).1 hmem with hmem | ⟨rfl, hget⟩
    · rcases h.enviado tid hmem with htermino | hcamino
      · exact .inl (hv.termino hconoce hr hr' htermino)
      · rcases hv.sigue hconoce hcamino with hcamino | ⟨m, ida, -, -, hadm, hpaso⟩
        · exact .inr hcamino
        · exact .inl (hr.termino_close hcl hadm hpaso)
    · -- the routine of the ULT returns in this step
      obtain ⟨tid', hetapa, hget', hida, -⟩ := llamar_ok hv.llamada
      obtain rfl : tid = tid' := Option.some.inj (hget.symm.trans hget')
      have hcabe := hconoce.cabe_pedido (l := .salir) hetapa hget rfl
      exact .inr ((hconoce.enCamino_envia hcabe hida).2 (.inr rfl))
  · rcases hcierre with htermino | hcamino
    · rcases hv.evento hconoce with hs | ⟨e', hpaso, -, hclose⟩
      · rw [hs] at htermino
        exact hterminado tid (h.llamado tid (.inl htermino))
      · rcases termino_antes hr.coherente hpaso htermino with htermino | ⟨ahora, he'⟩
        · exact hterminado tid (h.llamado tid (.inl htermino))
        · exact hterminado tid (h.llamado tid (.inr (hclose tid ahora he').1))
    · rcases hv.viene hconoce hcamino (by simp) (by simp) with
        hcamino | ⟨l, tid', rfl, hllamar, hget, hpedido⟩
      · exact hterminado tid (h.llamado tid (.inr hcamino))
      · obtain ⟨-, -, -, -, hsigue⟩ := llamar_ok hllamar
        cases l with
        | create =>
            rw [Llamada.pedido, Option.map_eq_some_iff] at hpedido
            obtain ⟨nuevo, -, hnuevo⟩ := hpedido
            cases hnuevo
        | salir =>
            cases hpedido
            exact .inl ((mem_trasLlamar hp he).2 (.inr ⟨rfl, hget⟩))
        | retornar => exact .inr ((hsigue (by simp)).2.trans (if_pos rfl))
        | _ => cases hpedido

/-! ## Runs -/

section Runs

variable {cfg : Configuracion} {tr : List (Step (Sistema E) Suceso)}

theorem cierres_of_run (hrun : Run (Sistema.Transicion env basura) (.inicial cfg) tr x)
    (hlimpia : ∀ y ∈ tr, Sistema.ConexionLimpia y) (hp : x.procesos pid = some p) :
    Cierres x.estado pid p (llamadas pid tr) :=
  vista_of_run Cierres (fun _ => True) (fun _ _ _ _ hr hlimpia hs => .nuevo hr hlimpia hs)
    (fun _ _ _ _ _ _ _ _ _ hr hr' _ he hp _ hv h => h.paso hr hr' he hp hv) hrun hlimpia
    (fun _ _ => trivial) hp

/-- A ULT whose routine has returned does not run again. -/
theorem salido_of_run (hrun : Run (Sistema.Transicion env basura) (.inicial cfg) tr x)
    (hlimpia : ∀ y ∈ tr, Sistema.ConexionLimpia y) (hsalido : tid ∈ salidos pid tr)
    (hp : x.procesos pid = some p) (hcorre : p.etapa = .corriendo) :
    p.biblioteca.hilolayGetTid ≠ some tid := by
  intro hget
  obtain ⟨-, c, -, -, hr⟩ := refina_of_run hrun hlimpia
  obtain ⟨cl, -, hconoce⟩ := hr.cliente hp
  rw [mem_salidos] at hsalido
  rcases (cierres_of_run hrun hlimpia hp).enviado tid hsalido with htermino | hcamino
  · obtain ⟨y, hy, hid⟩ := termino_iff.1 htermino
    rcases hr.enExec hp hcorre hget hy hid with hlugar | hfase
    · cases hlugar
    · cases hfase
  · obtain ⟨nuevo, hnuevo⟩ := hconoce.create_of_enCamino hcorre hcamino
    cases hnuevo

theorem salido_of_run_ultSale : ∃ p, (final (Sistema.paso entornoRacional fun _ => 0)
    (.inicial ⟨2, []⟩) ultSale).procesos 5 = some p ∧ p.biblioteca.hilolayGetTid ≠ some 1 := by
  obtain ⟨p, hp, hetapa⟩ := Option.map_eq_some_iff.1 etapa_ultSale
  exact ⟨p, hp, salido_of_run run_ultSale conexionLimpia_ultSale (by decide +kernel) hp hetapa⟩

end Runs

end Hilolay
