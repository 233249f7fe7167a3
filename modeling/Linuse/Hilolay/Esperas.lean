import Linuse.Hilolay.Cierres

/-!
# ULTs that wait for others

A ULT that has called `join` is with its request in the connection, or in the join list of the
other thread, until that one has closed (`Esperas`). So it does not run again before the routine of
the other ULT has returned (`salido_of_join_of_run`), provided that the scheduler had admitted the
program when it handled the request and that no other program had closed a thread with that id.
-/

namespace Hilolay

open Suse Wire Transition Fallible

variable {E : Type} {env : Entorno E} {basura : ℕ → UInt8} {s s' : Estado E} {pid : Pid}
  {x x' : Sistema E} {c c' : Conectados E} {p p' : Proceso} {tid tidAEsperar : Tid} {e : Suceso}
  {ls : List (Tid × Llamada)}

/-! ## The joins that wait -/

/-- A join of a program that runs for the scheduler, whose search finds threads of its program
only. -/
def JoinSeguro (s : Estado E) (pid : Pid) : Evento → Prop
  | .join pid' tid => pid' = pid →
      contenido s (.exec pid) ≠ [] ∧ (terminoElHilo s tid = true → Termino s pid tid)
  | _ => True

instance (s : Estado E) (pid : Pid) (tid : Tid) : Decidable (Termino s pid tid) :=
  inferInstanceAs (Decidable (_ ∈ _))

instance (s : Estado E) (pid : Pid) : DecidablePred (JoinSeguro s pid) := fun e => by
  cases e <;> dsimp only [JoinSeguro] <;> infer_instance

/-- The joins of the program are of this kind. -/
def JoinsSeguros (pid : Pid) (y : Step (Sistema E) Suceso) : Prop :=
  ∀ e ∈ Sistema.mostrado y, JoinSeguro y.pre.estado pid e

instance (pid : Pid) : DecidablePred (JoinsSeguros pid : Step (Sistema E) Suceso → Prop) :=
  fun _ => inferInstanceAs (Decidable (∀ _ ∈ _, _))

/-- The ULT has not gone on since it called `join`. -/
def Aguarda (s : Estado E) (pid : Pid) (p : Proceso) (tid tidAEsperar : Tid) : Prop :=
  EnCamino p (.join tidAEsperar) ∧ p.biblioteca.hilolayGetTid = some tid ∨
    ∃ y ∈ contenido s (.join pid tidAEsperar), identidad s y = some (pid, tid)

/-- A ULT that has called `join` waits, or the other thread has closed. -/
def Esperas (s : Estado E) (pid : Pid) (p : Proceso) (ls : List (Tid × Llamada)) : Prop :=
  ∀ (tid : Tid) (thread : Entero), (tid, .join thread) ∈ ls →
    Aguarda s pid p tid thread.1 ∨ Termino s pid thread.1

theorem mostrado_atiende {q : Pedido} {m : Momento} {ida : List UInt8}
    (hp : x.procesos pid = some p) (hleer : leerPedido.run p.ida = some (some q, ida)) :
    Sistema.mostrado ⟨x, .atiende pid m, x'⟩ = some (q.evento pid m) := by
  simp [Sistema.mostrado, hp, hleer]

/-- The scheduler handles the join: the thread that called it waits, or the other one has closed. -/
theorem Refina.atiende_join {cl : Cliente} {m : Momento} (hr : Refina x c) (hr' : Refina x' c')
    (hcl : c.clientes pid = some cl) (hconoce : Conoce p cl)
    (hcamino : EnCamino p (.join tidAEsperar)) (hadm : Admite cl (.join tidAEsperar))
    (hget : p.biblioteca.hilolayGetTid = some tid)
    (hseguro : JoinSeguro x.estado pid (.join pid tidAEsperar))
    (hs : Suse.paso env x.estado ((Pedido.join tidAEsperar).evento pid m) = .ok x'.estado) :
    (∃ y ∈ contenido x'.estado (.join pid tidAEsperar),
      identidad x'.estado y = some (pid, tid)) ∨ Termino x'.estado pid tidAEsperar := by
  obtain ⟨hexec, htermino⟩ := hseguro rfl
  obtain ⟨tid', hcorre⟩ : ∃ tid', cl.corre tid' := hadm
  -- the ULT that called is the one that runs for the scheduler
  obtain rfl : tid = tid' := Option.some.inj
    (hget.symm.trans (hconoce.enTurno.corre tid' hcorre (hconoce.vuelta_of_enCamino hcamino)))
  have hready := hr.coherente.execConReady pid hexec
  have hatendido := hr.atendidos.cliente pid cl hcl
  rw [← hr.estado] at hatendido
  obtain ⟨y, hy, hid⟩ := hatendido.corre tid hcorre hready
  rcases realizarJoin_aguarda hr.coherente hy hs with ⟨hfin, heq⟩ | hmem
  · rw [heq]
    exact .inr (htermino hfin)
  · refine .inl ⟨y, hmem, ?_⟩
    rw [identidad_paso (l := .exec pid) hr.coherente hr'.coherente hs (by rw [hy]; simp) hmem, hid]

/-- A thread waits until the other one closes. -/
theorem Vista.join {cl : Cliente} {y : Puntero}
    (hv : Vista env basura pid x.estado p e x'.estado p') (hconoce : Conoce p cl)
    (hcl : c.clientes pid = some cl) (hr : Refina x c) (hr' : Refina x' c')
    (hy : y ∈ contenido x.estado (.join pid tidAEsperar))
    (hid : identidad x.estado y = some (pid, tid)) :
    (∃ y ∈ contenido x'.estado (.join pid tidAEsperar),
      identidad x'.estado y = some (pid, tid)) ∨ Termino x'.estado pid tidAEsperar := by
  rcases hv.evento hconoce with hs | ⟨e', hpaso, hdesc, hclose⟩
  · rw [hs]
    exact .inl ⟨y, hy, hid⟩
  · rcases mem_join_paso hr.coherente hpaso hy with hmem | ⟨ahora, rfl⟩ | he'
    · exact .inl ⟨y, hmem, (identidad_paso hr.coherente hr'.coherente hpaso hy hmem).trans hid⟩
    · exact .inr (hr.termino_close hcl (hclose tidAEsperar ahora rfl).2 hpaso)
    · exact absurd he' hdesc

theorem Esperas.paso (h : Esperas x.estado pid p ls) (hr : Refina x c) (hr' : Refina x' c')
    (hseguros : JoinsSeguros pid ⟨x, e, x'⟩) (he : e ≠ .conecta pid)
    (hp : x.procesos pid = some p) (hv : Vista env basura pid x.estado p e x'.estado p') :
    Esperas x'.estado pid p' (trasLlamar pid ls ⟨x, e, x'⟩) := by
  obtain ⟨cl, hcl, hconoce⟩ := hr.cliente hp
  intro tid thread hmem
  rcases (mem_trasLlamar hp he).1 hmem with hmem | ⟨rfl, hget⟩
  · rcases h tid thread hmem with (⟨hcamino, hget⟩ | ⟨y, hy, hid⟩) | htermino
    · rcases hv.sigue hconoce hcamino with hcamino' | ⟨m, ida, rfl, hleer, hadm, hpaso⟩
      · exact .inl (.inl ⟨hcamino', (hv.hilolayGetTid_eq hconoce hcamino (by simp)).trans hget⟩)
      · have hseguro := hseguros _ (mostrado_atiende hp hleer)
        exact (hr.atiende_join hr' hcl hconoce hcamino hadm hget hseguro hpaso).imp_left .inr
    · exact (hv.join hconoce hcl hr hr' hy hid).imp_left .inr
    · exact .inr (hv.termino hconoce hr hr' htermino)
  · -- the ULT calls `join` in this step
    obtain ⟨tid', hetapa, hget', hida, hsigue⟩ := llamar_ok hv.llamada
    obtain rfl : tid = tid' := Option.some.inj (hget.symm.trans hget')
    have hcabe := hconoce.cabe_pedido (l := .join thread) hetapa hget rfl
    refine .inl (.inl ⟨(hconoce.enCamino_envia hcabe hida).2 (.inr rfl), ?_⟩)
    rw [(hsigue (by simp)).1, hget]

/-! ## Runs -/

section Runs

variable {cfg : Configuracion} {tr : List (Step (Sistema E) Suceso)}

theorem esperas_of_run (hrun : Run (Sistema.Transicion env basura) (.inicial cfg) tr x)
    (hlimpia : ∀ y ∈ tr, Sistema.ConexionLimpia y) (hseguros : ∀ y ∈ tr, JoinsSeguros pid y)
    (hp : x.procesos pid = some p) : Esperas x.estado pid p (llamadas pid tr) := by
  refine vista_of_run (fun s pid' p ls => pid' = pid → Esperas s pid p ls) (JoinsSeguros pid) ?_ ?_
    hrun hlimpia hseguros hp rfl
  · rintro _ _ _ _ _ _ _ rfl _ _ hmem
    cases hmem
  · rintro _ _ _ _ _ _ _ _ _ hr hr' hseguros he hq _ hv h rfl
    exact (h rfl).paso hr hr' hseguros he hq hv

/-- A ULT that has called `join` does not run again before the routine of the other ULT has
returned. -/
theorem salido_of_join_of_run (thread : Entero)
    (hrun : Run (Sistema.Transicion env basura) (.inicial cfg) tr x)
    (hlimpia : ∀ y ∈ tr, Sistema.ConexionLimpia y) (hseguros : ∀ y ∈ tr, JoinsSeguros pid y)
    (hjoin : (tid, .join thread) ∈ llamadas pid tr) (hp : x.procesos pid = some p)
    (hcorre : p.etapa = .corriendo) (hget : p.biblioteca.hilolayGetTid = some tid) :
    thread.1 ∈ salidos pid tr := by
  obtain ⟨-, c, -, -, hr⟩ := refina_of_run hrun hlimpia
  obtain ⟨cl, -, hconoce⟩ := hr.cliente hp
  rcases esperas_of_run hrun hlimpia hseguros hp tid thread hjoin with
    (⟨hcamino, -⟩ | ⟨y, hy, hid⟩) | htermino
  · obtain ⟨nuevo, hnuevo⟩ := hconoce.create_of_enCamino hcorre hcamino
    cases hnuevo
  · rcases hr.enExec hp hcorre hget hy hid with hlugar | hfase
    · cases hlugar
    · cases hfase
  · rcases (cierres_of_run hrun hlimpia hp).llamado _ (.inl htermino) with hsalir | hfin
    · exact (mem_salidos pid tr _).2 hsalir
    · rw [hcorre] at hfin
      cases hfin

theorem salido_of_join_of_run_ultSale : 1 ∈ salidos 5
    (trace (Sistema.paso entornoRacional fun _ => 0) (.inicial ⟨2, []⟩) ultSale) := by
  obtain ⟨p, hp, hetapa⟩ := Option.map_eq_some_iff.1 etapa_ultSale
  have hget : (((final (Sistema.paso entornoRacional fun _ => 0) (.inicial ⟨2, []⟩)
      ultSale).procesos 5).bind fun p => p.biblioteca.hilolayGetTid) = some 0 := by decide +kernel
  rw [hp, Option.bind_some] at hget
  exact salido_of_join_of_run ⟨1, by decide⟩ run_ultSale conexionLimpia_ultSale
    (by decide +kernel) (by decide +kernel) hp hetapa hget

end Runs

end Hilolay
