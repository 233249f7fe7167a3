import Linuse.Sac.Borrado
import Linuse.Sac.Cerrojos

/-!
# Paths that do not resolve

An operation on a path that does not resolve, or whose directory does not, should
return an error and leave the memory as it was. Reads, truncations, recursive
removals and creations do (`errorIntacto_iff`). A rename does when its old path does
not resolve. `o_unlink` and `o_write` go on with node -2 of the table: the first
leaves the memory as it was when that node has nothing to release, the second when
its loop leaves with an error after writing only what was there.
-/

namespace Sac

open Memory Locks Locks.Code

variable {m : Montaje} {s s' : Estado} {basura : ℕ → UInt8}

/-- The directory of the path does not resolve. -/
def SinDirectorio (m : Montaje) (s : Estado) (path : Ruta) : Prop :=
  ∃ partes, dividirRuta path.cola = some partes ∧ nodoDe m s partes.1 = -1

namespace Peticion

/-- The request names a path that does not resolve, or a place in a directory that
does not resolve. -/
def Fallida (m : Montaje) (s : Estado) : Peticion → Prop
  | create _ path => SinDirectorio m s path
  | mkdir path => SinDirectorio m s path
  | rename pathAntiguo nuevoPath =>
      nodoDe m s pathAntiguo.cola = -1 ∨ SinDirectorio m s nuevoPath
  | read path _ _ => nodoDe m s path.cola = -1
  | write _ path _ _ => nodoDe m s path.cola = -1
  | truncate path _ => nodoDe m s path.cola = -1
  | unlink path => nodoDe m s path.cola = -1
  | rmdir path => nodoDe m s path.cola = -1
  | readDir _ => False
  | getAttr _ _ => False

/-- The result is an error, a negative number for reads and writes. -/
def EsError : Peticion → Producto → Prop
  | write _ _ _ _, .resultado res => res < 0
  | read _ _ _, .leido res _ => res < 0
  | _, .resultado res => res ≠ 0
  | _, _ => False

end Peticion

/-- The operation returns an error and leaves the memory as it was. -/
def ErrorIntacto (m : Montaje) (basura : ℕ → UInt8) (p : Peticion) (s : Estado) : Prop :=
  ∃ fuel producto s', eval (p.codigo m basura fuel) s = some (producto, s') ∧
    p.EsError producto ∧ s'.mem = s.mem

/-! ## Operations that check -/

theorem eval_oRmdir_sinNodo {fuel : ℕ} {path : Ruta} (h : nodoDe m s path.cola = -1) :
    eval (oRmdir m fuel path) s = some (-1, s) := by
  simp [oRmdir, h]

theorem eval_oRmdir2_sinNodo {path : Ruta} (h : nodoDe m s path.cola = -1) :
    eval (oRmdir2 m path) s = some (-1, s) := by
  simp [oRmdir2, h]

theorem eval_oTruncate_sinNodo {fuel : ℕ} {path : Ruta} {n : ℤ}
    (h : nodoDe m s path.cola = -1) : eval (oTruncate m fuel path n) s = some (-1, s) := by
  rw [oTruncate]
  split_ifs
  · rfl
  · simp [h]

theorem eval_oRead_sinNodo {path : Ruta} {size offset : ℤ} (h : nodoDe m s path.cola = -1) :
    eval (oRead m path size offset) s = some ((-1, []), s) := by
  simp [oRead, h]

theorem eval_oRename_sinNodo {pathAntiguo nuevoPath : Ruta}
    (h : nodoDe m s pathAntiguo.cola = -1) :
    eval (oRename m pathAntiguo nuevoPath) s = some (-1, s) := by
  simp [oRename, h]

theorem eval_oNuevo_sinDirectorio {path : Ruta}
    {crear : List UInt8 → ℤ → Estado → Option (ℤ × Estado)} (h : SinDirectorio m s path) :
    eval (oNuevo m path crear) s = some (1, s) := by
  obtain ⟨partes, hpartes, hmadre⟩ := h
  by_cases hnodo : nodoDe m s path.cola = -1
  · simp [oNuevo, hnodo, hpartes, hmadre]
  · simp [oNuevo, hnodo]

/-! ## `o_rename` -/

/-- A rename whose old path resolves returns no error. -/
theorem eval_oRename_ne {pathAntiguo nuevoPath : Ruta} {res : ℤ}
    (h : nodoDe m s pathAntiguo.cola ≠ -1)
    (hr : eval (oRename m pathAntiguo nuevoPath) s = some (res, s')) : res = 0 := by
  rw [oRename, eval_bind, eval_dameNodoDe, Option.bind_some, if_neg h, eval_bind,
    eval_orFail] at hr
  cases hpartes : dividirRuta nuevoPath.cola with
  | none =>
      rw [hpartes] at hr
      cases hr
  | some partes =>
      rw [hpartes] at hr
      simp at hr
      exact hr.1.symm

/-! ## `o_unlink` -/

theorem nadaQueLiberar_congr (h : s'.mem = s.mem) (i : ℤ) :
    NadaQueLiberar m s' i ↔ NadaQueLiberar m s i := by
  have htamanio : s'.tamanio m i = s.tamanio m i := by
    rw [Estado.tamanio, h, Estado.tamanio]
  rw [NadaQueLiberar, NadaQueLiberar, htamanio, sinRestos_congr h]

theorem recorta_oRmdir2 {path : Ruta} {res : ℤ}
    (hr : eval (oRmdir2 m path) s = some (res, s')) : Recorta m s.mem s'.mem := by
  rw [oRmdir2, eval_bind, eval_dameNodoDe, Option.bind_some] at hr
  split_ifs at hr
  · cases hr
    exact .refl m _
  · simp only [eval_bind, eval_lock, Option.bind_some, eval_attempt, borrarSinHijos,
      eval_unlock, eval_pure] at hr
    split_ifs at hr
    · cases hr
      exact .refl m _
    · cases hr
      exact recorta_store_cero s.mem _ fun _ => List.eq_of_mem_singleton

/-- A removal on a path that does not resolve works on node -2. -/
theorem eval_oUnlink_sinNodo {fuel : ℕ} {path : Ruta} (h : nodoDe m s path.cola = -1) :
    eval (oUnlink m fuel path) s =
      (eval (eliminarNodos m fuel (-2) 0 0) { s with delMode := true }).bind fun r =>
        eval (oRmdir2 m path) { r.2 with delMode := false } := by
  simp [oUnlink, enableDeleteMode, disableDeleteMode, h]

theorem errorIntacto_unlink_iff {path : Ruta} (h : nodoDe m s path.cola = -1) :
    ErrorIntacto m basura (.unlink path) s ↔ NadaQueLiberar m s (-2) := by
  obtain ⟨n, s₁, heval₁, -, hrec₁, hiff₁⟩ :=
    eval_eliminarNodos (m := m) (-2) { s with delMode := true } rfl
  have hnada : NadaQueLiberar m { s with delMode := true } (-2) ↔ NadaQueLiberar m s (-2) :=
    nadaQueLiberar_congr (by rfl) _
  constructor
  · rintro ⟨fuel, producto, s', hr, -, hmem⟩
    obtain ⟨res, t, hr, hret⟩ := eval_bind_some hr
    cases hret
    rw [eval_oUnlink_sinNodo h, Option.bind_eq_some_iff] at hr
    obtain ⟨⟨_, s₂⟩, heval₂, hr⟩ := hr
    have heq := eval_unique (fun k => extends_eliminarNodos (m := m) (-2) 0 0 k) heval₂ heval₁
    rw [Prod.mk.injEq] at heq
    obtain ⟨-, rfl⟩ := heq
    have hrec₂ := recorta_oRmdir2 hr
    exact hnada.1 (hiff₁.1 (hrec₁.eq_of_eq hrec₂ hmem).1)
  · intro hlimpio
    have hmem := hiff₁.2 (hnada.2 hlimpio)
    have hnodo : nodoDe m { s₁ with delMode := false } path.cola = -1 :=
      (nodoDe_congr (by exact hmem) _).trans h
    refine ⟨n, .resultado (-1), { s₁ with delMode := false }, ?_, by simp [Peticion.EsError], hmem⟩
    rw [Peticion.codigo, eval_bind, eval_oUnlink_sinNodo h, heval₁, Option.bind_some,
      eval_oRmdir2_sinNodo hnodo]
    rfl

/-! ## `o_write` -/

/-- The iteration asks for a new block. -/
def PideBloque (e : Escritura) : Prop :=
  unsigned (e.tamanioArchivo + espacioEnUltimo e.tamanioArchivo) ≤ unsigned e.off ∧
    e.tamanioArchivo ≠ 0

/-- The block that an iteration finds when it asks for none. -/
def bloqueEscrito (m : Montaje) (s : Estado) (i off : ℤ) : ℤ :=
  m.bloque (s.puntero m (s.indirecto m i (settearPosicion off).1) (settearPosicion off).2)

/-- The loop leaves because there are no free blocks, and every piece that it wrote
before was already at its place and within the size of the file. -/
inductive SaleIntacta (m : Montaje) (s : Estado) (i : ℤ) : Escritura → Prop
  | sinLugar {e : Escritura} : e.tamanio ≠ 0 → PideBloque e → s.bitmapFreeBlocks = 0 →
      SaleIntacta m s i e
  | escrita {e e' : Escritura} : e.tamanio ≠ 0 → ¬ PideBloque e →
      volcar m i (espacioEnUltimo e.tamanioArchivo) (bloqueEscrito m s i e.off) e s = (e', s) →
      SaleIntacta m s i e' → SaleIntacta m s i e

theorem SaleIntacta.eval_bucleWrite {i : ℤ} {e : Escritura} (h : SaleIntacta m s i e)
    (ahora : ℕ) (size : ℤ) :
    ∃ n, bucleWrite m ahora i size n e s = some (-1, s) := by
  induction h with
  | sinLugar htamanio hpide hlibres =>
      refine ⟨1, ?_⟩
      rw [bucleWrite, if_neg htamanio]
      exact (if_pos hpide).trans (if_pos hlibres)
  | escrita htamanio hpide hvolcar _ ih =>
      obtain ⟨n, hn⟩ := ih
      refine ⟨n + 1, ?_⟩
      rw [bucleWrite, if_neg htamanio]
      refine (if_neg hpide).trans ?_
      rw [bloqueEscrito] at hvolcar
      simp only [hvolcar, hn]

theorem errorIntacto_write {ahora : ℕ} {path : Ruta} {offset : ℤ} {buf : List UInt8}
    (h : nodoDe m s path.cola = -1)
    (hsale : SaleIntacta m s (-2)
      ⟨buf.length, s.tamanio m (-2), offset, offset.tmod 4096, buf⟩) :
    ErrorIntacto m basura (.write ahora path offset buf) s := by
  obtain ⟨fuel, hfuel⟩ := hsale.eval_bucleWrite ahora buf.length
  have hi : nodoDe m s path.cola - 1 = -2 := by omega
  refine ⟨fuel, .resultado (-1), s, ?_, by simp [Peticion.EsError], rfl⟩
  simp [Peticion.codigo, oWrite, hi, hfuel]

/-! ## The requests -/

/-- The request checks its paths, or the node that it goes on with shows nothing. -/
def Peticion.Cuida (m : Montaje) (s : Estado) : Peticion → Prop
  | .rename pathAntiguo _ => nodoDe m s pathAntiguo.cola = -1
  | .unlink _ => NadaQueLiberar m s (-2)
  | .write _ _ offset buf => SaleIntacta m s (-2)
      ⟨buf.length, s.tamanio m (-2), offset, offset.tmod 4096, buf⟩
  | _ => True

/-- The request is a write. -/
def Peticion.EsWrite : Peticion → Prop
  | .write _ _ _ _ => True
  | _ => False

theorem Peticion.errorIntacto_of_eval {p : Peticion} (fuel : ℕ) (producto : Producto)
    (heval : eval (p.codigo m basura fuel) s = some (producto, s)) (hp : p.EsError producto) :
    ErrorIntacto m basura p s :=
  ⟨fuel, producto, s, heval, hp, rfl⟩

theorem errorIntacto_rename_iff {pathAntiguo nuevoPath : Ruta} :
    ErrorIntacto m basura (.rename pathAntiguo nuevoPath) s ↔
      nodoDe m s pathAntiguo.cola = -1 := by
  constructor
  · rintro ⟨fuel, producto, s', heval, herror, -⟩
    by_contra hnodo
    obtain ⟨res, t, hr, hret⟩ := eval_bind_some heval
    cases hret
    exact herror (eval_oRename_ne hnodo hr)
  · intro h
    refine Peticion.errorIntacto_of_eval 0 (.resultado (-1)) ?_ (by simp [Peticion.EsError])
    rw [Peticion.codigo, eval_bind, eval_oRename_sinNodo h, Option.bind_some, eval_pure]

/-- A request that fails returns an error and leaves the memory as it was when it
takes care; any other request than a write takes care whenever that is so. -/
theorem errorIntacto_iff (m : Montaje) (basura : ℕ → UInt8) (p : Peticion) (s : Estado)
    (hp : p.Fallida m s) :
    (p.Cuida m s → ErrorIntacto m basura p s) ∧
      (¬ p.EsWrite → ErrorIntacto m basura p s → p.Cuida m s) := by
  cases p with
  | create ahora path =>
      refine ⟨fun _ => ?_, fun _ _ => trivial⟩
      refine Peticion.errorIntacto_of_eval 0 (.resultado 1) ?_ (by simp [Peticion.EsError])
      rw [Peticion.codigo, eval_bind, oCreate, eval_oNuevo_sinDirectorio hp, Option.bind_some,
        eval_pure]
  | mkdir path =>
      refine ⟨fun _ => ?_, fun _ _ => trivial⟩
      refine Peticion.errorIntacto_of_eval 0 (.resultado 1) ?_ (by simp [Peticion.EsError])
      rw [Peticion.codigo, eval_bind, oMkdir, eval_oNuevo_sinDirectorio hp, Option.bind_some,
        eval_pure]
  | rename pathAntiguo nuevoPath =>
      exact ⟨errorIntacto_rename_iff.2, fun _ => errorIntacto_rename_iff.1⟩
  | read path size offset =>
      refine ⟨fun _ => ?_, fun _ _ => trivial⟩
      refine Peticion.errorIntacto_of_eval 0 (.leido (-1) []) ?_ (by simp [Peticion.EsError])
      rw [Peticion.codigo, eval_bind, eval_oRead_sinNodo hp, Option.bind_some, eval_pure]
  | write ahora path offset buf =>
      exact ⟨errorIntacto_write hp, fun hwrite => (hwrite trivial).elim⟩
  | truncate path espacioNuevo =>
      refine ⟨fun _ => ?_, fun _ _ => trivial⟩
      refine Peticion.errorIntacto_of_eval 0 (.resultado (-1)) ?_ (by simp [Peticion.EsError])
      rw [Peticion.codigo, eval_bind, eval_oTruncate_sinNodo hp, Option.bind_some, eval_pure]
  | unlink path =>
      exact ⟨(errorIntacto_unlink_iff hp).2, fun _ => (errorIntacto_unlink_iff hp).1⟩
  | rmdir path =>
      refine ⟨fun _ => ?_, fun _ _ => trivial⟩
      refine Peticion.errorIntacto_of_eval 0 (.resultado (-1)) ?_ (by simp [Peticion.EsError])
      rw [Peticion.codigo, eval_bind, eval_oRmdir_sinNodo hp, Option.bind_some, eval_pure]
  | readDir path => exact hp.elim
  | getAttr ahora path => exact hp.elim

/-- The place `/b/c`, in a directory that does not exist. -/
def rutaBC : Ruta := ⟨[98, 47, 99], by decide⟩

theorem nodoDe_rutaA : nodoDe montajeChico discoConArchivo rutaA.cola = 1 := by decide +kernel

theorem sinNodo_b : nodoDe montajeChico discoConArchivo [98, 47] = -1 :=
  libre_discoConArchivo.nodoDe_eq_neg_one [] [98] rfl (by decide +kernel)

theorem sinDirectorio_rutaBC : SinDirectorio montajeChico discoConArchivo rutaBC :=
  ⟨([98, 47], [99]), by decide, sinNodo_b⟩

/-- The rename of `/a` into a directory that does not exist. -/
def moverA : Peticion := .rename rutaA rutaBC

theorem sinNodo_rutaBC : nodoDe montajeChico discoConArchivo rutaBC.cola = -1 := by
  refine libre_discoConArchivo.nodoDe_eq_neg_one [98, 47] [99] rfl ?_
  rw [sinNodo_b]
  decide +kernel

/-- The rename of what does not exist and a truncation of it fail and leave everything as it was;
the rename into a directory that does not exist does not fail. -/
theorem errorIntacto_iff_moverA :
    ErrorIntacto montajeChico (fun _ => 0) (.rename rutaBC rutaA) discoConArchivo ∧
      ErrorIntacto montajeChico (fun _ => 0) (.truncate rutaBC 5) discoConArchivo ∧
      ¬ ErrorIntacto montajeChico (fun _ => 0) moverA discoConArchivo := by
  have hexiste : nodoDe montajeChico discoConArchivo rutaA.cola ≠ -1 := by
    rw [nodoDe_rutaA]
    decide
  refine ⟨(errorIntacto_iff montajeChico (fun _ => 0) (.rename rutaBC rutaA) discoConArchivo
      (.inl sinNodo_rutaBC)).1 sinNodo_rutaBC,
    (errorIntacto_iff montajeChico (fun _ => 0) (.truncate rutaBC 5) discoConArchivo
      sinNodo_rutaBC).1 trivial, fun h => hexiste ?_⟩
  exact (errorIntacto_iff montajeChico (fun _ => 0) moverA discoConArchivo
    (.inr sinDirectorio_rutaBC)).2 not_false h

theorem errorIntacto_rename_sinDirectorio :
    ¬ ∀ (m : Montaje) (basura : ℕ → UInt8) (p : Peticion) (s : Estado),
      p.Fallida m s → ErrorIntacto m basura p s := by
  intro hclaim
  have herror := hclaim montajeChico (fun _ => 0) moverA discoConArchivo
    (.inr sinDirectorio_rutaBC)
  have hnodo : nodoDe montajeChico discoConArchivo rutaA.cola = -1 :=
    errorIntacto_rename_iff.1 herror
  rw [nodoDe_rutaA] at hnodo
  exact absurd hnodo (by decide)

end Sac
