import Linuse.Sac.Campos
import Linuse.Sac.Peticiones

/-!
# Lock sections

Every operation but `o_truncate` takes `superLockeador` only when it does not own
it, and owns it no more when it returns; `o_truncate` does so only when it returns
before its section, since it takes the lock again where it should release it
(`balanced_iff`).
-/

namespace Sac

open Memory Locks Locks.Prog Locks.Code

/-- The code takes the lock only when it owns nothing: from `held` it goes on to
`post`. -/
abbrev Ordenado {α : Type} (held post : List Modo) (p : Codigo α) : Prop :=
  Prog.Ordered (fun _ => 0) (fun _ _ => True) post held p

section Ordenado

variable (m : Montaje) {held : List Modo}

theorem ordenado_buscarEnPadre (anterior : ℤ) (nombre : List UInt8) :
    Ordenado [] [] (buscarEnPadre m anterior nombre) := by
  apply ordered_bind (ordered_lock (by simp))
  intro _
  apply ordered_bind (ordered_read _)
  intro i
  exact ordered_bind (ordered_unlock (by simp)) fun _ => ordered_pure

theorem ordenado_dameNodoDeHasta (n : ℕ) (cola : List UInt8) :
    Ordenado [] [] (dameNodoDeHasta m n cola) := by
  induction n generalizing cola with
  | zero =>
      cases cola with
      | nil => exact ordered_pure
      | cons b cola => trivial
  | succ n ih =>
      cases cola with
      | nil => exact ordered_pure
      | cons b cola =>
          apply ordered_bind (ordered_orFail _)
          intro partes
          apply ordered_bind (ih partes.1)
          intro anterior
          exact ordenado_buscarEnPadre m anterior partes.2

theorem ordenado_dameNodoDe (cola : List UInt8) : Ordenado [] [] (dameNodoDe m cola) :=
  ordenado_dameNodoDeHasta m cola.length cola

theorem ordenado_borrarDatos (aux hasta : ℤ) (n : ℕ) (dataPos : ℤ) :
    Ordenado held held (borrarDatos m aux hasta n dataPos) := by
  induction n generalizing dataPos with
  | zero => trivial
  | succ n ih =>
      apply ordered_bind (ordered_read _)
      intro modo
      apply ordered_ite
      · exact fun _ => ordered_pure
      · intro _
        apply ordered_bind (ordered_read _)
        intro nodo
        apply ordered_bind (ordered_modify _)
        intro _
        exact ordered_bind (ordered_modify _) fun _ => ih _

theorem ordenado_borrarPunteros (i pointerUpto dataUpto : ℤ) (n : ℕ) (pointerPos dataPos : ℤ) :
    Ordenado held held (borrarPunteros m i pointerUpto dataUpto n pointerPos dataPos) := by
  induction n generalizing pointerPos dataPos with
  | zero => trivial
  | succ n ih =>
      apply ordered_bind (ordered_read _)
      intro modo
      apply ordered_ite
      · exact fun _ => ordered_pure
      intro _
      apply ordered_ite
      · exact fun _ => ordered_pure
      intro _
      apply ordered_bind (ordered_read _)
      intro aux
      apply ordered_bind (ordenado_borrarDatos m _ _ _ _)
      intro dataPos
      apply ordered_bind (ordered_read _)
      intro modo
      apply ordered_ite
      · exact fun _ => ih _ _
      · intro _
        apply ordered_bind (ordered_modify _)
        intro _
        exact ordered_bind (ordered_modify _) fun _ => ih _ _

/-- `eliminarNodos` does not use the lock. -/
theorem ordenado_eliminarNodos (fuel : ℕ) (i pointerUpto dataUpto : ℤ) :
    Ordenado held held (eliminarNodos m fuel i pointerUpto dataUpto) := by
  apply ordered_bind (ordered_read _)
  intro fileSize
  apply ordered_ite
  · intro _
    exact ordered_bind (ordered_modify _) fun _ => ordenado_borrarPunteros m _ _ _ _ _ _
  · exact fun _ => ordenado_borrarPunteros m _ _ _ _ _ _

theorem ordenado_eliminarArchivo (fuel i : ℕ) : Ordenado [] [] (eliminarArchivo m fuel i) := by
  apply ordered_bind (ordered_modify _)
  intro _
  apply ordered_bind (ordered_lock (by simp))
  intro _
  apply ordered_bind (ordenado_eliminarNodos m _ _ _ _)
  intro _
  apply ordered_bind (ordered_modify _)
  intro _
  apply ordered_bind (ordered_modify _)
  intro _
  exact ordered_unlock (by simp)

theorem ordenado_eliminarHijo {recursion : ℤ → Codigo Unit}
    (h : ∀ miNodo, Ordenado [] [] (recursion miNodo)) (fuel : ℕ) (miNodo : ℤ) (i : ℕ) :
    Ordenado [] [] (eliminarHijo m recursion fuel miNodo i) := by
  have hcarpeta : Ordenado [] [] (eliminarCarpeta m recursion i) := by
    apply ordered_bind (h _)
    intro _
    apply ordered_bind (ordered_lock (by simp))
    intro _
    exact ordered_bind (ordered_modify _) fun _ => ordered_unlock (by simp)
  have hresto : Ordenado [] [] (do
      let carpeta ← Code.read fun s => decide (s.estado m i = directorio)
      if carpeta then eliminarCarpeta m recursion i) := by
    apply ordered_bind (ordered_read _)
    intro carpeta
    exact ordered_ite (fun _ => hcarpeta) fun _ => ordered_pure
  apply ordered_bind (ordered_read _)
  intro hijo
  apply ordered_ite
  · intro _
    apply ordered_bind (ordered_read _)
    intro archivo
    apply ordered_ite
    · exact fun _ => ordered_bind (ordenado_eliminarArchivo m fuel i) fun _ => hresto
    · exact fun _ => hresto
  · exact fun _ => ordered_pure

theorem ordenado_eliminarRecursivamente (fuel : ℕ) (miNodo : ℤ) :
    Ordenado [] [] (eliminarRecursivamente m fuel miNodo) := by
  induction fuel generalizing miNodo with
  | zero => trivial
  | succ fuel ih =>
      rw [eliminarRecursivamente_succ]
      generalize List.range cantidadNodos = hijos
      exact ordered_forEach hijos fun i => ordenado_eliminarHijo m ih fuel miNodo i

/-- A section that only reads or changes data, and what comes after it. -/
theorem ordenado_guardado {α β : Type} (modo : Modo) {p : Codigo α} {f : α → Codigo β}
    (hp : Ordenado [modo] [modo] p) (hf : ∀ a, Ordenado [] [] (f a)) :
    Ordenado [] [] (do lock modo; let a ← p; unlock modo; f a) := by
  apply ordered_bind (ordered_lock (by simp))
  intro _
  apply ordered_bind hp
  intro a
  exact ordered_bind (by simpa using ordered_unlock (List.mem_singleton_self modo)) fun _ => hf a

theorem ordenado_oRmdir (fuel : ℕ) (path : Ruta) : Ordenado [] [] (oRmdir m fuel path) := by
  apply ordered_bind (ordenado_dameNodoDe m _)
  intro miNodo
  apply ordered_ite
  · exact fun _ => ordered_pure
  · intro _
    apply ordered_bind (ordenado_eliminarRecursivamente m fuel _)
    intro _
    exact ordenado_guardado _ (ordered_modify _) fun _ => ordered_pure

theorem ordenado_oRmdir2 (path : Ruta) : Ordenado [] [] (oRmdir2 m path) := by
  apply ordered_bind (ordenado_dameNodoDe m _)
  intro miNodo
  apply ordered_ite
  · exact fun _ => ordered_pure
  · exact fun _ => ordenado_guardado _ (ordered_attempt _) fun _ => ordered_pure

theorem ordenado_oUnlink (fuel : ℕ) (path : Ruta) : Ordenado [] [] (oUnlink m fuel path) := by
  apply ordered_bind (ordenado_dameNodoDe m _)
  intro node
  apply ordered_bind (ordered_modify _)
  intro _
  apply ordenado_guardado _ (ordenado_eliminarNodos m _ _ _ _)
  intro _
  exact ordered_bind (ordered_modify _) fun _ => ordenado_oRmdir2 m path

theorem ordenado_oRename (pathAntiguo nuevoPath : Ruta) :
    Ordenado [] [] (oRename m pathAntiguo nuevoPath) := by
  apply ordered_bind (ordenado_dameNodoDe m _)
  intro existe
  apply ordered_ite
  · exact fun _ => ordered_pure
  · intro _
    apply ordered_bind (ordered_orFail _)
    intro partes
    apply ordered_bind (ordenado_dameNodoDe m _)
    intro oldNode
    apply ordered_bind (ordenado_dameNodoDe m _)
    intro nuevoNodoPadre
    exact ordenado_guardado _ (ordered_modify _) fun _ => ordered_pure

theorem ordenado_oNuevo (path : Ruta)
    (crear : List UInt8 → ℤ → Estado → Option (ℤ × Estado)) :
    Ordenado [] [] (oNuevo m path crear) := by
  apply ordered_bind (ordenado_dameNodoDe m _)
  intro existe
  apply ordered_ite
  · exact fun _ => ordered_pure
  · intro _
    apply ordered_bind (ordered_orFail _)
    intro partes
    apply ordered_bind (ordenado_dameNodoDe m _)
    intro miNodo
    apply ordered_ite
    · exact fun _ => ordered_pure
    · exact fun _ => ordenado_guardado _ (ordered_attempt _) fun _ => ordered_pure

theorem ordenado_oRead (path : Ruta) (size offset : ℤ) :
    Ordenado [] [] (oRead m path size offset) := by
  apply ordered_bind (ordenado_dameNodoDe m _)
  intro nodo
  apply ordered_ite
  · exact fun _ => ordered_pure
  · exact fun _ => ordenado_guardado _ (ordered_read _) fun _ => ordered_pure

theorem ordenado_oWrite (fuel ahora : ℕ) (path : Ruta) (offset : ℤ) (buf : List UInt8) :
    Ordenado [] [] (oWrite m fuel ahora path offset buf) := by
  apply ordered_bind (ordenado_dameNodoDe m _)
  intro nodo
  apply ordered_bind (ordered_read _)
  intro tamanioArchivo
  exact ordenado_guardado _ (ordered_attempt _) fun _ => ordered_pure

theorem ordenado_enviar (buffer : Option (List UInt8)) : Ordenado [] [] (enviar buffer) := by
  apply ordered_bind (ordered_orFail buffer)
  exact fun _ => ordered_pure

theorem ordenado_oReadDir (basura : ℕ → UInt8) (path : Ruta) :
    Ordenado [] [] (oReadDir m basura path) := by
  have herror : ∀ nodo, Ordenado [] [] (avisarError basura nodo) :=
    fun nodo => ordered_ite (fun _ => ordenado_enviar _) fun _ => ordered_pure
  apply ordered_bind (ordenado_dameNodoDe m _)
  intro nodo
  apply ordered_bind (herror nodo)
  intro error
  apply ordenado_guardado _ (ordered_read _)
  intro texto
  apply ordered_bind (ordenado_enviar _)
  exact fun _ => ordered_pure

theorem ordenado_oGetAttr (basura : ℕ → UInt8) (ahora : ℕ) (path : Ruta) :
    Ordenado [] [] (oGetAttr m basura ahora path) := by
  rw [oGetAttr]
  generalize bufferError basura = sinNodo
  generalize bufferRaiz basura = raiz
  generalize bufferAtributos basura = conAtributos
  apply ordered_bind (ordenado_dameNodoDe m _)
  intro nodo
  apply ordered_ite
  · exact fun _ => ordenado_enviar sinNodo
  intro _
  apply ordered_ite
  · exact fun _ => ordenado_enviar raiz
  · intro _
    apply ordenado_guardado _ (ordered_read _)
    exact fun a => ordenado_enviar (conAtributos a)

/-- Every operation but `o_truncate` is ordered. -/
theorem ordenado_codigo (basura : ℕ → UInt8) (fuel : ℕ) {p : Peticion}
    (hp : ∀ path n, p ≠ .truncate path n) : Ordenado [] [] (p.codigo m basura fuel) := by
  cases p with
  | create ahora path => exact ordered_bind (ordenado_oNuevo m _ _) fun _ => ordered_pure
  | read path size offset => exact ordered_bind (ordenado_oRead m _ _ _) fun _ => ordered_pure
  | readDir path => exact ordered_bind (ordenado_oReadDir m _ _) fun _ => ordered_pure
  | getAttr ahora path => exact ordered_bind (ordenado_oGetAttr m _ _ _) fun _ => ordered_pure
  | mkdir path => exact ordered_bind (ordenado_oNuevo m _ _) fun _ => ordered_pure
  | unlink path => exact ordered_bind (ordenado_oUnlink m _ _) fun _ => ordered_pure
  | rmdir path => exact ordered_bind (ordenado_oRmdir m _ _) fun _ => ordered_pure
  | write ahora path offset buf =>
      exact ordered_bind (ordenado_oWrite m _ _ _ _ _) fun _ => ordered_pure
  | truncate path espacioNuevo => exact absurd rfl (hp path espacioNuevo)
  | rename pathAntiguo nuevoPath =>
      exact ordered_bind (ordenado_oRename m _ _) fun _ => ordered_pure

end Ordenado

section Truncate

variable (m : Montaje) {fuel : ℕ} {path : Ruta} {n : ℤ} {s : Estado} {r : ℤ × Estado}

theorem ordenado_cambiarTamanio {held : List Modo} (i : ℤ) :
    Ordenado held held (cambiarTamanio m fuel i n) := by
  apply ordered_bind (ordered_read _)
  intro tamanio
  apply ordered_ite
  · intro _
    apply ordered_bind (ordered_attempt _)
    intro res
    apply ordered_ite
    · exact fun _ => ordered_pure
    · exact fun _ => ordered_bind (ordered_modify _) fun _ => ordered_pure
  · intro _
    apply ordered_bind (ordenado_eliminarNodos m _ _ _ _)
    exact fun _ => ordered_bind (ordered_modify _) fun _ => ordered_pure

theorem balanced_truncate_of_lt (hn : n < 0) :
    LockBalanced (trace (oTruncate m fuel path n) s) := by
  rw [oTruncate, if_pos hn]
  rfl

theorem balanced_truncate_of_nodoDe (hnodo : nodoDe m s path.cola = -1) :
    LockBalanced (trace (oTruncate m fuel path n) s) := by
  rcases lt_or_ge n 0 with hn | hn
  · exact balanced_truncate_of_lt m hn
  · rw [oTruncate, if_neg (not_lt.2 hn), LockBalanced,
      follow_trace_bind (ordenado_dameNodoDe m _) (eval_dameNodoDe m s path.cola), if_pos hnodo]
    rfl

/-- On a path that resolves, `o_truncate` takes the lock a second time. -/
theorem not_balanced_truncate (hn : 0 ≤ n) (hnodo : nodoDe m s path.cola ≠ -1)
    (hr : eval (oTruncate m fuel path n) s = some r) :
    ¬ LockBalanced (trace (oTruncate m fuel path n) s) := by
  rw [oTruncate, if_neg (not_lt.2 hn)] at hr ⊢
  rw [eval_bind, eval_dameNodoDe, Option.bind_some, if_neg hnodo, eval_bind, eval_lock,
    Option.bind_some] at hr
  obtain ⟨res, t, hres, -⟩ := eval_bind_some hr
  rw [LockBalanced, follow_trace_bind (ordenado_dameNodoDe m _) (eval_dameNodoDe m s path.cola),
    if_neg hnodo, follow_trace_bind (ordered_lock (by simp)) rfl,
    follow_trace_bind (ordenado_cambiarTamanio m _) hres]
  -- The second lock is taken by a thread that owns the first.
  rw [show follow [Modo.escritura] (trace (lock Modo.escritura >>= fun _ => pure res :
    Codigo ℤ) t) = none from if_neg (List.cons_ne_nil _ _)]
  simp

end Truncate

/-- An operation that completes takes `superLockeador` only when it does not own it
and has released it on its return, unless it is an `o_truncate` to a size that is
not negative of a path that resolves. -/
theorem balanced_iff (m : Montaje) (basura : ℕ → UInt8) (fuel : ℕ) (p : Peticion) (s : Estado)
    {r : Producto × Estado} (hr : eval (p.codigo m basura fuel) s = some r) :
    LockBalanced (trace (p.codigo m basura fuel) s) ↔
      ¬ ∃ path n, p = .truncate path n ∧ 0 ≤ n ∧ nodoDe m s path.cola ≠ -1 := by
  by_cases hp : ∃ path n, p = .truncate path n
  · obtain ⟨path, n, rfl⟩ := hp
    have htrace : ∀ t : Producto × Estado, eval ((Peticion.truncate path n).codigo m basura fuel)
        s = some t → trace ((Peticion.truncate path n).codigo m basura fuel) s =
          trace (oTruncate m fuel path n) s := by
      intro t ht
      obtain ⟨res, t', hres, -⟩ := eval_bind_some ht
      exact (trace_bind hres).trans (List.append_nil _)
    obtain ⟨res, t, hres, -⟩ := eval_bind_some hr
    rw [htrace r hr]
    constructor
    · rintro hb ⟨path', n', heq, hn, hnodo⟩
      cases heq
      exact not_balanced_truncate m hn hnodo hres hb
    · intro hno
      by_cases hnodo : nodoDe m s path.cola = -1
      · exact balanced_truncate_of_nodoDe m hnodo
      · exact balanced_truncate_of_lt m (not_le.1 fun hn => hno ⟨path, n, rfl, hn, hnodo⟩)
  · refine iff_of_true (balanced_of_ordered (ordenado_codigo m basura fuel ?_) hr) ?_
    · exact fun path n heq => hp ⟨path, n, heq⟩
    · rintro ⟨path, n, heq, -⟩
      exact hp ⟨path, n, heq⟩

/-- A disk of 1200 blocks whose bitmap takes one block. -/
def montajeChico : Montaje := ⟨1200, 1, .lsbFirst⟩

/-- In a byte of ones every bit is set. -/
theorem testBit_of_unos {s : Estado} {c : ℤ} (h : s.mem (bitmapStart + c / 8) = 255) :
    s.testBit montajeChico c = true := by
  have hunos : ∀ k < 8, montajeChico.bits.test 255 k = true := by decide
  rw [Estado.testBit, h]
  exact hunos _ (by omega)

/-- Node 0 is the empty file `/a`, and there is nothing else. -/
def discoConArchivo : Estado :=
  ⟨store (fun _ => 0) (dirEstado montajeChico 0) [1, 97], 0, false⟩

theorem libre_discoConArchivo : LibreDesde montajeChico discoConArchivo 1 :=
  LibreDesde.conMem_store (s := ⟨fun _ => 0, 0, false⟩) (i := 0) (fun _ _ => rfl) one_pos
    (by decide)

/-- The path `/a`. -/
def rutaA : Ruta := ⟨[97], by decide⟩

/-- The truncation of `/a` to nothing. -/
def vaciarA : Peticion := .truncate rutaA 0

/-- The truncation of `/a` to a negative size. -/
def vaciarMalA : Peticion := .truncate rutaA (-1)

/-- A read of `/a`. -/
def leerA : Peticion := .read rutaA 4 0

theorem completas_leer_vaciar :
    (eval (leerA.codigo montajeChico (fun _ => 0) 2) discoConArchivo).isSome = true ∧
      (eval (vaciarMalA.codigo montajeChico (fun _ => 0) 2) discoConArchivo).isSome = true ∧
      (eval (vaciarA.codigo montajeChico (fun _ => 0) 2) discoConArchivo).isSome = true := by
  decide +kernel

/-- The read and the truncation to a negative size give the lock back; the truncation to
nothing does not. -/
theorem balanced_iff_vaciarA :
    LockBalanced (trace (leerA.codigo montajeChico (fun _ => 0) 2) discoConArchivo) ∧
      LockBalanced (trace (vaciarMalA.codigo montajeChico (fun _ => 0) 2) discoConArchivo) ∧
      ¬ LockBalanced (trace (vaciarA.codigo montajeChico (fun _ => 0) 2) discoConArchivo) := by
  have hbalanced (p : Peticion)
      (hp : (eval (p.codigo montajeChico (fun _ => 0) 2) discoConArchivo).isSome = true) :=
    balanced_iff montajeChico (fun _ => 0) 2 p discoConArchivo (Option.some_get hp).symm
  refine ⟨(hbalanced leerA completas_leer_vaciar.1).2 ?_, (hbalanced _ completas_leer_vaciar.2.1).2 ?_,
    fun h => (hbalanced _ completas_leer_vaciar.2.2).1 h ⟨rutaA, 0, rfl, le_rfl, by decide +kernel⟩⟩
  · rintro ⟨path, n, hleer, -⟩
    cases hleer
  · rintro ⟨path, n, heq, hn, -⟩
    cases heq
    exact absurd hn (by decide)

theorem balanced_truncate_resuelto :
    ¬ ∀ (m : Montaje) (basura : ℕ → UInt8) (fuel : ℕ) (p : Peticion) (s : Estado)
      (r : Producto × Estado), eval (p.codigo m basura fuel) s = some r →
        LockBalanced (trace (p.codigo m basura fuel) s) := by
  intro hclaim
  have hbalanced := hclaim montajeChico (fun _ => 0) 2 vaciarA discoConArchivo _
    (Option.some_get completas_leer_vaciar.2.2).symm
  exact absurd hbalanced (by decide +kernel)

end Sac
