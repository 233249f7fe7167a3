import Linuse.Wire.Tokens
import Linuse.Sac.Encuadre
import Linuse.Sac.Subarbol

/-!
# Listing a directory

The server joins the names of the children of a directory, with a `;` for every node of the table,
and the client cuts the text at each `;` and drops the empty pieces. The client hands over the
names of the children, in the order of the table, if and only if none of them has a `;`
(`listaBien_iff`).
-/

namespace Sac

open Memory Locks Locks.Code Wire

variable {m : Montaje} {s : Estado} {basura : ℕ → UInt8} {path : Ruta} {q : ℤ}

/-! ## What the client hands over -/

/-- `string_split` at `;`. -/
def stringSplit (texto : List UInt8) : List (List UInt8) := tokens 59 texto

/-- What `hello_readdir` hands to `filler`: `.`, `..` and the names of the reply. -/
def Recibido.entradas (r : Recibido) : List (List UInt8) :=
  [46] :: [46, 46] :: if r.valor = 0 then stringSplit r.texto else []

/-- The nodes in use whose father is number `q`, in the order of the table. -/
def hijos (m : Montaje) (s : Estado) (q : ℤ) : List ℕ :=
  (List.range cantidadNodos).filter fun i : ℕ => decide (s.estado m i ≠ borrado ∧ s.padre m i = q)

/-- The nodes in use are regular files and directories, and each one has a name that is not empty
and ends inside its field, which is on the disk. -/
def TablaListable (m : Montaje) (s : Estado) : Prop :=
  ∀ i < cantidadNodos, s.estado m i ≠ borrado →
    (s.estado m i = ocupado ∨ s.estado m i = directorio) ∧
      dirNombre m i + 71 ≤ tamanioBloque * m.bloques ∧
      ∃ k : ℕ, 0 < k ∧ k < 71 ∧ s.mem (dirNombre m i + k) = 0 ∧
        ∀ j : ℕ, j < k → s.mem (dirNombre m i + j) ≠ 0

/-- The client reads the whole reply and hands over `.`, `..` and the names of the children of the
directory, in the order of the table. -/
def ListaBien (m : Montaje) (basura : ℕ → UInt8) (path : Ruta) (s : Estado) : Prop :=
  ∃ enviados recibido, (oReadDir m basura path).eval s = some (enviados, s) ∧
    helloReaddir.run enviados.flatten = some (recibido, []) ∧
      recibido.entradas = [46] :: [46, 46] ::
        (hijos m s (nodoDe m s path.cola)).map (nombreDeNodo m s)

/-! ## The names -/

theorem length_cadena {mem : Mem} {fuel k : ℕ} {a : ℤ} (hk : k < fuel) (hfin : mem (a + k) = 0)
    (hne : ∀ j : ℕ, j < k → mem (a + j) ≠ 0) : (cadena mem fuel a).length = k := by
  induction k generalizing fuel a with
  | zero =>
      obtain ⟨fuel, rfl⟩ := Nat.exists_eq_succ_of_ne_zero hk.ne'
      rw [Nat.cast_zero, add_zero] at hfin
      rw [cadena, if_pos hfin]
      rfl
  | succ k ih =>
      obtain ⟨fuel, rfl⟩ := Nat.exists_eq_succ_of_ne_zero (Nat.ne_zero_of_lt hk)
      have hprimero := hne 0 (Nat.succ_pos k)
      rw [Nat.cast_zero, add_zero] at hprimero
      have hsuma : ∀ j : ℕ, a + 1 + j = a + (j + 1 : ℕ) := fun j => by omega
      rw [cadena, if_neg hprimero, List.length_cons, ih (Nat.lt_of_succ_lt_succ hk)]
      · rw [hsuma]
        exact hfin
      · intro j hj
        rw [hsuma]
        exact hne (j + 1) (Nat.succ_lt_succ hj)

/-- The names of the nodes in use are not empty and end inside their field. -/
theorem TablaListable.nombre (hs : TablaListable m s) {i : ℕ} (hi : i < cantidadNodos)
    (hvivo : s.estado m i ≠ borrado) :
    nombreDeNodo m s i ≠ [] ∧ (nombreDeNodo m s i).length ≤ 70 := by
  obtain ⟨_, hdisco, k, hpos, hk, hfin, hne⟩ := hs i hi hvivo
  have hlen : (nombreDeNodo m s i).length = k := length_cadena (by omega) hfin hne
  refine ⟨fun hnil => ?_, by omega⟩
  rw [hnil, List.length_nil] at hlen
  omega

/-! ## The text -/

/-- The name of a child, and nothing for the other nodes. -/
def nombreDeHijo (m : Montaje) (s : Estado) (q : ℤ) (i : ℕ) : List UInt8 :=
  if s.estado m i ≠ borrado ∧ s.padre m i = q then nombreDeNodo m s i else []

theorem directoriosPegoteados_eq (hs : TablaListable m s) (hq : unsigned q = q) :
    directoriosPegoteados m s q =
      ((List.range cantidadNodos).map (nombreDeHijo m s q)).flatMap fun nombre =>
        nombre ++ [59] := by
  rw [directoriosPegoteados, List.flatMap_map]
  refine List.flatMap_congr fun i hi => ?_
  have hi' := List.mem_range.1 hi
  have hiff : (unsigned q = s.padre m i ∧ (s.estado m i = directorio ∨ s.estado m i = ocupado)) ↔
      s.estado m i ≠ borrado ∧ s.padre m i = q := by
    rw [hq]
    constructor
    · rintro ⟨hpadre, hestado⟩
      refine ⟨?_, hpadre.symm⟩
      rcases hestado with hestado | hestado <;> rw [hestado] <;> decide
    · rintro ⟨hvivo, hpadre⟩
      exact ⟨hpadre.symm, (hs i hi' hvivo).1.symm⟩
  rw [nombreDeHijo]
  simp only [hiff]

theorem mem_hijos {i : ℕ} :
    i ∈ hijos m s q ↔ i < cantidadNodos ∧ s.estado m i ≠ borrado ∧ s.padre m i = q := by
  rw [hijos, List.mem_filter, List.mem_range, decide_eq_true_iff]

/-- The pieces that are not empty are the names of the children. -/
theorem filter_nombreDeHijo (hs : TablaListable m s) :
    ((List.range cantidadNodos).map (nombreDeHijo m s q)).filter (fun nombre => !nombre.isEmpty) =
      (hijos m s q).map (nombreDeNodo m s) := by
  rw [List.filter_map, hijos]
  have hfilter : (List.range cantidadNodos).filter
      ((fun nombre : List UInt8 => !nombre.isEmpty) ∘ nombreDeHijo m s q) =
        (List.range cantidadNodos).filter fun i : ℕ =>
          decide (s.estado m i ≠ borrado ∧ s.padre m i = q) := by
    refine List.filter_congr fun i hi => ?_
    rw [Function.comp_apply, nombreDeHijo]
    split_ifs with hhijo
    · rw [decide_eq_true hhijo]
      simpa using (hs.nombre (List.mem_range.1 hi) hhijo.1).1
    · rw [decide_eq_false hhijo]
      rfl
  rw [hfilter]
  refine List.map_congr_left fun i hi => ?_
  rw [nombreDeHijo, if_pos (of_decide_eq_true (List.mem_filter.1 hi).2)]

theorem length_flatMap_le {α β : Type} {f : α → List β} {k : ℕ} {l : List α}
    (h : ∀ x ∈ l, (f x).length ≤ k) : (l.flatMap f).length ≤ l.length * k := by
  induction l with
  | nil => exact Nat.zero_le _
  | cons x l ih =>
      have hx := h x List.mem_cons_self
      have hl := ih fun y hy => h y (List.mem_cons_of_mem x hy)
      rw [List.flatMap_cons, List.length_append, List.length_cons, Nat.succ_mul]
      omega

theorem length_directoriosPegoteados (hs : TablaListable m s) (q : ℤ) :
    (directoriosPegoteados m s q).length < 2147483648 := by
  have hle : (directoriosPegoteados m s q).length ≤ (List.range cantidadNodos).length * 71 := by
    refine length_flatMap_le fun i hi => ?_
    rw [List.length_append, List.length_singleton]
    split_ifs with hhijo
    · have hvivo : s.estado m i ≠ borrado := by
        rcases hhijo.2 with hestado | hestado <;> rw [hestado] <;> decide
      have hlen := (hs.nombre (List.mem_range.1 hi) hvivo).2
      omega
    · rw [List.length_nil]
      omega
  rw [List.length_range, cantidadNodos] at hle
  omega

/-! ## The listing -/

theorem hijo_sinSeparador (h : ∀ i ∈ hijos m s q, 59 ∉ nombreDeNodo m s i) {nombre : List UInt8}
    (hmem : nombre ∈ (List.range cantidadNodos).map (nombreDeHijo m s q)) : 59 ∉ nombre := by
  obtain ⟨i, hi, rfl⟩ := List.mem_map.1 hmem
  rw [nombreDeHijo]
  split_ifs with hhijo
  · exact h i (mem_hijos.2 ⟨List.mem_range.1 hi, hhijo⟩)
  · exact List.not_mem_nil

/-- The whole reply is read, and its text has the names of the children. -/
theorem eval_listado (basura : ℕ → UInt8) (hs : TablaListable m s)
    (hnodo : nodoDe m s path.cola ≠ -1) :
    ∃ enviados, (oReadDir m basura path).eval s = some (enviados, s) ∧
      helloReaddir.run enviados.flatten =
        some ({ valor := 0, texto := directoriosPegoteados m s (nodoDe m s path.cola) }, []) := by
  have hreads := reads_helloReaddir (length_directoriosPegoteados hs (nodoDe m s path.cola))
  refine ⟨_, Peticion.eval_oReadDir s, ?_⟩
  rw [if_neg hnodo, List.nil_append, List.flatten_singleton]
  exact hreads.run_self

theorem sinSeparador_of_listaBien (hs : TablaListable m s) (hnodo : nodoDe m s path.cola ≠ -1)
    (h : ListaBien m basura path s) :
    ∀ i ∈ hijos m s (nodoDe m s path.cola), 59 ∉ nombreDeNodo m s i := by
  obtain ⟨enviados, recibido, heval, hrun, hentradas⟩ := h
  obtain ⟨enviados', heval', hrun'⟩ := eval_listado basura hs hnodo
  cases heval.symm.trans heval'
  cases hrun.symm.trans hrun'
  rw [Recibido.entradas, if_pos rfl] at hentradas
  have hnombres := List.tail_eq_of_cons_eq (List.tail_eq_of_cons_eq hentradas)
  intro i hi
  have hmem : nombreDeNodo m s i ∈ stringSplit
      (directoriosPegoteados m s (nodoDe m s path.cola)) := by
    rw [hnombres]
    exact List.mem_map_of_mem hi
  exact (of_mem_tokens hmem).1

/-- The listing of a directory is right if and only if no child has a `;` in its name. -/
theorem listaBien_iff (m : Montaje) (basura : ℕ → UInt8) (s : Estado) (hs : TablaListable m s)
    (path : Ruta) (hnodo : nodoDe m s path.cola ≠ -1) :
    ListaBien m basura path s ↔
      ∀ i ∈ hijos m s (nodoDe m s path.cola), 59 ∉ nombreDeNodo m s i := by
  constructor
  · exact sinSeparador_of_listaBien hs hnodo
  · intro hsep
    obtain ⟨enviados, heval, hrun⟩ := eval_listado basura hs hnodo
    obtain ⟨h0, hmax⟩ := nodoDe_bounds m s hnodo
    refine ⟨enviados, _, heval, hrun, ?_⟩
    rw [Recibido.entradas, if_pos rfl, stringSplit,
      directoriosPegoteados_eq hs (unsigned_eq_self h0 hmax),
      tokens_flatMap fun _ => hijo_sinSeparador hsep, filter_nombreDeHijo hs]

/-- A disk whose only node is the empty file with this name at the root. -/
def discoConNombre (nombre : List UInt8) : Estado :=
  ⟨store (fun _ => 0) (dirEstado montajeChico 0) (1 :: nombre), 0, false⟩

def rutaRaiz : Ruta := ⟨[], List.not_mem_nil⟩

theorem libre_discoConNombre {nombre : List UInt8} (h : nombre.length ≤ 4095) :
    LibreDesde montajeChico (discoConNombre nombre) 1 :=
  LibreDesde.conMem_store (s := ⟨fun _ => 0, 0, false⟩) (i := 0) (fun _ _ => rfl) one_pos (by
    rw [dirEstado, List.length_cons, Nat.cast_zero]
    omega)

theorem tablaListable_of_unNodo {s : Estado} (hsolo : LibreDesde montajeChico s 1)
    (harchivo : s.estado montajeChico 0 = ocupado) {k : ℕ} (hpos : 0 < k) (hk : k < 71)
    (hfin : s.mem (dirNombre montajeChico 0 + k) = 0)
    (hne : ∀ j : ℕ, j < k → s.mem (dirNombre montajeChico 0 + j) ≠ 0) :
    TablaListable montajeChico s := by
  intro i hi hvivo
  obtain rfl := Nat.lt_one_iff.1 (hsolo.lt_of_ne hvivo)
  exact ⟨Or.inl harchivo, by decide, k, hpos, hk, hfin, hne⟩

theorem listaBien_iff_raiz :
    ListaBien montajeChico (fun _ => 0) rutaRaiz (discoConNombre [97]) :=
  (listaBien_iff montajeChico (fun _ => 0) (discoConNombre [97])
    (tablaListable_of_unNodo (k := 1) (libre_discoConNombre (by decide)) (by decide +kernel)
      (by decide) (by decide) (by decide +kernel) (by decide +kernel)) rutaRaiz (by decide)).2
    (by decide +kernel)

/-- The name `a;b` is handed over as two. -/
theorem not_listaBien : ¬ ∀ (m : Montaje) (basura : ℕ → UInt8) (s : Estado), TablaListable m s →
    ∀ path : Ruta, nodoDe m s path.cola ≠ -1 → ListaBien m basura path s := by
  intro h
  have hs : TablaListable montajeChico (discoConNombre [97, 59, 98]) :=
    tablaListable_of_unNodo (k := 3) (libre_discoConNombre (by decide)) (by decide +kernel)
      (by decide) (by decide) (by decide +kernel) (by decide +kernel)
  have hraiz : nodoDe montajeChico (discoConNombre [97, 59, 98]) rutaRaiz.cola ≠ -1 := by decide
  have hsep := sinSeparador_of_listaBien hs hraiz
    (h montajeChico (fun _ => 0) _ hs rutaRaiz hraiz)
  exact absurd hsep (by decide +kernel)

end Sac
