import Linuse.Collections.Catalog
import Linuse.Sac.Altas
import Linuse.Sac.Consultas
import Linuse.Sac.Volcado

/-!
# The table of nodes as a catalog

What a client can see of the disk: each node in use has a father and a name, and holds the bytes of
a file or is a directory (`Estado.tabla`). When the names end inside their fields and the fathers
are numbers of the table (`FichaSana`), the paths resolve in the catalog as they do on the disk
(`nodoDe_eq_resolve`).
-/

namespace Sac

open Memory Locks

variable {m : Montaje} {s s' : Estado} {i : ℤ} {k : ℕ}

/-! ## Names -/

section Cadenas

variable {mem mem' : Mem} {a : ℤ} {l : List UInt8}

theorem nul_notMem_cadena (mem : Mem) (k : ℕ) (a : ℤ) : 0 ∉ cadena mem k a := by
  induction k generalizing a with
  | zero => exact List.not_mem_nil
  | succ k ih =>
      rw [cadena]
      split_ifs with hcero
      · exact List.not_mem_nil
      · rw [List.mem_cons, not_or]
        exact ⟨fun heq => hcero heq.symm, ih _⟩

theorem length_cadena_le (mem : Mem) (k : ℕ) (a : ℤ) : (cadena mem k a).length ≤ k := by
  induction k generalizing a with
  | zero => exact le_rfl
  | succ k ih =>
      rw [cadena]
      split_ifs
      · exact Nat.zero_le _
      · exact Nat.succ_le_succ (ih _)

/-- The bytes of a string that fits. -/
theorem cadena_eq_of_isString (hl : 0 ∉ l) (hk : l.length ≤ k) (h : isString mem a l = true) :
    cadena mem k a = l := by
  induction l generalizing k a with
  | nil =>
      rw [isString, beq_iff_eq] at h
      cases k with
      | zero => rfl
      | succ k => rw [cadena, if_pos h]
  | cons b l ih =>
      rw [isString, Bool.and_eq_true, beq_iff_eq] at h
      rw [List.mem_cons, not_or] at hl
      cases k with
      | zero => cases hk
      | succ k =>
          rw [cadena, if_neg (by rw [h.1]; exact fun heq => hl.1 heq.symm), h.1,
            ih hl.2 (Nat.le_of_succ_le_succ hk) h.2]

/-- A string that ends is read whole. -/
theorem isString_cadena (h : ∃ j : ℕ, j < k ∧ mem (a + j) = 0) :
    isString mem a (cadena mem k a) = true := by
  induction k generalizing a with
  | zero =>
      obtain ⟨j, hj, -⟩ := h
      cases hj
  | succ k ih =>
      obtain ⟨j, hj, hcero⟩ := h
      rw [cadena]
      split_ifs with ha
      · rw [isString, ha]
        rfl
      · rw [isString, beq_self_eq_true, Bool.true_and]
        cases j with
        | zero =>
            rw [Nat.cast_zero, add_zero] at hcero
            exact absurd hcero ha
        | succ j =>
            refine ih ⟨j, Nat.lt_of_succ_lt_succ hj, ?_⟩
            rw [← hcero]
            congr 1
            push_cast
            ring

theorem cadena_congr (h : ∀ j : ℕ, j < k → mem' (a + j) = mem (a + j)) :
    cadena mem' k a = cadena mem k a := by
  induction k generalizing a with
  | zero => rfl
  | succ k ih =>
      have ha := h 0 (Nat.succ_pos k)
      rw [Nat.cast_zero, add_zero] at ha
      rw [cadena, cadena, ha, ih fun j hj => ?_]
      have hsigue := h (j + 1) (Nat.succ_lt_succ hj)
      rwa [Nat.cast_succ, add_comm (j : ℤ) 1, ← add_assoc] at hsigue

end Cadenas

/-! ## Nodes -/

/-- The name of node `i`. -/
def Estado.nombre (m : Montaje) (s : Estado) (i : ℤ) : List UInt8 := cadena s.mem 71 (dirNombre m i)

theorem MismaFicha.padre (h : MismaFicha m i s s') : s'.padre m i = s.padre m i :=
  load32_congr fun x hx => h _ (by rw [dirPadre]; omega) (by rw [dirPadre]; omega)

theorem MismaFicha.nombre (h : MismaFicha m i s s') : s'.nombre m i = s.nombre m i :=
  cadena_congr fun j hj => h _ (by rw [dirNombre]; omega) (by rw [dirNombre]; omega)

/-- The name of node `i` ends inside its field, its father is a number of the table or the root,
and it is a file or a directory. -/
structure FichaSana (m : Montaje) (s : Estado) (i : ℤ) : Prop where
  terminado : ∃ k : ℕ, k < 71 ∧ s.mem (dirNombre m i + k) = 0
  padre : s.padre m i ≤ cantidadNodos
  tipo : s.estado m i = ocupado ∨ s.estado m i = directorio

theorem FichaSana.ficha (h : FichaSana m s i) (hficha : MismaFicha m i s s') :
    FichaSana m s' i where
  terminado := by
    obtain ⟨k, hk, hcero⟩ := h.terminado
    refine ⟨k, hk, ?_⟩
    rw [hficha _ (by rw [dirNombre]; omega) (by rw [dirNombre]; omega), hcero]
  padre := by
    rw [hficha.padre]
    exact h.padre
  tipo := by
    rw [hficha.estado]
    exact h.tipo

/-- The nodes in use have a name, a father and a type. -/
def FichasSanas (m : Montaje) (s : Estado) : Prop :=
  ∀ i, 0 ≤ i → i < 1024 → s.estado m i ≠ borrado → FichaSana m s i

/-! ## The catalog -/

/-- What each node holds: the bytes of a file, or nothing for a directory. -/
abbrev Tabla := Catalog (List UInt8) (Option (List UInt8))

/-- What node `i` holds. -/
def Estado.datos (m : Montaje) (s : Estado) (i : ℤ) : Option (List UInt8) :=
  if s.estado m i = ocupado then some (s.archivo m i) else none

/-- The table of a disk. -/
def Estado.tabla (m : Montaje) (s : Estado) : Tabla := fun i =>
  if i < cantidadNodos ∧ s.estado m i ≠ borrado then
    some ⟨(s.padre m i).toNat, s.nombre m i, s.datos m i⟩
  else none

/-- The node of a path. -/
def Tabla.nodo (t : Tabla) (path : Ruta) : Option ℕ :=
  t.resolve cantidadNodos (componentes path.cola)

/-- The number that the code has for a node, -1 when there is none. -/
def numero (nodo : Option ℕ) : ℤ := nodo.elim (-1) Nat.cast

@[simp]
theorem numero_none : numero none = -1 := rfl

@[simp]
theorem numero_some (k : ℕ) : numero (some k) = k := rfl

theorem tabla_eq_some {e : Entry (List UInt8) (Option (List UInt8))} :
    s.tabla m k = some e ↔ k < cantidadNodos ∧ s.estado m k ≠ borrado ∧
      e = ⟨(s.padre m k).toNat, s.nombre m k, s.datos m k⟩ := by
  rw [Estado.tabla]
  constructor
  · intro he
    split_ifs at he with h
    exact ⟨h.1, h.2, (Option.some.inj he).symm⟩
  · rintro ⟨hk, hvivo, rfl⟩
    rw [if_pos ⟨hk, hvivo⟩]

theorem tabla_eq_none : s.tabla m k = none ↔ ¬ (k < cantidadNodos ∧ s.estado m k ≠ borrado) := by
  rw [Estado.tabla, ite_eq_right_iff]
  exact forall_congr' fun _ => iff_of_false (Option.some_ne_none _) not_false

/-- A node is looked up on the disk as in the table. -/
theorem isChild_tabla (h : FichasSanas m s) (hk : k < cantidadNodos) (q : ℕ) {c : List UInt8}
    (hc : 0 ∉ c) : (s.tabla m).isChild q c k = coincide m s q c k := by
  rw [Bool.eq_iff_iff, Catalog.isChild_iff, coincide_iff hk]
  constructor
  · rintro ⟨e, he, rfl, rfl⟩
    obtain ⟨-, hvivo, rfl⟩ := tabla_eq_some.1 he
    have hsana := h k (Int.natCast_nonneg k) (by rw [cantidadNodos] at hk; omega) hvivo
    exact ⟨hk, hvivo, (Int.toNat_of_nonneg (load32_nonneg _ _)).symm,
      isString_cadena hsana.terminado⟩
  · rintro ⟨-, hvivo, hpadre, hnombre⟩
    have hsana := h k (Int.natCast_nonneg k) (by rw [cantidadNodos] at hk; omega) hvivo
    obtain ⟨j, hj, hcero⟩ := hsana.terminado
    have hlargo := isString_length_le hc hnombre hcero
    refine ⟨_, tabla_eq_some.2 ⟨hk, hvivo, rfl⟩, ?_, cadena_eq_of_isString hc (by omega) hnombre⟩
    dsimp only
    omega

theorem buscarNodo_eq_find (h : FichasSanas m s) (q : ℕ) {c : List UInt8} (hc : 0 ∉ c) :
    buscarNodo m s q c = numero ((s.tabla m).find cantidadNodos q c) := by
  have hhijo : ∀ i, EsHijo m s q c i → (s.tabla m).isChild q c i = true := fun i hi => by
    rwa [isChild_tabla h hi.enTabla q hc, coincide_iff hi.enTabla]
  rcases buscarNodo_cases m s q c with ⟨i, hi, heq⟩ | ⟨hninguno, heq⟩
  · have hfind : (s.tabla m).find cantidadNodos q c = some (i + 1) := by
      refine Catalog.find_eq_some_iff.2 ⟨i, hi.1.enTabla, rfl, hhijo i hi.1, fun j hj => ?_⟩
      have hj' := hj.trans hi.1.enTabla
      rw [isChild_tabla h hj' q hc, ← Bool.not_eq_true, coincide_iff hj']
      exact fun hes => absurd (hi.2 hes) (not_le.2 hj)
    rw [heq, hfind, numero_some, Nat.cast_succ]
  · have hfind : (s.tabla m).find cantidadNodos q c = none := by
      refine Catalog.find_eq_none_iff.2 fun j hj => ?_
      rw [isChild_tabla h hj q hc, ← Bool.not_eq_true, coincide_iff hj]
      exact hninguno j
    rw [heq, hfind, numero_none]

/-- No node has the number that the code takes for the father of what is not found. -/
theorem buscarNodo_falta (h : FichasSanas m s) (c : List UInt8) :
    buscarNodo m s (unsigned (-1)) c = -1 := by
  refine (buscarNodo_eq_neg_one_or m s _ c).resolve_right ?_
  rintro ⟨i, hi, -, hcoincide⟩
  rw [coincide_iff hi] at hcoincide
  have hsana := h i (Int.natCast_nonneg i) (by rw [cantidadNodos] at hi; omega) hcoincide.enUso
  have hpadre := hsana.padre
  rw [hcoincide.padre] at hpadre
  exact absurd hpadre (by decide)

/-- A path resolves on the disk as in the table. -/
theorem nodoDe_eq_resolve (h : FichasSanas m s) {cola : List UInt8} (hcola : 0 ∉ cola) :
    nodoDe m s cola = numero ((s.tabla m).resolve cantidadNodos (componentes cola)) := by
  induction hn : cola.length using Nat.strong_induction_on generalizing cola with
  | _ n ih =>
      rcases eq_or_ne cola [] with rfl | hne
      · rfl
      · have hpartes := dividirRuta_of_ne_nil hne
        have hlt := length_super_lt hne
        generalize (sinBarraFinal cola).rdropWhile (· != 47) = superPath at hpartes hlt
        generalize (sinBarraFinal cola).rtakeWhile (· != 47) = nombre at hpartes
        obtain ⟨hsuper, hnombre⟩ := sinNul_dividirRuta hcola hpartes
        have hmadre := ih superPath.length (hn ▸ hlt) hsuper rfl
        rw [componentes_eq hpartes, nodoDe_eq m s hpartes, Catalog.resolve_snoc]
        cases hq : (s.tabla m).resolve cantidadNodos (componentes superPath) with
        | none =>
            rw [hq, numero_none] at hmadre
            rw [hmadre, buscarNodo_falta h, Option.bind_none, numero_none]
        | some q =>
            rw [hq, numero_some] at hmadre
            have hresuelve : nodoDe m s superPath ≠ -1 := by omega
            obtain ⟨hpos, hmax⟩ := nodoDe_bounds m s hresuelve
            rw [unsigned_eq_self hpos hmax, hmadre, buscarNodo_eq_find h q hnombre,
              Option.bind_some]

end Sac
