import Mathlib.Data.List.DropRight
import Linuse.Sac.Disco

/-!
# Paths

An absolute path is split into the path of its directory and a name
(`dividirRuta`), and resolved by looking for the name among the nodes whose father
is the node of the directory (`dameNodoDe`). Each level of a path is looked up
inside its own read lock.
-/

namespace Sac

open Memory Locks

/-- An absolute path, given by the bytes after its first slash. -/
structure Ruta where
  cola : List UInt8
  sinNul : 0 ∉ cola

/-- The number of nodes in the table. -/
def cantidadNodos : ℕ := 1024

/-- The path without its final slash. -/
def sinBarraFinal (cola : List UInt8) : List UInt8 :=
  if cola.getLast? = some 47 then cola.dropLast else cola

/-- `dividirRuta`: the path up to its last slash and the name after it. On the root
path the search for a slash fails and the code dereferences NULL. -/
def dividirRuta (cola : List UInt8) : Option (List UInt8 × List UInt8) :=
  if cola = [] then none
  else
    some ((sinBarraFinal cola).rdropWhile (· != 47), (sinBarraFinal cola).rtakeWhile (· != 47))

theorem dividirRuta_of_ne_nil {cola : List UInt8} (h : cola ≠ []) :
    dividirRuta cola = some ((sinBarraFinal cola).rdropWhile (· != 47),
      (sinBarraFinal cola).rtakeWhile (· != 47)) :=
  if_neg h

section Resolucion

variable (m : Montaje)

/-- Node `i` is in use, is a child of `padre` and has this name. -/
def coincide (s : Estado) (padre : ℤ) (nombre : List UInt8) (i : ℕ) : Bool :=
  s.padre m i == padre && isString s.mem (dirNombre m i) nombre && s.estado m i != borrado

/-- The number of the first node that matches, or -1; nodes are numbered from 1. -/
def buscarNodo (s : Estado) (padre : ℤ) (nombre : List UInt8) : ℤ :=
  ((List.range cantidadNodos).find? (coincide m s padre nombre)).elim (-1) fun i => i + 1

/-- The read section of one level of `dameNodoDe`. -/
def buscarEnPadre (anterior : ℤ) (nombre : List UInt8) : Codigo ℤ := do
  Prog.lock Modo.lectura
  let i ← Code.read fun s => buscarNodo m s (unsigned anterior) nombre
  Prog.unlock Modo.lectura
  return i

/-- `dameNodoDe`; every level of the recursion makes the path shorter, so the length
of the path bounds it. -/
def dameNodoDeHasta : ℕ → List UInt8 → Codigo ℤ
  | _, [] => return 0
  | 0, _ :: _ => .fail
  | n + 1, b :: cola => do
      let (superPath, nombre) ← Code.orFail (dividirRuta (b :: cola))
      let anterior ← dameNodoDeHasta n superPath
      buscarEnPadre m anterior nombre

def dameNodoDe (cola : List UInt8) : Codigo ℤ := dameNodoDeHasta m cola.length cola

/-- The node of a path in a given state. -/
def nodoDeHasta (s : Estado) : ℕ → List UInt8 → ℤ
  | _, [] => 0
  | 0, _ :: _ => 0
  | n + 1, b :: cola =>
      buscarNodo m s
        (unsigned (nodoDeHasta s n ((sinBarraFinal (b :: cola)).rdropWhile (· != 47))))
        ((sinBarraFinal (b :: cola)).rtakeWhile (· != 47))

def nodoDe (s : Estado) (cola : List UInt8) : ℤ := nodoDeHasta m s cola.length cola

end Resolucion

/-- The path of the directory is shorter. -/
theorem length_super_lt {cola : List UInt8} (h : cola ≠ []) :
    ((sinBarraFinal cola).rdropWhile (· != 47)).length < cola.length := by
  have hpos : 0 < cola.length := List.length_pos_iff.2 h
  have hle := (List.rdropWhile_prefix (p := (· != 47)) (l := sinBarraFinal cola)).length_le
  rcases eq_or_ne (cola.getLast?) (some 47) with hlast | hlast
  · rw [sinBarraFinal, if_pos hlast] at hle ⊢
    rw [List.length_dropLast] at hle
    omega
  · rw [sinBarraFinal, if_neg hlast] at hle ⊢
    have hne : cola.getLast h ≠ 47 := by
      intro heq
      rw [List.getLast?_eq_some_getLast h, heq] at hlast
      exact hlast rfl
    have hmem : cola.rdropWhile (· != 47) ≠ cola := by
      intro heq
      rw [List.rdropWhile_eq_self_iff] at heq
      exact heq h (by simpa using hne)
    exact lt_of_le_of_ne hle fun hlen => hmem ((List.rdropWhile_prefix _ _).eq_of_length hlen)

section Evaluacion

variable (m : Montaje) (s : Estado)

@[simp]
theorem eval_buscarEnPadre (anterior : ℤ) (nombre : List UInt8) :
    (buscarEnPadre m anterior nombre).eval s =
      some (buscarNodo m s (unsigned anterior) nombre, s) := by
  simp [buscarEnPadre]

theorem eval_dameNodoDeHasta {n : ℕ} {cola : List UInt8} (h : cola.length ≤ n) :
    (dameNodoDeHasta m n cola).eval s = some (nodoDeHasta m s n cola, s) := by
  induction n generalizing cola with
  | zero =>
      rw [Nat.le_zero, List.length_eq_zero_iff] at h
      subst h
      rfl
  | succ n ih =>
      cases cola with
      | nil => rfl
      | cons b cola =>
          have hlt := length_super_lt (List.cons_ne_nil b cola)
          have hsuper := ih (show _ ≤ n from Nat.le_of_lt_succ (lt_of_lt_of_le hlt h))
          simp [dameNodoDeHasta, dividirRuta, hsuper, nodoDeHasta]

/-- Alone, `dameNodoDe` returns the node of the path and changes nothing. -/
@[simp]
theorem eval_dameNodoDe (cola : List UInt8) :
    (dameNodoDe m cola).eval s = some (nodoDe m s cola, s) :=
  eval_dameNodoDeHasta m s le_rfl

theorem nodoDeHasta_eq {n k : ℕ} {cola : List UInt8} (hn : cola.length ≤ n)
    (hk : cola.length ≤ k) : nodoDeHasta m s n cola = nodoDeHasta m s k cola := by
  induction n generalizing k cola with
  | zero =>
      rw [Nat.le_zero, List.length_eq_zero_iff] at hn
      subst hn
      cases k <;> rfl
  | succ n ih =>
      cases cola with
      | nil => cases k <;> rfl
      | cons b cola =>
          have hlt := length_super_lt (List.cons_ne_nil b cola)
          cases k with
          | zero => cases hk
          | succ k =>
              rw [nodoDeHasta, nodoDeHasta, ih (by omega) (k := k) (by omega)]

theorem nodoDe_nil : nodoDe m s [] = 0 := rfl

/-- The node of a path is looked up among the children of the node of its
directory. -/
theorem nodoDe_eq {cola superPath nombre : List UInt8}
    (h : dividirRuta cola = some (superPath, nombre)) :
    nodoDe m s cola = buscarNodo m s (unsigned (nodoDe m s superPath)) nombre := by
  cases cola with
  | nil => cases h
  | cons b cola =>
      rw [dividirRuta_of_ne_nil (List.cons_ne_nil b cola), Option.some.injEq,
        Prod.mk.injEq] at h
      obtain ⟨rfl, rfl⟩ := h
      have hlt := length_super_lt (List.cons_ne_nil b cola)
      rw [nodoDe, List.length_cons, nodoDeHasta, nodoDe,
        nodoDeHasta_eq m s (Nat.le_of_lt_succ hlt) le_rfl]

theorem buscarNodo_eq_neg_one_or (padre : ℤ) (nombre : List UInt8) :
    buscarNodo m s padre nombre = -1 ∨
      ∃ i : ℕ, i < cantidadNodos ∧ buscarNodo m s padre nombre = i + 1 ∧
        coincide m s padre nombre i = true := by
  rw [buscarNodo]
  cases hfind : (List.range cantidadNodos).find? (coincide m s padre nombre) with
  | none => exact Or.inl rfl
  | some i =>
      have hi := List.mem_range.1 (List.mem_of_find?_eq_some hfind)
      exact Or.inr ⟨i, hi, rfl, List.find?_some hfind⟩

/-- A path resolves to the root, to a node of the table in use, or not at all. -/
theorem nodoDe_cases (cola : List UInt8) :
    nodoDe m s cola = -1 ∨ nodoDe m s cola = 0 ∨
      ∃ i : ℕ, i < cantidadNodos ∧ nodoDe m s cola = (i : ℤ) + 1 ∧ s.estado m i ≠ borrado := by
  cases cola with
  | nil => exact Or.inr (Or.inl rfl)
  | cons b cola =>
      rw [nodoDe_eq m s (dividirRuta_of_ne_nil (List.cons_ne_nil b cola))]
      rcases buscarNodo_eq_neg_one_or m s _ _ with h | ⟨i, hi, h, hcoincide⟩
      · exact Or.inl h
      · refine Or.inr (Or.inr ⟨i, hi, h, ?_⟩)
        simp only [coincide, Bool.and_eq_true, bne_iff_ne] at hcoincide
        exact hcoincide.2

variable {m s}

theorem coincide_congr {s' : Estado} (h : s'.mem = s.mem) : coincide m s' = coincide m s := by
  funext padre nombre i
  simp only [coincide, Estado.padre, Estado.estado, h]

theorem buscarNodo_congr {s' : Estado} (h : s'.mem = s.mem) :
    buscarNodo m s' = buscarNodo m s := by
  funext padre nombre
  rw [buscarNodo, buscarNodo, coincide_congr h]

/-- Paths resolve in the memory. -/
theorem nodoDe_congr {s' : Estado} (h : s'.mem = s.mem) (cola : List UInt8) :
    nodoDe m s' cola = nodoDe m s cola := by
  rw [nodoDe, nodoDe]
  generalize cola.length = n
  induction n generalizing cola with
  | zero => cases cola <;> rfl
  | succ n ih =>
      cases cola with
      | nil => rfl
      | cons b cola => rw [nodoDeHasta, nodoDeHasta, ih, buscarNodo_congr h]

end Evaluacion

end Sac
