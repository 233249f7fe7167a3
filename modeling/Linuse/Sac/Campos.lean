import Mathlib.Tactic.Ring
import Linuse.Sac.Rutas

/-!
# Writing the fields

Each write changes the bytes of its field only, and what was written is read back. The
bytes of the table of nodes and of the data blocks are apart. Past the slots that are in use
(`LibreDesde`) no search finds anything.
-/

namespace Sac

open Memory Wire

section Escrituras

variable (m : Montaje) (s : Estado) (i : ℤ)

theorem ponerEstado_mem {v : UInt8} {x : ℤ} (h : x ≠ dirEstado m i) :
    (s.ponerEstado m i v).mem x = s.mem x :=
  store_of_disjoint (by rw [List.length_singleton]; omega)

theorem estado_ponerEstado (v : UInt8) : (s.ponerEstado m i v).estado m i = v := by
  have h := store_getElem (m := s.mem) (a := dirEstado m i) (l := [v]) (i := 0) (by simp)
  rwa [Nat.cast_zero, add_zero] at h

theorem ponerNombre_mem {nombre : List UInt8} {x : ℤ}
    (h : x < dirNombre m i ∨ dirNombre m i + nombre.length + 1 ≤ x) :
    (s.ponerNombre m i nombre).mem x = s.mem x :=
  store_of_disjoint (by rw [List.length_append, List.length_singleton]; omega)

theorem ponerPadre_mem {v x : ℤ} (h : x < dirPadre m i ∨ dirPadre m i + 4 ≤ x) :
    (s.ponerPadre m i v).mem x = s.mem x :=
  store32_of_disjoint h

theorem padre_ponerPadre (v : ℤ) : (s.ponerPadre m i v).padre m i = unsigned v :=
  load32_store32 _ _ _

theorem ponerTamanio_mem {v x : ℤ} (h : x < dirTamanio m i ∨ dirTamanio m i + 4 ≤ x) :
    (s.ponerTamanio m i v).mem x = s.mem x :=
  store32_of_disjoint h

theorem tamanio_ponerTamanio (v : ℤ) : (s.ponerTamanio m i v).tamanio m i = unsigned v :=
  load32_store32 _ _ _

theorem ponerCreacion_mem {v : ℕ} {x : ℤ} (h : x < dirCreacion m i ∨ dirCreacion m i + 8 ≤ x) :
    (s.ponerCreacion m i v).mem x = s.mem x :=
  store_of_disjoint (by rwa [length_toBytes])

theorem ponerModificacion_mem {v : ℕ} {x : ℤ}
    (h : x < dirModificacion m i ∨ dirModificacion m i + 8 ≤ x) :
    (s.ponerModificacion m i v).mem x = s.mem x :=
  store_of_disjoint (by rwa [length_toBytes])

theorem ponerIndirecto_mem {p v x : ℤ} (h : x < dirIndirecto m i p ∨ dirIndirecto m i p + 4 ≤ x) :
    (s.ponerIndirecto m i p v).mem x = s.mem x :=
  store32_of_disjoint h

theorem indirecto_ponerIndirecto (p v : ℤ) :
    (s.ponerIndirecto m i p v).indirecto m i p = unsigned v :=
  load32_store32 _ _ _

theorem ponerPuntero_mem {b k v x : ℤ} (h : x < m.bloque b + 4 * k ∨ m.bloque b + 4 * k + 4 ≤ x) :
    (s.ponerPuntero m b k v).mem x = s.mem x :=
  store32_of_disjoint h

theorem puntero_ponerPuntero (b k v : ℤ) :
    (s.ponerPuntero m b k v).puntero m b k = unsigned v :=
  load32_store32 _ _ _

theorem conMem_fill_mem {a : ℤ} {k : ℕ} {v : UInt8} {x : ℤ} (h : x < a ∨ a + k ≤ x) :
    (s.conMem (fill s.mem a k v)).mem x = s.mem x :=
  fill_of_disjoint h

end Escrituras

/-! ## The table of nodes and the data blocks -/

theorem nodo_eq (m : Montaje) (i : ℤ) : m.nodo i = m.nodo 0 + 4096 * i := by
  rw [Montaje.nodo, Montaje.nodo, tamanioBloque]
  ring

theorem bloque_eq (m : Montaje) (b : ℤ) : m.bloque b = m.bloque m.base + 4096 * (b - m.base) := by
  rw [Montaje.bloque, Montaje.bloque, tamanioBloque]
  ring

/-- The bitmap comes before the table. -/
theorem nodo_cero (m : Montaje) : m.nodo 0 = bitmapStart + 4100 * m.tamanioBitmap := by
  rw [Montaje.nodo, bitmapStart, headerStart, headerStart, tamanioHeader, tamanioBloque]
  ring

/-- The data blocks come after the table; between them and the table there is room. -/
theorem bloque_base (m : Montaje) : m.bloque m.base = m.nodo 0 + 4198400 := by
  rw [Montaje.nodo, Montaje.bloque, headerStart, headerStart, tamanioHeader, tamanioBloque]
  ring

/-- A header with the number of a data block is among the data blocks. -/
theorem headerStart_eq (m : Montaje) (b : ℤ) :
    headerStart b = m.bloque m.base + 4100 * (b - m.base) := by
  rw [Montaje.bloque, Montaje.base, headerStart, headerStart, tamanioHeader, tamanioBloque]
  ring

/-! ## The part of the table in use -/

/-- The slots from `n` on are not in use. -/
def LibreDesde (m : Montaje) (s : Estado) (n : ℕ) : Prop := ∀ k : ℕ, n ≤ k → s.estado m k = borrado

namespace LibreDesde

variable {m : Montaje} {s s' : Estado} {n k : ℕ}

theorem lt_of_ne (h : LibreDesde m s n) (hvivo : s.estado m k ≠ borrado) : k < n :=
  not_le.1 fun hle => hvivo (h k hle)

theorem of_mem (h : LibreDesde m s n)
    (hmem : ∀ k : ℕ, n ≤ k → s'.mem (dirEstado m k) = s.mem (dirEstado m k)) :
    LibreDesde m s' n :=
  fun k hk => (hmem k hk).trans (h k hk)

/-- Bytes stored in the slot `i` leave the slots after it alone. -/
theorem conMem_store (h : LibreDesde m s n) {i : ℕ} (hi : i < n) {a : ℤ} {l : List UInt8}
    (hl : a + l.length ≤ m.nodo i + 4096) : LibreDesde m (s.conMem (store s.mem a l)) n := by
  refine h.of_mem fun k hk => store_of_disjoint (.inr ?_)
  have hi' := nodo_eq m i
  have hk' := nodo_eq m k
  rw [dirEstado]
  omega

/-- A name that none of the slots in use has in its directory does not resolve. -/
theorem nodoDe_eq_neg_one (h : LibreDesde m s n) {path : List UInt8}
    (madre nombre : List UInt8) (hpartes : dividirRuta path = some (madre, nombre))
    (hno : ∀ k < n, coincide m s (unsigned (nodoDe m s madre)) nombre k = false) :
    nodoDe m s path = -1 := by
  rw [nodoDe_eq _ _ hpartes]
  refine (buscarNodo_eq_neg_one_or m s _ _).resolve_right ?_
  rintro ⟨k, -, -, hcoincide⟩
  rcases lt_or_ge k n with hlt | hge
  · rw [hno k hlt] at hcoincide
    cases hcoincide
  · rw [coincide, h k hge, bne_self_eq_false, Bool.and_false] at hcoincide
    cases hcoincide

end LibreDesde

end Sac
