import Mathlib.Order.Bounds.Basic
import Linuse.Sac.Bitmap
import Linuse.Sac.Campos
import Linuse.Sac.Cerrojos

/-!
# Which block is taken and where it is

`obtenerBloqueLibre` looks for a clear bit from the first data block to the last bit of an array
that was created with as many bytes as the disk has blocks: it is right if and only if a block of
the disk is free (`asignaBien_iff`). A pointer block is cleared and read as an element of
`header_start`, and filled as an element of `inicioBloquesDeDatos`: they are the same bytes for the
first data block only (`concuerda_iff`).
-/

namespace Sac

open Memory Locks Locks.Code

variable {m : Montaje} {s s' : Estado} {b : ℤ}

/-! ## The free block -/

/-- Block `b` is a data block of the disk with its bit clear. -/
def LibreEnDisco (m : Montaje) (s : Estado) (b : ℤ) : Prop :=
  m.base ≤ b ∧ b < m.bloques ∧ s.testBit m b = false

/-- The second state is the first one with bit `b` set. -/
structure SoloMarca (m : Montaje) (b : ℤ) (s s' : Estado) : Prop where
  bits : ∀ c, s'.testBit m c = (decide (b = c) || s.testBit m c)
  resto : ∀ x, x ≠ bitmapStart + b / 8 → s'.mem x = s.mem x
  bitmapFreeBlocks : s'.bitmapFreeBlocks = s.bitmapFreeBlocks
  delMode : s'.delMode = s.delMode

/-- The first free block of the disk is taken, and no other bit changes; a negative number and no
change when the disk is full. -/
def AsignaBien (m : Montaje) (s : Estado) : Prop :=
  ∃ res s', obtenerBloqueLibre m s = some (res, s') ∧
    ((∃ b, LibreEnDisco m s b) → IsLeast {b | LibreEnDisco m s b} res ∧ SoloMarca m res s s') ∧
    ((¬ ∃ b, LibreEnDisco m s b) → res < 0 ∧ s' = s) ∧
    (res < 0 ∨ m.base ≤ res ∧ res < m.bloques)

theorem soloMarca_setBit (m : Montaje) (s : Estado) (b : ℤ) : SoloMarca m b s (s.setBit m b) where
  bits c := testBit_setBit s b c
  resto _ hx := setBit_of_ne s hx
  bitmapFreeBlocks := rfl
  delMode := rfl

/-- The block that the code gives is a data block. -/
theorem base_le_of_obtener {res : ℤ} (h : obtenerBloqueLibre m s = some (res, s')) :
    m.base ≤ res := by
  obtain ⟨c, hc, heq⟩ := Option.map_eq_some_iff.1 h
  cases heq
  exact (primerLibre_eq_some hc).1

theorem libre_of_asignaBien (h : AsignaBien m s) : ∃ b, LibreEnDisco m s b := by
  obtain ⟨res, s', hobtener, _, hlleno, _⟩ := h
  have hbase := base_le_of_obtener hobtener
  rw [Montaje.base] at hbase
  by_contra hno
  have hneg := (hlleno hno).1
  omega

theorem asignaBien_of_libre (h : ∃ b, LibreEnDisco m s b) : AsignaBien m s := by
  obtain ⟨b, hbase, hmax, hlibre⟩ := h
  obtain ⟨c, hc, hle⟩ := primerLibre_of_libre hbase (by rw [Montaje.maxBit]; omega) hlibre
  obtain ⟨hcbase, _, hclibre, hprimero⟩ := primerLibre_eq_some hc
  have hdisco : LibreEnDisco m s c := ⟨hcbase, by omega, hclibre⟩
  refine ⟨c, s.setBit m c, obtenerBloqueLibre_eq hc, fun _ => ⟨⟨hdisco, fun d hd => ?_⟩,
    soloMarca_setBit m s c⟩, fun hno => absurd ⟨b, hbase, hmax, hlibre⟩ hno,
    Or.inr ⟨hcbase, by omega⟩⟩
  by_contra hlt
  have hocupado := hprimero d hd.1 (not_le.1 hlt)
  rw [hd.2.2] at hocupado
  cases hocupado

/-- The allocation is right if and only if a block of the disk is free. -/
theorem asignaBien_iff (m : Montaje) (s : Estado) :
    AsignaBien m s ↔ ∃ b, LibreEnDisco m s b :=
  ⟨libre_of_asignaBien, asignaBien_of_libre⟩

/-- A disk whose blocks are all taken, and no other bit is set. -/
def discoLleno : Estado := ⟨fill (fun _ => 0) bitmapStart 150 255, 0, false⟩

/-- A full disk of 1200 blocks gives block 1200. -/
theorem not_asignaBien : ¬ ∀ (m : Montaje) (s : Estado), AsignaBien m s := by
  intro h
  obtain ⟨b, hbase, hmax, hlibre⟩ := libre_of_asignaBien (h montajeChico discoLleno)
  have hbloques : montajeChico.bloques = 1200 := rfl
  rw [Montaje.base] at hbase
  have hbyte : discoLleno.mem (bitmapStart + b / 8) = 255 := by
    rw [discoLleno]
    dsimp only
    rw [fill_of_mem (by omega) (by omega)]
  have hocupado := testBit_of_unos hbyte
  rw [hlibre] at hocupado
  cases hocupado

example : (obtenerBloqueLibre montajeChico discoLleno).map Prod.fst = some 1200 := by
  decide +kernel

/-! ## The two views of a block -/

/-- The bytes of `header_start[b]` that are cleared and read. -/
def enHeader (b : ℤ) : Set ℤ := {x | headerStart b ≤ x ∧ x < headerStart b + tamanioBloque}

/-- The bytes of block `b` in `inicioBloquesDeDatos`. -/
def enBloque (m : Montaje) (b : ℤ) : Set ℤ := {x | m.bloque b ≤ x ∧ x < m.bloque b + tamanioBloque}

/-- The state after the block with this number is released. -/
def liberarBloque (m : Montaje) (nodeToDelete : ℤ) (s : Estado) : Estado :=
  { s.cleanBit m nodeToDelete with bitmapFreeBlocks := s.bitmapFreeBlocks + 1 }

/-- Both views of block `b` are the same bytes, and the loop of `eliminarNodos` releases, at each
position of the pointer block, the data block that was recorded there. -/
structure Concuerda (m : Montaje) (b : ℤ) : Prop where
  rango : enHeader b = enBloque m b
  liberado : ∀ (s : Estado) (k nodeNumber deleteUpto : ℤ) (n : ℕ), 0 ≤ k → k < 1024 →
    k + valorModo s.delMode ≠ deleteUpto →
      (borrarDatos m b deleteUpto (n + 1) k).eval (s.ponerPuntero m b k nodeNumber) =
        (borrarDatos m b deleteUpto n (k - 1)).eval
          (liberarBloque m (unsigned nodeNumber) (s.ponerPuntero m b k nodeNumber))

theorem eval_borrarDatos_succ {b deleteUpto k : ℤ} (n : ℕ)
    (hk : k + valorModo s.delMode ≠ deleteUpto) :
    (borrarDatos m b deleteUpto (n + 1) k).eval s =
      (borrarDatos m b deleteUpto n (k - 1)).eval
        (liberarBloque m (load32 s.mem (headerStart b + 4 * k)) s) := by
  rw [borrarDatos, eval_bind, leerModo, eval_read, Option.bind_some, if_neg hk]
  simp only [eval_bind, eval_read, eval_modify, Option.bind_some]
  rfl

/-- Each block moves the two views four bytes apart. -/
theorem headerStart_sub_bloque (m : Montaje) (b : ℤ) :
    headerStart b - m.bloque b = 4 * (b - m.base) := by
  have hheader := headerStart_eq m b
  have hbloque := bloque_eq m b
  omega

theorem concuerda_base (m : Montaje) : Concuerda m m.base := by
  have heq : headerStart m.base = m.bloque m.base := by
    have hdif := headerStart_sub_bloque m m.base
    omega
  constructor
  · rw [enHeader, enBloque, heq]
  · intro s k nodeNumber deleteUpto n _ _ hk
    have hpuntero := puntero_ponerPuntero m s m.base k nodeNumber
    rw [Estado.puntero, ← heq] at hpuntero
    have hsucc := eval_borrarDatos_succ (m := m) (b := m.base)
      (s := s.ponerPuntero m m.base k nodeNumber) n hk
    rw [hsucc, hpuntero]

theorem eq_base_of_rango (h : enHeader b = enBloque m b) : b = m.base := by
  have hdif := headerStart_sub_bloque m b
  have hprimero : headerStart b ∈ enBloque m b := by
    rw [← h]
    exact ⟨le_rfl, by rw [tamanioBloque]; omega⟩
  have hprimero' : m.bloque b ∈ enHeader b := by
    rw [h]
    exact ⟨le_rfl, by rw [tamanioBloque]; omega⟩
  have hle := hprimero.1
  have hle' := hprimero'.1
  omega

/-- The two views of a block agree if and only if it is the first data block. -/
theorem concuerda_iff (m : Montaje) (b : ℤ) : Concuerda m b ↔ b = m.base := by
  constructor
  · exact fun h => eq_base_of_rango h.rango
  · rintro rfl
    exact concuerda_base m

/-- The second data block of a disk is in two places. -/
theorem not_concuerda : ¬ ∀ (m : Montaje) (b : ℤ), m.base ≤ b → b < m.bloques → Concuerda m b := by
  intro h
  have heq := eq_base_of_rango (h montajeChico 1027 (by decide) (by decide)).rango
  exact absurd heq (by decide)

end Sac
