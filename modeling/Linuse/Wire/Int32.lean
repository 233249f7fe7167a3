import Linuse.Memory.Flat
import Linuse.Wire.Reader

/-!
# Integers of 32 bits in a stream

An `int` as its four bytes, and its value read back. A value that an `int` cannot have comes back
as the one that is stored for it.
-/

namespace Wire

open Memory

/-- The four bytes of an `int`. -/
def intBytes (x : ℤ) : List UInt8 := toBytes 4 (unsigned x).toNat

/-- Reads an `int`. -/
def readInt : Reader ℤ := do
  let n ← readNat 4
  return signed n

/-- A value of an `int`. -/
def FitsInt (x : ℤ) : Prop := -2147483648 ≤ x ∧ x < 2147483648

instance (x : ℤ) : Decidable (FitsInt x) := inferInstanceAs (Decidable (_ ∧ _))

@[simp]
theorem length_intBytes (x : ℤ) : (intBytes x).length = 4 := length_toBytes 4 _

theorem intBytes_ne_nil (x : ℤ) : intBytes x ≠ [] :=
  List.ne_nil_of_length_pos (by rw [length_intBytes]; decide)

theorem reads_readInt_signed (x : ℤ) : Reads readInt (intBytes x) (signed x) := by
  have hnonneg : 0 ≤ unsigned x := Int.emod_nonneg x (by decide)
  have hlt : unsigned x < 4294967296 := Int.emod_lt_of_pos x (by decide)
  have hread := (reads_readNat (w := 4) (n := (unsigned x).toNat) (by omega)).bindPure
    fun n : ℕ => signed (n : ℤ)
  have hvalue : signed ((unsigned x).toNat : ℤ) = signed x := by
    rw [Int.toNat_of_nonneg hnonneg, signed, signed, unsigned]
    omega
  rwa [hvalue] at hread

/-- A value of an `int` is read back. -/
theorem reads_readInt {x : ℤ} (h : FitsInt x) : Reads readInt (intBytes x) x := by
  have hread := reads_readInt_signed x
  rwa [signed_eq_self h.1 h.2] at hread

end Wire
