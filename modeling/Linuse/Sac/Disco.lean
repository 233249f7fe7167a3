import Linuse.Memory.Flat
import Linuse.Transition.Sequential

/-!
# The disk of the file system server

The disk file is mapped at `header_start`: header, bitmap, table of 1024 nodes and
data blocks. Addresses are offsets from `header_start`; what lies outside the
mapping (`Montaje.enMapeo`) is other memory of the process, and as a block of the
header has 4100 bytes the last data blocks lie there. The array of bits comes from a library:
the model knows that a byte consists of eight bits, all clear in a zero byte, and
that setting or cleaning one of them keeps the others.
-/

namespace Sac

open Memory Locks

/-- How a byte of a bit array packs its eight bits. -/
structure Bitarray where
  test : UInt8 → ℕ → Bool
  set : UInt8 → ℕ → UInt8
  clean : UInt8 → ℕ → UInt8
  test_zero : ∀ k, k < 8 → test 0 k = false
  test_ext : ∀ b b', (∀ k, k < 8 → test b k = test b' k) → b = b'
  test_set : ∀ b j k, j < 8 → k < 8 → test (set b j) k = (decide (j = k) || test b k)
  test_clean : ∀ b j k, j < 8 → k < 8 → test (clean b j) k = (!decide (j = k) && test b k)

/-- The mode `LSB_FIRST`: the bit with the lowest index is the least significant one. -/
def Bitarray.lsbFirst : Bitarray where
  test b k := b.toNat.testBit k
  set b j := UInt8.ofNat (b.toNat ||| 2 ^ j)
  clean b j := UInt8.ofNat ((b.toNat ||| 2 ^ j) ^^^ 2 ^ j)
  test_zero k _ := Nat.zero_testBit k
  test_ext b b' h := by
    apply UInt8.toNat_inj.1
    apply Nat.eq_of_testBit_eq
    intro k
    by_cases hk : k < 8
    · exact h k hk
    · have hle : 256 ≤ 2 ^ k := Nat.pow_le_pow_right (n := 2) (by omega) (not_lt.1 hk)
      rw [Nat.testBit_lt_two_pow (lt_of_lt_of_le b.toNat_lt hle),
        Nat.testBit_lt_two_pow (lt_of_lt_of_le b'.toNat_lt hle)]
  test_set b j k _ hk := by
    rw [UInt8.toNat_ofNat', Nat.testBit_mod_two_pow, Nat.testBit_or, Nat.testBit_two_pow,
      decide_eq_true hk, Bool.true_and, Bool.or_comm]
  test_clean b j k _ hk := by
    rw [UInt8.toNat_ofNat', Nat.testBit_mod_two_pow, Nat.testBit_xor, Nat.testBit_or,
      Nat.testBit_two_pow, decide_eq_true hk, Bool.true_and]
    cases decide (j = k) <;> cases b.toNat.testBit k <;> rfl

/-- What the server knows since it mapped the disk: the number of blocks of the
disk, the number of bitmap blocks of the header, and the bit array library. -/
structure Montaje where
  bloques : ℕ
  tamanioBitmap : ℕ
  bits : Bitarray

/-- The mapped memory and the two global variables. -/
structure Estado where
  mem : Mem
  bitmapFreeBlocks : ℤ
  delMode : Bool

/-- The two modes in which `superLockeador` is taken. -/
inductive Modo
  | lectura
  | escritura
  deriving DecidableEq

/-- The code of a thread of the server. -/
abbrev Codigo (α : Type) : Type := Code Estado Modo α

/-! ## Layout -/

/-- `sizeof(struct sac_header_t)`. -/
def tamanioHeader : ℤ := 4100

/-- `sizeof(struct sac_file_t)`, the size of a block. -/
def tamanioBloque : ℤ := 4096

/-- `&header_start[i]`. -/
def headerStart (i : ℤ) : ℤ := tamanioHeader * i

/-- `bitmap_start`. -/
def bitmapStart : ℤ := headerStart 1

namespace Montaje

variable (m : Montaje)

/-- The number of the first data block: header, bitmap and node table come before. -/
def base : ℤ := 1 + 1024 + m.tamanioBitmap

/-- `&inicioTablaDeNodos[i]`. -/
def nodo (i : ℤ) : ℤ := headerStart (1 + m.tamanioBitmap) + tamanioBloque * i

/-- The block with number `b`, `&inicioBloquesDeDatos[b - base]`. -/
def bloque (b : ℤ) : ℤ :=
  headerStart (1 + m.tamanioBitmap + 1024) + tamanioBloque * (b - m.base)

/-- The end of the mapping, which has the bytes of the disk: its blocks of 4096 bytes. -/
def mapeo : ℤ := tamanioBloque * m.bloques

/-- The bytes of the mapping. -/
def enMapeo : Set ℤ := {x | 0 ≤ x ∧ x < m.mapeo}

/-- `bitarray_get_max_bit`: the server creates the array with `get_size()` bytes. -/
def maxBit : ℕ := 8 * m.bloques

end Montaje

/-! ## The fields of a node -/

section Campos

variable (m : Montaje) (i : ℤ)

def dirEstado : ℤ := m.nodo i
def dirNombre : ℤ := m.nodo i + 1
def dirPadre : ℤ := m.nodo i + 72
def dirTamanio : ℤ := m.nodo i + 76
def dirCreacion : ℤ := m.nodo i + 80
def dirModificacion : ℤ := m.nodo i + 88
def dirIndirecto (p : ℤ) : ℤ := m.nodo i + 96 + 4 * p

end Campos

/-- `BORRADO`, `OCUPADO` and `DIRECTORIO`. -/
def borrado : UInt8 := 0
def ocupado : UInt8 := 1
def directorio : UInt8 := 2

namespace Estado

variable (m : Montaje) (s : Estado) (i : ℤ)

def estado : UInt8 := s.mem (dirEstado m i)
def padre : ℤ := load32 s.mem (dirPadre m i)
def tamanio : ℤ := load32 s.mem (dirTamanio m i)
def indirecto (p : ℤ) : ℤ := load32 s.mem (dirIndirecto m i p)

/-- The pointer at position `k` of the pointer block with number `b`. -/
def puntero (b k : ℤ) : ℤ := load32 s.mem (m.bloque b + 4 * k)

/-- `bitarray_test_bit`. -/
def testBit (b : ℤ) : Bool := m.bits.test (s.mem (bitmapStart + b / 8)) (b % 8).toNat

/-- The state with other contents of the memory. -/
def conMem (mem : Mem) : Estado := { s with mem := mem }

def ponerEstado (v : UInt8) : Estado := s.conMem (store s.mem (dirEstado m i) [v])
def ponerNombre (nombre : List UInt8) : Estado :=
  s.conMem (storeString s.mem (dirNombre m i) nombre)
def ponerPadre (v : ℤ) : Estado := s.conMem (store32 s.mem (dirPadre m i) v)
def ponerTamanio (v : ℤ) : Estado := s.conMem (store32 s.mem (dirTamanio m i) v)
def ponerCreacion (v : ℕ) : Estado := s.conMem (store64 s.mem (dirCreacion m i) v)
def ponerModificacion (v : ℕ) : Estado := s.conMem (store64 s.mem (dirModificacion m i) v)
def ponerIndirecto (p v : ℤ) : Estado := s.conMem (store32 s.mem (dirIndirecto m i p) v)
def ponerPuntero (b k v : ℤ) : Estado := s.conMem (store32 s.mem (m.bloque b + 4 * k) v)

/-- `bitarray_set_bit`. -/
def setBit (b : ℤ) : Estado :=
  s.conMem (store s.mem (bitmapStart + b / 8)
    [m.bits.set (s.mem (bitmapStart + b / 8)) (b % 8).toNat])

/-- `bitarray_clean_bit`. -/
def cleanBit (b : ℤ) : Estado :=
  s.conMem (store s.mem (bitmapStart + b / 8)
    [m.bits.clean (s.mem (bitmapStart + b / 8)) (b % 8).toNat])

end Estado

end Sac
