import Linuse.Sac.Disco

/-!
# Blocks of a file

How a file gets and loses blocks: the search of a free block in the bitmap, the
pointer to it in the node, and the loops that release or add blocks when a file is
removed or its size changes. Loops whose end is not plain have fuel: the code
completes when some fuel is enough.
-/

namespace Sac

open Memory Locks

/-- `-ENOSPC`. -/
def enospc : ℤ := -28

/-- `settearPosicion`: pointer block and data block of an offset, which is an `int`
there. -/
def settearPosicion (offset : ℤ) : ℤ × ℤ :=
  ((signed offset).tdiv 4194304, ((signed offset).tmod 4194304).tdiv 4096)

section Bloques

variable (m : Montaje)

/-- The first free block from the first data block on. -/
def primerLibre (s : Estado) : Option ℤ :=
  ((List.range' m.base.toNat (m.maxBit - m.base.toNat)).find?
    fun b : ℕ => !s.testBit m b).map fun b : ℕ => (b : ℤ)

/-- `obtenerBloqueLibre`. Without a free block the code returns a variable that it
never set: the model gives no result. -/
def obtenerBloqueLibre (s : Estado) : Option (ℤ × Estado) :=
  (primerLibre m s).map fun b => (b, s.setBit m b)

/-- `agregarBloqueLibre` for node `i`: it takes a pointer block when the file has
filled its last one. The new pointer block is cleared at `header_start` and written
among the data blocks. The branch for a position of 1024 has no effect: positions
are below it. -/
def agregarBloqueLibre (i nodeNumber : ℤ) (s : Estado) : Option (ℤ × Estado) :=
  let (pointer, position) := settearPosicion (s.tamanio m i)
  if pointer = 999 ∧ position = 1023 then some (enospc, s)
  else if position = 0 then do
    let (nuevo, s) ← obtenerBloqueLibre m s
    let s := s.conMem (fill s.mem (headerStart nuevo) 4096 0)
    let s := s.ponerIndirecto m i pointer nuevo
    let s := s.ponerIndirecto m i (pointer + 1) 0
    return (0, s.ponerPuntero m nuevo position nodeNumber)
  else
    some (0, s.ponerPuntero m (s.indirecto m i pointer) position nodeNumber)

/-! ## Releasing blocks -/

/-- The global flag. -/
def leerModo : Codigo Bool := Code.read Estado.delMode

def enableDeleteMode : Codigo Unit := Code.modify fun s => { s with delMode := true }

def disableDeleteMode : Codigo Unit := Code.modify fun s => { s with delMode := false }

/-- `DELETE_MODE` as the number that the code adds. -/
def valorModo (modo : Bool) : ℤ := if modo then 1 else 0

/-- The inner loop of `eliminarNodos`: releases the data blocks of a pointer block
from position `dataPos` down; returns the position where it stops. The pointer block
is read at `header_start`. -/
def borrarDatos (aux deleteUpto : ℤ) : ℕ → ℤ → Codigo ℤ
  | 0, _ => .fail
  | n + 1, dataPos => do
      let modo ← leerModo
      if dataPos + valorModo modo = deleteUpto then return dataPos
      else
        let nodeToDelete ← Code.read fun s =>
          load32 s.mem (headerStart aux + 4 * dataPos)
        Code.modify fun s => s.cleanBit m nodeToDelete
        Code.modify fun s => { s with bitmapFreeBlocks := s.bitmapFreeBlocks + 1 }
        borrarDatos aux deleteUpto n (dataPos - 1)

/-- The outer loop of `eliminarNodos`. -/
def borrarPunteros (i pointerUpto dataUpto : ℤ) : ℕ → ℤ → ℤ → Codigo Unit
  | 0, _, _ => .fail
  | n + 1, pointerPos, dataPos => do
      let modo ← leerModo
      if dataPos = dataUpto ∧ pointerPos = pointerUpto ∧ modo = false then return ()
      else if dataPos < 0 ∨ pointerPos < 0 then return ()
      else
        let aux ← Code.read fun s => s.indirecto m i pointerPos
        let deleteUpto := if pointerPos = pointerUpto then dataUpto else 0
        let dataPos ← borrarDatos m aux deleteUpto n dataPos
        let modo ← leerModo
        if pointerPos + valorModo modo = pointerUpto then
          borrarPunteros i pointerUpto dataUpto n pointerPos dataPos
        else
          Code.modify fun s => s.cleanBit m aux
          Code.modify fun s => s.ponerIndirecto m i pointerPos 0
          borrarPunteros i pointerUpto dataUpto n (pointerPos - 1) 1023

/-- The positions from which `eliminarNodos` starts, given by the size of the file. -/
def ultimaPosicion (fileSize : ℤ) : ℤ × ℤ :=
  let (pointerPos, dataPos) := settearPosicion fileSize
  if fileSize % 4194304 = 0 then (pointerPos - 1, 1023)
  else if fileSize % 4096 = 0 then (pointerPos, dataPos - 1)
  else (pointerPos, dataPos)

/-- `eliminarNodos` on node `i`. -/
def eliminarNodos (fuel : ℕ) (i pointerUpto dataUpto : ℤ) : Codigo Unit := do
  let fileSize ← Code.read fun s => s.tamanio m i
  let (pointerPos, dataPos) := ultimaPosicion fileSize
  if pointerUpto ≠ 0 ∨ dataUpto ≠ 0 then disableDeleteMode
  borrarPunteros m i pointerUpto dataUpto fuel pointerPos dataPos

/-! ## Adding blocks -/

/-- The loop of `darleEspacioNuevo`. -/
def agregarBloques (i spaceInBlock : ℤ) : ℕ → ℤ → Estado → Option Estado
  | 0, _, _ => none
  | n + 1, size, s =>
      if spaceInBlock ≤ unsigned size then do
        let (newNode, s) ← obtenerBloqueLibre m s
        let (_, s) ← agregarBloqueLibre m i newNode s
        agregarBloques i spaceInBlock n (size - 4096)
          (s.ponerTamanio m i (s.tamanio m i + 4096))
      else some (s.ponerTamanio m i (s.tamanio m i + size))

/-- `darleEspacioNuevo` for node `i`. -/
def darleEspacioNuevo (fuel : ℕ) (i size : ℤ) (s : Estado) : Option (ℤ × Estado) :=
  let spaceInBlock := 4096 - s.tamanio m i % 4096
  if unsigned (s.bitmapFreeBlocks * 4096) < unsigned (size - spaceInBlock) then
    some (enospc, s)
  else if unsigned size ≤ spaceInBlock then
    some (0, s.ponerTamanio m i (s.tamanio m i + size))
  else
    (agregarBloques m i spaceInBlock fuel size
      (s.ponerTamanio m i (s.tamanio m i + spaceInBlock))).map fun s => (0, s)

end Bloques

end Sac
