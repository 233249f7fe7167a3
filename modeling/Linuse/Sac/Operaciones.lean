import Linuse.Wire.Buffer
import Linuse.Sac.Rutas
import Linuse.Sac.Bloques

/-!
# The operations of the server

Every operation is the code of the thread that serves a client: it resolves its
paths, each level in its own read section, and acts inside another section of
`superLockeador`. Only the flag of `eliminarNodos` and the checks of
`eliminarRecursivamente` are used outside a lock. The sizes are those of a 32-bit
process.
-/

namespace Sac

open Memory Locks Wire

/-- `-EDQUOT`. -/
def edquot : ℤ := -122

/-- The first node that is not in use. -/
def nodoLibre (m : Montaje) (s : Estado) : Option ℕ :=
  (List.range cantidadNodos).find? fun i : ℕ => s.estado m i == borrado

section Operaciones

variable (m : Montaje)

/-! ## Removing -/

/-- What `eliminarRecursivamente` does with child `i` when it is a regular file: it
releases the blocks of node `i - 1`, with the code `libera`, and erases node `i`. -/
def eliminarArchivoCon (libera : ℕ → ℤ → ℤ → ℤ → Codigo Unit) (fuel i : ℕ) : Codigo Unit := do
  enableDeleteMode
  Prog.lock Modo.escritura
  libera fuel (i - 1) 0 0
  disableDeleteMode
  Code.modify fun s => s.ponerEstado m i borrado
  Prog.unlock Modo.escritura

/-- What it does when the child is a directory. -/
def eliminarCarpeta (recursion : ℤ → Codigo Unit) (i : ℕ) : Codigo Unit := do
  recursion (i + 1)
  Prog.lock Modo.escritura
  Code.modify fun s => s.ponerEstado m i borrado
  Prog.unlock Modo.escritura

/-- An iteration of `eliminarRecursivamente`. The conditions are read without a
lock. -/
def eliminarHijoCon (libera : ℕ → ℤ → ℤ → ℤ → Codigo Unit) (recursion : ℤ → Codigo Unit)
    (fuel : ℕ) (miNodo : ℤ) (i : ℕ) : Codigo Unit := do
  let hijo ← Code.read fun s =>
    decide (s.estado m i ≠ borrado ∧ s.padre m i = unsigned miNodo)
  if hijo then
    let archivo ← Code.read fun s => decide (s.estado m i = ocupado)
    if archivo then eliminarArchivoCon m libera fuel i
    let carpeta ← Code.read fun s => decide (s.estado m i = directorio)
    if carpeta then eliminarCarpeta m recursion i

/-- `eliminarRecursivamente` for any code that releases the blocks; the recursion ends when the
fuel is enough. -/
def eliminarRecursivamenteCon (libera : ℕ → ℤ → ℤ → ℤ → Codigo Unit) : ℕ → ℤ → Codigo Unit
  | 0, _ => .fail
  | fuel + 1, miNodo =>
      Prog.forEach
        (eliminarHijoCon m libera (eliminarRecursivamenteCon libera fuel) fuel miNodo)
        (List.range cantidadNodos)

/-- The blocks of a file are released by `eliminarNodos`. -/
def eliminarArchivo (fuel i : ℕ) : Codigo Unit := eliminarArchivoCon m (eliminarNodos m) fuel i

def eliminarHijo (recursion : ℤ → Codigo Unit) (fuel : ℕ) (miNodo : ℤ) (i : ℕ) : Codigo Unit :=
  eliminarHijoCon m (eliminarNodos m) recursion fuel miNodo i

def eliminarRecursivamente (fuel : ℕ) (miNodo : ℤ) : Codigo Unit :=
  eliminarRecursivamenteCon m (eliminarNodos m) fuel miNodo

theorem eliminarRecursivamente_succ (fuel : ℕ) (miNodo : ℤ) :
    eliminarRecursivamente m (fuel + 1) miNodo =
      Prog.forEach (eliminarHijo m (eliminarRecursivamente m fuel) fuel miNodo)
        (List.range cantidadNodos) := rfl

def oRmdir (fuel : ℕ) (path : Ruta) : Codigo ℤ := do
  let miNodo ← dameNodoDe m path.cola
  if miNodo = -1 then return -1
  else
    eliminarRecursivamente m fuel miNodo
    Prog.lock Modo.escritura
    Code.modify fun s => s.ponerEstado m (miNodo - 1) borrado
    Prog.unlock Modo.escritura
    return 0

/-- The write section of `o_rmdir2`: a node without children is erased. -/
def borrarSinHijos (miNodo : ℤ) (s : Estado) : ℤ × Estado :=
  if (List.range cantidadNodos).any fun i : ℕ =>
      s.estado m i != borrado && s.padre m i == unsigned miNodo then
    (-1, s)
  else (0, s.ponerEstado m (miNodo - 1) borrado)

def oRmdir2 (path : Ruta) : Codigo ℤ := do
  let miNodo ← dameNodoDe m path.cola
  if miNodo = -1 then return -1
  else
    Prog.lock Modo.escritura
    let respuesta ← Code.attempt fun s => some (borrarSinHijos m miNodo s)
    Prog.unlock Modo.escritura
    return respuesta

def oUnlink (fuel : ℕ) (pathC : Ruta) : Codigo ℤ := do
  let node ← dameNodoDe m pathC.cola
  enableDeleteMode
  Prog.lock Modo.escritura
  eliminarNodos m fuel (node - 1) 0 0
  Prog.unlock Modo.escritura
  disableDeleteMode
  oRmdir2 m pathC

/-! ## Names -/

/-- The write section of `o_rename`. -/
def renombrar (oldNode nuevoNodoPadre : ℤ) (nuevoNombre : List UInt8) (s : Estado) : Estado :=
  (s.ponerNombre m (oldNode - 1) nuevoNombre).ponerPadre m (oldNode - 1) nuevoNodoPadre

def oRename (pathAntiguo nuevoPath : Ruta) : Codigo ℤ := do
  let existe ← dameNodoDe m pathAntiguo.cola
  if existe = -1 then return -1
  else
    let (nuevaRuta, nuevoNombre) ← Code.orFail (dividirRuta nuevoPath.cola)
    let oldNode ← dameNodoDe m pathAntiguo.cola
    let nuevoNodoPadre ← dameNodoDe m nuevaRuta
    Prog.lock Modo.escritura
    Code.modify (renombrar m oldNode nuevoNodoPadre nuevoNombre)
    Prog.unlock Modo.escritura
    return 0

/-- The write section of `o_create`, for the time `ahora`. -/
def crearArchivo (ahora : ℕ) (nombre : List UInt8) (miNodo : ℤ) (s : Estado) :
    Option (ℤ × Estado) :=
  (nodoLibre m s).elim (some (edquot, s)) fun i => do
    let s := s.ponerEstado m i ocupado
    let s := s.ponerNombre m i nombre
    let s := s.ponerTamanio m i 0
    let s := s.ponerPadre m i miNodo
    let s := s.ponerIndirecto m i 0 0
    let s := s.ponerModificacion m i ahora
    let s := s.ponerCreacion m i ahora
    let (bloqueLibre, s) ← obtenerBloqueLibre m s
    let (_, s) ← agregarBloqueLibre m i bloqueLibre s
    return (0, s.conMem (fill s.mem (m.bloque bloqueLibre) 4096 0))

/-- The write section of `o_mkdir`. -/
def crearDirectorio (nombre : List UInt8) (nodoMadre : ℤ) (s : Estado) : Option (ℤ × Estado) :=
  (nodoLibre m s).elim (some (1, s)) fun i =>
    let s := s.ponerEstado m i directorio
    let s := s.ponerNombre m i nombre
    let s := s.ponerTamanio m i 0
    some (0, s.ponerPadre m i nodoMadre)

/-- The common shape of `o_create` and `o_mkdir`: nothing may be at the path, and
its directory must exist. -/
def oNuevo (path : Ruta)
    (crear : List UInt8 → ℤ → Estado → Option (ℤ × Estado)) : Codigo ℤ := do
  let existe ← dameNodoDe m path.cola
  if existe ≠ -1 then return 1
  else
    let (madre, nombre) ← Code.orFail (dividirRuta path.cola)
    let miNodo ← dameNodoDe m madre
    if miNodo < 0 then return 1
    else
      Prog.lock Modo.escritura
      let respuesta ← Code.attempt (crear nombre miNodo)
      Prog.unlock Modo.escritura
      return respuesta

def oCreate (ahora : ℕ) (path : Ruta) : Codigo ℤ := oNuevo m path (crearArchivo m ahora)

def oMkdir (path : Ruta) : Codigo ℤ := oNuevo m path (crearDirectorio m)

/-! ## Sizes -/

/-- What `o_truncate` does with node `i` before `finalizar`. -/
def cambiarTamanio (fuel : ℕ) (i espacioNuevo : ℤ) : Codigo ℤ := do
  let tamanio ← Code.read fun s => s.tamanio m i
  if tamanio < espacioNuevo then
    let res ← Code.attempt (darleEspacioNuevo m fuel i (espacioNuevo - tamanio))
    if res ≠ 0 then return res
    else
      Code.modify fun s => s.ponerTamanio m i espacioNuevo
      return res
  else
    eliminarNodos m fuel i (settearPosicion espacioNuevo).1 (settearPosicion espacioNuevo).2
    Code.modify fun s => s.ponerTamanio m i espacioNuevo
    return 0

/-- At `finalizar` the code takes the write lock again where it should release it. -/
def oTruncate (fuel : ℕ) (path : Ruta) (espacioNuevo : ℤ) : Codigo ℤ := do
  if espacioNuevo < 0 then return -1
  else
    let nodoMadre ← dameNodoDe m path.cola
    if nodoMadre = -1 then return -1
    else
      Prog.lock Modo.escritura
      let res ← cambiarTamanio m fuel (nodoMadre - 1) espacioNuevo
      Prog.lock Modo.escritura
      return res

/-! ## Reading -/

/-- What is left of a read: the offset, the number of bytes, the buffer so far. -/
structure Lectura where
  offset : ℤ
  queda : ℤ
  buffer : List UInt8

/-- The loop of `o_read` over the positions of pointer block `b` from `k` on. -/
def leerPunteros (s : Estado) (b : ℤ) : ℕ → ℤ → Lectura → Lectura
  | 0, _, e => e
  | n + 1, k, e =>
      if 4096 ≤ e.offset then leerPunteros s b n (k + 1) { e with offset := e.offset - 4096 }
      else
        let bloqueDeDatos := m.bloque (s.puntero m b k) + if 0 < e.offset then e.offset else 0
        let offset := if 0 < e.offset then 0 else e.offset
        if e.queda < 4096 then
          ⟨offset, 0, e.buffer ++ bytesAt s.mem bloqueDeDatos e.queda.toNat⟩
        else if e.queda = 4096 then
          ⟨offset, 0, e.buffer ++ bytesAt s.mem bloqueDeDatos 4096⟩
        else
          leerPunteros s b n (k + 1)
            ⟨offset, e.queda - 4096, e.buffer ++ bytesAt s.mem bloqueDeDatos 4096⟩

/-- The loop of `o_read` over the pointer blocks of node `i` from `p` on. -/
def leerBloques (s : Estado) (i : ℤ) : ℕ → ℤ → Lectura → Lectura
  | 0, _, e => e
  | n + 1, p, e =>
      if 4194304 < e.offset then leerBloques s i n (p + 1) { e with offset := e.offset - 4194304 }
      else
        let e := leerPunteros m s (s.indirecto m i p) 1024 0 e
        if e.queda = 0 then e else leerBloques s i n (p + 1) e

/-- The read section of `o_read`: the answer and the bytes put in the buffer. -/
def leerArchivo (i size offset : ℤ) (s : Estado) : ℤ × List UInt8 :=
  if s.tamanio m i ≤ unsigned offset then (0, [])
  else
    let size :=
      if s.tamanio m i ≤ unsigned (offset + size) then signed (s.tamanio m i - offset) else size
    (size, (leerBloques m s i 1000 0 ⟨offset, unsigned size, []⟩).buffer)

def oRead (path : Ruta) (size offset : ℤ) : Codigo (ℤ × List UInt8) := do
  let nodo ← dameNodoDe m path.cola
  if nodo = -1 then return (-1, [])
  else
    Prog.lock Modo.lectura
    let leido ← Code.read (leerArchivo m (nodo - 1) size offset)
    Prog.unlock Modo.lectura
    return leido

/-! ## Writing -/

/-- The variables of the loop of `o_write`; `buf` is what is left of the buffer. -/
structure Escritura where
  tamanio : ℤ
  tamanioArchivo : ℤ
  off : ℤ
  offsetEnBloque : ℤ
  buf : List UInt8

/-- Adds to the size of a file. -/
def Estado.sumarTamanio (s : Estado) (i x : ℤ) : Estado :=
  s.ponerTamanio m i (s.tamanio m i + x)

/-- The second half of an iteration: puts bytes at `bloqueDeDatos` and updates the
size. -/
def volcar (i espacioEnBloque bloqueDeDatos : ℤ) (e : Escritura) (s : Estado) :
    Escritura × Estado :=
  if 4096 ≤ e.tamanio then
    let s := s.conMem (store s.mem bloqueDeDatos (e.buf.take 4096))
    let crece := s.tamanio m i ≤ unsigned e.off
    let s := if crece then s.sumarTamanio m i 4096 else s
    (⟨e.tamanio - 4096, if crece then s.tamanio m i else e.tamanioArchivo, e.off + 4096, 0,
      e.buf.drop 4096⟩, s)
  else if e.tamanio ≤ espacioEnBloque then
    let s := s.conMem (store s.mem (bloqueDeDatos + e.offsetEnBloque)
      (e.buf.take e.tamanio.toNat))
    if s.tamanio m i ≤ unsigned e.off then
      let s := s.sumarTamanio m i e.tamanio
      (⟨0, s.tamanio m i, e.off, e.offsetEnBloque, e.buf⟩, s)
    else if s.tamanio m i ≤ unsigned (e.off + e.tamanio) then
      let s := s.ponerTamanio m i (e.off + e.tamanio)
      (⟨0, s.tamanio m i, e.off, e.offsetEnBloque, e.buf⟩, s)
    else (⟨0, e.tamanioArchivo, e.off, e.offsetEnBloque, e.buf⟩, s)
  else
    let s := s.conMem (store s.mem (bloqueDeDatos + e.offsetEnBloque)
      (e.buf.take espacioEnBloque.toNat))
    let s := s.sumarTamanio m i espacioEnBloque
    (⟨e.tamanio - espacioEnBloque, s.tamanio m i, e.off + espacioEnBloque, 0,
      e.buf.drop espacioEnBloque.toNat⟩, s)

/-- The space that the loop finds in the last block of a file of this size. -/
def espacioEnUltimo (tamanioArchivo : ℤ) : ℤ :=
  if tamanioArchivo = 0 then 4096
  else if tamanioArchivo % 4096 = 0 then 0
  else 4096 - tamanioArchivo % 4096

/-- The loop of `o_write` on node `i`: `size` is the answer when it ends. -/
def bucleWrite (ahora : ℕ) (i size : ℤ) : ℕ → Escritura → Estado → Option (ℤ × Estado)
  | 0, _, _ => none
  | n + 1, e, s =>
      if e.tamanio = 0 then some (size, s.ponerModificacion m i ahora)
      else
        let espacio := espacioEnUltimo e.tamanioArchivo
        if unsigned (e.tamanioArchivo + espacio) ≤ unsigned e.off ∧ e.tamanioArchivo ≠ 0 then
          if s.bitmapFreeBlocks = 0 then some (-1, s)
          else do
            let (nodoLibre, s) ← obtenerBloqueLibre m s
            let (res, s) ← agregarBloqueLibre m i nodoLibre s
            if res ≠ 0 then some (res, s)
            else
              let (e, s) := volcar m i 4096 (m.bloque nodoLibre) e s
              bucleWrite ahora i size n e s
        else
          let (pointer, data) := settearPosicion e.off
          let bloqueDeDatos := m.bloque (s.puntero m (s.indirecto m i pointer) data)
          let (e, s) := volcar m i espacio bloqueDeDatos e s
          bucleWrite ahora i size n e s

/-- `o_write` of the whole buffer; a path that does not resolve is logged, and the
code goes on with node -2. -/
def oWrite (fuel ahora : ℕ) (path : Ruta) (offset : ℤ) (buf : List UInt8) : Codigo ℤ := do
  let nodo ← dameNodoDe m path.cola
  let i := nodo - 1
  let tamanioArchivo ← Code.read fun s => s.tamanio m i
  Prog.lock Modo.escritura
  let res ← Code.attempt (bucleWrite m ahora i buf.length fuel
    ⟨buf.length, tamanioArchivo, offset, offset.tmod 4096, buf⟩)
  Prog.unlock Modo.escritura
  return res

end Operaciones

end Sac
