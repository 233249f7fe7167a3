import Linuse.Wire.Buffer
import Linuse.Sac.Operaciones

/-!
# Queries that answer by themselves

`o_readDir` and `o_getAttr` send their own replies: the model returns the messages
that they send, each one the buffer that the code fills field by field.
-/

namespace Sac

open Memory Locks Wire

/-- The bytes of the C string at `a`, at most `k` of them. -/
def cadena (mem : Mem) : ℕ → ℤ → List UInt8
  | 0, _ => []
  | k + 1, a => if mem a = 0 then [] else mem a :: cadena mem k (a + 1)

/-- An `int` as it is put in a message. -/
def entero (x : ℤ) : List UInt8 := toBytes 4 (unsigned x).toNat

section Consultas

variable (m : Montaje) (basura : ℕ → UInt8)

/-- The name of node `i`; the string does not go on beyond the end of the disk. -/
def nombreDeNodo (s : Estado) (i : ℕ) : List UInt8 :=
  cadena s.mem (tamanioBloque * m.bloques - dirNombre m i).toNat (dirNombre m i)

/-- The names of the children of a node, each with a `;`; the `;` of the nodes that
are not children is there too. -/
def directoriosPegoteados (s : Estado) (nodo : ℤ) : List UInt8 :=
  (List.range cantidadNodos).flatMap fun i : ℕ =>
    (if unsigned nodo = s.padre m i ∧ (s.estado m i = directorio ∨ s.estado m i = ocupado) then
      nombreDeNodo m s i else []) ++ [59]

/-- Sends a buffer, if it could be filled. -/
def enviar (buffer : Option (List UInt8)) : Codigo (List (List UInt8)) := do
  let mensaje ← Code.orFail buffer
  return [mensaje]

/-- The message for a path that does not resolve. -/
def bufferError : Option (List UInt8) :=
  sendBuffer basura (2 * 4) [(0, entero 4), (4, entero (-1))]

/-- The message with the names. -/
def bufferReadDir (texto : List UInt8) : Option (List UInt8) :=
  sendBuffer basura (3 * 4 + texto.length)
    [(0, entero 4), (4, entero 0), (2 * 4, entero texto.length), (3 * 4, texto)]

/-- The message that `o_readDir` sends first when the path does not resolve. -/
def avisarError (nodo : ℤ) : Codigo (List (List UInt8)) :=
  if nodo = -1 then enviar (bufferError basura) else return []

/-- After the message for a path that does not resolve the code goes on. -/
def oReadDir (path : Ruta) : Codigo (List (List UInt8)) := do
  let nodo ← dameNodoDe m path.cola
  let error ← avisarError basura nodo
  Prog.lock Modo.lectura
  let texto ← Code.read fun s => directoriosPegoteados m s nodo
  Prog.unlock Modo.lectura
  let respuesta ← enviar (bufferReadDir basura texto)
  return error ++ respuesta

/-- What `o_getAttr` fills of a `struct stat`. -/
structure Atributos where
  mode : ℤ
  nlink : ℤ
  size : ℤ
  mtime : ℤ
  ctime : ℤ
  atime : ℤ
  deriving DecidableEq

/-- `S_IFDIR | 0777` and `S_IFREG | 0777`. -/
def modoDirectorio : ℤ := 16895
def modoArchivo : ℤ := 33279

/-- The attributes of node `i`; the dates are cut to a `time_t`. -/
def atributos (ahora : ℕ) (i : ℤ) (s : Estado) : Atributos :=
  let mtime := load32 s.mem (dirModificacion m i)
  let ctime := load32 s.mem (dirCreacion m i)
  if s.estado m i = directorio then ⟨modoDirectorio, 2, 4096, mtime, ctime, ahora⟩
  else if s.estado m i = ocupado then ⟨modoArchivo, 1, s.tamanio m i, mtime, ctime, ahora⟩
  else ⟨0, 0, 0, 0, 0, 0⟩

/-- The reply with the attributes of a node. -/
def bufferAtributos (a : Atributos) : Option (List UInt8) :=
  sendBuffer basura (10 * 4 + 4 + 4 + 4 + 4)
    [(0, entero 4), (4, entero 0), (2 * 4, entero 4), (3 * 4, entero a.mode),
      (3 * 4 + 4, entero 4), (4 * 4 + 4, entero a.nlink), (5 * 4 + 4, entero 4),
      (6 * 4 + 4, entero a.size), (7 * 4 + 4, entero 4), (8 * 4 + 4, entero a.mtime),
      (8 * 4 + 4 + 4, entero 4), (9 * 4 + 4 + 4, entero a.ctime),
      (9 * 4 + 4 + 4 + 4, entero 4), (10 * 4 + 4 + 4 + 4, entero a.atime)]

/-- The reply for the root, which announces fewer fields. -/
def bufferRaiz : Option (List UInt8) :=
  sendBuffer basura (7 * 4 + 4)
    [(0, entero 4), (4, entero 1), (2 * 4, entero 4), (3 * 4, entero modoDirectorio),
      (3 * 4 + 4, entero 4), (4 * 4 + 4, entero 2), (5 * 4 + 4, entero 4),
      (6 * 4 + 4, entero 0)]

def oGetAttr (ahora : ℕ) (path : Ruta) : Codigo (List (List UInt8)) := do
  let nodo ← dameNodoDe m path.cola
  if nodo = -1 then enviar (bufferError basura)
  else if path.cola = [] then enviar (bufferRaiz basura)
  else
    Prog.lock Modo.lectura
    let a ← Code.read (atributos m ahora (nodo - 1))
    Prog.unlock Modo.lectura
    enviar (bufferAtributos basura a)

end Consultas

end Sac
