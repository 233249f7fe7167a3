import Linuse.Wire.Reader
import Linuse.Sac.Peticiones

/-!
# Replies

What the server sends for each request, after the operation has given its result,
and what the matching function of the client reads and returns.
-/

namespace Sac

open Memory Wire

/-! ## The server -/

section Servidor

variable (basura : ℕ → UInt8)

/-- A result after its size, the reply to most requests. -/
def bufferResultado (res : ℤ) : Option (List UInt8) :=
  sendBuffer basura (2 * 4) [(0, entero 4), (4, entero res)]

/-- The reply to a read that gave something: the result and the buffer of `size`
bytes where `o_read` put the text. -/
def bufferLectura (size res : ℤ) (texto : List UInt8) : Option (List UInt8) := do
  let texto ← memcpy (malloc basura size.toNat) 0 texto
  sendBuffer basura (4 + size.toNat) [(0, entero res), (4, texto)]

/-- The first message of `tomarPeticionRead`. -/
def responderLectura (size res : ℤ) (texto : List UInt8) : Option (List UInt8) :=
  if res = 0 then sendBuffer basura 4 [(0, entero res)] else bufferLectura basura size res texto

/-- `tomarPeticionRead`: after an error there is a second message. -/
def tomarPeticionRead (size res : ℤ) (texto : List UInt8) : Option (List UInt8) := do
  let respuesta ← responderLectura basura size res texto
  if res = -1 then
    let error ← bufferResultado basura res
    return respuesta ++ error
  else return respuesta

/-- The bytes that the server sends for a request. -/
def Peticion.respuesta : Peticion → Producto → Option (List UInt8)
  | create _ _, .resultado res => bufferResultado basura res
  | read _ size _, .leido res texto => tomarPeticionRead basura size res texto
  | readDir _, .mensajes enviados => some enviados.flatten
  | getAttr _ _, .mensajes enviados => some enviados.flatten
  | mkdir _, .resultado res => bufferResultado basura res
  | unlink _, .resultado res => bufferResultado basura res
  | rmdir _, .resultado res => bufferResultado basura res
  | write _ _ _ _, .resultado res => bufferResultado basura res
  | truncate _ _, .resultado res => bufferResultado basura res
  | rename _ _, .resultado res => bufferResultado basura res
  | _, _ => none

end Servidor

/-! ## The client -/

/-- What a function of the client returns, with the bytes or the attributes that it
hands to its caller. -/
structure Recibido where
  valor : ℤ
  texto : List UInt8 := []
  stat : Option Atributos := none
  deriving DecidableEq

/-- Reads an `int`. -/
def leerInt : Reader ℤ := do
  let n ← readNat 4
  return signed n

/-- Reads an `int` after its size. -/
def leerEntero : Reader ℤ := do
  let campo ← readField
  let n ← StateT.lift (load 4 campo)
  return signed n

/-- The functions that answer with `errno`, as it is at that moment, when the server
has failed. -/
def helloEstado (errno : ℤ) : Reader Recibido := do
  let ok ← leerEntero
  return { valor := if ok = 0 then 0 else errno }

def helloWrite : Reader Recibido := do
  let resp ← leerEntero
  return { valor := if resp = -1 then enospc else resp }

/-- The announced length is compared with 0 and not used. -/
def helloRead (size : ℤ) : Reader Recibido := do
  let tamanioTexto ← leerInt
  if tamanioTexto = 0 then return { valor := 0 }
  else
    let texto ← readBytes size.toNat
    return { valor := size, texto := texto }

/-- `-ENOENT`. -/
def enoent : ℤ := -2

/-- The names in the text are handed to the caller one by one. -/
def helloReaddir : Reader Recibido := do
  let res ← leerEntero
  if res = 0 then
    let texto ← readField
    return { valor := 0, texto := texto }
  else return { valor := enoent }

/-- A reply of 1 brings only the first three attributes. -/
def helloGetattr : Reader Recibido := do
  let res ← leerEntero
  if res = 1 then
    let mode ← leerEntero
    let nlink ← leerEntero
    let bytesEscritos ← leerEntero
    return { valor := 0, stat := some ⟨mode, nlink, bytesEscritos, 0, 0, 0⟩ }
  else if res = 0 then
    let mode ← leerEntero
    let nlink ← leerEntero
    let bytesEscritos ← leerEntero
    let modificacion ← leerEntero
    let creacion ← leerEntero
    let acceso ← leerEntero
    return { valor := 0, stat := some ⟨mode, nlink, bytesEscritos, modificacion, creacion, acceso⟩ }
  else return { valor := enoent }

/-- What the function of the client does with the reply. -/
def Peticion.recibir (errno : ℤ) : Peticion → Reader Recibido
  | create _ _ => helloEstado errno
  | read _ size _ => helloRead size
  | readDir _ => helloReaddir
  | getAttr _ _ => helloGetattr
  | mkdir _ => helloEstado errno
  | unlink _ => helloEstado errno
  | rmdir _ => helloEstado errno
  | write _ _ _ _ => helloWrite
  | truncate _ _ => helloEstado errno
  | rename _ _ => helloEstado errno

/-- The client answers the attributes of the root by itself. -/
def Peticion.SinEnvio : Peticion → Prop
  | getAttr _ path => path.cola = []
  | _ => False

instance : DecidablePred Peticion.SinEnvio
  | .getAttr _ path => inferInstanceAs (Decidable (path.cola = []))
  | .create _ _ => isFalse id
  | .read _ _ _ => isFalse id
  | .readDir _ => isFalse id
  | .mkdir _ => isFalse id
  | .unlink _ => isFalse id
  | .rmdir _ => isFalse id
  | .write _ _ _ _ => isFalse id
  | .truncate _ _ => isFalse id
  | .rename _ _ => isFalse id

end Sac
