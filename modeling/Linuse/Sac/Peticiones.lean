import Linuse.Sac.Consultas

/-!
# The requests of a client

The operations that the thread of a client runs, with the arguments that the
request brings, and what each of them produces for the reply.
-/

namespace Sac

open Memory Locks

inductive Peticion
  | create (ahora : ℕ) (path : Ruta)
  | read (path : Ruta) (size offset : ℤ)
  | readDir (path : Ruta)
  | getAttr (ahora : ℕ) (path : Ruta)
  | mkdir (path : Ruta)
  | unlink (path : Ruta)
  | rmdir (path : Ruta)
  | write (ahora : ℕ) (path : Ruta) (offset : ℤ) (buf : List UInt8)
  | truncate (path : Ruta) (espacioNuevo : ℤ)
  | rename (pathAntiguo nuevoPath : Ruta)

/-- What an operation gives to the code that answers the client: a result, the
bytes of a read, or the messages that it has sent. -/
inductive Producto
  | resultado (res : ℤ)
  | leido (res : ℤ) (texto : List UInt8)
  | mensajes (enviados : List (List UInt8))
  deriving DecidableEq

/-- The operation of a request. -/
def Peticion.codigo (m : Montaje) (basura : ℕ → UInt8) (fuel : ℕ) : Peticion → Codigo Producto
  | create ahora path => do
      let res ← oCreate m ahora path
      return .resultado res
  | read path size offset => do
      let leido ← oRead m path size offset
      return .leido leido.1 leido.2
  | readDir path => do
      let enviados ← oReadDir m basura path
      return .mensajes enviados
  | getAttr ahora path => do
      let enviados ← oGetAttr m basura ahora path
      return .mensajes enviados
  | mkdir path => do
      let res ← oMkdir m path
      return .resultado res
  | unlink path => do
      let res ← oUnlink m fuel path
      return .resultado res
  | rmdir path => do
      let res ← oRmdir m fuel path
      return .resultado res
  | write ahora path offset buf => do
      let res ← oWrite m fuel ahora path offset buf
      return .resultado res
  | truncate path espacioNuevo => do
      let res ← oTruncate m fuel path espacioNuevo
      return .resultado res
  | rename pathAntiguo nuevoPath => do
      let res ← oRename m pathAntiguo nuevoPath
      return .resultado res

end Sac
