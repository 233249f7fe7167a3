import Linuse.Memory.Flat
import Linuse.Transition.Marked
import Linuse.Collections.Dictionary

/-!
# State of the memory server

The tables of the server: the frames, the pages, the segments of each process and
the bits of the swap slots. Pages and segments are reached through pointers, which
are positions in `paginas` and `segmentos`; neither is ever freed. A pointer into
the main memory is the offset from its start.
-/

namespace Muse

open Memory Marked

/-- The configuration, and what the code finds in memory: the address of the main
memory, the address of the text of each socket, the field of the dictionary of tables
that has the place of the size of a list, and the bytes that nobody wrote. -/
structure Configuracion where
  tamanioMemoria : ℕ
  tamanioPag : ℕ
  tamanioSwap : ℕ
  positivo : 0 < tamanioPag
  memoriaPrincipal : ℤ
  direccionClave : ℕ → ℤ
  tamanioDiccionario : ℤ
  basura : ℤ → UInt8

namespace Configuracion

variable (cfg : Configuracion)

def cantidadFrames : ℕ := cfg.tamanioMemoria / cfg.tamanioPag

def cantidadPaginasSwap : ℕ := cfg.tamanioSwap / cfg.tamanioPag

/-- `bitarray_get_max_bit(bitmapSwap)`: the array is created with as many bytes as
there are pages of swap. -/
def maxBitSwap : ℕ := 8 * cfg.cantidadPaginasSwap

end Configuracion

/-- `sizeof(struct HeapMetadata)`. -/
def tamanioMetadata : ℤ := 5

structure HeapLista where
  direccionHeap : ℤ
  isFree : Bool
  size : ℤ
  estaPartido : Bool
  bytesPrimeraPagina : ℤ
  deriving DecidableEq

structure Segmento where
  esComun : Bool
  filePath : Option (List UInt8)
  id : ℤ
  baseLogica : ℤ
  tamanio : ℤ
  tablaPaginas : List ℕ
  paginasLiberadas : ℤ
  metadatas : List HeapLista
  deriving DecidableEq

structure Pagina where
  presencia : Bool
  numeroFrame : ℤ
  indiceSwap : ℤ
  deriving DecidableEq

structure Frame where
  modificado : Bool
  uso : Bool
  estaLibre : Bool
  deriving DecidableEq

structure Estado where
  frames : List Frame
  punteroClock : ℕ
  paginas : List Pagina
  segmentos : List Segmento
  tablasSegmentos : Dictionary ℕ (List ℕ)
  clientSocket : List ℕ
  bitmapSwap : List Bool
  memoria : Mem
  swap : Mem
  posicionSwap : ℤ
  archivos : List UInt8 → Option (List UInt8)

/-- The branches that the results about frames and swap slots depend on. -/
inductive Suceso
  /-- `asignarUnFrame` has no free frame and replaces this one. -/
  | reemplaza (frame : ℕ)
  /-- The page goes to swap. -/
  | aSwap (pagina : ℕ)
  /-- `obtenerPosicionMemoriaPagina` brings back a page that is in swap. -/
  | carga (pagina : ℕ)
  /-- `traerAMemoriaPrincipal` looks for a frame for the page. -/
  | trae (pagina : ℕ)
  deriving DecidableEq

/-- The code of the server: NULL dereferences fail. -/
abbrev Codigo (α : Type) : Type := Marked Estado Suceso α

/-! ## Pointers -/

namespace Estado

variable (s : Estado)

/-- `list_get(bitmapFrames, i)`. -/
def frame (i : ℤ) : Option Frame := if i < 0 then none else s.frames[i.toNat]?

def modificarFrame (i : ℤ) (f : Frame → Frame) : Estado :=
  if i < 0 then s else { s with frames := s.frames.modify i.toNat f }

def modificarPagina (p : ℕ) (f : Pagina → Pagina) : Estado :=
  { s with paginas := s.paginas.modify p f }

def modificarSegmento (g : ℕ) (f : Segmento → Segmento) : Estado :=
  { s with segmentos := s.segmentos.modify g f }

/-- Bytes copied to an offset of the main memory. -/
def copiar (a : ℤ) (l : List UInt8) : Estado := { s with memoria := store s.memoria a l }

end Estado

/-- `list_get` of the list that a computation reads. -/
def obtener {α : Type} (l : List α) (i : ℤ) : Codigo α :=
  orFail (if i < 0 then none else l[i.toNat]?)

def pagina (p : ℕ) : Codigo Pagina := do
  let paginas ← gets Estado.paginas
  orFail paginas[p]?

def segmento (g : ℕ) : Codigo Segmento := do
  let segmentos ← gets Estado.segmentos
  orFail segmentos[g]?

/-- A frame that the code changes through its pointer. -/
def tocarFrame (i : ℤ) (f : Frame → Frame) : Codigo Unit := do
  let s ← gets id
  let _ ← orFail (s.frame i)
  modify fun s => s.modificarFrame i f

end Muse
