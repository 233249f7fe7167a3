import Linuse.Muse.Frames

/-!
# Segments

How the segment of a process is created and extended, with the headers of its
blocks, and the requests that allocate and free a block. A header is described by an
element of `metadatas` and its five bytes are written in the memory.
-/

namespace Muse

open Memory Marked Wire

section Segmentos

variable (cfg : Configuracion)

/-- The bytes of a `struct HeapMetadata`. -/
def bytesMetadata (size : ℤ) (isFree : Bool) : List UInt8 :=
  toBytes 4 (unsigned size).toNat ++ [if isFree then 1 else 0]

/-- Bytes found beyond a header in memory, at a distance of `k` headers. -/
def restoMetadata (k : ℤ) : List UInt8 :=
  (List.range (tamanioMetadata - k).toNat).map fun i : ℕ => cfg.basura (tamanioMetadata * k + i)

/-! ## Pages of a segment -/

/-- `obtenerIndicePagina`: the first page whose fields are equal. -/
def obtenerIndicePagina (s : Estado) (tabla : List ℕ) (pag : Pagina) : ℤ :=
  indice (tabla.findIdx? fun q => s.paginas[q]? == some pag)

/-- A page in frame `f`, at the end of the table of the segment. -/
def Estado.agregarPagina (s : Estado) (g f : ℕ) : Estado :=
  let conPagina : Estado := { s with paginas := s.paginas ++ [⟨true, f, -1⟩] }
  conPagina.modificarSegmento g fun seg =>
    { seg with tablaPaginas := seg.tablaPaginas ++ [s.paginas.length] }

/-- A page with a frame of its own, which is returned. -/
def paginaNueva (g : ℕ) : Codigo ℕ := do
  let f ← asignarUnFrame cfg
  tocarFrame f fun _ => ⟨true, true, false⟩
  let s ← gets id
  modify fun s => s.agregarPagina g f
  return s.paginas.length

def crecer (g : ℕ) (paginas : ℤ) : Codigo Unit :=
  modify fun s => s.modificarSegmento g fun seg =>
    { seg with tamanio := unsigned (seg.tamanio + paginas * cfg.tamanioPag) }

def agregarHeap (g : ℕ) (heap : HeapLista) : Codigo Unit :=
  modify fun s => s.modificarSegmento g fun seg =>
    { seg with metadatas := seg.metadatas ++ [heap] }

/-- The header does not fit in what is left of its page: it goes on in a new page. -/
def partirMetadata (g p : ℕ) (pos ubicacionHeap bytesPrimeraPagina : ℤ) (isFree : Bool)
    (size : ℤ) : Codigo Unit := do
  agregarHeap g ⟨ubicacionHeap, isFree, signed size, true, bytesPrimeraPagina⟩
  modify fun s => s.copiar pos ((bytesMetadata size isFree).take bytesPrimeraPagina.toNat)
  let segundaPagina ← paginaNueva cfg g
  crecer cfg g 1
  let pos ← obtenerPosicionMemoriaPagina cfg segundaPagina
  modify fun s => s.copiar pos (restoMetadata cfg bytesPrimeraPagina)
  let _ ← obtenerPosicionMemoriaPagina cfg p

/-- `ubicarMetadataYHeapLista` in the page number `pag`, counting from 1; the result
tells whether the header is split. -/
def ubicarMetadataYHeapLista (g : ℕ) (ubicacionHeap : ℤ) (isFree : Bool) (size pag : ℤ) :
    Codigo Bool := do
  let seg ← segmento g
  let p ← obtener seg.tablaPaginas (pag - 1)
  let primera ← pagina p
  tocarFrame primera.numeroFrame fun f => { f with modificado := true, uso := true }
  let desplazamiento := ubicacionHeap.tmod cfg.tamanioPag
  let pos ← obtenerPosicionMemoriaPagina cfg p
  if cfg.tamanioPag - desplazamiento < tamanioMetadata then do
    partirMetadata cfg g p (pos + desplazamiento) ubicacionHeap (cfg.tamanioPag - desplazamiento)
      isFree size
    return true
  else do
    agregarHeap g ⟨ubicacionHeap, isFree, signed size, false, tamanioMetadata⟩
    modify fun s => s.copiar (pos + desplazamiento) (bytesMetadata size isFree)
    return false

/-- `asignarPrimeraPaginaSegmento`: the first page, with the header of the first
block. -/
def asignarPrimeraPaginaSegmento (g : ℕ) (tamanio : ℤ) : Codigo Bool := do
  let primeraPagina ← paginaNueva cfg g
  let pag ← pagina primeraPagina
  let seg ← segmento g
  let s ← gets id
  let pos := obtenerIndicePagina s seg.tablaPaginas pag * cfg.tamanioPag
  let sePartio ← ubicarMetadataYHeapLista cfg g pos false tamanio 1
  crecer cfg g (if sePartio then 2 else 1)
  return sePartio

/-- `asignarUltimaPaginaSegmento`: a header in the last page that the segment has. -/
def asignarUltimaPaginaSegmento (g : ℕ) (tamanioUltimaMetadata : ℤ) : Codigo Unit := do
  let seg ← segmento g
  let p ← obtener seg.tablaPaginas (seg.tablaPaginas.length - 1)
  let pag ← pagina p
  let direccionHeap := pag.numeroFrame * cfg.tamanioPag +
    (cfg.tamanioPag - tamanioMetadata + tamanioUltimaMetadata)
  let _ ← ubicarMetadataYHeapLista cfg g direccionHeap
    (decide (cfg.tamanioPag - tamanioUltimaMetadata ≠ 0))
    (cfg.tamanioPag - tamanioUltimaMetadata) seg.tablaPaginas.length
  crecer cfg g 1

/-- `asignarNuevaPagina`: a page without headers. -/
def asignarNuevaPagina (g : ℕ) : Codigo Unit := do
  let _ ← paginaNueva cfg g
  crecer cfg g 1

/-- The loop that gives pages to a segment until there is place for `bytes`, the last
of them with a header. -/
def asignarPaginas (g : ℕ) : ℕ → ℤ → Codigo Unit
  | 0, _ => pure ()
  | paginasNecesarias + 1, bytes =>
      if cfg.tamanioPag < bytes then do
        asignarNuevaPagina cfg g
        asignarPaginas g paginasNecesarias (bytes - cfg.tamanioPag)
      else do
        asignarUltimaPaginaSegmento cfg g bytes
        asignarPaginas g paginasNecesarias 0

/-- `ceil` of the bytes over the size of a page. -/
def paginasPara (bytes : ℤ) : ℤ := -(-bytes / cfg.tamanioPag)

/-- Changes the last header of a segment. -/
def Estado.modificarUltimoHeap (s : Estado) (g : ℕ) (f : HeapLista → HeapLista) : Estado :=
  s.modificarSegmento g fun seg =>
    { seg with metadatas := seg.metadatas.modify (seg.metadatas.length - 1) f }

/-- `obtenerTamanioSegmento` of the segment in a list. -/
def obtenerTamanioSegmento (segmentosProceso : List ℕ) (idSegmento : ℤ) : Codigo ℤ := do
  let g ← obtener segmentosProceso idSegmento
  let seg ← segmento g
  return seg.tamanio

/-- The logical base of a segment that comes after these. -/
def baseNueva (segmentosProceso : List ℕ) : Codigo ℤ :=
  if segmentosProceso = [] then pure (unsigned cfg.memoriaPrincipal)
  else do
    let tamanio ← obtenerTamanioSegmento segmentosProceso (segmentosProceso.length - 1)
    return unsigned (tamanio + 1 + cfg.memoriaPrincipal)

/-- A new segment, which is in no list yet. -/
def Estado.agregarSegmento (s : Estado) (seg : Segmento) : Estado :=
  { s with segmentos := s.segmentos ++ [seg] }

def Estado.ponerTabla (s : Estado) (idSocketCliente : ℕ) (segmentos : List ℕ) : Estado :=
  { s with tablasSegmentos := s.tablasSegmentos.put idSocketCliente segmentos }

/-- `crearSegmento`: the segment is in the list of its process at the end only. -/
def crearSegmento (tamanio : ℤ) (idSocketCliente : ℕ) : Codigo ℕ := do
  let s ← gets id
  let segmentosProceso ← orFail (s.tablasSegmentos.get idSocketCliente)
  let base ← baseNueva cfg segmentosProceso
  let g := s.segmentos.length
  modify fun s => s.agregarSegmento ⟨true, none, segmentosProceso.length, base, 0, [], 0, []⟩
  let tamanioAlocado := unsigned (tamanio + 2 * tamanioMetadata)
  let sePartio ← asignarPrimeraPaginaSegmento cfg g (signed tamanio)
  let primeras : ℤ := if sePartio then 2 else 1
  modify fun s => s.modificarUltimoHeap g fun heap =>
    { heap with size := signed tamanio, isFree := false }
  asignarPaginas cfg g (paginasPara cfg tamanioAlocado - primeras).toNat
    (signed tamanioAlocado - primeras * cfg.tamanioPag)
  modify fun s => s.ponerTabla idSocketCliente (segmentosProceso ++ [g])
  return g

/-- `extenderSegmento`: the last header becomes the one of the new block. -/
def extenderSegmento (g : ℕ) (tamanio : ℤ) : Codigo Unit := do
  let seg ← segmento g
  let ultimo ← obtener seg.metadatas (seg.metadatas.length - 1)
  let bytesAAgregar := signed (tamanio + tamanioMetadata) - if ultimo.isFree then ultimo.size else 0
  modify fun s => s.modificarUltimoHeap g fun heap =>
    { heap with size := signed tamanio, isFree := false }
  asignarPaginas cfg g (paginasPara cfg bytesAAgregar).toNat bytesAAgregar

/-! ## `musemalloc` -/

/-- The address of the data of a block, after its header. -/
def direccionDatos (g : ℕ) (heap : HeapLista) : Codigo ℤ := do
  let seg ← segmento g
  if heap.estaPartido then do
    let p ← obtener seg.tablaPaginas (heap.direccionHeap / cfg.tamanioPag + 1)
    let pos ← obtenerPosicionMemoriaPagina cfg p
    return cfg.memoriaPrincipal + pos +
      (tamanioMetadata - (cfg.tamanioPag - heap.direccionHeap.tmod cfg.tamanioPag))
  else do
    let p ← obtener seg.tablaPaginas (heap.direccionHeap / cfg.tamanioPag)
    let pos ← obtenerPosicionMemoriaPagina cfg p
    return cfg.memoriaPrincipal + pos + heap.direccionHeap.tmod cfg.tamanioPag + tamanioMetadata

/-- `buscarSegmentoConTamanioDisponible`. -/
def buscarSegmentoConTamanioDisponible (s : Estado) (segmentosProceso : List ℕ) (tamanio : ℤ) :
    Option ℕ :=
  segmentosProceso.find? fun g => s.segmentos[g]?.any fun seg =>
    seg.metadatas.any fun heap => heap.isFree && decide (tamanio ≤ heap.size)

/-- The address of the first free block with the size, which is not marked. -/
def reutilizar (segmentosProceso : List ℕ) (tamanio : ℤ) : Codigo (Option ℤ) := do
  let s ← gets id
  (buscarSegmentoConTamanioDisponible s segmentosProceso
      (signed (tamanio + tamanioMetadata))).elim (pure none) fun g => do
    let seg ← segmento g
    (seg.metadatas.find? fun heap => heap.isFree && decide (tamanio ≤ unsigned heap.size)).elim
      (pure none) fun heap => do
        let direccion ← direccionDatos cfg g heap
        return some direccion

/-- `esExtendible` for the segment at a position of the list. -/
def esExtendible (segmentosProceso : List ℕ) (unIndice : ℕ) (tamanio : ℤ) : Codigo Bool := do
  let ultimo ← obtener segmentosProceso (segmentosProceso.length - 1)
  let ultimoSegmento ← segmento ultimo
  let g ← obtener segmentosProceso unIndice
  let seg ← segmento g
  if seg.esComun = true ∧ ultimoSegmento.id = seg.id then return true
  else do
    let heap ← obtener seg.metadatas (seg.metadatas.length - 1)
    return seg.esComun &&
      decide (paginasPara cfg (unsigned (tamanio - heap.size + tamanioMetadata)) ≤
        seg.paginasLiberadas)

/-- The first position with a segment that can be extended. -/
def buscarExtendible (segmentosProceso : List ℕ) (tamanio : ℤ) : List ℕ → Codigo (Option ℕ)
  | [] => pure none
  | j :: posiciones => do
      let extendible ← esExtendible cfg segmentosProceso j tamanio
      if extendible then return segmentosProceso[j]?
      else buscarExtendible segmentosProceso tamanio posiciones

/-- The address of the block at the last header but one, after extending. -/
def extender (g : ℕ) (tamanio : ℤ) : Codigo ℤ := do
  extenderSegmento cfg g tamanio
  let seg ← segmento g
  let ultimoHeap ← obtener seg.metadatas (seg.metadatas.length - 2)
  direccionDatos cfg g ultimoHeap

/-- The address of the first block of a new segment. -/
def enSegmentoNuevo (tamanio : ℤ) (idSocketCliente : ℕ) : Codigo ℤ := do
  let g ← crearSegmento cfg tamanio idSocketCliente
  let seg ← segmento g
  let heap ← obtener seg.metadatas 0
  direccionDatos cfg g heap

/-- The first allocation of a process. -/
def enPrimerSegmento (tamanio : ℤ) (idSocketCliente : ℕ) : Codigo ℤ := do
  let g ← crearSegmento cfg tamanio idSocketCliente
  let seg ← segmento g
  let primeraPagina ← obtener seg.tablaPaginas 0
  let pos ← obtenerPosicionMemoriaPagina cfg primeraPagina
  return cfg.memoriaPrincipal + pos + tamanioMetadata

/-- An allocation of a process that has segments. -/
def enSegmentos (segmentosProceso : List ℕ) (tamanio : ℤ) (idSocketCliente : ℕ) : Codigo ℤ := do
  let reutilizada ← reutilizar cfg segmentosProceso tamanio
  reutilizada.elim
    (do
      let extendible ← buscarExtendible cfg segmentosProceso (signed tamanio)
        (List.range segmentosProceso.length)
      extendible.elim (enSegmentoNuevo cfg tamanio idSocketCliente) fun g =>
        extender cfg g tamanio)
    pure

/-- `musemalloc`; `none` is NULL. -/
def musemalloc (tamanio : ℤ) (idSocketCliente : ℕ) : Codigo (Option ℤ) := do
  let s ← gets id
  (s.tablasSegmentos.get idSocketCliente).elim (pure none) fun segmentosProceso => do
    let direccion ← if segmentosProceso = [] then enPrimerSegmento cfg tamanio idSocketCliente
      else enSegmentos cfg segmentosProceso tamanio idSocketCliente
    return some direccion

/-! ## `musefree` -/

/-- `segmentoQueContieneDireccion`. -/
def segmentoQueContieneDireccion (s : Estado) (segmentosProceso : List ℕ) (direccion : ℤ) :
    Option ℕ :=
  segmentosProceso.find? fun g => s.segmentos[g]?.any fun seg =>
    decide (unsigned (direccion - seg.baseLogica) < seg.tamanio)

/-- The header is written again, free, in the page before the one that holds the
data. -/
def reescribirMetadata (seg : Segmento) (indicePagina : ℤ) (heap : HeapLista) : Codigo Unit := do
  let p ← obtener seg.tablaPaginas indicePagina
  let pos ← obtenerPosicionMemoriaPagina cfg p
  let desplazamiento := heap.direccionHeap.tmod cfg.tamanioPag
  if heap.estaPartido then do
    let segundaPagina ← obtener seg.tablaPaginas (indicePagina + 1)
    modify fun s => s.copiar (pos + desplazamiento)
      ((bytesMetadata heap.size true).take heap.bytesPrimeraPagina.toNat)
    let pos ← obtenerPosicionMemoriaPagina cfg segundaPagina
    modify fun s => s.copiar pos (restoMetadata cfg heap.bytesPrimeraPagina)
  else modify fun s => s.copiar (pos + desplazamiento) (bytesMetadata heap.size true)

/-- `musefree` in a segment; a block that is not found leaves a pointer that was never
set. -/
def liberar (g : ℕ) (dir : ℤ) : Codigo ℤ := do
  let seg ← segmento g
  if seg.esComun = false then return -1
  else do
    let p ← obtener seg.tablaPaginas (unsigned (dir - seg.baseLogica) / cfg.tamanioPag)
    let pag ← pagina p
    let s ← gets id
    let indicePrimeraPagina := obtenerIndicePagina s seg.tablaPaginas pag
    let _ ← obtenerPosicionMemoriaPagina cfg p
    let i ← orFail (seg.metadatas.findIdx? fun heap =>
      decide (heap.direccionHeap + tamanioMetadata = signed (dir - seg.baseLogica)))
    let heap ← obtener seg.metadatas i
    modify fun s => s.modificarSegmento g fun seg =>
      { seg with metadatas := seg.metadatas.modify i fun heap => { heap with isFree := true } }
    reescribirMetadata cfg seg (indicePrimeraPagina - 1) heap
    return if heap.size = -1 then -1 else 0

def musefree (idSocketCliente : ℕ) (dir : ℤ) : Codigo ℤ := do
  let s ← gets id
  (s.tablasSegmentos.get idSocketCliente).elim (pure (-1)) fun segmentosProceso =>
    (segmentoQueContieneDireccion s segmentosProceso dir).elim (pure (-1)) fun g =>
      liberar cfg g dir

end Segmentos

end Muse
