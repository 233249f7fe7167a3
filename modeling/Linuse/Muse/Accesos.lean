import Linuse.Muse.Segmentos

/-!
# Reading and writing

The requests that copy bytes from and to a segment, and the segments that map a
file. A copy to a block walks the pages of the segment from the one that its header
gives; a read walks them from the one that the address gives.
-/

namespace Muse

open Memory Marked Wire

section Accesos

variable (cfg : Configuracion)

/-! ## Mapped files -/

/-- `fopen` with mode `w`: the file exists and is empty. -/
def Estado.abrirW (s : Estado) (path : List UInt8) : Estado :=
  { s with archivos := fun p => if p = path then some [] else s.archivos p }

/-- `musemap`, with the structure that it asks for as it was found in memory: the fields
that it does not set keep what they have. The loop that would create the pages stops
before its first pass. -/
def musemap (nuevo : Segmento) (path : List UInt8) (idSocketCliente : ℕ) : Codigo ℤ := do
  let s ← gets id
  let segmentosProceso ← orFail (s.tablasSegmentos.get idSocketCliente)
  let tamanio ← obtenerTamanioSegmento segmentosProceso (segmentosProceso.length - 1)
  modify fun s => s.abrirW path
  modify fun s => s.agregarSegmento { nuevo with
    esComun := false, filePath := some path, id := segmentosProceso.length + 1
    baseLogica := unsigned (tamanio + 1), tablaPaginas := [] }
  modify fun s => s.ponerTabla idSocketCliente (segmentosProceso ++ [s.segmentos.length - 1])
  return 0

/-- `paginasNecesariasCargadas`. -/
def paginasNecesariasCargadas (s : Estado) (primeraPagina ultimaPagina : ℤ) (tabla : List ℕ) :
    Bool :=
  (tabla.filterMap fun p => s.paginas[p]?).all fun pag =>
    !(decide (primeraPagina ≤ obtenerIndicePagina s tabla pag ∧
        obtenerIndicePagina s tabla pag ≤ ultimaPagina) &&
      (decide (pag.numeroFrame ≠ -1) || decide (pag.indiceSwap ≠ -1)))

/-- The bytes that a page of a mapped segment gets: the buffer was not filled, since
the file is not open for reading. -/
def datosMmap (puntero relleno : ℤ) (ultima : Bool) : List UInt8 :=
  let datos (k : ℤ) : List UInt8 :=
    (List.range k.toNat).map fun i : ℕ => cfg.basura (puntero + i)
  if ultima then datos (cfg.tamanioPag - relleno) ++ List.replicate relleno.toNat 0
  else datos cfg.tamanioPag

/-- The page number `i` of a mapped segment gets a frame when it has none and no
slot. -/
def traerPaginaMmap (tabla : List ℕ) (i relleno : ℤ) : Codigo Unit := do
  let p ← obtener tabla i
  let pag ← pagina p
  if pag.indiceSwap = -1 ∧ pag.numeroFrame = -1 then do
    let s ← gets id
    let indicePagina := obtenerIndicePagina s tabla pag
    let f ← asignarUnFrame cfg
    modify fun s => s.modificarPagina p fun _ => ⟨true, f, -1⟩
    tocarFrame f fun frame => { frame with uso := true, modificado := false }
    let pos ← obtenerPosicionMemoriaPagina cfg p
    modify fun s => s.copiar pos
      (datosMmap cfg (i * cfg.tamanioPag) relleno (decide (indicePagina = tabla.length - 1)))
  else pure ()

/-- `traerPaginasSegmentoMmapAMemoria`. -/
def traerPaginasSegmentoMmapAMemoria (direccion tamanio : ℤ) (seg : Segmento) : Codigo Unit := do
  let primeraPagina := direccion.tdiv cfg.tamanioPag
  let ultimaPagina := paginasPara cfg (direccion + tamanio) - 1
  let desplazamiento := direccion.tmod cfg.tamanioPag
  let s ← gets id
  if paginasNecesariasCargadas s primeraPagina ultimaPagina seg.tablaPaginas = false then do
    let path ← orFail seg.filePath
    modify fun s => s.abrirW path
    let cantidadPaginas := (ultimaPagina - primeraPagina + 1).toNat
    fold (fun _ (i : ℕ) => traerPaginaMmap cfg seg.tablaPaginas (primeraPagina + i)
      ((cantidadPaginas - i) * cfg.tamanioPag - desplazamiento - tamanio)) ()
      (List.range cantidadPaginas)
  else pure ()

/-! ## `museget` -/

/-- `idSegmentoQueContieneDireccion`: the identifier of the first segment with the
address. -/
def idSegmentoQueContieneDireccion (s : Estado) (segmentosProceso : List ℕ) (direccion : ℤ) : ℤ :=
  ((segmentosProceso.filterMap fun g => s.segmentos[g]?).find? fun seg =>
    decide (unsigned (direccion - seg.baseLogica) < seg.tamanio)).elim (-1) Segmento.id

/-- A page that is not in memory: a frame is asked for, and then another one for the
page. The result is the first. -/
def traerLeida (indicePagina : ℤ) (seg : Segmento) (idSocketCliente : ℕ) : Codigo ℤ := do
  let f ← asignarUnFrame cfg
  let _ ← traerAMemoriaPrincipal cfg indicePagina seg.id idSocketCliente
  return f

/-- The frame that a read takes a page from. -/
def frameLeido (indicePagina : ℤ) (seg : Segmento) (idSocketCliente p : ℕ) : Codigo ℤ := do
  let pag ← pagina p
  if pag.presencia then return pag.numeroFrame
  else traerLeida cfg indicePagina seg idSocketCliente

/-- The bytes of page number `i` of a segment. -/
def leerPagina (seg : Segmento) (idSocketCliente : ℕ) (i : ℤ) : Codigo (List UInt8) := do
  let p ← obtener seg.tablaPaginas i
  let frame ← frameLeido cfg i seg idSocketCliente p
  modify fun s => s.modificarPagina p fun pag => { pag with presencia := true }
  let pag ← pagina p
  tocarFrame frame fun f => { f with uso := true }
  gets fun s => bytesAt s.memoria (pag.numeroFrame * cfg.tamanioPag) cfg.tamanioPag

/-- The bytes of some pages of a segment, one after the other. -/
def leerPaginas (seg : Segmento) (idSocketCliente : ℕ) (primeraPagina : ℤ) (cantidad : ℕ) :
    Codigo (List UInt8) :=
  fold (fun leido (i : ℕ) => do
    let bytes ← leerPagina cfg seg idSocketCliente (primeraPagina + i)
    return leido ++ bytes) [] (List.range cantidad)

/-- `museget` in a segment. -/
def leerSegmento (seg : Segmento) (src : ℤ) (n : ℕ) (idSocketCliente : ℕ) :
    Codigo (Option (List UInt8)) :=
  let direccionSeg := signed (src - seg.baseLogica)
  let primeraPagina := direccionSeg / cfg.tamanioPag
  let ultimaPagina := unsigned (direccionSeg + n) / cfg.tamanioPag
  let desplazamiento := direccionSeg.tmod cfg.tamanioPag
  if n ≤ unsigned (seg.tamanio - direccionSeg) ∧
      unsigned (primeraPagina * cfg.tamanioPag + desplazamiento + n) ≤ seg.tamanio then do
    if seg.esComun = false then traerPaginasSegmentoMmapAMemoria cfg direccionSeg n seg
    let leido ← leerPaginas cfg seg idSocketCliente primeraPagina
      (ultimaPagina - primeraPagina + 1).toNat
    return some ((leido.drop desplazamiento.toNat).take n)
  else return none

/-- `museget`; `none` is NULL. -/
def museget (src : ℤ) (n : ℕ) (idSocketCliente : ℕ) : Codigo (Option (List UInt8)) := do
  let s ← gets id
  (s.tablasSegmentos.get idSocketCliente).elim (pure none) fun segmentosProceso => do
    let idSegmento := idSegmentoQueContieneDireccion s segmentosProceso src
    let g := if idSegmento < 0 then none else segmentosProceso[idSegmento.toNat]?
    g.elim (pure none) fun g => do
      let seg ← segmento g
      leerSegmento cfg seg src n idSocketCliente

/-! ## `musecpy` -/

/-- The address that a header gives to the data of its block, and the address of
their end; and whether the frames of the block go back. -/
def limitesHeap (seg : Segmento) (heap : HeapLista) (n : ℤ) : Codigo (ℤ × ℤ × Bool) := do
  let inicial := heap.direccionHeap / cfg.tamanioPag
  let q ← obtener seg.tablaPaginas (if heap.estaPartido then inicial + 1 else inicial)
  let pag ← pagina q
  let direccionInicial := cfg.memoriaPrincipal + pag.numeroFrame * cfg.tamanioPag +
    if heap.estaPartido then tamanioMetadata - heap.bytesPrimeraPagina
    else (heap.direccionHeap + tamanioMetadata).tmod cfg.tamanioPag
  let pf ← obtener seg.tablaPaginas ((heap.direccionHeap + tamanioMetadata + n) / cfg.tamanioPag)
  let paginaFinal ← pagina pf
  let direccionFinal := cfg.memoriaPrincipal + paginaFinal.numeroFrame * cfg.tamanioPag +
    (heap.direccionHeap + tamanioMetadata + n).tmod cfg.tamanioPag
  let p ← obtener seg.tablaPaginas inicial
  let paginaInicial ← pagina p
  return (direccionInicial, direccionFinal,
    decide (paginaFinal.numeroFrame < paginaInicial.numeroFrame))

/-- The first header whose block has this size and holds the address. -/
def buscarHeapDestino (seg : Segmento) (direccion n : ℤ) :
    List HeapLista → Codigo (Option HeapLista)
  | [] => pure none
  | heap :: metadatas => do
      let (direccionInicial, direccionFinal, vuelve) ← limitesHeap cfg seg heap n
      if heap.size = n ∧ signed direccionInicial ≤ direccion ∧
          (direccion ≤ signed direccionFinal ∨ vuelve = true) then
        return some heap
      else buscarHeapDestino seg direccion n metadatas

/-- A page that is not in memory: it is given a frame, and then another one when it
comes back from swap. The result is the first. -/
def traerCopiada (seg : Segmento) (p idSocketCliente : ℕ) : Codigo ℤ := do
  let f ← asignarUnFrame cfg
  modify fun s => s.modificarPagina p fun pag => { pag with numeroFrame := f }
  let pag ← pagina p
  let s ← gets id
  let _ ← traerAMemoriaPrincipal cfg (obtenerIndicePagina s seg.tablaPaginas pag) seg.id
    idSocketCliente
  return f

/-- The frame that a copy marks as modified. -/
def frameCopiado (seg : Segmento) (idSocketCliente p : ℕ) : Codigo ℤ := do
  let pag ← pagina p
  if pag.presencia then return pag.numeroFrame
  else traerCopiada cfg seg p idSocketCliente

/-- The copy to the pages from number `i` on, of what is left of the bytes. -/
def copiarPaginas (seg : Segmento) (idSocketCliente : ℕ) : ℕ → ℤ → List UInt8 → Codigo Unit
  | 0, _, _ => fail
  | fuel + 1, i, src =>
      if src = [] then pure ()
      else do
        let p ← obtener seg.tablaPaginas i
        let frame ← frameCopiado cfg seg idSocketCliente p
        let pag ← pagina p
        modify fun s => s.copiar (pag.numeroFrame * cfg.tamanioPag) (src.take cfg.tamanioPag)
        tocarFrame frame fun f => { f with uso := true, modificado := true }
        copiarPaginas seg idSocketCliente fuel (i + 1) (src.drop cfg.tamanioPag)

/-- The copy to a block: its first page and the ones after it. With pages smaller than a header
the first page may have less than no bytes, which no copy survives. -/
def copiarEnHeap (seg : Segmento) (heap : HeapLista) (direccion : ℤ) (src : List UInt8)
    (idSocketCliente : ℕ) : Codigo ℤ := do
  let inicial := heap.direccionHeap / cfg.tamanioPag + if heap.estaPartido then 1 else 0
  let desplazamiento := unsigned (direccion - seg.baseLogica) % cfg.tamanioPag
  let bytesPrimeraPagina := cfg.tamanioPag -
    if heap.estaPartido then tamanioMetadata - heap.bytesPrimeraPagina else desplazamiento
  let p ← obtener seg.tablaPaginas inicial
  let pag ← pagina p
  if bytesPrimeraPagina < 0 then fail
  else do
    modify fun s => s.copiar (pag.numeroFrame * cfg.tamanioPag + desplazamiento)
      (src.take bytesPrimeraPagina.toNat)
    tocarFrame pag.numeroFrame fun f => { f with uso := true, modificado := true }
    copiarPaginas cfg seg idSocketCliente (src.length + 1) (inicial + 1)
      (src.drop bytesPrimeraPagina.toNat)
    return 0

/-- The copy to the pages of a mapped segment after the first; the number of the page
does not advance. -/
def copiarPaginasMmap (seg : Segmento) : ℕ → ℤ → List UInt8 → Codigo Unit
  | 0, _, _ => fail
  | fuel + 1, i, src =>
      if src = [] then pure ()
      else do
        let p ← obtener seg.tablaPaginas i
        let pag ← pagina p
        modify fun s => s.copiar (pag.numeroFrame * cfg.tamanioPag) (src.take cfg.tamanioPag)
        tocarFrame pag.numeroFrame fun f => { f with uso := true, modificado := true }
        copiarPaginasMmap seg fuel i (src.drop cfg.tamanioPag)

/-- `musecpy` in a mapped segment. -/
def copiarEnMmap (seg : Segmento) (direccion : ℤ) (src : List UInt8) : Codigo ℤ := do
  let direccionSeg := unsigned (direccion - seg.baseLogica)
  traerPaginasSegmentoMmapAMemoria cfg (signed direccionSeg) src.length seg
  let primeraPagina := direccionSeg / cfg.tamanioPag
  let desplazamiento := direccionSeg % cfg.tamanioPag
  let p ← obtener seg.tablaPaginas primeraPagina
  let pag ← pagina p
  tocarFrame pag.numeroFrame fun f => { f with uso := true, modificado := true }
  if seg.tamanio < unsigned (primeraPagina * cfg.tamanioPag + desplazamiento + src.length) then
    return -1
  else do
    let bytesPrimeraPagina := (cfg.tamanioPag - desplazamiento).toNat
    modify fun s => s.copiar (pag.numeroFrame * cfg.tamanioPag + desplazamiento)
      (src.take bytesPrimeraPagina)
    copiarPaginasMmap cfg seg (src.length + 1) (primeraPagina + 1) (src.drop bytesPrimeraPagina)
    return 0

/-- `musecpy` in a segment, of all the bytes of `src`. -/
def copiarEnSegmento (g : ℕ) (dst : ℤ) (src : List UInt8) (idSocketCliente : ℕ) : Codigo ℤ := do
  let seg ← segmento g
  if seg.esComun then do
    let destino ← buscarHeapDestino cfg seg (signed dst) src.length seg.metadatas
    destino.elim (pure (-1)) fun heap => copiarEnHeap cfg seg heap dst src idSocketCliente
  else copiarEnMmap cfg seg dst src

/-- `musecpy` of the bytes of `src`. -/
def musecpy (dst : ℤ) (src : List UInt8) (idSocketCliente : ℕ) : Codigo ℤ := do
  let s ← gets id
  (s.tablasSegmentos.get idSocketCliente).elim (pure (-1)) fun segmentosProceso =>
    (segmentoQueContieneDireccion s segmentosProceso dst).elim (pure (-1)) fun g =>
      copiarEnSegmento cfg g dst src idSocketCliente

end Accesos

end Muse
