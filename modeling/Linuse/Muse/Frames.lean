import Linuse.Muse.Estado

/-!
# Frames and swap

How a page gets a frame: a free one, or the one that the modified clock chooses,
whose page goes to swap; and the two ways in which a page comes back from swap.
-/

namespace Muse

open Memory Marked Wire

/-- The number of entries of a dictionary. -/
def cantidadTablas (s : Estado) : ℕ := s.tablasSegmentos.toList.length

section Frames

variable (cfg : Configuracion)

/-! ## The clock -/

/-- `incrementarPunteroClockModificado`. -/
def siguiente (puntero : ℕ) : ℕ := if puntero + 1 < cfg.cantidadFrames then puntero + 1 else 0

/-- A round of the clock that changes nothing: the first of `n` frames that meets
the condition. -/
def ronda (cumple : Frame → Bool) (frames : List Frame) : ℕ → ℕ → Option ℕ
  | 0, _ => none
  | n + 1, puntero =>
      if frames[puntero]?.any cumple then some puntero
      else ronda cumple frames n (siguiente cfg puntero)

/-- The round that clears the use bit of the frames that it passes. -/
def rondaApagando (cumple : Frame → Bool) : ℕ → ℕ → List Frame → Option ℕ × List Frame
  | 0, _, frames => (none, frames)
  | n + 1, puntero, frames =>
      if frames[puntero]?.any cumple then (some puntero, frames)
      else
        rondaApagando cumple n (siguiente cfg puntero)
          (frames.modify puntero fun f => { f with uso := false })

def sinUsoNiCambios (f : Frame) : Bool := !f.uso && !f.modificado

def sinUsoConCambios (f : Frame) : Bool := !f.uso && f.modificado

/-- `clockModificado`: the frame to replace, if any round finds one. -/
def clockModificado (s : Estado) : Option ℕ × Estado :=
  let n := cfg.cantidadFrames
  let primera := ronda cfg sinUsoNiCambios s.frames n s.punteroClock
  let segunda := rondaApagando cfg sinUsoConCambios n s.punteroClock s.frames
  let tercera := ronda cfg sinUsoNiCambios segunda.2 n s.punteroClock
  let cuarta := ronda cfg sinUsoConCambios segunda.2 n s.punteroClock
  if primera.isSome then
    (primera, { s with punteroClock := siguiente cfg (primera.getD 0) })
  else
    let elegido := segunda.1.orElse fun _ => tercera.orElse fun _ => cuarta
    (elegido, { s with
      frames := segunda.2
      punteroClock := elegido.elim s.punteroClock (siguiente cfg) })

/-! ## Free frames and slots -/

/-- `buscarFrameLibre`. -/
def buscarFrameLibre (s : Estado) : Option ℕ := s.frames.findIdx? Frame.estaLibre

/-- `buscarIndiceSwapLibre`. -/
def buscarIndiceSwapLibre (s : Estado) : Option ℕ := s.bitmapSwap.findIdx? fun b => !b

/-- What the code gives where it finds no index. -/
def indice (o : Option ℕ) : ℤ := o.elim (-1) fun i => i

namespace Estado

variable (s : Estado)

/-- `bitarray_set_bit` and `bitarray_clean_bit` of `bitmapSwap`; an index of -1 has no
bit. -/
def ponerBit (i : ℤ) (b : Bool) : Estado :=
  if i < 0 then s else { s with bitmapSwap := s.bitmapSwap.set i.toNat b }

/-- `fseek(swap, i * tam_pagina, SEEK_SET)`, which fails for a negative offset. -/
def posicionar (i : ℤ) : Estado :=
  if i < 0 then s else { s with posicionSwap := i * cfg.tamanioPag }

/-- The frame is given to somebody. -/
def reservar (f : ℕ) : Estado :=
  s.modificarFrame f fun _ => ⟨true, true, false⟩

/-- The pages of a list of segments. -/
def paginasDe (segmentos : List ℕ) : List ℕ :=
  segmentos.flatMap fun g => s.segmentos[g]?.elim [] Segmento.tablaPaginas

/-- The segments of the client with position `i` in `client_socket`. -/
def segmentosDe (i : ℕ) : Option (List ℕ) :=
  s.clientSocket[i]?.bind s.tablasSegmentos.get

/-- The frame number of the page is this one. -/
def enFrame (f : ℤ) (p : ℕ) : Bool := s.paginas[p]?.any fun pag => pag.numeroFrame == f

/-- The search of `buscarPaginaAsociadaAFrame` over the clients with these positions:
it fails at one that has no table. -/
def buscarEnClientes (f : ℤ) : List ℕ → Option (Option ℕ)
  | [] => some none
  | i :: posiciones =>
      (s.segmentosDe i).bind fun segmentos =>
        ((s.paginasDe segmentos).find? (s.enFrame f)).elim (buscarEnClientes f posiciones)
          fun p => some (some p)

/-- `buscarPaginaAsociadaAFrame`: it visits as many positions of `client_socket` as
there are tables. -/
def buscarPaginaAsociadaAFrame (f : ℤ) : Option (Option ℕ) :=
  s.buscarEnClientes f (List.range (cantidadTablas s))

/-- `hayMemoriaDisponible`. -/
def hayMemoriaDisponible : Bool := s.frames.any Frame.estaLibre || s.bitmapSwap.any fun b => !b

end Estado

/-! ## To swap -/

/-- What `llevarASwapUnaPagina` copies: the structure of the page, not its data, and
what follows it in memory. -/
def fotoPagina (pag : Pagina) : List UInt8 :=
  let campo (x : ℤ) : List UInt8 := toBytes 4 (unsigned x).toNat
  ((campo (if pag.presencia then 1 else 0) ++ campo pag.numeroFrame ++ campo pag.indiceSwap) ++
    (List.range cfg.tamanioPag).map fun i : ℕ => cfg.basura i).take cfg.tamanioPag

/-- The bytes go to the place of the slot, or where the file stands. -/
def Estado.escribirSwap (s : Estado) (i : ℤ) (l : List UInt8) : Estado :=
  let s := s.posicionar cfg i
  { s with
    swap := store s.swap s.posicionSwap l
    posicionSwap := s.posicionSwap + l.length }

/-- The slot that is searched is not checked. -/
def llevarASwapUnaPagina (p : ℕ) : Codigo ℤ := do
  let pag ← pagina p
  mark (.aSwap p)
  let s ← gets id
  let bitSwap := indice (buscarIndiceSwapLibre s)
  modify fun s => s.escribirSwap cfg bitSwap (fotoPagina cfg pag)
  modify fun s => s.modificarPagina p fun _ => ⟨false, -1, bitSwap⟩
  modify fun s => s.ponerBit bitSwap true
  tocarFrame pag.numeroFrame fun _ => ⟨false, false, true⟩
  return bitSwap

/-- The page of a frame that is replaced goes to swap, if it is found. -/
def desalojar (f : ℕ) : Codigo Unit := do
  let s ← gets id
  let victima ← orFail (s.buscarPaginaAsociadaAFrame f)
  victima.elim (pure ()) fun p => do
    let _ ← llevarASwapUnaPagina cfg p

/-- The frame that the clock chooses. -/
def reemplazarFrame : Codigo ℕ := do
  let s ← gets id
  let f ← orFail (clockModificado cfg s).1
  modify fun s => (clockModificado cfg s).2
  mark (.reemplaza f)
  modify fun s => s.reservar f
  desalojar cfg f
  return f

def ocuparFrameLibre (f : ℕ) : Codigo ℕ := do
  modify fun s => s.reservar f
  return f

def asignarUnFrame : Codigo ℕ := do
  let s ← gets id
  (buscarFrameLibre s).elim (reemplazarFrame cfg) ocuparFrameLibre

/-! ## From swap -/

/-- The bytes of a page that are read where there is no page. -/
def paginaBasura (a : ℤ) : List UInt8 :=
  (List.range cfg.tamanioPag).map fun i : ℕ => cfg.basura (a + i)

/-- What `obtenerPosicionMemoriaPagina` does with a page that is in swap: it reads
its data at an offset from the structure of the file, and takes a free frame without
saying so, or -1. -/
def cargarPagina (p : ℕ) (pag : Pagina) : Codigo Unit := do
  mark (.carga p)
  let s ← gets id
  let frame := indice (buscarFrameLibre s)
  modify fun s => s.ponerBit pag.indiceSwap false
  modify fun s => s.modificarPagina p fun _ => ⟨true, frame, -1⟩
  modify fun s => s.copiar (frame * cfg.tamanioPag)
    (paginaBasura cfg (pag.indiceSwap * cfg.tamanioPag))

def obtenerPosicionMemoriaPagina (p : ℕ) : Codigo ℤ := do
  let pag ← pagina p
  if pag.presencia = false ∧ pag.indiceSwap ≠ -1 then cargarPagina cfg p pag
  let pag ← pagina p
  return pag.numeroFrame * cfg.tamanioPag

/-- The data of a slot, or of where the file stands. -/
def Estado.leerSwap (s : Estado) (i : ℤ) : List UInt8 × Estado :=
  let s := s.posicionar cfg i
  (bytesAt s.swap s.posicionSwap cfg.tamanioPag,
    { s with posicionSwap := s.posicionSwap + cfg.tamanioPag })

/-- `traerAMemoriaPrincipal` for a page and its slot. -/
def traerPagina (p : ℕ) : Codigo ℕ := do
  let pag ← pagina p
  let s ← gets id
  let datos := (s.leerSwap cfg pag.indiceSwap).1
  modify fun s => (s.leerSwap cfg pag.indiceSwap).2
  mark (.trae p)
  let frame ← asignarUnFrame cfg
  modify fun s => s.modificarPagina p fun _ => ⟨true, frame, -1⟩
  modify fun s => s.ponerBit pag.indiceSwap false
  tocarFrame frame fun f => { f with modificado := false, uso := true }
  modify fun s => s.copiar (frame * cfg.tamanioPag) datos
  return frame

def traerAMemoriaPrincipal (indicePagina indiceSegmento : ℤ) (idSocketCliente : ℕ) :
    Codigo ℕ := do
  let s ← gets id
  let segmentosProceso ← orFail (s.tablasSegmentos.get idSocketCliente)
  let g ← obtener segmentosProceso indiceSegmento
  let seg ← segmento g
  let p ← obtener seg.tablaPaginas indicePagina
  traerPagina cfg p

end Frames

end Muse
