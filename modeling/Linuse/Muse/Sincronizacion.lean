import Linuse.Muse.Obtencion

/-!
# Writing a mapped file

`musesync` gathers the bytes of a range of a mapped segment, page by page, in a buffer of
the size of a `size_t`, and writes them to the file at a place that comes from the page and
the address. The pages after the first are copied over it, a range that ends with a page
gives NULL, and the file is emptied when it is opened. Nobody closes the stream, and what is
gathered is never enough to fill its buffer, so that the bytes stay there and the file stays
empty: what is left right is to write no byte to an empty file (`syncCorrecto_iff`).
-/

namespace Muse

open Memory Marked Wire

/-! ## The code -/

section Sync

variable (cfg : Configuracion) (sizeT bufsiz : ℕ)

/-- The buffer that is asked for: the size of a `size_t`. -/
def bufferSync : List UInt8 := (List.range sizeT).map fun i : ℕ => cfg.basura i

/-- `memcpy` to the start of the buffer, which has to have place for it. -/
def copiarAlBuffer (buffer l : List UInt8) : Codigo (List UInt8) :=
  if buffer.length < l.length then fail else pure (l ++ buffer.drop l.length)

/-- The loop of `obtenerDatosActualizados` over the pages after the first: each one is copied to
the start of the buffer; `none` is NULL. -/
def copiarSiguientes (seg : Segmento) :
    ℕ → Pagina → ℤ → List UInt8 → Codigo (Option (List UInt8))
  | 0, _, _, _ => fail
  | fuel + 1, unaPagina, bytesACopiar, datos => do
      let s ← gets id
      let siguiente := elemento seg.tablaPaginas
        (obtenerIndicePagina s seg.tablaPaginas unaPagina + 1)
      if siguiente = none ∨ bytesACopiar ≤ 0 then return none
      else do
        let p ← orFail siguiente
        let pag ← pagina p
        let pos := pag.numeroFrame * cfg.tamanioPag
        if cfg.tamanioPag ≤ bytesACopiar then do
          let datos ← copiarAlBuffer datos (bytesAt s.memoria pos cfg.tamanioPag)
          copiarSiguientes seg fuel pag (bytesACopiar - cfg.tamanioPag) datos
        else do
          let datos ← copiarAlBuffer datos (bytesAt s.memoria pos bytesACopiar.toNat)
          return some datos

/-- `obtenerDatosActualizados`. -/
def obtenerDatosActualizados (frame desplazamiento : ℤ) (len : ℕ) (seg : Segmento)
    (unaPagina : Pagina) : Codigo (Option (List UInt8)) := do
  let s ← gets id
  let pos := frame * cfg.tamanioPag + desplazamiento
  let enPagina := cfg.tamanioPag - desplazamiento
  if len < enPagina then do
    let datos ← copiarAlBuffer (bufferSync cfg sizeT) (bytesAt s.memoria pos len)
    return some datos
  else do
    let datos ← copiarAlBuffer (bufferSync cfg sizeT) (bytesAt s.memoria pos enPagina.toNat)
    copiarSiguientes cfg seg (len + 1) unaPagina (signed len - enPagina) datos

/-- Bytes that reach a file at a place: what is before it and was never written is zero. -/
def Estado.escribirArchivo (s : Estado) (path : List UInt8) (pos : ℕ) (l : List UInt8) : Estado :=
  let contenido := (s.archivos path).getD []
  let nuevo := if l = [] then contenido
    else contenido.take pos ++ List.replicate (pos - contenido.length) 0 ++ l ++
      contenido.drop (pos + l.length)
  { s with archivos := fun p => if p = path then some nuevo else s.archivos p }

/-- `fwrite` of some bytes after `fseek`, to a stream with a buffer of `bufsiz` bytes: the
whole buffers reach the file, and the rest stays in the stream. -/
def Estado.fwrite (s : Estado) (path : List UInt8) (pos : ℕ) (l : List UInt8) : Estado :=
  s.escribirArchivo path pos (l.take (l.length / bufsiz * bufsiz))

/-- What `fwrite` takes of a pointer that may be NULL. -/
def leerDatos (len : ℕ) (datos : Option (List UInt8)) : Codigo (List UInt8) :=
  if len = 0 then pure []
  else do
    let datos ← orFail datos
    if datos.length < len then fail else return datos.take len

def musesync (addr : ℤ) (len idSocketCliente : ℕ) : Codigo ℤ := do
  let s ← gets id
  let listaSegmentos ← orFail (s.tablasSegmentos.get idSocketCliente)
  let desplazamiento := addr % cfg.tamanioPag
  let g ← obtener listaSegmentos (idSegmentoQueContieneDireccion s listaSegmentos addr)
  let unSegmento ← segmento g
  let p ← obtener unSegmento.tablaPaginas
    (unsigned (addr - unSegmento.baseLogica) / cfg.tamanioPag)
  let unaPagina ← pagina p
  let indicePrimeraPagina := obtenerIndicePagina s unSegmento.tablaPaginas unaPagina
  if unSegmento.esComun = true then return -1
  else do
    let path ← orFail unSegmento.filePath
    let datosAActualizar ← obtenerDatosActualizados cfg sizeT unaPagina.numeroFrame
      desplazamiento len unSegmento unaPagina
    modify fun s => s.abrirW path
    let datos ← leerDatos len datosAActualizar
    modify fun s => s.fwrite bufsiz path
      (indicePrimeraPagina * cfg.tamanioPag + desplazamiento).toNat datos
    -- no `fclose` and no `fflush`
    return 0

end Sync

/-! ## What a right write is -/

/-- The contents of a file, if any. -/
def contenidoDe (s : Estado) (path : List UInt8) : List UInt8 := (s.archivos path).getD []

/-- The byte is in a page that the range touches. -/
def Tocado (tam o len x : ℕ) : Prop := ∃ k < len, x / tam = (o + k) / tam

/-- The file has the bytes of the range and is as it was out of the pages of the range; a
segment for blocks changes no file. -/
structure SyncCorrecto (cfg : Configuracion) (sizeT bufsiz : ℕ) (s : Estado) (sd : ℕ)
    (seg : Segmento) (addr : ℤ) (len : ℕ) : Prop where
  mapeado : seg.esComun = false → ∀ path, seg.filePath = some path → ∃ s' marcas,
    Runs (musesync cfg sizeT bufsiz addr len sd) s 0 s' marcas ∧
      (∀ k < len, (contenidoDe s' path)[(addr - seg.baseLogica).toNat + k]? =
        some (byteDe cfg s seg ((addr - seg.baseLogica).toNat + k))) ∧
      ∀ x, ¬ Tocado cfg.tamanioPag (addr - seg.baseLogica).toNat len x →
        (contenidoDe s' path)[x]? = (contenidoDe s path)[x]?
  comun : seg.esComun = true → ∃ s' marcas,
    Runs (musesync cfg sizeT bufsiz addr len sd) s (-1) s' marcas ∧ s'.archivos = s.archivos

/-- The pages of the segment in memory are in different frames. -/
def Distintas (s : Estado) (seg : Segmento) : Prop :=
  ∀ (i j p q : ℕ) (pag qag : Pagina), i ≠ j → seg.tablaPaginas[i]? = some p →
    seg.tablaPaginas[j]? = some q → s.paginas[p]? = some pag → s.paginas[q]? = some qag →
    pag.presencia = true → qag.presencia = true → pag.numeroFrame ≠ qag.numeroFrame

variable {cfg : Configuracion} {sizeT bufsiz : ℕ} {s t : Estado} {seg : Segmento}

/-! ## Pages and files -/

/-- A page in memory is the only one of its contents. -/
theorem obtenerIndicePagina_eq (hdistintas : Distintas s seg) {i p : ℕ} {pag : Pagina}
    (hp : seg.tablaPaginas[i]? = some p) (hpag : s.paginas[p]? = some pag)
    (hpres : pag.presencia = true) : obtenerIndicePagina s seg.tablaPaginas pag = i := by
  have hfirst : seg.tablaPaginas.findIdx? (fun q => s.paginas[q]? == some pag) = some i := by
    obtain ⟨hlt, hi⟩ := List.getElem?_eq_some_iff.1 hp
    rw [List.findIdx?_eq_some_iff_getElem]
    refine ⟨hlt, by rw [hi, hpag]; exact beq_self_eq_true _, fun j hj => ?_⟩
    by_contra heq
    have hjlt := hj.trans hlt
    have hq : s.paginas[seg.tablaPaginas[j]]? = some pag := by simpa using heq
    exact hdistintas j i _ p pag pag hj.ne (List.getElem?_eq_getElem _) hp hq hpag hpres hpres rfl
  rw [obtenerIndicePagina, hfirst]
  rfl

/-- What does not fill the buffer of the stream does not reach a file that was just emptied. -/
theorem contenidoDe_fwrite (t : Estado) (path : List UInt8) (pos : ℕ) {l : List UInt8}
    (h : l.length < bufsiz) :
    contenidoDe ((t.abrirW path).fwrite bufsiz path pos l) path = [] := by
  rw [Estado.fwrite, Nat.div_eq_of_lt h, Nat.zero_mul, List.take_zero, contenidoDe,
    Estado.escribirArchivo, Estado.abrirW]
  simp

/-! ## What is gathered -/

section Datos

variable {ok : Estado → Suceso → Prop}

theorem triple_copiarAlBuffer (b l : List UInt8) :
    Triple ok (· = t) (copiarAlBuffer b l) fun b' s => s = t ∧ b'.length = b.length := by
  refine triple_ite (fun _ => triple_fail) fun hcabe => exec_pure ⟨rfl, ?_⟩
  rw [List.length_append, List.length_drop]
  omega

/-- The loop over the pages after the first: the buffer keeps its size. -/
theorem triple_copiarSiguientes (fuel : ℕ) (unaPagina : Pagina) (bytesACopiar : ℤ)
    (datos : List UInt8) :
    Triple ok (· = t) (copiarSiguientes cfg seg fuel unaPagina bytesACopiar datos) fun r s =>
      s = t ∧ ∀ datos', r = some datos' → datos'.length = datos.length := by
  induction fuel generalizing unaPagina bytesACopiar datos with
  | zero => exact triple_fail
  | succ fuel ih =>
      refine exec_gets (triple_ite (fun _ => ?_) fun _ => triple_orFail_bind fun p _ =>
        exec_pagina fun pag _ => triple_ite (fun _ => ?_) fun _ => ?_)
      · exact exec_pure ⟨rfl, by simp⟩
      · refine exec_bind (triple_copiarAlBuffer _ _) ?_
        rintro b' s ⟨rfl, hlargo⟩
        rw [← hlargo]
        exact ih pag _ b'
      · refine exec_bind (triple_copiarAlBuffer _ _) ?_
        rintro b' s ⟨rfl, hlargo⟩
        exact exec_pure ⟨rfl, fun datos' h => Option.some.inj h ▸ hlargo⟩

/-- What is gathered has the size of a `size_t`, if it is not NULL. -/
theorem triple_obtenerDatosActualizados (frame desplazamiento : ℤ) (len : ℕ)
    (unaPagina : Pagina) :
    Triple ok (· = t)
      (obtenerDatosActualizados cfg sizeT frame desplazamiento len seg unaPagina)
      fun r s => s = t ∧ ∀ datos, r = some datos → datos.length = sizeT := by
  have hbuffer : (bufferSync cfg sizeT).length = sizeT := by simp [bufferSync]
  refine exec_gets (triple_ite (fun _ => ?_) fun _ => ?_)
  · refine exec_bind (triple_copiarAlBuffer _ _) ?_
    rintro b s ⟨rfl, hlargo⟩
    exact exec_pure ⟨rfl, fun datos h => Option.some.inj h ▸ hlargo.trans hbuffer⟩
  · refine exec_bind (triple_copiarAlBuffer _ _) ?_
    rintro b s ⟨rfl, hlargo⟩
    rw [← hlargo.trans hbuffer]
    exact triple_copiarSiguientes _ _ _ b

/-- `fwrite` takes no more than there is at the pointer. -/
theorem triple_leerDatos (len : ℕ) {r : Option (List UInt8)}
    (h : ∀ datos, r = some datos → datos.length = sizeT) :
    Triple ok (· = t) (leerDatos len r) fun l s => s = t ∧ l.length ≤ sizeT := by
  refine triple_ite (fun _ => exec_pure ⟨rfl, Nat.zero_le _⟩) fun _ =>
    triple_orFail_bind fun datos hdatos =>
      triple_ite (fun _ => triple_fail) fun _ => exec_pure ⟨rfl, ?_⟩
  rw [List.length_take, h datos hdatos]
  exact Nat.min_le_right _ _

end Datos

/-! ## What a run does -/

/-- What `musesync` does in the segment of the address, from the page that has it. -/
theorem runs_musesync_iff {sd : ℕ} {addr : ℤ} {len p : ℕ} {pag : Pagina} {r : ℤ} {s' : Estado}
    {marcas : List (Estado × Suceso)} (hprimero : PrimeroCon s sd seg addr)
    (hbase : 0 ≤ addr - seg.baseLogica) (haddr : addr - seg.baseLogica < 4294967296)
    (hdentro : addr - seg.baseLogica < seg.tamanio)
    (hp : seg.tablaPaginas[(addr - seg.baseLogica).toNat / cfg.tamanioPag]? = some p)
    (hpag : s.paginas[p]? = some pag) :
    Runs (musesync cfg sizeT bufsiz addr len sd) s r s' marcas ↔
      Runs (if seg.esComun = true then return -1
        else do
          let path ← orFail seg.filePath
          let datosAActualizar ← obtenerDatosActualizados cfg sizeT pag.numeroFrame
            (addr % cfg.tamanioPag) len seg pag
          modify fun s => s.abrirW path
          let datos ← leerDatos len datosAActualizar
          modify fun t => t.fwrite bufsiz path
            (obtenerIndicePagina s seg.tablaPaginas pag * cfg.tamanioPag +
              addr % cfg.tamanioPag).toNat datos
          return 0) s r s' marcas := by
  have hunsigned : unsigned (addr - seg.baseLogica) = addr - seg.baseLogica :=
    unsigned_eq_self hbase haddr
  obtain ⟨segmentos, j, g, hget, hid, hj, hseg⟩ :=
    ubica_of_primeroCon hprimero (by rw [hunsigned]; exact hdentro)
  have hindice : (addr - seg.baseLogica) / cfg.tamanioPag =
      ((addr - seg.baseLogica).toNat / cfg.tamanioPag : ℕ) := by
    rw [Int.natCast_ediv, Int.toNat_of_nonneg hbase]
  rw [musesync, (runs_gets id s).bind_iff]
  simp only [id_eq]
  rw [(runs_orFail hget s).bind_iff, hid, (runs_obtener hj s).bind_iff,
    (runs_segmento hseg).bind_iff, hunsigned, hindice, (runs_obtener hp s).bind_iff,
    (runs_pagina hpag).bind_iff]

/-- After the write of a range of a mapped segment the file is empty. -/
theorem contenidoDe_of_runs_musesync {sd : ℕ} {addr : ℤ} {len p : ℕ} {pag : Pagina} {r : ℤ}
    {path : List UInt8} {s' : Estado} {marcas : List (Estado × Suceso)}
    (hbuffer : sizeT < bufsiz) (hprimero : PrimeroCon s sd seg addr)
    (hbase : 0 ≤ addr - seg.baseLogica) (haddr : addr - seg.baseLogica < 4294967296)
    (hdentro : addr - seg.baseLogica < seg.tamanio)
    (hp : seg.tablaPaginas[(addr - seg.baseLogica).toNat / cfg.tamanioPag]? = some p)
    (hpag : s.paginas[p]? = some pag) (hmapa : seg.esComun = false)
    (hpath : seg.filePath = some path)
    (h : Runs (musesync cfg sizeT bufsiz addr len sd) s r s' marcas) :
    contenidoDe s' path = [] := by
  rw [runs_musesync_iff hprimero hbase haddr hdentro hp hpag, if_neg (by simp [hmapa]),
    (runs_orFail hpath s).bind_iff] at h
  refine h.post (Q := fun _ s' => contenidoDe s' path = [])
    (exec_bind (triple_obtenerDatosActualizados _ _ _ _) ?_)
  rintro datos t ⟨rfl, hdatos⟩
  refine exec_modify (exec_bind (triple_leerDatos len hdatos) ?_)
  rintro l u ⟨rfl, hlargo⟩
  exact exec_modify (exec_pure (contenidoDe_fwrite t path _ (lt_of_le_of_lt hlargo hbuffer)))

/-- To write no byte of a mapped segment empties the file. -/
theorem runs_musesync_cero {sd : ℕ} {addr : ℤ} {p : ℕ} {pag : Pagina} {path : List UInt8}
    (hprimero : PrimeroCon s sd seg addr) (hbase : 0 ≤ addr - seg.baseLogica)
    (haddr : addr - seg.baseLogica < 4294967296) (hdentro : addr - seg.baseLogica < seg.tamanio)
    (hp : seg.tablaPaginas[(addr - seg.baseLogica).toNat / cfg.tamanioPag]? = some p)
    (hpag : s.paginas[p]? = some pag) (hmapa : seg.esComun = false)
    (hpath : seg.filePath = some path) :
    ∃ s', Runs (musesync cfg sizeT bufsiz addr 0 sd) s 0 s' [] := by
  have hpos : (0 : ℤ) < cfg.tamanioPag := by exact_mod_cast cfg.positivo
  have hresto := Int.emod_lt_of_pos addr hpos
  have hdatos : Runs (obtenerDatosActualizados cfg sizeT pag.numeroFrame (addr % cfg.tamanioPag) 0
      seg pag) s (some (bufferSync cfg sizeT)) s [] := by
    rw [obtenerDatosActualizados, (runs_gets id s).bind_iff]
    simp only [id_eq]
    rw [if_pos (by push_cast; omega)]
    exact (runs_pure _ s).bind (runs_pure _ s)
  refine ⟨(s.abrirW path).fwrite bufsiz path (obtenerIndicePagina s seg.tablaPaginas pag *
    cfg.tamanioPag + addr % cfg.tamanioPag).toNat [], ?_⟩
  rw [runs_musesync_iff hprimero hbase haddr hdentro hp hpag, if_neg (by simp [hmapa]),
    (runs_orFail hpath s).bind_iff]
  exact hdatos.bind ((runs_modify _ s).bind ((runs_pure [] _).bind
    ((runs_modify _ _).bind (runs_pure _ _))))

/-! ## When the write is right -/

/-- The page of an address of a segment whose pages are in memory. -/
theorem Completo.pagina (h : Completo cfg s seg) {x : ℕ} (hx : (x : ℤ) < seg.tamanio) :
    EnMemoria s seg (x / cfg.tamanioPag) := by
  refine h.presentes _ ?_
  rw [Nat.div_lt_iff_lt_mul cfg.positivo, mul_comm]
  have htam := h.tamanio
  omega

/-- A right write of a mapped segment writes no byte, to an empty file. -/
theorem sinBytes_of_syncCorrecto {sd : ℕ} {addr : ℤ} {len : ℕ} {path : List UInt8}
    (hbuffer : sizeT < bufsiz) (hcompleto : Completo cfg s seg)
    (hprimero : PrimeroCon s sd seg addr) (hbase : seg.baseLogica ≤ addr)
    (haddr : addr < 4294967296) (hdentro : addr - seg.baseLogica < seg.tamanio)
    (hmapa : seg.esComun = false) (hpath : seg.filePath = some path)
    (h : SyncCorrecto cfg sizeT bufsiz s sd seg addr len) :
    len = 0 ∧ contenidoDe s path = [] := by
  have hcero := hcompleto.base
  obtain ⟨p, pag, hp, hpag, _, _⟩ :=
    hcompleto.pagina (x := (addr - seg.baseLogica).toNat) (by omega)
  obtain ⟨s', marcas, hr, hrango, hfuera⟩ := h.mapeado hmapa path hpath
  have hnil := contenidoDe_of_runs_musesync hbuffer hprimero (by omega) (by omega) hdentro hp
    hpag hmapa hpath hr
  rw [hnil] at hrango hfuera
  have hlen : len = 0 := by
    by_contra hne
    exact absurd (hrango 0 (Nat.pos_of_ne_zero hne)) (by simp)
  refine ⟨hlen, List.ext_getElem? fun x => (hfuera x ?_).symm⟩
  rintro ⟨k, hk, _⟩
  omega

/-- The write of a range in a segment whose pages are in memory, with streams whose buffer is
larger than a `size_t`, is right if and only if the segment is for blocks, or no byte is
written and the file is empty. -/
theorem syncCorrecto_iff {sd : ℕ} {addr : ℤ} {len : ℕ} (hbuffer : sizeT < bufsiz)
    (hcompleto : Completo cfg s seg) (hprimero : PrimeroCon s sd seg addr)
    (hbase : seg.baseLogica ≤ addr) (haddr : addr < 4294967296)
    (hdentro : addr - seg.baseLogica < seg.tamanio) :
    SyncCorrecto cfg sizeT bufsiz s sd seg addr len ↔
      (seg.esComun = false → ∀ path, seg.filePath = some path →
        len = 0 ∧ contenidoDe s path = []) := by
  constructor
  · intro h hmapa path hpath
    exact sinBytes_of_syncCorrecto hbuffer hcompleto hprimero hbase haddr hdentro hmapa hpath h
  · intro h
    have hcero := hcompleto.base
    have hnoneg : 0 ≤ addr - seg.baseLogica := by omega
    have hcampo : addr - seg.baseLogica < 4294967296 := by omega
    obtain ⟨p, pag, hp, hpag, _, _⟩ :=
      hcompleto.pagina (x := (addr - seg.baseLogica).toNat) (by omega)
    refine ⟨fun hmapa path hpath => ?_, fun hcomun => ⟨s, [], ?_, rfl⟩⟩
    · obtain ⟨rfl, hvacio⟩ := h hmapa path hpath
      obtain ⟨s', hr⟩ : ∃ s', Runs (musesync cfg sizeT bufsiz addr 0 sd) s 0 s' [] :=
        runs_musesync_cero hprimero hnoneg hcampo hdentro hp hpag hmapa hpath
      have hnil := contenidoDe_of_runs_musesync hbuffer hprimero hnoneg hcampo hdentro hp hpag
        hmapa hpath hr
      refine ⟨s', [], hr, fun k hk => absurd hk (by omega), fun x _ => ?_⟩
      rw [hnil, hvacio]
    · rw [runs_musesync_iff hprimero hnoneg hcampo hdentro hp hpag, if_pos hcomun]
      exact runs_pure _ s

/-- The segment of a file, with one page. -/
def segmentoDeUnArchivo : Segmento := ⟨false, some [97], 0, 1048576, 32, [0], 0, []⟩

/-- A process with that segment, for a file of 40 bytes. -/
def conUnArchivo : Estado :=
  { conUnBloque with
    segmentos := [segmentoDeUnArchivo], archivos := soloArchivo (List.replicate 40 65) }

theorem completo_conUnArchivo : Completo (unFrame 2) conUnArchivo segmentoDeUnArchivo where
  base := by decide
  tamanio := by decide
  campo := by decide
  presentes i hi := by
    have h0 : i = 0 := Nat.lt_one_iff.1 hi
    subst h0
    exact ⟨0, ⟨true, 0, -1⟩, rfl, by decide +kernel, rfl, by decide +kernel⟩
  archivo _ := rfl

theorem primeroCon_conUnArchivo (addr : ℤ) : PrimeroCon conUnArchivo 4 segmentoDeUnArchivo addr :=
  ⟨[0], 0, 0, get_conUnBloque, rfl, rfl, rfl, fun _ _ _ hi => absurd hi (by omega)⟩

theorem distintas_conUnArchivo : Distintas conUnArchivo segmentoDeUnArchivo := by
  intro i j p q pag qag hne hi hj
  have hcero : ∀ {i p : ℕ}, segmentoDeUnArchivo.tablaPaginas[i]? = some p → i = 0 := by
    intro i p hi
    exact Nat.lt_one_iff.1 (List.getElem?_eq_some_iff.1 hi).1
  exact absurd ((hcero hi).trans (hcero hj).symm) hne

/-- The process with the file empty. -/
def conArchivoVacio : Estado := { conUnArchivo with archivos := soloArchivo [] }

theorem completo_conArchivoVacio : Completo (unFrame 2) conArchivoVacio segmentoDeUnArchivo :=
  ⟨completo_conUnArchivo.base, completo_conUnArchivo.tamanio, completo_conUnArchivo.campo,
    completo_conUnArchivo.presentes, completo_conUnArchivo.archivo⟩

theorem syncCorrecto_iff_conArchivoVacio :
    SyncCorrecto (unFrame 2) 4 4096 conArchivoVacio 4 segmentoDeUnArchivo 1048577 0 :=
  (syncCorrecto_iff (by decide) completo_conArchivoVacio (primeroCon_conUnArchivo 1048577)
    (by decide) (by decide) (by decide)).2 fun _ _ _ => ⟨rfl, rfl⟩

/-- The write of two bytes of the first page empties the file, and they stay in the stream. -/
theorem not_syncCorrecto : ¬ ∀ cfg sizeT bufsiz s sd seg addr len, sizeT < bufsiz →
    Completo cfg s seg → PrimeroCon s sd seg addr → Distintas s seg → seg.baseLogica ≤ addr →
    addr < 4294967296 → addr - seg.baseLogica < seg.tamanio →
    addr - seg.baseLogica + (len : ℕ) ≤ seg.tamanio →
    SyncCorrecto cfg sizeT bufsiz s sd seg addr len := by
  intro h
  have hcorrecto := h (unFrame 2) 4 4096 conUnArchivo 4 segmentoDeUnArchivo 1048577 2
    (by decide) completo_conUnArchivo (primeroCon_conUnArchivo _) distintas_conUnArchivo
    (by decide) (by decide) (by decide) (by decide)
  have hsin := sinBytes_of_syncCorrecto (by decide) completo_conUnArchivo
    (primeroCon_conUnArchivo 1048577) (by decide) (by decide) (by decide) rfl rfl hcorrecto
  exact absurd hsin.1 (by decide)

end Muse
