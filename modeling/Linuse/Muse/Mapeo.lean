import Linuse.Muse.Alojamiento
import Linuse.Muse.Lectura

/-!
# Reading a mapped file

`musemap` opens the file for writing, which empties it, and makes a segment without
pages whose identifier is not its position. A read of an address of the segment finds
no segment, unless an earlier segment of the process has the address. The file is
empty and an earlier segment has every address when the reads give what they should;
and they do when that segment has zeros there, in pages that are in memory
(`lecturaFiel_condiciones`).
-/

namespace Muse

open Memory Marked

variable {cfg : Configuracion}

/-- The bytes of the file from `o` on, and zeros where it is shorter. -/
def esperado (contenido : List UInt8) (o n : ℕ) : List UInt8 :=
  (List.range n).map fun i => contenido.getD (o + i) 0

/-- Reads at distances from an address, one after the other. -/
def leerTodas (cfg : Configuracion) (base : ℤ) (sd : ℕ) :
    List (ℕ × ℕ) → Codigo (List (Option (List UInt8)))
  | [] => pure []
  | x :: lecturas => do
      let leido ← museget cfg (unsigned (base + x.1)) x.2 sd
      let leidos ← leerTodas cfg base sd lecturas
      return leido :: leidos

/-- After the map, all the reads in the segment give the contents that the file had, and
neither the map nor the reads change the file. -/
def LecturaFiel (cfg : Configuracion) (nuevo : Segmento) (path contenido : List UInt8)
    (length sd : ℕ) (s : Estado) : Prop :=
  ∃ res s₁ marcas seg, Runs (musemap nuevo path sd) s res s₁ marcas ∧
    s₁.segmentos[s.segmentos.length]? = some seg ∧ s₁.archivos path = some contenido ∧
    ∀ lecturas : List (ℕ × ℕ), (∀ x ∈ lecturas, x.1 + x.2 ≤ length) → ∃ s₂ marcas,
      Runs (leerTodas cfg seg.baseLogica sd lecturas) s₁
        (lecturas.map fun x => some (esperado contenido x.1 x.2)) s₂ marcas ∧
      s₂.archivos path = some contenido

/-- The segment that `musemap` makes. -/
def segmentoMapeado (nuevo : Segmento) (path : List UInt8) (segmentos : List ℕ) (tamanio : ℤ) :
    Segmento :=
  { nuevo with
    esComun := false, filePath := some path, id := segmentos.length + 1
    baseLogica := unsigned (tamanio + 1), tablaPaginas := [] }

/-- The state after `musemap`. -/
def mapeado (s : Estado) (path : List UInt8) (sd : ℕ) (segmentos : List ℕ) (seg : Segmento) :
    Estado :=
  ((s.abrirW path).agregarSegmento seg).ponerTabla sd (segmentos ++ [s.segmentos.length])

/-- Every address of the range, and the one after it, is in an earlier segment, at the
same distances, and there the segment has zeros in pages that are in memory. -/
def CubiertaDeCeros (cfg : Configuracion) (s : Estado) (sd : ℕ) (base : ℤ) (length : ℕ) : Prop :=
  ∃ seg x, (∀ o ≤ length, Ubica s sd seg (unsigned (base + o)) (x + o)) ∧
    Legible cfg s seg x length ∧ ∀ i < length, byteDe cfg s seg (x + i) = 0

variable {s : Estado} {sd : ℕ} {segmentos : List ℕ} {path : List UInt8}

/-! ## The map -/

/-- The last segment of a process, which gives the base of the next. -/
def Ultimo (s : Estado) (segmentos : List ℕ) (ultimo : Segmento) : Prop :=
  ∃ g, segmentos[segmentos.length - 1]? = some g ∧ s.segmentos[g]? = some ultimo

theorem runs_musemap {ultimo : Segmento} (nuevo : Segmento) (path : List UInt8)
    (hget : s.tablasSegmentos.get sd = some segmentos) (hne : segmentos ≠ [])
    (hultimo : Ultimo s segmentos ultimo) :
    Runs (musemap nuevo path sd) s 0
      (mapeado s path sd segmentos (segmentoMapeado nuevo path segmentos ultimo.tamanio)) [] := by
  obtain ⟨g, hg, hseg⟩ := hultimo
  have hlen : 0 < segmentos.length := List.length_pos_iff.2 hne
  have htamanio : Runs (obtenerTamanioSegmento segmentos (segmentos.length - 1)) s ultimo.tamanio s
      [] := by
    have hcast : ((segmentos.length : ℤ) - 1) = ((segmentos.length - 1 : ℕ) : ℤ) := by omega
    rw [hcast]
    exact (runs_obtener hg s).bind ((runs_segmento hseg).bind (runs_pure _ s))
  have hposicion : ((s.abrirW path).agregarSegmento
      (segmentoMapeado nuevo path segmentos ultimo.tamanio)).segmentos.length - 1 =
        s.segmentos.length := by
    simp [Estado.agregarSegmento, Estado.abrirW]
  have hponer := runs_modify (S := Estado) (E := Suceso)
    (fun s => s.ponerTabla sd (segmentos ++ [s.segmentos.length - 1]))
    ((s.abrirW path).agregarSegmento (segmentoMapeado nuevo path segmentos ultimo.tamanio))
  rw [hposicion] at hponer
  exact (runs_gets id s).bind ((runs_orFail hget s).bind (htamanio.bind ((runs_modify _ s).bind
    ((runs_modify _ _).bind (hponer.bind (runs_pure _ _))))))

/-- The segments of a process are there after the map. -/
theorem getElem?_mapeado (hT : Tablas s) (hget : s.tablasSegmentos.get sd = some segmentos)
    (seg : Segmento) {g : ℕ} (hg : g ∈ segmentos) :
    (mapeado s path sd segmentos seg).segmentos[g]? = s.segmentos[g]? := by
  obtain ⟨j, hj⟩ := List.getElem?_of_mem hg
  have hlt := (List.getElem?_eq_some_iff.1 (hT sd segmentos j g hget hj)).1
  rw [rasgos, List.length_map] at hlt
  exact List.getElem?_append_left hlt

theorem filterMap_mapeado (hT : Tablas s) (hget : s.tablasSegmentos.get sd = some segmentos)
    (seg : Segmento) :
    ((segmentos ++ [s.segmentos.length]).filterMap fun g =>
        (mapeado s path sd segmentos seg).segmentos[g]?) =
      (segmentos.filterMap fun g => s.segmentos[g]?) ++ [seg] := by
  have hnuevo : (mapeado s path sd segmentos seg).segmentos[s.segmentos.length]? = some seg := by
    simp [mapeado, Estado.agregarSegmento, Estado.ponerTabla, Estado.abrirW]
  rw [List.filterMap_append, List.filterMap_congr fun g hg => getElem?_mapeado hT hget seg hg]
  simp [hnuevo]

/-! ## Who has an address after the map -/

/-- An address of an earlier segment is still its own. -/
theorem idSegmento_mapeado_of_ne (hT : Tablas s) (hget : s.tablasSegmentos.get sd = some segmentos)
    (seg : Segmento) {src : ℤ} (h : idSegmentoQueContieneDireccion s segmentos src ≠ -1) :
    idSegmentoQueContieneDireccion (mapeado s path sd segmentos seg)
        (segmentos ++ [s.segmentos.length]) src =
      idSegmentoQueContieneDireccion s segmentos src := by
  rw [idSegmentoQueContieneDireccion, filterMap_mapeado hT hget, List.find?_append]
  rw [idSegmentoQueContieneDireccion] at h ⊢
  cases hfind : (segmentos.filterMap fun g => s.segmentos[g]?).find? fun seg =>
      decide (unsigned (src - seg.baseLogica) < seg.tamanio) with
  | none =>
      rw [hfind] at h
      exact absurd rfl h
  | some encontrado => rfl

/-- An address of no earlier segment is of the new one or of none. -/
theorem idSegmento_mapeado_of_eq (path : List UInt8) (hT : Tablas s)
    (hget : s.tablasSegmentos.get sd = some segmentos) (seg : Segmento) {src : ℤ}
    (h : idSegmentoQueContieneDireccion s segmentos src = -1) :
    idSegmentoQueContieneDireccion (mapeado s path sd segmentos seg)
        (segmentos ++ [s.segmentos.length]) src = -1 ∨
      idSegmentoQueContieneDireccion (mapeado s path sd segmentos seg)
        (segmentos ++ [s.segmentos.length]) src = seg.id := by
  rw [idSegmentoQueContieneDireccion, filterMap_mapeado hT hget, List.find?_append]
  rw [idSegmentoQueContieneDireccion] at h
  cases hfind : (segmentos.filterMap fun g => s.segmentos[g]?).find? fun seg =>
      decide (unsigned (src - seg.baseLogica) < seg.tamanio) with
  | none =>
      rw [Option.none_or, List.find?_singleton]
      split_ifs
      · exact Or.inr rfl
      · exact Or.inl rfl
  | some encontrado =>
      obtain ⟨g, hg, hseg⟩ := List.mem_filterMap.1 (List.mem_of_find?_eq_some hfind)
      obtain ⟨j, hj⟩ := List.getElem?_of_mem hg
      rw [hfind, Option.elim_some, (hT.rasgos_eq hget hj hseg).1] at h
      omega

/-- A read where no earlier segment has the address gives NULL. -/
theorem runs_museget_mapeado (cfg : Configuracion) (path : List UInt8) (seg : Segmento)
    (hT : Tablas s) (hget : s.tablasSegmentos.get sd = some segmentos)
    (hid : seg.id = segmentos.length + 1) {src : ℤ}
    (h : idSegmentoQueContieneDireccion s segmentos src = -1) (n : ℕ) :
    Runs (museget cfg src n sd) (mapeado s path sd segmentos seg) none
      (mapeado s path sd segmentos seg) [] := by
  have htabla : (mapeado s path sd segmentos seg).tablasSegmentos.get sd =
      some (segmentos ++ [s.segmentos.length]) := by
    rw [mapeado, Estado.ponerTabla, Dictionary.get_put_self]
  refine (runs_gets id _).bind ?_
  simp only [id_eq, htabla, Option.elim_some]
  rcases idSegmento_mapeado_of_eq path hT hget seg h with heq | heq
  · rw [heq]
    exact runs_pure none _
  · have hfuera : (segmentos ++ [s.segmentos.length])[seg.id.toNat]? = none := by
      rw [hid]
      exact List.getElem?_eq_none (by simp)
    rw [heq, if_neg (by omega), hfuera]
    exact runs_pure none _

/-! ## What the reads need -/

/-- Where the reads are right the file was empty and each address is in an earlier
segment. -/
theorem vacio_of_lecturaFiel {nuevo ultimo : Segmento} {contenido : List UInt8} {length : ℕ}
    (hT : Tablas s) (hget : s.tablasSegmentos.get sd = some segmentos) (hne : segmentos ≠ [])
    (hultimo : Ultimo s segmentos ultimo)
    (h : LecturaFiel cfg nuevo path contenido length sd s) :
    contenido = [] ∧ ∀ o ≤ length, idSegmentoQueContieneDireccion s segmentos
      (unsigned (unsigned (ultimo.tamanio + 1) + o)) ≠ -1 := by
  obtain ⟨res, s₁, marcas, seg, hr, hseg, harchivo, hlecturas⟩ := h
  have hrun := runs_musemap nuevo path hget hne hultimo
  cases hr.symm.trans hrun
  have hnuevo : seg = segmentoMapeado nuevo path segmentos ultimo.tamanio := by
    have heq : (mapeado s path sd segmentos (segmentoMapeado nuevo path segmentos
        ultimo.tamanio)).segmentos[s.segmentos.length]? =
          some (segmentoMapeado nuevo path segmentos ultimo.tamanio) := by
      simp [mapeado, Estado.agregarSegmento, Estado.ponerTabla, Estado.abrirW]
    exact Option.some.inj (hseg.symm.trans heq)
  subst hnuevo
  constructor
  · have hvacio : (mapeado s path sd segmentos (segmentoMapeado nuevo path segmentos
        ultimo.tamanio)).archivos path = some [] := if_pos rfl
    exact (Option.some.inj (hvacio.symm.trans harchivo)).symm
  · intro o ho heq
    obtain ⟨s₂, marcas₂, hleer, _⟩ := hlecturas [(o, 0)] (by simpa using ho)
    obtain ⟨leido, t, marcas₃, marcas₄, hmuseget, hresto, _⟩ := runs_bind.1 hleer
    have hnull := runs_museget_mapeado cfg path
      (segmentoMapeado nuevo path segmentos ultimo.tamanio) hT hget rfl heq 0
    cases hmuseget.symm.trans hnull
    cases hresto

/-! ## When the reads are right -/

theorem ubica_mapeado (hT : Tablas s) (hget : s.tablasSegmentos.get sd = some segmentos)
    (nuevo : Segmento) {seg : Segmento} {src : ℤ} {x : ℕ} (h : Ubica s sd seg src x) :
    Ubica (mapeado s path sd segmentos nuevo) sd seg src x := by
  obtain ⟨segmentos', j, g, hget', hid, hj, hseg, hx⟩ := h
  cases hget.symm.trans hget'
  have htabla : (mapeado s path sd segmentos nuevo).tablasSegmentos.get sd =
      some (segmentos ++ [s.segmentos.length]) := by
    rw [mapeado, Estado.ponerTabla, Dictionary.get_put_self]
  refine ⟨_, j, g, htabla, ?_, ?_, ?_, hx⟩
  · rw [idSegmento_mapeado_of_ne hT hget nuevo (by rw [hid]; omega), hid]
  · rw [List.getElem?_append_left (List.getElem?_eq_some_iff.1 hj).1]
    exact hj
  · rw [getElem?_mapeado hT hget nuevo (List.mem_of_getElem? hj)]
    exact hseg

theorem SoloMarcas.ubica {t : Estado} (h : SoloMarcas s t) {seg : Segmento} {src : ℤ} {x : ℕ}
    (hx : Ubica s sd seg src x) : Ubica t sd seg src x := by
  obtain ⟨_, l, rfl⟩ := h
  exact hx

theorem SoloMarcas.legible {t : Estado} (h : SoloMarcas s t) {seg : Segmento} {x n : ℕ}
    (hx : Legible cfg s seg x n) : Legible cfg t seg x n :=
  ⟨hx.1, hx.2.1, fun i hi hi' => h.enMemoria (hx.2.2 i hi hi')⟩

/-- A part of a range that can be read can be read. -/
theorem Legible.mono {seg : Segmento} {x o n length : ℕ} (h : Legible cfg s seg x length)
    (hle : o + n ≤ length) : Legible cfg s seg (x + o) n := by
  refine ⟨?_, h.2.1, fun i hi hi' => h.2.2 i ?_ ?_⟩
  · have := h.1
    omega
  · exact (Nat.div_le_div_right (by omega)).trans hi
  · exact hi'.trans (Nat.div_le_div_right (by omega))

/-- Reads of zeros, in a segment whose pages are in memory. -/
theorem runs_leerTodas (cfg : Configuracion) (sd : ℕ) (base : ℤ) {seg : Segmento} {x length : ℕ}
    (hcomun : seg.esComun = true)
    (lecturas : List (ℕ × ℕ)) (hlecturas : ∀ y ∈ lecturas, y.1 + y.2 ≤ length)
    (hubica : ∀ o ≤ length, Ubica s sd seg (unsigned (base + o)) (x + o))
    (hlegible : Legible cfg s seg x length) (hceros : ∀ i < length, byteDe cfg s seg (x + i) = 0) :
    ∃ t, Runs (leerTodas cfg base sd lecturas) s
      (lecturas.map fun y => some (esperado [] y.1 y.2)) t [] ∧ SoloMarcas s t := by
  induction lecturas generalizing s with
  | nil => exact ⟨s, runs_pure _ s, soloMarcas_refl s⟩
  | cons y lecturas ih =>
      have hy : y.1 + y.2 ≤ length := hlecturas y List.mem_cons_self
      obtain ⟨t, ht, hst⟩ := runs_museget (hubica y.1 (by omega)) hcomun (hlegible.mono hy)
      have hbytes : ((List.range y.2).map fun i => byteDe cfg s seg (x + y.1 + i)) =
          esperado [] y.1 y.2 := by
        refine List.map_congr_left fun i hi => ?_
        have hlt := List.mem_range.1 hi
        rw [Nat.add_assoc, hceros (y.1 + i) (by omega)]
        rfl
      rw [hbytes] at ht
      obtain ⟨u, hu, htu⟩ := ih (s := t) (fun z hz => hlecturas z (List.mem_cons_of_mem y hz))
        (fun o ho => hst.ubica (hubica o ho)) (hst.legible hlegible)
        (fun i hi => by rw [hst.byteDe_eq]; exact hceros i hi)
      exact ⟨u, ht.bind (hu.bind (runs_pure _ u)), hst.trans htu⟩

theorem lecturaFiel_of_cubierta {nuevo ultimo : Segmento} {length : ℕ} (hT : Tablas s)
    (hget : s.tablasSegmentos.get sd = some segmentos) (hne : segmentos ≠ [])
    (hultimo : Ultimo s segmentos ultimo)
    (h : CubiertaDeCeros cfg s sd (unsigned (ultimo.tamanio + 1)) length) :
    LecturaFiel cfg nuevo path [] length sd s := by
  obtain ⟨seg, x, hubica, hlegible, hceros⟩ := h
  have hcomun : seg.esComun = true := by
    obtain ⟨segmentos', j, g, hget', _, hj, hseg, _⟩ := hubica 0 (Nat.zero_le _)
    exact (hT.rasgos_eq hget' hj hseg).2
  have hvacio : (mapeado s path sd segmentos (segmentoMapeado nuevo path segmentos
      ultimo.tamanio)).archivos path = some [] := if_pos rfl
  refine ⟨0, _, [], segmentoMapeado nuevo path segmentos ultimo.tamanio,
    runs_musemap nuevo path hget hne hultimo, ?_, hvacio, fun lecturas hlecturas => ?_⟩
  · simp [mapeado, Estado.agregarSegmento, Estado.ponerTabla, Estado.abrirW]
  · obtain ⟨t, ht, hsolo⟩ := runs_leerTodas cfg sd (unsigned (ultimo.tamanio + 1))
      (s := mapeado s path sd segmentos (segmentoMapeado nuevo path segmentos ultimo.tamanio))
      hcomun lecturas hlecturas
      (fun o ho => ubica_mapeado hT hget _ (hubica o ho)) hlegible hceros
    refine ⟨t, [], ht, ?_⟩
    obtain ⟨_, l, rfl⟩ := hsolo
    exact hvacio

/-! ## Every process with a segment -/

theorem exists_ultimo (hT : Tablas s) (hget : s.tablasSegmentos.get sd = some segmentos)
    (hne : segmentos ≠ []) : ∃ ultimo, Ultimo s segmentos ultimo := by
  have hlen : segmentos.length - 1 < segmentos.length :=
    Nat.sub_one_lt (List.length_pos_iff.2 hne).ne'
  have hlast := List.getElem?_eq_getElem hlen
  have hlt := (List.getElem?_eq_some_iff.1 (hT sd segmentos _ _ hget hlast)).1
  rw [rasgos, List.length_map] at hlt
  exact ⟨_, _, hlast, List.getElem?_eq_getElem hlt⟩

theorem tablas_alcanza {tr : List (Transition.Step Estado Evento)} (hrun : Alcanza cfg tr s) :
    Tablas s := by
  have htrue : Invariante cfg (fun _ _ => True) fun _ => True :=
    ⟨DeTablas.conservado fun _ _ _ _ _ => trivial, fun _ => triple_true _,
      fun _ _ _ _ _ => trivial, fun _ _ _ => trivial, fun _ _ _ _ _ _ _ => trivial⟩
  exact (alcanza_invariante htrue (fun _ _ _ => trivial) (fun _ _ _ _ => trivial) trivial hrun
    fun _ _ _ _ _ _ _ _ => trivial).2

theorem tablas_archivos (h : Tablas s) (archivos : List UInt8 → Option (List UInt8)) :
    Tablas { s with archivos := archivos } :=
  tablas_deTablas s _ rfl rfl h

/-- In any state of the server, for a process with a segment and any files: the reads of
a map are right when the file is empty and an earlier segment has every address, with
zeros in pages that are in memory; and they are right only when the file is empty and an
earlier segment has every address. -/
theorem lecturaFiel_condiciones {tr : List (Transition.Step Estado Evento)}
    (archivos : List UInt8 → Option (List UInt8)) (nuevo : Segmento) {contenido : List UInt8}
    (length : ℕ) (hrun : Alcanza cfg tr s) (hget : s.tablasSegmentos.get sd = some segmentos)
    (hne : segmentos ≠ []) (_hcontenido : archivos path = some contenido) :
    ∃ ultimo, Ultimo s segmentos ultimo ∧
      (contenido = [] ∧ CubiertaDeCeros cfg s sd (unsigned (ultimo.tamanio + 1)) length →
        LecturaFiel cfg nuevo path contenido length sd { s with archivos := archivos }) ∧
      (LecturaFiel cfg nuevo path contenido length sd { s with archivos := archivos } →
        contenido = [] ∧ ∀ o ≤ length, idSegmentoQueContieneDireccion s segmentos
          (unsigned (unsigned (ultimo.tamanio + 1) + o)) ≠ -1) := by
  have hT : Tablas { s with archivos := archivos } := tablas_archivos (tablas_alcanza hrun) archivos
  obtain ⟨ultimo, hultimo⟩ := exists_ultimo (tablas_alcanza hrun) hget hne
  refine ⟨ultimo, hultimo, ?_, fun h => ?_⟩
  · rintro ⟨rfl, h⟩
    exact lecturaFiel_of_cubierta hT hget hne hultimo h
  · have hvacio := vacio_of_lecturaFiel hT hget hne hultimo h
    exact hvacio

/-- The only file, with these contents. -/
def soloArchivo (contenido : List UInt8) (_path : List UInt8) : Option (List UInt8) :=
  some contenido

/-- A process with one block. -/
@[irreducible] def conUnBloque : Estado :=
  Transition.final (siguienteEstado (unFrame 2)) (inicial (unFrame 2)) (unBloquePorCliente [4])

theorem alcanza_conUnBloque : Alcanza (unFrame 2) (Transition.trace (siguienteEstado (unFrame 2))
    (inicial (unFrame 2)) (unBloquePorCliente [4])) conUnBloque := by
  rw [conUnBloque]
  exact alcanza_of_acceptsAll (unFrame 2) (unBloquePorCliente [4]) (by decide +kernel)

theorem conUnBloque_tabla : conUnBloque.tablasSegmentos.get 4 = some [0] ∧
    conUnBloque.segmentos[0]?.map Segmento.tamanio = some 32 ∧
    conUnBloque.paginas[0]? = some ⟨true, 0, -1⟩ ∧
    idSegmentoQueContieneDireccion conUnBloque [0] (unsigned (unsigned (32 + 1) + (0 : ℕ))) =
      -1 := by
  decide +kernel

theorem get_conUnBloque : conUnBloque.tablasSegmentos.get 4 = some [0] := conUnBloque_tabla.1

/-- One frame of 2 MiB and a swap of two pages. -/
def unFrameGrande : Configuracion where
  __ := unFrame 2
  tamanioMemoria := 2097152
  tamanioPag := 2097152
  tamanioSwap := 4194304
  positivo := by decide

/-- A process with one block in a page of 2 MiB. -/
@[irreducible] def conUnBloqueGrande : Estado :=
  Transition.final (siguienteEstado unFrameGrande) (inicial unFrameGrande) (unBloquePorCliente [4])

def segmentoGrande : Segmento where
  esComun := true
  filePath := none
  id := 0
  baseLogica := 1048576
  tamanio := 2097152
  tablaPaginas := [0]
  paginasLiberadas := 0
  metadatas := [⟨0, false, 20, false, 5⟩]

theorem alcanza_conUnBloqueGrande : Alcanza unFrameGrande (Transition.trace
    (siguienteEstado unFrameGrande) (inicial unFrameGrande) (unBloquePorCliente [4]))
      conUnBloqueGrande := by
  rw [conUnBloqueGrande]
  exact alcanza_of_acceptsAll unFrameGrande (unBloquePorCliente [4]) (by decide +kernel)

theorem conUnBloqueGrande_tabla : conUnBloqueGrande.tablasSegmentos.get 4 = some [0] ∧
    conUnBloqueGrande.segmentos = [segmentoGrande] ∧
    conUnBloqueGrande.paginas = [⟨true, 0, -1⟩] := by
  decide +kernel

/-- The addresses that a map gives there, from the size of the segment on, are in the segment,
where nothing has been written. -/
theorem cubierta_conUnBloqueGrande :
    CubiertaDeCeros unFrameGrande conUnBloqueGrande 4 2097153 8 := by
  obtain ⟨hget, hsegmentos, hpaginas⟩ := conUnBloqueGrande_tabla
  refine ⟨segmentoGrande, 1048577, fun o ho => ?_, ⟨by decide, by decide, fun i hi hi' => ?_⟩, ?_⟩
  · have hid : ∀ o ≤ 8, idSegmentoQueContieneDireccion conUnBloqueGrande [0]
        (unsigned (2097153 + (o : ℕ))) = 0 ∧
        signed (unsigned (2097153 + (o : ℕ)) - 1048576) = 1048577 + (o : ℕ) := by
      decide +kernel
    exact ⟨[0], 0, 0, hget, (hid o ho).1, rfl, by rw [hsegmentos]; rfl,
      (hid o ho).2.trans (Nat.cast_add _ _).symm⟩
  · obtain rfl : i = 0 := Nat.le_zero.1 hi'
    exact ⟨0, ⟨true, 0, -1⟩, rfl, by rw [hpaginas]; rfl, rfl, by decide +kernel⟩
  · decide +kernel

/-- The reads of an empty file are right there, and they are not where the segment is one of 32
bytes. -/
theorem lecturaFiel_condiciones_conUnBloqueGrande :
    LecturaFiel unFrameGrande ⟨true, none, 0, 0, 0, [], 0, []⟩ [97] [] 8 4
        { conUnBloqueGrande with archivos := soloArchivo [] } ∧
      ¬ LecturaFiel (unFrame 2) ⟨true, none, 0, 0, 0, [], 0, []⟩ [97] [] 8 4
        { conUnBloque with archivos := soloArchivo [] } := by
  constructor
  · obtain ⟨hget, hsegmentos, -⟩ := conUnBloqueGrande_tabla
    obtain ⟨ultimo, ⟨g, hg, hultimo⟩, hsi, -⟩ := lecturaFiel_condiciones (soloArchivo [])
      ⟨true, none, 0, 0, 0, [], 0, []⟩ 8 alcanza_conUnBloqueGrande hget (by simp) rfl
    obtain rfl : 0 = g := Option.some.inj hg
    rw [hsegmentos] at hultimo
    obtain rfl : segmentoGrande = ultimo := Option.some.inj hultimo
    exact hsi ⟨rfl, cubierta_conUnBloqueGrande⟩
  · obtain ⟨ultimo, ⟨g, hg, hultimo⟩, -, hno⟩ := lecturaFiel_condiciones (soloArchivo [])
      ⟨true, none, 0, 0, 0, [], 0, []⟩ 8 alcanza_conUnBloque get_conUnBloque (by simp) rfl
    obtain rfl : 0 = g := Option.some.inj hg
    have hsegmento := conUnBloque_tabla.2.1
    rw [hultimo, Option.map_some, Option.some_inj] at hsegmento
    intro hfiel
    refine (hno hfiel).2 0 (by decide) ?_
    rw [hsegmento]
    exact conUnBloque_tabla.2.2.2

/-- The map of a file of one byte empties it. -/
theorem not_lecturaFiel : ¬ ∀ cfg tr s archivos sd segmentos nuevo path contenido length,
    Alcanza cfg tr s → s.tablasSegmentos.get sd = some segmentos → segmentos ≠ [] →
    archivos path = some contenido → 0 < length →
    LecturaFiel cfg nuevo path contenido length sd { s with archivos := archivos } := by
  intro h
  have hfiel := h (unFrame 2) _ _ (soloArchivo [65]) 4 [0] ⟨true, none, 0, 0, 0, [], 0, []⟩ [97]
    [65] 1 alcanza_conUnBloque get_conUnBloque (by simp) rfl (by decide)
  have hT := tablas_archivos (tablas_alcanza alcanza_conUnBloque) (soloArchivo [65])
  obtain ⟨ultimo, hultimo⟩ := exists_ultimo hT get_conUnBloque (by simp)
  cases (vacio_of_lecturaFiel hT get_conUnBloque (by simp) hultimo hfiel).1

end Muse
