import Linuse.Muse.Mapeo

/-!
# The answer to a read

The handler of a read copies to its answer as many bytes as were asked for from what
`museget` gives, which is NULL when the range is not in the segment. The page after the
range is read as well. The answer is right exactly when the range ends before the last
byte of the segment has been passed (`getCorrecto_iff`): one that ends with the segment
needs a page that there is not, and no answer says that a read failed.
-/

namespace Muse

open Memory Marked Wire

variable {cfg : Configuracion} {s t : Estado} {seg : Segmento}

/-! ## The handler -/

/-- The answer of `atenderMuseGet`. -/
def respuestaGet (resultado : ℤ) (datos : List UInt8) : List UInt8 :=
  toBytes 4 4 ++ toBytes 4 (unsigned resultado).toNat ++ toBytes 4 4 ++ datos

/-- What `memcpy` copies from a pointer that may be NULL. -/
def copiarRespuesta (n : ℕ) (respuesta : Option (List UInt8)) : Codigo (List UInt8) :=
  if n = 0 then pure [] else orFail respuesta

/-- `atenderMuseGet`, from what the client sends to what it gets. -/
def responderMuseGet (cfg : Configuracion) (src : ℤ) (n cliente : ℕ) : Codigo (List UInt8) := do
  let respuesta ← museget cfg src n cliente
  let datos ← copiarRespuesta n respuesta
  return respuestaGet (if respuesta.isSome then 0 else -1) datos

/-! ## What a right answer is -/

/-- A segment with as many pages as its size says, all of them in memory. -/
structure Completo (cfg : Configuracion) (s : Estado) (seg : Segmento) : Prop where
  base : 0 ≤ seg.baseLogica
  tamanio : seg.tamanio = (cfg.tamanioPag * seg.tablaPaginas.length : ℕ)
  campo : seg.tamanio < 4294967296
  presentes : ∀ i < seg.tablaPaginas.length, EnMemoria s seg i
  archivo : seg.esComun = false → seg.filePath.isSome

/-- The process has the segment at its identifier, and the address is in none of those
before it. -/
def PrimeroCon (s : Estado) (sd : ℕ) (seg : Segmento) (src : ℤ) : Prop :=
  ∃ segmentos, ∃ j g : ℕ, s.tablasSegmentos.get sd = some segmentos ∧ segmentos[j]? = some g ∧
    s.segmentos[g]? = some seg ∧ seg.id = j ∧
    ∀ (i g' : ℕ) (seg' : Segmento), i < j → segmentos[i]? = some g' →
      s.segmentos[g']? = some seg' → ¬ unsigned (src - seg'.baseLogica) < seg'.tamanio

/-- The answer has the bytes of a range of the segment, and says that the read failed for
any other range. -/
structure GetCorrecto (cfg : Configuracion) (s : Estado) (sd : ℕ) (seg : Segmento) (src : ℤ)
    (n : ℕ) : Prop where
  dentro : src - seg.baseLogica + n ≤ seg.tamanio → ∃ s' marcas,
    Runs (responderMuseGet cfg src n sd) s (respuestaGet 0 ((List.range n).map fun i =>
      byteDe cfg s seg ((src - seg.baseLogica).toNat + i))) s' marcas
  fuera : seg.tamanio < src - seg.baseLogica + n → ∃ datos s' marcas,
    Runs (responderMuseGet cfg src n sd) s (respuestaGet (-1) datos) s' marcas

/-! ## What an answer needs -/

theorem respuestaGet_zero_ne (l l' : List UInt8) : respuestaGet 0 l ≠ respuestaGet (-1) l' := by
  intro h
  have hbyte := congrArg (fun x => x[4]?) h
  simp [respuestaGet, toBytes, unsigned] at hbyte

/-- An answer comes from bytes that were read. -/
theorem exists_leido_of_runs {src : ℤ} {n sd : ℕ} (hn : 0 < n) {resp : List UInt8} {s' : Estado}
    {marcas : List (Estado × Suceso)} (h : Runs (responderMuseGet cfg src n sd) s resp s' marcas) :
    ∃ leido u marcas', Runs (museget cfg src n sd) s (some leido) u marcas' ∧
      resp = respuestaGet 0 leido := by
  obtain ⟨respuesta, u, marcas₁, marcas₂, hget, hresto, _⟩ := runs_bind.1 h
  obtain ⟨datos, v, marcas₃, marcas₄, hcopia, hpure, _⟩ := runs_bind.1 hresto
  cases respuesta with
  | none =>
      rw [copiarRespuesta, if_neg (by omega)] at hcopia
      cases hcopia
  | some leido =>
      rw [copiarRespuesta, if_neg (by omega)] at hcopia
      cases hcopia
      cases hpure
      exact ⟨_, _, marcas₁, hget, rfl⟩

/-- The pages that a loop of reads goes through are in the table. -/
theorem elemento_of_runs_leerPaginas {sd : ℕ} {primera : ℤ} {l : List ℕ}
    {leido leido' : List UInt8} {s' : Estado} {marcas : List (Estado × Suceso)}
    (h : Runs (fold (fun leido (i : ℕ) => do
        let bytes ← leerPagina cfg seg sd (primera + i)
        return leido ++ bytes) leido l) s leido' s' marcas) :
    ∀ i ∈ l, (elemento seg.tablaPaginas (primera + i)).isSome := by
  induction l generalizing leido s marcas with
  | nil => simp
  | cons i l ih =>
      obtain ⟨leido₁, u, marcas₁, marcas₂, hpagina, hresto, _⟩ := runs_bind.1 h
      obtain ⟨bytes, v, marcas₃, marcas₄, hleer, _, _⟩ := runs_bind.1 hpagina
      obtain ⟨p, w, marcas₅, marcas₆, hobtener, _, _⟩ := runs_bind.1 hleer
      intro j hj
      rcases List.mem_cons.1 hj with rfl | hj
      · have helem : Triple (fun _ _ => True) (fun _ => True)
            (obtener seg.tablaPaginas (primera + j)) fun p _ =>
              True ∧ elemento seg.tablaPaginas (primera + j) = some p := triple_obtener _ _
        rw [(helem s p w marcas₅ trivial hobtener fun _ _ => trivial).2]
        rfl
      · exact ih hresto j hj

/-- The first segment with an address is found at its identifier. -/
theorem ubica_of_primeroCon {sd : ℕ} {src : ℤ} (hprimero : PrimeroCon s sd seg src)
    (hdentro : unsigned (src - seg.baseLogica) < seg.tamanio) :
    ∃ segmentos, ∃ j g : ℕ, s.tablasSegmentos.get sd = some segmentos ∧
      idSegmentoQueContieneDireccion s segmentos src = j ∧ segmentos[j]? = some g ∧
      s.segmentos[g]? = some seg := by
  obtain ⟨segmentos, j, g, hget, hj, hseg, hid, hantes⟩ := hprimero
  refine ⟨segmentos, j, g, hget, ?_, hj, hseg⟩
  obtain ⟨hlt, hg⟩ := List.getElem?_eq_some_iff.1 hj
  have hsplit := List.take_append_drop j segmentos
  rw [List.drop_eq_getElem_cons hlt, hg] at hsplit
  have hnone : ((segmentos.take j).filterMap fun g => s.segmentos[g]?).find? (fun seg =>
      decide (unsigned (src - seg.baseLogica) < seg.tamanio)) = none := by
    rw [List.find?_eq_none]
    intro seg' hseg'
    obtain ⟨g', hg', hsome⟩ := List.mem_filterMap.1 hseg'
    obtain ⟨i, hi⟩ := List.getElem?_of_mem hg'
    have hij : i < j := by
      by_contra hge
      rw [List.getElem?_take, if_neg hge] at hi
      cases hi
    rw [List.getElem?_take, if_pos hij] at hi
    simpa using hantes i g' seg' hij hi hsome
  rw [idSegmentoQueContieneDireccion, ← hsplit, List.filterMap_append, List.find?_append, hnone,
    List.filterMap_cons_some hseg, List.find?_cons_of_pos (by simpa using hdentro), Option.none_or,
    Option.elim_some, hid]

/-- A read that gives bytes has gone through the pages from the first to the one of the end of
the range. -/
theorem elemento_of_runs_museget {sd : ℕ} {src : ℤ} {n : ℕ} {leido : List UInt8} {s' : Estado}
    {marcas : List (Estado × Suceso)} (hprimero : PrimeroCon s sd seg src)
    (hdentro : unsigned (src - seg.baseLogica) < seg.tamanio)
    (h : Runs (museget cfg src n sd) s (some leido) s' marcas) :
    ∀ i : ℕ, i < (unsigned (signed (src - seg.baseLogica) + n) / cfg.tamanioPag -
        signed (src - seg.baseLogica) / cfg.tamanioPag + 1).toNat →
      (elemento seg.tablaPaginas (signed (src - seg.baseLogica) / cfg.tamanioPag + i)).isSome := by
  obtain ⟨segmentos, j, g, hget, hid, hj, hseg⟩ := ubica_of_primeroCon hprimero hdentro
  obtain ⟨s₀, u, marcas₁, marcas₂, hgets, hresto, _⟩ := runs_bind.1 h
  cases hgets
  simp only [id_eq, hget, Option.elim_some, hid] at hresto
  rw [if_neg (by omega), Int.toNat_natCast, hj, Option.elim_some] at hresto
  obtain ⟨seg₀, v, marcas₃, marcas₄, hsegmento, hleer, _⟩ := runs_bind.1 hresto
  cases hsegmento.symm.trans (runs_segmento hseg)
  intro i hi
  rw [leerSegmento] at hleer
  dsimp only at hleer
  split_ifs at hleer with hrango hmapa
  · obtain ⟨_, w, marcas₅, marcas₆, _, hleer, _⟩ := runs_bind.1 hleer
    obtain ⟨leido', x, marcas₇, marcas₈, hpaginas, _, _⟩ := runs_bind.1 hleer
    exact elemento_of_runs_leerPaginas hpaginas i (List.mem_range.2 hi)
  · obtain ⟨leido', x, marcas₇, marcas₈, hpaginas, _, _⟩ := runs_bind.1 hleer
    exact elemento_of_runs_leerPaginas hpaginas i (List.mem_range.2 hi)
  · cases hleer

/-! ## When the answer is right -/

/-- A page that is in memory is not brought. -/
theorem runs_traerPaginaMmap {i : ℕ} (h : EnMemoria s seg i) (relleno : ℤ) :
    Runs (traerPaginaMmap cfg seg.tablaPaginas i relleno) s () s [] := by
  obtain ⟨p, pag, hp, hpag, _, hframe⟩ := h
  have hneg : ¬ (pag.indiceSwap = -1 ∧ pag.numeroFrame = -1) := by
    rintro ⟨_, hframe'⟩
    rw [isSome_frame_iff] at hframe
    omega
  refine (runs_obtener hp s).bind ((runs_pagina hpag).bind ?_)
  rw [if_neg hneg]
  exact runs_pure () s

/-- A loop whose passes change nothing. -/
theorem runs_fold_unit {f : Unit → ℕ → Codigo Unit} {l : List ℕ}
    (h : ∀ i ∈ l, Runs (f () i) s () s []) : Runs (fold f () l) s () s [] := by
  induction l with
  | nil => exact runs_pure () s
  | cons i l ih =>
      exact (h i List.mem_cons_self).bind (ih fun j hj => h j (List.mem_cons_of_mem i hj))

/-- When all the pages are in memory nothing is brought of the file, which may be emptied. -/
theorem runs_traerPaginasSegmentoMmapAMemoria (hcompleto : Completo cfg s seg)
    (hmapa : seg.esComun = false) {x n : ℕ} (hrango : (x + n : ℤ) ≤ seg.tamanio) :
    ∃ archivos, Runs (traerPaginasSegmentoMmapAMemoria cfg x n seg) s ()
      { s with archivos := archivos } [] := by
  obtain ⟨path, hpath⟩ := Option.isSome_iff_exists.1 (hcompleto.archivo hmapa)
  have hpos : (0 : ℤ) < cfg.tamanioPag := by exact_mod_cast cfg.positivo
  have hultima : paginasPara cfg (x + n) ≤ seg.tablaPaginas.length := by
    rw [paginasPara, neg_le, Int.le_ediv_iff_mul_le hpos]
    have htam := hcompleto.tamanio
    push_cast at htam
    rw [neg_mul, neg_le_neg_iff, mul_comm, ← htam]
    exact hrango
  by_cases hcargadas : paginasNecesariasCargadas s ((x : ℤ).tdiv cfg.tamanioPag)
      (paginasPara cfg (x + n) - 1) seg.tablaPaginas = false
  · refine ⟨(s.abrirW path).archivos, (runs_gets id s).bind ?_⟩
    simp only [id_eq]
    rw [if_pos hcargadas]
    refine (runs_orFail hpath s).bind ((runs_modify _ s).bind (runs_fold_unit fun i hi => ?_))
    have hlt := List.mem_range.1 hi
    rw [Int.tdiv_eq_ediv_of_nonneg (by omega)] at hlt ⊢
    have hdiv : (x : ℤ) / cfg.tamanioPag = (x / cfg.tamanioPag : ℕ) := by norm_cast
    rw [hdiv] at hlt ⊢
    rw [← Nat.cast_add]
    exact runs_traerPaginaMmap (s := s.abrirW path)
      (hcompleto.presentes (x / cfg.tamanioPag + i) (by omega)) _
  · refine ⟨s.archivos, (runs_gets id s).bind ?_⟩
    simp only [id_eq]
    rw [if_neg hcargadas]
    exact runs_pure () s

/-- A read in a segment whose pages are in memory gives the bytes of a range that ends before
the segment. -/
theorem runs_leerSegmento_completo (hcompleto : Completo cfg s seg) {src : ℤ} {x n : ℕ}
    (hx : signed (src - seg.baseLogica) = x) (hrango : (x + n : ℤ) < seg.tamanio) (sd : ℕ) :
    ∃ s', Runs (leerSegmento cfg seg src n sd) s
      (some ((List.range n).map fun i => byteDe cfg s seg (x + i))) s' [] := by
  have hlegible : ∀ archivos, Legible cfg { s with archivos := archivos }
      { seg with esComun := true } x n := by
    refine fun archivos => ⟨hrango.le, hcompleto.campo, fun i _ hi => ?_⟩
    refine hcompleto.presentes i (lt_of_le_of_lt hi ?_)
    rw [Nat.div_lt_iff_lt_mul cfg.positivo, mul_comm]
    have htam := hcompleto.tamanio
    omega
  cases hmapa : seg.esComun with
  | true =>
      obtain ⟨s', hs', _⟩ := runs_leerSegmento hx hmapa (by
        have h := hlegible s.archivos
        rwa [show { seg with esComun := true } = seg by rw [← hmapa]] at h) sd
      exact ⟨s', hs'⟩
  | false =>
      obtain ⟨archivos, htraer⟩ := runs_traerPaginasSegmentoMmapAMemoria hcompleto hmapa hrango.le
      set abierto : Segmento := { seg with esComun := true }
      have hx' : signed (src - abierto.baseLogica) = x := hx
      obtain ⟨s', hs', _⟩ := runs_leerSegmento hx' rfl (hlegible archivos) sd
      refine ⟨s', ?_⟩
      rw [leerSegmento] at hs' ⊢
      dsimp only at hs' ⊢
      rw [hx] at hs' ⊢
      split_ifs at hs' ⊢ with hcond htrue
      · cases htrue
      · exact htraer.bind hs'
      · cases hs'

/-- An answer that is right is about a range that ends before the segment. -/
theorem lt_of_getCorrecto {sd : ℕ} {src : ℤ} {n : ℕ} (hcompleto : Completo cfg s seg)
    (hprimero : PrimeroCon s sd seg src) (hbase : seg.baseLogica ≤ src) (hsrc : src < 4294967296)
    (hn : 0 < n) (h : GetCorrecto cfg s sd seg src n) :
    src - seg.baseLogica + n < seg.tamanio ∧ src - seg.baseLogica < 2147483648 := by
  have hcero := hcompleto.base
  have hmax := hcompleto.campo
  have hunsigned : unsigned (src - seg.baseLogica) = src - seg.baseLogica :=
    unsigned_eq_self (by omega) (by omega)
  have hpos : (0 : ℤ) < cfg.tamanioPag := by exact_mod_cast cfg.positivo
  have hle : src - seg.baseLogica + n ≤ seg.tamanio := by
    by_contra hgt
    obtain ⟨datos, s', marcas, hr⟩ := h.fuera (not_le.1 hgt)
    obtain ⟨leido, _, _, _, heq⟩ := exists_leido_of_runs hn hr
    exact respuestaGet_zero_ne leido datos heq.symm
  obtain ⟨s', marcas, hr⟩ := h.dentro hle
  obtain ⟨leido, u, marcas', hget, _⟩ := exists_leido_of_runs hn hr
  have hpaginas := elemento_of_runs_museget hprimero (by rw [hunsigned]; omega) hget
  have hcorta : src - seg.baseLogica < 2147483648 := by
    by_contra hge
    -- The distance is taken to be negative, and so is the number of its page.
    have hneg : signed (src - seg.baseLogica) / (cfg.tamanioPag : ℤ) < 0 := by
      refine Int.ediv_neg_of_neg_of_pos ?_ hpos
      rw [signed]
      omega
    have hfin : 0 ≤ unsigned (signed (src - seg.baseLogica) + n) / (cfg.tamanioPag : ℤ) := by
      refine Int.ediv_nonneg ?_ hpos.le
      rw [unsigned]
      omega
    have hprimera := hpaginas 0 (by omega)
    rw [elemento, if_pos (by push_cast; omega)] at hprimera
    cases hprimera
  refine ⟨lt_of_le_of_ne hle fun heq => ?_, hcorta⟩
  -- The page after the last one is asked for.
  rw [signed_eq_self (by omega) hcorta, heq, unsigned_eq_self (by omega) hmax,
    hcompleto.tamanio] at hpaginas
  push_cast at hpaginas
  rw [Int.mul_ediv_cancel_left _ hpos.ne'] at hpaginas
  have hprimera : (src - seg.baseLogica) / (cfg.tamanioPag : ℤ) ≤ seg.tablaPaginas.length := by
    rw [Int.ediv_le_iff_le_mul hpos]
    have htam := hcompleto.tamanio
    push_cast at htam
    rw [mul_comm, ← htam]
    omega
  have hprimera' : 0 ≤ (src - seg.baseLogica) / (cfg.tamanioPag : ℤ) :=
    Int.ediv_nonneg (by omega) hpos.le
  have hultima := hpaginas ((seg.tablaPaginas.length : ℤ) -
    (src - seg.baseLogica) / cfg.tamanioPag).toNat (by omega)
  rw [Int.toNat_of_nonneg (by omega), add_sub_cancel, elemento_natCast,
    List.getElem?_eq_none le_rfl] at hultima
  cases hultima

/-- The answer to a read in a segment whose pages are in memory is right if and only if the
range ends before the segment, and starts at a distance that an `int` holds. -/
theorem getCorrecto_iff {sd : ℕ} {src : ℤ} {n : ℕ} (hcompleto : Completo cfg s seg)
    (hprimero : PrimeroCon s sd seg src) (hbase : seg.baseLogica ≤ src) (hsrc : src < 4294967296)
    (hn : 0 < n) :
    GetCorrecto cfg s sd seg src n ↔
      src - seg.baseLogica + n < seg.tamanio ∧ src - seg.baseLogica < 2147483648 := by
  have hcero := hcompleto.base
  have hmax := hcompleto.campo
  have hunsigned : unsigned (src - seg.baseLogica) = src - seg.baseLogica :=
    unsigned_eq_self (by omega) (by omega)
  constructor
  · exact lt_of_getCorrecto hcompleto hprimero hbase hsrc hn
  · rintro ⟨hlt, hcorta⟩
    refine ⟨fun _ => ?_, fun hgt => absurd hgt (by omega)⟩
    have hx : signed (src - seg.baseLogica) = ((src - seg.baseLogica).toNat : ℕ) := by
      rw [signed_eq_self (by omega) hcorta, Int.toNat_of_nonneg (by omega)]
    obtain ⟨segmentos, j, g, hget, hid, hj, hseg⟩ := ubica_of_primeroCon hprimero
      (by rw [hunsigned]; omega)
    obtain ⟨s', hleer⟩ := runs_leerSegmento_completo (n := n) hcompleto hx (by omega) sd
    have hmuseget : Runs (museget cfg src n sd) s (some ((List.range n).map fun i =>
        byteDe cfg s seg ((src - seg.baseLogica).toNat + i))) s' [] := by
      refine (runs_gets id s).bind ?_
      simp only [id_eq, hget, Option.elim_some, hid]
      rw [if_neg (by omega), Int.toNat_natCast, hj, Option.elim_some]
      exact (runs_segmento hseg).bind hleer
    refine ⟨s', [], hmuseget.bind (Runs.bind (a := (List.range n).map fun i =>
      byteDe cfg s seg ((src - seg.baseLogica).toNat + i)) ?_ (runs_pure _ _))⟩
    rw [copiarRespuesta, if_neg (by omega)]
    exact runs_pure _ _

/-- The segment of a process with one block. -/
def segmentoDeUnBloque : Segmento :=
  ⟨true, none, 0, 1048576, 32, [0], 0, [⟨0, false, 20, false, 5⟩]⟩

theorem completo_conUnBloque : Completo (unFrame 2) conUnBloque segmentoDeUnBloque where
  base := by decide
  tamanio := by decide
  campo := by decide
  presentes i hi := by
    have h0 : i = 0 := Nat.lt_one_iff.1 hi
    subst h0
    exact ⟨0, ⟨true, 0, -1⟩, rfl, by decide +kernel, rfl, by decide +kernel⟩
  archivo h := by cases h

theorem primeroCon_conUnBloque (src : ℤ) : PrimeroCon conUnBloque 4 segmentoDeUnBloque src :=
  ⟨[0], 0, 0, get_conUnBloque, rfl, by decide +kernel, rfl, fun _ _ _ hi => absurd hi (by omega)⟩

/-- The block is read; the whole segment, which ends where its page does, is not. -/
theorem getCorrecto_iff_conUnBloque :
    GetCorrecto (unFrame 2) conUnBloque 4 segmentoDeUnBloque 1048581 20 ∧
      ¬ GetCorrecto (unFrame 2) conUnBloque 4 segmentoDeUnBloque 1048576 32 := by
  rw [getCorrecto_iff completo_conUnBloque (primeroCon_conUnBloque _) (by decide) (by decide)
      (by decide),
    getCorrecto_iff completo_conUnBloque (primeroCon_conUnBloque _) (by decide) (by decide)
      (by decide)]
  decide

/-- The read of a whole segment of one page asks for a second page. -/
theorem not_getCorrecto : ¬ ∀ cfg s sd seg src n, Completo cfg s seg → PrimeroCon s sd seg src →
    seg.baseLogica ≤ src → src < 4294967296 → 0 < n → GetCorrecto cfg s sd seg src n := by
  intro h
  have hcorrecto := h (unFrame 2) conUnBloque 4 segmentoDeUnBloque 1048576 32 completo_conUnBloque
    (primeroCon_conUnBloque _) (by decide) (by decide) (by decide)
  have hlt := lt_of_getCorrecto completo_conUnBloque (primeroCon_conUnBloque _) (by decide)
    (by decide) (by decide) hcorrecto
  exact absurd hlt.1 (by decide)

end Muse
