import Mathlib.Tactic.Ring
import Linuse.Muse.Conservacion

/-!
# Reading from pages in memory

A byte of a segment is in the frame of its page. When the pages of a range are in
memory, `museget` gives the bytes of the range and changes nothing but the use bits of
the frames (`runs_museget`).
-/

namespace Muse

open Memory Marked

/-- The bytes of some blocks of one size, one block after the other. -/
theorem flatMap_range_blocks {α : Type*} (g : ℕ → α) (t k : ℕ) :
    ((List.range k).flatMap fun i => (List.range t).map fun j => g (i * t + j)) =
      (List.range (k * t)).map g := by
  induction k with
  | zero => simp
  | succ k ih =>
      rw [List.range_succ, List.flatMap_append, ih, Nat.succ_mul, List.range_add, List.map_append,
        List.map_map, List.flatMap_singleton]
      rfl

variable (cfg : Configuracion)

/-- The byte of a segment at a distance from its start. -/
def byteDe (s : Estado) (seg : Segmento) (x : ℕ) : UInt8 :=
  (seg.tablaPaginas[x / cfg.tamanioPag]?.bind fun p => s.paginas[p]?).elim 0 fun pag =>
    s.memoria (pag.numeroFrame * cfg.tamanioPag + (x % cfg.tamanioPag : ℕ))

/-- The page number `i` of the segment is in a frame of the memory. -/
def EnMemoria (s : Estado) (seg : Segmento) (i : ℕ) : Prop :=
  ∃ p pag, seg.tablaPaginas[i]? = some p ∧ s.paginas[p]? = some pag ∧ pag.presencia = true ∧
    (s.frame pag.numeroFrame).isSome

/-- Nothing but flags of frames changes. -/
def SoloMarcas (s s' : Estado) : Prop :=
  s'.frames.length = s.frames.length ∧ ∃ l, s' = { s with frames := l }

variable {cfg} {s t u : Estado} {seg : Segmento}

theorem soloMarcas_refl (s : Estado) : SoloMarcas s s := ⟨rfl, s.frames, rfl⟩

theorem SoloMarcas.trans (h : SoloMarcas s t) (h' : SoloMarcas t u) : SoloMarcas s u := by
  obtain ⟨hlen, l, rfl⟩ := h
  obtain ⟨hlen', l', rfl⟩ := h'
  exact ⟨hlen'.trans hlen, l', rfl⟩

theorem soloMarcas_modificarFrame (s : Estado) (i : ℤ) (f : Frame → Frame) :
    SoloMarcas s (s.modificarFrame i f) :=
  ⟨s.length_modificarFrame_frames i f, s.modificarFrame_eq i f⟩

theorem SoloMarcas.byteDe_eq (h : SoloMarcas s t) : byteDe cfg t seg = byteDe cfg s seg := by
  obtain ⟨_, l, rfl⟩ := h
  rfl

theorem isSome_frame_iff (s : Estado) (i : ℤ) :
    (s.frame i).isSome ↔ 0 ≤ i ∧ i < s.frames.length := by
  rw [Estado.frame]
  split_ifs with hi
  · simp [hi]
  · simp only [isSome_getElem?]
    omega

theorem SoloMarcas.enMemoria (h : SoloMarcas s t) {i : ℕ} (hi : EnMemoria s seg i) :
    EnMemoria t seg i := by
  obtain ⟨p, pag, hp, hpag, hpres, hframe⟩ := hi
  rw [isSome_frame_iff, ← h.1, ← isSome_frame_iff] at hframe
  obtain ⟨_, l, rfl⟩ := h
  exact ⟨p, pag, hp, hpag, hpres, hframe⟩

/-! ## One page -/

theorem runs_pagina {p : ℕ} {pag : Pagina} (h : s.paginas[p]? = some pag) :
    Runs (pagina p) s pag s [] :=
  (runs_gets Estado.paginas s).bind (runs_orFail h s)

theorem runs_segmento {g : ℕ} (h : s.segmentos[g]? = some seg) : Runs (segmento g) s seg s [] :=
  (runs_gets Estado.segmentos s).bind (runs_orFail h s)

theorem runs_obtener {α : Type} {l : List α} {i : ℕ} {a : α} (h : l[i]? = some a) (s : Estado) :
    Runs (obtener l i) s a s [] :=
  runs_orFail ((elemento_natCast l i).trans h) s

theorem runs_tocarFrame {i : ℤ} (f : Frame → Frame) (h : (s.frame i).isSome) :
    Runs (tocarFrame i f) s () (s.modificarFrame i f) [] := by
  obtain ⟨fr, hfr⟩ := Option.isSome_iff_exists.1 h
  exact (runs_gets id s).bind ((runs_orFail hfr s).bind (runs_modify _ s))

/-- The bytes of a page of the segment. -/
def bytesPagina (cfg : Configuracion) (s : Estado) (seg : Segmento) (i : ℕ) : List UInt8 :=
  (List.range cfg.tamanioPag).map fun k => byteDe cfg s seg (i * cfg.tamanioPag + k)

/-- A page that is in memory is read from its frame. -/
theorem runs_leerPagina (cfg : Configuracion) {i : ℕ} (h : EnMemoria s seg i) (sd : ℕ) :
    ∃ s', Runs (leerPagina cfg seg sd i) s (bytesPagina cfg s seg i) s' [] ∧ SoloMarcas s s' := by
  obtain ⟨p, pag, hp, hpag, hpres, hframe⟩ := h
  have hself : (s.modificarPagina p fun pag => { pag with presencia := true }) = s := by
    refine Invariante.modificarPagina_of_presente fun pag' hpag' => ?_
    cases hpag.symm.trans hpag'
    exact hpres
  have hframe' : Runs (frameLeido cfg i seg sd p) s pag.numeroFrame s [] := by
    refine (runs_pagina hpag).bind ?_
    rw [if_pos hpres]
    exact runs_pure _ s
  have hmodify : Runs (Marked.modify fun s : Estado => s.modificarPagina p fun pag =>
      { pag with presencia := true } : Codigo Unit) s () s [] := by
    rw [Runs, Marked.modify, hself]
  have hbytes : bytesAt (s.modificarFrame pag.numeroFrame fun f => { f with uso := true }).memoria
      (pag.numeroFrame * cfg.tamanioPag) cfg.tamanioPag = bytesPagina cfg s seg i := by
    obtain ⟨_, l, hl⟩ := soloMarcas_modificarFrame s pag.numeroFrame fun f => { f with uso := true }
    rw [hl, bytesAt, bytesPagina]
    refine List.map_congr_left fun k hk => ?_
    have hlt := List.mem_range.1 hk
    have hdiv : (i * cfg.tamanioPag + k) / cfg.tamanioPag = i := by
      rw [Nat.mul_comm, Nat.mul_add_div cfg.positivo, Nat.div_eq_of_lt hlt, Nat.add_zero]
    have hmod : (i * cfg.tamanioPag + k) % cfg.tamanioPag = k := by
      rw [Nat.mul_comm, Nat.mul_add_mod, Nat.mod_eq_of_lt hlt]
    rw [byteDe, hdiv, hmod, hp, Option.bind_some, hpag]
    rfl
  refine ⟨_, ?_, soloMarcas_modificarFrame s pag.numeroFrame fun f => { f with uso := true }⟩
  rw [← hbytes]
  exact (runs_obtener hp s).bind (hframe'.bind (hmodify.bind ((runs_pagina hpag).bind
    ((runs_tocarFrame _ hframe).bind (runs_gets _ _)))))

/-! ## Some pages -/

theorem runs_leerPaginas (cfg : Configuracion) (seg : Segmento) (primera : ℕ) {l : List ℕ}
    (leido : List UInt8) (sd : ℕ)
    (h : ∀ i ∈ l, EnMemoria s seg (primera + i)) :
    ∃ s', Runs (fold (fun leido i => do
        let bytes ← leerPagina cfg seg sd ((primera : ℤ) + (i : ℕ))
        return leido ++ bytes) leido l) s
      (leido ++ l.flatMap fun i => bytesPagina cfg s seg (primera + i)) s' [] ∧
      SoloMarcas s s' := by
  induction l generalizing leido s with
  | nil =>
      refine ⟨s, ?_, soloMarcas_refl s⟩
      rw [List.flatMap_nil, List.append_nil]
      exact runs_pure _ s
  | cons i l ih =>
      obtain ⟨t, ht, hst⟩ := runs_leerPagina cfg (h i List.mem_cons_self) sd
      obtain ⟨u, hu, htu⟩ := ih (s := t) (leido ++ bytesPagina cfg s seg (primera + i))
        fun j hj => hst.enMemoria (h j (List.mem_cons_of_mem i hj))
      refine ⟨u, ?_, hst.trans htu⟩
      rw [List.flatMap_cons, ← List.append_assoc]
      have hbytes : (fun j => bytesPagina cfg t seg (primera + j)) =
          fun j => bytesPagina cfg s seg (primera + j) := by
        funext j
        rw [bytesPagina, hst.byteDe_eq, bytesPagina]
      rw [hbytes] at hu
      rw [Nat.cast_add] at ht
      have hpage : Runs (do
          let bytes ← leerPagina cfg seg sd ((primera : ℤ) + (i : ℕ))
          return leido ++ bytes) s (leido ++ bytesPagina cfg s seg (primera + i)) t [] :=
        ht.bind (runs_pure _ t)
      exact hpage.bind hu

/-! ## `museget` -/

/-- The segment is the first of the process that has the address, at its identifier, and
the address is at this distance from its start. -/
def Ubica (s : Estado) (sd : ℕ) (seg : Segmento) (src : ℤ) (x : ℕ) : Prop :=
  ∃ segmentos, ∃ j g : ℕ, s.tablasSegmentos.get sd = some segmentos ∧
    idSegmentoQueContieneDireccion s segmentos src = j ∧ segmentos[j]? = some g ∧
    s.segmentos[g]? = some seg ∧ signed (src - seg.baseLogica) = x

/-- The bytes of the range are bytes of the segment, and its pages are in memory. -/
def Legible (cfg : Configuracion) (s : Estado) (seg : Segmento) (x n : ℕ) : Prop :=
  (x + n : ℤ) ≤ seg.tamanio ∧ seg.tamanio < 4294967296 ∧
    ∀ i, x / cfg.tamanioPag ≤ i → i ≤ (x + n) / cfg.tamanioPag → EnMemoria s seg i

theorem drop_take_map_range {α : Type*} (g : ℕ → α) {d n k : ℕ} (h : d + n ≤ k) :
    (((List.range k).map g).drop d).take n = (List.range n).map fun i => g (d + i) := by
  apply List.ext_getElem?
  intro i
  rw [List.getElem?_take, List.getElem?_map]
  split_ifs with hi
  · rw [List.getElem?_drop, List.getElem?_map, List.getElem?_range (by omega),
      List.getElem?_range hi]
    rfl
  · rw [List.getElem?_eq_none (by simp; omega)]
    rfl

/-- Reading in a segment gives the bytes of a range whose pages are in memory. -/
theorem runs_leerSegmento {src : ℤ} {x n : ℕ} (hx : signed (src - seg.baseLogica) = x)
    (hcomun : seg.esComun = true) (hlegible : Legible cfg s seg x n) (sd : ℕ) :
    ∃ s', Runs (leerSegmento cfg seg src n sd) s
      (some ((List.range n).map fun i => byteDe cfg s seg (x + i))) s' [] ∧ SoloMarcas s s' := by
  obtain ⟨hfin, hmax, hpaginas⟩ := hlegible
  have hle : x / cfg.tamanioPag ≤ (x + n) / cfg.tamanioPag := Nat.div_le_div_right (by omega)
  obtain ⟨s', hs', hsolo⟩ := runs_leerPaginas cfg seg (x / cfg.tamanioPag)
    (s := s) (l := List.range ((x + n) / cfg.tamanioPag - x / cfg.tamanioPag + 1)) [] sd (by
      intro i hi
      have hlt := List.mem_range.1 hi
      exact hpaginas _ (by omega) (by omega))
  refine ⟨s', ?_, hsolo⟩
  have hdiv : (x : ℤ) / cfg.tamanioPag = (x / cfg.tamanioPag : ℕ) := by norm_cast
  have hmod : (x : ℤ).tmod cfg.tamanioPag = (x % cfg.tamanioPag : ℕ) := by
    rw [Int.tmod_eq_emod_of_nonneg (by omega)]
    norm_cast
  have hfinal : unsigned ((x : ℤ) + n) / cfg.tamanioPag = ((x + n) / cfg.tamanioPag : ℕ) := by
    rw [unsigned, Int.emod_eq_of_lt (by omega) (by omega)]
    norm_cast
  have hpos : x / cfg.tamanioPag * cfg.tamanioPag + x % cfg.tamanioPag = x := by
    rw [Nat.mul_comm]
    exact Nat.div_add_mod x cfg.tamanioPag
  have hcond : (n : ℤ) ≤ unsigned (seg.tamanio - x) ∧
      unsigned (((x / cfg.tamanioPag : ℕ) : ℤ) * cfg.tamanioPag + (x % cfg.tamanioPag : ℕ) + n) ≤
        seg.tamanio := by
    have hcast :
        ((x / cfg.tamanioPag : ℕ) : ℤ) * cfg.tamanioPag + (x % cfg.tamanioPag : ℕ) = x := by
      exact_mod_cast hpos
    rw [hcast, unsigned, unsigned, Int.emod_eq_of_lt (by omega) (by omega),
      Int.emod_eq_of_lt (by omega) (by omega)]
    omega
  have hcantidad : ((((x + n) / cfg.tamanioPag : ℕ) : ℤ) - (x / cfg.tamanioPag : ℕ) + 1).toNat =
      (x + n) / cfg.tamanioPag - x / cfg.tamanioPag + 1 := by omega
  have hbytes : (((List.range ((x + n) / cfg.tamanioPag - x / cfg.tamanioPag + 1)).flatMap
      fun i => bytesPagina cfg s seg (x / cfg.tamanioPag + i)).drop
        (x % cfg.tamanioPag : ℕ)).take n =
          (List.range n).map fun i => byteDe cfg s seg (x + i) := by
    have hblocks := flatMap_range_blocks
      (fun m => byteDe cfg s seg (x / cfg.tamanioPag * cfg.tamanioPag + m)) cfg.tamanioPag
      ((x + n) / cfg.tamanioPag - x / cfg.tamanioPag + 1)
    have hpagina : ∀ i, bytesPagina cfg s seg (x / cfg.tamanioPag + i) =
        (List.range cfg.tamanioPag).map fun k =>
          byteDe cfg s seg (x / cfg.tamanioPag * cfg.tamanioPag + (i * cfg.tamanioPag + k)) := by
      intro i
      rw [bytesPagina]
      refine List.map_congr_left fun k _ => ?_
      rw [Nat.add_mul, Nat.add_assoc]
    simp only [hpagina]
    rw [hblocks, drop_take_map_range]
    · refine List.map_congr_left fun i _ => ?_
      rw [← Nat.add_assoc, hpos]
    · obtain ⟨k, hk⟩ := Nat.exists_eq_add_of_le hle
      have hlt : x + n < ((x + n) / cfg.tamanioPag + 1) * cfg.tamanioPag := by
        rw [Nat.mul_comm]
        exact Nat.lt_mul_div_succ (x + n) cfg.positivo
      rw [hk, Nat.add_sub_cancel_left]
      rw [hk, Nat.add_assoc, Nat.add_mul] at hlt
      omega
  rw [leerSegmento]
  simp only [hx, hdiv, hmod, hfinal]
  rw [if_pos hcond, if_neg (by simp [hcomun]), hcantidad, Int.toNat_natCast, ← hbytes]
  have hleer : Runs (leerPaginas cfg seg sd ((x / cfg.tamanioPag : ℕ) : ℤ)
      ((x + n) / cfg.tamanioPag - x / cfg.tamanioPag + 1)) s _ s' [] := hs'
  rw [List.nil_append] at hleer
  exact Runs.bind (f := fun leido => pure (some ((leido.drop (x % cfg.tamanioPag)).take n))) hleer
    (runs_pure _ s')

/-- `museget` gives the bytes of a range whose pages are in memory. -/
theorem runs_museget {src : ℤ} {x n sd : ℕ} (hubica : Ubica s sd seg src x)
    (hcomun : seg.esComun = true) (hlegible : Legible cfg s seg x n) :
    ∃ s', Runs (museget cfg src n sd) s
      (some ((List.range n).map fun i => byteDe cfg s seg (x + i))) s' [] ∧ SoloMarcas s s' := by
  obtain ⟨segmentos, j, g, hget, hid, hg, hseg, hx⟩ := hubica
  obtain ⟨s', hs', hsolo⟩ := runs_leerSegmento hx hcomun hlegible sd
  refine ⟨s', ?_, hsolo⟩
  have hbuscar : Runs (do
      let seg ← segmento g
      leerSegmento cfg seg src n sd) s
      (some ((List.range n).map fun i => byteDe cfg s seg (x + i))) s' [] :=
    (runs_segmento hseg).bind hs'
  refine (runs_gets id s).bind ?_
  simp only [id_eq, hget, Option.elim_some, hid]
  rw [if_neg (by omega), Int.toNat_natCast, hg, Option.elim_some]
  exact hbuscar

end Muse
