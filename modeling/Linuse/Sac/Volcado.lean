import Linuse.Collections.Overwrite
import Linuse.Sac.Agrandado
import Linuse.Sac.Escritura

/-!
# What an iteration of a write leaves in the file

Bytes put in a block of a file replace those of its contents from an offset on, and the other
files keep theirs, as a file shares no block with another. A block that is added to the file
changes no contents either, as long as nothing in use is cleared for its pointer block.
-/

namespace Sac

open Memory Locks Locks.Code

/-- The bytes of the file at node `i`. -/
def Estado.archivo (m : Montaje) (s : Estado) (i : ℤ) : List UInt8 :=
  s.contenido m i 0 (s.tamanio m i).toNat

/-- The blocks of the first `k` positions of node `i`, and their pointer blocks. -/
def Bloques (m : Montaje) (s : Estado) (i : ℤ) (k : ℕ) : Set ℤ :=
  {b | ∃ p < k, s.dato m i p = b ∨ s.indirecto m i (p / 1024 : ℕ) = b}

/-- Node `j` is another file, which shares no block with the first `k` positions of node `i`. -/
structure Ajeno (m : Montaje) (s : Estado) (i : ℤ) (k : ℕ) (j : ℤ) : Prop where
  otro : j ≠ i
  mapa : MapaCompleto m s j (bloquesDe (s.tamanio m j))
  aparte : ∀ b ∈ Bloques m s j (bloquesDe (s.tamanio m j)), b ∉ Bloques m s i k

variable {m : Montaje} {s s' s'' : Estado} {i j n : ℤ} {k k' k'' : ℕ} {l : List UInt8}

theorem tamanio_nonneg (m : Montaje) (s : Estado) (i : ℤ) : 0 ≤ s.tamanio m i := load32_nonneg _ _

theorem length_archivo (m : Montaje) (s : Estado) (i : ℤ) :
    ((s.archivo m i).length : ℤ) = s.tamanio m i := by
  rw [Estado.archivo, length_contenido, Int.toNat_of_nonneg (tamanio_nonneg m s i)]

theorem archivo_getElem? (m : Montaje) (s : Estado) (i : ℤ) (x : ℕ) :
    (s.archivo m i)[x]? = if (x : ℤ) < s.tamanio m i then some (s.byteDe m i x) else none := by
  have hlen := length_archivo m s i
  split_ifs with hx
  · rw [List.getElem?_eq_getElem (show x < (s.archivo m i).length by omega)]
    refine congrArg some ((contenido_getElem _).trans ?_)
    rw [Nat.zero_add]
  · exact List.getElem?_eq_none (by omega)

/-- Every byte of a file is in one of its positions. -/
theorem div_lt_bloquesDe {x : ℕ} {t : ℤ} (h : (x : ℤ) < t) : x / 4096 < bloquesDe t := by
  rw [bloquesDe, posiciones]
  omega

theorem archivo_eq_of_bytes (htamanio : s'.tamanio m i = s.tamanio m i)
    (hbytes : ∀ x : ℕ, x / 4096 < bloquesDe (s.tamanio m i) → s'.byteDe m i x = s.byteDe m i x) :
    s'.archivo m i = s.archivo m i := by
  rw [Estado.archivo, Estado.archivo, htamanio]
  exact contenido_congr fun x _ hx => hbytes x (div_lt_bloquesDe (by omega))

theorem MapaCompleto.congr (h : MapaCompleto m s i k)
    (hindirecto : ∀ p < k, s'.indirecto m i (p / 1024 : ℕ) = s.indirecto m i (p / 1024 : ℕ))
    (hdato : ∀ p < k, s'.dato m i p = s.dato m i p)
    (hbits : ∀ b ∈ Bloques m s i k, EnBitmap m b → s.testBit m b = true → s'.testBit m b = true) :
    MapaCompleto m s' i k := by
  refine ⟨⟨h.nodo_nonneg, h.nodo_lt, h.tope, ?_, ?_, ?_⟩, ?_, ?_, ?_, ?_, ?_, ?_⟩
  · exact fun p hp => hindirecto p hp ▸ h.base_le_indirecto p hp
  · exact fun p hp => hdato p hp ▸ h.base_le_dato p hp
  · intro p hp q hq
    rw [hdato p hp, hindirecto q hq]
    exact h.aparte p hp q hq
  · intro p hp q hq
    rw [hdato p hp, hdato q hq]
    exact h.dato_inj p hp q hq
  · intro p hp q hq
    rw [hindirecto p hp, hindirecto q hq]
    exact h.indirecto_inj p hp q hq
  · exact fun p hp => hdato p hp ▸ h.dato_enBitmap p hp
  · exact fun p hp => hindirecto p hp ▸ h.indirecto_enBitmap p hp
  · intro p hp
    rw [hdato p hp]
    exact hbits _ ⟨p, hp, .inl rfl⟩ (h.dato_enBitmap p hp) (h.dato_usado p hp)
  · intro p hp
    rw [hindirecto p hp]
    exact hbits _ ⟨p, hp, .inr rfl⟩ (h.indirecto_enBitmap p hp) (h.indirecto_usado p hp)

theorem MapaCompleto.mono (h : MapaCompleto m s i k) (hk : k' ≤ k) : MapaCompleto m s i k' where
  nodo_nonneg := h.nodo_nonneg
  nodo_lt := h.nodo_lt
  tope := hk.trans h.tope
  base_le_indirecto p hp := h.base_le_indirecto p (hp.trans_le hk)
  base_le_dato p hp := h.base_le_dato p (hp.trans_le hk)
  aparte p hp q hq := h.aparte p (hp.trans_le hk) q (hq.trans_le hk)
  dato_inj p hp q hq := h.dato_inj p (hp.trans_le hk) q (hq.trans_le hk)
  indirecto_inj p hp q hq := h.indirecto_inj p (hp.trans_le hk) q (hq.trans_le hk)
  dato_enBitmap p hp := h.dato_enBitmap p (hp.trans_le hk)
  indirecto_enBitmap p hp := h.indirecto_enBitmap p (hp.trans_le hk)
  dato_usado p hp := h.dato_usado p (hp.trans_le hk)
  indirecto_usado p hp := h.indirecto_usado p (hp.trans_le hk)

theorem Mapa.base_le (h : Mapa m s i k) {b : ℤ} (hb : b ∈ Bloques m s i k) : m.base ≤ b := by
  obtain ⟨p, hp, rfl | rfl⟩ := hb
  · exact h.base_le_dato p hp
  · exact h.base_le_indirecto p hp

theorem bloques_congr
    (hindirecto : ∀ p < k, s'.indirecto m i (p / 1024 : ℕ) = s.indirecto m i (p / 1024 : ℕ))
    (hdato : ∀ p < k, s'.dato m i p = s.dato m i p) : Bloques m s' i k = Bloques m s i k := by
  ext b
  constructor
  · rintro ⟨p, hp, hb⟩
    rw [hdato p hp, hindirecto p hp] at hb
    exact ⟨p, hp, hb⟩
  · rintro ⟨p, hp, hb⟩
    rw [← hdato p hp, ← hindirecto p hp] at hb
    exact ⟨p, hp, hb⟩

/-! ## Memory that is kept -/

/-- The memories agree on the node and on the blocks of its first `k` positions. -/
structure MismaZona (m : Montaje) (i : ℤ) (k : ℕ) (s s' : Estado) : Prop where
  nodo : ∀ x, m.nodo i ≤ x → x < m.nodo i + 4096 → s'.mem x = s.mem x
  bloques : ∀ b ∈ Bloques m s i k, ∀ x, m.bloque b ≤ x → x < m.bloque b + 4096 →
    s'.mem x = s.mem x

namespace MismaZona

theorem tamanio (h : MismaZona m i k s s') : s'.tamanio m i = s.tamanio m i :=
  load32_congr fun x hx => h.nodo _ (by rw [dirTamanio]; omega) (by rw [dirTamanio]; omega)

theorem indirecto (h : MismaZona m i k s s') {p : ℕ} (hp : p < 1000) :
    s'.indirecto m i p = s.indirecto m i p :=
  load32_congr fun x hx => h.nodo _ (by rw [dirIndirecto]; omega) (by rw [dirIndirecto]; omega)

theorem dato (h : MismaZona m i k s s') (hmapa : Mapa m s i k) {p : ℕ} (hp : p < k) :
    s'.dato m i p = s.dato m i p := by
  rw [Estado.dato, h.indirecto (hmapa.lt_mil hp), Estado.dato]
  exact load32_congr fun x hx => h.bloques _ ⟨p, hp, .inr rfl⟩ _ (by omega) (by omega)

theorem byteDe (h : MismaZona m i k s s') (hmapa : Mapa m s i k) {x : ℕ} (hx : x / 4096 < k) :
    s'.byteDe m i x = s.byteDe m i x := by
  rw [Estado.byteDe, h.dato hmapa hx, Estado.byteDe]
  exact h.bloques _ ⟨_, hx, .inl rfl⟩ _ (by omega) (by omega)

theorem bloques_eq (h : MismaZona m i k s s') (hmapa : Mapa m s i k) :
    Bloques m s' i k = Bloques m s i k :=
  bloques_congr (fun _ hp => h.indirecto (hmapa.lt_mil hp)) fun _ hp => h.dato hmapa hp

theorem mapaCompleto (h : MismaZona m i k s s') (hmapa : MapaCompleto m s i k)
    (hbits : ∀ b ∈ Bloques m s i k, EnBitmap m b → s.testBit m b = true → s'.testBit m b = true) :
    MapaCompleto m s' i k :=
  hmapa.congr (fun _ hp => h.indirecto (hmapa.lt_mil hp)) (fun _ hp => h.dato hmapa.toMapa hp)
    hbits

theorem archivo (h : MismaZona m i (bloquesDe (s.tamanio m i)) s s')
    (hmapa : Mapa m s i (bloquesDe (s.tamanio m i))) : s'.archivo m i = s.archivo m i :=
  archivo_eq_of_bytes h.tamanio fun _ hx => h.byteDe hmapa hx

/-- What is kept twice is kept. -/
theorem trans (h : MismaZona m i k s s') (hmapa : Mapa m s i k) (h' : MismaZona m i k s' s'') :
    MismaZona m i k s s'' where
  nodo x hx hx' := (h'.nodo x hx hx').trans (h.nodo x hx hx')
  bloques b hb x hx hx' :=
    (h'.bloques b (by rwa [h.bloques_eq hmapa]) x hx hx').trans (h.bloques b hb x hx hx')

end MismaZona

/-- The state, the name and the father of node `i` are as they were. -/
def MismaFicha (m : Montaje) (i : ℤ) (s s' : Estado) : Prop :=
  ∀ x, m.nodo i ≤ x → x < m.nodo i + 76 → s'.mem x = s.mem x

theorem MismaFicha.trans (h : MismaFicha m i s s') (h' : MismaFicha m i s' s'') :
    MismaFicha m i s s'' := fun x hx hx' => (h' x hx hx').trans (h x hx hx')

theorem MismaFicha.estado (h : MismaFicha m i s s') : s'.estado m i = s.estado m i :=
  h _ le_rfl (by rw [dirEstado]; omega)

theorem MismaZona.ficha (h : MismaZona m i k s s') : MismaFicha m i s s' :=
  fun x hx hx' => h.nodo x hx (by omega)

/-- The file of node `i` goes from `k` positions to `k'`. The other files keep their nodes and
blocks, and share none with the positions that it has now; what is marked is what was, and its
blocks. -/
structure Extiende (m : Montaje) (i : ℤ) (k k' : ℕ) (s s' : Estado) : Prop where
  zona : ∀ j, Ajeno m s i k j → MismaZona m j (bloquesDe (s.tamanio m j)) s s'
  aparte : ∀ j, Ajeno m s i k j → ∀ b ∈ Bloques m s j (bloquesDe (s.tamanio m j)),
    b ∉ Bloques m s' i k'
  bloques : Bloques m s i k ⊆ Bloques m s' i k'
  crecen : ∀ b, EnBitmap m b → s.testBit m b = true → s'.testBit m b = true
  nuevos : ∀ b, EnBitmap m b → s'.testBit m b = true →
    s.testBit m b = true ∨ b ∈ Bloques m s' i k'
  fichas : ∀ j, 0 ≤ j → j < 1024 → MismaFicha m j s s'

namespace Extiende

theorem refl (m : Montaje) (i : ℤ) (k : ℕ) (s : Estado) : Extiende m i k k s s where
  zona _ _ := ⟨fun _ _ _ => rfl, fun _ _ _ _ _ => rfl⟩
  aparte _ hj := hj.aparte
  bloques := subset_rfl
  crecen _ _ husado := husado
  nuevos _ _ husado := .inl husado
  fichas _ _ _ _ _ _ := rfl

theorem ajeno (h : Extiende m i k k' s s') (hj : Ajeno m s i k j) : Ajeno m s' i k' j := by
  have hz := h.zona j hj
  refine ⟨hj.otro, ?_, ?_⟩
  · rw [hz.tamanio]
    exact hz.mapaCompleto hj.mapa fun b _ => h.crecen b
  · rw [hz.tamanio, hz.bloques_eq hj.mapa.toMapa]
    exact h.aparte j hj

theorem archivo (h : Extiende m i k k' s s') (hj : Ajeno m s i k j) :
    s'.archivo m j = s.archivo m j :=
  (h.zona j hj).archivo hj.mapa.toMapa

theorem trans (h : Extiende m i k k' s s') (h' : Extiende m i k' k'' s' s'') :
    Extiende m i k k'' s s'' where
  zona j hj := by
    have hz := h.zona j hj
    have hz' := h'.zona j (h.ajeno hj)
    rw [hz.tamanio] at hz'
    exact hz.trans hj.mapa.toMapa hz'
  aparte j hj b hb := by
    have hz := h.zona j hj
    have haparte := h'.aparte j (h.ajeno hj) b
    rw [hz.tamanio, hz.bloques_eq hj.mapa.toMapa] at haparte
    exact haparte hb
  bloques := h.bloques.trans h'.bloques
  crecen b hb husado := h'.crecen b hb (h.crecen b hb husado)
  nuevos b hb husado := by
    rcases h'.nuevos b hb husado with hantes | hnuevo
    · exact (h.nuevos b hb hantes).imp_right fun hmem => h'.bloques hmem
    · exact .inr hnuevo
  fichas j hj hj' := (h.fichas j hj hj').trans (h'.fichas j hj hj')

end Extiende

/-! ## The fields of the node -/

/-- Only the size and the dates of node `i` have changed. -/
def SoloCampos (m : Montaje) (i : ℤ) (s s' : Estado) : Prop :=
  ∀ x, x < m.nodo i + 76 ∨ m.nodo i + 96 ≤ x → s'.mem x = s.mem x

theorem soloCampos_ponerTamanio (m : Montaje) (i : ℤ) (s : Estado) (v : ℤ) :
    SoloCampos m i s (s.ponerTamanio m i v) := fun _ hx =>
  ponerTamanio_mem m s i (by rw [dirTamanio]; omega)

theorem soloCampos_ponerModificacion (m : Montaje) (i : ℤ) (s : Estado) (v : ℕ) :
    SoloCampos m i s (s.ponerModificacion m i v) := fun _ hx =>
  ponerModificacion_mem m s i (by rw [dirModificacion]; omega)

namespace SoloCampos

theorem trans (h : SoloCampos m i s s') (h' : SoloCampos m i s' s'') : SoloCampos m i s s'' :=
  fun x hx => (h' x hx).trans (h x hx)

theorem indirecto (h : SoloCampos m i s s') (p : ℕ) : s'.indirecto m i p = s.indirecto m i p :=
  load32_congr fun x hx => h _ (.inr (by rw [dirIndirecto]; omega))

theorem bloque (h : SoloCampos m i s s') (hi : i < 1024) {b x : ℤ} (hb : m.base ≤ b)
    (hx : m.bloque b ≤ x) : s'.mem x = s.mem x := by
  have hnodo := nodo_eq m i
  have h1024 := nodo_eq m 1024
  have hdatos := enTabla_lt_bloque hb
  exact h x (.inr (by omega))

theorem dato (h : SoloCampos m i s s') (hmapa : Mapa m s i k) {p : ℕ} (hp : p < k) :
    s'.dato m i p = s.dato m i p := by
  rw [Estado.dato, h.indirecto, Estado.dato]
  exact load32_congr fun x hx =>
    h.bloque hmapa.nodo_lt (hmapa.base_le_indirecto p hp) (by omega)

theorem byteDe (h : SoloCampos m i s s') (hmapa : Mapa m s i k) {x : ℕ} (hx : x / 4096 < k) :
    s'.byteDe m i x = s.byteDe m i x := by
  rw [Estado.byteDe, h.dato hmapa hx, Estado.byteDe]
  exact h.bloque hmapa.nodo_lt (hmapa.base_le_dato _ hx) (by omega)

theorem testBit (h : SoloCampos m i s s') (hi : 0 ≤ i) {b : ℤ} (hb : EnBitmap m b) :
    s'.testBit m b = s.testBit m b := by
  have hnodo := nodo_eq m i
  exact testBit_of_antes hb fun a ha => h a (.inl (by omega))

theorem mapaCompleto (h : SoloCampos m i s s') (hmapa : MapaCompleto m s i k) :
    MapaCompleto m s' i k :=
  hmapa.congr (fun _ _ => h.indirecto _) (fun _ hp => h.dato hmapa.toMapa hp)
    fun _ _ hb husado => by rw [h.testBit hmapa.nodo_nonneg hb, husado]

theorem bloques_eq (h : SoloCampos m i s s') (hmapa : Mapa m s i k) :
    Bloques m s' i k = Bloques m s i k :=
  bloques_congr (fun _ _ => h.indirecto _) fun _ hp => h.dato hmapa hp

theorem extiende (h : SoloCampos m i s s') (hmapa : MapaCompleto m s i k) :
    Extiende m i k k s s' where
  zona j hj := by
    refine ⟨fun x hx hx' => ?_, fun b hb x hx _ => ?_⟩
    · have hnodo := nodo_eq m i
      have hotro := nodo_eq m j
      have hne := hj.otro
      exact h x (by omega)
    · exact h.bloque hmapa.nodo_lt (hj.mapa.base_le hb) hx
  aparte j hj b hb := by
    rw [h.bloques_eq hmapa.toMapa]
    exact hj.aparte b hb
  bloques := (h.bloques_eq hmapa.toMapa).ge
  crecen b hb husado := by rw [h.testBit hmapa.nodo_nonneg hb, husado]
  nuevos b hb husado := .inl (by rwa [h.testBit hmapa.nodo_nonneg hb] at husado)
  fichas j _ _ x hx hx' := by
    have hnodo := nodo_eq m i
    have hotro := nodo_eq m j
    exact h x (by omega)

end SoloCampos

/-! ## A block of the file -/

/-- Only bytes of block `b` have changed. -/
def SoloBloque (m : Montaje) (b : ℤ) (s s' : Estado) : Prop :=
  ∀ x, x < m.bloque b ∨ m.bloque b + 4096 ≤ x → s'.mem x = s.mem x

theorem soloBloque_store {b a : ℤ} (ha : m.bloque b ≤ a) (hl : a + l.length ≤ m.bloque b + 4096)
    (s : Estado) : SoloBloque m b s (s.conMem (store s.mem a l)) := fun _ hx =>
  store_of_disjoint (by omega)

namespace SoloBloque

variable {b : ℤ}

theorem otro (h : SoloBloque m b s s') {c x : ℤ} (hne : c ≠ b) (hx : m.bloque c ≤ x)
    (hx' : x < m.bloque c + 4096) : s'.mem x = s.mem x := by
  rcases lt_or_gt_of_ne hne with hlt | hgt
  · have hbloque := bloque_lt_of_lt (m := m) hlt
    exact h x (by omega)
  · have hbloque := bloque_lt_of_lt (m := m) hgt
    exact h x (by omega)

theorem antes (h : SoloBloque m b s s') (hb : m.base ≤ b) {x : ℤ} (hx : x < m.nodo 1024 + 4096) :
    s'.mem x = s.mem x := by
  have hdatos := enTabla_lt_bloque hb
  exact h x (by omega)

theorem testBit (h : SoloBloque m b s s') (hb : m.base ≤ b) {c : ℤ} (hc : EnBitmap m c) :
    s'.testBit m c = s.testBit m c := by
  have h1024 := nodo_eq m 1024
  exact testBit_of_antes hc fun a ha => h.antes hb (by omega)

/-- A file that does not have the block is kept. -/
theorem zona (h : SoloBloque m b s s') (hb : m.base ≤ b) (hj : j < 1024)
    (hno : b ∉ Bloques m s j k) : MismaZona m j k s s' := by
  have hnodo := nodo_eq m j
  have h1024 := nodo_eq m 1024
  refine ⟨fun x _ hx' => h.antes hb (by omega), fun c hc x hx hx' => h.otro ?_ hx hx'⟩
  rintro rfl
  exact hno hc

variable {p : ℕ}

theorem indirecto (h : SoloBloque m (s.dato m i p) s s') (hmapa : Mapa m s i k) (hp : p < k)
    {q : ℕ} (hq : q < 1000) : s'.indirecto m i q = s.indirecto m i q := by
  have hnodo := nodo_eq m i
  have h1024 := nodo_eq m 1024
  have hi := hmapa.nodo_lt
  exact load32_congr fun x hx => h.antes (hmapa.base_le_dato p hp) (by rw [dirIndirecto]; omega)

/-- The pointers of the file to its blocks are in other blocks. -/
theorem dato (h : SoloBloque m (s.dato m i p) s s') (hmapa : Mapa m s i k) (hp : p < k)
    {q : ℕ} (hq : q < k) : s'.dato m i q = s.dato m i q := by
  rw [Estado.dato, h.indirecto hmapa hp (hmapa.lt_mil hq), Estado.dato]
  exact load32_congr fun x hx =>
    h.otro (hmapa.aparte p hp q hq).symm (by omega) (by omega)

/-- The bytes of the other positions are in other blocks. -/
theorem byteDe (h : SoloBloque m (s.dato m i p) s s') (hmapa : MapaCompleto m s i k) (hp : p < k)
    {x : ℕ} (hx : x / 4096 < k) (hne : x / 4096 ≠ p) : s'.byteDe m i x = s.byteDe m i x := by
  rw [Estado.byteDe, h.dato hmapa.toMapa hp hx, Estado.byteDe]
  exact h.otro (fun heq => hne (hmapa.dato_inj _ hx _ hp heq)) (by omega) (by omega)

theorem tamanio (h : SoloBloque m b s s') (hb : m.base ≤ b) (hj : j < 1024) :
    s'.tamanio m j = s.tamanio m j := by
  have hnodo := nodo_eq m j
  have h1024 := nodo_eq m 1024
  exact load32_congr fun x hx => h.antes hb (by rw [dirTamanio]; omega)

theorem mapaCompleto (h : SoloBloque m (s.dato m i p) s s') (hmapa : MapaCompleto m s i k)
    (hp : p < k) : MapaCompleto m s' i k :=
  hmapa.congr (fun _ hq => h.indirecto hmapa.toMapa hp (hmapa.lt_mil hq))
    (fun _ hq => h.dato hmapa.toMapa hp hq) fun c _ hc husado => by
      rw [h.testBit (hmapa.base_le_dato p hp) hc, husado]

theorem bloques_eq (h : SoloBloque m (s.dato m i p) s s') (hmapa : Mapa m s i k) (hp : p < k) :
    Bloques m s' i k = Bloques m s i k :=
  bloques_congr (fun _ hq => h.indirecto hmapa hp (hmapa.lt_mil hq)) fun _ hq => h.dato hmapa hp hq

theorem extiende (h : SoloBloque m (s.dato m i p) s s') (hmapa : MapaCompleto m s i k)
    (hp : p < k) : Extiende m i k k s s' where
  zona j hj := h.zona (hmapa.base_le_dato p hp) hj.mapa.nodo_lt fun hmem =>
    hj.aparte _ hmem ⟨p, hp, .inl rfl⟩
  aparte j hj b hb := by
    rw [h.bloques_eq hmapa.toMapa hp]
    exact hj.aparte b hb
  bloques := (h.bloques_eq hmapa.toMapa hp).ge
  crecen b hb husado := by rw [h.testBit (hmapa.base_le_dato p hp) hb, husado]
  nuevos b hb husado := .inl (by rwa [h.testBit (hmapa.base_le_dato p hp) hb] at husado)
  fichas j _ hj x hx hx' := by
    have hotro := nodo_eq m j
    have h1024 := nodo_eq m 1024
    exact h.antes (hmapa.base_le_dato p hp) (by omega)

end SoloBloque

/-! ## Bytes in the block of an offset -/

/-- The file after bytes have been put in the block of an offset, with the size that it gets. -/
def Estado.volcado (m : Montaje) (s : Estado) (i : ℤ) (off : ℕ) (l : List UInt8) : Estado :=
  (s.conMem (store s.mem (m.bloque (s.dato m i (off / 4096)) + (off % 4096 : ℕ)) l)).ponerTamanio
    m i (max (s.tamanio m i) (off + l.length))

section Volcado

variable {off : ℕ}

theorem soloBloque_volcado (hl : off % 4096 + l.length ≤ 4096) (s : Estado) :
    SoloBloque m (s.dato m i (off / 4096)) s
      (s.conMem (store s.mem (m.bloque (s.dato m i (off / 4096)) + (off % 4096 : ℕ)) l)) :=
  soloBloque_store (by omega) (by omega) s

/-- The bytes of the file after the store. -/
theorem byteDe_store (hmapa : MapaCompleto m s i k) (hoff : off / 4096 < k)
    (hl : off % 4096 + l.length ≤ 4096) {x : ℕ} (hx : x / 4096 < k) :
    (s.conMem (store s.mem (m.bloque (s.dato m i (off / 4096)) + (off % 4096 : ℕ)) l)).byteDe
        m i x =
      if off ≤ x ∧ x < off + l.length then l.getD (x - off) 0 else s.byteDe m i x := by
  have hsolo := soloBloque_volcado (m := m) (i := i) hl s
  by_cases hbloque : x / 4096 = off / 4096
  · rw [Estado.byteDe, hsolo.dato hmapa.toMapa hoff hx, Estado.byteDe, hbloque]
    split_ifs with hdentro
    · have hlt : x - off < l.length := by omega
      have hsuma : m.bloque (s.dato m i (off / 4096)) + (x % 4096 : ℕ) =
          m.bloque (s.dato m i (off / 4096)) + (off % 4096 : ℕ) + (x - off : ℕ) := by omega
      rw [hsuma, List.getD_eq_getElem _ _ hlt]
      exact store_getElem hlt
    · exact store_of_disjoint (by omega)
  · rw [if_neg (by omega)]
    exact hsolo.byteDe hmapa hoff hx hbloque

theorem mapaCompleto_volcado (hmapa : MapaCompleto m s i k) (hoff : off / 4096 < k)
    (hl : off % 4096 + l.length ≤ 4096) : MapaCompleto m (s.volcado m i off l) i k :=
  (soloCampos_ponerTamanio m i _ _).mapaCompleto
    ((soloBloque_volcado hl s).mapaCompleto hmapa hoff)

theorem extiende_volcado (hmapa : MapaCompleto m s i k) (hoff : off / 4096 < k)
    (hl : off % 4096 + l.length ≤ 4096) : Extiende m i k k s (s.volcado m i off l) :=
  ((soloBloque_volcado hl s).extiende hmapa hoff).trans
    ((soloCampos_ponerTamanio m i _ _).extiende
      ((soloBloque_volcado hl s).mapaCompleto hmapa hoff))

theorem testBit_volcado (hmapa : MapaCompleto m s i k) (hoff : off / 4096 < k)
    (hl : off % 4096 + l.length ≤ 4096) {b : ℤ} (hb : EnBitmap m b) :
    (s.volcado m i off l).testBit m b = s.testBit m b := by
  rw [Estado.volcado, (soloCampos_ponerTamanio m i _ _).testBit hmapa.nodo_nonneg hb,
    (soloBloque_volcado hl s).testBit (hmapa.base_le_dato _ hoff) hb]

theorem tamanio_volcado (hmax : off + l.length < 4294967296) :
    (s.volcado m i off l).tamanio m i = max (s.tamanio m i) (off + l.length) := by
  have hnonneg := tamanio_nonneg m s i
  have hlt : s.tamanio m i < 4294967296 := load32_lt _ _
  rw [Estado.volcado, tamanio_ponerTamanio, unsigned_eq_self (by omega) (by omega)]

/-- The contents are those of an ideal file after the write. -/
theorem archivo_volcado (hmapa : MapaCompleto m s i k) (hoff : off / 4096 < k)
    (hl : off % 4096 + l.length ≤ 4096) (hdesde : off ≤ s.tamanio m i)
    (hk : s.tamanio m i ≤ 4096 * k) (hmax : off + l.length < 4294967296) :
    (s.volcado m i off l).archivo m i = overwrite (s.archivo m i) off l := by
  have hlen := length_archivo m s i
  have hmapa' := (soloBloque_volcado hl s).mapaCompleto hmapa hoff
  refine List.ext_getElem? fun x => ?_
  rw [archivo_getElem?, tamanio_volcado hmax, getElem?_overwrite l (by omega), archivo_getElem?]
  by_cases hx : x / 4096 < k
  · rw [Estado.volcado, (soloCampos_ponerTamanio m i _ _).byteDe hmapa'.toMapa hx,
      byteDe_store hmapa hoff hl hx]
    split_ifs with hlt hdentro hviejo hdentro
    · rw [List.getElem?_eq_getElem (by omega), List.getD_eq_getElem _ _ (by omega)]
    · rfl
    · omega
    · omega
    · omega
    · rfl
  · rw [if_neg (by omega), if_neg (by omega), if_neg (by omega)]

end Volcado

/-! ## One more block -/

/-- What is cleared for the pointer block that position `k` takes, if it takes one, has no byte of
a block in use. -/
def Limpio (m : Montaje) (s : Estado) (c : ℤ) : Prop :=
  ∀ d, m.base ≤ d → EnBitmap m d → s.testBit m d = true → ¬ Pisa m c d

/-- The pointer blocks that are taken later depend on the bitmap only. -/
theorem limpio_congr (hm : Formateado m)
    (hbits : ∀ x, EnBitmap m x → s'.testBit m x = s.testBit m x) {p : ℕ} (hp : k ≤ 1024 * p)
    (h : Limpio m s (bloquePunteros m s i k p)) :
    Limpio m s' (bloquePunteros m s' i k p) := by
  intro d hd hbitmap husado
  rw [hbits d hbitmap] at husado
  rw [bloquePunteros_nuevo hp, libres_congr hm hbits, ← bloquePunteros_nuevo (i := i) hp]
  exact h d hd hbitmap husado

/-- A used block that is no pointer block of the file is not the one of the next position. -/
theorem ne_bloquePunteros {d : ℤ} (hlen : cuantos k (k + 1 - k) ≤ (libres m s).length)
    (husado : s.testBit m d = true) (hno : ∀ p < k, s.indirecto m i (p / 1024 : ℕ) ≠ d) :
    d ≠ bloquePunteros m s i k (k / 1024) := by
  rcases lt_or_ge (1024 * (k / 1024)) k with hviejo | hnuevo
  · rw [bloquePunteros_viejo hviejo]
    have hp := hno (1024 * (k / 1024)) hviejo
    rw [Nat.mul_div_cancel_left _ (by decide)] at hp
    exact hp.symm
  · obtain ⟨c, hc, heq⟩ := libre_bloquePunteros (i := i) hnuevo (Nat.lt_succ_of_le (by omega)) hlen
    rw [heq]
    exact ne_of_libre hc husado

namespace Agregado

variable {b c : ℤ}

/-- The blocks in use are as they were, but for the entry of the new position. -/
theorem bloque_mem (h : Agregado m i k b c s s') (hlimpio : k % 1024 = 0 → Limpio m s c) {d : ℤ}
    (hd : m.base ≤ d) (hbitmap : EnBitmap m d) (husado : s.testBit m d = true) (hne : d ≠ c)
    {x : ℤ} (hx : m.bloque d ≤ x) (hx' : x < m.bloque d + 4096) : s'.mem x = s.mem x := by
  have hdatos := enTabla_lt_bloque hd
  refine h.datos x (by omega) (fun hresto hborra => ?_) ?_
  · rw [Borra] at hborra
    exact hlimpio hresto d hd hbitmap husado ⟨by omega, by omega⟩
  · rw [dirEntrada]
    rcases lt_or_gt_of_ne hne with hlt | hgt
    · have hbloque := bloque_lt_of_lt (m := m) hlt
      omega
    · have hbloque := bloque_lt_of_lt (m := m) hgt
      omega

/-- The first fields of the nodes are before their pointers. -/
theorem ficha (h : Agregado m i k b c s s') (hj : 0 ≤ j) (hj' : j < 1024) :
    MismaFicha m j s s' := by
  intro x hx hx'
  have hnodo := nodo_eq m i
  have hotro := nodo_eq m j
  have h1024 := nodo_eq m 1024
  exact h.tabla x (by omega) (by omega) (by rw [dirIndirecto, dirIndirecto]; omega)

theorem usado (h : Agregado m i k b c s s') {x : ℤ} (hx : EnBitmap m x)
    (husado : s.testBit m x = true) : s'.testBit m x = true := by
  rw [h.bits x hx, husado, Bool.true_or, Bool.true_or]

/-- Another file is kept. -/
theorem zona (h : Agregado m i k b c s s') (hlimpio : k % 1024 = 0 → Limpio m s c)
    (hne : j ≠ i) {n : ℕ} (hmapa : MapaCompleto m s j n) (hno : ∀ d ∈ Bloques m s j n, d ≠ c) :
    MismaZona m j n s s' := by
  have hnodo := nodo_eq m i
  have hotro := nodo_eq m j
  have h1024 := nodo_eq m 1024
  have hj0 := hmapa.nodo_nonneg
  have hj' := hmapa.nodo_lt
  refine ⟨fun x hx hx' => ?_, fun d hd x hx hx' => ?_⟩
  · exact h.tabla x (by omega) (by omega) (by rw [dirIndirecto, dirIndirecto]; omega)
  · have hmem := hno d hd
    obtain ⟨p, hp, rfl | rfl⟩ := hd
    · exact h.bloque_mem hlimpio (hmapa.base_le_dato p hp) (hmapa.dato_enBitmap p hp)
        (hmapa.dato_usado p hp) hmem hx hx'
    · exact h.bloque_mem hlimpio (hmapa.base_le_indirecto p hp)
        (hmapa.indirecto_enBitmap p hp) (hmapa.indirecto_usado p hp) hmem hx hx'

end Agregado

/-- The file has one more position, with the first free block, and no file has other bytes. -/
structure Crecido (m : Montaje) (i : ℤ) (k : ℕ) (b : ℤ) (s s' : Estado) : Prop where
  dato : s'.dato m i k = b
  mapa : MapaCompleto m s' i (k + 1)
  extiende : Extiende m i k (k + 1) s s'
  archivo : s'.archivo m i = s.archivo m i
  tamanio : s'.tamanio m i = s.tamanio m i
  contador : s'.bitmapFreeBlocks = s.bitmapFreeBlocks
  libres_eq : libres m s' = (libres m s).drop (cuantos k 1)
  tomados : ∀ x, EnBitmap m x → s'.testBit m x = true →
    s.testBit m x = true ∨ ∃ e ∈ (libres m s).take (cuantos k 1), (e : ℤ) = x

theorem crecido_of_agregado (hm : Formateado m) {b : ℤ} (hmapa : MapaCompleto m s i k)
    (hk : k < 524288) (hpos : 0 < k) (htamanio : s.tamanio m i = 4096 * k)
    (hlen : cuantos k (k + 1 - k) ≤ (libres m s).length)
    (hlimpio : k % 1024 = 0 → Limpio m s (bloquePunteros m s i k (k / 1024)))
    (hb : b = ((libres m s).getD (cuantos k (k - k)) 0 : ℕ))
    (h : Agregado m i k b (bloquePunteros m s i k (k / 1024)) s s')
    (hampliado : Ampliado m s i k (k + 1) s') : Crecido m i k b s s' := by
  have huno : k + 1 - k = 1 := Nat.add_sub_cancel_left k 1
  have hbloques : bloquesDe (s.tamanio m i) = k := by
    rw [htamanio, bloquesDe, posiciones]
    omega
  have hno : ∀ p < k + 1, ¬ Borrado m s i k (k + 1) p := by
    refine fun p hp => not_borrado hmapa hlen (fun q r hq hq' hr => ?_) hp
    have hresto : k % 1024 = 0 := by omega
    have hdiv : q = k / 1024 := by omega
    have husado := hmapa.indirecto_usado (1024 * r) hr
    have hbitmap := hmapa.indirecto_enBitmap (1024 * r) hr
    have hbase := hmapa.base_le_indirecto (1024 * r) hr
    rw [Nat.mul_div_cancel_left _ (by decide)] at husado hbitmap hbase
    rw [hdiv]
    exact hlimpio hresto _ hbase hbitmap husado
  have hdato : ∀ p < k, s'.dato m i p = s.dato m i p := fun p hp => by
    rw [hampliado.dato p (by omega) (hno p (by omega)), bloqueDatos_viejo hp]
  have hindirecto : ∀ p < k, s'.indirecto m i (p / 1024 : ℕ) = s.indirecto m i (p / 1024 : ℕ) :=
    fun p hp => by rw [hampliado.indirecto _ (by omega), bloquePunteros_viejo (by omega)]
  have hnuevo : s'.dato m i k = b := by
    rw [Estado.dato, h.indirecto, h.puntero]
  obtain ⟨e, he, heq⟩ : ∃ e ∈ libres m s, b = (e : ℤ) := by
    refine ⟨_, getD_libres_mem (n := cuantos k (k - k)) ?_, hb⟩
    rw [huno] at hlen
    refine lt_of_lt_of_le ?_ hlen
    rw [Nat.sub_self, cuantos, cuantos]
    omega
  -- the blocks of another file are in use, and are neither of the two
  have hajeno : ∀ j, Ajeno m s i k j → ∀ d ∈ Bloques m s j (bloquesDe (s.tamanio m j)),
      d ≠ b ∧ d ≠ bloquePunteros m s i k (k / 1024) := by
    intro j hj d hd
    have haparte := hj.aparte d hd
    have husado : s.testBit m d = true := by
      obtain ⟨p, hp, rfl | rfl⟩ := hd
      · exact hj.mapa.dato_usado p hp
      · exact hj.mapa.indirecto_usado p hp
    refine ⟨heq ▸ ne_of_libre he husado, ne_bloquePunteros hlen husado fun p hp hmismo => ?_⟩
    exact haparte ⟨p, hp, .inr hmismo⟩
  have hextiende : Extiende m i k (k + 1) s s' := by
    refine ⟨fun j hj => h.zona hlimpio hj.otro hj.mapa fun d hd => (hajeno j hj d hd).2,
      fun j hj d hd => ?_, ?_, fun x hx husado => h.usado hx husado, fun x hx hmarcado => ?_,
      fun j hj hj' => h.ficha hj hj'⟩
    · have haparte := hj.aparte d hd
      obtain ⟨hdatos, hpunteros⟩ := hajeno j hj d hd
      rintro ⟨p, hp, hp'⟩
      rcases Nat.lt_succ_iff_lt_or_eq.1 hp with hlt | rfl
      · rw [hdato p hlt, hindirecto p hlt] at hp'
        exact haparte ⟨p, hlt, hp'⟩
      · rw [hnuevo, h.indirecto] at hp'
        exact hp'.elim (fun hp' => hdatos hp'.symm) fun hp' => hpunteros hp'.symm
    · rintro d ⟨p, hp, hp'⟩
      rw [← hdato p hp, ← hindirecto p hp] at hp'
      exact ⟨p, by omega, hp'⟩
    · rw [h.bits x hx, Bool.or_eq_true, Bool.or_eq_true, Bool.and_eq_true, decide_eq_true_iff,
        decide_eq_true_iff] at hmarcado
      rcases hmarcado with (hviejo | hb) | ⟨-, hc⟩
      · exact .inl hviejo
      · exact .inr ⟨k, Nat.lt_succ_self k, .inl (hnuevo.trans hb)⟩
      · exact .inr ⟨k, Nat.lt_succ_self k, .inr (h.indirecto.trans (of_decide_eq_true hc))⟩
  refine ⟨hnuevo, hampliado.mapaCompleto hm hmapa (Nat.le_succ k) (by omega) hlen hno, hextiende,
    ?_, h.tamanio hmapa.nodo_nonneg hmapa.nodo_lt, h.contador, ?_, fun x hx hmarcado => ?_⟩
  · refine archivo_eq_of_bytes (h.tamanio hmapa.nodo_nonneg hmapa.nodo_lt) fun x hx => ?_
    rw [hbloques] at hx
    rw [Estado.byteDe, hdato _ hx, Estado.byteDe]
    have husado := hmapa.dato_usado _ hx
    exact h.bloque_mem hlimpio (hmapa.base_le_dato _ hx) (hmapa.dato_enBitmap _ hx) husado
      (ne_bloquePunteros hlen husado fun p hp => (hmapa.aparte _ hx p hp).symm) (by omega)
      (by omega)
  · rw [hampliado.libres_eq, huno]
  · rw [hampliado.bits x hx, huno, Bool.or_eq_true, decide_eq_true_iff] at hmarcado
    exact hmarcado

/-! ## What an iteration puts -/

section Vuelta

variable {off : ℕ} {buf : List UInt8} {espacio : ℤ}

theorem ponerTamanio_self (h : n = s.tamanio m i) : s.ponerTamanio m i n = s := by
  rw [h, Estado.ponerTamanio, Estado.tamanio, store32_load32]
  rfl

/-- The size of the node after the store. -/
theorem tamanio_volcando (hmapa : Mapa m s i k) (hoff : off / 4096 < k) (buf : List UInt8) {a : ℤ}
    (ha : m.bloque (s.dato m i (off / 4096)) ≤ a) :
    (s.conMem (store s.mem a buf)).tamanio m i = s.tamanio m i :=
  tamanio_store hmapa.nodo_lt (hmapa.base_le_dato _ hoff) ha s

theorem tmod_of_emod_eq_zero (h : off % 4096 = 0) : (off : ℤ).tmod 4096 = 0 := by
  rw [Int.tmod_eq_emod_of_nonneg (Int.natCast_nonneg off)]
  omega

/-- A whole block at a multiple of its size, inside the file or at its end. -/
theorem volcar_entera (hmapa : Mapa m s i k) (hoff : off / 4096 < k) (espacio : ℤ)
    (hbuf : 4096 ≤ buf.length) (hresto : off % 4096 = 0) (hmax : off < 2147483648)
    (h : (off : ℤ) = s.tamanio m i ∨ off + 4096 ≤ s.tamanio m i) :
    volcar m i espacio (m.bloque (s.dato m i (off / 4096)))
        (Escritura.inicio (s.tamanio m i) off buf) s =
      (Escritura.inicio (max (s.tamanio m i) (off + 4096)) (off + 4096 : ℕ) (buf.drop 4096),
        s.volcado m i off (buf.take 4096)) := by
  have htamanio := tamanio_volcando (i := i) hmapa hoff (buf.take 4096) le_rfl
  have hlen : (buf.take 4096).length = 4096 := List.length_take_of_le hbuf
  have hresto' : ((off + 4096 : ℕ) : ℤ).tmod 4096 = 0 := tmod_of_emod_eq_zero (by omega)
  have hlen' : ((buf.drop 4096).length : ℤ) = buf.length - 4096 := by
    rw [List.length_drop]
    omega
  have hentero : (4096 : ℤ) ≤ buf.length := by omega
  have hunsigned : unsigned (off : ℤ) = off := unsigned_eq_self (by omega) (by omega)
  rw [volcar, Escritura.inicio, Escritura.inicio, Estado.volcado]
  dsimp only
  rw [if_pos hentero, htamanio, hunsigned, hlen, hlen', hresto', hresto, Nat.cast_zero, add_zero,
    Nat.cast_add, Estado.sumarTamanio, htamanio]
  rcases h with heq | hle
  · rw [if_pos heq.ge, if_pos heq.ge, tamanio_ponerTamanio, unsigned_eq_self (by omega) (by omega)]
    rw [Nat.cast_ofNat, max_eq_right (by omega), heq]
  · rw [if_neg (by omega), if_neg (by omega), Nat.cast_ofNat, max_eq_left hle,
      ponerTamanio_self htamanio.symm]

/-- Less than a block, which fits in the space that the loop finds. -/
theorem volcar_ultima (hmapa : Mapa m s i k) (hoff : off / 4096 < k) (hbuf : buf.length < 4096)
    (hcabe : (buf.length : ℤ) ≤ espacio) (hmax : off < 2147483648)
    (h : (off : ℤ) ≤ s.tamanio m i) :
    (volcar m i espacio (m.bloque (s.dato m i (off / 4096)))
        (Escritura.inicio (s.tamanio m i) off buf) s).1.tamanio = 0 ∧
      (volcar m i espacio (m.bloque (s.dato m i (off / 4096)))
        (Escritura.inicio (s.tamanio m i) off buf) s).2 = s.volcado m i off buf := by
  have htamanio := tamanio_volcando (i := i) hmapa hoff buf
    (le_add_of_nonneg_right (Int.natCast_nonneg (off % 4096)))
  have hresto : (off : ℤ).tmod 4096 = (off % 4096 : ℕ) := by
    rw [Int.tmod_eq_emod_of_nonneg (Int.natCast_nonneg off)]
    rfl
  have hunsigned : unsigned (off : ℤ) = off := unsigned_eq_self (by omega) (by omega)
  have hunsigned' : unsigned ((off : ℤ) + buf.length) = off + buf.length :=
    unsigned_eq_self (by omega) (by omega)
  refine ⟨volcar_resto _ _ (by simp only [Escritura.inicio]; omega) hcabe, ?_⟩
  rw [volcar, Escritura.inicio, Estado.volcado]
  dsimp only
  rw [if_neg (by omega), if_pos hcabe, Int.toNat_natCast, List.take_length, hresto, htamanio,
    hunsigned, hunsigned']
  split_ifs with hfin hpasa
  · rw [Estado.sumarTamanio, htamanio, max_eq_right (by omega), le_antisymm hfin h]
  · rw [max_eq_right (by omega)]
  · rw [max_eq_left (by omega), ponerTamanio_self htamanio.symm]

/-- What fills the last block, when there is more to write. -/
theorem volcar_llena (hmapa : Mapa m s i k) (hoff : off / 4096 < k) {w : ℕ}
    (hbuf : buf.length < 4096) (hw : w < buf.length) (hfin : (off : ℤ) = s.tamanio m i)
    (hllena : off % 4096 + w = 4096) (hmax : off < 2147483648) :
    volcar m i w (m.bloque (s.dato m i (off / 4096)))
        (Escritura.inicio (s.tamanio m i) off buf) s =
      (Escritura.inicio (max (s.tamanio m i) (off + w)) (off + w : ℕ) (buf.drop w),
        s.volcado m i off (buf.take w)) := by
  have htamanio := tamanio_volcando (i := i) hmapa hoff (buf.take w)
    (le_add_of_nonneg_right (Int.natCast_nonneg (off % 4096)))
  have hlen : (buf.take w).length = w := List.length_take_of_le hw.le
  have hlen' : ((buf.drop w).length : ℤ) = buf.length - w := by
    rw [List.length_drop]
    omega
  have hresto : (off : ℤ).tmod 4096 = (off % 4096 : ℕ) := by
    rw [Int.tmod_eq_emod_of_nonneg (Int.natCast_nonneg off)]
    rfl
  have hresto' : ((off + w : ℕ) : ℤ).tmod 4096 = 0 := tmod_of_emod_eq_zero (by omega)
  rw [volcar, Escritura.inicio, Escritura.inicio, Estado.volcado]
  dsimp only
  rw [if_neg (by omega), if_neg (by omega), Int.toNat_natCast, hresto, hresto', hlen, hlen',
    Estado.sumarTamanio, htamanio, tamanio_ponerTamanio, unsigned_eq_self (by omega) (by omega),
    max_eq_right (by omega), Nat.cast_add, hfin]

end Vuelta

end Sac
