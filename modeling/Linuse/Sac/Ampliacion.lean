import Linuse.Sac.Crecimiento
import Linuse.Sac.Recorte

/-!
# The next block of a file

The free blocks of the disk are taken in order. A file takes one for its next position, and
another for the pointers when the position is the first of a pointer block; the place that is
cleared for these is the one that the block would have among the headers.
-/

namespace Sac

open Memory

/-- The bitmap has a bit for each block of the disk, and their number is an `int`. -/
structure Formateado (m : Montaje) : Prop where
  cubre : m.bloques ≤ 32768 * m.tamanioBitmap
  entero : m.bloques < 2147483648

/-- The free data blocks of the disk. -/
def libres (m : Montaje) (s : Estado) : List ℕ :=
  (List.range' m.base.toNat (m.bloques - m.base.toNat)).filter fun b : ℕ => !s.testBit m b

variable {m : Montaje} {s s' : Estado} {i : ℤ} {b c : ℕ} {l : List ℕ}

theorem base_nonneg (m : Montaje) : 0 ≤ m.base := by
  rw [Montaje.base]
  omega

theorem mem_libres : b ∈ libres m s ↔ m.base ≤ b ∧ b < m.bloques ∧ s.testBit m b = false := by
  have hbase := base_nonneg m
  have hrango : m.base.toNat ≤ b ∧ b < m.base.toNat + (m.bloques - m.base.toNat) ↔
      m.base ≤ b ∧ b < m.bloques := by omega
  rw [libres, List.mem_filter, List.mem_range'_1, Bool.not_eq_true', hrango, and_assoc]

theorem libres_pairwise (m : Montaje) (s : Estado) : (libres m s).Pairwise (· < ·) :=
  List.Pairwise.filter _ List.pairwise_lt_range'

theorem Formateado.enBitmap (h : Formateado m) {x : ℤ} (hx : 0 ≤ x) (hlt : x < m.bloques) :
    EnBitmap m x := by
  have hcubre := h.cubre
  exact ⟨hx, by omega⟩

theorem libres_congr (hm : Formateado m)
    (hbits : ∀ x, EnBitmap m x → s'.testBit m x = s.testBit m x) : libres m s' = libres m s := by
  refine List.filter_congr fun x hx => ?_
  rw [List.mem_range'_1] at hx
  have hbase := base_nonneg m
  rw [hbits x (hm.enBitmap (by omega) (by omega))]

/-- The search finds the first of them. -/
theorem primerLibre_of_libres (h : libres m s = b :: l) : primerLibre m s = some (b : ℤ) := by
  have hpartes : List.range' m.base.toNat (m.maxBit - m.base.toNat) =
      List.range' m.base.toNat (m.bloques - m.base.toNat) ++
        List.range' (m.base.toNat + (m.bloques - m.base.toNat))
          (m.maxBit - m.base.toNat - (m.bloques - m.base.toNat)) := by
    rw [List.range'_append_1, Nat.add_sub_cancel' (by rw [Montaje.maxBit]; omega)]
  have hprimero := List.head?_filter (p := fun b : ℕ => !s.testBit m b)
    (l := List.range' m.base.toNat (m.bloques - m.base.toNat))
  rw [show List.filter (fun b : ℕ => !s.testBit m b) _ = b :: l from h, List.head?_cons] at hprimero
  rw [primerLibre, hpartes, List.find?_append, ← hprimero, Option.some_or, Option.map_some]

/-- Taking the first one leaves the others. -/
theorem libres_of_bits (hm : Formateado m) (h : libres m s = b :: l)
    (hbits : ∀ x, EnBitmap m x → s'.testBit m x = (decide ((b : ℤ) = x) || s.testBit m x)) :
    libres m s' = l := by
  have hmenor := libres_pairwise m s
  rw [h, List.pairwise_cons] at hmenor
  have hfiltro : libres m s' = (libres m s).filter fun x => !decide (b = x) := by
    rw [libres, libres, List.filter_filter]
    refine List.filter_congr fun x hx => ?_
    rw [List.mem_range'_1] at hx
    have hbase := base_nonneg m
    rw [hbits x (hm.enBitmap (by omega) (by omega)), Bool.not_or]
    simp only [Nat.cast_inj]
  rw [hfiltro, h, List.filter_cons_of_neg (by simp), List.filter_eq_self]
  intro x hx
  have hlt := hmenor.1 x hx
  rw [decide_eq_false (by omega), Bool.not_false]

/-! ## What is cleared -/

/-- The address is in the place of block `c` among the headers, which is cleared when the
block is to hold pointers. -/
def Borra (c x : ℤ) : Prop := headerStart c ≤ x ∧ x < headerStart c + 4096

instance (c x : ℤ) : Decidable (Borra c x) := inferInstanceAs (Decidable (_ ∧ _))

/-- The address of the entry of a position in pointer block `c`. -/
def dirEntrada (m : Montaje) (c : ℤ) (k : ℕ) : ℤ := m.bloque c + 4 * (k % 1024 : ℕ)

/-- The clearing does not reach the blocks before. -/
theorem not_borra_of_lt {c d x : ℤ} (hd : m.base ≤ d) (hdc : d < c) (hx : x < m.bloque d + 4096) :
    ¬ Borra c x := by
  have hcabecera := headerStart_eq m c
  have hbloque := bloque_eq m d
  rintro ⟨hle, -⟩
  omega

/-- Entries are cleared as a whole. -/
theorem borra_entrada_iff {c d : ℤ} {k : ℕ} {x : ℕ} (hx : x < 4) :
    Borra c (dirEntrada m d k + x) ↔ Borra c (dirEntrada m d k) := by
  have hcabecera := headerStart_eq m c
  have hbloque := bloque_eq m d
  rw [Borra, Borra, dirEntrada]
  omega

section Punteros

variable {p c b : ℤ} (t : Estado)

theorem conPunteros_mem {x : ℤ} (hborra : ¬ Borra c x)
    (hindirecto : x < dirIndirecto m i p ∨ dirIndirecto m i p + 8 ≤ x)
    (hentrada : x < m.bloque c ∨ m.bloque c + 4 ≤ x) :
    (conPunteros m i p c b t).mem x = t.mem x := by
  rw [Borra] at hborra
  rw [conPunteros, ponerPuntero_mem m _ (by omega),
    ponerIndirecto_mem m _ i (by simp only [dirIndirecto] at hindirecto ⊢; omega),
    ponerIndirecto_mem m _ i (by omega)]
  exact conMem_fill_mem t (by omega)

theorem conPunteros_borrado {x : ℤ} (hborra : Borra c x)
    (hindirecto : x < dirIndirecto m i p ∨ dirIndirecto m i p + 8 ≤ x)
    (hentrada : x < m.bloque c ∨ m.bloque c + 4 ≤ x) :
    (conPunteros m i p c b t).mem x = 0 := by
  rw [conPunteros, ponerPuntero_mem m _ (by omega),
    ponerIndirecto_mem m _ i (by simp only [dirIndirecto] at hindirecto ⊢; omega),
    ponerIndirecto_mem m _ i (by omega)]
  exact fill_of_mem hborra.1 hborra.2

theorem puntero_conPunteros : (conPunteros m i p c b t).puntero m c 0 = unsigned b :=
  puntero_ponerPuntero m _ c 0 b

theorem indirecto_conPunteros (hc : m.base ≤ c) (hi : i < 1024) (hp : p < 1000) :
    (conPunteros m i p c b t).indirecto m i p = unsigned c := by
  have hnodo := nodo_eq m i
  have h1024 := nodo_eq m 1024
  have hdatos := enTabla_lt_bloque (m := m) hc
  rw [conPunteros, Estado.indirecto]
  refine (load32_congr fun x hx => ?_).trans
    (indirecto_ponerIndirecto m (t.conMem (fill t.mem (headerStart c) 4096 0)) i p c)
  rw [ponerPuntero_mem m _ (.inl (by rw [dirIndirecto]; omega)),
    ponerIndirecto_mem m _ i (.inl (by rw [dirIndirecto, dirIndirecto]; omega))]

end Punteros

/-! ## A position more -/

/-- Position `k` of the file has been added with data block `b`; its pointer is in block `c`,
which is new for the first position of a pointer block. -/
structure Agregado (m : Montaje) (i : ℤ) (k : ℕ) (b c : ℤ) (s s' : Estado) : Prop where
  bits : ∀ x, EnBitmap m x → s'.testBit m x =
    (s.testBit m x || decide (b = x) || (decide (k % 1024 = 0) && decide (c = x)))
  indirecto : s'.indirecto m i (k / 1024 : ℕ) = c
  antes : ∀ p : ℕ, p < k / 1024 → s'.indirecto m i p = s.indirecto m i p
  puntero : s'.puntero m c (k % 1024 : ℕ) = b
  borrado : k % 1024 = 0 → ∀ x, m.nodo 1024 ≤ x → Borra c x →
    (x < dirEntrada m c k ∨ dirEntrada m c k + 4 ≤ x) → s'.mem x = 0
  datos : ∀ x, m.nodo 1024 ≤ x → (k % 1024 = 0 → ¬ Borra c x) →
    (x < dirEntrada m c k ∨ dirEntrada m c k + 4 ≤ x) → s'.mem x = s.mem x
  tabla : ∀ x, m.nodo 0 ≤ x → x < m.nodo 1024 →
    (x < dirIndirecto m i 0 ∨ dirIndirecto m i 1000 ≤ x) → s'.mem x = s.mem x
  contador : s'.bitmapFreeBlocks = s.bitmapFreeBlocks

/-- Setting a bit of the bitmap changes nothing from the table on. -/
theorem setBit_mem {b x : ℤ} (hb : EnBitmap m b) (hx : m.nodo 0 ≤ x) (s : Estado) :
    (s.setBit m b).mem x = s.mem x := by
  have hcero := nodo_cero m
  have hb8 := hb.2
  exact setBit_of_ne s (by omega)

/-- The test of a bit depends on the bytes before the table only. -/
theorem testBit_of_antes {x : ℤ} (hx : EnBitmap m x) (h : ∀ a, a < m.nodo 0 → s'.mem a = s.mem a) :
    s'.testBit m x = s.testBit m x := by
  have hcero := nodo_cero m
  have hx8 := hx.2
  rw [Estado.testBit, h _ (by omega), Estado.testBit]

/-- A block for the data is enough when its pointer is not the first of a pointer block. -/
theorem agregado_siguiente (hm : Formateado m) {k : ℕ} (hi : 0 ≤ i) (hi' : i < 1024)
    (hk : k < 524288) (hresto : k % 1024 ≠ 0) (htamanio : s.tamanio m i = 4096 * k)
    (hbase : m.base ≤ s.indirecto m i (k / 1024 : ℕ)) (hlibres : libres m s = b :: l) :
    ∃ s', agregarBloqueLibre m i b (s.setBit m b) = some (0, s') ∧
      Agregado m i k b (s.indirecto m i (k / 1024 : ℕ)) s s' ∧ libres m s' = l := by
  obtain ⟨hb, hlt, -⟩ := mem_libres.1 (hlibres ▸ List.mem_cons_self)
  have hb0 := base_nonneg m
  have hentero := hm.entero
  have hbitmap := hm.enBitmap (x := b) (by omega) (by omega)
  have hnodo := nodo_eq m i
  have h1024 := nodo_eq m 1024
  have hfijo : ∀ x, m.nodo 0 ≤ x → (s.setBit m b).mem x = s.mem x :=
    fun x hx => setBit_mem hbitmap hx s
  have htamanio' : (s.setBit m b).tamanio m i = 4096 * k := by
    rw [← htamanio]
    exact load32_congr fun x hx => hfijo _ (by rw [dirTamanio]; omega)
  have hindirecto : (s.setBit m b).indirecto m i (k / 1024 : ℕ) =
      s.indirecto m i (k / 1024 : ℕ) :=
    load32_congr fun x hx => hfijo _ (by rw [dirIndirecto]; omega)
  have hposicion : settearPosicion ((s.setBit m b).tamanio m i) =
      (((k / 1024 : ℕ) : ℤ), ((k % 1024 : ℕ) : ℤ)) := by
    rw [htamanio', settearPosicion_eq (by omega) (by omega), Prod.mk.injEq]
    omega
  generalize hc : s.indirecto m i (k / 1024 : ℕ) = c at hbase hindirecto ⊢
  have hdatos := enTabla_lt_bloque (m := m) hbase
  have hmem : ∀ x, (x < dirEntrada m c k ∨ dirEntrada m c k + 4 ≤ x) →
      ((s.setBit m b).ponerPuntero m c (k % 1024 : ℕ) b).mem x = (s.setBit m b).mem x :=
    fun x hx => ponerPuntero_mem m _ hx
  have hentrada : m.bloque c ≤ dirEntrada m c k := by
    rw [dirEntrada]
    omega
  have hbits : ∀ x, EnBitmap m x →
      ((s.setBit m b).ponerPuntero m c (k % 1024 : ℕ) b).testBit m x =
        (decide ((b : ℤ) = x) || s.testBit m x) := fun x hx => by
    rw [testBit_of_antes hx fun a ha => hmem a (by omega), testBit_setBit]
  refine ⟨(s.setBit m b).ponerPuntero m c (k % 1024 : ℕ) b, ?_, ?_,
    libres_of_bits hm hlibres hbits⟩
  · rw [agregarBloqueLibre_siguiente b hposicion (by omega) (by omega), hindirecto]
  constructor
  · intro x hx
    rw [hbits x hx, decide_eq_false hresto, Bool.false_and, Bool.or_false, Bool.or_comm]
  · rw [Estado.indirecto, load32_congr fun x hx => hmem _ (by rw [dirIndirecto]; omega)]
    exact hindirecto
  · intro p hp
    refine load32_congr fun x hx => ?_
    rw [hmem _ (by rw [dirIndirecto]; omega), hfijo _ (by rw [dirIndirecto]; omega)]
  · rw [puntero_ponerPuntero, unsigned_eq_self (by omega) (by omega)]
  · exact fun h => absurd h hresto
  · intro x hx _ hfuera
    rw [hmem x hfuera, hfijo x (by omega)]
  · intro x hx hlt _
    rw [hmem x (by omega), hfijo x hx]
  · rfl

/-- For the first position of a pointer block the file takes one more block. -/
theorem agregado_primero (hm : Formateado m) {k : ℕ} (hi : 0 ≤ i) (hi' : i < 1024)
    (hk : k < 524288) (hresto : k % 1024 = 0) (htamanio : s.tamanio m i = 4096 * k)
    (hlibres : libres m s = b :: c :: l) :
    ∃ s', agregarBloqueLibre m i b (s.setBit m b) = some (0, s') ∧ Agregado m i k b c s s' ∧
      libres m s' = l := by
  obtain ⟨hb, hlt, -⟩ := mem_libres.1 (hlibres ▸ List.mem_cons_self)
  obtain ⟨hc, hclt, -⟩ := mem_libres.1 (hlibres ▸ List.mem_cons_of_mem b List.mem_cons_self)
  have hb0 := base_nonneg m
  have hentero := hm.entero
  have hbitmap := hm.enBitmap (x := b) (by omega) (by omega)
  have hbitmap' := hm.enBitmap (x := c) (by omega) (by omega)
  have hnodo := nodo_eq m i
  have h1024 := nodo_eq m 1024
  have hdatos := enTabla_lt_bloque (m := m) hc
  have hfijo : ∀ x, m.nodo 0 ≤ x → ((s.setBit m b).setBit m c).mem x = s.mem x := fun x hx => by
    rw [setBit_mem hbitmap' hx, setBit_mem hbitmap hx]
  have htamanio' : (s.setBit m b).tamanio m i = 4096 * k := by
    rw [← htamanio]
    exact load32_congr fun x hx => setBit_mem hbitmap (by rw [dirTamanio]; omega) s
  have hposicion : settearPosicion ((s.setBit m b).tamanio m i) = (((k / 1024 : ℕ) : ℤ), 0) := by
    rw [htamanio', settearPosicion_eq (by omega) (by omega), Prod.mk.injEq]
    omega
  have hmenos : libres m (s.setBit m b) = c :: l :=
    libres_of_bits hm hlibres fun x _ => testBit_setBit s b x
  have hentrada : dirEntrada m c k = m.bloque c := by
    rw [dirEntrada, hresto, Nat.cast_zero, mul_zero, add_zero]
  have hcabecera := headerStart_eq m c
  have hbase := bloque_base m
  have hfuera : ∀ x, x < m.bloque m.base → ¬ Borra c x := fun x hx h => by
    rw [Borra] at h
    omega
  have hmem : ∀ x, ¬ Borra c x → (x < dirIndirecto m i (k / 1024 : ℕ) ∨
      dirIndirecto m i (k / 1024 : ℕ) + 8 ≤ x) → (x < m.bloque c ∨ m.bloque c + 4 ≤ x) →
        (conPunteros m i (k / 1024 : ℕ) c b ((s.setBit m b).setBit m c)).mem x =
          ((s.setBit m b).setBit m c).mem x := fun x => conPunteros_mem _
  have hbits : ∀ x, EnBitmap m x →
      (conPunteros m i (k / 1024 : ℕ) c b ((s.setBit m b).setBit m c)).testBit m x =
        (decide ((c : ℤ) = x) || (s.setBit m b).testBit m x) := fun x hx => by
    rw [testBit_of_antes hx fun a ha => hmem a (hfuera a (by omega))
      (.inl (by rw [dirIndirecto]; omega)) (by omega), testBit_setBit]
  refine ⟨conPunteros m i (k / 1024 : ℕ) c b ((s.setBit m b).setBit m c), ?_, ?_,
    libres_of_bits hm hmenos hbits⟩
  · rw [agregarBloqueLibre_primero b hposicion,
      obtenerBloqueLibre_eq (primerLibre_of_libres hmenos), Option.map_some]
  constructor
  · intro x hx
    rw [hbits x hx, testBit_setBit, decide_eq_true hresto, Bool.true_and, Bool.or_comm,
      Bool.or_comm (decide ((b : ℤ) = x))]
  · rw [indirecto_conPunteros _ hc hi' (by omega), unsigned_eq_self (by omega) (by omega)]
  · intro p hp
    refine load32_congr fun x hx => ?_
    rw [hmem _ (hfuera _ (by rw [dirIndirecto]; omega))
      (.inl (by rw [dirIndirecto, dirIndirecto]; omega)) (.inl (by rw [dirIndirecto]; omega)),
      hfijo _ (by rw [dirIndirecto]; omega)]
  · rw [hresto, Nat.cast_zero, puntero_conPunteros, unsigned_eq_self (by omega) (by omega)]
  · intro _ x hx hborra hx'
    exact conPunteros_borrado _ hborra (.inr (by rw [dirIndirecto]; omega)) (by omega)
  · intro x hx hborra hx'
    rw [hmem x (hborra hresto) (.inr (by rw [dirIndirecto]; omega)) (by omega),
      hfijo x (by omega)]
  · intro x hx hlt' hx'
    rw [hmem x (hfuera x (by omega)) (by simp only [dirIndirecto] at hx' ⊢; omega) (by omega),
      hfijo x hx]
  · rfl

/-- The size of the node is not changed yet. -/
theorem Agregado.tamanio {k : ℕ} {b c : ℤ} (h : Agregado m i k b c s s') (hi : 0 ≤ i)
    (hi' : i < 1024) : s'.tamanio m i = s.tamanio m i := by
  have hnodo := nodo_eq m i
  have h1024 := nodo_eq m 1024
  exact load32_congr fun x hx => h.tabla _ (by rw [dirTamanio]; omega)
    (by rw [dirTamanio]; omega) (.inl (by rw [dirTamanio, dirIndirecto]; omega))

/-- Four zero bytes. -/
theorem load32_cero {mem : Mem} {a : ℤ} (h : ∀ x : ℕ, x < 4 → mem (a + x) = 0) :
    load32 mem a = 0 :=
  (load32_congr (m := fun _ => 0) h).trans rfl

/-! ## Several positions more -/

/-- The number of blocks that a file takes for `n` positions from `k` on: one for each, and
one for each pointer block that begins there. -/
def cuantos (k n : ℕ) : ℕ := n + ((k + n + 1023) / 1024 - (k + 1023) / 1024)

theorem cuantos_succ_siguiente {k n : ℕ} (h : (k + n) % 1024 ≠ 0) :
    cuantos k (n + 1) = cuantos k n + 1 := by
  rw [cuantos, cuantos]
  omega

theorem cuantos_succ_primero {k n : ℕ} (h : (k + n) % 1024 = 0) :
    cuantos k (n + 1) = cuantos k n + 2 := by
  rw [cuantos, cuantos]
  omega

theorem cuantos_mono {k n l : ℕ} (h : n ≤ l) : cuantos k n ≤ cuantos k l := by
  rw [cuantos, cuantos]
  omega

section Reparto

variable (m : Montaje) (s : Estado) (i : ℤ) (K : ℕ)

/-- The pointer block of the positions from `1024 * p` on, when a file of `K` positions takes
free blocks for more. -/
def bloquePunteros (p : ℕ) : ℤ :=
  if 1024 * p < K then s.indirecto m i p
  else ((libres m s).getD (cuantos K (1024 * p - K) + 1) 0 : ℕ)

/-- The data block of a position of that file. -/
def bloqueDatos (j : ℕ) : ℤ :=
  if j < K then s.dato m i j else ((libres m s).getD (cuantos K (j - K)) 0 : ℕ)

/-- The pointer to the data block of the position has been cleared for a pointer block that
the file has taken after it. -/
def Borrado (k j : ℕ) : Prop :=
  ∃ p : ℕ, K ≤ 1024 * p ∧ 1024 * p < k ∧ j < 1024 * p ∧
    Borra (bloquePunteros m s i K p) (dirEntrada m (bloquePunteros m s i K (j / 1024)) j)

/-- The file has taken free blocks for the positions from `K` to `k`. -/
structure Ampliado (k : ℕ) (s' : Estado) : Prop where
  bits : ∀ x, EnBitmap m x → s'.testBit m x =
    (s.testBit m x || decide (∃ e ∈ (libres m s).take (cuantos K (k - K)), (e : ℤ) = x))
  libres_eq : libres m s' = (libres m s).drop (cuantos K (k - K))
  indirecto : ∀ p : ℕ, 1024 * p < k → s'.indirecto m i p = bloquePunteros m s i K p
  dato : ∀ j < k, ¬ Borrado m s i K k j → s'.dato m i j = bloqueDatos m s i K j
  dato_borrado : ∀ j < k, Borrado m s i K k j → s'.dato m i j = 0

end Reparto

variable {K k : ℕ} {s₀ : Estado}

theorem ampliado_refl (m : Montaje) (s : Estado) (i : ℤ) (K : ℕ) : Ampliado m s i K K s where
  bits x _ := by simp [cuantos]
  libres_eq := by simp [cuantos]
  indirecto p hp := by rw [bloquePunteros, if_pos hp]
  dato j hj _ := by rw [bloqueDatos, if_pos hj]
  dato_borrado j _ h := by
    obtain ⟨p, hp, hp', -⟩ := h
    omega

/-- The blocks that a file takes are free ones of the disk. -/
theorem getD_libres_mem {n : ℕ} (h : n < (libres m s).length) :
    (libres m s).getD n 0 ∈ libres m s := by
  rw [List.getD_eq_getElem _ _ h]
  exact List.getElem_mem h

theorem getD_libres_lt {n l : ℕ} (h : n < l) (h' : l < (libres m s).length) :
    (libres m s).getD n 0 < (libres m s).getD l 0 := by
  rw [List.getD_eq_getElem _ _ h', List.getD_eq_getElem _ _ (h.trans h')]
  exact List.pairwise_iff_getElem.1 (libres_pairwise m s) n l _ h' h

theorem mem_take_succ_libres {n x : ℕ} (h : n < (libres m s).length) :
    x ∈ (libres m s).take (n + 1) ↔ x ∈ (libres m s).take n ∨ x = (libres m s).getD n 0 := by
  rw [List.take_add_one, List.getElem?_eq_getElem h, List.getD_eq_getElem _ _ h,
    Option.toList_some, List.mem_append, List.mem_singleton]

/-- The blocks that position `k` takes, after those of the positions from `K` to it. -/
theorem mem_take_cuantos {x : ℕ} (hK : K ≤ k)
    (hlen : cuantos K (k + 1 - K) ≤ (libres m s).length) :
    x ∈ (libres m s).take (cuantos K (k + 1 - K)) ↔
      x ∈ (libres m s).take (cuantos K (k - K)) ∨
        x = (libres m s).getD (cuantos K (k - K)) 0 ∨
        k % 1024 = 0 ∧ x = (libres m s).getD (cuantos K (k - K) + 1) 0 := by
  have hsuma : k + 1 - K = k - K + 1 := by omega
  rw [hsuma] at hlen ⊢
  by_cases hresto : k % 1024 = 0
  · rw [cuantos_succ_primero (by omega)] at hlen ⊢
    rw [mem_take_succ_libres (n := cuantos K (k - K) + 1) (by omega),
      mem_take_succ_libres (by omega), or_assoc]
    simp only [hresto, true_and]
  · rw [cuantos_succ_siguiente (by omega)] at hlen ⊢
    rw [mem_take_succ_libres (by omega)]
    simp only [hresto, false_and, or_false]

/-- The pointer blocks are data blocks of the disk. -/
theorem base_le_bloquePunteros (hmapa : MapaCompleto m s i K) {p : ℕ} (hp : 1024 * p < k)
    (hlen : cuantos K (k - K) ≤ (libres m s).length) : m.base ≤ bloquePunteros m s i K p := by
  rw [bloquePunteros]
  split_ifs with hviejo
  · have h := hmapa.base_le_indirecto (1024 * p) hviejo
    rwa [Nat.mul_div_cancel_left p (by decide)] at h
  · refine (mem_libres.1 (getD_libres_mem ?_)).1
    have hmas := cuantos_succ_primero (k := K) (n := 1024 * p - K) (by omega)
    have hmono := cuantos_mono (k := K) (n := 1024 * p - K + 1) (l := k - K) (by omega)
    omega

/-- They are different: one that is new comes after those that are new before it. -/
theorem bloquePunteros_ne (hmapa : MapaCompleto m s i K) {p q : ℕ} (hqp : q < p)
    (hp : 1024 * p < k) (hlen : cuantos K (k - K) ≤ (libres m s).length) :
    bloquePunteros m s i K q ≠ bloquePunteros m s i K p ∧
      (K ≤ 1024 * q → bloquePunteros m s i K q < bloquePunteros m s i K p) := by
  rw [bloquePunteros, bloquePunteros]
  have hp' : 1024 * p < K ∨ cuantos K (1024 * p - K) + 1 < (libres m s).length := by
    rcases lt_or_ge (1024 * p) K with h | h
    · exact .inl h
    · have hmas := cuantos_succ_primero (k := K) (n := 1024 * p - K) (by omega)
      have hmono := cuantos_mono (k := K) (n := 1024 * p - K + 1) (l := k - K) (by omega)
      omega
  rcases lt_or_ge (1024 * q) K with hq | hq
  · refine ⟨?_, fun h => absurd h (by omega)⟩
    rw [if_pos hq]
    split_ifs with hviejo
    · intro heq
      have hinj := hmapa.indirecto_inj (1024 * q) hq (1024 * p) hviejo
      simp only [Nat.mul_div_cancel_left _ (show 0 < 1024 by decide)] at hinj
      exact absurd (hinj heq) (by omega)
    · have hlibre := (mem_libres.1 (getD_libres_mem (m := m) (s := s)
        (hp'.resolve_left hviejo))).2.2
      have husado := hmapa.indirecto_usado (1024 * q) hq
      rw [Nat.mul_div_cancel_left _ (show 0 < 1024 by decide)] at husado
      intro heq
      rw [heq, hlibre] at husado
      cases husado
  · rw [if_neg (by omega), if_neg (by omega)]
    have hmono := cuantos_mono (k := K) (n := 1024 * q - K) (l := 1024 * p - K) (by omega)
    have hmas := cuantos_succ_primero (k := K) (n := 1024 * q - K) (by omega)
    have hmono' := cuantos_mono (k := K) (n := 1024 * q - K + 1) (l := 1024 * p - K) (by omega)
    have hlt := getD_libres_lt (m := m) (s := s) (n := cuantos K (1024 * q - K) + 1)
      (l := cuantos K (1024 * p - K) + 1) (by omega) (hp'.resolve_left (by omega))
    omega

/-- The entry of the new position is not that of another one. -/
theorem entrada_aparte (hmapa : MapaCompleto m s i K) {j x : ℕ} (hj : j < k) (hx : x < 4)
    (hlen : cuantos K (k + 1 - K) ≤ (libres m s).length) :
    dirEntrada m (bloquePunteros m s i K (j / 1024)) j + x <
        dirEntrada m (bloquePunteros m s i K (k / 1024)) k ∨
      dirEntrada m (bloquePunteros m s i K (k / 1024)) k + 4 ≤
        dirEntrada m (bloquePunteros m s i K (j / 1024)) j + x := by
  rw [dirEntrada, dirEntrada]
  rcases (Nat.div_le_div_right hj.le : j / 1024 ≤ k / 1024).lt_or_eq with hlt | heq
  · have hne := (bloquePunteros_ne (k := k + 1) hmapa hlt (by omega) hlen).1
    rcases lt_or_gt_of_ne hne with h | h
    · have hbloque := bloque_lt_of_lt (m := m) h
      omega
    · have hbloque := bloque_lt_of_lt (m := m) h
      omega
  · rw [heq]
    omega

theorem Ampliado.agrega {b c : ℤ} (h : Ampliado m s i K k s₀) (hmapa : MapaCompleto m s i K)
    (hK : K ≤ k) (hlen : cuantos K (k + 1 - K) ≤ (libres m s).length)
    (hb : b = ((libres m s).getD (cuantos K (k - K)) 0 : ℕ))
    (hc : c = bloquePunteros m s i K (k / 1024)) (ha : Agregado m i k b c s₀ s')
    (hlibres : libres m s' = (libres m s).drop (cuantos K (k + 1 - K))) :
    Ampliado m s i K (k + 1) s' := by
  have hindirecto : ∀ p : ℕ, 1024 * p < k + 1 →
      s'.indirecto m i p = bloquePunteros m s i K p := by
    intro p hp
    rcases (show p ≤ k / 1024 by omega).lt_or_eq with hlt | rfl
    · rw [ha.antes p hlt, h.indirecto p (by omega)]
    · rw [ha.indirecto, hc]
  have hdato : s'.dato m i k = bloqueDatos m s i K k := by
    rw [Estado.dato, ha.indirecto, ha.puntero, bloqueDatos, if_neg (by omega), hb]
  -- the entry of a position before is as it was, or it is cleared
  have hviejo : ∀ j < k, (k % 1024 = 0 → ¬ Borra c (dirEntrada m
      (bloquePunteros m s i K (j / 1024)) j)) → s'.dato m i j = s₀.dato m i j := by
    intro j hj hborra
    have hbase := base_le_bloquePunteros (p := j / 1024) (k := k + 1) hmapa (by omega) hlen
    have hdatos := enTabla_lt_bloque (m := m) hbase
    rw [Estado.dato, Estado.dato, hindirecto _ (by omega), h.indirecto _ (by omega)]
    refine load32_congr fun x hx => ha.datos _ (by omega) (fun hresto => ?_) ?_
    · exact fun hcae => hborra hresto ((borra_entrada_iff hx).1 hcae)
    · rw [hc]
      exact entrada_aparte hmapa hj hx hlen
  have hnulo : ∀ j < k, k % 1024 = 0 → Borra c (dirEntrada m
      (bloquePunteros m s i K (j / 1024)) j) → s'.dato m i j = 0 := by
    intro j hj hresto hborra
    have hbase := base_le_bloquePunteros (p := j / 1024) (k := k + 1) hmapa (by omega) hlen
    have hdatos := enTabla_lt_bloque (m := m) hbase
    have hcero : ∀ x : ℕ, x < 4 →
        s'.mem (dirEntrada m (bloquePunteros m s i K (j / 1024)) j + x) = 0 := by
      intro x hx
      refine ha.borrado hresto _ (by rw [dirEntrada]; omega) ((borra_entrada_iff hx).2 hborra) ?_
      rw [hc]
      exact entrada_aparte hmapa hj hx hlen
    rw [Estado.dato, hindirecto _ (by omega)]
    exact load32_cero hcero
  have hmas : ∀ j, Borrado m s i K (k + 1) j ↔ Borrado m s i K k j ∨
      K ≤ k ∧ k % 1024 = 0 ∧ j < k ∧
        Borra c (dirEntrada m (bloquePunteros m s i K (j / 1024)) j) := by
    intro j
    constructor
    · rintro ⟨p, hp, hpk, hjp, hborra⟩
      rcases (show 1024 * p ≤ k by omega).lt_or_eq with hlt | rfl
      · exact .inl ⟨p, hp, hlt, hjp, hborra⟩
      · refine .inr ⟨hp, by omega, hjp, ?_⟩
        rwa [hc, Nat.mul_div_cancel_left p (by decide)]
    · rintro (⟨p, hp, hpk, hjp, hborra⟩ | ⟨hp, hresto, hjk, hborra⟩)
      · exact ⟨p, hp, by omega, hjp, hborra⟩
      · exact ⟨k / 1024, by omega, by omega, by omega, hc ▸ hborra⟩
  refine ⟨?_, hlibres, hindirecto, ?_, ?_⟩
  · intro x hx
    have hpunteros : k % 1024 = 0 →
        c = ((libres m s).getD (cuantos K (k - K) + 1) 0 : ℕ) := fun hresto => by
      rw [hc, bloquePunteros, if_neg (by omega),
        Nat.mul_div_cancel' (Nat.dvd_of_mod_eq_zero hresto)]
    rw [ha.bits x hx, h.bits x hx, Bool.eq_iff_iff]
    simp only [Bool.or_eq_true, Bool.and_eq_true, decide_eq_true_iff, or_assoc]
    refine or_congr_right ?_
    constructor
    · rintro (⟨e, he, rfl⟩ | rfl | ⟨hresto, rfl⟩)
      · exact ⟨e, (mem_take_cuantos hK hlen).2 (.inl he), rfl⟩
      · exact ⟨_, (mem_take_cuantos hK hlen).2 (.inr (.inl rfl)), hb.symm⟩
      · exact ⟨_, (mem_take_cuantos hK hlen).2 (.inr (.inr ⟨hresto, rfl⟩)),
          (hpunteros hresto).symm⟩
    · rintro ⟨e, he, rfl⟩
      rcases (mem_take_cuantos hK hlen).1 he with hantes | rfl | ⟨hresto, rfl⟩
      · exact .inl ⟨e, hantes, rfl⟩
      · exact .inr (.inl hb)
      · exact .inr (.inr ⟨hresto, hpunteros hresto⟩)
  · intro j hj hno
    rw [hmas, not_or] at hno
    rcases (Nat.lt_succ_iff.1 hj).lt_or_eq with hlt | rfl
    · rw [hviejo j hlt fun hresto hborra => hno.2 ⟨hK, hresto, hlt, hborra⟩]
      exact h.dato j hlt hno.1
    · exact hdato
  · intro j hj hborrado
    rcases (hmas j).1 hborrado with hantes | ⟨-, hresto, hlt, hborra⟩
    · obtain ⟨p, -, hpk, hjp, -⟩ := id hantes
      by_cases hborra : k % 1024 = 0 ∧
          Borra c (dirEntrada m (bloquePunteros m s i K (j / 1024)) j)
      · exact hnulo j (by omega) hborra.1 hborra.2
      · rw [hviejo j (by omega) fun hresto hborra' => hborra ⟨hresto, hborra'⟩]
        exact h.dato_borrado j (by omega) hantes
    · exact hnulo j hlt hresto hborra

theorem drop_libres {n : ℕ} (h : n < (libres m s).length) :
    (libres m s).drop n = (libres m s).getD n 0 :: (libres m s).drop (n + 1) := by
  rw [List.getD_eq_getElem _ _ h, List.drop_eq_getElem_cons h]

/-- While enough blocks are free, the file gets one more position. -/
theorem Ampliado.paso (hm : Formateado m) (h : Ampliado m s i K k s₀)
    (hmapa : MapaCompleto m s i K) (hK : K ≤ k) (hk : k < 524288)
    (htamanio : s₀.tamanio m i = 4096 * k)
    (hlen : cuantos K (k + 1 - K) ≤ (libres m s).length) :
    ∃ (b : ℤ) (s' : Estado), b = ((libres m s).getD (cuantos K (k - K)) 0 : ℕ) ∧
      obtenerBloqueLibre m s₀ = some (b, s₀.setBit m b) ∧
      agregarBloqueLibre m i b (s₀.setBit m b) = some (0, s') ∧
      Agregado m i k b (bloquePunteros m s i K (k / 1024)) s₀ s' ∧ Ampliado m s i K (k + 1) s' := by
  have hsuma : k + 1 - K = k - K + 1 := by omega
  by_cases hresto : k % 1024 = 0
  · have hcuantos : cuantos K (k + 1 - K) = cuantos K (k - K) + 2 := by
      rw [hsuma, cuantos_succ_primero (by omega)]
    have hlibres : libres m s₀ = (libres m s).getD (cuantos K (k - K)) 0 ::
        (libres m s).getD (cuantos K (k - K) + 1) 0 ::
          (libres m s).drop (cuantos K (k + 1 - K)) := by
      rw [h.libres_eq, drop_libres (by omega), drop_libres (by omega), hcuantos]
    have hpunteros : ((libres m s).getD (cuantos K (k - K) + 1) 0 : ℤ) =
        bloquePunteros m s i K (k / 1024) := by
      rw [bloquePunteros, if_neg (by omega), Nat.mul_div_cancel' (Nat.dvd_of_mod_eq_zero hresto)]
    obtain ⟨s', hagrega, ha, hresta⟩ := agregado_primero hm hmapa.nodo_nonneg hmapa.nodo_lt hk
      hresto htamanio hlibres
    rw [hpunteros] at ha
    exact ⟨_, s', rfl, obtenerBloqueLibre_eq (primerLibre_of_libres hlibres), hagrega, ha,
      h.agrega hmapa hK hlen rfl rfl ha hresta⟩
  · have hcuantos : cuantos K (k + 1 - K) = cuantos K (k - K) + 1 := by
      rw [hsuma, cuantos_succ_siguiente (by omega)]
    have hlibres : libres m s₀ = (libres m s).getD (cuantos K (k - K)) 0 ::
        (libres m s).drop (cuantos K (k + 1 - K)) := by
      rw [h.libres_eq, drop_libres (by omega), hcuantos]
    have hpunteros : s₀.indirecto m i (k / 1024 : ℕ) = bloquePunteros m s i K (k / 1024) :=
      h.indirecto _ (by omega)
    obtain ⟨s', hagrega, ha, hresta⟩ := agregado_siguiente hm hmapa.nodo_nonneg hmapa.nodo_lt hk
      hresto htamanio (by
        rw [hpunteros]
        exact base_le_bloquePunteros (k := k + 1) hmapa (by omega) hlen) hlibres
    rw [hpunteros] at ha
    exact ⟨_, s', rfl, obtenerBloqueLibre_eq (primerLibre_of_libres hlibres), hagrega, ha,
      h.agrega hmapa hK hlen rfl rfl ha hresta⟩

/-- A change of the size of the node does not matter. -/
theorem Ampliado.ponerTamanio (hm : Formateado m) (h : Ampliado m s i K k s₀)
    (hmapa : MapaCompleto m s i K) (hlen : cuantos K (k - K) ≤ (libres m s).length) (v : ℤ) :
    Ampliado m s i K k (s₀.ponerTamanio m i v) := by
  have hnodo := nodo_eq m i
  have h1024 := nodo_eq m 1024
  have hi := hmapa.nodo_nonneg
  have hi' := hmapa.nodo_lt
  have hmem : ∀ x, (x < dirTamanio m i ∨ dirTamanio m i + 4 ≤ x) →
      (s₀.ponerTamanio m i v).mem x = s₀.mem x := fun x => ponerTamanio_mem m s₀ i
  have htest : ∀ x, EnBitmap m x →
      (s₀.ponerTamanio m i v).testBit m x = s₀.testBit m x := fun x hx =>
    testBit_of_antes hx fun a ha => hmem a (.inl (by rw [dirTamanio]; omega))
  have hindirecto : ∀ p : ℕ,
      (s₀.ponerTamanio m i v).indirecto m i p = s₀.indirecto m i p := fun p =>
    load32_congr fun x hx => hmem _ (.inr (by rw [dirTamanio, dirIndirecto]; omega))
  have hdato : ∀ j < k, (s₀.ponerTamanio m i v).dato m i j = s₀.dato m i j := by
    intro j hj
    have hbase := base_le_bloquePunteros (p := j / 1024) hmapa (by omega) hlen
    have hdatos := enTabla_lt_bloque (m := m) hbase
    rw [Estado.dato, Estado.dato, hindirecto, h.indirecto _ (by omega)]
    exact load32_congr fun x hx => hmem _ (.inr (by rw [dirTamanio]; omega))
  refine ⟨fun x hx => ?_, ?_, fun p hp => ?_, fun j hj hno => ?_, fun j hj hborrado => ?_⟩
  · rw [htest x hx, h.bits x hx]
  · rw [libres_congr hm htest, h.libres_eq]
  · rw [hindirecto, h.indirecto p hp]
  · rw [hdato j hj, h.dato j hj hno]
  · rw [hdato j hj, h.dato_borrado j hj hborrado]

end Sac
