import Linuse.Sac.Operaciones

/-!
# Releasing every block of a file

With the delete mode on, `eliminarNodos` to position 0 ends for every node and only
clears bits of the memory. It changes nothing exactly when there is nothing to
release: the size of the node gives no position, or every pointer is zero and every
bit that it would clear is clear (`eval_eliminarNodos`).
-/

namespace Sac

open Memory Locks Locks.Code Wire

variable (m : Montaje) {mem mem' mem'' : Mem} {s s' : Estado}

/-- The second memory comes from the first by clearing bits. -/
def Recorta (mem mem' : Mem) : Prop :=
  ∀ x k, k < 8 → m.bits.test (mem' x) k = true → m.bits.test (mem x) k = true

theorem Recorta.refl (mem : Mem) : Recorta m mem mem := fun _ _ _ h => h

variable {m}

theorem Recorta.trans (h : Recorta m mem mem') (h' : Recorta m mem' mem'') :
    Recorta m mem mem'' :=
  fun x k hk ht => h x k hk (h' x k hk ht)

/-- Clearing bits is never undone by clearing bits. -/
theorem Recorta.antisymm (h : Recorta m mem mem') (h' : Recorta m mem' mem) : mem' = mem := by
  funext x
  apply m.bits.test_ext
  intro k hk
  rw [Bool.eq_iff_iff]
  exact ⟨h x k hk, h' x k hk⟩

/-- A step in the middle of a chain that ends where it began changes nothing. -/
theorem Recorta.eq_of_eq (h : Recorta m mem mem') (h' : Recorta m mem' mem'')
    (heq : mem'' = mem) : mem' = mem ∧ mem'' = mem' := by
  subst heq
  exact ⟨h.antisymm h', h'.antisymm h⟩

theorem recorta_store_cero (mem : Mem) (a : ℤ) {l : List UInt8} (hl : ∀ b ∈ l, b = 0) :
    Recorta m mem (store mem a l) := by
  intro x k hk ht
  rw [store] at ht
  split_ifs at ht with hx
  · rcases lt_or_ge (x - a).toNat l.length with hlt | hge
    · rw [List.getD_eq_getElem _ _ hlt, hl _ (List.getElem_mem hlt), m.bits.test_zero k hk] at ht
      cases ht
    · rwa [List.getD_eq_default _ _ hge] at ht
  · exact ht

/-- The bytes of 0. -/
theorem toBytes_cero {b : UInt8} (hb : b ∈ toBytes 4 ((0 : ℤ) % 4294967296).toNat) : b = 0 := by
  have hbytes : toBytes 4 ((0 : ℤ) % 4294967296).toNat = List.replicate 4 0 := by rfl
  rw [hbytes] at hb
  exact List.eq_of_mem_replicate hb

theorem recorta_cleanBit (s : Estado) (b : ℤ) : Recorta m s.mem (s.cleanBit m b).mem := by
  intro x k hk ht
  rcases eq_or_ne x (bitmapStart + b / 8) with rfl | hx
  · have hbyte : (s.cleanBit m b).mem (bitmapStart + b / 8) =
        m.bits.clean (s.mem (bitmapStart + b / 8)) (b % 8).toNat := by
      have h := store_getElem (m := s.mem) (a := bitmapStart + b / 8) (i := 0)
        (l := [m.bits.clean (s.mem (bitmapStart + b / 8)) (b % 8).toNat]) (by simp)
      rwa [Nat.cast_zero, add_zero] at h
    rw [hbyte, m.bits.test_clean _ _ _ (by omega) hk, Bool.and_eq_true] at ht
    exact ht.2
  · have hsame : (s.cleanBit m b).mem x = s.mem x := by
      apply store_of_disjoint
      rw [List.length_singleton]
      omega
    rwa [hsame] at ht

@[simp]
theorem cleanBit_bitmapFreeBlocks (s : Estado) (b : ℤ) :
    (s.cleanBit m b).bitmapFreeBlocks = s.bitmapFreeBlocks := rfl

@[simp]
theorem cleanBit_delMode (s : Estado) (b : ℤ) : (s.cleanBit m b).delMode = s.delMode := rfl

theorem cleanBit_byte (s : Estado) (b : ℤ) :
    (s.cleanBit m b).mem (bitmapStart + b / 8) =
      m.bits.clean (s.mem (bitmapStart + b / 8)) (b % 8).toNat := by
  have h := store_getElem (m := s.mem) (a := bitmapStart + b / 8) (i := 0)
    (l := [m.bits.clean (s.mem (bitmapStart + b / 8)) (b % 8).toNat]) (by simp)
  rwa [Nat.cast_zero, add_zero] at h

theorem cleanBit_of_ne (s : Estado) {b x : ℤ} (hx : x ≠ bitmapStart + b / 8) :
    (s.cleanBit m b).mem x = s.mem x := by
  apply store_of_disjoint
  rw [List.length_singleton]
  omega

/-- Clearing a bit changes nothing exactly when it is clear. -/
theorem cleanBit_mem_iff (s : Estado) (b : ℤ) :
    (s.cleanBit m b).mem = s.mem ↔ s.testBit m b = false := by
  have hb : (b % 8).toNat < 8 := by omega
  constructor
  · intro h
    rw [Estado.testBit, ← h, cleanBit_byte, m.bits.test_clean _ _ _ hb hb]
    simp
  · intro h
    funext x
    rcases eq_or_ne x (bitmapStart + b / 8) with rfl | hx
    · rw [cleanBit_byte]
      apply m.bits.test_ext
      intro k hk
      rw [m.bits.test_clean _ _ _ hb hk]
      rcases eq_or_ne (b % 8).toNat k with rfl | hne
      · rw [Estado.testBit] at h
        simp [h]
      · simp [hne]
    · exact cleanBit_of_ne s hx

theorem recorta_ponerIndirecto (s : Estado) (i p : ℤ) :
    Recorta m s.mem (s.ponerIndirecto m i p 0).mem :=
  recorta_store_cero s.mem _ fun _ => toBytes_cero

theorem ponerIndirecto_mem_iff (s : Estado) (i p : ℤ) :
    (s.ponerIndirecto m i p 0).mem = s.mem ↔ s.indirecto m i p = 0 :=
  store32_eq_self_iff

theorem testBit_congr (h : s'.mem = s.mem) (b : ℤ) : s'.testBit m b = s.testBit m b := by
  rw [Estado.testBit, h, Estado.testBit]

theorem indirecto_congr (h : s'.mem = s.mem) (i p : ℤ) :
    s'.indirecto m i p = s.indirecto m i p := by
  rw [Estado.indirecto, h, Estado.indirecto]

/-- The bits of the first `k` numbers in header block `b` are clear. -/
def DatosLibres (m : Montaje) (s : Estado) (b : ℤ) (k : ℕ) : Prop :=
  ∀ j < k, s.testBit m (load32 s.mem (headerStart b + 4 * (j : ℤ))) = false

theorem datosLibres_congr (h : s'.mem = s.mem) (b : ℤ) (k : ℕ) :
    DatosLibres m s' b k ↔ DatosLibres m s b k := by
  simp only [DatosLibres, testBit_congr h, h]

theorem datosLibres_succ {b : ℤ} {k : ℕ} :
    DatosLibres m s b (k + 1) ↔
      DatosLibres m s b k ∧ s.testBit m (load32 s.mem (headerStart b + 4 * (k : ℤ))) = false :=
  Nat.forall_lt_succ_right

/-- The inner loop releases the `k` data blocks from position `k - 1` down. -/
theorem eval_borrarDatos (aux : ℤ) (k : ℕ) (s : Estado) (hs : s.delMode = true) {n : ℕ}
    (hn : k < n) :
    ∃ s', (borrarDatos m aux 0 n (k - 1)).eval s = some (-1, s') ∧ s'.delMode = true ∧
      Recorta m s.mem s'.mem ∧ (s'.mem = s.mem ↔ DatosLibres m s aux k) := by
  induction k generalizing s n with
  | zero =>
      obtain ⟨n, rfl⟩ : ∃ l, n = l + 1 := ⟨n - 1, by omega⟩
      refine ⟨s, ?_, hs, .refl m _, iff_of_true rfl (by simp [DatosLibres])⟩
      simp [borrarDatos, leerModo, hs, valorModo]
  | succ k ih =>
      obtain ⟨n, rfl⟩ : ∃ l, n = l + 1 := ⟨n - 1, by omega⟩
      have hpos : ((k + 1 : ℕ) : ℤ) - 1 = k := by omega
      have hne : ¬ (k : ℤ) + 1 = 0 := by omega
      obtain ⟨s', heval, hmode, hrec, hiff⟩ :=
        ih { s.cleanBit m (load32 s.mem (headerStart aux + 4 * (k : ℤ))) with
          bitmapFreeBlocks := s.bitmapFreeBlocks + 1 } hs (show k < n by omega)
      have hclean := recorta_cleanBit (m := m) s (load32 s.mem (headerStart aux + 4 * (k : ℤ)))
      refine ⟨s', ?_, hmode, hclean.trans hrec, ?_⟩
      · rw [hpos]
        simpa [borrarDatos, leerModo, hs, valorModo, hne] using heval
      · rw [datosLibres_succ]
        constructor
        · intro heq
          obtain ⟨h₁, h₂⟩ := hclean.eq_of_eq hrec heq
          exact ⟨(datosLibres_congr h₁ _ _).1 (hiff.1 h₂), (cleanBit_mem_iff s _).1 h₁⟩
        · rintro ⟨hdatos, hbit⟩
          have h₁ := (cleanBit_mem_iff s _).2 hbit
          exact (hiff.2 ((datosLibres_congr h₁ _ _).2 hdatos)).trans h₁

/-- Nothing to release in the pointer blocks below `p` of node `i`, the last of which
holds `d` data blocks: every pointer is zero, so that the header takes the place of
the pointer blocks, and every bit is clear. -/
def SinRestos (m : Montaje) (s : Estado) (i : ℤ) : ℕ → ℕ → Prop
  | 0, _ => True
  | _ + 1, 0 => True
  | p + 1, d + 1 => DatosLibres m s (s.indirecto m i p) (d + 1) ∧
      s.testBit m (s.indirecto m i p) = false ∧ s.indirecto m i p = 0 ∧ SinRestos m s i p 1024

theorem sinRestos_congr (h : s'.mem = s.mem) (i : ℤ) (p d : ℕ) :
    SinRestos m s' i p d ↔ SinRestos m s i p d := by
  induction p generalizing d with
  | zero => exact Iff.rfl
  | succ p ih =>
      cases d with
      | zero => exact Iff.rfl
      | succ d =>
          rw [SinRestos, SinRestos, indirecto_congr h, datosLibres_congr h, testBit_congr h, ih]

/-- The outer loop with the delete mode on, from pointer block `p - 1` and position
`d - 1`. -/
theorem eval_borrarPunteros (i : ℤ) (p d : ℕ) (s : Estado) (hs : s.delMode = true) {n : ℕ}
    (hn : p + max d 1024 < n) :
    ∃ s', (borrarPunteros m i 0 0 n (p - 1) (d - 1)).eval s = some ((), s') ∧
      s'.delMode = true ∧ Recorta m s.mem s'.mem ∧ (s'.mem = s.mem ↔ SinRestos m s i p d) := by
  induction p generalizing d s n with
  | zero =>
      obtain ⟨n, rfl⟩ : ∃ l, n = l + 1 := ⟨n - 1, by omega⟩
      refine ⟨s, ?_, hs, .refl m _, iff_of_true rfl trivial⟩
      simp [borrarPunteros, leerModo, hs]
  | succ p ih =>
      obtain ⟨n, rfl⟩ : ∃ l, n = l + 1 := ⟨n - 1, by omega⟩
      cases d with
      | zero =>
          refine ⟨s, ?_, hs, .refl m _, iff_of_true rfl trivial⟩
          simp [borrarPunteros, leerModo, hs]
      | succ d =>
          have hpos : ((p + 1 : ℕ) : ℤ) - 1 = p := by omega
          have hneg : ¬ (((d + 1 : ℕ) : ℤ) - 1 < 0 ∨ (p : ℤ) < 0) := by omega
          have hne : ¬ (p : ℤ) + 1 = 0 := by omega
          obtain ⟨s₁, heval₁, hmode₁, hrec₁, hiff₁⟩ :=
            eval_borrarDatos (m := m) (s.indirecto m i p) (d + 1) s hs (show d + 1 < n by omega)
          have hclean := recorta_cleanBit (m := m) s₁ (s.indirecto m i p)
          have hponer := recorta_ponerIndirecto (m := m) (s₁.cleanBit m (s.indirecto m i p)) i p
          obtain ⟨s', heval, hmode, hrec, hiff⟩ :=
            ih 1024 ((s₁.cleanBit m (s.indirecto m i p)).ponerIndirecto m i p 0) hmode₁
              (show p + max 1024 1024 < n by omega)
          refine ⟨s', ?_, hmode, ((hrec₁.trans hclean).trans hponer).trans hrec, ?_⟩
          · rw [hpos]
            rw [Nat.cast_ofNat, show (1024 : ℤ) - 1 = 1023 from rfl] at heval
            rw [borrarPunteros, leerModo, eval_bind, eval_read, Option.bind_some,
              if_neg (by simp [hs]), if_neg hneg, eval_bind, eval_read, Option.bind_some]
            simp only [ite_self]
            rw [eval_bind, heval₁, Option.bind_some, eval_bind, eval_read, Option.bind_some,
              hmode₁, valorModo, if_pos rfl, if_neg hne]
            simpa using heval
          · rw [SinRestos]
            constructor
            · intro heq
              obtain ⟨h₁, h'⟩ := hrec₁.eq_of_eq ((hclean.trans hponer).trans hrec) heq
              obtain ⟨h₂, h''⟩ := hclean.eq_of_eq (hponer.trans hrec) h'
              obtain ⟨h₃, h₄⟩ := hponer.eq_of_eq hrec h''
              have hbit := (cleanBit_mem_iff s₁ _).1 h₂
              have hptr := (ponerIndirecto_mem_iff _ i p).1 h₃
              rw [testBit_congr h₁] at hbit
              rw [indirecto_congr (h₂.trans h₁)] at hptr
              refine ⟨hiff₁.1 h₁, hbit, hptr, ?_⟩
              exact (sinRestos_congr ((h₃.trans h₂).trans h₁) _ _ _).1 (hiff.1 h₄)
            · rintro ⟨hdatos, hbit, hptr, hresto⟩
              have h₁ := hiff₁.2 hdatos
              have h₂ := (cleanBit_mem_iff s₁ (s.indirecto m i p)).2 (by rwa [testBit_congr h₁])
              have h₃ := (ponerIndirecto_mem_iff (s₁.cleanBit m (s.indirecto m i p)) i p).2
                (by rwa [indirecto_congr (h₂.trans h₁)])
              have h₄ := hiff.2 ((sinRestos_congr ((h₃.trans h₂).trans h₁) _ _ _).2 hresto)
              exact h₄.trans ((h₃.trans h₂).trans h₁)

/-- Node `i` has nothing to release. -/
def NadaQueLiberar (m : Montaje) (s : Estado) (i : ℤ) : Prop :=
  SinRestos m s i ((ultimaPosicion (s.tamanio m i)).1 + 1).toNat
    ((ultimaPosicion (s.tamanio m i)).2 + 1).toNat

/-- With the delete mode on, `eliminarNodos` to position 0 completes. -/
theorem eval_eliminarNodos (i : ℤ) (s : Estado) (hs : s.delMode = true) :
    ∃ n s', (eliminarNodos m n i 0 0).eval s = some ((), s') ∧ s'.delMode = true ∧
      Recorta m s.mem s'.mem ∧ (s'.mem = s.mem ↔ NadaQueLiberar m s i) := by
  rw [NadaQueLiberar]
  generalize hpos : ultimaPosicion (s.tamanio m i) = pos
  have heval : ∀ n, (eliminarNodos m n i 0 0).eval s =
      (borrarPunteros m i 0 0 n pos.1 pos.2).eval s := by
    intro n
    simp [eliminarNodos, hpos]
  simp only [heval]
  by_cases hneg : pos.2 < 0 ∨ pos.1 < 0
  · refine ⟨1, s, ?_, hs, .refl m _, iff_of_true rfl ?_⟩
    · rw [borrarPunteros, leerModo, eval_bind, eval_read, Option.bind_some,
        if_neg (by simp [hs]), if_pos hneg, eval_pure]
    · rcases hneg with hneg | hneg
      · rw [show (pos.2 + 1).toNat = 0 by omega]
        cases (pos.1 + 1).toNat <;> trivial
      · rw [show (pos.1 + 1).toNat = 0 by omega]
        trivial
  · have h := eval_borrarPunteros (m := m) i (pos.1 + 1).toNat (pos.2 + 1).toNat s hs
      (n := (pos.1 + 1).toNat + max (pos.2 + 1).toNat 1024 + 1) (by omega)
    rw [show (((pos.1 + 1).toNat : ℕ) : ℤ) - 1 = pos.1 by omega,
      show (((pos.2 + 1).toNat : ℕ) : ℤ) - 1 = pos.2 by omega] at h
    exact ⟨_, h⟩

/-! ## More fuel -/

theorem extends_borrarDatos (aux hasta : ℤ) (n : ℕ) (k : ℤ) :
    Extends (borrarDatos m aux hasta n k) (borrarDatos m aux hasta (n + 1) k) := by
  induction n generalizing k with
  | zero => exact extends_fail _
  | succ n ih =>
      apply (Extends.refl _).bind
      intro modo
      apply (Extends.refl _).ite
      apply (Extends.refl _).bind
      intro nodo
      apply (Extends.refl _).bind
      intro _
      exact (Extends.refl _).bind fun _ => ih (k - 1)

theorem extends_borrarPunteros (i pointerUpto dataUpto : ℤ) (n : ℕ) (p d : ℤ) :
    Extends (borrarPunteros m i pointerUpto dataUpto n p d)
      (borrarPunteros m i pointerUpto dataUpto (n + 1) p d) := by
  induction n generalizing p d with
  | zero => exact extends_fail _
  | succ n ih =>
      apply (Extends.refl _).bind
      intro modo
      apply (Extends.refl _).ite
      apply (Extends.refl _).ite
      apply (Extends.refl _).bind
      intro aux
      apply (extends_borrarDatos _ _ n _).bind
      intro d
      apply (Extends.refl _).bind
      intro modo
      apply (ih p d).ite
      apply (Extends.refl _).bind
      intro _
      exact (Extends.refl _).bind fun _ => ih (p - 1) 1023

theorem extends_eliminarNodos (i pointerUpto dataUpto : ℤ) (n : ℕ) :
    Extends (eliminarNodos m n i pointerUpto dataUpto)
      (eliminarNodos m (n + 1) i pointerUpto dataUpto) := by
  apply (Extends.refl _).bind
  intro fileSize
  apply Extends.ite
  · exact (Extends.refl _).bind fun _ => extends_borrarPunteros _ _ _ n _ _
  · exact extends_borrarPunteros _ _ _ n _ _

end Sac
