import Mathlib.Data.List.Nodup
import Mathlib.Data.List.Perm.Subperm
import Linuse.Sac.Bitmap
import Linuse.Sac.Mapa
import Linuse.Sac.Crecimiento

/-!
# Making a file smaller

With the delete mode off `eliminarNodos` goes down from the last position of the file to
the position of the new size, and clears one bit for each position on the way. It reads the
pointer blocks at `header_start`. What it should release is more than it clears when a
pointer block goes or the new size is the end of a block.
-/

namespace Sac

open Memory Locks Locks.Code

variable {m : Montaje} {s s' : Estado} {i : ℤ}

/-! ## The inner loop -/

/-- Releases block `b`. -/
def soltar (m : Montaje) (b : ℤ) (s : Estado) : Estado :=
  { s.cleanBit m b with bitmapFreeBlocks := s.bitmapFreeBlocks + 1 }

/-- The number at position `x` of the pointer block `aux`, as `eliminarNodos` reads it. -/
def leerEntrada (aux x : ℤ) (s : Estado) : ℤ := load32 s.mem (headerStart aux + 4 * x)

/-- The state after the inner loop has released the `k` positions above `hasta`. -/
def limpiar (m : Montaje) (aux hasta : ℤ) : ℕ → Estado → Estado
  | 0, s => s
  | k + 1, s => limpiar m aux hasta k (soltar m (leerEntrada aux (hasta + (k + 1 : ℕ)) s) s)

@[simp]
theorem soltar_delMode (b : ℤ) (s : Estado) : (soltar m b s).delMode = s.delMode := rfl

theorem soltar_testBit (b c : ℤ) (s : Estado) :
    (soltar m b s).testBit m c = (!decide (b = c) && s.testBit m c) :=
  testBit_cleanBit s b c

/-- With the delete mode off the inner loop ends exactly when it begins at or above the
position where it should stop. -/
theorem eval_borrarDatos_apagado (aux hasta : ℤ) (n : ℕ) :
    ∀ (x : ℤ) (s : Estado), s.delMode = false →
      (borrarDatos m aux hasta n x).eval s =
        if hasta ≤ x ∧ x - hasta < n then some (hasta, limpiar m aux hasta (x - hasta).toNat s)
        else none := by
  induction n with
  | zero =>
      intro x s _
      rw [if_neg (by omega)]
      rfl
  | succ n ih =>
      intro x s hs
      rw [borrarDatos, leerModo, eval_bind, eval_read, Option.bind_some, hs]
      simp only [valorModo, Bool.false_eq_true, if_false, add_zero]
      rcases lt_trichotomy x hasta with hlt | rfl | hgt
      · have hsigue := ih (x - 1) (soltar m (leerEntrada aux x s) s) hs
        rw [if_neg (by omega)] at hsigue
        rw [if_neg hlt.ne, if_neg (by omega)]
        exact hsigue
      · rw [if_pos rfl, if_pos (by omega), sub_self]
        rfl
      · have hsigue := ih (x - 1) (soltar m (leerEntrada aux x s) s) hs
        have hk : (x - hasta).toNat = (x - 1 - hasta).toNat + 1 := by omega
        have hpos : hasta + (((x - 1 - hasta).toNat + 1 : ℕ) : ℤ) = x := by omega
        have hiff : (hasta ≤ x - 1 ∧ x - 1 - hasta < n) ↔
            (hasta ≤ x ∧ x - hasta < (n + 1 : ℕ)) := by omega
        rw [if_neg hgt.ne', hk, limpiar, hpos, ← if_congr hiff rfl rfl]
        exact hsigue

@[simp]
theorem limpiar_delMode (aux hasta : ℤ) (k : ℕ) :
    ∀ s : Estado, (limpiar m aux hasta k s).delMode = s.delMode := by
  induction k with
  | zero => exact fun _ => rfl
  | succ k ih => exact fun s => ih _

theorem limpiar_bitmapFreeBlocks (aux hasta : ℤ) (k : ℕ) :
    ∀ s : Estado, (limpiar m aux hasta k s).bitmapFreeBlocks = s.bitmapFreeBlocks + k := by
  induction k with
  | zero => exact fun s => (add_zero _).symm
  | succ k ih =>
      intro s
      rw [limpiar, ih, soltar]
      dsimp only
      rw [Nat.cast_succ]
      ring

/-- What the clearing of bits of the bitmap leaves as it was. -/
theorem soltar_mem {b a : ℤ} (hb : EnBitmap m b) (ha : m.nodo 0 ≤ a) (s : Estado) :
    (soltar m b s).mem a = s.mem a := by
  have hcero := nodo_cero m
  have hb0 := hb.1
  have hb8 := hb.2
  exact cleanBit_of_ne s (by omega)

theorem leerEntrada_soltar {aux x b : ℤ} (haux : m.base ≤ aux) (hx : 0 ≤ x) (hb : EnBitmap m b)
    (s : Estado) : leerEntrada aux x (soltar m b s) = leerEntrada aux x s := by
  have hcabecera := headerStart_eq m aux
  have hdatos := bloque_base m
  exact load32_congr fun y _ => soltar_mem hb (by omega) s

/-- The numbers that the inner loop reads, each after the bits of those before are clear. -/
def leidas (m : Montaje) (aux hasta : ℤ) : ℕ → Estado → List ℤ
  | 0, _ => []
  | k + 1, s =>
      leerEntrada aux (hasta + (k + 1 : ℕ)) s ::
        leidas m aux hasta k (soltar m (leerEntrada aux (hasta + (k + 1 : ℕ)) s) s)

@[simp]
theorem length_leidas (aux hasta : ℤ) (k : ℕ) :
    ∀ s : Estado, (leidas m aux hasta k s).length = k := by
  induction k with
  | zero => exact fun _ => rfl
  | succ k ih => exact fun s => by rw [leidas, List.length_cons, ih]

/-- The inner loop clears one bit for each position. -/
theorem limpiar_testBit (aux hasta : ℤ) (k : ℕ) :
    ∀ (s : Estado) (c : ℤ), (limpiar m aux hasta k s).testBit m c =
      (s.testBit m c && decide (c ∉ leidas m aux hasta k s)) := by
  induction k with
  | zero => exact fun s c => by simp [limpiar, leidas]
  | succ k ih =>
      intro s c
      rw [limpiar, leidas, ih, soltar_testBit]
      generalize leerEntrada aux (hasta + (k + 1 : ℕ)) s = b
      rcases eq_or_ne b c with rfl | hne
      · simp
      · simp [hne, hne.symm]

/-- When the blocks that it reads are in the bitmap, they are those that the pointer block
held at the beginning. -/
theorem leidas_eq {aux hasta : ℤ} (haux : m.base ≤ aux) (hhasta : 0 ≤ hasta) (k : ℕ) :
    ∀ s : Estado, ((∀ c ∈ leidas m aux hasta k s, EnBitmap m c) ∨
        ∀ x : ℕ, x < k → EnBitmap m (leerEntrada aux (hasta + (x + 1 : ℕ)) s)) →
      leidas m aux hasta k s =
        ((List.range k).map fun x : ℕ => leerEntrada aux (hasta + (x + 1 : ℕ)) s).reverse := by
  induction k with
  | zero => exact fun _ _ => rfl
  | succ k ih =>
      intro s hs
      have hprimero : EnBitmap m (leerEntrada aux (hasta + (k + 1 : ℕ)) s) :=
        hs.elim (fun h => h _ List.mem_cons_self) fun h => h k (Nat.lt_succ_self k)
      have hlee : ∀ x : ℕ, leerEntrada aux (hasta + (x + 1 : ℕ))
          (soltar m (leerEntrada aux (hasta + (k + 1 : ℕ)) s) s) =
            leerEntrada aux (hasta + (x + 1 : ℕ)) s :=
        fun x => leerEntrada_soltar haux (by omega) hprimero s
      rw [leidas, ih, List.range_succ, List.map_append, List.reverse_append]
      · simp only [hlee]
        rfl
      · refine hs.imp (fun h c hc => h c (List.mem_cons_of_mem _ hc)) fun h x hx => ?_
        rw [hlee]
        exact h x (by omega)

/-- When the positions hold blocks of the bitmap, the loop changes the bitmap only. -/
theorem limpiar_mem {aux hasta : ℤ} (haux : m.base ≤ aux) (hhasta : 0 ≤ hasta) (k : ℕ) :
    ∀ s : Estado, (∀ x : ℕ, x < k → EnBitmap m (leerEntrada aux (hasta + (x + 1 : ℕ)) s)) →
      ∀ a, m.nodo 0 ≤ a → (limpiar m aux hasta k s).mem a = s.mem a := by
  induction k with
  | zero => exact fun _ _ _ _ => rfl
  | succ k ih =>
      intro s hs a ha
      have hprimero := hs k (Nat.lt_succ_self k)
      rw [limpiar, ih _ (fun x hx => ?_) a ha, soltar_mem hprimero ha]
      rw [leerEntrada_soltar haux (by omega) hprimero]
      exact hs x (by omega)

/-! ## The outer loop -/

/-- Releases pointer block `aux`, the one at `p` in the node. -/
def soltarPunteros (m : Montaje) (i p aux : ℤ) (s : Estado) : Estado :=
  (s.cleanBit m aux).ponerIndirecto m i p 0

/-- The state after the outer loop has gone down `k` pointer blocks from position `x` of
the first one. -/
def recortar (m : Montaje) (i pointerUpto dataUpto : ℤ) : ℕ → ℤ → Estado → Estado
  | 0, x, s => limpiar m (s.indirecto m i pointerUpto) dataUpto (x - dataUpto).toNat s
  | k + 1, x, s =>
      let aux := s.indirecto m i (pointerUpto + (k + 1 : ℕ))
      recortar m i pointerUpto dataUpto k 1023
        (soltarPunteros m i (pointerUpto + (k + 1 : ℕ)) aux (limpiar m aux 0 x.toNat s))

@[simp]
theorem soltarPunteros_delMode (p aux : ℤ) (s : Estado) :
    (soltarPunteros m i p aux s).delMode = s.delMode := rfl

/-- An iteration of the outer loop that is not the last one. -/
theorem eval_borrarPunteros_paso {pointerUpto dataUpto p x : ℤ} {n : ℕ} (hs : s.delMode = false)
    (hp : 0 ≤ p) (hne : p ≠ pointerUpto) (hx : 0 ≤ x) (hn : x < n) :
    (borrarPunteros m i pointerUpto dataUpto (n + 1) p x).eval s =
      (borrarPunteros m i pointerUpto dataUpto n (p - 1) 1023).eval
        (soltarPunteros m i p (s.indirecto m i p)
          (limpiar m (s.indirecto m i p) 0 x.toNat s)) := by
  have hseguir : ¬ (x = dataUpto ∧ p = pointerUpto ∧ s.delMode = false) := fun h => hne h.2.1
  have hdentro : ¬ (x < 0 ∨ p < 0) := by omega
  have hinterior := eval_borrarDatos_apagado (m := m) (s.indirecto m i p) 0 n x s hs
  rw [if_pos (by omega), sub_zero] at hinterior
  rw [borrarPunteros, leerModo, eval_bind, eval_read, Option.bind_some, if_neg hseguir,
    if_neg hdentro, eval_bind, eval_read, Option.bind_some]
  dsimp only
  rw [if_neg hne, eval_bind, hinterior, Option.bind_some, eval_bind, eval_read, Option.bind_some]
  dsimp only
  rw [limpiar_delMode, hs, valorModo, if_neg Bool.false_ne_true, add_zero, if_neg hne]
  rfl

/-- The last iteration. -/
theorem eval_borrarPunteros_ultimo (dataUpto p x : ℤ) {n : ℕ} (hs : s.delMode = false)
    (hp : 0 ≤ p) (hx : 0 ≤ x) (hdata : dataUpto ≤ x) (hn : x < n) (hdata' : 0 ≤ dataUpto) :
    (borrarPunteros m i p dataUpto (n + 1) p x).eval s =
      some ((), limpiar m (s.indirecto m i p) dataUpto (x - dataUpto).toNat s) := by
  rcases hdata.eq_or_lt with rfl | hlt
  · rw [borrarPunteros, leerModo, eval_bind, eval_read, Option.bind_some, if_pos ⟨rfl, rfl, hs⟩,
      eval_pure, sub_self]
    rfl
  obtain ⟨n, rfl⟩ : ∃ l, n = l + 1 := ⟨n - 1, by omega⟩
  have hseguir : ¬ (x = dataUpto ∧ p = p ∧ s.delMode = false) := fun h => hlt.ne' h.1
  have hdentro : ¬ (x < 0 ∨ p < 0) := by omega
  have hinterior := eval_borrarDatos_apagado (m := m) (s.indirecto m i p) dataUpto (n + 1) x s hs
  rw [if_pos (by omega)] at hinterior
  have hlimpio : (limpiar m (s.indirecto m i p) dataUpto (x - dataUpto).toNat s).delMode =
      false := by rw [limpiar_delMode, hs]
  rw [borrarPunteros, leerModo, eval_bind, eval_read, Option.bind_some, if_neg hseguir,
    if_neg hdentro, eval_bind, eval_read, Option.bind_some]
  dsimp only
  rw [if_pos rfl, eval_bind, hinterior, Option.bind_some, eval_bind, eval_read, Option.bind_some]
  dsimp only
  rw [hlimpio, valorModo, if_neg Bool.false_ne_true, add_zero, if_pos rfl, borrarPunteros, leerModo,
    eval_bind, eval_read, Option.bind_some, if_pos ⟨rfl, rfl, hlimpio⟩, eval_pure]

/-- Below its last position in the pointer block of the new size the loop does not end. -/
theorem eval_borrarPunteros_pasado {dataUpto p x : ℤ} (hs : s.delMode = false) (hp : 0 ≤ p)
    (hx : 0 ≤ x) (hlt : x < dataUpto) (n : ℕ) :
    (borrarPunteros m i p dataUpto n p x).eval s = none := by
  cases n with
  | zero => rfl
  | succ n =>
      have hseguir : ¬ (x = dataUpto ∧ p = p ∧ s.delMode = false) := fun h => hlt.ne h.1
      have hdentro : ¬ (x < 0 ∨ p < 0) := by omega
      have hinterior := eval_borrarDatos_apagado (m := m) (s.indirecto m i p) dataUpto n x s hs
      rw [if_neg (by omega)] at hinterior
      rw [borrarPunteros, leerModo, eval_bind, eval_read, Option.bind_some, if_neg hseguir,
        if_neg hdentro, eval_bind, eval_read, Option.bind_some]
      dsimp only
      rw [if_pos rfl, eval_bind, hinterior, Option.bind_none]

/-- From a position that is not before the one of the new size the loop ends. -/
theorem eval_borrarPunteros_apagado (pointerUpto dataUpto : ℤ) (hpointer : 0 ≤ pointerUpto)
    (hdata : 0 ≤ dataUpto) (hdata' : dataUpto ≤ 1023) (k : ℕ) :
    ∀ (x : ℤ) (s : Estado), s.delMode = false → 0 ≤ x → (k = 0 → dataUpto ≤ x) → ∀ n : ℕ,
      max x 1023 + k < n →
        (borrarPunteros m i pointerUpto dataUpto (n + 1) (pointerUpto + k) x).eval s =
          some ((), recortar m i pointerUpto dataUpto k x s) := by
  induction k with
  | zero =>
      intro x s hs hx hle n hn
      rw [Nat.cast_zero, add_zero]
      exact eval_borrarPunteros_ultimo _ _ _ hs hpointer hx (hle rfl) (by omega) hdata
  | succ k ih =>
      intro x s hs hx _ n hn
      obtain ⟨n, rfl⟩ : ∃ l, n = l + 1 := ⟨n - 1, by omega⟩
      have hpos : pointerUpto + ((k + 1 : ℕ) : ℤ) - 1 = pointerUpto + k := by omega
      rw [eval_borrarPunteros_paso hs (by omega) (by omega) hx (by omega), hpos]
      exact ih 1023 _ (by rw [soltarPunteros_delMode, limpiar_delMode, hs]) (by decide)
        (fun _ => hdata') n (by omega)

/-- From a position before the first one, in the pointer block or in the node, nothing is
released. -/
theorem eval_borrarPunteros_fuera (pointerUpto dataUpto p x : ℤ) (h : x < 0 ∨ p < 0) (n : ℕ)
    (s : Estado) :
    (borrarPunteros m i pointerUpto dataUpto (n + 1) p x).eval s = some ((), s) := by
  rw [borrarPunteros, leerModo, eval_bind, eval_read, Option.bind_some]
  by_cases hseguir : x = dataUpto ∧ p = pointerUpto ∧ s.delMode = false
  · rw [if_pos hseguir, eval_pure]
  · rw [if_neg hseguir, if_pos h, eval_pure]

/-- The state after the loop has released the first `k` pointer blocks of the node. -/
def vaciar (m : Montaje) (i : ℤ) : ℕ → Estado → Estado
  | 0, s => s
  | k + 1, s =>
      let aux := s.indirecto m i k
      vaciar m i k (soltarPunteros m i k aux (limpiar m aux 0 1023 s))

/-- From a pointer block before the one of the new size the loop releases all of them. -/
theorem eval_borrarPunteros_antes (pointerUpto dataUpto : ℤ) (k : ℕ) (hk : k ≤ pointerUpto) :
    ∀ (s : Estado), s.delMode = false → ∀ n : ℕ, 1023 + k < n →
      (borrarPunteros m i pointerUpto dataUpto (n + 1) (k - 1) 1023).eval s =
        some ((), vaciar m i k s) := by
  induction k with
  | zero =>
      intro s hs n hn
      rw [eval_borrarPunteros_fuera _ _ _ _ (.inr (by omega))]
      rfl
  | succ k ih =>
      intro s hs n hn
      obtain ⟨n, rfl⟩ : ∃ l, n = l + 1 := ⟨n - 1, by omega⟩
      have hpos : ((k + 1 : ℕ) : ℤ) - 1 = k := by omega
      rw [hpos, eval_borrarPunteros_paso hs (by omega) (by omega) (by decide) (by omega)]
      exact ih (by omega) _ (by rw [soltarPunteros_delMode, limpiar_delMode, hs]) n (by omega)

theorem soltarPunteros_testBit {p aux c : ℤ} (hi : 0 ≤ i) (hp : 0 ≤ p) (hc : EnBitmap m c)
    (s : Estado) :
    (soltarPunteros m i p aux s).testBit m c = (!decide (aux = c) && s.testBit m c) := by
  have hcero := nodo_cero m
  have hnodo := nodo_eq m i
  have hc8 := hc.2
  have hbyte : (soltarPunteros m i p aux s).mem (bitmapStart + c / 8) =
      (s.cleanBit m aux).mem (bitmapStart + c / 8) :=
    ponerIndirecto_mem m _ i (.inl (by rw [dirIndirecto]; omega))
  rw [Estado.testBit, hbyte, ← Estado.testBit, testBit_cleanBit]

/-- The outer loop clears as many bits as there are positions on its way. -/
theorem recortar_testBit (pointerUpto dataUpto : ℤ) (hi : 0 ≤ i) (hpointer : 0 ≤ pointerUpto)
    (hdata : 0 ≤ dataUpto) (hdata' : dataUpto ≤ 1023) (k : ℕ) :
    ∀ (x : ℤ) (s : Estado), 0 ≤ x → (k = 0 → dataUpto ≤ x) → ∃ cs : List ℤ,
      cs.length = (1024 * k + x - dataUpto).toNat ∧ ∀ c, EnBitmap m c →
        (recortar m i pointerUpto dataUpto k x s).testBit m c =
          (s.testBit m c && decide (c ∉ cs)) := by
  induction k with
  | zero =>
      intro x s hx hle
      have hcuenta : 1024 * ((0 : ℕ) : ℤ) + x - dataUpto = x - dataUpto := by omega
      exact ⟨_, by rw [length_leidas, hcuenta], fun c _ =>
        limpiar_testBit (s.indirecto m i pointerUpto) dataUpto (x - dataUpto).toNat s c⟩
  | succ k ih =>
      intro x s hx _
      obtain ⟨cs, hlen, hbits⟩ := ih 1023 (soltarPunteros m i (pointerUpto + (k + 1 : ℕ))
        (s.indirecto m i (pointerUpto + (k + 1 : ℕ)))
        (limpiar m (s.indirecto m i (pointerUpto + (k + 1 : ℕ))) 0 x.toNat s)) (by decide)
        (fun _ => hdata')
      refine ⟨s.indirecto m i (pointerUpto + (k + 1 : ℕ)) ::
        (leidas m (s.indirecto m i (pointerUpto + (k + 1 : ℕ))) 0 x.toNat s ++ cs), ?_,
        fun c hc => ?_⟩
      · rw [List.length_cons, List.length_append, hlen, length_leidas]
        push_cast
        omega
      · rw [recortar, hbits c hc, soltarPunteros_testBit hi (by omega) hc, limpiar_testBit]
        generalize s.indirecto m i (pointerUpto + (k + 1 : ℕ)) = b
        rcases eq_or_ne b c with rfl | hne
        · simp
        · simp [hne, hne.symm, Bool.and_assoc]

theorem vaciar_testBit {c : ℤ} (hi : 0 ≤ i) (hc : EnBitmap m c) (k : ℕ) :
    ∀ s : Estado, s.testBit m c = false → (vaciar m i k s).testBit m c = false := by
  induction k with
  | zero => exact fun _ h => h
  | succ k ih =>
      intro s hs
      refine ih _ ?_
      rw [soltarPunteros_testBit hi (by omega) hc, limpiar_testBit, hs, Bool.false_and,
        Bool.and_false]

/-- The last pointer block is released. -/
theorem vaciar_indirecto {k : ℕ} (hi : 0 ≤ i) (hc : EnBitmap m (s.indirecto m i k)) :
    (vaciar m i (k + 1) s).testBit m (s.indirecto m i k) = false := by
  refine vaciar_testBit hi hc k _ ?_
  rw [soltarPunteros_testBit hi (by omega) hc, decide_eq_true rfl, Bool.not_true, Bool.false_and]

/-! ## Where it begins and where it stops -/

theorem settearPosicion_eq {x : ℤ} (h : 0 ≤ x) (hlt : x < 2147483648) :
    settearPosicion x =
      (((x.toNat / 4096 / 1024 : ℕ) : ℤ), ((x.toNat / 4096 % 1024 : ℕ) : ℤ)) := by
  rw [settearPosicion, signed_eq_self (by omega) hlt, Int.tdiv_eq_ediv_of_nonneg h,
    Int.tmod_eq_emod_of_nonneg h, Int.tdiv_eq_ediv_of_nonneg (by omega), Prod.mk.injEq]
  omega

theorem ultimaPosicion_cero : ultimaPosicion 0 = (-1, 1023) := by decide

/-- The last position of a file that is not empty. -/
theorem ultimaPosicion_eq {x : ℤ} (h : 0 < x) (hlt : x < 2147483648) :
    ultimaPosicion x =
      ((((x - 1).toNat / 4096 / 1024 : ℕ) : ℤ), (((x - 1).toNat / 4096 % 1024 : ℕ) : ℤ)) := by
  rw [ultimaPosicion, settearPosicion_eq h.le hlt]
  dsimp only
  split_ifs <;> rw [Prod.mk.injEq] <;> omega

/-- From 2 GiB on, the position of the size is computed as a negative one. -/
theorem ultimaPosicion_neg {x : ℤ} (h : 2147483648 ≤ x) (hlt : x ≤ 4194304000) :
    (ultimaPosicion x).1 < 0 := by
  have hsigned : signed x = x - 4294967296 := by
    rw [signed]
    omega
  have hneg : (x - 4294967296).tdiv 4194304 < 0 := by
    rw [← Int.neg_neg (x - 4294967296), Int.neg_tdiv, Int.tdiv_eq_ediv_of_nonneg (by omega)]
    omega
  rw [ultimaPosicion, settearPosicion, hsigned]
  dsimp only
  split_ifs
  · dsimp only
    omega
  · exact hneg
  · exact hneg

theorem eval_eliminarNodos_apagado {pointerUpto dataUpto : ℤ} (hs : s.delMode = false) (n : ℕ) :
    (eliminarNodos m n i pointerUpto dataUpto).eval s =
      (borrarPunteros m i pointerUpto dataUpto n (ultimaPosicion (s.tamanio m i)).1
        (ultimaPosicion (s.tamanio m i)).2).eval s := by
  have hmodo : { s with delMode := false } = s := by
    cases s
    rw [← hs]
  rw [eliminarNodos, eval_bind, eval_read, Option.bind_some]
  dsimp only
  split_ifs
  · rw [eval_bind, disableDeleteMode, eval_modify, Option.bind_some, hmodo]
  · rfl

/-- The size of the file of node `i` gives no position to release. -/
def SinPosiciones (m : Montaje) (s : Estado) (i : ℤ) : Prop :=
  (ultimaPosicion (s.tamanio m i)).2 < 0 ∨ (ultimaPosicion (s.tamanio m i)).1 < 0

theorem sinPosiciones_of_vacio (h : s.tamanio m i = 0) : SinPosiciones m s i := by
  rw [SinPosiciones, h]
  decide

/-- Down to position 0, whatever the mode. -/
theorem eval_eliminarNodos_sinPosiciones (h : SinPosiciones m s i) (n : ℕ) :
    (eliminarNodos m (n + 1) i 0 0).eval s = some ((), s) := by
  rw [eliminarNodos, eval_bind, eval_read, Option.bind_some]
  dsimp only
  rw [if_neg (by decide)]
  exact eval_borrarPunteros_fuera 0 0 _ _ h n s

/-! ## What is released -/

/-- The blocks of the file that `n` bytes do not need: the data blocks after the first `K`
of its `L` positions and the pointer blocks of which no position is kept. -/
def Sobrantes (m : Montaje) (s : Estado) (i : ℤ) (K L : ℕ) : Set ℤ :=
  {b | (∃ j, K ≤ j ∧ j < L ∧ s.dato m i j = b) ∨
    ∃ p : ℕ, K ≤ 1024 * p ∧ 1024 * p < L ∧ s.indirecto m i p = b}

/-- The file has been cut to `n` bytes: in the bitmap exactly the blocks that it does not
need any more are released, its first positions and bytes are as before, and so is what
every data block holds. -/
structure Recortado (m : Montaje) (i n : ℤ) (s s' : Estado) : Prop where
  bits : ∀ b, EnBitmap m b → (s'.testBit m b = true ↔
    s.testBit m b = true ∧ b ∉ Sobrantes m s i (bloquesDe n) (bloquesDe (s.tamanio m i)))
  mapa : ∀ j < bloquesDe n, s'.indirecto m i (j / 1024 : ℕ) = s.indirecto m i (j / 1024 : ℕ) ∧
    s'.dato m i j = s.dato m i j
  contenido : s'.contenido m i 0 n.toNat = s.contenido m i 0 n.toNat
  bloques : ∀ b, m.base ≤ b → ∀ x, 0 ≤ x → x < 4096 →
    s'.mem (m.bloque b + x) = s.mem (m.bloque b + x)

/-- `eliminarNodos`, as `o_truncate` calls it for `n` bytes, ends and cuts the file. -/
def RecortaBien (m : Montaje) (i n : ℤ) (s : Estado) : Prop :=
  ∃ fuel s', (eliminarNodos m fuel i (settearPosicion n).1 (settearPosicion n).2).eval s =
    some ((), s') ∧ Recortado m i n s s'

/-- The block that `eliminarNodos` finds at a position of the file. -/
def Estado.entrada (m : Montaje) (s : Estado) (i : ℤ) (j : ℕ) : ℤ :=
  leerEntrada (s.indirecto m i (j / 1024 : ℕ)) (j % 1024 : ℕ) s

/-- The file is empty; or the new size is 0 or not the end of a block, its position is in
the last pointer block, and what is found at the positions to release are their blocks. From
2 GiB on nothing is released, and nothing should be. -/
def CorteSano (m : Montaje) (s : Estado) (i n : ℤ) : Prop :=
  (s.tamanio m i < 2147483648 ∧ (s.tamanio m i = 0 ∨
    (n % 4096 ≠ 0 ∨ n = 0) ∧ (s.tamanio m i - 1) / 4194304 = n / 4194304 ∧
      s.entrada m i '' Set.Ico (bloquesDe n) (bloquesDe (s.tamanio m i)) =
        s.dato m i '' Set.Ico (bloquesDe n) (bloquesDe (s.tamanio m i)))) ∨
  (2147483648 ≤ s.tamanio m i ∧ bloquesDe n = bloquesDe (s.tamanio m i))

theorem sobrantes_self (K : ℕ) : Sobrantes m s i K K = ∅ := by
  ext b
  simp only [Sobrantes, Set.mem_ofPred_eq, Set.mem_empty_iff_false, iff_false, not_or, not_exists,
    not_and]
  constructor <;> intros <;> omega

theorem recortado_self {n : ℤ} (h : bloquesDe n = bloquesDe (s.tamanio m i)) :
    Recortado m i n s s where
  bits b _ := by
    rw [h, sobrantes_self]
    simp
  mapa _ _ := ⟨rfl, rfl⟩
  contenido := rfl
  bloques _ _ _ _ _ := rfl

/-! ## When it releases what it should -/

section Corte

variable {n : ℤ}

/-- The size and the map of the file, as the next results need them. -/
theorem bloquesDe_eq {x : ℤ} (h : 0 < x) : bloquesDe x = (x - 1).toNat / 4096 + 1 := by
  rw [bloquesDe, posiciones]
  omega

/-- The positions kept are one more than the position of the new size, unless that is the
end of a block. -/
theorem bloquesDe_nuevo (hn : 0 ≤ n) (h : n % 4096 ≠ 0 ∨ n = 0) :
    bloquesDe n = n.toNat / 4096 + 1 := by
  rw [bloquesDe, posiciones]
  omega

/-- In the last pointer block the loop reads the entries of the positions to release. -/
theorem leerEntrada_eq {t x : ℕ} (h : (t + (x + 1)) / 1024 = t / 1024) :
    leerEntrada (s.indirecto m i (t / 1024 : ℕ)) ((t % 1024 : ℕ) + (x + 1 : ℕ)) s =
      s.entrada m i (t + (x + 1)) := by
  have hmod : (((t + (x + 1)) % 1024 : ℕ) : ℤ) = (t % 1024 : ℕ) + (x + 1 : ℕ) := by omega
  rw [Estado.entrada, h, hmod]

/-- `eliminarNodos` ends, cuts the file, counts the positions that it releases and changes nothing
from the table of nodes on. -/
def RecortaEnBitmap (m : Montaje) (i n : ℤ) (s : Estado) : Prop :=
  ∃ fuel s', (eliminarNodos m fuel i (settearPosicion n).1 (settearPosicion n).2).eval s =
    some ((), s') ∧ Recortado m i n s s' ∧
      s'.bitmapFreeBlocks =
        s.bitmapFreeBlocks + (bloquesDe (s.tamanio m i) - bloquesDe n : ℕ) ∧
      ∀ a, m.nodo 0 ≤ a → s'.mem a = s.mem a

/-- One pointer block, and a new size that is not the end of a block. -/
theorem recorta_de_un_bloque (hmapa : MapaCompleto m s i (bloquesDe (s.tamanio m i)))
    (hs : s.delMode = false) (hn : 0 ≤ n) (hle : n ≤ s.tamanio m i) (hmax : n < 2147483648)
    (hpos : 0 < s.tamanio m i) (hchico : s.tamanio m i < 2147483648)
    (hresto : n % 4096 ≠ 0 ∨ n = 0) (hmismo : (s.tamanio m i - 1) / 4194304 = n / 4194304)
    (hentradas : s.entrada m i '' Set.Ico (bloquesDe n) (bloquesDe (s.tamanio m i)) =
      s.dato m i '' Set.Ico (bloquesDe n) (bloquesDe (s.tamanio m i))) :
    RecortaEnBitmap m i n s := by
  have hK := bloquesDe_nuevo hn hresto
  have hL := bloquesDe_eq hpos
  set t := n.toNat / 4096 with ht
  set e := (s.tamanio m i - 1).toNat / 4096 with he
  set aux := s.indirecto m i (t / 1024 : ℕ) with haux
  have hte : t ≤ e := by omega
  have hbloque : e / 1024 = t / 1024 := by omega
  have hbase : m.base ≤ aux := hmapa.base_le_indirecto t (by omega)
  have hk : (((e % 1024 : ℕ) : ℤ) - (t % 1024 : ℕ)).toNat = e - t := by omega
  have hlee : ∀ x : ℕ, x < e - t → leerEntrada aux ((t % 1024 : ℕ) + (x + 1 : ℕ)) s =
      s.entrada m i (t + (x + 1)) := fun x hx => leerEntrada_eq (by omega)
  have henBitmap : ∀ x : ℕ, x < e - t →
      EnBitmap m (leerEntrada aux ((t % 1024 : ℕ) + (x + 1 : ℕ)) s) := by
    intro x hx
    have hmem : s.entrada m i (t + (x + 1)) ∈
        s.entrada m i '' Set.Ico (bloquesDe n) (bloquesDe (s.tamanio m i)) :=
      Set.mem_image_of_mem _ ⟨by omega, by omega⟩
    rw [hentradas] at hmem
    obtain ⟨j, hj, hjeq⟩ := hmem
    rw [hlee x hx, ← hjeq]
    exact hmapa.dato_enBitmap j hj.2
  have hmem := limpiar_mem hbase (Int.natCast_nonneg (t % 1024)) (e - t) s henBitmap
  have hleidas := leidas_eq hbase (Int.natCast_nonneg (t % 1024)) (e - t) s (.inr henBitmap)
  have heval := eval_borrarPunteros_ultimo (m := m) (i := i) (t % 1024 : ℕ) (t / 1024 : ℕ)
    (e % 1024 : ℕ) (n := 1024) hs (Int.natCast_nonneg _)
    (Int.natCast_nonneg _) (by omega) (by omega) (Int.natCast_nonneg _)
  rw [hk] at heval
  have hcuantas : bloquesDe (s.tamanio m i) - bloquesDe n = e - t := by omega
  refine ⟨1025, limpiar m aux (t % 1024 : ℕ) (e - t) s, ?_, ?_,
    by rw [limpiar_bitmapFreeBlocks, hcuantas], hmem⟩
  · rw [eval_eliminarNodos_apagado hs, ultimaPosicion_eq hpos hchico, settearPosicion_eq hn hmax]
    dsimp only
    rw [← ht, ← he, hbloque]
    exact heval
  have hdatos : ∀ a, m.bloque m.base ≤ a → (limpiar m aux (t % 1024 : ℕ) (e - t) s).mem a =
      s.mem a := fun a ha => hmem a (by have h := bloque_base m; omega)
  have hindirecto : ∀ p : ℤ, 0 ≤ p → (limpiar m aux (t % 1024 : ℕ) (e - t) s).indirecto m i p =
      s.indirecto m i p := by
    intro p hp
    have hnodo := nodo_eq m i
    have hi := hmapa.nodo_nonneg
    exact load32_congr fun y _ => hmem _ (by rw [dirIndirecto]; omega)
  have hdato : ∀ j < bloquesDe (s.tamanio m i),
      (limpiar m aux (t % 1024 : ℕ) (e - t) s).dato m i j = s.dato m i j := by
    intro j hj
    have hbase' := hmapa.base_le_indirecto j hj
    have hdir := bloque_eq m (s.indirecto m i (j / 1024 : ℕ))
    rw [Estado.dato, hindirecto _ (Int.natCast_nonneg _), Estado.dato]
    exact load32_congr fun y _ => hdatos _ (by omega)
  refine ⟨fun b hb => ?_, fun j hj => ⟨hindirecto _ (Int.natCast_nonneg _), hdato j (by omega)⟩,
    ?_, ?_⟩
  · rw [limpiar_testBit, hleidas, Bool.and_eq_true, decide_eq_true_iff]
    refine and_congr_right fun _ => not_congr ?_
    rw [List.mem_reverse, List.mem_map, Sobrantes, Set.mem_ofPred_eq]
    constructor
    · rintro ⟨x, hx, rfl⟩
      have hx' := List.mem_range.1 hx
      have hmem : s.entrada m i (t + (x + 1)) ∈
          s.entrada m i '' Set.Ico (bloquesDe n) (bloquesDe (s.tamanio m i)) :=
        Set.mem_image_of_mem _ ⟨by omega, by omega⟩
      rw [hentradas] at hmem
      obtain ⟨j, hj, hjeq⟩ := hmem
      exact .inl ⟨j, hj.1, hj.2, by rw [hlee x hx', hjeq]⟩
    · rintro (⟨j, hj, hj', rfl⟩ | ⟨p, hp, hp', -⟩)
      · have hmem : s.dato m i j ∈
            s.dato m i '' Set.Ico (bloquesDe n) (bloquesDe (s.tamanio m i)) :=
          Set.mem_image_of_mem _ ⟨hj, hj'⟩
        rw [← hentradas] at hmem
        obtain ⟨y, hy, hyeq⟩ := hmem
        have hy1 := hy.1
        have hy2 := hy.2
        refine ⟨y - t - 1, List.mem_range.2 (by omega), ?_⟩
        rw [hlee _ (by omega), show t + (y - t - 1 + 1) = y by omega, hyeq]
      · omega
  · refine contenido_congr fun x _ hx => ?_
    have hx' : x / 4096 < bloquesDe (s.tamanio m i) := by omega
    have hbase' := hmapa.base_le_dato (x / 4096) hx'
    have hdir := bloque_eq m (s.dato m i (x / 4096))
    rw [Estado.byteDe, hdato _ hx', Estado.byteDe]
    exact hdatos _ (by omega)
  · intro b hb x hx hx'
    have hdir := bloque_eq m b
    exact hdatos _ (by omega)

theorem recorta_of_sano (hmapa : MapaCompleto m s i (bloquesDe (s.tamanio m i)))
    (hs : s.delMode = false) (hn : 0 ≤ n) (hle : n ≤ s.tamanio m i) (hmax : n < 2147483648)
    (h : CorteSano m s i n) : RecortaEnBitmap m i n s := by
  have htope := hmapa.tope
  rw [bloquesDe, posiciones] at htope
  have hpointer : 0 ≤ (settearPosicion n).1 := by
    rw [settearPosicion_eq hn hmax]
    exact Int.natCast_nonneg _
  have hvacio : s.tamanio m i = 0 → RecortaEnBitmap m i n s := by
    intro hcero
    have hncero : n = 0 := by omega
    refine ⟨1, s, ?_, recortado_self (by rw [hcero, hncero]),
      by rw [hcero, hncero, Nat.sub_self, Nat.cast_zero, add_zero], fun _ _ => rfl⟩
    rw [eval_eliminarNodos_apagado hs, hcero, ultimaPosicion_cero]
    exact eval_borrarPunteros_fuera _ _ _ _ (.inr (by decide)) 0 s
  obtain ⟨hchico, hcero | ⟨hresto, hmismo, hentradas⟩⟩ | ⟨hgrande, hbloques⟩ := h
  · exact hvacio hcero
  · rcases eq_or_ne (s.tamanio m i) 0 with hcero | hno
    · exact hvacio hcero
    · exact recorta_de_un_bloque hmapa hs hn hle hmax (by omega) hchico hresto hmismo hentradas
  · refine ⟨1, s, ?_, recortado_self hbloques,
      by rw [hbloques, Nat.sub_self, Nat.cast_zero, add_zero], fun _ _ => rfl⟩
    rw [eval_eliminarNodos_apagado hs]
    exact eval_borrarPunteros_fuera _ _ _ _ (.inr (ultimaPosicion_neg hgrande (by omega))) 0 s

theorem recortaBien_of_sano (hmapa : MapaCompleto m s i (bloquesDe (s.tamanio m i)))
    (hs : s.delMode = false) (hn : 0 ≤ n) (hle : n ≤ s.tamanio m i) (hmax : n < 2147483648)
    (h : CorteSano m s i n) : RecortaBien m i n s := by
  obtain ⟨fuel, s', heval, hrecortado, -⟩ := recorta_of_sano hmapa hs hn hle hmax h
  exact ⟨fuel, s', heval, hrecortado⟩

/-- A used block that should be released is among those whose bits are clear at the end. -/
theorem Recortado.mem_of_bits (h : Recortado m i n s s') {cs : List ℤ} {b : ℤ}
    (hbits : s'.testBit m b = (s.testBit m b && decide (b ∉ cs))) (hb : EnBitmap m b)
    (husado : s.testBit m b = true)
    (hsobra : b ∈ Sobrantes m s i (bloquesDe n) (bloquesDe (s.tamanio m i))) : b ∈ cs := by
  by_contra hno
  rw [husado, decide_eq_true hno, Bool.and_true] at hbits
  exact ((h.bits b hb).1 hbits).2 hsobra

/-- When it releases the right blocks, there are as many as positions from the last one down
to that of the new size: no pointer block is among them. -/
theorem cuenta_of_recortado (hmapa : MapaCompleto m s i (bloquesDe (s.tamanio m i)))
    (hn : 0 ≤ n) (hpos : 0 < s.tamanio m i) (hrec : Recortado m i n s s') {cs : List ℤ}
    (hbits : ∀ c, EnBitmap m c → s'.testBit m c = (s.testBit m c && decide (c ∉ cs)))
    (hlen : cs.length = (s.tamanio m i - 1).toNat / 4096 - n.toNat / 4096)
    (hte : n.toNat / 4096 ≤ (s.tamanio m i - 1).toNat / 4096) :
    (n % 4096 ≠ 0 ∨ n = 0) ∧ (s.tamanio m i - 1) / 4194304 = n / 4194304 ∧
      cs.Perm ((List.range' (bloquesDe n) (bloquesDe (s.tamanio m i) - bloquesDe n)).map
        (s.dato m i)) := by
  have hL := bloquesDe_eq hpos
  set K := bloquesDe n with hK
  set L := bloquesDe (s.tamanio m i) with hLdef
  have hKn : K = max 1 ((n + 4095) / 4096).toNat := rfl
  set datos := (List.range' K (L - K)).map (s.dato m i) with hdatos
  have hnodup : datos.Nodup := by
    refine List.Nodup.map_on ?_ List.nodup_range'
    intro x hx y hy hxy
    rw [List.mem_range'_1] at hx hy
    exact hmapa.dato_inj x (by omega) y (by omega) hxy
  have hsub : datos ⊆ cs := by
    intro b hb
    obtain ⟨j, hj, rfl⟩ := List.mem_map.1 hb
    rw [List.mem_range'_1] at hj
    have hjL : j < L := by omega
    exact hrec.mem_of_bits (hbits _ (hmapa.dato_enBitmap j hjL)) (hmapa.dato_enBitmap j hjL)
      (hmapa.dato_usado j hjL) (.inl ⟨j, hj.1, hjL, rfl⟩)
  have hlargo : datos.length = L - K := by rw [hdatos, List.length_map, List.length_range']
  have hcabe := (hnodup.subperm hsub).length_le
  have hresto : n % 4096 ≠ 0 ∨ n = 0 := by
    by_contra hno
    omega
  have hmismo : (s.tamanio m i - 1) / 4194304 = n / 4194304 := by
    by_contra hno
    -- the last pointer block keeps no position: there is one block more to release
    have hlt : n.toNat / 4096 / 1024 < (s.tamanio m i - 1).toNat / 4096 / 1024 := by omega
    set e := (s.tamanio m i - 1).toNat / 4096 with he
    have heL : e < L := by omega
    have hpuntero := hrec.mem_of_bits (hbits _ (hmapa.indirecto_enBitmap e heL))
      (hmapa.indirecto_enBitmap e heL) (hmapa.indirecto_usado e heL)
      (.inr ⟨e / 1024, by omega, by omega, rfl⟩)
    have hotro : s.indirecto m i (e / 1024 : ℕ) ∉ datos := by
      intro hmem
      obtain ⟨j, hj, hjeq⟩ := List.mem_map.1 hmem
      rw [List.mem_range'_1] at hj
      exact hmapa.aparte j (by omega) e heL hjeq
    have hmas := (List.Nodup.subperm (List.nodup_cons.2 ⟨hotro, hnodup⟩)
      (List.cons_subset.2 ⟨hpuntero, hsub⟩)).length_le
    rw [List.length_cons] at hmas
    omega
  refine ⟨hresto, hmismo, ?_⟩
  exact ((hnodup.subperm hsub).perm_of_length_le (by omega)).symm

/-- From 2 GiB on `eliminarNodos` does nothing, which is right only if the number of blocks
does not change. -/
theorem bloques_eq_of_recortado (hmapa : MapaCompleto m s i (bloquesDe (s.tamanio m i)))
    (hs : s.delMode = false) (hle : n ≤ s.tamanio m i)
    (hgrande : 2147483648 ≤ s.tamanio m i) {fuel : ℕ}
    (heval : (eliminarNodos m fuel i (settearPosicion n).1 (settearPosicion n).2).eval s =
      some ((), s'))
    (hrec : Recortado m i n s s') : bloquesDe n = bloquesDe (s.tamanio m i) := by
  have htope := hmapa.tope
  rw [bloquesDe, posiciones] at htope
  have hnada := eval_borrarPunteros_fuera (m := m) (i := i) (settearPosicion n).1
    (settearPosicion n).2 _ (ultimaPosicion (s.tamanio m i)).2
    (.inr (ultimaPosicion_neg hgrande (by omega))) 0 s
  rw [← eval_eliminarNodos_apagado hs] at hnada
  have heq := eval_unique (extends_eliminarNodos i _ _) heval hnada
  rw [Prod.mk.injEq] at heq
  rw [heq.2] at hrec
  by_contra hno
  have hK : bloquesDe n < bloquesDe (s.tamanio m i) := by
    rw [bloquesDe, bloquesDe, posiciones, posiciones] at hno ⊢
    omega
  have hbit := hrec.bits _ (hmapa.dato_enBitmap _ hK)
  rw [hmapa.dato_usado _ hK] at hbit
  exact (hbit.1 rfl).2 (.inl ⟨_, le_rfl, hK, rfl⟩)

/-- A loop that begins at a position `e` before the `t` where it should stop does it wrong: in
the same pointer block it does not end, and in the one before it releases that block. -/
theorem not_recortado_pasado (hmapa : MapaCompleto m s i (bloquesDe (s.tamanio m i)))
    (hs : s.delMode = false) (hle : n ≤ s.tamanio m i) (hpos : 0 < s.tamanio m i) {e t : ℕ}
    (he : e = (s.tamanio m i - 1).toNat / 4096) (ht : t = n.toNat / 4096) (hpasado : e < t)
    {fuel : ℕ}
    (heval : (borrarPunteros m i (t / 1024 : ℕ) (t % 1024 : ℕ) fuel (e / 1024 : ℕ)
      (e % 1024 : ℕ)).eval s = some ((), s')) : ¬ Recortado m i n s s' := by
  intro hrec
  have htope := hmapa.tope
  rw [bloquesDe, posiciones] at htope
  have hL := bloquesDe_eq hpos
  have hK : bloquesDe n = bloquesDe (s.tamanio m i) := by
    rw [bloquesDe, bloquesDe, posiciones, posiciones]
    omega
  rcases eq_or_ne (t / 1024) (e / 1024) with hmismo | hotro
  · rw [← hmismo, eval_borrarPunteros_pasado hs (Int.natCast_nonneg _)
      (Int.natCast_nonneg _) (by omega)] at heval
    cases heval
  · have hvacia := eval_borrarPunteros_antes (m := m) (i := i)
      (t / 1024 : ℕ) (t % 1024 : ℕ) (e / 1024 + 1) (by omega) s hs
      (1025 + e / 1024) (by omega)
    have hprimero : ((e / 1024 + 1 : ℕ) : ℤ) - 1 = (e / 1024 : ℕ) := by omega
    have hultimo : ((e % 1024 : ℕ) : ℤ) = 1023 := by omega
    rw [hprimero] at hvacia
    rw [hultimo] at heval
    have heq := eval_unique
      (fun n => extends_borrarPunteros i _ _ n ((e / 1024 : ℕ) : ℤ) 1023) heval hvacia
    rw [Prod.mk.injEq] at heq
    have heL : e < bloquesDe (s.tamanio m i) := by omega
    have hbit := hrec.bits _ (hmapa.indirecto_enBitmap e heL)
    rw [hmapa.indirecto_usado e heL, hK, sobrantes_self, heq.2,
      vaciar_indirecto hmapa.nodo_nonneg (hmapa.indirecto_enBitmap e heL)] at hbit
    exact absurd (hbit.2 ⟨rfl, Set.notMem_empty _⟩) Bool.false_ne_true

/-- The entries that the loop reads of the pointer block, from position `e` down to the one
after `t`. -/
theorem mem_leidas_iff {e t : ℕ} (hbloque : e / 1024 = t / 1024)
    (haux : m.base ≤ s.indirecto m i (t / 1024 : ℕ))
    (hdentro : ∀ c ∈ leidas m (s.indirecto m i (t / 1024 : ℕ)) (t % 1024 : ℕ) (e - t) s,
      EnBitmap m c) (b : ℤ) :
    b ∈ leidas m (s.indirecto m i (t / 1024 : ℕ)) (t % 1024 : ℕ) (e - t) s ↔
      b ∈ s.entrada m i '' Set.Ico (t + 1) (e + 1) := by
  rw [leidas_eq haux (Int.natCast_nonneg (t % 1024)) (e - t) s (.inl hdentro),
    List.mem_reverse, List.mem_map, Set.mem_image]
  constructor
  · rintro ⟨x, hx, rfl⟩
    have hx' := List.mem_range.1 hx
    exact ⟨t + (x + 1), ⟨by omega, by omega⟩, (leerEntrada_eq (by omega)).symm⟩
  · rintro ⟨y, hy, rfl⟩
    have hy1 := hy.1
    have hy2 := hy.2
    refine ⟨y - t - 1, List.mem_range.2 (by omega), ?_⟩
    rw [leerEntrada_eq (by omega), show t + (y - t - 1 + 1) = y by omega]

/-- A loop that goes from position `e` down to `t` and cuts the file as it should has only one
pointer block to go through, whose entries are the blocks of the positions. -/
theorem entradas_of_recortado (hmapa : MapaCompleto m s i (bloquesDe (s.tamanio m i)))
    (hs : s.delMode = false) (hn : 0 ≤ n) (hpos : 0 < s.tamanio m i) {e t : ℕ}
    (he : e = (s.tamanio m i - 1).toNat / 4096) (ht : t = n.toNat / 4096) (hte : t ≤ e)
    {fuel : ℕ}
    (heval : (borrarPunteros m i (t / 1024 : ℕ) (t % 1024 : ℕ) fuel (e / 1024 : ℕ)
      (e % 1024 : ℕ)).eval s = some ((), s')) (hrec : Recortado m i n s s') :
    (n % 4096 ≠ 0 ∨ n = 0) ∧ (s.tamanio m i - 1) / 4194304 = n / 4194304 ∧
      s.entrada m i '' Set.Ico (bloquesDe n) (bloquesDe (s.tamanio m i)) =
        s.dato m i '' Set.Ico (bloquesDe n) (bloquesDe (s.tamanio m i)) := by
  have htope := hmapa.tope
  rw [bloquesDe, posiciones] at htope
  have hL := bloquesDe_eq hpos
  have hk : ((t / 1024 : ℕ) : ℤ) + (e / 1024 - t / 1024 : ℕ) = (e / 1024 : ℕ) := by omega
  have hrecorta := eval_borrarPunteros_apagado (m := m) (i := i)
    (t / 1024 : ℕ) (t % 1024 : ℕ) (Int.natCast_nonneg _)
    (Int.natCast_nonneg _) (by omega) (e / 1024 - t / 1024) (e % 1024 : ℕ) s hs
    (Int.natCast_nonneg _) (by omega) (1025 + e / 1024) (by omega)
  rw [hk] at hrecorta
  have heq := eval_unique (fun n => extends_borrarPunteros i _ _ n ((e / 1024 : ℕ) : ℤ)
    ((e % 1024 : ℕ) : ℤ)) heval hrecorta
  rw [Prod.mk.injEq] at heq
  obtain ⟨cs, hlen, hbits⟩ := recortar_testBit (m := m) (i := i)
    (t / 1024 : ℕ) (t % 1024 : ℕ) hmapa.nodo_nonneg (Int.natCast_nonneg _)
    (Int.natCast_nonneg _) (by omega) (e / 1024 - t / 1024) (e % 1024 : ℕ) s
    (Int.natCast_nonneg _) (by omega)
  rw [← heq.2] at hbits
  have hcuenta : (1024 * ((e / 1024 - t / 1024 : ℕ) : ℤ) + (e % 1024 : ℕ) -
      (t % 1024 : ℕ)).toNat = e - t := by omega
  rw [hcuenta, he, ht] at hlen
  rw [he, ht] at hte
  obtain ⟨hresto, hmismo, -⟩ := cuenta_of_recortado hmapa hn hpos hrec hbits hlen hte
  refine ⟨hresto, hmismo, ?_⟩
  -- only one pointer block: what the loop read are the entries of the positions
  have hbloque : e / 1024 = t / 1024 := by omega
  have hbits' : ∀ c, EnBitmap m c → s'.testBit m c = (s.testBit m c &&
      decide (c ∉ leidas m (s.indirecto m i (t / 1024 : ℕ)) (t % 1024 : ℕ) (e - t) s)) := by
    intro c _
    have hlimpio := limpiar_testBit (m := m) (s.indirecto m i (t / 1024 : ℕ)) (t % 1024 : ℕ)
      (e - t) s c
    rw [heq.2, hbloque, Nat.sub_self, recortar,
      show ((e % 1024 : ℕ) - (t % 1024 : ℕ) : ℤ).toNat = e - t by omega]
    exact hlimpio
  obtain ⟨-, -, hperm⟩ := cuenta_of_recortado hmapa hn hpos hrec hbits'
    (by rw [length_leidas, he, ht]) hte
  have hK := bloquesDe_nuevo hn hresto
  have hleidas := mem_leidas_iff hbloque (hmapa.base_le_indirecto t (by omega)) fun c hc => by
    obtain ⟨j, hj, rfl⟩ := List.mem_map.1 (hperm.mem_iff.1 hc)
    rw [List.mem_range'_1] at hj
    exact hmapa.dato_enBitmap j (by omega)
  ext b
  have hIco : Set.Ico (bloquesDe n) (bloquesDe (s.tamanio m i)) = Set.Ico (t + 1) (e + 1) := by
    rw [hK, hL, he, ht]
  rw [hIco, ← hleidas, hperm.mem_iff, List.mem_map, Set.mem_image, ← hIco]
  refine exists_congr fun j => and_congr_left fun _ => ?_
  rw [List.mem_range'_1, Set.mem_Ico]
  omega

theorem sano_of_recortaBien (hmapa : MapaCompleto m s i (bloquesDe (s.tamanio m i)))
    (hs : s.delMode = false) (hn : 0 ≤ n) (hle : n ≤ s.tamanio m i) (hmax : n < 2147483648)
    (h : RecortaBien m i n s) : CorteSano m s i n := by
  obtain ⟨fuel, s', heval, hrec⟩ := h
  rcases le_or_gt 2147483648 (s.tamanio m i) with hgrande | hchico
  · exact .inr ⟨hgrande, bloques_eq_of_recortado hmapa hs hle hgrande heval hrec⟩
  refine .inl ⟨hchico, ?_⟩
  rcases eq_or_ne (s.tamanio m i) 0 with hcero | hno
  · exact .inl hcero
  have hpos : 0 < s.tamanio m i := by omega
  rw [eval_eliminarNodos_apagado hs, ultimaPosicion_eq hpos hchico,
    settearPosicion_eq hn hmax] at heval
  dsimp only at heval
  rcases lt_or_ge ((s.tamanio m i - 1).toNat / 4096) (n.toNat / 4096) with hpasado | hte
  · exact absurd hrec (not_recortado_pasado hmapa hs hle hpos rfl rfl hpasado heval)
  · exact .inr (entradas_of_recortado hmapa hs hn hpos rfl rfl hte heval hrec)

/-- A file is cut to `n` bytes as it should exactly in these cases. -/
theorem recortaBien_iff (m : Montaje) (s : Estado) (i n : ℤ)
    (hmapa : MapaCompleto m s i (bloquesDe (s.tamanio m i))) (hs : s.delMode = false)
    (hn : 0 ≤ n) (hle : n ≤ s.tamanio m i) (hmax : n < 2147483648) :
    RecortaBien m i n s ↔ CorteSano m s i n :=
  ⟨sano_of_recortaBien hmapa hs hn hle hmax, recortaBien_of_sano hmapa hs hn hle hmax⟩

end Corte

/-! ## A file of one block -/

/-- A file with one data block, 1026, and the pointer block 1027. -/
theorem mapaCompleto_unBloque {i : ℤ} (h : bloquesDe (s.tamanio montajeChico i) = 1)
    (hi : 0 ≤ i) (hi' : i < 1024) (hindirecto : s.indirecto montajeChico i 0 = 1027)
    (hdato : s.dato montajeChico i 0 = 1026)
    (husado : s.testBit montajeChico 1026 = true ∧ s.testBit montajeChico 1027 = true) :
    MapaCompleto montajeChico s i (bloquesDe (s.tamanio montajeChico i)) := by
  have hbitmap : ∀ b : ℤ, b = 1026 ∨ b = 1027 → EnBitmap montajeChico b := by
    rintro b (rfl | rfl) <;> exact ⟨by decide, by decide⟩
  rw [h]
  exact mapaCompleto_uno hi hi' hindirecto hdato (by decide)
    ⟨by decide, hbitmap _ (.inl rfl), husado.1⟩ ⟨by decide, hbitmap _ (.inr rfl), husado.2⟩

theorem mapaCompleto_unArchivo_cien : MapaCompleto montajeChico (unArchivo 100) 0
    (bloquesDe ((unArchivo 100).tamanio montajeChico 0)) :=
  mapaCompleto_unBloque (by rw [tamanio_unArchivo_cien]; decide) le_rfl (by decide)
    (by decide +kernel) (by decide +kernel) (by decide +kernel)

theorem mapaCompleto_unArchivo_lleno : MapaCompleto montajeChico (unArchivo 4096) 0
    (bloquesDe ((unArchivo 4096).tamanio montajeChico 0)) :=
  mapaCompleto_unBloque (by rw [tamanio_unArchivo_lleno]; decide) le_rfl (by decide)
    (by decide +kernel) (by decide +kernel) (by decide +kernel)

/-- A file of 100 bytes cut to 50, and one of a full block to its own size: there the loop begins
before the position where it should stop. -/
theorem recortaBien_iff_cien :
    RecortaBien montajeChico 0 50 (unArchivo 100) ∧
      ¬ RecortaBien montajeChico 0 4096 (unArchivo 4096) := by
  constructor
  · refine (recortaBien_iff montajeChico (unArchivo 100) 0 50 mapaCompleto_unArchivo_cien rfl
      (by decide) (by rw [tamanio_unArchivo_cien]; decide) (by decide)).2 ?_
    have hbloques : bloquesDe 50 = 1 ∧ bloquesDe 100 = 1 := by decide
    rw [CorteSano, tamanio_unArchivo_cien, hbloques.1, hbloques.2]
    exact .inl ⟨by decide, .inr ⟨by decide, by decide,
      Set.image_congr fun j hj => absurd hj.2 (not_lt.2 hj.1)⟩⟩
  · intro hbien
    have hsano := (recortaBien_iff montajeChico (unArchivo 4096) 0 4096
      mapaCompleto_unArchivo_lleno rfl (by decide) (by rw [tamanio_unArchivo_lleno])
      (by decide)).1 hbien
    rw [CorteSano, tamanio_unArchivo_lleno] at hsano
    omega

/-- The new size is where the loop should stop, and it does not. -/
theorem recortaBien_lleno :
    ¬ ∀ (m : Montaje) (s : Estado) (i n : ℤ),
      MapaCompleto m s i (bloquesDe (s.tamanio m i)) → s.delMode = false → 0 ≤ n →
        n ≤ s.tamanio m i → n < 2147483648 → RecortaBien m i n s := by
  intro hclaim
  have hsano := sano_of_recortaBien mapaCompleto_unArchivo_lleno rfl
    (show (0 : ℤ) ≤ 4096 by decide) (by rw [tamanio_unArchivo_lleno]) (by decide)
    (hclaim montajeChico (unArchivo 4096) 0 4096 mapaCompleto_unArchivo_lleno rfl (by decide)
      (by rw [tamanio_unArchivo_lleno]) (by decide))
  rw [CorteSano, tamanio_unArchivo_lleno] at hsano
  omega

end Sac
