import Linuse.Transition.Run
import Linuse.Sac.Subarbol
import Linuse.Sac.Agrandado
import Linuse.Sac.Errores

/-!
# The counter of free blocks

At start-up `obtenerBloquesLibres` counts the clear bits of the bitmap. `eliminarNodos` adds one
to the counter for each data block that it releases. The release of a pointer block adds nothing,
and `obtenerBloqueLibre`, which takes every block, subtracts nothing. The counter is right as long
as requests take no block and release data blocks only (`cuenta_of_run`).
-/

namespace Sac

open Memory Locks Locks.Code Transition

variable {m : Montaje} {s s' t : Estado} {i : ℤ}

/-! ## The clear bits -/

/-- The number of blocks of the disk whose bit is clear. -/
def bitsLibres (m : Montaje) (s : Estado) : ℕ :=
  (List.range m.bloques).countP fun b : ℕ => !s.testBit m b

/-- `obtenerBloquesLibres`. -/
def obtenerBloquesLibres (m : Montaje) (s : Estado) : ℕ × Estado :=
  (bitsLibres m s, { s with bitmapFreeBlocks := bitsLibres m s })

/-- The counter is the number of clear bits. -/
def Cuenta (m : Montaje) (s : Estado) : Prop := s.bitmapFreeBlocks = bitsLibres m s

theorem cuenta_inicio (m : Montaje) (s : Estado) : Cuenta m (obtenerBloquesLibres m s).2 := rfl

theorem estado_inicio (m : Montaje) (s : Estado) (i : ℤ) :
    (obtenerBloquesLibres m s).2.estado m i = s.estado m i := rfl

theorem countP_range_flip {p q : ℕ → Bool} {b : ℕ} (hp : p b = false) (hq : q b = true)
    (h : ∀ x, x ≠ b → q x = p x) {n : ℕ} :
    (List.range n).countP q = (List.range n).countP p + if b < n then 1 else 0 := by
  induction n with
  | zero => rfl
  | succ n ih =>
      rw [List.range_succ, List.countP_append, List.countP_append, ih, List.countP_singleton,
        List.countP_singleton]
      rcases eq_or_ne n b with rfl | hne
      · rw [hp, hq, if_neg (lt_irrefl n), if_pos (Nat.lt_succ_self n)]
        rfl
      · have hiff : b < n + 1 ↔ b < n := by omega
        rw [h n hne, if_congr hiff rfl rfl]
        omega

/-- The release of a block in use adds one to both numbers. -/
theorem Cuenta.soltar (h : Cuenta m s) {b : ℤ} (hb : 0 ≤ b) (hlt : b < m.bloques)
    (husado : s.testBit m b = true) : Cuenta m (soltar m b s) := by
  have hotro : ∀ x : ℕ, x ≠ b.toNat →
      (!(Sac.soltar m b s).testBit m x) = !s.testBit m x := by
    intro x hx
    rw [soltar_testBit, decide_eq_false (by omega)]
    rfl
  have hcuenta : bitsLibres m (Sac.soltar m b s) = bitsLibres m s + 1 := by
    rw [bitsLibres, countP_range_flip (p := fun x : ℕ => !s.testBit m x) (b := b.toNat) ?_ ?_ hotro,
      if_pos (by omega), bitsLibres]
    · rw [Int.toNat_of_nonneg hb, husado]
      rfl
    · rw [Int.toNat_of_nonneg hb, soltar_testBit, decide_eq_true rfl]
      rfl
  rw [Cuenta, hcuenta, Nat.cast_add, Nat.cast_one, ← h]
  rfl

/-- The positions of pointer block `aux` after `hasta` and up to `x` hold different blocks of the
disk in use. -/
structure EntradasEnUso (m : Montaje) (s : Estado) (aux hasta x : ℤ) : Prop where
  base : m.base ≤ aux
  hasta_nonneg : 0 ≤ hasta
  enUso : ∀ y, hasta < y → y ≤ x → 0 ≤ leerEntrada aux y s ∧ leerEntrada aux y s < m.bloques ∧
    s.testBit m (leerEntrada aux y s) = true
  distintas : ∀ y z, hasta < y → y < z → z ≤ x → leerEntrada aux y s ≠ leerEntrada aux z s

theorem EntradasEnUso.of_nodup {aux hasta x : ℤ} (hbase : m.base ≤ aux) (hhasta : 0 ≤ hasta)
    (huso : ∀ k < (x - hasta).toNat, 0 ≤ leerEntrada aux (hasta + (k + 1 : ℕ)) s ∧
      leerEntrada aux (hasta + (k + 1 : ℕ)) s < m.bloques ∧
        s.testBit m (leerEntrada aux (hasta + (k + 1 : ℕ)) s) = true)
    (hnodup : ((List.range (x - hasta).toNat).map fun k =>
      leerEntrada aux (hasta + (k + 1 : ℕ)) s).Nodup) : EntradasEnUso m s aux hasta x := by
  have hlugar : ∀ y, hasta < y → hasta + (((y - hasta).toNat - 1 + 1 : ℕ) : ℤ) = y := by omega
  refine ⟨hbase, hhasta, fun y hy hyx => ?_, fun y z hy hyz hz heq => ?_⟩
  · have hentrada := huso ((y - hasta).toNat - 1) (by omega)
    rwa [hlugar y hy] at hentrada
  · have hmismo := List.inj_on_of_nodup_map hnodup
      (x := (y - hasta).toNat - 1) (List.mem_range.2 (by omega))
      (y := (z - hasta).toNat - 1) (List.mem_range.2 (by omega))
      (by rw [hlugar y hy, hlugar z (by omega), heq])
    omega

/-- The release of the last one leaves the others as they were. -/
theorem EntradasEnUso.soltar (hm : Formateado m) {aux hasta x : ℤ}
    (h : EntradasEnUso m s aux hasta x) (hx : hasta < x) :
    EntradasEnUso m (soltar m (leerEntrada aux x s) s) aux hasta (x - 1) := by
  obtain ⟨h0, hlt, _⟩ := h.enUso x hx le_rfl
  have hlee : ∀ y, hasta < y →
      leerEntrada aux y (Sac.soltar m (leerEntrada aux x s) s) = leerEntrada aux y s :=
    fun y hy => leerEntrada_soltar h.base (by have hhasta := h.hasta_nonneg; omega)
      (hm.enBitmap h0 hlt) s
  refine ⟨h.base, h.hasta_nonneg, fun y hy hyx => ?_, fun y z hy hyz hz => ?_⟩
  · obtain ⟨hy0, hylt, hybit⟩ := h.enUso y hy (by omega)
    have hne : leerEntrada aux x s ≠ leerEntrada aux y s :=
      (h.distintas y x hy (by omega) le_rfl).symm
    rw [hlee y hy, soltar_testBit, decide_eq_false hne, hybit]
    exact ⟨hy0, hylt, rfl⟩
  · rw [hlee y hy, hlee z (by omega)]
    exact h.distintas y z hy hyz (by omega)

/-- The inner loop of `eliminarNodos` keeps the counter right. -/
theorem Cuenta.limpiar (hm : Formateado m) {aux hasta : ℤ} (k : ℕ) :
    ∀ s : Estado, Cuenta m s → EntradasEnUso m s aux hasta (hasta + k) →
      Cuenta m (limpiar m aux hasta k s) := by
  induction k with
  | zero => exact fun _ h _ => h
  | succ k ih =>
      intro s h hs
      obtain ⟨h0, hlt, husado⟩ := hs.enUso (hasta + (k + 1 : ℕ)) (by omega) le_rfl
      have hresto := hs.soltar hm (by omega)
      have hpos : hasta + ((k + 1 : ℕ) : ℤ) - 1 = hasta + k := by omega
      rw [hpos] at hresto
      exact ih _ (h.soltar h0 hlt husado) hresto

/-! ## What the requests can do -/

/-- A rename does nothing, or writes the name and the father of the node. -/
theorem oRename_cases {pathAntiguo nuevoPath : Ruta} {res : ℤ}
    (heval : (oRename m pathAntiguo nuevoPath).eval s = some (res, s')) :
    s' = s ∨ nodoDe m s pathAntiguo.cola ≠ -1 ∧ ∃ partes,
      dividirRuta nuevoPath.cola = some partes ∧
        s' = renombrar m (nodoDe m s pathAntiguo.cola) (nodoDe m s partes.1) partes.2 s := by
  rw [oRename, eval_bind, eval_dameNodoDe, Option.bind_some] at heval
  split_ifs at heval with hexiste
  · cases heval
    exact .inl rfl
  obtain ⟨partes, t, hpartes, heval⟩ := eval_bind_some heval
  rw [eval_orFail] at hpartes
  obtain ⟨partes', hdividir, heq⟩ := Option.map_eq_some_iff.1 hpartes
  cases heq
  rw [eval_bind, eval_dameNodoDe, Option.bind_some, eval_bind, eval_dameNodoDe, Option.bind_some,
    eval_bind, eval_lock, Option.bind_some, eval_bind, eval_modify, Option.bind_some, eval_bind,
    eval_unlock, Option.bind_some] at heval
  cases heval
  exact .inr ⟨hexiste, partes, hdividir, rfl⟩

/-- A removal of a directory does nothing, or erases what is below and then the node. -/
theorem oRmdir_cases {fuel : ℕ} {path : Ruta} {res : ℤ}
    (heval : (oRmdir m fuel path).eval s = some (res, s')) :
    s' = s ∨ nodoDe m s path.cola ≠ -1 ∧ ∃ t,
      (eliminarRecursivamente m fuel (nodoDe m s path.cola)).eval s = some ((), t) ∧
        s' = t.ponerEstado m (nodoDe m s path.cola - 1) borrado := by
  rw [oRmdir, eval_bind, eval_dameNodoDe, Option.bind_some] at heval
  split_ifs at heval with hresuelve
  · cases heval
    exact .inl rfl
  obtain ⟨_, t, hrec, heval⟩ := eval_bind_some heval
  cases heval
  exact .inr ⟨hresuelve, t, hrec, rfl⟩

/-- A change of size does nothing, or tries to get blocks for the file, or releases some, and
then sets the size. -/
theorem oTruncate_cases {fuel : ℕ} {path : Ruta} {n res : ℤ}
    (heval : (oTruncate m fuel path n).eval s = some (res, s')) :
    s' = s ∨ 0 ≤ n ∧ nodoDe m s path.cola ≠ -1 ∧
      ((s.tamanio m (nodoDe m s path.cola - 1) < n ∧ ∃ res' t,
          darleEspacioNuevo m fuel (nodoDe m s path.cola - 1)
              (n - s.tamanio m (nodoDe m s path.cola - 1)) s = some (res', t) ∧
            (res' ≠ 0 ∧ s' = t ∨
              res' = 0 ∧ s' = t.ponerTamanio m (nodoDe m s path.cola - 1) n)) ∨
        n ≤ s.tamanio m (nodoDe m s path.cola - 1) ∧ ∃ t,
          (eliminarNodos m fuel (nodoDe m s path.cola - 1) (settearPosicion n).1
              (settearPosicion n).2).eval s = some ((), t) ∧
            s' = t.ponerTamanio m (nodoDe m s path.cola - 1) n) := by
  rw [oTruncate] at heval
  split_ifs at heval with hneg
  · cases heval
    exact .inl rfl
  rw [eval_bind, eval_dameNodoDe, Option.bind_some] at heval
  split_ifs at heval with hresuelve
  · cases heval
    exact .inl rfl
  rw [eval_bind, eval_lock, Option.bind_some] at heval
  obtain ⟨_, t, hcambiar, heval⟩ := eval_bind_some heval
  cases heval
  refine .inr ⟨not_lt.1 hneg, hresuelve, ?_⟩
  rw [cambiarTamanio, eval_bind, eval_read, Option.bind_some] at hcambiar
  split_ifs at hcambiar with hlt
  · obtain ⟨res', u, hdarle, hcambiar⟩ := eval_bind_some hcambiar
    rw [eval_attempt] at hdarle
    refine .inl ⟨hlt, res', u, hdarle, ?_⟩
    split_ifs at hcambiar with hres
    · cases hcambiar
      exact .inl ⟨hres, rfl⟩
    · cases hcambiar
      exact .inr ⟨not_not.1 hres, rfl⟩
  · obtain ⟨_, u, hborrar, hcambiar⟩ := eval_bind_some hcambiar
    cases hcambiar
    exact .inr ⟨not_lt.1 hlt, u, hborrar, rfl⟩

/-! ## Requests that leave the bitmap -/

/-- The second state has the bitmap and the counter of the first, and the delete mode off. -/
structure MismoBitmap (m : Montaje) (s s' : Estado) : Prop where
  mem : ∀ x < m.nodo 0, s'.mem x = s.mem x
  bitmapFreeBlocks : s'.bitmapFreeBlocks = s.bitmapFreeBlocks
  delMode : s'.delMode = false

theorem MismoBitmap.refl (h : s.delMode = false) : MismoBitmap m s s := ⟨fun _ _ => rfl, rfl, h⟩

theorem MismoBitmap.trans (h : MismoBitmap m s t) (h' : MismoBitmap m t s') :
    MismoBitmap m s s' where
  mem x hx := (h'.mem x hx).trans (h.mem x hx)
  bitmapFreeBlocks := h'.bitmapFreeBlocks.trans h.bitmapFreeBlocks
  delMode := h'.delMode

/-- A write after the bitmap. -/
theorem MismoBitmap.conMem (h : MismoBitmap m s t) {mem : Mem}
    (hmem : ∀ x < m.nodo 0, mem x = t.mem x) : MismoBitmap m s (t.conMem mem) where
  mem x hx := (hmem x hx).trans (h.mem x hx)
  bitmapFreeBlocks := h.bitmapFreeBlocks
  delMode := h.delMode

theorem MismoBitmap.ponerEstado (h : MismoBitmap m s t) (hi : 0 ≤ i) (v : UInt8) :
    MismoBitmap m s (t.ponerEstado m i v) := by
  have hnodo := nodo_eq m i
  exact h.conMem fun x hx => ponerEstado_mem m t i (by rw [dirEstado]; omega)

theorem MismoBitmap.ponerTamanio (h : MismoBitmap m s t) (hi : 0 ≤ i) (v : ℤ) :
    MismoBitmap m s (t.ponerTamanio m i v) := by
  have hnodo := nodo_eq m i
  exact h.conMem fun x hx => ponerTamanio_mem m t i (by rw [dirTamanio]; omega)

/-- The bits of the disk are before the table of nodes. -/
theorem bitsLibres_congr (hm : Formateado m) (h : ∀ x < m.nodo 0, s'.mem x = s.mem x) :
    bitsLibres m s' = bitsLibres m s := by
  refine List.countP_congr fun x hx => ?_
  have hlt := List.mem_range.1 hx
  have hx' := (hm.enBitmap (x := x) (by omega) (by omega)).2
  have hcero := nodo_cero m
  rw [Estado.testBit, h _ (by omega), Estado.testBit]

theorem MismoBitmap.cuenta (hm : Formateado m) (h : MismoBitmap m s s') (hs : Cuenta m s) :
    Cuenta m s' := by
  rw [Cuenta, h.bitmapFreeBlocks, bitsLibres_congr hm h.mem]
  exact hs

/-! ## Removing -/

/-- A removal that releases nothing erases the node of the path, if it has no children. -/
theorem oUnlink_of_eval {fuel : ℕ} {path : Ruta} {res : ℤ}
    (hsin : SinPosiciones m s (nodoDe m s path.cola - 1))
    (heval : (oUnlink m fuel path).eval s = some (res, s')) :
    s' = { s with delMode := false } ∨ nodoDe m s path.cola ≠ -1 ∧
      (∀ k < cantidadNodos, s.estado m k ≠ borrado →
        s.padre m k ≠ unsigned (nodoDe m s path.cola)) ∧
      s' = ({ s with delMode := false } : Estado).ponerEstado m (nodoDe m s path.cola - 1)
        borrado := by
  obtain ⟨nodo, t, hnodo', heval⟩ := eval_bind_some heval
  rw [eval_dameNodoDe] at hnodo'
  cases hnodo'
  cases fuel with
  | zero =>
      rw [eval_bind, enableDeleteMode, eval_modify, Option.bind_some, eval_bind, eval_lock,
        Option.bind_some, eval_bind] at heval
      cases heval
  | succ fuel =>
      have hmodo : SinPosiciones m { s with delMode := true } (nodoDe m s path.cola - 1) := hsin
      have hmisma : nodoDe m { s with delMode := false } path.cola = nodoDe m s path.cola :=
        nodoDe_congr (by rfl) _
      rw [eval_bind, enableDeleteMode, eval_modify, Option.bind_some, eval_bind, eval_lock,
        Option.bind_some, eval_bind, eval_eliminarNodos_sinPosiciones hmodo fuel, Option.bind_some,
        eval_bind, eval_unlock, Option.bind_some, eval_bind, disableDeleteMode, eval_modify,
        Option.bind_some, oRmdir2, eval_bind, eval_dameNodoDe, Option.bind_some] at heval
      dsimp only at heval
      rw [hmisma] at heval
      split_ifs at heval with hresuelve
      · cases heval
        exact .inl rfl
      · simp only [eval_bind, eval_lock, eval_attempt, borrarSinHijos, eval_unlock,
          Option.bind_some, eval_pure] at heval
        split_ifs at heval with hhijos
        · cases heval
          exact .inl rfl
        · cases heval
          refine .inr ⟨hresuelve, fun k hk hvivo hpadre => hhijos ?_, rfl⟩
          rw [List.any_eq_true]
          refine ⟨k, List.mem_range.2 hk, ?_⟩
          rw [Bool.and_eq_true, bne_iff_ne, beq_iff_eq]
          exact ⟨hvivo, hpadre⟩

theorem mismoBitmap_oUnlink {fuel : ℕ} {path : Ruta} {res : ℤ}
    (hnodo : nodoDe m s path.cola ≠ 0) (h : SinPosiciones m s (nodoDe m s path.cola - 1))
    (heval : (oUnlink m fuel path).eval s = some (res, s')) : MismoBitmap m s s' := by
  have hmismo : MismoBitmap m s { s with delMode := false } := ⟨fun _ _ => rfl, rfl, rfl⟩
  rcases oUnlink_of_eval h heval with rfl | ⟨hresuelve, -, rfl⟩
  · exact hmismo
  · have hpos := (nodoDe_bounds m s hresuelve).1
    exact hmismo.ponerEstado (by omega) borrado

theorem Borrando.mismoBitmap {q : ℤ} (h : Borrando m q s t) (hmodo : s.delMode = false) :
    MismoBitmap m s t where
  mem _ hx := h.solo.fuera (fun _ hk => Debajo.lt hk) (.inl hx)
  bitmapFreeBlocks := h.bitmapFreeBlocks
  delMode := h.delMode hmodo

/-- A recursive removal that releases nothing. -/
theorem mismoBitmap_oRmdir {fuel : ℕ} {path : Ruta} {res : ℤ} (hmodo : s.delMode = false)
    (h : nodoDe m s path.cola = -1 ∨ 0 < nodoDe m s path.cola ∧
      ∀ k ∈ ArchivosDebajo m s (nodoDe m s path.cola), SinPosiciones m s ((k : ℤ) - 1))
    (heval : (oRmdir m fuel path).eval s = some (res, s')) : MismoBitmap m s s' := by
  obtain rfl | ⟨hresuelve, t, hrec, rfl⟩ := oRmdir_cases heval
  · exact .refl hmodo
  obtain ⟨hpos, hvacios⟩ := h.resolve_left hresuelve
  obtain ⟨ht, -⟩ := Borrando.eliminarRecursivamente hvacios fuel (nodoDe m s path.cola) s t
    hpos.le (nodoDe_bounds m s hresuelve).2 (fun _ hk => .hijo hk) (.refl _ s) hrec
  exact (ht.mismoBitmap hmodo).ponerEstado (by omega) borrado

/-! ## Writing -/

/-- The loop of `o_write` ends without a new block: each piece goes to a data block that the file
has, until nothing is left or a new block is needed and the counter is 0. -/
inductive EnSusBloques (m : Montaje) (i : ℤ) : Escritura → Estado → Prop
  | fin {e : Escritura} {s : Estado} : e.tamanio = 0 → EnSusBloques m i e s
  | llena {e : Escritura} {s : Estado} : PideBloque e → s.bitmapFreeBlocks = 0 →
      EnSusBloques m i e s
  | pieza {e : Escritura} {s : Estado} : ¬ PideBloque e →
      m.bloque m.base ≤ bloqueEscrito m s i e.off →
      EnSusBloques m i
        (volcar m i (espacioEnUltimo e.tamanioArchivo) (bloqueEscrito m s i e.off) e s).1
        (volcar m i (espacioEnUltimo e.tamanioArchivo) (bloqueEscrito m s i e.off) e s).2 →
      EnSusBloques m i e s

/-- The bytes of a piece and the size of the file are after the bitmap. -/
theorem MismoBitmap.volcar (h : MismoBitmap m s t) (hi : 0 ≤ i) {e : Escritura}
    (hoffset : 0 ≤ e.offsetEnBloque) (espacio : ℤ) {a : ℤ} (ha : m.bloque m.base ≤ a) :
    MismoBitmap m s (volcar m i espacio a e t).2 ∧
      0 ≤ (volcar m i espacio a e t).1.offsetEnBloque := by
  have hbase := bloque_base m
  have hpieza : ∀ (r : ℤ) (l : List UInt8), 0 ≤ r →
      MismoBitmap m s (t.conMem (store t.mem (a + r) l)) :=
    fun r l hr => h.conMem fun x hx => store_of_disjoint (.inl (by omega))
  have hentero := hpieza 0 (e.buf.take 4096) le_rfl
  rw [add_zero] at hentero
  rw [Sac.volcar]
  dsimp only
  split_ifs
  · exact ⟨hentero.ponerTamanio hi _, le_rfl⟩
  · exact ⟨hentero, le_rfl⟩
  · exact ⟨(hpieza _ _ hoffset).ponerTamanio hi _, hoffset⟩
  · exact ⟨(hpieza _ _ hoffset).ponerTamanio hi _, hoffset⟩
  · exact ⟨hpieza _ _ hoffset, hoffset⟩
  · exact ⟨(hpieza _ _ hoffset).ponerTamanio hi _, le_rfl⟩

theorem MismoBitmap.bucleWrite {ahora : ℕ} {size res : ℤ} {e : Escritura} (hi : 0 ≤ i)
    (h : EnSusBloques m i e t) (hs : MismoBitmap m s t) (hoffset : 0 ≤ e.offsetEnBloque) (n : ℕ)
    (heval : bucleWrite m ahora i size n e t = some (res, s')) : MismoBitmap m s s' := by
  have hnodo := nodo_eq m i
  have hfin : ∀ t : Estado, MismoBitmap m s t →
      MismoBitmap m s (t.ponerModificacion m i ahora) := fun t ht =>
    ht.conMem fun x hx => ponerModificacion_mem m t i (by rw [dirModificacion]; omega)
  induction h generalizing n with
  | @fin e t htamanio =>
      cases n with
      | zero => cases heval
      | succ n =>
          rw [Sac.bucleWrite, if_pos htamanio] at heval
          cases heval
          exact hfin t hs
  | @llena e t hpide hcero =>
      cases n with
      | zero => cases heval
      | succ n =>
          rw [Sac.bucleWrite] at heval
          rcases eq_or_ne e.tamanio 0 with htamanio | htamanio
          · rw [if_pos htamanio] at heval
            cases heval
            exact hfin t hs
          · rw [if_neg htamanio] at heval
            replace heval := (if_pos hpide).symm.trans heval
            replace heval := (if_pos hcero).symm.trans heval
            cases heval
            exact hs
  | @pieza e t hpide hbloque _ ih =>
      cases n with
      | zero => cases heval
      | succ n =>
          rw [Sac.bucleWrite] at heval
          rcases eq_or_ne e.tamanio 0 with htamanio | htamanio
          · rw [if_pos htamanio] at heval
            cases heval
            exact hfin t hs
          · rw [if_neg htamanio] at heval
            replace heval := (if_neg hpide).symm.trans heval
            obtain ⟨hvolcado, hoffset'⟩ :=
              hs.volcar hi hoffset (espacioEnUltimo e.tamanioArchivo) hbloque
            exact ih hvolcado hoffset' n heval

theorem mismoBitmap_oWrite {fuel ahora : ℕ} {path : Ruta} {offset res : ℤ} {buf : List UInt8}
    (hmodo : s.delMode = false) (hnodo : 0 < nodoDe m s path.cola) (hoffset : 0 ≤ offset)
    (h : EnSusBloques m (nodoDe m s path.cola - 1)
      ⟨buf.length, s.tamanio m (nodoDe m s path.cola - 1), offset, offset.tmod 4096, buf⟩ s)
    (heval : (oWrite m fuel ahora path offset buf).eval s = some (res, s')) :
    MismoBitmap m s s' := by
  rw [oWrite, eval_bind, eval_dameNodoDe, Option.bind_some] at heval
  dsimp only at heval
  rw [eval_bind, eval_read, Option.bind_some, eval_bind, eval_lock, Option.bind_some] at heval
  obtain ⟨_, t, hbucle, heval⟩ := eval_bind_some heval
  cases heval
  rw [eval_attempt] at hbucle
  exact MismoBitmap.bucleWrite (by omega) h (.refl hmodo) (Int.tmod_nonneg 4096 hoffset) fuel hbucle

/-! ## Creating -/

/-- A creation that gives up before it takes a block. -/
def NoCrea (m : Montaje) (s : Estado) (path : Ruta) : Prop :=
  nodoDe m s path.cola ≠ -1 ∨ SinDirectorio m s path ∨ nodoLibre m s = none

theorem eq_of_oCreate {ahora : ℕ} {path : Ruta} {res : ℤ} (h : NoCrea m s path)
    (heval : (oCreate m ahora path).eval s = some (res, s')) : s' = s := by
  obtain rfl | ⟨hnodo, partes, hpartes, hmadre, hcrear⟩ := oNuevo_cases heval
  · rfl
  rcases h with hexiste | ⟨partes', hpartes', hfalta⟩ | hlleno
  · exact absurd hnodo hexiste
  · rw [hpartes, Option.some.injEq] at hpartes'
    exact absurd (hpartes' ▸ hfalta) hmadre
  · rw [crearArchivo, hlleno] at hcrear
    cases hcrear
    rfl

theorem bitsLibres_setBit {b : ℤ} (hb : 0 ≤ b) (hlt : b < m.bloques)
    (hlibre : s.testBit m b = false) : bitsLibres m (s.setBit m b) + 1 = bitsLibres m s := by
  have hotro : ∀ x : ℕ, x ≠ b.toNat → (!s.testBit m x) = !(s.setBit m b).testBit m x := by
    intro x hx
    rw [testBit_setBit, decide_eq_false (by omega), Bool.false_or]
  rw [bitsLibres, bitsLibres, countP_range_flip (b := b.toNat) ?_ ?_ hotro, if_pos (by omega)]
  · rw [Int.toNat_of_nonneg hb, testBit_setBit, decide_eq_true rfl]
    rfl
  · rw [Int.toNat_of_nonneg hb, hlibre]
    rfl

/-- A new file takes two blocks, and the counter stays. -/
theorem bitsLibres_crearArchivo (hm : Formateado m) {k : ℕ} (hk : nodoLibre m s = some k)
    (hlibres : DosLibres m s) (nombre : List UInt8) (padre : ℤ) (ahora : ℕ) :
    ∃ s', crearArchivo m ahora nombre padre s = some (0, s') ∧
      bitsLibres m s' + 2 = bitsLibres m s ∧ s'.bitmapFreeBlocks = s.bitmapFreeBlocks := by
  obtain ⟨d, e, ⟨hdbase, hdlt, hdbit, hdlibre⟩, ⟨hebase, helt, hebit, helibre⟩, hne, hcrear⟩ :=
    crearArchivo_eq hk hlibres nombre padre ahora
  have hpos := base_nonneg m
  generalize ht : conFechas m k ahora (nodoNuevo m k ocupado nombre padre s) = t at hcrear
  have hbits : ∀ x : ℤ, x / 8 < 4096 * m.tamanioBitmap → t.testBit m x = s.testBit m x := by
    intro x hx
    rw [← ht, testBit_conFechas nombre padre ahora hx]
  have hinicio : bitsLibres m t = bitsLibres m s := by
    refine List.countP_congr fun x hx => ?_
    have hlt := List.mem_range.1 hx
    rw [hbits x (hm.enBitmap (by omega) (by omega)).2]
  have hprimero := bitsLibres_setBit (s := t) (by omega) hdlt ((hbits d hdbit).trans hdlibre)
  have hsegundo := bitsLibres_setBit (s := t.setBit m d) (b := e) (by omega) helt
    (by rw [testBit_setBit, decide_eq_false hne, hbits e hebit, helibre]; rfl)
  have hfinal : bitsLibres m (conBloques m k d e t) =
      bitsLibres m ((t.setBit m d).setBit m e) := by
    refine bitsLibres_congr hm fun x hx => ?_
    have hbase := bloque_base m
    have hbloque := bloque_eq m d
    have hbloque' := bloque_eq m e
    have hcabecera := headerStart_eq m e
    have hnodo := nodo_eq m k
    rw [conBloques, conMem_fill_mem _ (by omega), conPunteros, ponerPuntero_mem _ _ (by omega),
      ponerIndirecto_mem _ _ _ (by rw [dirIndirecto]; omega),
      ponerIndirecto_mem _ _ _ (by rw [dirIndirecto]; omega), conMem_fill_mem _ (by omega)]
  refine ⟨_, hcrear, by omega, ?_⟩
  rw [← ht]
  rfl

/-- A creation that succeeds leaves the counter wrong. -/
theorem not_cuenta_of_creable (hm : Formateado m) (hs : Cuenta m s) (hlibres : DosLibres m s)
    {path : Ruta} (h : Creable m s path) (ahora : ℕ) :
    ∃ s', (oCreate m ahora path).eval s = some (0, s') ∧ ¬ Cuenta m s' := by
  obtain ⟨hexiste, ⟨partes, hpartes, hresuelve⟩, hlugar⟩ := h
  have hpos := (nodoDe_bounds m s hresuelve).1
  obtain ⟨k, hk⟩ : ∃ k, nodoLibre m s = some k :=
    Option.ne_none_iff_exists'.1 fun hno => nodoLibre_eq_none hno hlugar
  obtain ⟨s', hcrear, hbits, hcuenta⟩ :=
    bitsLibres_crearArchivo hm hk hlibres partes.2 (nodoDe m s partes.1) ahora
  refine ⟨s', ?_, fun hmal => ?_⟩
  · simp [oCreate, oNuevo, hexiste, hpartes, not_lt.2 hpos, hcrear]
  · rw [Cuenta] at hs hmal
    omega

/-! ## Changing a size -/

/-- The file grows inside its last block, or there is no room for it. -/
def CreceEnSuBloque (m : Montaje) (s : Estado) (i n : ℤ) : Prop :=
  unsigned (s.bitmapFreeBlocks * 4096) <
      unsigned (n - s.tamanio m i - (4096 - s.tamanio m i % 4096)) ∨
    unsigned (n - s.tamanio m i) ≤ 4096 - s.tamanio m i % 4096

/-- The file has nothing to release, or its last position is in the pointer block of the new size,
not before it, and the positions between them hold different blocks of the disk in use. -/
def SueltaDatos (m : Montaje) (s : Estado) (i n : ℤ) : Prop :=
  SinPosiciones m s i ∨
    (ultimaPosicion (s.tamanio m i)).1 = (settearPosicion n).1 ∧
      (settearPosicion n).2 ≤ (ultimaPosicion (s.tamanio m i)).2 ∧
      EntradasEnUso m s (s.indirecto m i (settearPosicion n).1) (settearPosicion n).2
        (ultimaPosicion (s.tamanio m i)).2

/-- A truncation that takes no block, and releases nothing but data blocks. -/
def TruncaSinBloques (m : Montaje) (s : Estado) (path : Ruta) (n : ℤ) : Prop :=
  n < 0 ∨ nodoDe m s path.cola = -1 ∨ 0 < nodoDe m s path.cola ∧
    (s.tamanio m (nodoDe m s path.cola - 1) < n →
      CreceEnSuBloque m s (nodoDe m s path.cola - 1) n) ∧
    (n ≤ s.tamanio m (nodoDe m s path.cola - 1) → SueltaDatos m s (nodoDe m s path.cola - 1) n)

theorem mismoBitmap_darleEspacioNuevo {fuel : ℕ} {n res : ℤ} (hmodo : s.delMode = false)
    (hi : 0 ≤ i) (h : CreceEnSuBloque m s i n)
    (heval : darleEspacioNuevo m fuel i (n - s.tamanio m i) s = some (res, s')) :
    MismoBitmap m s s' := by
  rw [darleEspacioNuevo] at heval
  split_ifs at heval with hlleno hcabe
  · cases heval
    exact .refl hmodo
  · cases heval
    exact (MismoBitmap.refl hmodo).ponerTamanio hi _
  · exact absurd (h.resolve_left hlleno) hcabe

/-- A release inside one pointer block keeps the counter right. -/
theorem Cuenta.eliminarNodos (hm : Formateado m) {fuel : ℕ} {n : ℤ} (hs : Cuenta m s)
    (hmodo : s.delMode = false) (h : SueltaDatos m s i n)
    (heval : (Sac.eliminarNodos m fuel i (settearPosicion n).1 (settearPosicion n).2).eval s =
      some ((), s')) : Cuenta m s' ∧ s'.delMode = false := by
  generalize hpointer : (settearPosicion n).1 = pointer at *
  generalize hdata : (settearPosicion n).2 = data at *
  have hunico : ∀ (l : ℕ) (t : Estado),
      (Sac.eliminarNodos m l i pointer data).eval s = some ((), t) → s' = t := by
    intro l t ht
    have heq := eval_unique (extends_eliminarNodos i pointer data) heval ht
    rw [Prod.mk.injEq] at heq
    exact heq.2
  by_cases hsin : SinPosiciones m s i
  · have hnada := eval_borrarPunteros_fuera (m := m) (i := i) pointer data _ _ hsin 0 s
    rw [← eval_eliminarNodos_apagado hmodo] at hnada
    rw [hunico _ s hnada]
    exact ⟨hs, hmodo⟩
  · rw [SueltaDatos, hpointer, hdata] at h
    obtain ⟨hmisma, hle, hentradas⟩ := h.resolve_left hsin
    rw [SinPosiciones, not_or, not_lt, not_lt] at hsin
    generalize hx : (ultimaPosicion (s.tamanio m i)).2 = x at *
    have hlimpio := eval_borrarPunteros_ultimo (m := m) (i := i) data pointer x hmodo
      (by rw [← hmisma]; exact hsin.2) hsin.1 hle (n := x.toNat + 1) (by omega)
      hentradas.hasta_nonneg
    have hposicion : (Sac.eliminarNodos m (x.toNat + 1 + 1) i pointer data).eval s = _ :=
      eval_eliminarNodos_apagado hmodo _
    rw [hmisma, hx, hlimpio] at hposicion
    rw [hunico _ _ hposicion, limpiar_delMode]
    have hk : data + ((x - data).toNat : ℕ) = x := by omega
    exact ⟨hs.limpiar hm _ s (by rw [hk]; exact hentradas), hmodo⟩

theorem cuenta_oTruncate (hm : Formateado m) {fuel : ℕ} {path : Ruta} {n res : ℤ}
    (hs : Cuenta m s) (hmodo : s.delMode = false)
    (h : TruncaSinBloques m s path n)
    (heval : (oTruncate m fuel path n).eval s = some (res, s')) :
    Cuenta m s' ∧ s'.delMode = false := by
  obtain rfl | ⟨hn, hresuelve, hcambia⟩ := oTruncate_cases heval
  · exact ⟨hs, hmodo⟩
  obtain ⟨hpos, hcrece, hsuelta⟩ := (h.resolve_left (not_lt.2 hn)).resolve_left hresuelve
  generalize hi : nodoDe m s path.cola - 1 = i at *
  rcases hcambia with ⟨hlt, res', u, hdarle, hfin⟩ | ⟨hle, u, hborrar, rfl⟩
  · have hu := mismoBitmap_darleEspacioNuevo hmodo (by omega) (hcrece hlt) hdarle
    rcases hfin with ⟨-, rfl⟩ | ⟨-, rfl⟩
    · exact ⟨hu.cuenta hm hs, hu.delMode⟩
    · have hu' := hu.ponerTamanio (i := i) (by omega) n
      exact ⟨hu'.cuenta hm hs, hu'.delMode⟩
  · obtain ⟨hu, hmodo'⟩ := hs.eliminarNodos hm hmodo (hsuelta hle) hborrar
    have hu' := (MismoBitmap.refl (m := m) hmodo').ponerTamanio (i := i) (by omega) n
    exact ⟨hu'.cuenta hm hu, hu'.delMode⟩

/-! ## Runs -/

/-- A request that is served to its end. -/
def Atiende (m : Montaje) (basura : ℕ → UInt8) (s : Estado) (p : Peticion) (s' : Estado) : Prop :=
  ∃ fuel producto, (p.codigo m basura fuel).eval s = some (producto, s')

/-- What a request leaves. -/
def Peticion.tras (p : Peticion) (s : Estado) : Estado :=
  (eval (p.codigo montajeChico (fun _ => 0) 3) s).elim s Prod.snd

theorem atiende_tras {p : Peticion}
    (h : (eval (p.codigo montajeChico (fun _ => 0) 3) s).isSome = true) :
    Atiende montajeChico (fun _ => 0) s p (p.tras s) := by
  obtain ⟨⟨producto, s'⟩, heval⟩ := Option.isSome_iff_exists.1 h
  refine ⟨3, producto, ?_⟩
  rw [Peticion.tras, heval]
  rfl

/-- The requests that change the size of a file or remove something. -/
def Peticion.DeBloques : Peticion → Prop
  | create _ _ => True
  | write _ _ _ _ => True
  | truncate _ _ => True
  | unlink _ => True
  | rmdir _ => True
  | _ => False

/-- The request takes no block, and releases nothing but data blocks inside one pointer block. -/
def Peticion.SoloDatos (m : Montaje) (s : Estado) : Peticion → Prop
  | create _ path => NoCrea m s path
  | write _ path offset buf => 0 < nodoDe m s path.cola ∧ 0 ≤ offset ∧
      EnSusBloques m (nodoDe m s path.cola - 1)
        ⟨buf.length, s.tamanio m (nodoDe m s path.cola - 1), offset, offset.tmod 4096, buf⟩ s
  | truncate path n => TruncaSinBloques m s path n
  | unlink path => nodoDe m s path.cola ≠ 0 ∧ SinPosiciones m s (nodoDe m s path.cola - 1)
  | rmdir path => nodoDe m s path.cola = -1 ∨ 0 < nodoDe m s path.cola ∧
      ∀ k ∈ ArchivosDebajo m s (nodoDe m s path.cola), SinPosiciones m s ((k : ℤ) - 1)
  | _ => False

/-- Such a request keeps the counter right and the delete mode off. -/
theorem cuenta_of_atiende (hm : Formateado m) {basura : ℕ → UInt8} {p : Peticion}
    (hs : Cuenta m s) (hmodo : s.delMode = false) (hp : p.SoloDatos m s)
    (h : Atiende m basura s p s') : Cuenta m s' ∧ s'.delMode = false := by
  obtain ⟨fuel, producto, heval⟩ := h
  have hmismo : MismoBitmap m s s' → Cuenta m s' ∧ s'.delMode = false :=
    fun h => ⟨h.cuenta hm hs, h.delMode⟩
  cases p with
  | create ahora path =>
      obtain ⟨res, t, hcrear, heval⟩ := eval_bind_some heval
      cases heval
      rw [eq_of_oCreate hp hcrear]
      exact ⟨hs, hmodo⟩
  | write ahora path offset buf =>
      obtain ⟨res, t, hescribir, heval⟩ := eval_bind_some heval
      cases heval
      obtain ⟨hnodo, hoffset, hp⟩ := hp
      exact hmismo (mismoBitmap_oWrite hmodo hnodo hoffset hp hescribir)
  | truncate path n =>
      obtain ⟨res, t, htruncar, heval⟩ := eval_bind_some heval
      cases heval
      exact cuenta_oTruncate hm hs hmodo hp htruncar
  | unlink path =>
      obtain ⟨res, t, hborrar, heval⟩ := eval_bind_some heval
      cases heval
      exact hmismo (mismoBitmap_oUnlink hp.1 hp.2 hborrar)
  | rmdir path =>
      obtain ⟨res, t, hborrar, heval⟩ := eval_bind_some heval
      cases heval
      exact hmismo (mismoBitmap_oRmdir hmodo hp hborrar)
  | read path size offset => exact hp.elim
  | readDir path => exact hp.elim
  | getAttr ahora path => exact hp.elim
  | mkdir path => exact hp.elim
  | rename pathAntiguo nuevoPath => exact hp.elim

/-- From start-up on, while the requests take no block and release only data blocks inside one
pointer block, the counter is the number of clear bits of the disk. -/
theorem cuenta_of_run (m : Montaje) (hm : Formateado m) (basura : ℕ → UInt8) (s : Estado)
    (hmodo : s.delMode = false) {tr : List (Step Estado Peticion)}
    (hrun : Run (Atiende m basura) (obtenerBloquesLibres m s).2 tr s')
    (h : ∀ x ∈ tr, x.label.SoloDatos m x.pre) : Cuenta m s' := by
  have hinv := hrun.invariant (fun s => Cuenta m s ∧ s.delMode = false)
    (fun x : Step Estado Peticion => x.label.SoloDatos m x.pre) ⟨cuenta_inicio m s, hmodo⟩
    (fun s e s' hs hcond hstep => cuenta_of_atiende hm hs.1 hs.2 hcond hstep) h
  exact hinv.1

/-- `/a` has 10000 bytes, and a pointer block with the data blocks 1026, 1028, 1029 and 1030. -/
def cuatroBloques : Estado :=
  let s := ((unArchivo 10000).setBit montajeChico 1028).setBit montajeChico 1029
  let s := (s.setBit montajeChico 1030).ponerPuntero montajeChico 1027 1 1028
  (s.ponerPuntero montajeChico 1027 2 1029).ponerPuntero montajeChico 1027 3 1030

/-- The disk with this file at start-up. -/
def discoConCuatro : Estado := (obtenerBloquesLibres montajeChico cuatroBloques).2

/-- The truncation of `/a` to 5000 bytes, and then to 50. -/
def cortarA : Peticion := .truncate rutaA 5000
def cortarMasA : Peticion := .truncate rutaA 50

def discoConDosBloques : Estado := cortarA.tras discoConCuatro
def discoConUnBloque : Estado := cortarMasA.tras discoConDosBloques

/-- A truncation of the file of node 0 that goes through some entries of one pointer block. -/
theorem truncaSinBloques_cero {n tamanio p hasta x : ℤ} (hnodo : nodoDe m s rutaA.cola = 1)
    (htamanio : s.tamanio m 0 = tamanio) (hn : n ≤ tamanio)
    (hultima : ultimaPosicion tamanio = (p, x)) (hnueva : settearPosicion n = (p, hasta))
    (hle : hasta ≤ x) (h : EntradasEnUso m s (s.indirecto m 0 p) hasta x) :
    TruncaSinBloques m s rutaA n := by
  refine .inr (.inr ?_)
  rw [hnodo, sub_self]
  refine ⟨one_pos, fun hlt => absurd hlt (not_lt.2 (htamanio ▸ hn)), fun _ => .inr ?_⟩
  rw [htamanio, hultima, hnueva]
  exact ⟨rfl, hle, h⟩

theorem soloDatos_cortarA : cortarA.SoloDatos montajeChico discoConCuatro :=
  truncaSinBloques_cero (p := 0) (x := 2) (by decide +kernel)
    (show discoConCuatro.tamanio montajeChico 0 = 10000 by decide +kernel) (by decide) (by decide)
    (show settearPosicion 5000 = (0, 1) by decide) (by decide)
    (.of_nodup (by decide +kernel) (by decide) (by decide +kernel) (by decide +kernel))

theorem soloDatos_cortarMasA : cortarMasA.SoloDatos montajeChico discoConDosBloques :=
  truncaSinBloques_cero (p := 0) (x := 1) (by decide +kernel)
    (show discoConDosBloques.tamanio montajeChico 0 = 5000 by decide +kernel) (by decide)
    (by decide) (show settearPosicion 50 = (0, 0) by decide) (by decide)
    (.of_nodup (by decide +kernel) (by decide) (by decide +kernel) (by decide +kernel))

theorem completa_cortes :
    (eval (cortarA.codigo montajeChico (fun _ => 0) 3) discoConCuatro).isSome = true ∧
      (eval (cortarMasA.codigo montajeChico (fun _ => 0) 3) discoConDosBloques).isSome = true := by
  decide +kernel

def cortes : List (Step Estado Peticion) :=
  [⟨discoConCuatro, cortarA, discoConDosBloques⟩,
    ⟨discoConDosBloques, cortarMasA, discoConUnBloque⟩]

theorem run_cortes :
    Run (Atiende montajeChico fun _ => 0) discoConCuatro cortes discoConUnBloque :=
  (Run.nil.snoc (atiende_tras completa_cortes.1)).snoc (atiende_tras completa_cortes.2)

theorem soloDatos_cortes : ∀ x ∈ cortes, x.label.SoloDatos montajeChico x.pre := by
  rw [cortes]
  simp only [List.forall_mem_cons, List.not_mem_nil, false_imp_iff, implies_true, and_true]
  exact ⟨soloDatos_cortarA, soloDatos_cortarMasA⟩

/-- Two data blocks are released, and counted: those of the entries after the ones that the file
does not need any more. -/
theorem cuenta_of_run_cortes : Cuenta montajeChico discoConUnBloque ∧
    (discoConCuatro.testBit montajeChico 1029 = true ∧
      discoConCuatro.testBit montajeChico 1030 = true) ∧
    discoConUnBloque.testBit montajeChico 1029 = false ∧
    discoConUnBloque.testBit montajeChico 1030 = false := by
  refine ⟨cuenta_of_run montajeChico formateado_montajeChico (fun _ => 0) cuatroBloques rfl
    run_cortes soloDatos_cortes, ?_⟩
  decide +kernel

/-- A formatted disk without files: the bits of the header, the bitmap and the nodes are set. -/
def discoFormateado : Estado :=
  ⟨store (fill (fun _ => 0) bitmapStart 128 255) (bitmapStart + 128) [3], 0, false⟩

/-- The creation of `/a`. -/
def crearA : Peticion := .create 0 rutaA

theorem estado_discoFormateado (k : ℕ) : discoFormateado.estado montajeChico k = borrado := by
  have hnodo : montajeChico.nodo k = bitmapStart + 4100 + 4096 * k := by
    rw [nodo_eq, nodo_cero]
    rfl
  rw [Estado.estado, dirEstado, discoFormateado]
  dsimp only
  rw [store_of_disjoint (.inr (by rw [List.length_singleton]; omega)),
    fill_of_disjoint (.inr (by omega))]
  rfl

/-- In an empty table nothing resolves but the root. -/
theorem creable_vacia (h : ∀ k : ℕ, s.estado montajeChico k = borrado) :
    Creable montajeChico s rutaA := by
  refine ⟨?_, ⟨([], [97]), rfl, by rw [nodoDe_nil]; decide⟩, 0, by decide, h 0⟩
  have hpartes : dividirRuta rutaA.cola = some ([], [97]) := rfl
  rw [nodoDe_eq _ _ hpartes]
  refine (buscarNodo_eq_neg_one_or montajeChico s _ _).resolve_right ?_
  rintro ⟨k, _, _, hcoincide⟩
  rw [coincide, h, bne_self_eq_false, Bool.and_false] at hcoincide
  cases hcoincide

/-- The creation of `/a` on an empty disk takes a data block and a pointer block. -/
theorem not_cuenta_of_run :
    ¬ ∀ (m : Montaje), Formateado m → ∀ (basura : ℕ → UInt8) (s : Estado), s.delMode = false →
      ∀ (tr : List (Step Estado Peticion)) (s' : Estado),
        Run (Atiende m basura) (obtenerBloquesLibres m s).2 tr s' →
          (∀ x ∈ tr, x.label.DeBloques) → Cuenta m s' := by
  intro hclaim
  have hlibres : DosLibres montajeChico (obtenerBloquesLibres montajeChico discoFormateado).2 :=
    ⟨1026, 1027, by decide +kernel⟩
  have hcreable :
      Creable montajeChico (obtenerBloquesLibres montajeChico discoFormateado).2 rutaA :=
    creable_vacia fun k => (estado_inicio _ _ k).trans (estado_discoFormateado k)
  obtain ⟨s', heval, hmal⟩ := not_cuenta_of_creable formateado_montajeChico
    (cuenta_inicio montajeChico discoFormateado) hlibres hcreable 0
  have hatiende : Atiende montajeChico (fun _ => 0)
      (obtenerBloquesLibres montajeChico discoFormateado).2 crearA s' :=
    ⟨0, .resultado 0, by rw [crearA, Peticion.codigo, eval_bind, heval]; rfl⟩
  refine hmal (hclaim montajeChico formateado_montajeChico (fun _ => 0) discoFormateado rfl _ s'
    (.snoc .nil hatiende) fun x hx => ?_)
  rw [List.nil_append, List.mem_singleton] at hx
  subst hx
  exact trivial

end Sac
