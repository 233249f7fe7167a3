import Mathlib.Data.Finset.Lattice.Fold
import Mathlib.Data.Finset.Range
import Linuse.Sac.Altas
import Linuse.Sac.Recorte

/-!
# What is below a directory

`eliminarRecursivamente` goes down from a directory over the table of nodes and erases what
it finds. For a regular file it releases the blocks of the node before it in the table. A
removal therefore leaves every block alone when the nodes before those files are empty, and
releases what it should exactly when there are no files.
-/

namespace Sac

open Memory Locks Locks.Code

variable {m : Montaje} {s t : Estado} {i : ℕ} {q : ℤ}

/-- Node `i` is in use and its father is number `q`. -/
def Cuelga (m : Montaje) (s : Estado) (q : ℤ) (i : ℕ) : Prop :=
  i < cantidadNodos ∧ s.estado m i ≠ borrado ∧ s.padre m i = q

/-- The nodes below number `q`, through directories. -/
inductive Debajo (m : Montaje) (s : Estado) (q : ℤ) : ℕ → Prop
  | hijo {i : ℕ} : Cuelga m s q i → Debajo m s q i
  | nieto {j i : ℕ} : Debajo m s q j → s.estado m j = directorio → Cuelga m s (j + 1) i →
      Debajo m s q i

/-- What has something below it has a child. -/
theorem Debajo.exists_cuelga {m : Montaje} {s : Estado} {q : ℤ} {i : ℕ} (h : Debajo m s q i) :
    ∃ k, Cuelga m s q k := by
  induction h with
  | hijo hcuelga => exact ⟨_, hcuelga⟩
  | nieto _ _ _ ih => exact ih

/-- The regular files below number `q`. -/
def ArchivosDebajo (m : Montaje) (s : Estado) (q : ℤ) : Set ℕ :=
  {i | Debajo m s q i ∧ s.estado m i = ocupado}

/-- The data and pointer blocks of the file at node `i`. -/
def BloquesDe (m : Montaje) (s : Estado) (i : ℤ) : Set ℤ :=
  {b | ∃ j < bloquesDe (s.tamanio m i), s.dato m i j = b ∨ s.indirecto m i (j / 1024 : ℕ) = b}

/-- The files have their blocks, each its own, and fathers come before their children in
some order. -/
structure SistemaValido (m : Montaje) (s : Estado) : Prop where
  mapas : ∀ i : ℕ, i < cantidadNodos → s.estado m i = ocupado →
    MapaCompleto m s i (bloquesDe (s.tamanio m i))
  ajenos : ∀ i < cantidadNodos, ∀ j < cantidadNodos, s.estado m i = ocupado →
    s.estado m j = ocupado → i ≠ j → ∀ b ∈ BloquesDe m s i, b ∉ BloquesDe m s j
  arbol : ∃ rango : ℕ → ℕ, ∀ i j : ℕ, Cuelga m s (j + 1) i → rango j < rango i

/-- The removal of the directory with number `q` has released exactly the blocks of the
regular files below it, and every other file has its node, its map and its bytes. -/
structure Podado (m : Montaje) (q : ℤ) (s s' : Estado) : Prop where
  bits : ∀ b, EnBitmap m b → (s'.testBit m b = true ↔
    s.testBit m b = true ∧ ∀ i ∈ ArchivosDebajo m s q, b ∉ BloquesDe m s i)
  archivos : ∀ i : ℕ, i < cantidadNodos → s.estado m i = ocupado → ¬ Debajo m s q i →
    s'.tamanio m i = s.tamanio m i ∧
      (∀ j < bloquesDe (s.tamanio m i), s'.indirecto m i (j / 1024 : ℕ) =
        s.indirecto m i (j / 1024 : ℕ) ∧ s'.dato m i j = s.dato m i j) ∧
      s'.contenido m i 0 (s.tamanio m i).toNat = s.contenido m i 0 (s.tamanio m i).toNat

/-- `o_rmdir` ends and removes the directory of the path. -/
def PodaBien (m : Montaje) (path : Ruta) (s : Estado) : Prop :=
  ∃ fuel s', (oRmdir m fuel path).eval s = some (0, s') ∧
    Podado m (nodoDe m s path.cola) s s'

/-! ## Erasing nodes -/

/-- The memories differ in nodes of the set only, which the second shows erased. -/
def BorraSolo (m : Montaje) (D : Set ℕ) (s t : Estado) : Prop :=
  ∀ x, t.mem x = s.mem x ∨ ∃ i ∈ D, x = dirEstado m i ∧ t.mem x = borrado

theorem BorraSolo.refl (D : Set ℕ) (s : Estado) : BorraSolo m D s s := fun _ => .inl rfl

theorem BorraSolo.ponerEstado {D : Set ℕ} (h : BorraSolo m D s t) (hi : i ∈ D) :
    BorraSolo m D s (t.ponerEstado m i borrado) := by
  intro x
  rcases eq_or_ne x (dirEstado m i) with rfl | hne
  · exact .inr ⟨i, hi, rfl, estado_ponerEstado m t i borrado⟩
  · rw [ponerEstado_mem m t i hne]
    exact h x

theorem BorraSolo.mono {D D' : Set ℕ} (h : BorraSolo m D s t) (hD : D ⊆ D') :
    BorraSolo m D' s t := by
  intro x
  refine (h x).imp_right fun hx => ?_
  obtain ⟨i, hi, hx⟩ := hx
  exact ⟨i, hD hi, hx⟩

theorem BorraSolo.mem_eq {D : Set ℕ} (h : BorraSolo m D s t) {x : ℤ}
    (hx : ∀ j : ℕ, x ≠ dirEstado m j) : t.mem x = s.mem x :=
  (h x).resolve_right (by rintro ⟨j, -, heq, -⟩; exact hx j heq)

/-- The state of a node is at a whole number of blocks from the beginning of the table. -/
theorem dirEstado_ne {x : ℤ} (h : (x - m.nodo 0) % 4096 ≠ 0) (j : ℕ) : x ≠ dirEstado m j := by
  rintro rfl
  have hnodo := nodo_eq m j
  rw [dirEstado, hnodo] at h
  omega

theorem BorraSolo.tamanio {D : Set ℕ} (h : BorraSolo m D s t) (i : ℤ) :
    t.tamanio m i = s.tamanio m i := by
  have hnodo := nodo_eq m i
  exact load32_congr fun y hy => h.mem_eq (dirEstado_ne (by rw [dirTamanio]; omega))

theorem BorraSolo.padre {D : Set ℕ} (h : BorraSolo m D s t) (i : ℤ) :
    t.padre m i = s.padre m i := by
  have hnodo := nodo_eq m i
  exact load32_congr fun y hy => h.mem_eq (dirEstado_ne (by rw [dirPadre]; omega))

theorem BorraSolo.indirecto {D : Set ℕ} (h : BorraSolo m D s t) (i : ℤ) {p : ℤ} (hp : 0 ≤ p)
    (hp' : p < 1000) : t.indirecto m i p = s.indirecto m i p := by
  have hnodo := nodo_eq m i
  exact load32_congr fun y hy => h.mem_eq (dirEstado_ne (by rw [dirIndirecto]; omega))

theorem BorraSolo.estado {D : Set ℕ} (h : BorraSolo m D s t) (i : ℤ)
    (hvivo : t.estado m i ≠ borrado) : t.estado m i = s.estado m i :=
  (h (dirEstado m i)).resolve_right (by rintro ⟨-, -, -, hcero⟩; exact hvivo hcero)

/-- The nodes of the set are in the table, after the bitmap and before the data. -/
theorem BorraSolo.fuera {D : Set ℕ} (h : BorraSolo m D s t) (hD : ∀ i ∈ D, i < cantidadNodos)
    {x : ℤ} (hx : x < m.nodo 0 ∨ m.nodo 1024 ≤ x) : t.mem x = s.mem x := by
  refine (h x).resolve_right ?_
  rintro ⟨j, hj, heq, -⟩
  have hj' := hD j hj
  have hnodo := nodo_eq m j
  have h1024 := nodo_eq m 1024
  rw [cantidadNodos] at hj'
  rw [dirEstado] at heq
  omega

/-! ## The walk -/

/-- The nodes before the regular files below number `q` are in the table and empty. -/
def AnterioresVacios (m : Montaje) (s : Estado) (q : ℤ) : Prop :=
  ∀ i ∈ ArchivosDebajo m s q, 0 < i ∧ s.tamanio m ((i : ℤ) - 1) = 0

/-- For a file after a node without positions nothing is released. -/
theorem eval_eliminarArchivo {fuel : ℕ} (hfuel : 0 < fuel)
    (h : SinPosiciones m t ((i : ℤ) - 1)) :
    (eliminarArchivo m fuel i).eval t =
      some ((), ({ t with delMode := false } : Estado).ponerEstado m i borrado) := by
  obtain ⟨fuel, rfl⟩ : ∃ l, fuel = l + 1 := ⟨fuel - 1, by omega⟩
  have hmodo : SinPosiciones m { t with delMode := true } ((i : ℤ) - 1) := h
  rw [eliminarArchivo, eliminarArchivoCon, eval_bind, enableDeleteMode, eval_modify,
    Option.bind_some, eval_bind, eval_lock, Option.bind_some, eval_bind,
    eval_eliminarNodos_sinPosiciones hmodo fuel]
  rfl

theorem eval_eliminarCarpeta {recursion : ℤ → Codigo Unit} {t' : Estado}
    (h : (recursion (i + 1)).eval t = some ((), t')) :
    (eliminarCarpeta m recursion i).eval t = some ((), t'.ponerEstado m i borrado) := by
  rw [eliminarCarpeta, eval_bind, h, Option.bind_some]
  rfl

/-- An iteration erases the child and what is below it. -/
theorem eval_eliminarHijo {recursion : ℤ → Codigo Unit} {fuel : ℕ} {q' : ℤ}
    (hq' : unsigned q' = q') (hi : i < cantidadNodos) (hfuel : 0 < fuel)
    (hvacios : AnterioresVacios m s q)
    (hdebajo : Cuelga m s q' i → Debajo m s q i)
    (hrec : ∀ t, Cuelga m s q' i → s.estado m i = directorio →
      BorraSolo m {i | Debajo m s q i} s t →
        ∃ t', (recursion (i + 1)).eval t = some ((), t') ∧
          BorraSolo m {i | Debajo m s q i} s t')
    (ht : BorraSolo m {i | Debajo m s q i} s t) :
    ∃ t', (eliminarHijo m recursion fuel q' i).eval t = some ((), t') ∧
      BorraSolo m {i | Debajo m s q i} s t' := by
  by_cases hhijo : t.estado m i ≠ borrado ∧ t.padre m i = unsigned q'
  · have hestado := ht.estado i hhijo.1
    have hcuelga : Cuelga m s q' i := by
      refine ⟨hi, ?_, ?_⟩
      · rw [← hestado]
        exact hhijo.1
      · rw [← ht.padre, hhijo.2, hq']
    rw [eliminarHijo, eliminarHijoCon, eval_bind, eval_read, Option.bind_some, decide_eq_true hhijo]
    simp only [if_true]
    by_cases harchivo : t.estado m i = ocupado
    · have hmem : i ∈ ArchivosDebajo m s q := ⟨hdebajo hcuelga, by rw [← hestado, harchivo]⟩
      obtain ⟨-, hcero⟩ := hvacios i hmem
      have herased : (({ t with delMode := false } : Estado).ponerEstado m i borrado).estado m i =
          borrado := estado_ponerEstado m _ i borrado
      refine ⟨({ t with delMode := false } : Estado).ponerEstado m i borrado, ?_, ?_⟩
      · rw [eval_bind, eval_read, Option.bind_some, decide_eq_true harchivo]
        simp only [if_true]
        rw [eval_bind, ← eliminarArchivo, eval_eliminarArchivo hfuel
          (sinPosiciones_of_vacio (by rw [ht.tamanio, hcero])), Option.bind_some,
          eval_bind, eval_read, Option.bind_some, herased]
        rfl
      · exact BorraSolo.ponerEstado (t := { t with delMode := false }) ht (hdebajo hcuelga)
    · rw [eval_bind, eval_read, Option.bind_some, decide_eq_false harchivo]
      simp only [Bool.false_eq_true, if_false]
      rw [eval_bind, eval_read, Option.bind_some]
      by_cases hcarpeta : t.estado m i = directorio
      · obtain ⟨t', heval, ht'⟩ := hrec t hcuelga (by rw [← hestado, hcarpeta]) ht
        refine ⟨t'.ponerEstado m i borrado, ?_, ht'.ponerEstado (hdebajo hcuelga)⟩
        rw [decide_eq_true hcarpeta]
        simp only [if_true]
        exact eval_eliminarCarpeta heval
      · refine ⟨t, ?_, ht⟩
        rw [decide_eq_false hcarpeta]
        rfl
  · refine ⟨t, ?_, ht⟩
    rw [eliminarHijo, eliminarHijoCon, eval_bind, eval_read, Option.bind_some,
      decide_eq_false hhijo]
    rfl

/-- With enough fuel for the height of the tree the recursion ends, and erases only nodes
below where it began. -/
theorem eval_eliminarRecursivamente {rango : ℕ → ℕ} {N : ℕ}
    (hrango : ∀ i j : ℕ, Cuelga m s (j + 1) i → rango j < rango i)
    (hN : ∀ i < cantidadNodos, rango i ≤ N) (hvacios : AnterioresVacios m s q) :
    ∀ (fuel : ℕ) (q' : ℤ) (t : Estado), 0 ≤ q' → q' < 4294967296 → 0 < fuel →
      (∀ i, Cuelga m s q' i → Debajo m s q i ∧ N + 1 < fuel + rango i) →
      BorraSolo m {i | Debajo m s q i} s t →
        ∃ t', (eliminarRecursivamente m (fuel + 1) q').eval t = some ((), t') ∧
          BorraSolo m {i | Debajo m s q i} s t' := by
  intro fuel
  induction fuel with
  | zero => exact fun _ _ _ _ hpos => absurd hpos (lt_irrefl 0)
  | succ fuel ih =>
      intro q' t hq hq' _ hhijos ht
      rw [eliminarRecursivamente_succ]
      refine eval_forEach_invariant (fun i hi t ht => ?_) ht
      have hi' := List.mem_range.1 hi
      refine eval_eliminarHijo (unsigned_eq_self hq hq') hi' (Nat.succ_pos fuel) hvacios
        (fun h => (hhijos i h).1) (fun t hcuelga hcarpeta ht => ?_) ht
      obtain ⟨hdebajo, hfuel⟩ := hhijos i hcuelga
      have hle := hN i hi'
      rw [cantidadNodos] at hi'
      refine ih (i + 1) t (by omega) (by omega) (by omega) (fun j hj => ?_) ht
      have hmenor := hrango j i hj
      exact ⟨.nieto hdebajo hcarpeta hj, by omega⟩

/-! ## A removal that completed -/

theorem Debajo.lt (h : Debajo m s q i) : i < cantidadNodos := by
  cases h with
  | hijo hcuelga => exact hcuelga.1
  | nieto _ _ hcuelga => exact hcuelga.1

/-- The first step on the way down. -/
theorem Debajo.cabeza (h : Debajo m s q i) :
    Cuelga m s q i ∨ ∃ j, Cuelga m s q j ∧ s.estado m j = directorio ∧ Debajo m s (j + 1) i := by
  induction h with
  | hijo hcuelga => exact .inl hcuelga
  | nieto _ hcarpeta hcuelga ih =>
      right
      obtain hj | ⟨l, hl, hldir, hdebajo⟩ := ih
      · exact ⟨_, hj, hcarpeta, .hijo hcuelga⟩
      · exact ⟨l, hl, hldir, .nieto hdebajo hcarpeta hcuelga⟩

/-- A regular file or a directory. -/
def ArchivoOCarpeta (m : Montaje) (s : Estado) (i : ℕ) : Prop :=
  s.estado m i = ocupado ∨ s.estado m i = directorio

/-- All files and directories below number `q` are erased. -/
def Barrido (m : Montaje) (q : ℤ) (s t : Estado) : Prop :=
  ∀ k, Debajo m s q k → ArchivoOCarpeta m s k → t.estado m k = borrado

/-- What the removal of the nodes below number `q` keeps: it erases nodes there only, and what is
below an erased directory is erased. -/
structure Borrando (m : Montaje) (q : ℤ) (s t : Estado) : Prop where
  solo : BorraSolo m {k | Debajo m s q k} s t
  cerrado : ∀ j : ℕ, s.estado m j = directorio → t.estado m j = borrado → Barrido m (j + 1) s t
  bitmapFreeBlocks : t.bitmapFreeBlocks = s.bitmapFreeBlocks
  delMode : s.delMode = false → t.delMode = false

theorem Borrando.refl (q : ℤ) (s : Estado) : Borrando m q s s where
  solo := .refl _ s
  cerrado j hcarpeta hborrado := by
    rw [hcarpeta] at hborrado
    exact absurd hborrado (by decide)
  bitmapFreeBlocks := rfl
  delMode h := h

/-- The mark of a node is its own. -/
theorem estado_ponerEstado_of_ne (t : Estado) {v : UInt8} {i k : ℕ} (h : k ≠ i) :
    (t.ponerEstado m i v).estado m k = t.estado m k := by
  have hi := nodo_eq m i
  have hk := nodo_eq m k
  exact ponerEstado_mem m t i (by rw [dirEstado, dirEstado]; omega)

/-- An erased node stays erased. -/
theorem estado_ponerEstado_borrado (t : Estado) (i : ℤ) {k : ℕ} (h : t.estado m k = borrado) :
    (t.ponerEstado m i borrado).estado m k = borrado := by
  rcases eq_or_ne (dirEstado m k) (dirEstado m i) with heq | hne
  · rw [Estado.estado, heq]
    exact estado_ponerEstado m t i borrado
  · rw [Estado.estado, ponerEstado_mem m t i hne]
    exact h

theorem Borrando.ponerEstado {k : ℕ} (h : Borrando m q s t) (hk : Debajo m s q k)
    (hcarpeta : s.estado m k = directorio → Barrido m (k + 1) s t) :
    Borrando m q s (t.ponerEstado m k borrado) where
  solo := h.solo.ponerEstado hk
  cerrado j hdir hborrado l hl htipo := by
    refine estado_ponerEstado_borrado t k ?_
    rcases eq_or_ne j k with rfl | hne
    · exact hcarpeta hdir l hl htipo
    · refine h.cerrado j hdir ?_ l hl htipo
      rwa [estado_ponerEstado_of_ne t hne] at hborrado
  bitmapFreeBlocks := h.bitmapFreeBlocks
  delMode := h.delMode

theorem Borrando.apagar (h : Borrando m q s t) : Borrando m q s { t with delMode := false } where
  solo := h.solo
  cerrado := h.cerrado
  bitmapFreeBlocks := h.bitmapFreeBlocks
  delMode _ := rfl

/-- A child that is a file after a node without positions is erased, and nothing else. -/
theorem eliminarArchivo_of_eval {s' : Estado} {fuel : ℕ} (h : SinPosiciones m t ((i : ℤ) - 1))
    (heval : (eliminarArchivo m fuel i).eval t = some ((), s')) :
    s' = ({ t with delMode := false } : Estado).ponerEstado m i borrado := by
  cases fuel with
  | zero =>
      rw [eliminarArchivo, eliminarArchivoCon, eval_bind, enableDeleteMode, eval_modify,
        Option.bind_some, eval_bind, eval_lock, Option.bind_some, eval_bind] at heval
      cases heval
  | succ fuel =>
      rw [eval_eliminarArchivo (Nat.succ_pos fuel) h] at heval
      cases heval
      rfl

/-- An iteration erases the child, and no node is in use again. -/
theorem Borrando.eliminarHijo {s' : Estado} {q' : ℤ} {recursion : ℤ → Codigo Unit} {fuel : ℕ}
    (hq' : unsigned q' = q') (hi : i < cantidadNodos)
    (hvacios : ∀ k ∈ ArchivosDebajo m s q, SinPosiciones m s ((k : ℤ) - 1))
    (hdebajo : Cuelga m s q' i → Debajo m s q i)
    (hrec : ∀ t t', Cuelga m s q' i → s.estado m i = directorio → Borrando m q s t →
      (recursion (i + 1)).eval t = some ((), t') → Borrando m q s t' ∧ Barrido m (i + 1) s t' ∧
        ∀ k : ℕ, t.estado m k = borrado → t'.estado m k = borrado)
    (ht : Borrando m q s t) (heval : (eliminarHijo m recursion fuel q' i).eval t = some ((), s')) :
    Borrando m q s s' ∧
      (Cuelga m s q' i → ArchivoOCarpeta m s i → s'.estado m i = borrado) ∧
        ∀ k : ℕ, t.estado m k = borrado → s'.estado m k = borrado := by
  rw [Sac.eliminarHijo, eliminarHijoCon, eval_bind, eval_read, Option.bind_some] at heval
  by_cases hhijo : t.estado m i ≠ borrado ∧ t.padre m i = unsigned q'
  · have hestado := ht.solo.estado i hhijo.1
    have hcuelga : Cuelga m s q' i := by
      refine ⟨hi, ?_, ?_⟩
      · rw [← hestado]
        exact hhijo.1
      · rw [← ht.solo.padre, hhijo.2, hq']
    rw [decide_eq_true hhijo] at heval
    simp only [if_true] at heval
    rw [eval_bind, eval_read, Option.bind_some] at heval
    by_cases harchivo : t.estado m i = ocupado
    · have hsin : SinPosiciones m t ((i : ℤ) - 1) := by
        rw [SinPosiciones, ht.solo.tamanio]
        exact hvacios i ⟨hdebajo hcuelga, by rw [← hestado, harchivo]⟩
      rw [decide_eq_true harchivo] at heval
      simp only [if_true] at heval
      obtain ⟨_, t', harch, heval⟩ := eval_bind_some heval
      rw [eliminarArchivo_of_eval hsin harch, eval_bind, eval_read, Option.bind_some,
        estado_ponerEstado] at heval
      cases heval
      refine ⟨ht.apagar.ponerEstado (hdebajo hcuelga) fun hcarpeta => ?_,
        fun _ _ => estado_ponerEstado m _ i borrado,
        fun k hk => estado_ponerEstado_borrado { t with delMode := false } i hk⟩
      rw [← hestado, harchivo] at hcarpeta
      exact absurd hcarpeta (by decide)
    · rw [decide_eq_false harchivo] at heval
      simp only [Bool.false_eq_true, if_false] at heval
      rw [eval_bind, eval_read, Option.bind_some] at heval
      by_cases hcarpeta : t.estado m i = directorio
      · rw [decide_eq_true hcarpeta] at heval
        simp only [if_true] at heval
        obtain ⟨_, t', hrecursion, heval⟩ := eval_bind_some heval
        cases heval
        obtain ⟨ht', hbarrido, hmas⟩ :=
          hrec t t' hcuelga (by rw [← hestado, hcarpeta]) ht hrecursion
        exact ⟨ht'.ponerEstado (hdebajo hcuelga) fun _ => hbarrido,
          fun _ _ => estado_ponerEstado m t' i borrado,
          fun k hk => estado_ponerEstado_borrado t' i (hmas k hk)⟩
      · rw [decide_eq_false hcarpeta] at heval
        cases heval
        refine ⟨ht, fun _ htipo => ?_, fun _ hk => hk⟩
        rw [ArchivoOCarpeta, ← hestado] at htipo
        exact absurd htipo (by rw [not_or]; exact ⟨harchivo, hcarpeta⟩)
  · rw [decide_eq_false hhijo] at heval
    cases heval
    refine ⟨ht, fun hcuelga _ => ?_, fun _ hk => hk⟩
    by_contra hvivo
    exact hhijo ⟨hvivo, by rw [ht.solo.padre, hcuelga.2.2, hq']⟩

/-- A recursion that completes erases all files and directories below the number it is called
with, by induction on the fuel. -/
theorem Borrando.eliminarRecursivamente
    (hvacios : ∀ k ∈ ArchivosDebajo m s q, SinPosiciones m s ((k : ℤ) - 1)) (fuel : ℕ) :
    ∀ (q' : ℤ) (t t' : Estado), 0 ≤ q' → q' < 4294967296 →
      (∀ k, Cuelga m s q' k → Debajo m s q k) → Borrando m q s t →
        (eliminarRecursivamente m fuel q').eval t = some ((), t') →
          Borrando m q s t' ∧ Barrido m q' s t' ∧
            ∀ k : ℕ, t.estado m k = borrado → t'.estado m k = borrado := by
  induction fuel with
  | zero =>
      intro q' t t' _ _ _ _ heval
      cases heval
  | succ fuel ih =>
      intro q' t t' hq hq' hhijos ht heval
      have hbucle := forEach_of_eval (P := fun u => Borrando m q s u ∧
          ∀ k : ℕ, t.estado m k = borrado → u.estado m k = borrado)
        (Q := fun k u => Cuelga m s q' k → ArchivoOCarpeta m s k → u.estado m k = borrado)
        (fun k hk u u' hu heval => ?_) ⟨ht, fun _ hk => hk⟩ heval
      · obtain ⟨⟨ht', hmas⟩, hborrados, -⟩ := hbucle
        refine ⟨ht', fun k hk htipo => ?_, hmas⟩
        obtain hcuelga | ⟨j, hj, hcarpeta, hdebajo⟩ := hk.cabeza
        · exact hborrados k (List.mem_range.2 hcuelga.1) hcuelga htipo
        · have hborrado := hborrados j (List.mem_range.2 hj.1) hj (.inr hcarpeta)
          exact ht'.cerrado j hcarpeta hborrado k hdebajo htipo
      · have hk' := List.mem_range.1 hk
        obtain ⟨hu', hborrado, hmas⟩ := Borrando.eliminarHijo (unsigned_eq_self hq hq') hk' hvacios
          (hhijos k) (fun v v' hcuelga hcarpeta hv heval => by
            rw [cantidadNodos] at hk'
            exact ih (k + 1) v v' (by omega) (by omega)
              (fun j hj => .nieto (hhijos k hcuelga) hcarpeta hj) hv heval) hu.1 heval
        exact ⟨⟨hu', fun l hl => hmas l (hu.2 l hl)⟩, hborrado,
          fun l hl hcuelga htipo => hmas l (hl hcuelga htipo)⟩

/-! ## More fuel -/

theorem extends_eliminarArchivo (n i : ℕ) :
    Extends (eliminarArchivo m n i) (eliminarArchivo m (n + 1) i) := by
  apply (Extends.refl _).bind
  intro _
  apply (Extends.refl _).bind
  intro _
  exact (extends_eliminarNodos _ _ _ n).bind fun _ => Extends.refl _

theorem extends_eliminarHijo {p p' : ℤ → Codigo Unit} (h : ∀ q, Extends (p q) (p' q)) (n : ℕ)
    (q : ℤ) (i : ℕ) : Extends (eliminarHijo m p n q i) (eliminarHijo m p' (n + 1) q i) := by
  apply (Extends.refl _).bind
  intro hijo
  apply Extends.ite _ (Extends.refl _)
  apply (Extends.refl _).bind
  intro archivo
  have hresto : Extends
      (do let carpeta ← Code.read fun s => decide (s.estado m i = directorio)
          if carpeta then eliminarCarpeta m p i)
      (do let carpeta ← Code.read fun s => decide (s.estado m i = directorio)
          if carpeta then eliminarCarpeta m p' i) := by
    apply (Extends.refl _).bind
    intro carpeta
    exact Extends.ite ((h _).bind fun _ => Extends.refl _) (Extends.refl _)
  apply Extends.ite
  · exact (extends_eliminarArchivo n i).bind fun _ => hresto
  · exact hresto

theorem extends_eliminarRecursivamente (n : ℕ) :
    ∀ q : ℤ, Extends (eliminarRecursivamente m n q) (eliminarRecursivamente m (n + 1) q) := by
  induction n with
  | zero => exact fun _ => extends_fail _
  | succ n ih => exact fun q => Extends.forEach (fun i => extends_eliminarHijo ih n q i) _

theorem extends_oRmdir (path : Ruta) (n : ℕ) :
    Extends (oRmdir m n path) (oRmdir m (n + 1) path) := by
  apply (Extends.refl _).bind
  intro miNodo
  apply (Extends.refl _).ite
  exact (extends_eliminarRecursivamente n miNodo).bind fun _ => Extends.refl _

/-! ## The removal of a directory -/

/-- Without children there is nothing to remove. -/
theorem eval_eliminarRecursivamente_sinHijos {q : ℤ} (hq : unsigned q = q)
    (h : ∀ i, ¬ Cuelga m s q i) (fuel : ℕ) :
    (eliminarRecursivamente m (fuel + 1) q).eval s = some ((), s) := by
  have hquieto : ∀ i ∈ List.range cantidadNodos, ∀ t, s = t →
      ∃ t', (eliminarHijo m (eliminarRecursivamente m fuel) fuel q i).eval t = some ((), t') ∧
        s = t' := by
    rintro i hi _ rfl
    have hno : ¬ (s.estado m i ≠ borrado ∧ s.padre m i = unsigned q) := fun hhijo =>
      h i ⟨List.mem_range.1 hi, hhijo.1, hhijo.2.trans hq⟩
    refine ⟨s, ?_, rfl⟩
    rw [eliminarHijo, eliminarHijoCon, eval_bind, eval_read, Option.bind_some, decide_eq_false hno]
    rfl
  obtain ⟨t, heval, rfl⟩ := eval_forEach_invariant hquieto rfl
  exact heval

/-- The removal of a directory that is in the table ends and erases nodes of its subtree
only, when the nodes before the files there are empty. -/
theorem eval_oRmdir_vacios (hs : SistemaValido m s) {path : Ruta} {d : ℕ} (hd : d < cantidadNodos)
    (hnodo : nodoDe m s path.cola = (d : ℤ) + 1)
    (hvacios : AnterioresVacios m s (nodoDe m s path.cola)) :
    ∃ fuel s', (oRmdir m fuel path).eval s = some (0, s') ∧
      BorraSolo m ({i | Debajo m s (nodoDe m s path.cola) i} ∪ {d}) s s' := by
  obtain ⟨rango, hrango⟩ := hs.arbol
  have hN : ∀ i < cantidadNodos, rango i ≤ (Finset.range cantidadNodos).sup rango := fun i hi =>
    Finset.le_sup (Finset.mem_range.2 hi)
  generalize (Finset.range cantidadNodos).sup rango = N at hN
  obtain ⟨t, heval, ht⟩ := eval_eliminarRecursivamente hrango hN hvacios
    (N + 2) (nodoDe m s path.cola) s (by omega)
    (by rw [cantidadNodos] at hd; omega) (by omega)
    (fun i hi => ⟨.hijo hi, by
      rw [hnodo] at hi
      have hmenor := hrango i d hi
      omega⟩) (.refl _ s)
  refine ⟨N + 2 + 1, t.ponerEstado m d borrado, ?_, ?_⟩
  · have hd' : nodoDe m s path.cola - 1 = d := by omega
    rw [oRmdir, eval_bind, eval_dameNodoDe, Option.bind_some]
    dsimp only
    rw [if_neg (by omega), eval_bind, heval, Option.bind_some]
    dsimp only
    rw [hd']
    rfl
  · have hmas : BorraSolo m ({i | Debajo m s (nodoDe m s path.cola) i} ∪ {d}) s t :=
      ht.mono Set.subset_union_left
    exact hmas.ponerEstado (.inr rfl)

theorem testBit_of_borraSolo {D : Set ℕ} (h : BorraSolo m D s t)
    (hD : ∀ i ∈ D, i < cantidadNodos) {b : ℤ} (hb : EnBitmap m b) :
    t.testBit m b = s.testBit m b := by
  have hcero := nodo_cero m
  have hb8 := hb.2
  rw [Estado.testBit, h.fuera hD (.inl (by omega)), Estado.testBit]

/-- When there are no files below it, erasing nodes of the subtree is all there is to do. -/
theorem podado_of_borraSolo (hs : SistemaValido m s) {D : Set ℕ} (h : BorraSolo m D s t)
    (hD : ∀ i ∈ D, i < cantidadNodos) (hvacio : ArchivosDebajo m s q = ∅) : Podado m q s t where
  bits b hb := by
    rw [testBit_of_borraSolo h hD hb, hvacio]
    simp
  archivos i hi harchivo _ := by
    have hmapa := hs.mapas i hi harchivo
    have h1024 := enTabla_lt_bloque (m := m) le_rfl
    have hindirecto : ∀ j < bloquesDe (s.tamanio m i),
        t.indirecto m i (j / 1024 : ℕ) = s.indirecto m i (j / 1024 : ℕ) := fun j hj =>
      h.indirecto i (Int.natCast_nonneg _) (by have hmil := hmapa.lt_mil hj; omega)
    have hdato : ∀ j < bloquesDe (s.tamanio m i), t.dato m i j = s.dato m i j := by
      intro j hj
      have hbase := enTabla_lt_bloque (hmapa.base_le_indirecto j hj)
      rw [Estado.dato, hindirecto j hj, Estado.dato]
      exact load32_congr fun y _ => h.fuera hD (.inr (by omega))
    refine ⟨h.tamanio i, fun j hj => ⟨hindirecto j hj, hdato j hj⟩, ?_⟩
    refine contenido_congr fun x _ hx => ?_
    have hx' : x / 4096 < bloquesDe (s.tamanio m i) := by
      rw [bloquesDe, posiciones]
      omega
    have hbase := enTabla_lt_bloque (hmapa.base_le_dato _ hx')
    rw [Estado.byteDe, hdato _ hx', Estado.byteDe]
    exact h.fuera hD (.inr (by omega))

theorem podaBien_of_vacio (hs : SistemaValido m s) {path : Ruta} {d : ℕ} (hd : d < cantidadNodos)
    (hnodo : nodoDe m s path.cola = (d : ℤ) + 1)
    (hvacio : ArchivosDebajo m s (nodoDe m s path.cola) = ∅) : PodaBien m path s := by
  obtain ⟨fuel, s', heval, hborra⟩ := eval_oRmdir_vacios hs hd hnodo fun i hi => by
    rw [hvacio] at hi
    exact hi.elim
  refine ⟨fuel, s', heval, podado_of_borraSolo hs hborra ?_ hvacio⟩
  rintro i (hi | rfl)
  · exact hi.lt
  · exact hd

/-- The blocks of a file below are not released through an empty node. -/
theorem vacio_of_podaBien (hs : SistemaValido m s) {path : Ruta} {d : ℕ} (hd : d < cantidadNodos)
    (hnodo : nodoDe m s path.cola = (d : ℤ) + 1)
    (hvacios : AnterioresVacios m s (nodoDe m s path.cola)) (h : PodaBien m path s) :
    ArchivosDebajo m s (nodoDe m s path.cola) = ∅ := by
  obtain ⟨fuel, s', heval, hpodado⟩ := h
  obtain ⟨fuel', t, heval', hborra⟩ := eval_oRmdir_vacios hs hd hnodo hvacios
  have hunico := eval_unique (extends_oRmdir path) heval heval'
  rw [Prod.mk.injEq] at hunico
  rw [Set.eq_empty_iff_forall_notMem]
  intro i hi
  have hmapa := hs.mapas i hi.1.lt hi.2
  have hcero : 0 < bloquesDe (s.tamanio m i) := lt_of_lt_of_le one_pos (le_max_left _ _)
  have henBitmap := hmapa.dato_enBitmap 0 hcero
  have hbit := hpodado.bits _ henBitmap
  have hD : ∀ i ∈ {i | Debajo m s (nodoDe m s path.cola) i} ∪ {d}, i < cantidadNodos := by
    rintro i (hi | rfl)
    · exact hi.lt
    · exact hd
  rw [hunico.2, testBit_of_borraSolo hborra hD henBitmap] at hbit
  exact (hbit.1 (hmapa.dato_usado 0 hcero)).2 i hi ⟨0, hcero, .inl rfl⟩

/-- A directory of the table without regular files below it is removed as it should; when the
nodes before its files are empty, one with some of them is not. -/
theorem podaBien_sinArchivos (m : Montaje) (s : Estado) (hs : SistemaValido m s) (path : Ruta)
    (hnodo : nodoDe m s path.cola ≠ -1) :
    (nodoDe m s path.cola ≠ 0 ∧ ArchivosDebajo m s (nodoDe m s path.cola) = ∅ →
        PodaBien m path s) ∧
      (nodoDe m s path.cola ≠ 0 ∧ AnterioresVacios m s (nodoDe m s path.cola) →
        PodaBien m path s → ArchivosDebajo m s (nodoDe m s path.cola) = ∅) := by
  have hnumero : nodoDe m s path.cola ≠ 0 →
      ∃ d < cantidadNodos, nodoDe m s path.cola = (d : ℤ) + 1 := by
    intro hraiz
    rcases nodoDe_cases m s path.cola with heq | heq | ⟨d, hd, heq, -⟩
    · exact absurd heq hnodo
    · exact absurd heq hraiz
    · exact ⟨d, hd, heq⟩
  constructor
  · rintro ⟨hraiz, hvacio⟩
    obtain ⟨d, hd, heq⟩ := hnumero hraiz
    exact podaBien_of_vacio hs hd heq hvacio
  · rintro ⟨hraiz, hvacios⟩ hpoda
    obtain ⟨d, hd, heq⟩ := hnumero hraiz
    exact vacio_of_podaBien hs hd heq hvacios hpoda

/-! ## A directory with a file -/

theorem sistemaValido_of_unico {k : ℕ}
    (hunico : ∀ i < cantidadNodos, s.estado m i = ocupado → i = k)
    (hmapa : MapaCompleto m s k (bloquesDe (s.tamanio m k)))
    (harbol : ∀ i j : ℕ, Cuelga m s (j + 1) i → j < i) : SistemaValido m s where
  mapas i hi h := by
    obtain rfl := hunico i hi h
    exact hmapa
  ajenos i hi j hj h h' hne := absurd ((hunico i hi h).trans (hunico j hj h').symm) hne
  arbol := ⟨id, harbol⟩

/-- Node 0 is the directory `/d` and node 1 the empty file `/d/a`, with the data block 1026
and the pointer block 1027. -/
def carpetaConArchivo : Estado :=
  let s : Estado := ⟨store (fun _ => 0) (dirEstado montajeChico 0) [2, 100], 0, false⟩
  let s := s.conMem (store s.mem (dirEstado montajeChico 1) [1, 97])
  let s := ((s.ponerPadre montajeChico 1 1).setBit montajeChico 1026).setBit montajeChico 1027
  (s.ponerIndirecto montajeChico 1 0 1027).ponerPuntero montajeChico 1027 0 1026

/-- A node put in the table leaves the marks of the others. -/
theorem estado_conHijo (m : Montaje) (s : Estado) (marca letra : UInt8) (padre : ℤ) {i k : ℕ}
    (h : i ≠ k) :
    ((s.conMem (store s.mem (dirEstado m k) [marca, letra])).ponerPadre m k padre).estado m i =
      s.estado m i := by
  have hi := nodo_eq m i
  have hk := nodo_eq m k
  rw [Estado.estado, ponerPadre_mem m _ _ (by rw [dirEstado, dirPadre]; omega), Estado.conMem]
  refine store_of_disjoint ?_
  rw [dirEstado, dirEstado, List.length_cons, List.length_singleton]
  omega

theorem estado_carpetaConArchivo {i : ℕ} (hi : i < cantidadNodos)
    (h : carpetaConArchivo.estado montajeChico i ≠ borrado) : i = 0 ∨ i = 1 := by
  by_contra hotro
  rw [not_or] at hotro
  have hnodo := nodo_eq montajeChico i
  have hdir : dirEstado montajeChico i = montajeChico.nodo i := rfl
  have h1 := nodo_eq montajeChico 1
  have hbase := bloque_base montajeChico
  have hdatos := bloque_eq montajeChico 1027
  have hcero := nodo_cero montajeChico
  have htamanio : montajeChico.base = 1026 ∧ montajeChico.tamanioBitmap = 1 := by decide
  have hbit : ∀ b : ℤ, b < 4096 → dirEstado montajeChico i ≠ bitmapStart + b / 8 := by omega
  have hi' : i < 1024 := hi
  refine h ?_
  rw [Estado.estado, carpetaConArchivo, ponerPuntero_mem _ _ (.inl (by omega)),
    ponerIndirecto_mem _ _ _ (.inr (by rw [dirIndirecto]; omega)),
    setBit_of_ne _ (hbit _ (by decide)), setBit_of_ne _ (hbit _ (by decide))]
  have hcarpeta : store (fun _ => 0) (dirEstado montajeChico 0) [2, 100]
      (dirEstado montajeChico i) = 0 := by
    refine store_of_disjoint (.inr ?_)
    rw [List.length_cons, List.length_singleton, dirEstado]
    omega
  exact (estado_conHijo montajeChico _ 1 97 1 hotro.2).trans hcarpeta

theorem nodos_carpetaConArchivo :
    carpetaConArchivo.estado montajeChico 0 = directorio ∧
      carpetaConArchivo.estado montajeChico 1 = ocupado ∧
      carpetaConArchivo.padre montajeChico 0 = 0 ∧
      carpetaConArchivo.padre montajeChico 1 = 1 ∧
      carpetaConArchivo.tamanio montajeChico 0 = 0 ∧
      carpetaConArchivo.tamanio montajeChico 1 = 0 ∧
      nodoDe montajeChico carpetaConArchivo rutaD.cola = 1 := by
  decide +kernel

theorem mapa_carpetaConArchivo :
    MapaCompleto montajeChico carpetaConArchivo 1
      (bloquesDe (carpetaConArchivo.tamanio montajeChico 1)) :=
  mapaCompleto_unBloque (by rw [nodos_carpetaConArchivo.2.2.2.2.2.1]; decide) (by decide)
    (by decide) (by decide +kernel) (by decide +kernel) (by decide +kernel)

theorem sistemaValido_carpetaConArchivo : SistemaValido montajeChico carpetaConArchivo := by
  obtain ⟨hcero, -, hpadre, hpadre', -, -, -⟩ := nodos_carpetaConArchivo
  refine sistemaValido_of_unico (k := 1) (fun i hi h => ?_) mapa_carpetaConArchivo fun i j h => ?_
  · refine (estado_carpetaConArchivo hi (by rw [h]; decide)).resolve_left ?_
    rintro rfl
    rw [Nat.cast_zero, hcero] at h
    exact absurd h (by decide)
  · rcases estado_carpetaConArchivo h.1 h.2.1 with rfl | rfl
    · have hj := h.2.2
      rw [Nat.cast_zero, hpadre] at hj
      omega
    · have hj := h.2.2
      rw [Nat.cast_one, hpadre'] at hj
      omega

/-- Next to `/d` and its file, node 2 is the directory `/e` and node 3 the directory `/e/f`. -/
def dosCarpetas : Estado :=
  let s := carpetaConArchivo
  let s := (s.conMem (store s.mem (dirEstado montajeChico 2) [2, 101])).ponerPadre montajeChico 2 0
  (s.conMem (store s.mem (dirEstado montajeChico 3) [2, 102])).ponerPadre montajeChico 3 3

/-- The path `/e`. -/
def rutaE : Ruta := ⟨[101], by decide⟩

theorem estado_dosCarpetas {i : ℕ} (hi : i < cantidadNodos)
    (h : dosCarpetas.estado montajeChico i ≠ borrado) : i < 4 := by
  by_contra hge
  refine h ?_
  have hdos : dosCarpetas.estado montajeChico i = carpetaConArchivo.estado montajeChico i :=
    (estado_conHijo (k := 3) montajeChico _ 2 102 3 (by omega)).trans
      (estado_conHijo (k := 2) montajeChico _ 2 101 0 (by omega))
  rw [hdos]
  by_contra hvivo
  have := estado_carpetaConArchivo hi hvivo
  omega

theorem nodos_dosCarpetas :
    (∀ i < 4, dosCarpetas.estado montajeChico (i : ℕ) = ocupado → i = 1) ∧
      dosCarpetas.padre montajeChico 0 = 0 ∧ dosCarpetas.padre montajeChico 1 = 1 ∧
      dosCarpetas.padre montajeChico 2 = 0 ∧ dosCarpetas.padre montajeChico 3 = 3 ∧
      dosCarpetas.estado montajeChico 1 = ocupado ∧
      dosCarpetas.tamanio montajeChico 0 = 0 ∧ dosCarpetas.tamanio montajeChico 1 = 0 ∧
      nodoDe montajeChico dosCarpetas rutaD.cola = 1 ∧
      nodoDe montajeChico dosCarpetas rutaE.cola = 3 := by
  decide +kernel

theorem cuelga_dosCarpetas (h : Cuelga montajeChico dosCarpetas q i) :
    i = 0 ∧ q = 0 ∨ i = 1 ∧ q = 1 ∨ i = 2 ∧ q = 0 ∨ i = 3 ∧ q = 3 := by
  obtain ⟨-, hcero, huno, hdos, htres, -⟩ := nodos_dosCarpetas
  have hi := estado_dosCarpetas h.1 h.2.1
  have hpadre := h.2.2
  obtain rfl | rfl | rfl | rfl : i = 0 ∨ i = 1 ∨ i = 2 ∨ i = 3 := by omega
  · exact .inl ⟨rfl, hpadre.symm.trans hcero⟩
  · exact .inr (.inl ⟨rfl, hpadre.symm.trans huno⟩)
  · exact .inr (.inr (.inl ⟨rfl, hpadre.symm.trans hdos⟩))
  · exact .inr (.inr (.inr ⟨rfl, hpadre.symm.trans htres⟩))

/-- Number 3 is `/e` and node 3 is `/e/f`; number 1 is `/d` and node 1 is `/d/a`. -/
theorem debajo_dosCarpetas (hq : q = 1 ∨ q = 3) (h : Debajo montajeChico dosCarpetas q i) :
    (i : ℤ) = q := by
  induction h with
  | hijo h =>
      have := cuelga_dosCarpetas h
      omega
  | nieto _ _ h ih =>
      have := cuelga_dosCarpetas h
      omega

theorem mapa_dosCarpetas :
    MapaCompleto montajeChico dosCarpetas 1 (bloquesDe (dosCarpetas.tamanio montajeChico 1)) := by
  obtain ⟨-, -, -, -, -, -, -, htamanio, -, -⟩ := nodos_dosCarpetas
  exact mapaCompleto_unBloque (by rw [htamanio]; decide) (by decide) (by decide)
    (by decide +kernel) (by decide +kernel) (by decide +kernel)

theorem sistemaValido_dosCarpetas : SistemaValido montajeChico dosCarpetas := by
  obtain ⟨hunico, -⟩ := nodos_dosCarpetas
  refine sistemaValido_of_unico (k := 1) (fun i hi h => ?_) mapa_dosCarpetas fun i j h => ?_
  · exact hunico i (estado_dosCarpetas hi (by rw [h]; decide)) h
  · have := cuelga_dosCarpetas h
    omega

/-- The removal of `/e`, which holds a directory, is right; that of `/d`, which holds a
file after an empty node, is not. -/
theorem podaBien_sinArchivos_dosCarpetas :
    PodaBien montajeChico rutaE dosCarpetas ∧ ¬ PodaBien montajeChico rutaD dosCarpetas := by
  obtain ⟨hunico, -, huno, -, -, harchivo, hcero, -, hd, he⟩ := nodos_dosCarpetas
  constructor
  · refine (podaBien_sinArchivos montajeChico dosCarpetas sistemaValido_dosCarpetas rutaE
      (by rw [he]; decide)).1 ⟨by rw [he]; decide, ?_⟩
    rw [he, Set.eq_empty_iff_forall_notMem]
    rintro i ⟨hi, hocupado⟩
    obtain rfl := Nat.cast_inj.1 (debajo_dosCarpetas (.inr rfl) hi)
    exact absurd (hunico 3 (by decide) hocupado) (by decide)
  · intro hpoda
    have hvacio := (podaBien_sinArchivos montajeChico dosCarpetas sistemaValido_dosCarpetas rutaD
      (by rw [hd]; decide)).2 ⟨by rw [hd]; decide, by
        rw [hd]
        rintro i ⟨hi, -⟩
        obtain rfl := Nat.cast_inj.1 (debajo_dosCarpetas (.inl rfl) hi)
        exact ⟨one_pos, hcero⟩⟩ hpoda
    rw [hd] at hvacio
    have hmem : 1 ∈ ArchivosDebajo montajeChico dosCarpetas 1 :=
      ⟨.hijo ⟨by decide, by rw [Nat.cast_one, harchivo]; decide, huno⟩, harchivo⟩
    rw [hvacio] at hmem
    exact hmem

/-- The blocks of `/d/a` are searched through node 0, which is `/d`, and none is released. -/
theorem podaBien_conArchivo :
    ¬ ∀ (m : Montaje) (s : Estado), SistemaValido m s → ∀ (path : Ruta) (d : ℕ),
      d < cantidadNodos → nodoDe m s path.cola = (d : ℤ) + 1 → s.estado m d = directorio →
        PodaBien m path s := by
  intro hclaim
  obtain ⟨hdir, harchivo, hpadre0, hpadre1, htamanio, -, hnodo⟩ := nodos_carpetaConArchivo
  have hpoda := hclaim montajeChico carpetaConArchivo sistemaValido_carpetaConArchivo rutaD 0
    (by decide) (by rw [hnodo]; rfl) hdir
  have hsolo : ∀ i, Debajo montajeChico carpetaConArchivo 1 i → i = 1 := by
    intro i hi
    refine (estado_carpetaConArchivo hi.lt ?_).resolve_left ?_
    · cases hi with
      | hijo h => exact h.2.1
      | nieto _ _ h => exact h.2.1
    · rintro rfl
      cases hi with
      | hijo h =>
          have hpadre := h.2.2
          rw [Nat.cast_zero, hpadre0] at hpadre
          omega
      | nieto _ _ h =>
          have hpadre := h.2.2
          rw [Nat.cast_zero, hpadre0] at hpadre
          omega
  have hvacio := vacio_of_podaBien sistemaValido_carpetaConArchivo (d := 0) (by decide)
    (by rw [hnodo]; rfl) (by
      rw [hnodo]
      rintro i ⟨hi, -⟩
      obtain rfl := hsolo i hi
      exact ⟨one_pos, htamanio⟩) hpoda
  rw [hnodo] at hvacio
  have hmem : 1 ∈ ArchivosDebajo montajeChico carpetaConArchivo 1 :=
    ⟨.hijo ⟨by decide, by rw [Nat.cast_one, harchivo]; decide, hpadre1⟩, harchivo⟩
  rw [hvacio] at hmem
  exact hmem

end Sac
