import Linuse.Collections.Forest
import Linuse.Sac.Subarbol

/-!
# The removal of a branch

`eliminarRecursivamente` marks nodes while the loops of its callers go over the same table. It
ends because no node is below itself, and what it marks is exactly what is below the node through
directories: the marks that an inner call makes are below the child that the outer loop is at.
What `eliminarNodos` does to the blocks is not looked at here: any code in its place will do that
ends and leaves the fields of the nodes alone (`LiberaNodos`).
-/

namespace Sac

open Memory Locks Locks.Code

/-! ## The removal, for any way to release blocks -/

/-- What `o_rmdir` does with node `d`: what is below it is removed, and then the node. -/
def eliminarRama (m : Montaje) (libera : ℕ → ℤ → ℤ → ℤ → Codigo Unit) (d fuel : ℕ) :
    Codigo Unit := do
  eliminarRecursivamenteCon m libera fuel (d + 1)
  Prog.lock Modo.escritura
  Code.modify fun s => s.ponerEstado m d borrado
  Prog.unlock Modo.escritura

variable {m : Montaje} {libera : ℕ → ℤ → ℤ → ℤ → Codigo Unit} {s t u : Estado} {i j k d : ℕ}
  {q : ℤ}

/-- The fields of the nodes before the block pointers are kept. -/
def GuardaNodos (m : Montaje) (s t : Estado) : Prop :=
  ∀ i : ℕ, i < cantidadNodos → ∀ x, m.nodo i ≤ x → x < m.nodo i + 96 → t.mem x = s.mem x

/-- Code that ends with enough fuel, and changes neither the state, the name, the father nor any
other field of a node but its block pointers. -/
structure LiberaNodos (m : Montaje) (libera : ℕ → ℤ → ℤ → ℤ → Codigo Unit) : Prop where
  termina : ∀ i s, ∃ fuel t, (libera fuel i 0 0).eval s = some ((), t)
  extiende : ∀ i fuel, Extends (libera fuel i 0 0) (libera (fuel + 1) i 0 0)
  guarda : ∀ i fuel s t, (libera fuel i 0 0).eval s = some ((), t) → GuardaNodos m s t

theorem LiberaNodos.ends (h : LiberaNodos m libera) (i : ℤ) (s : Estado) :
    ∃ t, Ends (fun fuel => libera fuel i 0 0) s ((), t) ∧ GuardaNodos m s t := by
  obtain ⟨fuel, t, heval⟩ := h.termina i s
  exact ⟨t, ends_of_extends (h.extiende i) heval, h.guarda i fuel s t heval⟩

/-! ## What is below a node -/

/-- Node `k` is in use, and so are the nodes between it and node `d`, which is above. -/
def Desciende (m : Montaje) (s : Estado) : ℕ → ℕ → Prop :=
  Relation.TransGen fun j i : ℕ => Cuelga m s ((j : ℤ) + 1) i

/-- No node is below itself. -/
def Aciclica (m : Montaje) (s : Estado) : Prop := ∀ i, ¬ Desciende m s i i

/-- The nodes in use are files and directories, and only directories have something below. -/
structure TablaTipada (m : Montaje) (s : Estado) : Prop where
  tipos : ∀ i < cantidadNodos, s.estado m (i : ℕ) ≠ borrado → ArchivoOCarpeta m s i
  padres : ∀ i j : ℕ, Cuelga m s ((j : ℤ) + 1) i → j < cantidadNodos → s.estado m j ≠ borrado →
    s.estado m j = directorio

/-- A file or a directory below number `q`, through directories. -/
def Borrable (m : Montaje) (s : Estado) (q : ℤ) (k : ℕ) : Prop :=
  Debajo m s q k ∧ ArchivoOCarpeta m s k

theorem Aciclica.wellFounded (h : Aciclica m s) :
    WellFounded fun i j : ℕ => Cuelga m s ((j : ℤ) + 1) i :=
  Forest.wellFounded_of_acyclic (Set.finite_lt_nat cantidadNodos) (fun _ _ hij => hij.1) h

theorem desciende_of_debajo (h : Debajo m s ((d : ℤ) + 1) k) : Desciende m s d k := by
  induction h with
  | hijo hcuelga => exact .single hcuelga
  | nieto _ _ hcuelga ih => exact ih.tail hcuelga

/-- In a table where only directories have something below, all that is below is below through
directories. -/
theorem TablaTipada.borrable_iff (h : TablaTipada m s) :
    Borrable m s ((d : ℤ) + 1) k ↔ Desciende m s d k := by
  refine ⟨fun hk => desciende_of_debajo hk.1, fun hk => ?_⟩
  induction hk with
  | single hcuelga => exact ⟨.hijo hcuelga, h.tipos _ hcuelga.1 hcuelga.2.1⟩
  | @tail j i _ hcuelga ih =>
      have hvivo : s.estado m j ≠ borrado := by
        rcases ih.2 with heq | heq <;> (rw [heq]; decide)
      exact ⟨.nieto ih.1 (h.padres _ _ hcuelga ih.1.lt hvivo) hcuelga,
        h.tipos _ hcuelga.1 hcuelga.2.1⟩

/-! ## While the branch is removed -/

/-- The removal of what is below number `q` is on its way: it has marked nodes there only, and what
is below a directory that is marked is marked too. -/
structure Podando (m : Montaje) (q : ℤ) (s t : Estado) : Prop where
  campos : ∀ i : ℕ, i < cantidadNodos → ∀ x, m.nodo i < x → x < m.nodo i + 96 → t.mem x = s.mem x
  solo : ∀ i : ℕ, i < cantidadNodos →
    t.estado m i = s.estado m i ∨ Borrable m s q i ∧ t.estado m i = borrado
  cerrado : ∀ j : ℕ, j < cantidadNodos → s.estado m j = directorio → t.estado m j = borrado →
    ∀ k, Borrable m s ((j : ℤ) + 1) k → t.estado m k = borrado

/-- No node of the table is in use again. -/
def SinRevivir (m : Montaje) (t u : Estado) : Prop :=
  ∀ k : ℕ, k < cantidadNodos → t.estado m k = borrado → u.estado m k = borrado

theorem Borrable.lt (h : Borrable m s q k) : k < cantidadNodos := h.1.lt

theorem GuardaNodos.estado (h : GuardaNodos m t u) (hk : k < cantidadNodos) :
    u.estado m k = t.estado m k :=
  h k hk _ le_rfl (lt_add_of_pos_right _ (by decide))

namespace Podando

theorem refl (q : ℤ) (s : Estado) : Podando m q s s where
  campos _ _ _ _ _ := rfl
  solo _ _ := .inl rfl
  cerrado j _ hcarpeta hborrado := by
    rw [hcarpeta] at hborrado
    exact absurd hborrado (by decide)

theorem padre (h : Podando m q s t) (hi : i < cantidadNodos) : t.padre m i = s.padre m i :=
  load32_congr fun n hn => h.campos i hi _ (by rw [dirPadre]; omega) (by rw [dirPadre]; omega)

theorem estado (h : Podando m q s t) (hi : i < cantidadNodos) (hvivo : t.estado m i ≠ borrado) :
    t.estado m i = s.estado m i :=
  (h.solo i hi).resolve_right fun hborrado => hvivo hborrado.2

/-- What is done to the blocks does not matter. -/
theorem guarda (h : Podando m q s t) (hu : GuardaNodos m t u) : Podando m q s u where
  campos i hi x hx hx' := (hu i hi x hx.le hx').trans (h.campos i hi x hx hx')
  solo i hi := by
    rw [hu.estado hi]
    exact h.solo i hi
  cerrado j hj hcarpeta hborrado k hk := by
    rw [hu.estado hj] at hborrado
    rw [hu.estado hk.lt]
    exact h.cerrado j hj hcarpeta hborrado k hk

/-- A node is marked when all that is below it is. -/
theorem ponerEstado (h : Podando m q s t) (hi : Borrable m s q i)
    (hdebajo : s.estado m i = directorio → ∀ k, Borrable m s ((i : ℤ) + 1) k →
      t.estado m k = borrado) : Podando m q s (t.ponerEstado m i borrado) where
  campos j hj x hx hx' := by
    have hni := nodo_eq m i
    have hnj := nodo_eq m j
    rw [ponerEstado_mem m t i (by rw [dirEstado]; omega)]
    exact h.campos j hj x hx hx'
  solo j hj := by
    rcases eq_or_ne j i with rfl | hne
    · exact .inr ⟨hi, estado_ponerEstado m t j borrado⟩
    · rw [estado_ponerEstado_of_ne t hne]
      exact h.solo j hj
  cerrado j hj hcarpeta hborrado k hk := by
    refine estado_ponerEstado_borrado t i ?_
    rcases eq_or_ne j i with rfl | hne
    · exact hdebajo hcarpeta k hk
    · rw [estado_ponerEstado_of_ne t hne] at hborrado
      exact h.cerrado j hj hcarpeta hborrado k hk

end Podando

theorem SinRevivir.ponerEstado (h : SinRevivir m t u) :
    SinRevivir m t (u.ponerEstado m i borrado) :=
  fun k hk hborrado => estado_ponerEstado_borrado u i (h k hk hborrado)

/-! ## The passes of the loops -/

theorem ends_eliminarArchivoCon (hlib : LiberaNodos m libera) (i : ℕ) (t : Estado) :
    ∃ u, Ends (fun fuel => eliminarArchivoCon m libera fuel i) t ((), u.ponerEstado m i borrado) ∧
      GuardaNodos m t u := by
  obtain ⟨u, ⟨n, hn⟩, hu⟩ := hlib.ends ((i : ℤ) - 1) { t with delMode := true }
  refine ⟨{ u with delMode := false }, ⟨n, fun fuel hfuel => ?_⟩, hu⟩
  change (eliminarArchivoCon m libera fuel i).eval t = _
  rw [eliminarArchivoCon, eval_bind, enableDeleteMode, eval_modify, Option.bind_some, eval_bind,
    eval_lock, Option.bind_some, eval_bind, hn fuel hfuel]
  rfl

/-- A pass at a node that is no child, or neither a file nor a directory. -/
theorem eval_eliminarHijoCon_quieto {recursion : ℤ → Codigo Unit} {fuel : ℕ} {q' : ℤ}
    (h : ¬ (t.estado m i ≠ borrado ∧ t.padre m i = unsigned q') ∨
      t.estado m i ≠ ocupado ∧ t.estado m i ≠ directorio) :
    (eliminarHijoCon m libera recursion fuel q' i).eval t = some ((), t) := by
  rw [eliminarHijoCon, eval_bind, eval_read, Option.bind_some]
  by_cases hhijo : t.estado m i ≠ borrado ∧ t.padre m i = unsigned q'
  · obtain ⟨harchivo, hcarpeta⟩ := h.resolve_left (not_not_intro hhijo)
    rw [decide_eq_true hhijo]
    simp only [if_true]
    rw [eval_bind, eval_read, Option.bind_some, decide_eq_false harchivo]
    simp only [Bool.false_eq_true, if_false]
    rw [eval_bind, eval_read, Option.bind_some, decide_eq_false hcarpeta]
    rfl
  · rw [decide_eq_false hhijo]
    rfl

/-- A pass marks the child, if there is one, and what is below it. -/
theorem Podando.hijo {recursion : ℕ → ℤ → Codigo Unit} {q' : ℤ} (hlib : LiberaNodos m libera)
    (hq' : unsigned q' = q') (hi : i < cantidadNodos) (hdebajo : Cuelga m s q' i → Debajo m s q i)
    (hrec : ∀ t, Cuelga m s q' i → s.estado m i = directorio → Podando m q s t →
      ∃ u, Ends (fun fuel => recursion fuel ((i : ℤ) + 1)) t ((), u) ∧ Podando m q s u ∧
        (∀ k, Borrable m s ((i : ℤ) + 1) k → u.estado m k = borrado) ∧ SinRevivir m t u)
    (ht : Podando m q s t) :
    ∃ u, Ends (fun fuel => eliminarHijoCon m libera (recursion fuel) fuel q' i) t ((), u) ∧
      Podando m q s u ∧ (Cuelga m s q' i → ArchivoOCarpeta m s i → u.estado m i = borrado) ∧
        SinRevivir m t u := by
  by_cases hhijo : t.estado m i ≠ borrado ∧ t.padre m i = unsigned q'
  · have hestado := ht.estado hi hhijo.1
    have hcuelga : Cuelga m s q' i := by
      refine ⟨hi, ?_, ?_⟩
      · rw [← hestado]
        exact hhijo.1
      · rw [← ht.padre hi, hhijo.2, hq']
    by_cases harchivo : t.estado m i = ocupado
    · obtain ⟨u, ⟨n, hn⟩, hu⟩ := ends_eliminarArchivoCon hlib i t
      have hborrable : Borrable m s q i := ⟨hdebajo hcuelga, .inl (by rw [← hestado, harchivo])⟩
      refine ⟨u.ponerEstado m i borrado, ⟨n, fun fuel hfuel => ?_⟩, ?_, fun _ _ => ?_, ?_⟩
      · change (eliminarHijoCon m libera (recursion fuel) fuel q' i).eval t = _
        rw [eliminarHijoCon, eval_bind, eval_read, Option.bind_some, decide_eq_true hhijo]
        simp only [if_true]
        rw [eval_bind, eval_read, Option.bind_some, decide_eq_true harchivo]
        simp only [if_true]
        rw [eval_bind, hn fuel hfuel, Option.bind_some, eval_bind, eval_read, Option.bind_some,
          estado_ponerEstado]
        rfl
      · refine (ht.guarda hu).ponerEstado hborrable fun hcarpeta => ?_
        rw [← hestado, harchivo] at hcarpeta
        exact absurd hcarpeta (by decide)
      · exact estado_ponerEstado m u i borrado
      · exact SinRevivir.ponerEstado fun k hk hborrado => by rw [hu.estado hk, hborrado]
    by_cases hcarpeta : t.estado m i = directorio
    · obtain ⟨u, ⟨n, hn⟩, hu, hborrados, hmas⟩ := hrec t hcuelga (by rw [← hestado, hcarpeta]) ht
      have hborrable : Borrable m s q i := ⟨hdebajo hcuelga, .inr (by rw [← hestado, hcarpeta])⟩
      refine ⟨u.ponerEstado m i borrado, ⟨n, fun fuel hfuel => ?_⟩,
        hu.ponerEstado hborrable fun _ => hborrados,
        fun _ _ => estado_ponerEstado m u i borrado, hmas.ponerEstado⟩
      change (eliminarHijoCon m libera (recursion fuel) fuel q' i).eval t = _
      rw [eliminarHijoCon, eval_bind, eval_read, Option.bind_some, decide_eq_true hhijo]
      simp only [if_true]
      rw [eval_bind, eval_read, Option.bind_some, decide_eq_false harchivo]
      simp only [Bool.false_eq_true, if_false]
      rw [eval_bind, eval_read, Option.bind_some, decide_eq_true hcarpeta]
      simp only [if_true]
      exact eval_eliminarCarpeta (hn fuel hfuel)
    · refine ⟨t, ⟨0, fun fuel _ => eval_eliminarHijoCon_quieto (.inr ⟨harchivo, hcarpeta⟩)⟩, ht,
        fun _ htipo => ?_, fun _ _ h => h⟩
      rw [ArchivoOCarpeta, ← hestado] at htipo
      exact absurd htipo (by rw [not_or]; exact ⟨harchivo, hcarpeta⟩)
  · refine ⟨t, ⟨0, fun fuel _ => eval_eliminarHijoCon_quieto (.inl hhijo)⟩, ht,
      fun hcuelga _ => ?_, fun _ _ h => h⟩
    by_contra hvivo
    exact hhijo ⟨hvivo, by rw [ht.padre hi, hcuelga.2.2, hq']⟩

/-- The recursion ends, with everything below its node marked. The induction is on the node, whose
children come before it in the order that the table without cycles gives. -/
theorem Podando.recursivamente (hlib : LiberaNodos m libera) (hs : Aciclica m s) (j : ℕ) :
    ∀ t, j < cantidadNodos → (∀ k, Cuelga m s ((j : ℤ) + 1) k → Debajo m s q k) →
      Podando m q s t →
        ∃ u, Ends (fun fuel => eliminarRecursivamenteCon m libera fuel ((j : ℤ) + 1)) t ((), u) ∧
          Podando m q s u ∧ (∀ k, Borrable m s ((j : ℤ) + 1) k → u.estado m k = borrado) ∧
            SinRevivir m t u := by
  induction j using hs.wellFounded.induction with
  | h j ih =>
      intro t hj hhijos ht
      have hunsigned : unsigned ((j : ℤ) + 1) = (j : ℤ) + 1 := by
        rw [cantidadNodos] at hj
        exact unsigned_eq_self (by omega) (by omega)
      have hpaso : ∀ k ∈ List.range cantidadNodos, ∀ v, Podando m q s v ∧ SinRevivir m t v →
          ∃ w, Ends (fun fuel => eliminarHijoCon m libera (eliminarRecursivamenteCon m libera fuel)
            fuel ((j : ℤ) + 1) k) v ((), w) ∧ (Podando m q s w ∧ SinRevivir m t w) ∧
              (Cuelga m s ((j : ℤ) + 1) k → ArchivoOCarpeta m s k → w.estado m k = borrado) ∧
                SinRevivir m v w := by
        intro k hk v hv
        obtain ⟨w, hends, hw, hborrado, hmas⟩ := Podando.hijo hlib hunsigned
          (List.mem_range.1 hk) (hhijos k) (fun v hcuelga hcarpeta hv =>
            ih k hcuelga v hcuelga.1 (fun l hl => .nieto (hhijos k hcuelga) hcarpeta hl) hv) hv.1
        exact ⟨w, hends, ⟨hw, fun l hl hborrado => hmas l hl (hv.2 l hl hborrado)⟩, hborrado, hmas⟩
      obtain ⟨u, hends, ⟨hu, hmas⟩, hborrados, -⟩ := ends_forEach
        (P := fun v => Podando m q s v ∧ SinRevivir m t v)
        (Q := fun (k : ℕ) (v : Estado) => Cuelga m s ((j : ℤ) + 1) k → ArchivoOCarpeta m s k →
          v.estado m k = borrado)
        (fun k hk v hv => by
          obtain ⟨w, hends, hw, hborrado, hmas⟩ := hpaso k hk v hv
          exact ⟨w, hends, hw, hborrado,
            fun l hl hcuelga htipo => hmas l hcuelga.1 (hl hcuelga htipo)⟩)
        ⟨ht, fun _ _ h => h⟩
      refine ⟨u, Ends.of_succ hends, hu, fun k hk => ?_, hmas⟩
      obtain hcuelga | ⟨l, hl, hcarpeta, hdebajo⟩ := hk.1.cabeza
      · exact hborrados k (List.mem_range.2 hcuelga.1) hcuelga hk.2
      · have hborrado := hborrados l (List.mem_range.2 hl.1) hl (.inr hcarpeta)
        exact hu.cerrado l hl.1 hcarpeta hborrado k ⟨hdebajo, hk.2⟩

/-! ## The branch -/

/-- The state, the name and the father of node `i` are the same. -/
def MismoNodo (m : Montaje) (s t : Estado) (i : ℕ) : Prop :=
  t.estado m i = s.estado m i ∧
    bytesAt t.mem (dirNombre m i) 71 = bytesAt s.mem (dirNombre m i) 71 ∧
      t.padre m i = s.padre m i

/-- Node `d` and the nodes of `D` are marked, and all others are as they were. -/
structure RamaBorrada (m : Montaje) (d : ℕ) (D : Set ℕ) (s t : Estado) : Prop where
  borrados : ∀ i : ℕ, i < cantidadNodos →
    (t.estado m i = borrado ↔ s.estado m i = borrado ∨ i = d ∨ i ∈ D)
  otros : ∀ i : ℕ, i < cantidadNodos → i ≠ d → i ∉ D → MismoNodo m s t i

theorem Podando.mismoNodo (h : Podando m q s t) (hi : i < cantidadNodos)
    (hestado : t.estado m i = s.estado m i) : MismoNodo m s t i :=
  ⟨hestado, bytesAt_congr fun n hn =>
    h.campos i hi _ (by rw [dirNombre]; omega) (by rw [dirNombre]; omega), h.padre hi⟩

theorem mismoNodo_ponerEstado_of_ne (h : MismoNodo m s t i) (hne : i ≠ d) :
    MismoNodo m s (t.ponerEstado m d borrado) i := by
  have hd := nodo_eq m d
  have hi := nodo_eq m i
  refine ⟨?_, ?_, ?_⟩
  · rw [estado_ponerEstado_of_ne t hne]
    exact h.1
  · rw [← h.2.1]
    exact bytesAt_congr fun n hn =>
      ponerEstado_mem m t d (by rw [dirNombre, dirEstado]; omega)
  · rw [← h.2.2]
    exact load32_congr fun n hn => ponerEstado_mem m t d (by rw [dirPadre, dirEstado]; omega)

/-- A branch whose marks are all there, and its node. -/
theorem Podando.ramaBorrada (h : Podando m ((d : ℤ) + 1) s t)
    (hborrados : ∀ k, Borrable m s ((d : ℤ) + 1) k → t.estado m k = borrado) :
    RamaBorrada m d {k | Borrable m s ((d : ℤ) + 1) k} s (t.ponerEstado m d borrado) where
  borrados i hi := by
    rcases eq_or_ne i d with rfl | hne
    · exact iff_of_true (estado_ponerEstado m t i borrado) (.inr (.inl rfl))
    · rw [estado_ponerEstado_of_ne t hne]
      constructor
      · intro hborrado
        rcases h.solo i hi with heq | ⟨hmem, -⟩
        · exact .inl (by rw [← heq, hborrado])
        · exact .inr (.inr hmem)
      · rintro (hborrado | rfl | hmem)
        · rcases h.solo i hi with heq | ⟨-, heq⟩
          · rw [heq, hborrado]
          · exact heq
        · exact absurd rfl hne
        · exact hborrados i hmem
  otros i hi hne hmem := by
    refine mismoNodo_ponerEstado_of_ne (h.mismoNodo hi ?_) hne
    exact (h.solo i hi).resolve_right fun hborrado => hmem hborrado.1

theorem exists_ends_eliminarRama (hlib : LiberaNodos m libera) (hs : Aciclica m s)
    (hd : d < cantidadNodos) :
    ∃ t, Ends (eliminarRama m libera d) s ((), t) ∧
      RamaBorrada m d {k | Borrable m s ((d : ℤ) + 1) k} s t := by
  obtain ⟨t, hends, ht, hborrados, -⟩ := Podando.recursivamente hlib hs d s hd
    (fun k hk => .hijo hk) (.refl ((d : ℤ) + 1) s)
  refine ⟨t.ponerEstado m d borrado, hends.bind (ends_of_eval rfl), ht.ramaBorrada hborrados⟩

/-- In a table without cycles the removal of node `d` ends, whatever the node is. It marks the
node and the files and directories below it through directories; these are all that is below when
only directories have something below. -/
theorem eliminarRama_aciclica (m : Montaje) (libera : ℕ → ℤ → ℤ → ℤ → Codigo Unit)
    (hlib : LiberaNodos m libera) (s : Estado) (hs : Aciclica m s) (d : ℕ)
    (hd : d < cantidadNodos) :
    ∃ t, Ends (eliminarRama m libera d) s ((), t) ∧
      RamaBorrada m d {k | Borrable m s ((d : ℤ) + 1) k} s t ∧
        (TablaTipada m s → RamaBorrada m d {k | Desciende m s d k} s t) := by
  obtain ⟨t, hends, ht⟩ := exists_ends_eliminarRama hlib hs hd
  refine ⟨t, hends, ht, fun htipada => ?_⟩
  have hset : {k | Desciende m s d k} = {k | Borrable m s ((d : ℤ) + 1) k} :=
    Set.ext fun _ => htipada.borrable_iff.symm
  rw [hset]
  exact ht

/-- `o_rmdir` of a path whose node is in the table is the removal of its branch. -/
theorem ends_oRmdir {path : Ruta} (hnodo : nodoDe m s path.cola = (d : ℤ) + 1)
    (h : Ends (eliminarRama m (eliminarNodos m) d) s ((), t)) :
    Ends (fun fuel => oRmdir m fuel path) s (0, t) := by
  obtain ⟨n, hn⟩ := h
  refine ⟨n, fun fuel hfuel => ?_⟩
  obtain ⟨_, u, hrecursion, hmarca⟩ := eval_bind_some (hn fuel hfuel)
  have hd : (d : ℤ) + 1 - 1 = d := by omega
  change (oRmdir m fuel path).eval s = _
  rw [oRmdir, eval_bind, eval_dameNodoDe, Option.bind_some]
  dsimp only
  rw [if_neg (by omega), hnodo, eval_bind, eliminarRecursivamente, hrecursion,
    Option.bind_some, hd]
  cases hmarca
  rfl

/-! ## A file with something below -/

/-- What `eliminarNodos` does to a node without blocks. -/
def sinBloques : ℕ → ℤ → ℤ → ℤ → Codigo Unit := fun _ _ _ _ => pure ()

theorem liberaNodos_sinBloques (m : Montaje) : LiberaNodos m sinBloques where
  termina _ s := ⟨0, s, rfl⟩
  extiende _ _ := .refl _
  guarda _ _ _ _ heval := by
    cases heval
    exact fun _ _ _ _ _ => rfl

theorem aciclica_of_rango (rango : ℕ → ℕ)
    (h : ∀ i j : ℕ, Cuelga m s ((j : ℤ) + 1) i → rango j < rango i) : Aciclica m s := by
  have hlt : ∀ i j : ℕ, Desciende m s i j → rango i < rango j := by
    intro i j hij
    induction hij with
    | single hcuelga => exact h _ _ hcuelga
    | tail _ hcuelga ih => exact ih.trans (h _ _ hcuelga)
  exact fun i hi => lt_irrefl _ (hlt i i hi)

theorem eliminarRama_aciclica_carpeta :
    ∃ t, Ends (eliminarRama montajeChico sinBloques 0) carpetaConArchivo ((), t) ∧
      RamaBorrada montajeChico 0 {k | Borrable montajeChico carpetaConArchivo (((0 : ℕ) : ℤ) + 1) k}
        carpetaConArchivo t ∧
        (TablaTipada montajeChico carpetaConArchivo →
          RamaBorrada montajeChico 0 {k | Desciende montajeChico carpetaConArchivo 0 k}
            carpetaConArchivo t) := by
  obtain ⟨rango, hrango⟩ := sistemaValido_carpetaConArchivo.arbol
  exact eliminarRama_aciclica montajeChico sinBloques (liberaNodos_sinBloques _) carpetaConArchivo
    (aciclica_of_rango rango hrango) 0 (by decide)

/-- The file `/d/a/b`, node 2, below the file `/d/a`. -/
def archivoConHijo : Estado :=
  let mem := store carpetaConArchivo.mem (dirEstado montajeChico 2) [1, 98]
  (carpetaConArchivo.conMem mem).ponerPadre montajeChico 2 2

theorem estado_archivoConHijo {i : ℕ} (hi : i < cantidadNodos)
    (h : archivoConHijo.estado montajeChico i ≠ borrado) : i = 0 ∨ i = 1 ∨ i = 2 := by
  rcases eq_or_ne i 2 with rfl | hne
  · exact .inr (.inr rfl)
  · have hestado : archivoConHijo.estado montajeChico i =
        carpetaConArchivo.estado montajeChico i :=
      estado_conHijo montajeChico carpetaConArchivo 1 98 2 hne
    rw [hestado] at h
    exact (estado_carpetaConArchivo hi h).imp_right .inl

theorem nodos_archivoConHijo :
    archivoConHijo.estado montajeChico 1 = ocupado ∧
      archivoConHijo.estado montajeChico 2 = ocupado ∧
      archivoConHijo.padre montajeChico 0 = 0 ∧
      archivoConHijo.padre montajeChico 1 = 1 ∧
      archivoConHijo.padre montajeChico 2 = 2 := by
  decide +kernel

theorem aciclica_archivoConHijo : Aciclica montajeChico archivoConHijo := by
  obtain ⟨-, -, hpadre0, hpadre1, hpadre2⟩ := nodos_archivoConHijo
  refine aciclica_of_rango id fun i j h => ?_
  have hj := h.2.2
  rcases estado_archivoConHijo h.1 h.2.1 with rfl | rfl | rfl
  · rw [Nat.cast_zero, hpadre0] at hj
    omega
  · rw [Nat.cast_one, hpadre1] at hj
    simp only [id]
    omega
  · rw [Nat.cast_ofNat, hpadre2] at hj
    simp only [id]
    omega

/-- The removal of `/d` goes no further than `/d/a`: what is below a regular file stays. -/
theorem not_ramaBorrada_desciende :
    ¬ ∀ (m : Montaje) (libera : ℕ → ℤ → ℤ → ℤ → Codigo Unit), LiberaNodos m libera →
      ∀ s, Aciclica m s → ∀ d < cantidadNodos,
        ∃ t, Ends (eliminarRama m libera d) s ((), t) ∧
          RamaBorrada m d {k | Desciende m s d k} s t := by
  intro hclaim
  obtain ⟨hestado1, hestado2, -, hpadre1, hpadre2⟩ := nodos_archivoConHijo
  obtain ⟨t, hends, ht⟩ := hclaim montajeChico sinBloques (liberaNodos_sinBloques _) archivoConHijo
    aciclica_archivoConHijo 0 (by decide)
  obtain ⟨t', hends', ht'⟩ := exists_ends_eliminarRama (liberaNodos_sinBloques _)
    aciclica_archivoConHijo (d := 0) (by decide)
  cases hends.unique hends'
  have hcuelga1 : Cuelga montajeChico archivoConHijo (((0 : ℕ) : ℤ) + 1) 1 :=
    ⟨by decide, by rw [Nat.cast_one, hestado1]; decide, by rw [Nat.cast_one, hpadre1]; rfl⟩
  have hcuelga2 : Cuelga montajeChico archivoConHijo (((1 : ℕ) : ℤ) + 1) 2 :=
    ⟨by decide, by rw [Nat.cast_ofNat, hestado2]; decide, by rw [Nat.cast_ofNat, hpadre2]; rfl⟩
  have hdesciende : Desciende montajeChico archivoConHijo 0 2 := .tail (.single hcuelga1) hcuelga2
  have hborrado := (ht.borrados 2 (by decide)).2 (.inr (.inr hdesciende))
  rcases (ht'.borrados 2 (by decide)).1 hborrado with hvivo | hcero | ⟨hdebajo, -⟩
  · rw [Nat.cast_ofNat, hestado2] at hvivo
    exact absurd hvivo (by decide)
  · omega
  · cases hdebajo with
    | hijo h =>
        have hpadre := h.2.2
        rw [Nat.cast_ofNat, hpadre2] at hpadre
        omega
    | @nieto j _ _ hcarpeta h =>
        have hpadre := h.2.2
        rw [Nat.cast_ofNat, hpadre2] at hpadre
        obtain rfl : j = 1 := by omega
        rw [Nat.cast_one, hestado1] at hcarpeta
        exact absurd hcarpeta (by decide)

end Sac
