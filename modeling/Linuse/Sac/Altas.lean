import Linuse.Sac.Bitmap
import Linuse.Sac.Campos
import Linuse.Sac.Recorrido

/-!
# Creating a node

`o_create` and `o_mkdir` take the first slot of the table that is not in use. In a table
in which the fathers of nodes are nodes, siblings have different names and names end
inside their field, they return 0 exactly when nothing is at the path, its directory
exists and a slot is left; the path then resolves to that slot, and every path that
resolved resolves as before.
-/

namespace Sac

open Memory Locks Locks.Code

variable {m : Montaje} {s s' t : Estado}

/-! ## The table of nodes -/

/-- The bytes of the table of nodes. -/
def enTabla (m : Montaje) : Set ℤ := {x | m.nodo 0 ≤ x ∧ x < m.nodo 1024}

/-- The bytes of a slot of the table. -/
def enNodo (m : Montaje) (i : ℤ) : Set ℤ := {x | m.nodo i ≤ x ∧ x < m.nodo (i + 1)}

/-- The fathers of the nodes in use are the root or nodes in use, siblings have different
names, and names end inside their field. -/
structure TablaValida (m : Montaje) (s : Estado) : Prop where
  padres : ∀ i < cantidadNodos, s.estado m i ≠ borrado → s.padre m i = 0 ∨
    ∃ j < cantidadNodos, s.padre m i = (j : ℤ) + 1 ∧ s.estado m j ≠ borrado
  hermanos : ∀ i < cantidadNodos, ∀ j < cantidadNodos, s.estado m i ≠ borrado →
    s.estado m j ≠ borrado → s.padre m i = s.padre m j → ∀ nombre,
      isString s.mem (dirNombre m i) nombre = true →
      isString s.mem (dirNombre m j) nombre = true → i = j
  terminados : ∀ i < cantidadNodos, s.estado m i ≠ borrado →
    ∃ k : ℕ, k < 71 ∧ s.mem (dirNombre m i + k) = 0

/-! ## Names -/

/-- A string has no NUL before its end. -/
theorem isString_unico {mem : Mem} {a : ℤ} {l l' : List UInt8} (hl : 0 ∉ l) (hl' : 0 ∉ l')
    (h : isString mem a l = true) (h' : isString mem a l' = true) : l = l' := by
  induction l generalizing a l' with
  | nil =>
      cases l' with
      | nil => rfl
      | cons b l' =>
          simp only [isString, Bool.and_eq_true, beq_iff_eq] at h h'
          rw [h] at h'
          exact absurd (List.mem_cons.2 (Or.inl h'.1)) hl'
  | cons b l ih =>
      cases l' with
      | nil =>
          simp only [isString, Bool.and_eq_true, beq_iff_eq] at h h'
          rw [h'] at h
          exact absurd (List.mem_cons.2 (Or.inl h.1)) hl
      | cons b' l' =>
          simp only [isString, Bool.and_eq_true, beq_iff_eq] at h h'
          rw [List.mem_cons, not_or] at hl hl'
          rw [← h.1, ← h'.1, ih hl.2 hl'.2 h.2 h'.2]

/-- The bytes of a string are before the first NUL. -/
theorem isString_length_le {mem : Mem} {a : ℤ} {l : List UInt8} {k : ℕ} (hl : 0 ∉ l)
    (h : isString mem a l = true) (hk : mem (a + k) = 0) : l.length ≤ k := by
  induction l generalizing a k with
  | nil => exact Nat.zero_le _
  | cons b l ih =>
      simp only [isString, Bool.and_eq_true, beq_iff_eq] at h
      rw [List.mem_cons, not_or] at hl
      cases k with
      | zero =>
          rw [Nat.cast_zero, add_zero, h.1] at hk
          exact absurd hk.symm hl.1
      | succ k =>
          rw [Nat.cast_succ, add_comm (k : ℤ) 1, ← add_assoc] at hk
          rw [List.length_cons]
          exact Nat.succ_le_succ (ih hl.2 h.2 hk)

theorem isString_storeString (mem : Mem) (a : ℤ) (l : List UInt8) :
    isString (storeString mem a l) a l = true := by
  have hbyte : ∀ (i : ℕ) (hi : i < (l ++ [0]).length),
      storeString mem a l (a + i) = (l ++ [0])[i] := fun i hi => store_getElem hi
  generalize storeString mem a l = mem' at hbyte
  induction l generalizing a with
  | nil =>
      have h0 := hbyte 0 (by simp)
      rw [Nat.cast_zero, add_zero] at h0
      rw [isString, h0]
      rfl
  | cons b l ih =>
      have h0 := hbyte 0 (by simp)
      rw [Nat.cast_zero, add_zero] at h0
      rw [isString, h0, ih (a + 1), Bool.and_true]
      · simp
      · intro i hi
        have h := hbyte (i + 1) (by simpa using hi)
        rw [Nat.cast_succ, add_comm (i : ℤ) 1, ← add_assoc] at h
        simpa using h

/-! ## A new node -/

/-- The table of the second state is the one of the first with a new node in slot `i`. -/
structure Nace (m : Montaje) (i : ℕ) (padre : ℤ) (nombre : List UInt8) (s s' : Estado) :
    Prop where
  estado : s'.estado m i ≠ borrado
  padre : s'.padre m i = padre
  nombre : isString s'.mem (dirNombre m i) nombre = true
  resto : AgreeOn (enTabla m \ enNodo m i) s.mem s'.mem

/-- The other slots of the table. -/
theorem Nace.mem_eq {i j : ℕ} {padre : ℤ} {nombre : List UInt8} (h : Nace m i padre nombre s s')
    (hj : j < cantidadNodos) (hij : j ≠ i) {k : ℤ} (hk : 0 ≤ k) (hk' : k < 4096) :
    s'.mem (m.nodo j + k) = s.mem (m.nodo j + k) := by
  apply h.resto
  have hj0 := nodo_eq m j
  have hi0 := nodo_eq m i
  have hi1 := nodo_eq m (i + 1)
  have h1024 := nodo_eq m 1024
  rw [cantidadNodos] at hj
  simp only [enTabla, enNodo, Set.mem_sdiff, Set.mem_ofPred_eq]
  omega

theorem Nace.esHijo_iff {i j : ℕ} {padre q : ℤ} {nombre c : List UInt8}
    (h : Nace m i padre nombre s s') (hs : TablaValida m s) (hlibre : s.estado m i = borrado)
    (hi : i < cantidadNodos) (hnombre : 0 ∉ nombre) (hc : 0 ∉ c) :
    EsHijo m s' q c j ↔ EsHijo m s q c j ∨ j = i ∧ q = padre ∧ c = nombre := by
  rcases eq_or_ne j i with rfl | hij
  · constructor
    · intro hijo
      refine Or.inr ⟨rfl, ?_, isString_unico hc hnombre hijo.nombre h.nombre⟩
      rw [← hijo.padre, h.padre]
    · rintro (hijo | ⟨-, rfl, rfl⟩)
      · exact absurd hlibre hijo.enUso
      · exact ⟨hi, h.estado, h.padre, h.nombre⟩
  · have hiff : EsHijo m s' q c j ↔ EsHijo m s q c j := by
      by_cases hj : j < cantidadNodos
      · have hestado : s'.estado m j = s.estado m j := by
          have heq := h.mem_eq hj hij (k := 0) le_rfl (by omega)
          rwa [add_zero] at heq
        have hpadre : s'.padre m j = s.padre m j := by
          rw [Estado.padre, Estado.padre]
          refine load32_congr fun k hk => ?_
          rw [dirPadre, add_assoc]
          exact h.mem_eq hj hij (by omega) (by omega)
        have hmem : ∀ k : ℕ, k ≤ 71 → s'.mem (dirNombre m j + k) = s.mem (dirNombre m j + k) := by
          intro k hk
          rw [dirNombre, add_assoc]
          exact h.mem_eq hj hij (by omega) (by omega)
        constructor
        · intro hijo
          have hvivo : s.estado m j ≠ borrado := hestado ▸ hijo.enUso
          obtain ⟨k, hk, hcero⟩ := hs.terminados j hj hvivo
          have hlen := isString_length_le hc hijo.nombre ((hmem k (by omega)).trans hcero)
          refine ⟨hj, hvivo, hpadre ▸ hijo.padre, ?_⟩
          rw [← isString_congr fun n hn => hmem n (by omega)]
          exact hijo.nombre
        · intro hijo
          obtain ⟨k, hk, hcero⟩ := hs.terminados j hj hijo.enUso
          have hlen := isString_length_le hc hijo.nombre hcero
          refine ⟨hj, hestado ▸ hijo.enUso, hpadre ▸ hijo.padre, ?_⟩
          rw [isString_congr fun n hn => hmem n (by omega)]
          exact hijo.nombre
      · exact ⟨fun hijo => absurd hijo.enTabla hj, fun hijo => absurd hijo.enTabla hj⟩
    rw [hiff]
    exact ⟨Or.inl, fun hor => hor.elim id fun hj => absurd hj.1 hij⟩

/-! ## Paths in the new table -/

theorem TablaValida.sinHuerfanos (hs : TablaValida m s) : SinHuerfanos m s := by
  intro i hi hestado
  rcases hs.padres i hi hestado with h | ⟨j, hj, h, _⟩
  · omega
  · rw [cantidadNodos] at hj
    omega

theorem buscarNodo_of_isLeast {padre : ℤ} {nombre : List UInt8} {i : ℕ}
    (h : IsLeast {i | EsHijo m s padre nombre i} i) : buscarNodo m s padre nombre = i + 1 := by
  rcases buscarNodo_cases m s padre nombre with ⟨j, hj, heq⟩ | ⟨hnone, _⟩
  · rw [heq, hj.unique h]
  · exact absurd h.1 (hnone i)

/-- The parts of a path have no NUL either. -/
theorem sinNul_dividirRuta {cola superPath nombre : List UInt8} (h : 0 ∉ cola)
    (hpartes : dividirRuta cola = some (superPath, nombre)) : 0 ∉ superPath ∧ 0 ∉ nombre := by
  have hne : cola ≠ [] := by
    rintro rfl
    cases hpartes
  rw [dividirRuta_of_ne_nil hne, Option.some.injEq, Prod.mk.injEq] at hpartes
  obtain ⟨rfl, rfl⟩ := hpartes
  have hsub : ∀ b ∈ sinBarraFinal cola, b ∈ cola := by
    intro b hb
    rw [sinBarraFinal] at hb
    split_ifs at hb
    · exact List.dropLast_subset _ hb
    · exact hb
  exact ⟨fun hmem => h (hsub 0 ((List.rdropWhile_prefix _ _).subset hmem)),
    fun hmem => h (hsub 0 ((List.rtakeWhile_suffix _ _).subset hmem))⟩

section Caminos

variable {i : ℕ} {padre : ℤ} {nombre : List UInt8} (h : Nace m i padre nombre s s')
  (hs : TablaValida m s) (hlibre : s.estado m i = borrado) (hi : i < cantidadNodos)
  (hnombre : 0 ∉ nombre) (hfalta : buscarNodo m s padre nombre = -1)

include h hs hlibre hi hnombre hfalta

/-- A search that found a node finds it in the new table. -/
theorem Nace.buscarNodo_eq {q : ℤ} {c : List UInt8} (hc : 0 ∉ c)
    (hbuscar : buscarNodo m s q c ≠ -1) :
    buscarNodo m s' q c = buscarNodo m s q c := by
  have hset : {j | EsHijo m s' q c j} = {j | EsHijo m s q c j} := by
    ext j
    refine (h.esHijo_iff hs hlibre hi hnombre hc).trans ⟨fun hor => ?_, Or.inl⟩
    rcases hor with hijo | ⟨_, rfl, rfl⟩
    · exact hijo
    · exact absurd hfalta hbuscar
  rcases buscarNodo_cases m s q c with ⟨j, hj, heq⟩ | ⟨_, heq⟩
  · rw [heq]
    rw [← hset] at hj
    exact buscarNodo_of_isLeast hj
  · exact absurd heq hbuscar

/-- The search of the new node finds it. -/
theorem Nace.buscarNodo_nuevo : buscarNodo m s' padre nombre = i + 1 := by
  rcases buscarNodo_cases m s padre nombre with ⟨j, _, heq⟩ | ⟨hnone, _⟩
  · omega
  · refine buscarNodo_of_isLeast ⟨?_, fun j hj => ?_⟩
    · exact (h.esHijo_iff hs hlibre hi hnombre hnombre).2 (Or.inr ⟨rfl, rfl, rfl⟩)
    · rcases (h.esHijo_iff hs hlibre hi hnombre hnombre).1 hj with hijo | ⟨rfl, _⟩
      · exact absurd hijo (hnone j)
      · exact le_rfl

/-- A path that resolved resolves to the same node. -/
theorem Nace.nodoDe_eq {cola : List UInt8} (hcola : 0 ∉ cola) (hnodo : nodoDe m s cola ≠ -1) :
    nodoDe m s' cola = nodoDe m s cola := by
  induction hn : cola.length using Nat.strong_induction_on generalizing cola with
  | _ n ih =>
      rcases eq_or_ne cola [] with rfl | hne
      · rw [nodoDe_nil, nodoDe_nil]
      · have hpartes := dividirRuta_of_ne_nil hne
        have hlt := length_super_lt hne
        generalize (sinBarraFinal cola).rdropWhile (· != 47) = superPath at hpartes hlt
        generalize (sinBarraFinal cola).rtakeWhile (· != 47) = c at hpartes
        obtain ⟨hsuper, hc⟩ := sinNul_dividirRuta hcola hpartes
        rw [Sac.nodoDe_eq m s hpartes] at hnodo ⊢
        have hresuelto : nodoDe m s superPath ≠ -1 := by
          intro heq
          rw [heq] at hnodo
          rcases buscarNodo_cases m s (unsigned (-1)) c with ⟨j, hj, _⟩ | ⟨_, heq⟩
          · exact hs.sinHuerfanos j hj.1.enTabla hj.1.enUso hj.1.padre
          · exact hnodo heq
        rw [Sac.nodoDe_eq m s' hpartes, ih _ (hn ▸ hlt) hsuper hresuelto rfl]
        exact h.buscarNodo_eq hs hlibre hi hnombre hfalta hc hnodo

end Caminos

/-! ## What the writes of a creation leave -/

/-- The bytes of the table but those of slot `i` after its name and its father. -/
def salvoDatos (m : Montaje) (i : ℤ) : Set ℤ :=
  {x ∈ enTabla m | x < dirTamanio m i ∨ m.nodo (i + 1) ≤ x}

/-- The first writes of `o_create` and `o_mkdir` in slot `i`. -/
def nodoNuevo (m : Montaje) (i : ℤ) (estado : UInt8) (nombre : List UInt8) (padre : ℤ)
    (s : Estado) : Estado :=
  (((s.ponerEstado m i estado).ponerNombre m i nombre).ponerTamanio m i 0).ponerPadre m i padre

theorem estado_nodoNuevo {i : ℤ} {estado : UInt8} {nombre : List UInt8} {padre : ℤ} :
    (nodoNuevo m i estado nombre padre s).estado m i = estado := by
  rw [Estado.estado, nodoNuevo, ponerPadre_mem _ _ _ (by rw [dirEstado, dirPadre]; omega),
    ponerTamanio_mem _ _ _ (by rw [dirEstado, dirTamanio]; omega),
    ponerNombre_mem _ _ _ (by rw [dirEstado, dirNombre]; omega)]
  exact estado_ponerEstado m s i estado

/-- The first writes are in the slot. -/
theorem nodoNuevo_mem {i : ℤ} {estado : UInt8} {nombre : List UInt8} {padre x : ℤ}
    (hnombre : nombre.length ≤ 70) (hx : x < m.nodo i ∨ m.nodo (i + 1) ≤ x) (s : Estado) :
    (nodoNuevo m i estado nombre padre s).mem x = s.mem x := by
  have hi0 := nodo_eq m i
  have hi1 := nodo_eq m (i + 1)
  rw [nodoNuevo, ponerPadre_mem _ _ _ (by rw [dirPadre]; omega),
    ponerTamanio_mem _ _ _ (by rw [dirTamanio]; omega),
    ponerNombre_mem _ _ _ (by rw [dirNombre]; omega),
    ponerEstado_mem _ _ _ (by rw [dirEstado]; omega)]

theorem nace_nodoNuevo {i : ℕ} {estado : UInt8} {nombre : List UInt8} {padre : ℤ}
    (s : Estado) (hestado : estado ≠ borrado) (hnombre : nombre.length ≤ 70) (h0 : 0 ≤ padre)
    (hpadre : padre < 4294967296) :
    Nace m i padre nombre s (nodoNuevo m i estado nombre padre s) := by
  have hi0 := nodo_eq m i
  have hi1 := nodo_eq m (i + 1)
  constructor
  · rw [estado_nodoNuevo]
    exact hestado
  · rw [nodoNuevo, padre_ponerPadre, unsigned_eq_self h0 hpadre]
  · have hmem : ∀ n : ℕ, n ≤ nombre.length →
        (nodoNuevo m i estado nombre padre s).mem (dirNombre m i + n) =
          ((s.ponerEstado m i estado).ponerNombre m i nombre).mem (dirNombre m i + n) := by
      intro n hn
      rw [nodoNuevo, ponerPadre_mem _ _ _ (by rw [dirNombre, dirPadre]; omega),
        ponerTamanio_mem _ _ _ (by rw [dirNombre, dirTamanio]; omega)]
    rw [isString_congr hmem]
    exact isString_storeString _ _ _
  · intro x hx
    simp only [enTabla, enNodo, Set.mem_sdiff, Set.mem_ofPred_eq] at hx
    exact nodoNuevo_mem hnombre (by omega) s

/-- Writes after the name and the father of the slot do not matter. -/
theorem Nace.trans {i : ℕ} {padre : ℤ} {nombre : List UInt8} (h : Nace m i padre nombre s t)
    (hi : i < cantidadNodos) (hnombre : nombre.length ≤ 70)
    (h' : AgreeOn (salvoDatos m i) t.mem s'.mem) : Nace m i padre nombre s s' := by
  have hi0 := nodo_eq m i
  have hi1 := nodo_eq m (i + 1)
  have h1024 := nodo_eq m 1024
  rw [cantidadNodos] at hi
  have hcampo : ∀ k : ℤ, 0 ≤ k → k < 76 → s'.mem (m.nodo i + k) = t.mem (m.nodo i + k) := by
    intro k hk hk'
    apply h'
    simp only [salvoDatos, enTabla, dirTamanio, Set.mem_ofPred_eq]
    omega
  constructor
  · have hestado : s'.estado m i = t.estado m i := by
      have heq := hcampo 0 le_rfl (by omega)
      rwa [add_zero] at heq
    rw [hestado]
    exact h.estado
  · rw [← h.padre, Estado.padre, Estado.padre]
    refine load32_congr fun k hk => ?_
    rw [dirPadre, add_assoc]
    exact hcampo _ (by omega) (by omega)
  · rw [← h.nombre]
    refine isString_congr fun k hk => ?_
    rw [dirNombre, add_assoc]
    exact hcampo _ (by omega) (by omega)
  · intro x hx
    rw [← h.resto x hx]
    apply h'
    simp only [salvoDatos, enTabla, enNodo, dirTamanio, Set.mem_sdiff, Set.mem_ofPred_eq] at hx ⊢
    omega

/-! ## `o_create` -/

/-- Two data blocks are free, with their bits in the bitmap. -/
def DosLibres (m : Montaje) (s : Estado) : Prop :=
  ∃ b c : ℤ, m.base ≤ b ∧ b < c ∧ c < m.bloques ∧ c / 8 < 4096 * m.tamanioBitmap ∧
    s.testBit m b = false ∧ s.testBit m c = false

theorem testBit_of_mem_eq {b : ℤ}
    (h : s'.mem (bitmapStart + b / 8) = s.mem (bitmapStart + b / 8)) :
    s'.testBit m b = s.testBit m b := by
  rw [Estado.testBit, h, Estado.testBit]

theorem primerLibre_of_bitmap {b : ℤ} (hbase : m.base ≤ b) (hmax : b < m.bloques)
    (hbit : b / 8 < 4096 * m.tamanioBitmap) (hlibre : s.testBit m b = false) :
    ∃ c, primerLibre m s = some c ∧ m.base ≤ c ∧ c ≤ b ∧ c / 8 < 4096 * m.tamanioBitmap := by
  obtain ⟨c, hc, hle⟩ := primerLibre_of_libre hbase (by rw [Montaje.maxBit]; omega) hlibre
  exact ⟨c, hc, (primerLibre_eq_some hc).1, hle, by omega⟩

/-- Writes outside the bytes that matter. -/
theorem agreeOn_setBit {i b : ℤ} (hb : b / 8 < 4096 * m.tamanioBitmap) (s : Estado) :
    AgreeOn (salvoDatos m i) s.mem (s.setBit m b).mem := by
  intro x hx
  have h0 := nodo_cero m
  simp only [salvoDatos, enTabla, Set.mem_ofPred_eq] at hx
  exact setBit_of_ne s (by omega)

theorem agreeOn_ponerIndirecto {i p v : ℤ} (hp : 0 ≤ p) (hp' : p < 1000) (s : Estado) :
    AgreeOn (salvoDatos m i) s.mem (s.ponerIndirecto m i p v).mem := by
  intro x hx
  have hi := nodo_eq m i
  have hi1 := nodo_eq m (i + 1)
  simp only [salvoDatos, dirTamanio, Set.mem_ofPred_eq] at hx
  exact ponerIndirecto_mem m s i (by rw [dirIndirecto]; omega)

theorem agreeOn_conPunteros {i b nuevo : ℤ} (hnuevo : m.base ≤ nuevo) (s : Estado) :
    AgreeOn (salvoDatos m i) s.mem (conPunteros m i 0 nuevo b s).mem := by
  intro x hx
  have h1024 := nodo_eq m 1024
  have hbase := bloque_base m
  have hcabecera := headerStart_eq m nuevo
  have hbloque := bloque_eq m nuevo
  have hx' : x < m.nodo 1024 := by
    simp only [salvoDatos, enTabla, Set.mem_ofPred_eq] at hx
    exact hx.1.2
  rw [conPunteros, ponerPuntero_mem _ _ (by omega),
    agreeOn_ponerIndirecto (by omega) (by omega) _ x hx,
    agreeOn_ponerIndirecto (by omega) (by omega) _ x hx, conMem_fill_mem _ (by omega)]

/-- The writes of `o_create` in the slot after its name and its father. -/
def conFechas (m : Montaje) (i : ℤ) (ahora : ℕ) (s : Estado) : Estado :=
  ((s.ponerIndirecto m i 0 0).ponerModificacion m i ahora).ponerCreacion m i ahora

theorem agreeOn_conFechas {i : ℤ} {ahora : ℕ} (s : Estado) :
    AgreeOn (salvoDatos m i ∪ {x | x < m.nodo i}) s.mem (conFechas m i ahora s).mem := by
  intro x hx
  have hi := nodo_eq m i
  have hi1 := nodo_eq m (i + 1)
  simp only [salvoDatos, dirTamanio, Set.mem_union, Set.mem_ofPred_eq] at hx
  rw [conFechas, ponerCreacion_mem _ _ _ (by rw [dirCreacion]; omega),
    ponerModificacion_mem _ _ _ (by rw [dirModificacion]; omega),
    ponerIndirecto_mem _ _ _ (by rw [dirIndirecto]; omega)]

theorem tamanio_conFechas {i : ℤ} {ahora : ℕ} (s : Estado) :
    (conFechas m i ahora s).tamanio m i = s.tamanio m i := by
  rw [Estado.tamanio, Estado.tamanio]
  refine load32_congr fun k hk => ?_
  rw [conFechas, ponerCreacion_mem _ _ _ (by rw [dirTamanio, dirCreacion]; omega),
    ponerModificacion_mem _ _ _ (by rw [dirTamanio, dirModificacion]; omega),
    ponerIndirecto_mem _ _ _ (by rw [dirTamanio, dirIndirecto]; omega)]

theorem tamanio_nodoNuevo {i : ℤ} {estado : UInt8} {nombre : List UInt8} {padre : ℤ} :
    (nodoNuevo m i estado nombre padre s).tamanio m i = 0 := by
  have h := tamanio_ponerTamanio m ((s.ponerEstado m i estado).ponerNombre m i nombre) i 0
  have hsame : (nodoNuevo m i estado nombre padre s).tamanio m i =
      (((s.ponerEstado m i estado).ponerNombre m i nombre).ponerTamanio m i 0).tamanio m i := by
    rw [Estado.tamanio, Estado.tamanio]
    refine load32_congr fun k hk => ?_
    rw [nodoNuevo, ponerPadre_mem _ _ _ (by rw [dirTamanio, dirPadre]; omega)]
  rw [hsame, h]
  rfl

/-- Writes that change neither the size nor the bit of the new block. -/
theorem tamanio_setBit {i b : ℤ} (hi : 0 ≤ i) (hb : b / 8 < 4096 * m.tamanioBitmap)
    (s : Estado) : (s.setBit m b).tamanio m i = s.tamanio m i := by
  have h0 := nodo_cero m
  have hi0 := nodo_eq m i
  rw [Estado.tamanio, Estado.tamanio]
  exact load32_congr fun k hk => setBit_of_ne s (by rw [dirTamanio]; omega)

/-- The state after `o_create` has given slot `i` the data block `d` and the pointer block `e`. -/
def conBloques (m : Montaje) (i d e : ℤ) (t : Estado) : Estado :=
  let u := conPunteros m i 0 e d ((t.setBit m d).setBit m e)
  u.conMem (fill u.mem (m.bloque d) 4096 0)

/-- The writes before `o_create` looks for a block leave the bitmap. -/
theorem testBit_conFechas {i : ℕ} {b : ℤ} (nombre : List UInt8) (padre : ℤ) (ahora : ℕ)
    (hb : b / 8 < 4096 * m.tamanioBitmap) :
    (conFechas m i ahora (nodoNuevo m i ocupado nombre padre s)).testBit m b = s.testBit m b := by
  have h0 := nodo_cero m
  have hi0 := nodo_eq m i
  refine testBit_of_mem_eq ?_
  rw [agreeOn_conFechas _ _ (Or.inr (by simp only [Set.mem_ofPred_eq]; omega)), nodoNuevo,
    ponerPadre_mem _ _ _ (by rw [dirPadre]; omega),
    ponerTamanio_mem _ _ _ (by rw [dirTamanio]; omega),
    ponerNombre_mem _ _ _ (by rw [dirNombre]; omega),
    ponerEstado_mem _ _ _ (by rw [dirEstado]; omega)]

/-- With the blocks `b` and `c` free, `o_create` takes two that are not after them. -/
theorem crearArchivo_libres {i : ℕ} (hi : nodoLibre m s = some i) {b c : ℤ} (hb : m.base ≤ b)
    (hbc : b < c) (hc : c < m.bloques) (hbit : c / 8 < 4096 * m.tamanioBitmap)
    (hlibreb : s.testBit m b = false) (hlibrec : s.testBit m c = false) (nombre : List UInt8)
    (padre : ℤ) (ahora : ℕ) :
    ∃ d e : ℤ, m.base ≤ d ∧ d ≤ b ∧ d < e ∧ e ≤ c ∧ s.testBit m d = false ∧
      s.testBit m e = false ∧ crearArchivo m ahora nombre padre s =
        some (0,
          conBloques m i d e (conFechas m i ahora (nodoNuevo m i ocupado nombre padre s))) := by
  set t := conFechas m i ahora (nodoNuevo m i ocupado nombre padre s) with ht
  have htest : ∀ x : ℤ, x / 8 < 4096 * m.tamanioBitmap → t.testBit m x = s.testBit m x :=
    fun x hx => testBit_conFechas nombre padre ahora hx
  have htamanio : t.tamanio m i = 0 := (tamanio_conFechas _).trans tamanio_nodoNuevo
  obtain ⟨d, hd, hdbase, hdb, hdbit⟩ := primerLibre_of_bitmap (s := t) hb (by omega) (by omega)
    ((htest b (by omega)).trans hlibreb)
  obtain ⟨e, he, hebase, hec, hebit⟩ := primerLibre_of_bitmap (s := t.setBit m d) (b := c)
    (by omega) hc hbit
    (by rw [testBit_setBit, htest c hbit, hlibrec, decide_eq_false (by omega)]; rfl)
  have hposicion : settearPosicion ((t.setBit m d).tamanio m i) = (0, 0) := by
    rw [tamanio_setBit (by omega) hdbit, htamanio]
    rfl
  have hagregar := agregarBloqueLibre_primero d hposicion
  rw [obtenerBloqueLibre_eq he, Option.map_some] at hagregar
  obtain ⟨-, -, hdlibre, hprimero⟩ := primerLibre_eq_some hd
  have helibre := (primerLibre_eq_some he).2.2.1
  rw [testBit_setBit, Bool.or_eq_false_iff, decide_eq_false_iff_not] at helibre
  have hde : d < e := by
    by_contra hle
    have hocupado := hprimero e hebase (by omega)
    rw [helibre.2] at hocupado
    cases hocupado
  rw [htest e hebit] at helibre
  rw [htest d hdbit] at hdlibre
  refine ⟨d, e, hdbase, hdb, hde, hec, hdlibre, helibre.2, ?_⟩
  have hobtener := obtenerBloqueLibre_eq hd
  rw [crearArchivo, hi]
  change ((obtenerBloqueLibre m t).bind fun r => (agregarBloqueLibre m i r.1 r.2).bind fun q =>
    some (0, q.2.conMem (fill q.2.mem (m.bloque r.1) 4096 0))) = _
  rw [hobtener, Option.bind_some, hagregar, Option.bind_some]
  rfl

/-- With two free blocks `o_create` takes two. -/
theorem crearArchivo_eq {i : ℕ} (hi : nodoLibre m s = some i) (hlibres : DosLibres m s)
    (nombre : List UInt8) (padre : ℤ) (ahora : ℕ) :
    ∃ d e : ℤ, (m.base ≤ d ∧ d < m.bloques ∧ d / 8 < 4096 * m.tamanioBitmap ∧
        s.testBit m d = false) ∧
      (m.base ≤ e ∧ e < m.bloques ∧ e / 8 < 4096 * m.tamanioBitmap ∧ s.testBit m e = false) ∧
      d ≠ e ∧ crearArchivo m ahora nombre padre s =
        some (0,
          conBloques m i d e (conFechas m i ahora (nodoNuevo m i ocupado nombre padre s))) := by
  obtain ⟨b, c, hb, hbc, hc, hbit, hlibreb, hlibrec⟩ := hlibres
  obtain ⟨d, e, hd, hdb, hde, hec, hdlibre, helibre, hcrear⟩ :=
    crearArchivo_libres hi hb hbc hc hbit hlibreb hlibrec nombre padre ahora
  exact ⟨d, e, ⟨hd, by omega, by omega, hdlibre⟩, ⟨by omega, by omega, by omega, helibre⟩,
    by omega, hcrear⟩

theorem crearArchivo_nace {i : ℕ} (hi : nodoLibre m s = some i) (hlibres : DosLibres m s)
    (nombre : List UInt8) (padre : ℤ) (ahora : ℕ) :
    ∃ s', crearArchivo m ahora nombre padre s = some (0, s') ∧
      AgreeOn (salvoDatos m i) (nodoNuevo m i ocupado nombre padre s).mem s'.mem := by
  obtain ⟨d, e, ⟨hdbase, -, hdbit, -⟩, ⟨hebase, -, hebit, -⟩, -, hcrear⟩ :=
    crearArchivo_eq hi hlibres nombre padre ahora
  refine ⟨_, hcrear, fun x hx => ?_⟩
  have hbase := bloque_base m
  have hbloque := bloque_eq m d
  have h1024 := nodo_eq m 1024
  have hx' : x < m.nodo 1024 := by
    simp only [salvoDatos, enTabla, Set.mem_ofPred_eq] at hx
    exact hx.1.2
  rw [conBloques, conMem_fill_mem _ (by omega), agreeOn_conPunteros hebase _ x hx,
    agreeOn_setBit hebit _ x hx, agreeOn_setBit hdbit _ x hx, agreeOn_conFechas _ x (Or.inl hx)]

/-! ## The effect of a creation -/

/-- A node can be created at the path: nothing is there, its directory resolves and a
slot is not in use. -/
def Creable (m : Montaje) (s : Estado) (path : Ruta) : Prop :=
  nodoDe m s path.cola = -1 ∧
    (∃ partes, dividirRuta path.cola = some partes ∧ nodoDe m s partes.1 ≠ -1) ∧
    ∃ i < cantidadNodos, s.estado m i = borrado

/-- A slot that was not in use is, no other changes, the path resolves to it, and every
path that resolved resolves to the same node. -/
def Creado (m : Montaje) (path : Ruta) (s s' : Estado) : Prop :=
  ∃ i < cantidadNodos, s.estado m i = borrado ∧ s'.estado m i ≠ borrado ∧
    AgreeOn (enTabla m \ enNodo m i) s.mem s'.mem ∧ nodoDe m s' path.cola = i + 1 ∧
    ∀ otra : Ruta, nodoDe m s otra.cola ≠ -1 → nodoDe m s' otra.cola = nodoDe m s otra.cola

/-- The code returns 0 exactly when a node can be created at the path; then it creates
one, and otherwise the table stays as it was. -/
def CreaNodo (m : Montaje) (path : Ruta) (p : Codigo ℤ) (s : Estado) : Prop :=
  ∃ res s', p.eval s = some (res, s') ∧ (res = 0 ↔ Creable m s path) ∧
    (res = 0 → Creado m path s s') ∧ (res ≠ 0 → AgreeOn (enTabla m) s.mem s'.mem)

theorem nodoLibre_eq_some {i : ℕ} (h : nodoLibre m s = some i) :
    i < cantidadNodos ∧ s.estado m i = borrado := by
  rw [nodoLibre, List.find?_range_eq_some] at h
  exact ⟨List.mem_range.1 h.2.1, by simpa using h.1⟩

theorem nodoLibre_eq_none (h : nodoLibre m s = none) :
    ¬ ∃ i < cantidadNodos, s.estado m i = borrado := by
  rintro ⟨i, hi, hestado⟩
  rw [nodoLibre, List.find?_eq_none] at h
  exact h i (List.mem_range.2 hi) (by simpa using hestado)

/-- The node of a path fits in the field of a father. -/
theorem nodoDe_bounds (m : Montaje) (s : Estado) {cola : List UInt8}
    (h : nodoDe m s cola ≠ -1) : 0 ≤ nodoDe m s cola ∧ nodoDe m s cola < 4294967296 := by
  rcases nodoDe_cases m s cola with heq | heq | ⟨i, hi, heq, _⟩
  · exact absurd heq h
  · omega
  · rw [cantidadNodos] at hi
    omega

/-- What a creation answers, as a function of the state. -/
theorem eval_oNuevo {path : Ruta} (crear : List UInt8 → ℤ → Estado → Option (ℤ × Estado)) :
    (oNuevo m path crear).eval s =
      if nodoDe m s path.cola ≠ -1 then some (1, s)
      else (dividirRuta path.cola).bind fun partes =>
        if nodoDe m s partes.1 < 0 then some (1, s)
        else crear partes.2 (nodoDe m s partes.1) s := by
  rw [oNuevo, eval_bind, eval_dameNodoDe, Option.bind_some]
  split_ifs
  · rfl
  · rw [eval_bind, eval_orFail]
    cases dividirRuta path.cola with
    | none => rfl
    | some partes =>
        rw [Option.map_some, Option.bind_some, Option.bind_some, eval_bind, eval_dameNodoDe,
          Option.bind_some]
        split_ifs
        · rfl
        · simp

/-- With nothing at the path and its directory there, a creation is its write section. -/
theorem eval_oNuevo_of_falta {path : Ruta} {madre nombre : List UInt8}
    {crear : List UInt8 → ℤ → Estado → Option (ℤ × Estado)} (hfalta : nodoDe m s path.cola = -1)
    (hpartes : dividirRuta path.cola = some (madre, nombre)) (hmadre : nodoDe m s madre ≠ -1) :
    (oNuevo m path crear).eval s = crear nombre (nodoDe m s madre) s := by
  have hpos := (nodoDe_bounds m s hmadre).1
  rw [eval_oNuevo, if_neg (not_not.2 hfalta), hpartes, Option.bind_some, if_neg (not_lt.2 hpos)]

/-- A creation does nothing, or creates in the directory of the path. -/
theorem oNuevo_cases {path : Ruta} {res : ℤ}
    {crear : List UInt8 → ℤ → Estado → Option (ℤ × Estado)}
    (heval : (oNuevo m path crear).eval s = some (res, s')) :
    s' = s ∨ nodoDe m s path.cola = -1 ∧ ∃ partes, dividirRuta path.cola = some partes ∧
      nodoDe m s partes.1 ≠ -1 ∧ crear partes.2 (nodoDe m s partes.1) s = some (res, s') := by
  rw [eval_oNuevo] at heval
  split_ifs at heval with hexiste
  · cases heval
    exact .inl rfl
  obtain ⟨partes, hdividir, hcrear⟩ := Option.bind_eq_some_iff.1 heval
  split_ifs at hcrear with hmadre
  · cases hcrear
    exact .inl rfl
  · exact .inr ⟨not_not.1 hexiste, partes, hdividir, by omega, hcrear⟩

/-- Both creations: what is left to know is that the write section puts a node in the
first slot that is not in use, and fails when there is none. -/
theorem creaNodo_oNuevo (hs : TablaValida m s) {path : Ruta}
    (hpath : ∀ c ∈ componentes path.cola, 1 ≤ c.length ∧ c.length ≤ 70)
    {crear : List UInt8 → ℤ → Estado → Option (ℤ × Estado)}
    (hlleno : nodoLibre m s = none → ∀ nombre padre, ∃ res, res ≠ 0 ∧
      crear nombre padre s = some (res, s))
    (hlugar : ∀ i, nodoLibre m s = some i → ∀ nombre padre, ∃ s' estado, estado ≠ borrado ∧
      crear nombre padre s = some (0, s') ∧
      AgreeOn (salvoDatos m i) (nodoNuevo m i estado nombre padre s).mem s'.mem) :
    CreaNodo m path (oNuevo m path crear) s := by
  by_cases hexiste : nodoDe m s path.cola = -1
  · have hne : path.cola ≠ [] := by
      intro heq
      rw [heq, nodoDe_nil] at hexiste
      cases hexiste
    have hpartes := dividirRuta_of_ne_nil hne
    generalize (sinBarraFinal path.cola).rdropWhile (· != 47) = madre at hpartes
    generalize (sinBarraFinal path.cola).rtakeWhile (· != 47) = nombre at hpartes
    obtain ⟨hsinNul, hnombre⟩ := sinNul_dividirRuta path.sinNul hpartes
    by_cases hmadre : nodoDe m s madre = -1
    · refine ⟨1, s, ?_, ?_, fun h => absurd h one_ne_zero, fun _ => .refl _ _⟩
      · simp [oNuevo, hexiste, hpartes, hmadre]
      · refine ⟨fun h => absurd h one_ne_zero, ?_⟩
        rintro ⟨_, ⟨partes, hp, hresuelve⟩, _⟩
        rw [hpartes, Option.some.injEq] at hp
        rw [← hp] at hresuelve
        exact absurd hmadre hresuelve
    · obtain ⟨h0, hmax⟩ := nodoDe_bounds m s hmadre
      have heval : (oNuevo m path crear).eval s = crear nombre (nodoDe m s madre) s :=
        eval_oNuevo_of_falta hexiste hpartes hmadre
      cases hlibre : nodoLibre m s with
      | none =>
          obtain ⟨res, hres, hcrear⟩ := hlleno hlibre nombre (nodoDe m s madre)
          refine ⟨res, s, heval.trans hcrear, ?_, fun h => absurd h hres, fun _ => .refl _ _⟩
          exact ⟨fun h => absurd h hres, fun h => absurd h.2.2 (nodoLibre_eq_none hlibre)⟩
      | some i =>
          obtain ⟨s', estado, hestado, hcrear, hagree⟩ := hlugar i hlibre nombre (nodoDe m s madre)
          obtain ⟨hi, hborrado⟩ := nodoLibre_eq_some hlibre
          have hmem : nombre ∈ componentes path.cola := by
            rw [componentes_eq hpartes]
            simp
          have hlargo := (hpath nombre hmem).2
          have hnace := (nace_nodoNuevo (m := m) s hestado hlargo h0 hmax).trans hi hlargo hagree
          have hbuscar : buscarNodo m s (nodoDe m s madre) nombre = -1 := by
            rw [nodoDe_eq m s hpartes, unsigned_eq_self h0 hmax] at hexiste
            exact hexiste
          have hnodoDe := fun otra : Ruta =>
            hnace.nodoDe_eq hs hborrado hi hnombre hbuscar otra.sinNul
          refine ⟨0, s', heval.trans hcrear, ?_, fun _ => ?_, fun h => absurd rfl h⟩
          · exact ⟨fun _ => ⟨hexiste, ⟨(madre, nombre), hpartes, hmadre⟩, i, hi, hborrado⟩,
              fun _ => rfl⟩
          · refine ⟨i, hi, hborrado, hnace.estado, hnace.resto, ?_, hnodoDe⟩
            rw [nodoDe_eq m s' hpartes,
              hnace.nodoDe_eq hs hborrado hi hnombre hbuscar hsinNul hmadre,
              unsigned_eq_self h0 hmax]
            exact hnace.buscarNodo_nuevo hs hborrado hi hnombre hbuscar
  · refine ⟨1, s, ?_, ?_, fun h => absurd h one_ne_zero, fun _ => .refl _ _⟩
    · simp [oNuevo, hexiste]
    · exact ⟨fun h => absurd h one_ne_zero, fun h => absurd h.1 hexiste⟩

theorem creaNodo_oMkdir (hs : TablaValida m s) {path : Ruta}
    (hpath : ∀ c ∈ componentes path.cola, 1 ≤ c.length ∧ c.length ≤ 70) :
    CreaNodo m path (oMkdir m path) s := by
  refine creaNodo_oNuevo hs hpath ?_ ?_
  · intro hlibre nombre padre
    exact ⟨1, one_ne_zero, by rw [crearDirectorio, hlibre]; rfl⟩
  · intro i hlibre nombre padre
    exact ⟨_, directorio, by decide, by rw [crearDirectorio, hlibre]; rfl, .refl _ _⟩

theorem creaNodo_oCreate (hs : TablaValida m s) (hlibres : DosLibres m s) {path : Ruta}
    (hpath : ∀ c ∈ componentes path.cola, 1 ≤ c.length ∧ c.length ≤ 70) (ahora : ℕ) :
    CreaNodo m path (oCreate m ahora path) s := by
  refine creaNodo_oNuevo hs hpath ?_ ?_
  · intro hlibre nombre padre
    exact ⟨edquot, by decide, by rw [crearArchivo, hlibre]; rfl⟩
  · intro i hlibre nombre padre
    obtain ⟨s', hcrear, hagree⟩ := crearArchivo_nace hlibre hlibres nombre padre ahora
    exact ⟨s', ocupado, by decide, hcrear, hagree⟩

theorem eq_zero_of_estado {i : ℕ} (h : discoConArchivo.estado montajeChico i ≠ borrado) : i = 0 :=
  Nat.lt_one_iff.1 (libre_discoConArchivo.lt_of_ne h)

theorem tablaValida_discoConArchivo : TablaValida montajeChico discoConArchivo where
  padres i hi h := by
    rw [eq_zero_of_estado h]
    exact Or.inl (by decide +kernel)
  hermanos i hi j hj h h' _ _ _ _ := by rw [eq_zero_of_estado h, eq_zero_of_estado h']
  terminados i hi h := by
    rw [eq_zero_of_estado h]
    exact ⟨1, by omega, by decide +kernel⟩

theorem dosLibres_discoConArchivo : DosLibres montajeChico discoConArchivo :=
  ⟨1026, 1027, by decide +kernel⟩

/-- The path `/d`. -/
def rutaD : Ruta := ⟨[100], by decide⟩

end Sac
