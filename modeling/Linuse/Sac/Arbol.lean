import Linuse.Collections.Forest
import Linuse.Sac.Contador
import Linuse.Sac.Evaluacion

/-!
# The tree of directories

From every node in use, going from father to father should arrive at the root through directories,
and siblings should have different names. Creations look for the name and for the directory, but
take any node as a directory and any name; `o_rename` looks for nothing. The tree is kept in every
run whose creations are in directories and have names that fit, and whose renames go to a free
place in a directory that is not below what they move (`arbolValido_of_run`).
-/

namespace Sac

open Memory Locks Locks.Code Transition Forest

variable {m : Montaje} {s s' t : Estado}

/-! ## The tree -/

/-- The number of a node that is a directory in use. -/
def EsCarpeta (m : Montaje) (s : Estado) (x : ℤ) : Prop :=
  ∃ j : ℕ, j < cantidadNodos ∧ x = j + 1 ∧ s.estado m j = directorio

/-- The father of the node with a number. -/
def padreDe (m : Montaje) (s : Estado) (x : ℤ) : ℤ := s.padre m (x - 1)

/-- The way up from number `x` arrives at the root through directories. -/
def Enraizado (m : Montaje) (s : Estado) (x : ℤ) : Prop :=
  Rooted 0 (EsCarpeta m s) (padreDe m s) x

/-- The ways up from the nodes in use arrive at the root through directories, and two of them do
not have the same father and the same name. -/
structure ArbolValido (m : Montaje) (s : Estado) : Prop where
  arriba : ∀ i < cantidadNodos, s.estado m i ≠ borrado → Enraizado m s (s.padre m i)
  hermanos : ∀ i < cantidadNodos, ∀ j < cantidadNodos, s.estado m i ≠ borrado →
    s.estado m j ≠ borrado → s.padre m i = s.padre m j → ∀ nombre,
      isString s.mem (dirNombre m i) nombre = true →
      isString s.mem (dirNombre m j) nombre = true → i = j

/-- What the five requests keep: names end inside their field, a node in use is a file or a
directory, and up to the last node in use all sizes are 0. -/
structure ArbolSano (m : Montaje) (s : Estado) : Prop extends ArbolValido m s where
  terminados : ∀ i < cantidadNodos, s.estado m i ≠ borrado →
    ∃ k : ℕ, k < 71 ∧ s.mem (dirNombre m i + k) = 0
  tipos : ∀ i < cantidadNodos, s.estado m i ≠ borrado → ArchivoOCarpeta m s i
  vacios : ∀ i < cantidadNodos, s.estado m i ≠ borrado → ∀ j ≤ i, s.tamanio m j = 0

theorem padreDe_succ (i : ℕ) : padreDe m s ((i : ℤ) + 1) = s.padre m i := by
  rw [padreDe, add_sub_cancel_right]

theorem directorio_ne_borrado : directorio ≠ borrado := by decide

/-- A way up begins at the root or at a directory. -/
theorem Enraizado.cases {x : ℤ} (h : Enraizado m s x) : x = 0 ∨ EsCarpeta m s x := by
  cases h with
  | root => exact .inl rfl
  | up hcarpeta _ => exact .inr hcarpeta

theorem ArbolSano.tablaValida (h : ArbolSano m s) : TablaValida m s where
  padres i hi hvivo := by
    rcases (h.arriba i hi hvivo).cases with hcero | ⟨j, hj, heq, hdir⟩
    · exact .inl hcero
    · exact .inr ⟨j, hj, heq, by rw [hdir]; exact directorio_ne_borrado⟩
  hermanos := h.hermanos
  terminados := h.terminados

/-- In a tree every node in use is below the root. -/
theorem ArbolSano.enraizado (h : ArbolSano m s) {x : ℤ} (hx : x = 0 ∨ EsCarpeta m s x) :
    Enraizado m s x := by
  rcases hx with rfl | ⟨j, hj, rfl, hdir⟩
  · exact .root
  · refine .up ⟨j, hj, rfl, hdir⟩ ?_
    rw [padreDe_succ]
    exact h.arriba j hj (by rw [hdir]; exact directorio_ne_borrado)

/-- An empty table. -/
theorem arbolSano_vacio (h : ∀ i < cantidadNodos, s.estado m i = borrado) : ArbolSano m s where
  arriba i hi hvivo := absurd (h i hi) hvivo
  hermanos i hi _ _ hvivo := absurd (h i hi) hvivo
  terminados i hi hvivo := absurd (h i hi) hvivo
  tipos i hi hvivo := absurd (h i hi) hvivo
  vacios i hi hvivo := absurd (h i hi) hvivo

/-! ## Erasing nodes -/

/-- In the table the second state has erased nodes only. -/
def SoloBorra (m : Montaje) (s s' : Estado) : Prop :=
  ∀ x ∈ enTabla m, s'.mem x = s.mem x ∨ ∃ k : ℕ, x = dirEstado m k ∧ s'.mem x = borrado

theorem dirCampo_mem {i : ℕ} (hi : i < cantidadNodos) {k : ℤ} (hk : 0 ≤ k) (hk' : k < 4096) :
    m.nodo i + k ∈ enTabla m := by
  have hnodo := nodo_eq m i
  have h1024 := nodo_eq m 1024
  rw [cantidadNodos] at hi
  simp only [enTabla, Set.mem_ofPred_eq]
  omega

namespace SoloBorra

variable (h : SoloBorra m s s') {i : ℕ} (hi : i < cantidadNodos)

include h hi

/-- The fields after the state stay. -/
theorem campo {k : ℤ} (hk : 0 < k) (hk' : k < 4096) :
    s'.mem (m.nodo i + k) = s.mem (m.nodo i + k) := by
  refine (h _ (dirCampo_mem hi hk.le hk')).resolve_right ?_
  rintro ⟨j, heq, -⟩
  have hi0 := nodo_eq m i
  have hj0 := nodo_eq m j
  rw [dirEstado] at heq
  omega

theorem estado (hvivo : s'.estado m i ≠ borrado) : s'.estado m i = s.estado m i := by
  have hmem := dirCampo_mem (m := m) hi le_rfl (by decide)
  rw [add_zero] at hmem
  refine (h _ hmem).resolve_right ?_
  rintro ⟨-, -, hcero⟩
  exact hvivo hcero

theorem padre : s'.padre m i = s.padre m i :=
  load32_congr fun y hy => by
    rw [dirPadre, add_assoc]
    exact h.campo hi (by omega) (by omega)

theorem tamanio : s'.tamanio m i = s.tamanio m i :=
  load32_congr fun y hy => by
    rw [dirTamanio, add_assoc]
    exact h.campo hi (by omega) (by omega)

theorem nombre {k : ℕ} (hk : k ≤ 70) : s'.mem (dirNombre m i + k) = s.mem (dirNombre m i + k) := by
  rw [dirNombre, add_assoc]
  exact h.campo hi (by omega) (by omega)

end SoloBorra

/-! ## Names -/

/-- The bytes before the first NUL of a string. -/
theorem isString_takeWhile {mem : Mem} {a : ℤ} {l : List UInt8} (h : isString mem a l = true) :
    isString mem a (l.takeWhile (· != 0)) = true := by
  induction l generalizing a with
  | nil => exact h
  | cons b l ih =>
      simp only [isString, Bool.and_eq_true, beq_iff_eq] at h
      rcases eq_or_ne b 0 with rfl | hne
      · rw [List.takeWhile_cons_of_neg (by decide), isString, h.1]
        rfl
      · rw [List.takeWhile_cons_of_pos (by simpa using hne), isString, h.1, beq_self_eq_true,
          Bool.true_and]
        exact ih h.2

theorem isString_fin {mem : Mem} {a : ℤ} {l : List UInt8} (h : isString mem a l = true) :
    mem (a + l.length) = 0 := by
  induction l generalizing a with
  | nil =>
      rw [List.length_nil, Nat.cast_zero, add_zero]
      simpa [isString] using h
  | cons b l ih =>
      simp only [isString, Bool.and_eq_true, beq_iff_eq] at h
      rw [List.length_cons, Nat.cast_succ, add_comm (l.length : ℤ) 1, ← add_assoc]
      exact ih h.2

/-- Where the bytes of a field are the same, a name that ends inside it is too. -/
theorem isString_campo {mem mem' : Mem} {a : ℤ} {c : List UInt8} (hc : 0 ∉ c)
    (hmem : ∀ k : ℕ, k ≤ 70 → mem' (a + k) = mem (a + k))
    (hfin : ∃ k : ℕ, k < 71 ∧ mem (a + k) = 0) (h : isString mem' a c = true) :
    isString mem a c = true := by
  obtain ⟨k, hk, hcero⟩ := hfin
  have hlen := isString_length_le hc h ((hmem k (by omega)).trans hcero)
  rw [← isString_congr fun n hn => hmem n (by omega)]
  exact h

/-- Siblings are different when no two have the same name without NUL. -/
theorem hermanos_of_sinNul
    (h : ∀ q c, 0 ∉ c → ∀ i j, EsHijo m s q c i → EsHijo m s q c j → i = j) :
    ∀ i < cantidadNodos, ∀ j < cantidadNodos, s.estado m i ≠ borrado →
      s.estado m j ≠ borrado → s.padre m i = s.padre m j → ∀ nombre,
        isString s.mem (dirNombre m i) nombre = true →
        isString s.mem (dirNombre m j) nombre = true → i = j := by
  intro i hi j hj hvivo hvivo' hpadre nombre hnombre hnombre'
  have hsin : 0 ∉ nombre.takeWhile (· != 0) := by
    intro hmem
    simpa using List.mem_takeWhile_imp hmem
  exact h _ _ hsin i j ⟨hi, hvivo, hpadre, isString_takeWhile hnombre⟩
    ⟨hj, hvivo', rfl, isString_takeWhile hnombre'⟩

theorem ArbolSano.unico (h : ArbolSano m s) {q : ℤ} {c : List UInt8} {i j : ℕ}
    (hi : EsHijo m s q c i) (hj : EsHijo m s q c j) : i = j :=
  h.hermanos i hi.enTabla j hj.enTabla hi.enUso hj.enUso (hi.padre.trans hj.padre.symm) c
    hi.nombre hj.nombre

/-! ## Removing -/

/-- When no node in use has lost its father, what is left is a tree. -/
theorem ArbolSano.podar (h : ArbolSano m s) (hsolo : SoloBorra m s s')
    (hcerrado : ∀ k < cantidadNodos, s'.estado m k ≠ borrado → ∀ j < cantidadNodos,
      s.padre m k = (j : ℤ) + 1 → s'.estado m j ≠ borrado) : ArbolSano m s' := by
  have hvivo : ∀ k < cantidadNodos, s'.estado m k ≠ borrado → s.estado m k ≠ borrado := by
    intro k hk hk'
    rw [← hsolo.estado hk hk']
    exact hk'
  have hhijo : ∀ {q c k}, 0 ∉ c → EsHijo m s' q c k → EsHijo m s q c k := by
    intro q c k hc hk
    have hen := hvivo k hk.enTabla hk.enUso
    refine ⟨hk.enTabla, hen, ?_, ?_⟩
    · rw [← hsolo.padre hk.enTabla, hk.padre]
    · exact isString_campo hc (fun n hn => hsolo.nombre hk.enTabla hn)
        (h.terminados k hk.enTabla hen) hk.nombre
  refine ⟨⟨fun i hi hi' => ?_, hermanos_of_sinNul fun q c hc i j hi hj =>
    h.unico (hhijo hc hi) (hhijo hc hj)⟩, fun i hi hi' => ?_, fun i hi hi' => ?_,
    fun i hi hi' j hj => ?_⟩
  · rw [hsolo.padre hi]
    have hno : ∀ k < cantidadNodos, s'.estado m k ≠ borrado →
        ¬ ∃ j : ℕ, j < cantidadNodos ∧ s.padre m k = j + 1 ∧ s'.estado m j = borrado := by
      rintro k hk hk' ⟨j, hj, heq, hborrado⟩
      exact hcerrado k hk hk' j hj heq hborrado
    refine Rooted.keep (fun y => ∃ j : ℕ, j < cantidadNodos ∧ y = j + 1 ∧
      s'.estado m j = borrado) (fun y hy hdir => ?_) (h.arriba i hi (hvivo i hi hi'))
      (hno i hi hi')
    obtain ⟨j, hj, rfl, hdir⟩ := hdir
    have hj' : s'.estado m j ≠ borrado := fun hborrado => hy ⟨j, hj, rfl, hborrado⟩
    rw [padreDe_succ, padreDe_succ, hsolo.padre hj]
    exact ⟨⟨j, hj, rfl, (hsolo.estado hj hj').trans hdir⟩, rfl, hno j hj hj'⟩
  · obtain ⟨k, hk, hcero⟩ := h.terminados i hi (hvivo i hi hi')
    exact ⟨k, hk, (hsolo.nombre hi (by omega)).trans hcero⟩
  · rw [ArchivoOCarpeta, hsolo.estado hi hi']
    exact h.tipos i hi (hvivo i hi hi')
  · rw [hsolo.tamanio (lt_of_le_of_lt hj hi)]
    exact h.vacios i hi (hvivo i hi hi') j hj

theorem soloBorra_ponerEstado (h : SoloBorra m s t) (i : ℤ) (hi : 0 ≤ i ∨ i = -1) :
    SoloBorra m s (t.ponerEstado m i borrado) := by
  intro x hx
  have hnodo := nodo_eq m i
  rcases eq_or_ne x (dirEstado m i) with rfl | hne
  · rcases hi with hi | rfl
    · refine .inr ⟨i.toNat, ?_, estado_ponerEstado m t i borrado⟩
      rw [Int.toNat_of_nonneg hi]
    · simp only [enTabla, dirEstado, Set.mem_ofPred_eq] at hx
      omega
  · rw [ponerEstado_mem m t i hne]
    exact h x hx

/-- The father of a node in use is in use. -/
theorem ArbolSano.padre_vivo (h : ArbolSano m s) {k j : ℕ} (hk : k < cantidadNodos)
    (hvivo : s.estado m k ≠ borrado) (hpadre : s.padre m k = (j : ℤ) + 1) :
    s.estado m j = directorio := by
  rcases (h.arriba k hk hvivo).cases with hcero | ⟨l, -, heq, hdir⟩
  · omega
  · obtain rfl : j = l := by omega
    exact hdir

theorem ArbolSano.oUnlink (h : ArbolSano m s) {fuel : ℕ} {path : Ruta} {res : ℤ}
    (hsin : nodoDe m s path.cola ≤ 0 → SinPosiciones m s (nodoDe m s path.cola - 1))
    (heval : (oUnlink m fuel path).eval s = some (res, s')) : ArbolSano m s' := by
  have hmodo : ArbolSano m { s with delMode := false } :=
    h.podar (fun _ _ => .inl rfl) fun k hk hvivo j _ hpadre => by
      have hdir := h.padre_vivo hk hvivo hpadre
      rw [Estado.estado] at hdir
      rw [Estado.estado, hdir]
      exact directorio_ne_borrado
  have hsin' : SinPosiciones m s (nodoDe m s path.cola - 1) := by
    rcases nodoDe_cases m s path.cola with heq | heq | ⟨i, hi, heq, hvivo⟩
    · exact hsin (by omega)
    · exact hsin (by omega)
    · have htamanio := h.vacios i hi hvivo i le_rfl
      rw [heq, add_sub_cancel_right]
      exact sinPosiciones_of_vacio htamanio
  rcases oUnlink_of_eval hsin' heval with rfl | ⟨hresuelve, hhijos, rfl⟩
  · exact hmodo
  · obtain ⟨hpos, hmax⟩ := nodoDe_bounds m s hresuelve
    rw [unsigned_eq_self hpos hmax] at hhijos
    refine h.podar (soloBorra_ponerEstado (fun _ _ => .inl rfl) _ (by omega))
      fun k hk hvivo j hj hpadre hborrado => ?_
    have hvivo' : s.estado m k ≠ borrado := fun hmuerto =>
      hvivo (estado_ponerEstado_borrado { s with delMode := false } _ hmuerto)
    have hdir := h.padre_vivo hk hvivo' hpadre
    -- the father was in use, so that it is the node that was erased
    have hj0 := nodo_eq m j
    have hi0 := nodo_eq m (nodoDe m s path.cola - 1)
    by_cases heq : (j : ℤ) = nodoDe m s path.cola - 1
    · exact hhijos k hk hvivo' (by omega)
    · rw [Estado.estado, ponerEstado_mem _ _ _ (by rw [dirEstado, dirEstado]; omega)] at hborrado
      rw [Estado.estado, hborrado] at hdir
      exact absurd hdir (by decide)

/-- An erased node of a tree is below what was removed, or is it. -/
theorem debajo_of_borrado {q : ℤ} {j : ℕ} (hsolo : BorraSolo m {k | Debajo m s q k} s t)
    (hvivo : s.estado m j ≠ borrado)
    (hborrado : (t.ponerEstado m (q - 1) borrado).estado m j = borrado) :
    Debajo m s q j ∨ q = j + 1 := by
  have hj0 := nodo_eq m j
  have hq0 := nodo_eq m (q - 1)
  by_cases heq : (j : ℤ) = q - 1
  · exact .inr (by omega)
  · left
    rw [Estado.estado, ponerEstado_mem _ _ _ (by rw [dirEstado, dirEstado]; omega)] at hborrado
    rcases hsolo (dirEstado m j) with hmismo | ⟨k, hk, hdir, -⟩
    · rw [hmismo] at hborrado
      exact absurd hborrado hvivo
    · have hk0 := nodo_eq m k
      rw [dirEstado, dirEstado] at hdir
      obtain rfl : j = k := by omega
      exact hk

theorem ArbolSano.oRmdir (h : ArbolSano m s) {fuel : ℕ} {path : Ruta} {res : ℤ}
    (hcero : 0 ∈ ArchivosDebajo m s (nodoDe m s path.cola) → SinPosiciones m s (-1))
    (heval : (oRmdir m fuel path).eval s = some (res, s')) : ArbolSano m s' := by
  obtain rfl | ⟨hresuelve, t, hrec, rfl⟩ := oRmdir_cases heval
  · exact h
  generalize hq : nodoDe m s path.cola = q at *
  obtain ⟨hpos, hmax⟩ := nodoDe_bounds m s (by rw [hq]; exact hresuelve)
  rw [hq] at hpos hmax
  have hsin : ∀ k ∈ ArchivosDebajo m s q, SinPosiciones m s ((k : ℤ) - 1) := by
    intro k hk
    rcases Nat.eq_zero_or_pos k with rfl | hpos
    · exact hcero hk
    · have hvivo : s.estado m k ≠ borrado := by
        rw [hk.2]
        decide
      have hant : ((k : ℤ) - 1) = ((k - 1 : ℕ) : ℤ) := by omega
      rw [hant]
      exact sinPosiciones_of_vacio (h.vacios k hk.1.lt hvivo (k - 1) (by omega))
  obtain ⟨ht, hbarrido, -⟩ := Borrando.eliminarRecursivamente hsin fuel q s t hpos hmax
    (fun _ hk => .hijo hk) (.refl q s) hrec
  have hsolo : SoloBorra m s t := by
    intro x _
    refine (ht.solo x).imp_right fun hx => ?_
    obtain ⟨k, -, hdir, hborrado⟩ := hx
    exact ⟨k, hdir, hborrado⟩
  refine h.podar (soloBorra_ponerEstado hsolo (q - 1) (by omega))
    fun k hk hvivo j hj hpadre hj' => ?_
  have hvivo' : t.estado m k ≠ borrado := fun hmuerto =>
    hvivo (estado_ponerEstado_borrado t _ hmuerto)
  have hen : s.estado m k ≠ borrado := by
    rw [← ht.solo.estado k hvivo']
    exact hvivo'
  have hdir := h.padre_vivo hk hen hpadre
  have hcuelga : Cuelga m s (j + 1) k := ⟨hk, hen, hpadre⟩
  refine hvivo' (hbarrido k ?_ (h.tipos k hk hen))
  rcases debajo_of_borrado ht.solo (by rw [hdir]; exact directorio_ne_borrado) hj' with hj | rfl
  · exact .nieto hj hdir hcuelga
  · exact .hijo hcuelga

/-! ## Creating -/

theorem Nace.campo {i j : ℕ} {padre : ℤ} {nombre : List UInt8} (h : Nace m i padre nombre s s')
    (hj : j < cantidadNodos) (hij : j ≠ i) :
    s'.estado m j = s.estado m j ∧ s'.padre m j = s.padre m j ∧
      s'.tamanio m j = s.tamanio m j := by
  refine ⟨?_, load32_congr fun y hy => ?_, load32_congr fun y hy => ?_⟩
  · have heq := h.mem_eq hj hij (k := 0) le_rfl (by omega)
    rwa [add_zero] at heq
  · rw [dirPadre, add_assoc]
    exact h.mem_eq hj hij (by omega) (by omega)
  · rw [dirTamanio, add_assoc]
    exact h.mem_eq hj hij (by omega) (by omega)

/-- A new node in the first free slot, in a directory that has no node with its name. -/
theorem ArbolSano.nacer (h : ArbolSano m s) {i : ℕ} {padre : ℤ} {nombre : List UInt8}
    (hi : nodoLibre m s = some i) (hnace : Nace m i padre nombre s s')
    (htipo : ArchivoOCarpeta m s' i) (htamanio : s'.tamanio m i = 0)
    (hpadre : padre = 0 ∨ EsCarpeta m s padre) (hsin : 0 ∉ nombre) (hlargo : nombre.length ≤ 70)
    (hfalta : buscarNodo m s padre nombre = -1) : ArbolSano m s' := by
  obtain ⟨hi', hlibre⟩ := nodoLibre_eq_some hi
  have hantes : ∀ j < i, s.estado m j ≠ borrado := by
    intro j hj
    rw [nodoLibre, List.find?_range_eq_some] at hi
    have hno := hi.2.2 j hj
    simpa using hno
  have hninguno : ∀ k, ¬ EsHijo m s padre nombre k := by
    rcases buscarNodo_cases m s padre nombre with ⟨k, _, heq⟩ | ⟨hno, _⟩
    · omega
    · exact hno
  have hraiz : ∀ x, Enraizado m s x → Enraizado m s' x := by
    intro x hx
    refine Rooted.keep (fun _ => False) (fun y _ hdir => ?_) hx id
    obtain ⟨j, hj, rfl, hdir⟩ := hdir
    have hji : j ≠ i := by
      rintro rfl
      rw [hlibre] at hdir
      exact absurd hdir (by decide)
    obtain ⟨hestado, hpadre', -⟩ := hnace.campo hj hji
    rw [padreDe_succ, padreDe_succ]
    exact ⟨⟨j, hj, rfl, hestado.trans hdir⟩, hpadre', id⟩
  refine ⟨⟨fun k hk hvivo => ?_, hermanos_of_sinNul fun q c hc k l hk hl => ?_⟩,
    fun k hk hvivo => ?_, fun k hk hvivo => ?_, fun k hk hvivo j hj => ?_⟩
  · rcases eq_or_ne k i with rfl | hki
    · rw [hnace.padre]
      exact hraiz _ (h.enraizado hpadre)
    · obtain ⟨hestado, hpadre', -⟩ := hnace.campo hk hki
      rw [hpadre']
      exact hraiz _ (h.arriba k hk (hestado ▸ hvivo))
  · have hiff := fun j => hnace.esHijo_iff (q := q) (c := c) (j := j) h.tablaValida hlibre hi' hsin
      hc
    rcases (hiff k).1 hk with hk | ⟨hki, hq, hc⟩ <;> rcases (hiff l).1 hl with hl | ⟨hli, hq, hc⟩
    · exact h.unico hk hl
    · rw [hq, hc] at hk
      exact absurd hk (hninguno k)
    · rw [hq, hc] at hl
      exact absurd hl (hninguno l)
    · rw [hki, hli]
  · rcases eq_or_ne k i with rfl | hki
    · exact ⟨nombre.length, by omega, isString_fin hnace.nombre⟩
    · obtain ⟨n, hn, hcero⟩ := h.terminados k hk ((hnace.campo hk hki).1 ▸ hvivo)
      refine ⟨n, hn, ?_⟩
      rw [dirNombre, add_assoc] at hcero ⊢
      rw [hnace.mem_eq hk hki (by omega) (by omega), hcero]
  · rcases eq_or_ne k i with rfl | hki
    · exact htipo
    · rw [ArchivoOCarpeta, (hnace.campo hk hki).1]
      exact h.tipos k hk ((hnace.campo hk hki).1 ▸ hvivo)
  · rcases eq_or_ne j i with rfl | hji
    · exact htamanio
    · rw [(hnace.campo (lt_of_le_of_lt hj hk) hji).2.2]
      rcases eq_or_ne k i with rfl | hki
      · have hlt : j < k := by omega
        exact h.vacios j (by omega) (hantes j hlt) j le_rfl
      · exact h.vacios k hk ((hnace.campo hk hki).1 ▸ hvivo) j hj

/-- The directory of the path is a directory, and the name fits in its field. -/
def Cabe (m : Montaje) (s : Estado) (path : Ruta) : Prop :=
  ∀ partes, dividirRuta path.cola = some partes →
    (nodoDe m s partes.1 = 0 ∨ EsCarpeta m s (nodoDe m s partes.1)) ∧ partes.2.length ≤ 70

/-- Both creations, for a write section that puts a node in the first free slot. -/
theorem ArbolSano.oNuevo (h : ArbolSano m s) {path : Ruta} {res : ℤ}
    {crear : List UInt8 → ℤ → Estado → Option (ℤ × Estado)}
    (hcabe : Creable m s path → Cabe m s path)
    (hlleno : nodoLibre m s = none → ∀ nombre padre r, crear nombre padre s = some r → r.2 = s)
    (hlugar : ∀ i, nodoLibre m s = some i → Creable m s path → ∀ nombre padre r,
      nombre.length ≤ 70 → 0 ≤ padre → padre < 4294967296 → crear nombre padre s = some r →
        Nace m i padre nombre s r.2 ∧ ArchivoOCarpeta m r.2 i ∧ r.2.tamanio m i = 0)
    (heval : (oNuevo m path crear).eval s = some (res, s')) : ArbolSano m s' := by
  obtain rfl | ⟨hexiste, partes, hdividir, hresuelve, hcrear⟩ := oNuevo_cases heval
  · exact h
  cases hlibre : nodoLibre m s with
  | none =>
      have hmismo := hlleno hlibre _ _ _ hcrear
      rw [show s' = s from hmismo]
      exact h
  | some i =>
      have hcreable : Creable m s path := ⟨hexiste, ⟨partes, hdividir, hresuelve⟩, i,
        nodoLibre_eq_some hlibre⟩
      obtain ⟨hcarpeta, hlargo⟩ := hcabe hcreable partes hdividir
      obtain ⟨hpos, hmax⟩ := nodoDe_bounds m s hresuelve
      obtain ⟨hnace, htipo, htamanio⟩ :=
        hlugar i hlibre hcreable partes.2 (nodoDe m s partes.1) _ hlargo hpos hmax hcrear
      have hfalta : nodoDe m s path.cola = -1 := hcreable.1
      rw [nodoDe_eq m s hdividir, unsigned_eq_self hpos hmax] at hfalta
      have hsin : 0 ∉ partes.2 := (sinNul_dividirRuta path.sinNul hdividir).2
      exact h.nacer hlibre hnace htipo htamanio hcarpeta hsin hlargo hfalta

theorem ArbolSano.oMkdir (h : ArbolSano m s) {path : Ruta} {res : ℤ}
    (hcabe : Creable m s path → Cabe m s path)
    (heval : (oMkdir m path).eval s = some (res, s')) : ArbolSano m s' := by
  refine h.oNuevo hcabe (fun hlibre nombre padre r hr => ?_)
    (fun i hlibre _ nombre padre r hlargo hpos hmax hr => ?_) heval
  · rw [crearDirectorio, hlibre] at hr
    cases hr
    rfl
  · rw [crearDirectorio, hlibre] at hr
    cases hr
    exact ⟨nace_nodoNuevo s directorio_ne_borrado hlargo hpos hmax, .inr estado_nodoNuevo,
      tamanio_nodoNuevo⟩

/-- The blocks of a new file do not change the size in its slot. -/
theorem tamanio_conBloques {i : ℕ} {d e : ℤ} (hi : i < cantidadNodos) (hd : m.base ≤ d)
    (he : m.base ≤ e) (hd' : d / 8 < 4096 * m.tamanioBitmap)
    (he' : e / 8 < 4096 * m.tamanioBitmap) :
    (conBloques m i d e t).tamanio m i = t.tamanio m i := by
  have hbase := bloque_base m
  have hbloque := bloque_eq m d
  have hbloque' := bloque_eq m e
  have hcabecera := headerStart_eq m e
  have hi0 := nodo_eq m i
  rw [cantidadNodos] at hi
  have hbits : ((t.setBit m d).setBit m e).tamanio m i = t.tamanio m i := by
    rw [tamanio_setBit (by omega) he', tamanio_setBit (by omega) hd']
  rw [← hbits]
  refine load32_congr fun k hk => ?_
  rw [conBloques, conMem_fill_mem _ (by rw [dirTamanio]; omega), conPunteros,
    ponerPuntero_mem _ _ (by rw [dirTamanio]; omega),
    ponerIndirecto_mem _ _ _ (by rw [dirIndirecto, dirTamanio]; omega),
    ponerIndirecto_mem _ _ _ (by rw [dirIndirecto, dirTamanio]; omega),
    conMem_fill_mem _ (by rw [dirTamanio]; omega)]

theorem ArbolSano.oCreate (h : ArbolSano m s) {ahora : ℕ} {path : Ruta} {res : ℤ}
    (hcabe : Creable m s path → Cabe m s path ∧ DosLibres m s)
    (heval : (oCreate m ahora path).eval s = some (res, s')) : ArbolSano m s' := by
  refine h.oNuevo (fun hcreable => (hcabe hcreable).1) (fun hlibre nombre padre r hr => ?_)
    (fun i hlibre hcreable nombre padre r hlargo hpos hmax hr => ?_) heval
  · rw [crearArchivo, hlibre] at hr
    cases hr
    rfl
  · obtain ⟨hi, -⟩ := nodoLibre_eq_some hlibre
    obtain ⟨u, hcrear, hagree⟩ := crearArchivo_nace hlibre (hcabe hcreable).2 nombre padre ahora
    obtain ⟨d, e, ⟨hd, -, hd', -⟩, ⟨he, -, he', -⟩, -, heq⟩ :=
      crearArchivo_eq hlibre (hcabe hcreable).2 nombre padre ahora
    rw [hcrear, Option.some.injEq, Prod.mk.injEq] at heq
    rw [hcrear] at hr
    cases hr
    have hestado : u.estado m i = ocupado := by
      have hmem := hagree (dirEstado m i) (by
        have hcampo := dirCampo_mem (m := m) hi le_rfl (by decide)
        rw [add_zero] at hcampo
        exact ⟨hcampo, .inl (by rw [dirEstado, dirTamanio]; omega)⟩)
      exact hmem.trans estado_nodoNuevo
    refine ⟨(nace_nodoNuevo s (by decide) hlargo hpos hmax).trans hi hlargo hagree, .inl hestado,
      ?_⟩
    dsimp only
    rw [heq.2, tamanio_conBloques hi hd he hd' he', tamanio_conFechas, tamanio_nodoNuevo]

/-! ## Moving -/

/-- What is met on the way up is the number itself or has it below. -/
theorem ArbolSano.debajo_of_meets (h : ArbolSano m s) {a x : ℤ}
    (hmeets : Meets (EsCarpeta m s) (padreDe m s) a x) :
    x = a ∨ ∃ k : ℕ, x = k + 1 ∧ Debajo m s a k := by
  induction hmeets with
  | here => exact .inl rfl
  | @up x hdir _ ih =>
      obtain ⟨j, hj, rfl, hdir⟩ := hdir
      have hvivo : s.estado m j ≠ borrado := by
        rw [hdir]
        exact directorio_ne_borrado
      refine .inr ⟨j, rfl, ?_⟩
      rw [padreDe_succ] at ih
      rcases ih with heq | ⟨k, heq, hk⟩
      · exact .hijo ⟨hj, hvivo, heq⟩
      · exact .nieto hk (h.padre_vivo hj hvivo heq) ⟨hj, hvivo, heq⟩

/-- A rename writes the name and the father of one slot. -/
theorem renombrar_mem {n p : ℤ} {nombre : List UInt8} (hlargo : nombre.length ≤ 70) {x : ℤ}
    (hx : x < m.nodo (n - 1) + 1 ∨ m.nodo (n - 1) + 76 ≤ x) :
    (renombrar m n p nombre s).mem x = s.mem x := by
  rw [renombrar, ponerPadre_mem _ _ _ (by rw [dirPadre]; omega),
    ponerNombre_mem _ _ _ (by rw [dirNombre]; omega)]

/-- The rename of node `i` leaves the other fields of the table. -/
theorem renombrar_campo {i j : ℕ} {p : ℤ} {nombre : List UInt8} (hlargo : nombre.length ≤ 70)
    {k : ℤ} (hk : 0 ≤ k) (hk' : k < 4096) (hcampo : j = i → k = 0 ∨ 76 ≤ k) :
    (renombrar m (i + 1) p nombre s).mem (m.nodo j + k) = s.mem (m.nodo j + k) := by
  have hi0 := nodo_eq m i
  have hj0 := nodo_eq m j
  apply renombrar_mem hlargo
  rw [add_sub_cancel_right]
  rcases eq_or_ne j i with rfl | hne
  · have hcampo' := hcampo rfl
    omega
  · omega

theorem padre_renombrar {i : ℕ} {p : ℤ} {nombre : List UInt8} (hpos : 0 ≤ p)
    (hmax : p < 4294967296) : (renombrar m (i + 1) p nombre s).padre m i = p := by
  rw [renombrar, add_sub_cancel_right, padre_ponerPadre, unsigned_eq_self hpos hmax]

theorem nombre_renombrar {i : ℕ} {p : ℤ} {nombre : List UInt8} (hlargo : nombre.length ≤ 70) :
    isString (renombrar m (i + 1) p nombre s).mem (dirNombre m i) nombre = true := by
  rw [renombrar, add_sub_cancel_right]
  have hmem : ∀ n : ℕ, n ≤ nombre.length →
      ((s.ponerNombre m i nombre).ponerPadre m i p).mem (dirNombre m i + n) =
        (s.ponerNombre m i nombre).mem (dirNombre m i + n) := by
    intro n hn
    exact ponerPadre_mem _ _ _ (by rw [dirNombre, dirPadre]; omega)
  rw [isString_congr hmem]
  exact isString_storeString _ _ _

/-- A node goes to a directory that is not below it, with a name that no other node has there. -/
theorem ArbolSano.mudar (h : ArbolSano m s) {i : ℕ} {p : ℤ} {nombre : List UInt8}
    (hi : i < cantidadNodos) (hlargo : nombre.length ≤ 70) (hsin : 0 ∉ nombre)
    (hp : p = 0 ∨ EsCarpeta m s p) (hmax : p < 4294967296) (hno : p ≠ i + 1)
    (hdebajo : ∀ k, Debajo m s (i + 1) k → p ≠ k + 1)
    (hlibre : ∀ k, EsHijo m s p nombre k → k = i) :
    ArbolSano m (renombrar m (i + 1) p nombre s) := by
  have hpos : 0 ≤ p := by
    rcases hp with rfl | ⟨j, _, rfl, _⟩
    · exact le_rfl
    · omega
  generalize ht : renombrar m (i + 1) p nombre s = t
  have hestado : ∀ k : ℕ, t.estado m k = s.estado m k := by
    intro k
    have heq := renombrar_campo (m := m) (s := s) (i := i) (j := k) (p := p) hlargo le_rfl
      (by decide) fun _ => .inl rfl
    rwa [add_zero, ht] at heq
  have hotro : ∀ j : ℕ, j ≠ i → ∀ k : ℤ, 0 ≤ k → k < 4096 →
      t.mem (m.nodo j + k) = s.mem (m.nodo j + k) := by
    intro j hj k hk hk'
    rw [← ht]
    exact renombrar_campo hlargo hk hk' fun heq => absurd heq hj
  have hpadre : ∀ j : ℕ, j ≠ i → t.padre m j = s.padre m j := fun j hj =>
    load32_congr fun y hy => by
      rw [dirPadre, add_assoc]
      exact hotro j hj _ (by omega) (by omega)
  have hpadre_i : t.padre m i = p := by rw [← ht, padre_renombrar hpos hmax]
  have hnombre_i : isString t.mem (dirNombre m i) nombre = true := by
    rw [← ht]
    exact nombre_renombrar hlargo
  have htamanio : ∀ j : ℕ, t.tamanio m j = s.tamanio m j := fun j =>
    load32_congr fun y hy => by
      rw [dirTamanio, add_assoc, ← ht]
      exact renombrar_campo hlargo (by omega) (by omega) fun _ => .inr (by omega)
  have hraiz : ∀ x, Enraizado m s x → Enraizado m t x := by
    refine fun x hx => Rooted.move (fun y hdir => ?_) (fun y hy hdir => ?_) ?_ (h.enraizado hp)
      (fun hmeets => ?_) hx (a := (i : ℤ) + 1)
    · obtain ⟨j, hj, rfl, hdir⟩ := hdir
      exact ⟨j, hj, rfl, (hestado j).trans hdir⟩
    · obtain ⟨j, hj, rfl, -⟩ := hdir
      rw [padreDe_succ, padreDe_succ]
      exact hpadre j (by rintro rfl; exact hy rfl)
    · rw [padreDe_succ, hpadre_i]
    · rcases h.debajo_of_meets hmeets with heq | ⟨k, heq, hk⟩
      · exact hno heq
      · exact hdebajo k hk heq
  have hhijo : ∀ {q c k}, 0 ∉ c → EsHijo m t q c k →
      k ≠ i ∧ EsHijo m s q c k ∨ k = i ∧ q = p ∧ c = nombre := by
    intro q c k hc hk
    have hvivo : s.estado m k ≠ borrado := hestado k ▸ hk.enUso
    rcases eq_or_ne k i with rfl | hki
    · exact .inr ⟨rfl, hk.padre.symm.trans hpadre_i, isString_unico hc hsin hk.nombre hnombre_i⟩
    · refine .inl ⟨hki, hk.enTabla, hvivo, (hpadre k hki).symm.trans hk.padre, ?_⟩
      refine isString_campo hc (fun n hn => ?_) (h.terminados k hk.enTabla hvivo) hk.nombre
      rw [dirNombre, add_assoc]
      exact hotro k hki _ (by omega) (by omega)
  refine ⟨⟨fun k hk hvivo => ?_, hermanos_of_sinNul fun q c hc k l hk hl => ?_⟩,
    fun k hk hvivo => ?_, fun k hk hvivo => ?_, fun k hk hvivo j hj => ?_⟩
  · rcases eq_or_ne k i with rfl | hki
    · rw [hpadre_i]
      exact hraiz p (h.enraizado hp)
    · rw [hpadre k hki]
      exact hraiz _ (h.arriba k hk (hestado k ▸ hvivo))
  · rcases hhijo hc hk with ⟨hki, hk⟩ | ⟨hki, hq, hnombre⟩ <;>
      rcases hhijo hc hl with ⟨hli, hl⟩ | ⟨hli, hq, hnombre⟩
    · exact h.unico hk hl
    · rw [hq, hnombre] at hk
      exact absurd (hlibre k hk) hki
    · rw [hq, hnombre] at hl
      exact absurd (hlibre l hl) hli
    · rw [hki, hli]
  · rcases eq_or_ne k i with rfl | hki
    · exact ⟨nombre.length, by omega, isString_fin hnombre_i⟩
    · obtain ⟨n, hn, hcero⟩ := h.terminados k hk (hestado k ▸ hvivo)
      refine ⟨n, hn, ?_⟩
      rw [dirNombre, add_assoc] at hcero ⊢
      rw [hotro k hki _ (by omega) (by omega), hcero]
  · rw [ArchivoOCarpeta, hestado]
    exact h.tipos k hk (hestado k ▸ hvivo)
  · rw [htamanio]
    exact h.vacios k hk (hestado k ▸ hvivo) j hj

/-- A rename that keeps the tree: the new name fits, and a node of the table goes to a directory
that is not below it, where no other node has the name. -/
def Mudable (m : Montaje) (s : Estado) (pathAntiguo nuevoPath : Ruta) : Prop :=
  ∀ partes, dividirRuta nuevoPath.cola = some partes → partes.2.length ≤ 70 ∧
    ∀ i : ℕ, nodoDe m s pathAntiguo.cola = i + 1 →
      (nodoDe m s partes.1 = 0 ∨ EsCarpeta m s (nodoDe m s partes.1)) ∧
        nodoDe m s partes.1 ≠ i + 1 ∧ (∀ k, Debajo m s (i + 1) k → nodoDe m s partes.1 ≠ k + 1) ∧
        (nodoDe m s nuevoPath.cola = -1 ∨ nodoDe m s nuevoPath.cola = i + 1)

theorem ArbolSano.oRename (h : ArbolSano m s) {pathAntiguo nuevoPath : Ruta} {res : ℤ}
    (hmudable : nodoDe m s pathAntiguo.cola ≠ -1 → Mudable m s pathAntiguo nuevoPath)
    (heval : (oRename m pathAntiguo nuevoPath).eval s = some (res, s')) : ArbolSano m s' := by
  obtain rfl | ⟨hexiste, partes, hdividir, rfl⟩ := oRename_cases heval
  · exact h
  obtain ⟨hlargo, hnodo⟩ := hmudable hexiste partes hdividir
  rcases nodoDe_cases m s pathAntiguo.cola with hfalta | hraiz | ⟨i, hi, heq, hvivo⟩
  · exact absurd hfalta hexiste
  · -- the place before the table
    rw [hraiz]
    have hmem : ∀ x ∈ enTabla m,
        (renombrar m 0 (nodoDe m s partes.1) partes.2 s).mem x = s.mem x := by
      intro x hx
      have hnodo := nodo_eq m (0 - 1)
      simp only [enTabla, Set.mem_ofPred_eq] at hx
      exact renombrar_mem hlargo (.inr (by omega))
    refine h.podar (fun x hx => .inl (hmem x hx)) fun k hk hvivo j hj hpadre => ?_
    have hestado : ∀ l < cantidadNodos,
        (renombrar m 0 (nodoDe m s partes.1) partes.2 s).estado m l = s.estado m l := by
      intro l hl
      have hcampo := dirCampo_mem (m := m) hl le_rfl (by decide)
      rw [add_zero] at hcampo
      exact hmem _ hcampo
    rw [hestado k hk] at hvivo
    rw [hestado j hj, h.padre_vivo hk hvivo hpadre]
    exact directorio_ne_borrado
  · obtain ⟨hcarpeta, hno, hdebajo, hdestino⟩ := hnodo i heq
    have hresuelve : nodoDe m s partes.1 ≠ -1 := by
      rcases hcarpeta with h0 | ⟨j, _, h0, _⟩ <;> omega
    obtain ⟨hpos, hmax⟩ := nodoDe_bounds m s hresuelve
    rw [nodoDe_eq m s hdividir, unsigned_eq_self hpos hmax] at hdestino
    rw [heq]
    refine h.mudar hi hlargo (sinNul_dividirRuta nuevoPath.sinNul hdividir).2 hcarpeta hmax hno
      hdebajo fun k hk => ?_
    rcases buscarNodo_cases m s (nodoDe m s partes.1) partes.2 with ⟨j, hj, hbuscar⟩ | ⟨hninguno, _⟩
    · obtain rfl : j = i := by omega
      exact h.unico hk hj.1
    · exact absurd hk (hninguno k)

/-! ## Runs -/

/-- The requests that change the tree. -/
def Peticion.DeArbol : Peticion → Prop
  | create _ _ => True
  | mkdir _ => True
  | rename _ _ => True
  | unlink _ => True
  | rmdir _ => True
  | _ => False

/-- The request keeps the tree: a creation that will put a node has a directory and a name that
fits, and free blocks for a file; a rename is to a free place in a directory that is not below
what it moves; and a removal works on nodes of the table, or where there is nothing to release. -/
def Peticion.Ordenada (m : Montaje) (s : Estado) : Peticion → Prop
  | create _ path => Creable m s path → Cabe m s path ∧ DosLibres m s
  | mkdir path => Creable m s path → Cabe m s path
  | rename pathAntiguo nuevoPath =>
      nodoDe m s pathAntiguo.cola ≠ -1 → Mudable m s pathAntiguo nuevoPath
  | unlink path =>
      nodoDe m s path.cola ≤ 0 → SinPosiciones m s (nodoDe m s path.cola - 1)
  | rmdir path =>
      0 ∈ ArchivosDebajo m s (nodoDe m s path.cola) → SinPosiciones m s (-1)
  | _ => False

theorem arbolSano_of_atiende {basura : ℕ → UInt8} {p : Peticion} (h : ArbolSano m s)
    (hp : p.Ordenada m s) (hstep : Atiende m basura s p s') : ArbolSano m s' := by
  obtain ⟨fuel, producto, heval⟩ := hstep
  cases p with
  | create ahora path =>
      obtain ⟨res, t, hcrear, heval⟩ := eval_bind_some heval
      cases heval
      exact h.oCreate hp hcrear
  | mkdir path =>
      obtain ⟨res, t, hcrear, heval⟩ := eval_bind_some heval
      cases heval
      exact h.oMkdir hp hcrear
  | rename pathAntiguo nuevoPath =>
      obtain ⟨res, t, hmover, heval⟩ := eval_bind_some heval
      cases heval
      exact h.oRename hp hmover
  | unlink path =>
      obtain ⟨res, t, hborrar, heval⟩ := eval_bind_some heval
      cases heval
      exact h.oUnlink hp hborrar
  | rmdir path =>
      obtain ⟨res, t, hborrar, heval⟩ := eval_bind_some heval
      cases heval
      exact h.oRmdir hp hborrar
  | read path size offset => exact hp.elim
  | readDir path => exact hp.elim
  | getAttr ahora path => exact hp.elim
  | write ahora path offset buf => exact hp.elim
  | truncate path n => exact hp.elim

/-- From an empty table, requests that keep the tree leave a tree in every state. -/
theorem arbolValido_of_run (m : Montaje) (basura : ℕ → UInt8) (s : Estado)
    (hvacia : ∀ i < cantidadNodos, s.estado m i = borrado) {tr : List (Step Estado Peticion)}
    (hrun : Run (Atiende m basura) s tr s') (h : ∀ x ∈ tr, x.label.Ordenada m x.pre) :
    ArbolValido m s' := by
  have hinv := hrun.invariant (ArbolSano m)
    (fun x : Step Estado Peticion => x.label.Ordenada m x.pre) (arbolSano_vacio hvacia)
    (fun s e s' hs hcond hstep => arbolSano_of_atiende hs hcond hstep) h
  exact hinv.toArbolValido

/-! ## A directory in itself -/

/-- Where a node can be created, `o_mkdir` creates it. -/
theorem eval_oMkdir_creable {path : Ruta} (h : Creable m s path) :
    ∃ i partes, nodoLibre m s = some i ∧ dividirRuta path.cola = some partes ∧
      (oMkdir m path).eval s =
        some (0, nodoNuevo m i directorio partes.2 (nodoDe m s partes.1) s) := by
  obtain ⟨hexiste, ⟨partes, hpartes, hresuelve⟩, hlugar⟩ := h
  have hpos := (nodoDe_bounds m s hresuelve).1
  obtain ⟨i, hi⟩ : ∃ i, nodoLibre m s = some i :=
    Option.ne_none_iff_exists'.1 fun hno => nodoLibre_eq_none hno hlugar
  refine ⟨i, partes, hi, hpartes, ?_⟩
  simp [oMkdir, oNuevo, hexiste, hpartes, not_lt.2 hpos, crearDirectorio, hi, nodoNuevo]

/-- The formatted disk with the directory `/a`. -/
def discoConCarpeta : Estado := nodoNuevo montajeChico 0 directorio [97] 0 discoFormateado

theorem atiende_mkdir :
    Atiende montajeChico (fun _ => 0) discoFormateado (.mkdir rutaA) discoConCarpeta := by
  obtain ⟨i, partes, hi, hpartes, heval⟩ :=
    eval_oMkdir_creable (creable_vacia estado_discoFormateado)
  have hcero : nodoLibre montajeChico discoFormateado = some 0 := by
    rw [nodoLibre, List.find?_range_eq_some]
    refine ⟨?_, List.mem_range.2 (by decide), fun j hj => absurd hj (Nat.not_lt_zero j)⟩
    rw [estado_discoFormateado]
    rfl
  have hruta : dividirRuta rutaA.cola = some ([], [97]) := rfl
  rw [hcero] at hi
  rw [hruta] at hpartes
  cases hi
  cases hpartes
  exact ⟨0, .resultado 0, by rw [Peticion.codigo, eval_bind, heval]; rfl⟩

/-! ### A directory is moved, and two are removed -/

namespace LibreDesde

variable {n : ℕ}

theorem nodoNuevo (h : LibreDesde m s n) {estado : UInt8} {nombre : List UInt8} {padre : ℤ}
    (hnombre : nombre.length ≤ 70) :
    LibreDesde m (Sac.nodoNuevo m n estado nombre padre s) (n + 1) := by
  intro k hk
  have hn := nodo_eq m n
  have hk' := nodo_eq m k
  have hsig := nodo_eq m (n + 1)
  rw [Estado.estado, nodoNuevo_mem hnombre (by rw [dirEstado]; omega)]
  exact h k (by omega)

theorem renombrar (h : LibreDesde m s n) {i : ℕ} {nombre : List UInt8} {padre : ℤ}
    (hnombre : nombre.length ≤ 70) :
    LibreDesde m (Sac.renombrar m (i + 1) padre nombre s) n := by
  intro k hk
  have hi' := nodo_eq m i
  have hk' := nodo_eq m k
  rw [Estado.estado, renombrar_mem hnombre (by rw [dirEstado, add_sub_cancel_right]; omega)]
  exact h k hk

theorem sinModo (h : LibreDesde m s n) : LibreDesde m { s with delMode := false } n := h

theorem ponerEstado (h : LibreDesde m s n) (i : ℤ) : LibreDesde m (s.ponerEstado m i borrado) n :=
  fun k hk => estado_ponerEstado_borrado s i (h k hk)

theorem not_cuelga (h : LibreDesde m s n) {q : ℤ} (hq : ∀ k < n, s.padre m k ≠ q) (i : ℕ) :
    ¬ Cuelga m s q i := by
  rintro ⟨-, hvivo, hpadre⟩
  rcases lt_or_ge i n with hlt | hge
  · exact hq i hlt hpadre
  · exact hvivo (h i hge)

end LibreDesde

theorem cuelga_sinModo {q : ℤ} {i : ℕ} :
    Cuelga m { s with delMode := false } q i ↔ Cuelga m s q i := Iff.rfl

theorem borrarSinHijos_of_not_cuelga {q : ℤ} (hq : unsigned q = q) (h : ∀ i, ¬ Cuelga m s q i) :
    borrarSinHijos m q s = (0, s.ponerEstado m (q - 1) borrado) := by
  rw [borrarSinHijos, if_neg]
  rw [List.any_eq_true]
  rintro ⟨i, hi, hhijo⟩
  rw [Bool.and_eq_true, bne_iff_ne, beq_iff_eq, hq] at hhijo
  exact h i ⟨List.mem_range.1 hi, hhijo⟩

/-- The path `/a/a`. -/
def rutaAA : Ruta := ⟨[97, 47, 97], by decide⟩

/-- The directory `/a/a` too. -/
def discoConDos : Estado := nodoNuevo montajeChico 1 directorio [97] 1 discoConCarpeta

/-- `/a/a` becomes `/d`. -/
def discoMudado : Estado := renombrar montajeChico 2 0 [100] discoConDos

/-- `/a` is removed with `o_unlink`. -/
def discoConUna : Estado :=
  { discoMudado with delMode := false }.ponerEstado montajeChico 0 borrado

/-- `/d` is removed with `o_rmdir`. -/
def discoSinCarpetas : Estado := discoConUna.ponerEstado montajeChico 1 borrado

theorem libre_discoConCarpeta : LibreDesde montajeChico discoConCarpeta 1 :=
  LibreDesde.nodoNuevo (n := 0) (fun k _ => estado_discoFormateado k) (by decide)

theorem libre_discoConDos : LibreDesde montajeChico discoConDos 2 :=
  libre_discoConCarpeta.nodoNuevo (by decide)

theorem libre_discoMudado : LibreDesde montajeChico discoMudado 2 :=
  libre_discoConDos.renombrar (i := 1) (by decide)

theorem libre_discoConUna : LibreDesde montajeChico discoConUna 2 :=
  libre_discoMudado.sinModo.ponerEstado 0

theorem ruta_rutaAA : dividirRuta rutaAA.cola = some ([97, 47], [97]) := by decide

theorem datos_discoConCarpeta : nodoDe montajeChico discoConCarpeta rutaA.cola = 1 ∧
    nodoDe montajeChico discoConCarpeta [97, 47] = 1 ∧
    nodoLibre montajeChico discoConCarpeta = some 1 ∧
    (∀ k < 1, coincide montajeChico discoConCarpeta (unsigned 1) [97] k = false) ∧
    discoConCarpeta.estado montajeChico 0 = directorio := by
  decide +kernel

/-- What the second creation, the rename and the removals leave. -/
theorem datos_vaiven :
    (nodoDe montajeChico discoConDos rutaAA.cola = 2 ∧
      ∀ k < 2, coincide montajeChico discoConDos (unsigned 0) [100] k = false) ∧
    (nodoDe montajeChico discoMudado rutaA.cola = 1 ∧
      discoMudado.tamanio montajeChico 0 = 0 ∧
      ∀ k : ℕ, k < 2 → discoMudado.padre montajeChico k ≠ 1) ∧
    nodoDe montajeChico discoConUna rutaD.cola = 2 ∧
      ∀ k : ℕ, k < 2 → discoConUna.padre montajeChico k ≠ 2 := by
  decide +kernel

theorem creable_rutaAA : Creable montajeChico discoConCarpeta rutaAA := by
  obtain ⟨-, hmadre, hlibre, hno, -⟩ := datos_discoConCarpeta
  refine ⟨libre_discoConCarpeta.nodoDe_eq_neg_one _ _ ruta_rutaAA ?_, ⟨_, ruta_rutaAA, ?_⟩, 1,
    by decide, (nodoLibre_eq_some hlibre).2⟩
  · rw [hmadre]
    exact hno
  · rw [hmadre]
    decide

theorem atiende_mkdir_rutaAA :
    Atiende montajeChico (fun _ => 0) discoConCarpeta (.mkdir rutaAA) discoConDos := by
  obtain ⟨i, partes, hi, hpartes, heval⟩ := eval_oMkdir_creable creable_rutaAA
  obtain ⟨-, hmadre, hlibre, -⟩ := datos_discoConCarpeta
  rw [hlibre] at hi
  rw [ruta_rutaAA] at hpartes
  cases hi
  cases hpartes
  rw [hmadre] at heval
  exact ⟨0, .resultado 0, by rw [Peticion.codigo, eval_bind, heval]; rfl⟩

theorem atiende_rename_rutaD :
    Atiende montajeChico (fun _ => 0) discoConDos (.rename rutaAA rutaD) discoMudado := by
  have hruta : dividirRuta rutaD.cola = some ([], [100]) := rfl
  refine ⟨0, .resultado 0, ?_⟩
  rw [Peticion.codigo, eval_bind, eval_oRename, datos_vaiven.1.1, hruta]
  rfl

theorem not_cuelga_discoMudado (i : ℕ) :
    ¬ Cuelga montajeChico { discoMudado with delMode := false } 1 i :=
  cuelga_sinModo.not.2 (libre_discoMudado.not_cuelga datos_vaiven.2.1.2.2 i)

theorem atiende_unlink_rutaA :
    Atiende montajeChico (fun _ => 0) discoMudado (.unlink rutaA) discoConUna := by
  obtain ⟨-, ⟨hnodo, htamanio, -⟩, -⟩ := datos_vaiven
  have hsin : SinPosiciones montajeChico discoMudado
      (nodoDe montajeChico discoMudado rutaA.cola - 1) := by
    rw [hnodo]
    exact sinPosiciones_of_vacio htamanio
  refine ⟨1, .resultado 0, ?_⟩
  rw [Peticion.codigo, eval_bind, eval_oUnlink hsin, hnodo, if_neg (by decide),
    borrarSinHijos_of_not_cuelga (by decide) not_cuelga_discoMudado]
  rfl

theorem not_cuelga_discoConUna (i : ℕ) : ¬ Cuelga montajeChico discoConUna 2 i :=
  libre_discoConUna.not_cuelga datos_vaiven.2.2.2 i

theorem atiende_rmdir_rutaD :
    Atiende montajeChico (fun _ => 0) discoConUna (.rmdir rutaD) discoSinCarpetas := by
  refine ⟨1, .resultado 0, ?_⟩
  rw [Peticion.codigo, eval_bind, eval_oRmdir, datos_vaiven.2.2.1, if_neg (by decide),
    eval_eliminarRecursivamente_sinHijos (by decide) not_cuelga_discoConUna]
  rfl

/-- The directories `/a` and `/a/a` are made, the second is moved to the root, and both are
removed. -/
def vaivenDeCarpetas : List (Step Estado Peticion) :=
  [⟨discoFormateado, .mkdir rutaA, discoConCarpeta⟩,
    ⟨discoConCarpeta, .mkdir rutaAA, discoConDos⟩,
    ⟨discoConDos, .rename rutaAA rutaD, discoMudado⟩,
    ⟨discoMudado, .unlink rutaA, discoConUna⟩,
    ⟨discoConUna, .rmdir rutaD, discoSinCarpetas⟩]

theorem run_vaivenDeCarpetas : Run (Atiende montajeChico fun _ => 0) discoFormateado
    vaivenDeCarpetas discoSinCarpetas :=
  ((((Run.nil.snoc atiende_mkdir).snoc atiende_mkdir_rutaAA).snoc atiende_rename_rutaD).snoc
    atiende_unlink_rutaA).snoc atiende_rmdir_rutaD

theorem ordenada_mkdir_rutaA : (Peticion.mkdir rutaA).Ordenada montajeChico discoFormateado := by
  have hruta : dividirRuta rutaA.cola = some ([], [97]) := rfl
  intro _ partes hpartes
  rw [hruta] at hpartes
  cases hpartes
  exact ⟨.inl rfl, by decide⟩

theorem ordenada_mkdir_rutaAA : (Peticion.mkdir rutaAA).Ordenada montajeChico discoConCarpeta := by
  obtain ⟨-, hmadre, -, -, hdir⟩ := datos_discoConCarpeta
  intro _ partes hpartes
  rw [ruta_rutaAA] at hpartes
  cases hpartes
  rw [hmadre]
  exact ⟨.inr ⟨0, by decide, rfl, hdir⟩, by decide⟩

theorem ordenada_rename_rutaD :
    (Peticion.rename rutaAA rutaD).Ordenada montajeChico discoConDos := by
  have hruta : dividirRuta rutaD.cola = some ([], [100]) := rfl
  have hraiz : nodoDe montajeChico discoConDos [] = 0 := rfl
  intro _ partes hpartes
  rw [hruta] at hpartes
  cases hpartes
  refine ⟨by decide, fun i hi => ⟨.inl hraiz, ?_, fun k _ => ?_, .inl ?_⟩⟩
  · rw [hraiz]
    omega
  · rw [hraiz]
    omega
  · refine libre_discoConDos.nodoDe_eq_neg_one _ _ hruta ?_
    rw [hraiz]
    exact datos_vaiven.1.2

theorem ordenada_vaivenDeCarpetas :
    ∀ x ∈ vaivenDeCarpetas, x.label.Ordenada montajeChico x.pre := by
  rw [vaivenDeCarpetas]
  simp only [List.forall_mem_cons, List.not_mem_nil, false_imp_iff, implies_true, and_true]
  refine ⟨ordenada_mkdir_rutaA, ordenada_mkdir_rutaAA, ordenada_rename_rutaD, fun hfuera => ?_,
    fun hcero => ?_⟩
  · rw [datos_vaiven.2.1.1] at hfuera
    exact absurd hfuera (by decide)
  · rw [datos_vaiven.2.2.1] at hcero
    obtain ⟨i, hi⟩ := hcero.1.exists_cuelga
    exact absurd hi (not_cuelga_discoConUna i)

theorem arbolValido_of_run_vaivenDeCarpetas :
    ArbolValido montajeChico discoSinCarpetas ∧ ArbolValido montajeChico discoMudado :=
  ⟨arbolValido_of_run montajeChico (fun _ => 0) discoFormateado
      (fun k _ => estado_discoFormateado k) run_vaivenDeCarpetas ordenada_vaivenDeCarpetas,
    arbolValido_of_run montajeChico (fun _ => 0) discoFormateado
      (fun k _ => estado_discoFormateado k)
      (((Run.nil.snoc atiende_mkdir).snoc atiende_mkdir_rutaAA).snoc atiende_rename_rutaD)
      fun x hx => ordenada_vaivenDeCarpetas x (List.mem_of_mem_take (i := 3) hx)⟩

/-! ### And one is moved into itself -/

/-- The directory `/a` in itself. -/
def discoEnSi : Estado := renombrar montajeChico 1 1 [97] discoConCarpeta

theorem atiende_rename :
    Atiende montajeChico (fun _ => 0) discoConCarpeta (.rename rutaA rutaAA) discoEnSi := by
  obtain ⟨hexiste, hmadre, -⟩ := datos_discoConCarpeta
  have hruta : dividirRuta rutaAA.cola = some ([97, 47], [97]) := by decide
  refine ⟨0, .resultado 0, ?_⟩
  simp [Peticion.codigo, oRename, hexiste, hmadre, hruta, discoEnSi]

/-- The rename of `/a` to `/a/a` makes node 1 its own father. -/
theorem not_arbolValido_of_run :
    ¬ ∀ (m : Montaje) (basura : ℕ → UInt8) (s : Estado),
      (∀ i < cantidadNodos, s.estado m i = borrado) →
        ∀ (tr : List (Step Estado Peticion)) (s' : Estado), Run (Atiende m basura) s tr s' →
          (∀ x ∈ tr, x.label.DeArbol) → ArbolValido m s' := by
  intro hclaim
  have hvalido := hclaim montajeChico (fun _ => 0) discoFormateado
    (fun k _ => estado_discoFormateado k) _ discoEnSi
    (.snoc (.snoc .nil atiende_mkdir) atiende_rename) (by
      intro x hx
      rw [List.nil_append, List.singleton_append, List.mem_cons, List.mem_singleton] at hx
      rcases hx with rfl | rfl <;> exact trivial)
  have hpadre : discoEnSi.padre montajeChico 0 = 1 := by decide +kernel
  have harriba := hvalido.arriba 0 (by decide) (by decide +kernel)
  rw [Nat.cast_zero, hpadre] at harriba
  exact not_rooted_of_loop (by decide) hpadre harriba

end Sac
