import Linuse.Sac.Respuestas
import Linuse.Sac.Cerrojos

/-!
# Framing of the replies

After each call of a session the client has read exactly the bytes that the server
has sent for it, and what its function returns reports the result of the server
(`Encuadrada`). This holds when each call meets a condition on its path, its range
and `errno` (`Llamada.Atendida`), and only then (`encuadrada_iff`).
-/

namespace Sac

open Memory Locks Locks.Code Wire

variable {m : Montaje} {s s' : Estado} {basura : ℕ → UInt8}

/-! ## Results that fit in an `int` -/

/-- A value of an `int`. -/
def EsInt (x : ℤ) : Prop := -2147483648 ≤ x ∧ x < 2147483648

instance (x : ℤ) : Decidable (EsInt x) := inferInstanceAs (Decidable (_ ∧ _))

theorem esInt_zero : EsInt 0 := by decide
theorem esInt_one : EsInt 1 := by decide
theorem esInt_neg_one : EsInt (-1) := by decide
theorem esInt_edquot : EsInt edquot := by decide
theorem esInt_enospc : EsInt enospc := by decide

theorem signed_unsigned (x : ℤ) : signed (unsigned x) = signed x := by
  rw [signed, signed, unsigned]
  omega

theorem EsInt.signed_eq {x : ℤ} (h : EsInt x) : signed x = x := signed_eq_self h.1 h.2

section Resultados

variable (m)

theorem esInt_agregarBloqueLibre {i b : ℤ} {r : ℤ × Estado}
    (h : agregarBloqueLibre m i b s = some r) : EsInt r.1 := by
  rw [agregarBloqueLibre] at h
  generalize settearPosicion (s.tamanio m i) = posicion at h
  obtain ⟨pointer, position⟩ := posicion
  dsimp only at h
  split_ifs at h
  · cases h
    exact esInt_enospc
  · rw [Option.bind_eq_bind, Option.bind_eq_some_iff] at h
    obtain ⟨⟨nuevo, t⟩, -, h⟩ := h
    cases h
    exact esInt_zero
  · cases h
    exact esInt_zero

theorem returns_oNuevo {path : Ruta} {crear : List UInt8 → ℤ → Estado → Option (ℤ × Estado)}
    (h : ∀ nombre madre s r, crear nombre madre s = some r → EsInt r.1) :
    Returns EsInt (oNuevo m path crear) := by
  apply returns_bind
  intro existe
  refine returns_ite (returns_pure (by decide)) ?_
  apply returns_bind
  rintro ⟨madre, nombre⟩
  apply returns_bind
  intro miNodo
  refine returns_ite (returns_pure (by decide)) ?_
  apply returns_bind
  intro _
  have hcrear : Returns EsInt (Code.attempt (crear nombre miNodo) : Codigo ℤ) :=
    returns_attempt (h nombre miNodo)
  refine hcrear.bind fun respuesta hrespuesta => ?_
  exact returns_bind fun _ => returns_pure hrespuesta

theorem esInt_crearArchivo {ahora : ℕ} {nombre : List UInt8} {madre : ℤ} {r : ℤ × Estado}
    (h : crearArchivo m ahora nombre madre s = some r) : EsInt r.1 := by
  rw [crearArchivo] at h
  cases hlibre : nodoLibre m s with
  | none =>
      rw [hlibre] at h
      cases h
      exact esInt_edquot
  | some i =>
      rw [hlibre, Option.elim_some, Option.bind_eq_bind, Option.bind_eq_some_iff] at h
      obtain ⟨⟨b, t⟩, -, h⟩ := h
      dsimp only at h
      rw [Option.bind_eq_some_iff] at h
      obtain ⟨⟨res, t'⟩, -, h⟩ := h
      cases h
      exact esInt_zero

theorem esInt_crearDirectorio {nombre : List UInt8} {madre : ℤ} {r : ℤ × Estado}
    (h : crearDirectorio m nombre madre s = some r) : EsInt r.1 := by
  rw [crearDirectorio] at h
  cases hlibre : nodoLibre m s with
  | none =>
      rw [hlibre] at h
      cases h
      exact esInt_one
  | some i =>
      rw [hlibre] at h
      cases h
      exact esInt_zero

theorem esInt_darleEspacioNuevo {fuel : ℕ} {i size : ℤ} {r : ℤ × Estado}
    (h : darleEspacioNuevo m fuel i size s = some r) : EsInt r.1 := by
  rw [darleEspacioNuevo] at h
  split_ifs at h
  · cases h
    exact esInt_enospc
  · cases h
    exact esInt_zero
  · rw [Option.map_eq_some_iff] at h
    obtain ⟨t, -, h⟩ := h
    cases h
    exact esInt_zero

theorem returns_oTruncate {fuel : ℕ} {path : Ruta} {n : ℤ} :
    Returns EsInt (oTruncate m fuel path n) := by
  refine returns_ite (returns_pure (by decide)) ?_
  apply returns_bind
  intro nodo
  refine returns_ite (returns_pure (by decide)) ?_
  apply returns_bind
  intro _
  have hcambiar : Returns EsInt (cambiarTamanio m fuel (nodo - 1) n) := by
    apply returns_bind
    intro tamanio
    apply returns_ite
    · have hdar : Returns EsInt (Code.attempt
          (darleEspacioNuevo m fuel (nodo - 1) (n - tamanio)) : Codigo ℤ) :=
        returns_attempt fun s r h => esInt_darleEspacioNuevo m h
      refine hdar.bind fun res hres => ?_
      exact returns_ite (returns_pure hres) (returns_bind fun _ => returns_pure hres)
    · exact returns_bind fun _ => returns_bind fun _ => returns_pure (by decide)
  refine hcambiar.bind fun res hres => ?_
  exact returns_bind fun _ => returns_pure hres

theorem returns_oRename {pathAntiguo nuevoPath : Ruta} :
    Returns EsInt (oRename m pathAntiguo nuevoPath) := by
  apply returns_bind
  intro existe
  refine returns_ite (returns_pure (by decide)) ?_
  apply returns_bind
  rintro ⟨madre, nombre⟩
  apply returns_bind
  intro oldNode
  apply returns_bind
  intro nuevoNodoPadre
  apply returns_bind
  intro _
  exact returns_bind fun _ => returns_bind fun _ => returns_pure (by decide)

theorem esInt_borrarSinHijos (miNodo : ℤ) (s : Estado) : EsInt (borrarSinHijos m miNodo s).1 := by
  rw [borrarSinHijos]
  split_ifs
  · exact esInt_neg_one
  · exact esInt_zero

theorem returns_oUnlink {fuel : ℕ} {path : Ruta} : Returns EsInt (oUnlink m fuel path) := by
  iterate 6
    apply returns_bind
    intro _
  apply returns_bind
  intro miNodo
  refine returns_ite (returns_pure (by decide)) ?_
  apply returns_bind
  intro _
  have hborrar : Returns EsInt (Code.attempt fun s => some (borrarSinHijos m miNodo s) :
      Codigo ℤ) := by
    apply returns_attempt
    intro s r h
    rw [Option.some.injEq] at h
    rw [← h]
    exact esInt_borrarSinHijos m miNodo s
  refine hborrar.bind fun respuesta hrespuesta => ?_
  exact returns_bind fun _ => returns_pure hrespuesta

theorem returns_oRmdir {fuel : ℕ} {path : Ruta} : Returns EsInt (oRmdir m fuel path) := by
  apply returns_bind
  intro miNodo
  refine returns_ite (returns_pure (by decide)) ?_
  iterate 4
    apply returns_bind
    intro _
  exact returns_pure (by decide)

/-- The loop of `o_write` answers its size or an error. -/
theorem esInt_bucleWrite {ahora : ℕ} {i size : ℤ} (hsize : EsInt size) {n : ℕ} {e : Escritura}
    {r : ℤ × Estado} (h : bucleWrite m ahora i size n e s = some r) : EsInt r.1 := by
  induction n generalizing e s with
  | zero => cases h
  | succ n ih =>
      rw [bucleWrite] at h
      dsimp only at h
      split_ifs at h
      · cases h
        exact hsize
      · cases h
        exact esInt_neg_one
      · rw [Option.bind_eq_bind, Option.bind_eq_some_iff] at h
        obtain ⟨⟨nuevo, t⟩, -, h⟩ := h
        dsimp only at h
        rw [Option.bind_eq_some_iff] at h
        obtain ⟨⟨res, t'⟩, hres, h⟩ := h
        dsimp only at h
        split_ifs at h
        · cases h
          exact esInt_agregarBloqueLibre m hres
        · exact ih h
      · exact ih h

theorem returns_oWrite {fuel ahora : ℕ} {path : Ruta} {offset : ℤ} {buf : List UInt8}
    (hbuf : buf.length < 2147483648) : Returns EsInt (oWrite m fuel ahora path offset buf) := by
  apply returns_bind
  intro nodo
  apply returns_bind
  intro tamanioArchivo
  apply returns_bind
  intro _
  have hbucle : Returns EsInt (Code.attempt (bucleWrite m ahora (nodo - 1) buf.length fuel
      ⟨buf.length, tamanioArchivo, offset, offset.tmod 4096, buf⟩) : Codigo ℤ) :=
    returns_attempt fun s r h => esInt_bucleWrite m ⟨by omega, by omega⟩ h
  refine hbucle.bind fun res hres => ?_
  exact returns_bind fun _ => returns_pure hres

end Resultados

/-! ## Fields -/

theorem length_entero (x : ℤ) : (entero x).length = 4 := length_toBytes 4 _

theorem entero_natCast (n : ℕ) : entero n = toBytes 4 (n % 4294967296) := by
  rw [entero, unsigned]
  congr 1

theorem reads_leerInt (x : ℤ) : Reads leerInt (entero x) (signed x) := by
  have hnonneg : 0 ≤ unsigned x := Int.emod_nonneg x (by decide)
  have hlt : unsigned x < 4294967296 := Int.emod_lt_of_pos x (by decide)
  have hread := (reads_readNat (w := 4) (n := (unsigned x).toNat) (by omega)).bindPure
    fun n : ℕ => signed (n : ℤ)
  rw [Int.toNat_of_nonneg hnonneg, signed_unsigned] at hread
  exact hread

theorem reads_leerEntero (x : ℤ) : Reads leerEntero (entero 4 ++ entero x) (signed x) := by
  have hnonneg : 0 ≤ unsigned x := Int.emod_nonneg x (by decide)
  have hlt : unsigned x < 4294967296 := Int.emod_lt_of_pos x (by decide)
  have hcampo := reads_readField (l := entero x) (by rw [length_entero]; decide)
  have hload : load 4 (entero x) = some (unsigned x).toNat := load_toBytes (by omega)
  rw [length_entero] at hcampo
  have hvalor := (Reads.lift hload).bindPure fun n : ℕ => signed (n : ℤ)
  have hbind := hcampo.bind (f := fun campo => StateT.lift (load 4 campo) >>= fun n : ℕ =>
    pure (signed (n : ℤ))) hvalor
  rw [Int.toNat_of_nonneg hnonneg, signed_unsigned, List.append_nil] at hbind
  exact hbind

theorem bufferResultado_eq (res : ℤ) :
    bufferResultado basura res = some (entero 4 ++ entero res) := by
  refine (sendBuffer_of_consecutive basura ?_ ?_).trans ?_
  · simp [Consecutive, length_entero]
  · simp [length_entero]
  · simp

theorem bufferReadDir_eq (texto : List UInt8) :
    bufferReadDir basura texto =
      some (entero 4 ++ entero 0 ++ (entero texto.length ++ texto)) := by
  refine (sendBuffer_of_consecutive basura ?_ ?_).trans ?_
  · simp [Consecutive, length_entero]
  · simp [length_entero]
    omega
  · simp

theorem bufferAtributos_eq (a : Atributos) :
    bufferAtributos basura a = some (entero 4 ++ entero 0 ++ (entero 4 ++ entero a.mode ++
      (entero 4 ++ entero a.nlink ++ (entero 4 ++ entero a.size ++ (entero 4 ++ entero a.mtime ++
        (entero 4 ++ entero a.ctime ++ (entero 4 ++ entero a.atime))))))) := by
  refine (sendBuffer_of_consecutive basura ?_ ?_).trans ?_
  · simp [Consecutive, length_entero]
  · simp [length_entero]
  · simp

theorem reads_helloEstado (errno res : ℤ) :
    Reads (helloEstado errno) (entero 4 ++ entero res)
      { valor := if signed res = 0 then 0 else errno } :=
  (reads_leerEntero res).bindPure fun ok : ℤ =>
    ({ valor := if ok = 0 then 0 else errno } : Recibido)

theorem reads_helloWrite (res : ℤ) :
    Reads helloWrite (entero 4 ++ entero res)
      { valor := if signed res = -1 then enospc else signed res } :=
  (reads_leerEntero res).bindPure fun resp : ℤ =>
    ({ valor := if resp = -1 then enospc else resp } : Recibido)

/-- The list of names, when its length is an `int`. -/
theorem reads_helloReaddir {texto : List UInt8} (hlt : texto.length < 2147483648) :
    Reads helloReaddir (entero 4 ++ entero 0 ++ (entero texto.length ++ texto))
      { valor := 0, texto := texto } := by
  have hcampo := reads_readField hlt
  rw [← Nat.mod_eq_of_lt (show texto.length < 4294967296 by omega), ← entero_natCast] at hcampo
  exact (reads_leerEntero 0).bind (hcampo.bindPure
    fun texto => ({ valor := 0, texto := texto } : Recibido))

/-! ## Reads -/

/-- A pointer block puts in the buffer at most what was left to read. -/
theorem leerPunteros_length (b : ℤ) {n : ℕ} {k : ℤ} {e : Lectura} (h : 0 ≤ e.queda) :
    0 ≤ (leerPunteros m s b n k e).queda ∧
      (leerPunteros m s b n k e).buffer.length + (leerPunteros m s b n k e).queda ≤
        e.buffer.length + e.queda := by
  induction n generalizing k e with
  | zero => exact ⟨h, le_rfl⟩
  | succ n ih =>
      rw [leerPunteros]
      dsimp only
      generalize (if 0 < e.offset then 0 else e.offset) = offset
      generalize m.bloque (s.puntero m b k) + (if 0 < e.offset then e.offset else 0) = bloque
      split_ifs
      · exact ih h
      · simp only [List.length_append, length_bytesAt]
        omega
      · simp only [List.length_append, length_bytesAt]
        omega
      · have hrec := ih (k := k + 1)
          (e := ⟨offset, e.queda - 4096, e.buffer ++ bytesAt s.mem bloque 4096⟩)
          (by dsimp only; omega)
        refine ⟨hrec.1, hrec.2.trans ?_⟩
        simp only [List.length_append, length_bytesAt]
        omega

theorem leerBloques_length (i : ℤ) {n : ℕ} {p : ℤ} {e : Lectura} (h : 0 ≤ e.queda) :
    ((leerBloques m s i n p e).buffer.length : ℤ) ≤ e.buffer.length + e.queda := by
  induction n generalizing p e with
  | zero =>
      rw [leerBloques]
      omega
  | succ n ih =>
      rw [leerBloques]
      have hpunteros := leerPunteros_length (m := m) (s := s) (s.indirecto m i p) (n := 1024)
        (k := 0) h
      dsimp only
      split_ifs
      · exact ih h
      · omega
      · exact (ih hpunteros.1).trans hpunteros.2

/-- The read starts at the end of the file or after it, or does not reach it. -/
def EnRango (m : Montaje) (s : Estado) (i size offset : ℤ) : Prop :=
  s.tamanio m i ≤ unsigned offset ∨ unsigned (offset + size) ≤ s.tamanio m i

/-- A read gives what it was asked for, or nothing, when it is in range, and
something less when it is not. -/
theorem leerArchivo_resultado (i offset : ℤ) {size : ℤ} (hsize : 0 ≤ size)
    (hlt : size < 2147483648) :
    ((leerArchivo m i size offset s).1 = 0 ∧ EnRango m s i size offset) ∨
      ((leerArchivo m i size offset s).1 = size ∧ EnRango m s i size offset) ∨
      (0 < (leerArchivo m i size offset s).1 ∧ (leerArchivo m i size offset s).1 < size ∧
        ¬ EnRango m s i size offset) := by
  have h0 : 0 ≤ s.tamanio m i := load32_nonneg _ _
  have hT : s.tamanio m i < 4294967296 := load32_lt _ _
  rw [leerArchivo, EnRango]
  generalize s.tamanio m i = tamanio at h0 hT ⊢
  split_ifs with hfin hcorta
  · exact .inl ⟨rfl, .inl hfin⟩
  · rcases eq_or_ne (unsigned (offset + size)) tamanio with heq | hne
    · refine .inr (.inl ⟨?_, .inr heq.le⟩)
      dsimp only
      rw [unsigned] at heq hfin
      rw [signed]
      omega
    · refine .inr (.inr ?_)
      dsimp only
      rw [unsigned] at hne hcorta hfin ⊢
      rw [unsigned, signed]
      omega
  · refine .inr (.inl ⟨rfl, .inr ?_⟩)
    omega

theorem leerArchivo_length {i size offset : ℤ} (hsize : 0 ≤ size) (hlt : size < 2147483648) :
    (leerArchivo m i size offset s).2.length ≤ size.toNat := by
  have h0 : 0 ≤ s.tamanio m i := load32_nonneg _ _
  have hT : s.tamanio m i < 4294967296 := load32_lt _ _
  have hle : ∀ x, 0 ≤ unsigned x ∧ unsigned (unsigned x) = unsigned x := by
    intro x
    rw [unsigned, unsigned]
    omega
  rw [leerArchivo]
  split_ifs with hfin hcorta
  · exact Nat.zero_le _
  · have hlen := leerBloques_length (m := m) (s := s) i (n := 1000) (p := 0)
      (e := ⟨offset, unsigned (signed (s.tamanio m i - offset)), []⟩) (hle _).1
    have hqueda : unsigned (signed (s.tamanio m i - offset)) ≤ size := by
      rw [unsigned] at hfin hcorta ⊢
      rw [signed]
      omega
    dsimp only at hlen ⊢
    rw [List.length_nil] at hlen
    omega
  · have hlen := leerBloques_length (m := m) (s := s) i (n := 1000) (p := 0)
      (e := ⟨offset, unsigned size, []⟩) (hle _).1
    have hqueda : unsigned size = size := unsigned_eq_self hsize (by omega)
    dsimp only at hlen ⊢
    rw [List.length_nil, hqueda] at hlen
    rw [hqueda]
    omega

/-- The buffer of the answer, which `o_read` has filled from its start. -/
theorem bufferLectura_eq (basura : ℕ → UInt8) {size : ℤ} (res : ℤ) {texto : List UInt8}
    (h : texto.length ≤ size.toNat) :
    ∃ buffer : List UInt8, buffer.length = size.toNat ∧
      bufferLectura basura size res texto = some (entero res ++ buffer) := by
  have hcopia := memcpy_append [] (show texto.length ≤ (malloc basura size.toNat).length by
    rwa [length_malloc])
  refine ⟨[] ++ texto ++ (malloc basura size.toNat).drop texto.length, ?_, ?_⟩
  · rw [List.nil_append, List.length_append, List.length_drop, length_malloc]
    omega
  · rw [List.nil_append, List.length_nil] at hcopia
    rw [bufferLectura, hcopia, Option.bind_eq_bind, Option.bind_some]
    refine (sendBuffer_of_consecutive basura ?_ ?_).trans ?_
    · simp [Consecutive, length_entero]
    · simp [length_entero]
      omega
    · simp

theorem reads_helloRead {size res : ℤ} {buffer : List UInt8} (hres : signed res ≠ 0)
    (hbuffer : buffer.length = size.toNat) :
    Reads (helloRead size) (entero res ++ buffer) { valor := size, texto := buffer } := by
  apply (reads_leerInt res).bind
  rw [if_neg hres]
  have hread := reads_readBytes buffer
  rw [hbuffer] at hread
  exact hread.bindPure fun texto => ({ valor := size, texto := texto } : Recibido)

theorem reads_helloRead_vacio (size : ℤ) : Reads (helloRead size) (entero 0) { valor := 0 } := by
  rw [← List.append_nil (entero 0)]
  apply (reads_leerInt 0).bind
  exact Reads.pure ({ valor := 0 } : Recibido)

/-! ## One request -/

/-- The attributes as the client reads them. -/
def Atributos.leidos (a : Atributos) : Atributos :=
  ⟨signed a.mode, signed a.nlink, signed a.size, signed a.mtime, signed a.ctime, signed a.atime⟩

/-- A number of bytes, negative on an error. -/
def InformaCantidad (res valor : ℤ) : Prop := (valor < 0 ↔ res < 0) ∧ (0 ≤ res → valor = res)

namespace Peticion

/-- The value that the client returns reports the result of the server: the number
of bytes of a read or a write, whether the path of a query resolves, whether any
other operation has succeeded. -/
def Informa (m : Montaje) (s : Estado) : Peticion → Producto → ℤ → Prop
  | read _ _ _, .leido res _, valor => InformaCantidad res valor
  | write _ _ _ _, .resultado res, valor => InformaCantidad res valor
  | readDir path, .mensajes _, valor => valor = 0 ↔ nodoDe m s path.cola ≠ -1
  | getAttr _ path, .mensajes _, valor => valor = 0 ↔ nodoDe m s path.cola ≠ -1
  | _, .resultado res, valor => valor = 0 ↔ res = 0
  | _, _, _ => False

/-- The condition of a request: a read or a listing has a path that resolves, a read
is in range, a listing has a length that is an `int`, and `errno` is not 0 after an
operation that fails. -/
def Atendida (m : Montaje) (s : Estado) (errno : ℤ) : Peticion → Producto → Prop
  | read path size offset, _ =>
      nodoDe m s path.cola ≠ -1 ∧ EnRango m s (nodoDe m s path.cola - 1) size offset
  | readDir path, _ => nodoDe m s path.cola ≠ -1 ∧
      (directoriosPegoteados m s (nodoDe m s path.cola)).length < 2147483648
  | getAttr _ _, _ => True
  | write _ _ _ _, _ => True
  | _, producto => producto = .resultado 0 ∨ errno ≠ 0

/-- The sizes that the client sends are values of an `int`. -/
def Cabe : Peticion → Prop
  | read _ size _ => 0 ≤ size ∧ size < 2147483648
  | write _ _ _ buf => buf.length < 2147483648
  | _ => True

/-- The client reads exactly the reply and returns a value that reports the result. -/
def Responde (m : Montaje) (basura : ℕ → UInt8) (s : Estado) (errno : ℤ) (p : Peticion)
    (producto : Producto) : Prop :=
  ∃ respuesta recibido, p.respuesta basura producto = some respuesta ∧
    (p.recibir errno).run respuesta = some (recibido, []) ∧ p.Informa m s producto recibido.valor

variable {p : Peticion} {producto : Producto} {fuel ahora : ℕ} {errno : ℤ} {path : Ruta}

/-- A reply that the client reads up to some rest. -/
theorem responde_iff_of_reads {l resto : List UInt8} {recibido : Recibido}
    (hrespuesta : p.respuesta basura producto = some (l ++ resto))
    (hreads : Reads (p.recibir errno) l recibido) :
    p.Responde m basura s errno producto ↔
      resto = [] ∧ p.Informa m s producto recibido.valor := by
  constructor
  · rintro ⟨respuesta, recibido', hrespuesta', hrun, hinforma⟩
    rw [hrespuesta, Option.some.injEq] at hrespuesta'
    rw [← hrespuesta', hreads resto, Option.some.injEq, Prod.mk.injEq] at hrun
    obtain ⟨rfl, rfl⟩ := hrun
    exact ⟨rfl, hinforma⟩
  · rintro ⟨rfl, hinforma⟩
    exact ⟨l ++ [], recibido, hrespuesta, hreads [], hinforma⟩

/-- The same when the reply has no rest. -/
theorem responde_iff_informa {l : List UInt8} {recibido : Recibido}
    (hrespuesta : p.respuesta basura producto = some l)
    (hreads : Reads (p.recibir errno) l recibido) :
    p.Responde m basura s errno producto ↔ p.Informa m s producto recibido.valor := by
  rw [← List.append_nil l] at hrespuesta
  rw [responde_iff_of_reads hrespuesta hreads]
  exact and_iff_right rfl

/-- The requests whose reply is a result of success or failure. -/
def EsEstado : Peticion → Prop
  | create _ _ => True
  | mkdir _ => True
  | unlink _ => True
  | rmdir _ => True
  | truncate _ _ => True
  | rename _ _ => True
  | _ => False

/-- The operation of such a request gives a result that is an `int`. -/
theorem EsEstado.eval_codigo (hp : p.EsEstado)
    (h : eval (p.codigo m basura fuel) s = some (producto, s')) :
    ∃ res, producto = .resultado res ∧ EsInt res := by
  have hresultado : ∀ {c : Codigo ℤ}, Returns EsInt c →
      eval (c >>= fun res => pure (Producto.resultado res)) s = some (producto, s') →
        ∃ res, producto = .resultado res ∧ EsInt res := by
    intro c hc heval
    obtain ⟨res, t, hres, heval⟩ := eval_bind_some heval
    cases heval
    exact ⟨res, rfl, hc s _ hres⟩
  cases p with
  | create ahora path =>
      exact hresultado (returns_oNuevo m fun _ _ _ _ h => esInt_crearArchivo m h) h
  | mkdir path =>
      exact hresultado (returns_oNuevo m fun _ _ _ _ h => esInt_crearDirectorio m h) h
  | unlink path => exact hresultado (returns_oUnlink m) h
  | rmdir path => exact hresultado (returns_oRmdir m) h
  | truncate path n => exact hresultado (returns_oTruncate m) h
  | rename pathAntiguo nuevoPath => exact hresultado (returns_oRename m) h
  | read path size offset => exact hp.elim
  | readDir path => exact hp.elim
  | getAttr ahora path => exact hp.elim
  | write ahora path offset buf => exact hp.elim

theorem EsEstado.respuesta_eq (hp : p.EsEstado) (res : ℤ) :
    p.respuesta basura (.resultado res) = some (entero 4 ++ entero res) := by
  cases p <;> first | exact hp.elim | exact bufferResultado_eq res

theorem EsEstado.recibir_eq (hp : p.EsEstado) : p.recibir errno = helloEstado errno := by
  cases p <;> first | exact hp.elim | rfl

theorem EsEstado.informa_iff (hp : p.EsEstado) {res valor : ℤ} :
    p.Informa m s (.resultado res) valor ↔ (valor = 0 ↔ res = 0) := by
  cases p <;> first | exact hp.elim | exact Iff.rfl

theorem EsEstado.atendida_iff (hp : p.EsEstado) :
    p.Atendida m s errno producto ↔ producto = .resultado 0 ∨ errno ≠ 0 := by
  cases p <;> first | exact hp.elim | exact Iff.rfl

theorem EsEstado.responde_iff (hp : p.EsEstado)
    (h : eval (p.codigo m basura fuel) s = some (producto, s')) :
    p.Responde m basura s errno producto ↔ p.Atendida m s errno producto := by
  obtain ⟨res, rfl, hres⟩ := hp.eval_codigo h
  have hreads := reads_helloEstado errno res
  rw [← hp.recibir_eq, hres.signed_eq] at hreads
  rw [responde_iff_informa (hp.respuesta_eq res) hreads, hp.informa_iff, hp.atendida_iff]
  by_cases h0 : res = 0
  · simp [h0]
  · simp [h0]

theorem responde_write {offset : ℤ} {buf : List UInt8} (hbuf : buf.length < 2147483648)
    (h : eval ((write ahora path offset buf).codigo m basura fuel) s = some (producto, s')) :
    (write ahora path offset buf).Responde m basura s errno producto := by
  obtain ⟨res, t, hres, heval⟩ := eval_bind_some h
  cases heval
  have hint : EsInt res := returns_oWrite m hbuf s _ hres
  have hrespuesta : (write ahora path offset buf).respuesta basura (.resultado res) =
      some (entero 4 ++ entero res) := bufferResultado_eq res
  have hreads : Reads ((write ahora path offset buf).recibir errno) _ _ := reads_helloWrite res
  rw [hint.signed_eq] at hreads
  rw [responde_iff_informa hrespuesta hreads]
  dsimp only [Informa, InformaCantidad]
  split_ifs with hmenos
  · rw [hmenos]
    decide
  · exact ⟨Iff.rfl, fun _ => rfl⟩

/-- The reply to a read whose operation gives `res`. -/
theorem responde_read_iff {size offset res : ℤ} {texto : List UInt8}
    (hres : EsInt res) (hsize : 0 ≤ size) (htexto : texto.length ≤ size.toNat) :
    (read path size offset).Responde m basura s errno (.leido res texto) ↔
      res = 0 ∨ (0 < res ∧ res = size) := by
  obtain ⟨buffer, hbuffer, hlectura⟩ := bufferLectura_eq basura res htexto
  have hrespuesta : (read path size offset).respuesta basura (.leido res texto) =
      tomarPeticionRead basura size res texto := rfl
  rw [tomarPeticionRead, responderLectura] at hrespuesta
  by_cases h0 : res = 0
  · subst h0
    have hvacio : sendBuffer basura 4 [(0, entero 0)] = some (entero 0) := by
      refine (sendBuffer_of_consecutive basura ?_ ?_).trans ?_
      · simp [Consecutive]
      · simp [length_entero]
      · simp
    rw [if_pos rfl, hvacio] at hrespuesta
    have hreads : Reads ((read path size offset).recibir errno) _ _ := reads_helloRead_vacio size
    rw [responde_iff_informa hrespuesta hreads]
    simp [Informa, InformaCantidad]
  · have hreads : Reads ((read path size offset).recibir errno) _ _ :=
      reads_helloRead (by rwa [hres.signed_eq]) hbuffer
    rw [if_neg h0, hlectura] at hrespuesta
    by_cases hmenos : res = -1
    · -- The second message of an error is not read.
      rw [hmenos, bufferResultado_eq] at hrespuesta
      rw [hmenos] at hreads ⊢
      rw [responde_iff_of_reads hrespuesta hreads]
      have hresto : entero 4 ++ entero (-1) ≠ [] := by decide
      exact iff_of_false (fun h => hresto h.1) (by omega)
    · simp only [Option.bind_eq_bind, Option.bind_some, if_neg hmenos] at hrespuesta
      rw [responde_iff_informa hrespuesta hreads]
      dsimp only [Informa, InformaCantidad]
      omega

theorem responde_read {size offset : ℤ} (hsize : 0 ≤ size) (hlt : size < 2147483648)
    (h : eval ((read path size offset).codigo m basura fuel) s = some (producto, s')) :
    (read path size offset).Responde m basura s errno producto ↔
      (read path size offset).Atendida m s errno producto := by
  obtain ⟨leido, t, hleido, heval⟩ := eval_bind_some h
  cases heval
  rw [oRead, eval_bind, eval_dameNodoDe, Option.bind_some] at hleido
  dsimp only [Atendida]
  split_ifs at hleido with hnodo
  · cases hleido
    rw [responde_read_iff esInt_neg_one hsize (Nat.zero_le _)]
    exact iff_of_false (by omega) fun hatendida => hatendida.1 hnodo
  · simp only [eval_bind, eval_lock, eval_read, eval_unlock, eval_pure, Option.bind_some,
      Option.some.injEq, Prod.mk.injEq] at hleido
    obtain ⟨rfl, -⟩ := hleido
    have hresultado := leerArchivo_resultado (m := m) (s := s) (nodoDe m s path.cola - 1) offset
      hsize hlt
    have hint : EsInt (leerArchivo m (nodoDe m s path.cola - 1) size offset s).1 := by
      rw [EsInt]
      omega
    rw [responde_read_iff hint hsize (leerArchivo_length hsize hlt), and_iff_right hnodo]
    by_cases hrango : EnRango m s (nodoDe m s path.cola - 1) size offset
    · rcases hresultado with hcero | htodo | hmenos
      · exact iff_of_true (.inl hcero.1) hrango
      · exact iff_of_true (by omega) hrango
      · exact absurd hrango hmenos.2.2
    · rcases hresultado with hcero | htodo | hmenos
      · exact absurd hcero.2 hrango
      · exact absurd htodo.2 hrango
      · exact iff_of_false (by omega) hrango

/-! ## Queries -/

theorem bufferError_eq : bufferError basura = some (entero 4 ++ entero (-1)) :=
  bufferResultado_eq (-1)

theorem run_leerEntero_bind {α : Type} (x : ℤ) (f : ℤ → Reader α) (resto : List UInt8) :
    (leerEntero >>= f).run (entero 4 ++ entero x ++ resto) = (f (signed x)).run resto := by
  rw [StateT.run_bind, reads_leerEntero x resto]
  rfl

theorem eval_oReadDir (s : Estado) :
    eval (oReadDir m basura path) s =
      some ((if nodoDe m s path.cola = -1 then [entero 4 ++ entero (-1)] else []) ++
        [entero 4 ++ entero 0 ++
          (entero (directoriosPegoteados m s (nodoDe m s path.cola)).length ++
            directoriosPegoteados m s (nodoDe m s path.cola))], s) := by
  have havisar : eval (avisarError basura (nodoDe m s path.cola)) s =
      some (if nodoDe m s path.cola = -1 then [entero 4 ++ entero (-1)] else [], s) := by
    rw [avisarError]
    split_ifs
    · simp [enviar, bufferError_eq]
    · rfl
  rw [oReadDir, eval_bind, eval_dameNodoDe, Option.bind_some, eval_bind, havisar]
  simp only [enviar, bufferReadDir_eq, eval_bind, eval_lock, eval_unlock, eval_read, eval_orFail,
    eval_pure, Option.bind_some, Option.map_some]

/-- A listing: the message of an error is followed by another one, and the client
reads a list whose length is an `int`. -/
theorem responde_readDir
    (h : eval ((readDir path).codigo m basura fuel) s = some (producto, s')) :
    (readDir path).Responde m basura s errno producto ↔
      (readDir path).Atendida m s errno producto := by
  obtain ⟨enviados, t, henviados, heval⟩ := eval_bind_some h
  cases heval
  rw [eval_oReadDir, Option.some.injEq, Prod.mk.injEq] at henviados
  obtain ⟨rfl, -⟩ := henviados
  dsimp only [Atendida]
  generalize directoriosPegoteados m s (nodoDe m s path.cola) = texto
  by_cases hnodo : nodoDe m s path.cola = -1
  · have hreads : Reads ((readDir path).recibir errno) (entero 4 ++ entero (-1))
        { valor := enoent } := by
      rw [← List.append_nil (entero 4 ++ entero (-1))]
      exact (reads_leerEntero (-1)).bind (Reads.pure ({ valor := enoent } : Recibido))
    have hrespuesta : (readDir path).respuesta basura (.mensajes
        ((if nodoDe m s path.cola = -1 then [entero 4 ++ entero (-1)] else []) ++
          [entero 4 ++ entero 0 ++ (entero texto.length ++ texto)])) =
        some ((entero 4 ++ entero (-1)) ++
          (entero 4 ++ entero 0 ++ (entero texto.length ++ texto))) := by
      rw [if_pos hnodo]
      simp [respuesta]
    rw [responde_iff_of_reads hrespuesta hreads]
    refine iff_of_false (fun hresto => ?_) fun hatendida => hatendida.1 hnodo
    have hlen := congrArg List.length hresto.1
    simp [length_entero] at hlen
  · have hrespuesta : (readDir path).respuesta basura (.mensajes
        ((if nodoDe m s path.cola = -1 then [entero 4 ++ entero (-1)] else []) ++
          [entero 4 ++ entero 0 ++ (entero texto.length ++ texto)])) =
        some (entero 4 ++ entero 0 ++ (entero texto.length ++ texto)) := by
      rw [if_neg hnodo]
      simp [respuesta]
    rw [and_iff_right hnodo]
    rcases lt_or_ge texto.length 2147483648 with hlt | hge
    · have hreads : Reads ((readDir path).recibir errno) _ { valor := 0, texto := texto } :=
        reads_helloReaddir hlt
      rw [responde_iff_informa hrespuesta hreads]
      exact iff_of_true (by simp [Informa, hnodo]) hlt
    · refine iff_of_false ?_ (not_lt.2 hge)
      rintro ⟨respuesta, recibido, hrespuesta', hrun, -⟩
      rw [hrespuesta, Option.some.injEq] at hrespuesta'
      rw [← hrespuesta'] at hrun
      have hcabeza : ((readDir path).recibir errno).run
          (entero 4 ++ entero 0 ++ (entero texto.length ++ texto)) =
            (readField >>= fun texto => pure ({ valor := 0, texto := texto } : Recibido)).run
              (entero texto.length ++ texto) := run_leerEntero_bind 0 _ _
      rw [hcabeza, StateT.run_bind, entero_natCast] at hrun
      rcases run_readField_of_le hge with hnone | ⟨l', rest, hsome, hrest⟩
      · rw [hnone] at hrun
        cases hrun
      · rw [hsome] at hrun
        cases hrun
        exact hrest rfl

/-- The reply with some attributes. -/
def bytesAtributos (a : Atributos) : List UInt8 :=
  entero 4 ++ entero 0 ++ (entero 4 ++ entero a.mode ++ (entero 4 ++ entero a.nlink ++
    (entero 4 ++ entero a.size ++ (entero 4 ++ entero a.mtime ++ (entero 4 ++ entero a.ctime ++
      (entero 4 ++ entero a.atime))))))

theorem eval_oGetAttr (s : Estado) (hpath : path.cola ≠ []) :
    eval (oGetAttr m basura ahora path) s =
      some ([if nodoDe m s path.cola = -1 then entero 4 ++ entero (-1)
        else bytesAtributos (atributos m ahora (nodoDe m s path.cola - 1) s)], s) := by
  rw [oGetAttr, eval_bind, eval_dameNodoDe, Option.bind_some]
  dsimp only
  split_ifs
  · simp only [enviar, bufferError_eq, eval_bind, eval_orFail, Option.map_some, Option.bind_some,
      eval_pure]
  · simp only [enviar, bufferAtributos_eq, eval_bind, eval_lock, eval_unlock, eval_read,
      eval_orFail, Option.map_some, Option.bind_some, eval_pure, bytesAtributos]

theorem reads_helloGetattr (a : Atributos) :
    Reads helloGetattr (bytesAtributos a) { valor := 0, stat := some a.leidos } := by
  apply (reads_leerEntero 0).bind
  apply (reads_leerEntero a.mode).bind
  apply (reads_leerEntero a.nlink).bind
  apply (reads_leerEntero a.size).bind
  apply (reads_leerEntero a.mtime).bind
  apply (reads_leerEntero a.ctime).bind
  exact (reads_leerEntero a.atime).bindPure fun acceso : ℤ =>
    ({ valor := 0, stat := some { a.leidos with atime := acceso } } : Recibido)

theorem responde_getAttr (hpath : path.cola ≠ [])
    (h : eval ((getAttr ahora path).codigo m basura fuel) s = some (producto, s')) :
    (getAttr ahora path).Responde m basura s errno producto := by
  obtain ⟨enviados, t, henviados, heval⟩ := eval_bind_some h
  cases heval
  rw [eval_oGetAttr s hpath, Option.some.injEq, Prod.mk.injEq] at henviados
  obtain ⟨rfl, -⟩ := henviados
  have hrespuesta : ∀ l : List UInt8,
      (getAttr ahora path).respuesta basura (.mensajes [l]) = some l := by
    intro l
    simp [respuesta]
  split_ifs with hnodo
  · have hreads : Reads ((getAttr ahora path).recibir errno) (entero 4 ++ entero (-1))
        { valor := enoent } := by
      rw [← List.append_nil (entero 4 ++ entero (-1))]
      exact (reads_leerEntero (-1)).bind (Reads.pure ({ valor := enoent } : Recibido))
    rw [responde_iff_informa (hrespuesta _) hreads]
    simp [Informa, hnodo, enoent]
  · have hreads : Reads ((getAttr ahora path).recibir errno) _ _ :=
      reads_helloGetattr (atributos m ahora (nodoDe m s path.cola - 1) s)
    rw [responde_iff_informa (hrespuesta _) hreads]
    simp [Informa, hnodo]

/-- The client reads exactly the reply to a request that it sends, and reports the
result, if and only if the request meets its condition. -/
theorem responde_iff (hcabe : p.Cabe) (henvia : ¬ p.SinEnvio)
    (h : eval (p.codigo m basura fuel) s = some (producto, s')) :
    p.Responde m basura s errno producto ↔ p.Atendida m s errno producto := by
  cases p with
  | read path size offset => exact responde_read hcabe.1 hcabe.2 h
  | write ahora path offset buf => exact iff_of_true (responde_write hcabe h) trivial
  | readDir path => exact responde_readDir h
  | getAttr ahora path => exact iff_of_true (responde_getAttr henvia h) trivial
  | create ahora path => exact EsEstado.responde_iff trivial h
  | mkdir path => exact EsEstado.responde_iff trivial h
  | unlink path => exact EsEstado.responde_iff trivial h
  | rmdir path => exact EsEstado.responde_iff trivial h
  | truncate path n => exact EsEstado.responde_iff trivial h
  | rename pathAntiguo nuevoPath => exact EsEstado.responde_iff trivial h

end Peticion

/-! ## Sessions -/

/-- A call of a function of the client, with the value of `errno` at that moment. -/
structure Llamada where
  peticion : Peticion
  errno : ℤ
  cabe : peticion.Cabe

/-- The disk of the server and the bytes that it has sent and the client has not
read. -/
structure Conexion where
  disco : Estado
  pendiente : List UInt8

/-- What the client answers by itself. -/
def respuestaLocal : Recibido := { valor := 0, stat := some ⟨modoDirectorio, 2, 0, 0, 0, 0⟩ }

/-- Every operation of the session returns, the client reads its reply from what is
pending, and the value reports the result; nothing is pending before each call or
at the end. -/
def Encuadrada (m : Montaje) (basura : ℕ → UInt8) : List Llamada → Conexion → Prop
  | [], c => c.pendiente = []
  | l :: llamadas, c => c.pendiente = [] ∧
      if l.peticion.SinEnvio then
        l.peticion.Informa m c.disco (.mensajes []) respuestaLocal.valor ∧
          Encuadrada m basura llamadas c
      else
        ∃ fuel producto disco respuesta recibido pendiente,
          eval (l.peticion.codigo m basura fuel) c.disco = some (producto, disco) ∧
          l.peticion.respuesta basura producto = some respuesta ∧
          (l.peticion.recibir l.errno).run (c.pendiente ++ respuesta) =
            some (recibido, pendiente) ∧
          l.peticion.Informa m c.disco producto recibido.valor ∧
          Encuadrada m basura llamadas ⟨disco, pendiente⟩

/-- Every operation of the session returns, and its request meets its condition. -/
def Atendidas (m : Montaje) (basura : ℕ → UInt8) : List Llamada → Estado → Prop
  | [], _ => True
  | l :: llamadas, s =>
      if l.peticion.SinEnvio then Atendidas m basura llamadas s
      else
        ∃ fuel producto disco, eval (l.peticion.codigo m basura fuel) s = some (producto, disco) ∧
          l.peticion.Atendida m s l.errno producto ∧ Atendidas m basura llamadas disco

theorem Encuadrada.pendiente_eq {llamadas : List Llamada} {c : Conexion}
    (h : Encuadrada m basura llamadas c) : c.pendiente = [] := by
  cases llamadas with
  | nil => exact h
  | cons l llamadas => exact h.1

/-- The root resolves. -/
theorem Peticion.SinEnvio.informa {p : Peticion} (h : p.SinEnvio) :
    p.Informa m s (.mensajes []) respuestaLocal.valor := by
  cases p <;> try exact h.elim
  rename_i ahora path
  refine iff_of_true rfl ?_
  have hpath : path.cola = [] := h
  rw [hpath]
  exact (by decide : (0 : ℤ) ≠ -1)

/-- A session is at a message boundary before each call and each call reports the
result of the server if and only if every operation returns and every request meets
its condition. -/
theorem encuadrada_iff (m : Montaje) (basura : ℕ → UInt8) (llamadas : List Llamada)
    (s : Estado) : Encuadrada m basura llamadas ⟨s, []⟩ ↔ Atendidas m basura llamadas s := by
  induction llamadas generalizing s with
  | nil => exact iff_of_true rfl trivial
  | cons l llamadas ih =>
      rw [Encuadrada, Atendidas, and_iff_right rfl]
      by_cases hlocal : l.peticion.SinEnvio
      · rw [if_pos hlocal, if_pos hlocal, and_iff_right hlocal.informa]
        exact ih s
      · rw [if_neg hlocal, if_neg hlocal]
        constructor
        · rintro ⟨fuel, producto, disco, respuesta, recibido, pendiente, heval, hrespuesta, hrun,
            hinforma, hresto⟩
          have hpendiente : pendiente = [] := hresto.pendiente_eq
          subst hpendiente
          refine ⟨fuel, producto, disco, heval, ?_, (ih disco).1 hresto⟩
          exact (Peticion.responde_iff l.cabe hlocal heval).1
            ⟨respuesta, recibido, hrespuesta, hrun, hinforma⟩
        · rintro ⟨fuel, producto, disco, heval, hatendida, hresto⟩
          obtain ⟨respuesta, recibido, hrespuesta, hrun, hinforma⟩ :=
            (Peticion.responde_iff l.cabe hlocal heval).2 hatendida
          exact ⟨fuel, producto, disco, respuesta, recibido, [], heval, hrespuesta, hrun, hinforma,
            (ih disco).2 hresto⟩

/-- A read of four bytes of `/b`. -/
def leerB : Llamada := ⟨.read ⟨[98], by decide⟩ 4 0, 0, by simp [Peticion.Cabe]⟩

theorem encuadrada_leerB :
    ¬ ∀ (m : Montaje) (basura : ℕ → UInt8) (llamadas : List Llamada) (s : Estado),
      Encuadrada m basura llamadas ⟨s, []⟩ := by
  intro hclaim
  have hsesion := hclaim montajeChico (fun _ => 0) [leerB] discoConArchivo
  obtain ⟨-, hsesion⟩ := hsesion
  rw [if_neg (show ¬ leerB.peticion.SinEnvio from id)] at hsesion
  obtain ⟨fuel, producto, disco, respuesta, recibido, pendiente, heval, hrespuesta, hrun,
    hinforma, hresto⟩ := hsesion
  have hpendiente : pendiente = [] := hresto
  subst hpendiente
  have hatendida := (Peticion.responde_iff leerB.cabe id heval).1
    ⟨respuesta, recibido, hrespuesta, hrun, hinforma⟩
  exact hatendida.1 (libre_discoConArchivo.nodoDe_eq_neg_one [] [98] rfl
    (by decide +kernel))

end Sac
