import Mathlib.Data.List.TakeWhile
import Linuse.Wire.Buffer
import Linuse.Wire.Reader

/-!
# Requests of the memory client library

Each function of the library fills a buffer with an operation number and its
arguments, every field after its announced size, and sends it. The server reads
the fields back, each with the size announced for it. The server recovers every
sequence of calls and stands at a message boundary after each of them
(`bucle_enviar`).
-/

namespace Muse

open Wire

/-- A call of the library. A pointer argument is given by the bytes that it points
to; the arguments of `muse_init` are not sent. -/
inductive Llamada
  | init
  | close
  | alloc (tam : UInt32)
  | free (dir : UInt32)
  | get (dst : List UInt8) (src : UInt32) (n : ℕ)
  | cpy (dst : UInt32) (src : List UInt8) (n : ℕ)
  | map (path : List UInt8) (length : ℕ) (flags : Int32)
  | sync (addr : UInt32) (len : ℕ)
  | unmap (dir : UInt32)
  deriving DecidableEq, Repr

/-! ## The encoders -/

section Cliente

variable (sizeT : ℕ) (basura : ℕ → UInt8)

def museInit : Option (List UInt8) :=
  sendBuffer basura (2 * 4) [(0, toBytes 4 4), (4, toBytes 4 1)]

def museClose : Option (List UInt8) :=
  sendBuffer basura (2 * 4) [(0, toBytes 4 4), (4, toBytes 4 2)]

def museAlloc (tam : UInt32) : Option (List UInt8) :=
  sendBuffer basura (3 * 4 + 4)
    [(0, toBytes 4 4), (4, toBytes 4 3), (2 * 4, toBytes 4 4), (3 * 4, toBytes 4 tam.toNat)]

def museFree (dir : UInt32) : Option (List UInt8) :=
  sendBuffer basura (3 * 4 + 4)
    [(0, toBytes 4 4), (4, toBytes 4 4), (2 * 4, toBytes 4 4), (3 * 4, toBytes 4 dir.toNat)]

def museGet (dst : List UInt8) (src : UInt32) (n : ℕ) : Option (List UInt8) :=
  sendBuffer basura (5 * 4 + 4 + n + sizeT)
    [(0, toBytes 4 4), (4, toBytes 4 5), (2 * 4, toBytes 4 n), (3 * 4, dst.take n),
      (3 * 4 + n, toBytes 4 4), (4 * 4 + n, toBytes 4 src.toNat),
      (4 * 4 + 4 + n, toBytes 4 sizeT), (5 * 4 + 4 + n, toBytes sizeT n)]

def museCpy (dst : UInt32) (src : List UInt8) (n : ℕ) : Option (List UInt8) :=
  sendBuffer basura (6 * 4 + 4 + n)
    [(0, toBytes 4 4), (4, toBytes 4 6), (2 * 4, toBytes 4 4), (3 * 4, toBytes 4 dst.toNat),
      (3 * 4 + 4, toBytes 4 n), (4 * 4 + 4, src.take n), (4 * 4 + 4 + n, toBytes 4 4),
      (5 * 4 + 4 + n, toBytes 4 n)]

def museMap (path : List UInt8) (length : ℕ) (flags : Int32) : Option (List UInt8) :=
  sendBuffer basura (6 * 4 + path.length + sizeT)
    [(0, toBytes 4 4), (4, toBytes 4 7), (2 * 4, toBytes 4 path.length), (3 * 4, path),
      (3 * 4 + path.length, toBytes 4 sizeT), (4 * 4 + path.length, toBytes sizeT length),
      (4 * 4 + path.length + sizeT, toBytes 4 4),
      (5 * 4 + path.length + sizeT, toBytes 4 flags.toUInt32.toNat)]

def museSync (addr : UInt32) (len : ℕ) : Option (List UInt8) :=
  sendBuffer basura (4 * 4 + 4 + sizeT)
    [(0, toBytes 4 4), (4, toBytes 4 8), (2 * 4, toBytes 4 4), (3 * 4, toBytes 4 addr.toNat),
      (3 * 4 + 4, toBytes 4 sizeT), (4 * 4 + 4, toBytes sizeT len)]

def museUnmap (dir : UInt32) : Option (List UInt8) :=
  sendBuffer basura (3 * 4 + 4)
    [(0, toBytes 4 4), (4, toBytes 4 9), (2 * 4, toBytes 4 4), (3 * 4, toBytes 4 dir.toNat)]

/-- The bytes that a call sends. -/
def Llamada.enviar : Llamada → Option (List UInt8)
  | .init => museInit basura
  | .close => museClose basura
  | .alloc tam => museAlloc basura tam
  | .free dir => museFree basura dir
  | .get dst src n => museGet sizeT basura dst src n
  | .cpy dst src n => museCpy basura dst src n
  | .map path length flags => museMap sizeT basura path length flags
  | .sync addr len => museSync sizeT basura addr len
  | .unmap dir => museUnmap basura dir

end Cliente

/-- The bytes that a sequence of calls sends, each with its own fresh buffer. -/
def enviarTodas (sizeT : ℕ) : List ((ℕ → UInt8) × Llamada) → Option (List UInt8)
  | [] => some []
  | c :: llamadas => do
      let bytes ← c.2.enviar sizeT c.1
      let resto ← enviarTodas sizeT llamadas
      return bytes ++ resto

/-! ## The decoders -/

section Servidor

variable (sizeT : ℕ)

def leerInt : Reader ℕ := readNat 4

/-- Reads a size and then as many bytes into a buffer of that size. -/
def leerAnunciado : Reader (List UInt8) := do
  let tamanio ← leerInt
  if tamanio < 2147483648 then readBytes tamanio else failure

/-- Reads a buffer of announced size and takes the object of `w` bytes in it. -/
def leerObjeto (w : ℕ) : Reader ℕ := do
  let buffer ← leerAnunciado
  StateT.lift (load w buffer)

def atenderMuseAlloc : Reader Llamada := do
  let bytesAReservar ← leerObjeto 4
  return .alloc (UInt32.ofNat bytesAReservar)

/-- The announced size of the address is read and not used. -/
def atenderMuseFree : Reader Llamada := do
  let _ ← leerInt
  let direccionDeMemoria ← readNat 4
  return .free (UInt32.ofNat direccionDeMemoria)

def atenderMuseGet : Reader Llamada := do
  let dst ← leerAnunciado
  let src ← leerObjeto 4
  let n ← leerObjeto sizeT
  return .get dst (UInt32.ofNat src) n

/-- The integer that the handler also loads from `src` is not used. -/
def atenderMuseCopy : Reader Llamada := do
  let dst ← leerObjeto 4
  let src ← leerAnunciado
  let n ← leerObjeto 4
  return .cpy (UInt32.ofNat dst) src n

/-- `string_substring_until` keeps the bytes of the path before its first NUL. -/
def atenderMuseMap : Reader Llamada := do
  let dst ← leerAnunciado
  let length ← leerObjeto sizeT
  let flags ← leerObjeto 4
  return .map (dst.takeWhile (· ≠ 0)) length (UInt32.ofNat flags).toInt32

def atenderMuseSync : Reader Llamada := do
  let addr ← leerObjeto 4
  let len ← leerObjeto sizeT
  return .sync (UInt32.ofNat addr) len

def atenderMuseUnmap : Reader Llamada := do
  let dir ← leerObjeto 4
  return .unmap (UInt32.ofNat dir)

/-- The handler that the operation number selects; an unknown number is ignored. -/
def atender : ℕ → Reader (Option Llamada)
  | 1 => return some .init
  | 2 => return some .close
  | 3 => some <$> atenderMuseAlloc
  | 4 => some <$> atenderMuseFree
  | 5 => some <$> atenderMuseGet sizeT
  | 6 => some <$> atenderMuseCopy
  | 7 => some <$> atenderMuseMap sizeT
  | 8 => some <$> atenderMuseSync sizeT
  | 9 => some <$> atenderMuseUnmap
  | _ => return none

/-- One message: the size of the operation number, the number and its arguments. -/
def mensaje : Reader (Option Llamada) := do
  let _ ← leerInt
  let operacion ← leerInt
  atender sizeT operacion

/-- At most `n` iterations of the read loop over one connection; it ends when there
is nothing to read. -/
def bucle : ℕ → Reader (List Llamada)
  | 0 => return []
  | n + 1 => do
      let pendiente ← get
      if pendiente.isEmpty then return []
      else
        let llamada ← mensaje sizeT
        let llamadas ← bucle n
        return llamada.toList ++ llamadas

end Servidor

/-! ## The wire format -/

/-- The size of the operation number and the number. -/
def cabecera (operacion : ℕ) : List UInt8 :=
  toBytes 4 4 ++ toBytes 4 operacion

/-- A field after its size. -/
def campo (l : List UInt8) : List UInt8 :=
  toBytes 4 l.length ++ l

namespace Llamada

/-- The fields of a call on the wire. -/
def campos (sizeT : ℕ) : Llamada → List UInt8
  | init => []
  | close => []
  | alloc tam => campo (toBytes 4 tam.toNat)
  | free dir => campo (toBytes 4 dir.toNat)
  | get dst src n => campo dst ++ (campo (toBytes 4 src.toNat) ++ campo (toBytes sizeT n))
  | cpy dst src n => campo (toBytes 4 dst.toNat) ++ (campo src ++ campo (toBytes 4 n))
  | map path length flags =>
      campo path ++ (campo (toBytes sizeT length) ++ campo (toBytes 4 flags.toUInt32.toNat))
  | sync addr len => campo (toBytes 4 addr.toNat) ++ campo (toBytes sizeT len)
  | unmap dir => campo (toBytes 4 dir.toNat)

def operacion : Llamada → ℕ
  | init => 1
  | close => 2
  | alloc _ => 3
  | free _ => 4
  | get _ _ _ => 5
  | cpy _ _ _ => 6
  | map _ _ _ => 7
  | sync _ _ => 8
  | unmap _ => 9

def bytes (sizeT : ℕ) (c : Llamada) : List UInt8 :=
  cabecera c.operacion ++ c.campos sizeT

/-- The pointers point to as many bytes as the call says, a path is a C string, and
sizes fit an `int` and lengths a `size_t`. -/
def Valida (sizeT : ℕ) : Llamada → Prop
  | get dst _ n => dst.length = n ∧ n < 2147483648
  | cpy _ src n => src.length = n ∧ n < 2147483648
  | map path length _ => 0 ∉ path ∧ path.length < 2147483648 ∧ length < 256 ^ sizeT
  | sync _ len => len < 256 ^ sizeT
  | _ => True

end Llamada

section Formato

variable {sizeT : ℕ}

theorem reads_leerInt {n : ℕ} (hn : n < 4294967296) : Reads leerInt (toBytes 4 n) n :=
  reads_readNat hn

theorem reads_leerAnunciado {l : List UInt8} (hl : l.length < 2147483648) :
    Reads leerAnunciado (campo l) l := by
  apply (reads_leerInt (by omega)).bind
  rw [if_pos hl]
  exact reads_readBytes l

theorem reads_leerObjeto {w n : ℕ} (hw : w < 2147483648) (hn : n < 256 ^ w) :
    Reads (leerObjeto w) (campo (toBytes w n)) n := by
  have hread := reads_leerAnunciado (l := toBytes w n) (by rwa [length_toBytes])
  have hbind := hread.bind (f := fun buffer => StateT.lift (load w buffer))
    (.lift (load_toBytes hn))
  rwa [List.append_nil] at hbind

/-- An argument of four bytes. -/
theorem reads_leerObjeto_uint32 (x : UInt32) :
    Reads (leerObjeto 4) (campo (toBytes 4 x.toNat)) x.toNat :=
  reads_leerObjeto (by omega) x.toNat_lt

theorem Llamada.Valida.reads_atender {c : Llamada} (hT : sizeT = 4 ∨ sizeT = 8)
    (h : c.Valida sizeT) : Reads (atender sizeT c.operacion) (c.campos sizeT) (some c) := by
  have hT' : sizeT < 2147483648 := by omega
  have hle : 4294967296 ≤ 256 ^ sizeT := by
    rcases hT with rfl | rfl <;> decide
  cases c with
  | init => exact .pure _
  | close => exact .pure _
  | alloc tam =>
      have hread := (reads_leerObjeto_uint32 tam).bindPure
        fun n => Llamada.alloc (UInt32.ofNat n)
      simp only [UInt32.ofNat_toNat] at hread
      exact hread.map some
  | free dir =>
      have hread := (reads_readNat (w := 4) dir.toNat_lt).bindPure
        fun n => Llamada.free (UInt32.ofNat n)
      simp only [UInt32.ofNat_toNat] at hread
      apply Reads.map some
      apply (reads_leerInt (by rw [length_toBytes]; decide)).bind
      exact hread
  | get dst src n =>
      obtain ⟨rfl, hn⟩ := h
      apply Reads.map some
      apply (reads_leerAnunciado hn).bind
      apply (reads_leerObjeto_uint32 src).bind
      rw [UInt32.ofNat_toNat]
      exact (reads_leerObjeto hT' (by omega)).bindPure _
  | cpy dst src n =>
      obtain ⟨rfl, hn⟩ := h
      apply Reads.map some
      apply (reads_leerObjeto_uint32 dst).bind
      apply (reads_leerAnunciado hn).bind
      rw [UInt32.ofNat_toNat]
      exact (reads_leerObjeto (by omega) (by omega)).bindPure _
  | map path length flags =>
      obtain ⟨hpath, hlen, hlength⟩ := h
      have htake : path.takeWhile (· ≠ 0) = path := by
        rw [List.takeWhile_eq_self_iff]
        intro b hb
        exact decide_eq_true fun h0 => hpath (h0 ▸ hb)
      have hflags := (reads_leerObjeto_uint32 flags.toUInt32).bindPure
        fun n => Llamada.map path length (UInt32.ofNat n).toInt32
      simp only [UInt32.ofNat_toNat] at hflags
      apply Reads.map some
      apply (reads_leerAnunciado hlen).bind
      apply (reads_leerObjeto hT' hlength).bind
      rw [htake]
      exact hflags
  | sync addr len =>
      apply Reads.map some
      apply (reads_leerObjeto_uint32 addr).bind
      rw [UInt32.ofNat_toNat]
      exact (reads_leerObjeto hT' h).bindPure _
  | unmap dir =>
      have hread := (reads_leerObjeto_uint32 dir).bindPure
        fun n => Llamada.unmap (UInt32.ofNat n)
      simp only [UInt32.ofNat_toNat] at hread
      exact hread.map some

theorem reads_mensaje {c : Llamada} (hT : sizeT = 4 ∨ sizeT = 8) (h : c.Valida sizeT) :
    Reads (mensaje sizeT) (c.bytes sizeT) (some c) := by
  have hop : c.operacion < 4294967296 := by
    cases c <;> simp [Llamada.operacion]
  rw [Llamada.bytes, cabecera, List.append_assoc]
  apply (reads_leerInt (by decide)).bind
  apply (reads_leerInt hop).bind
  exact h.reads_atender hT

/-- What a call sends does not depend on the fresh buffer. -/
theorem Llamada.Valida.enviar_eq {c : Llamada} (h : c.Valida sizeT) (basura : ℕ → UInt8) :
    c.enviar sizeT basura = some (c.bytes sizeT) := by
  cases c with
  | init => exact sendBuffer_of_consecutive basura (by simp [Consecutive]) rfl
  | close => exact sendBuffer_of_consecutive basura (by simp [Consecutive]) rfl
  | alloc tam =>
      refine (sendBuffer_of_consecutive basura ?_ ?_).trans ?_
      · simp [Consecutive]
      · simp
      · simp [bytes, campos, cabecera, operacion, campo]
  | free dir =>
      refine (sendBuffer_of_consecutive basura ?_ ?_).trans ?_
      · simp [Consecutive]
      · simp
      · simp [bytes, campos, cabecera, operacion, campo]
  | get dst src n =>
      obtain ⟨rfl, -⟩ := h
      refine (sendBuffer_of_consecutive basura ?_ ?_).trans ?_
      · simp [Consecutive]
        omega
      · simp
        omega
      · simp [bytes, campos, cabecera, operacion, campo]
  | cpy dst src n =>
      obtain ⟨rfl, -⟩ := h
      refine (sendBuffer_of_consecutive basura ?_ ?_).trans ?_
      · simp [Consecutive]
        omega
      · simp
        omega
      · simp [bytes, campos, cabecera, operacion, campo]
  | map path length flags =>
      refine (sendBuffer_of_consecutive basura ?_ ?_).trans ?_
      · simp [Consecutive]
        omega
      · simp
        omega
      · simp [bytes, campos, cabecera, operacion, campo]
  | sync addr len =>
      refine (sendBuffer_of_consecutive basura ?_ ?_).trans ?_
      · simp [Consecutive]
      · simp
        omega
      · simp [bytes, campos, cabecera, operacion, campo]
  | unmap dir =>
      refine (sendBuffer_of_consecutive basura ?_ ?_).trans ?_
      · simp [Consecutive]
      · simp
      · simp [bytes, campos, cabecera, operacion, campo]

theorem enviarTodas_eq {l : List ((ℕ → UInt8) × Llamada)} (h : ∀ c ∈ l, c.2.Valida sizeT) :
    enviarTodas sizeT l = some (l.flatMap fun c => c.2.bytes sizeT) := by
  induction l with
  | nil => rfl
  | cons c l ih =>
      rw [List.forall_mem_cons] at h
      rw [enviarTodas, h.1.enviar_eq, ih h.2, List.flatMap_cons]
      rfl

theorem bytes_ne_nil (c : Llamada) (resto : List UInt8) : c.bytes sizeT ++ resto ≠ [] := by
  simp [Llamada.bytes, cabecera, toBytes]

/-- An iteration of the loop reads one message. -/
theorem bucle_succ {c : Llamada} (hT : sizeT = 4 ∨ sizeT = 8) (h : c.Valida sizeT) (n : ℕ)
    (resto : List UInt8) :
    (bucle sizeT (n + 1)).run (c.bytes sizeT ++ resto) =
      ((bucle sizeT n).run resto).map fun r => (c :: r.1, r.2) := by
  have hne : (c.bytes sizeT ++ resto).isEmpty = false := by
    rw [List.isEmpty_eq_false_iff]
    exact bytes_ne_nil c resto
  rw [bucle, StateT.run_bind, StateT.run_get]
  simp only [hne, Option.pure_def, Option.bind_eq_bind, Option.bind_some, StateT.run_bind,
    reads_mensaje hT h resto, Bool.false_eq_true, if_false]
  cases (bucle sizeT n).run resto <;> rfl

/-- After as many iterations as calls the loop stands behind their bytes. -/
theorem reads_bucle {l : List ((ℕ → UInt8) × Llamada)} (hT : sizeT = 4 ∨ sizeT = 8)
    (h : ∀ c ∈ l, c.2.Valida sizeT) :
    Reads (bucle sizeT l.length) (l.flatMap fun c => c.2.bytes sizeT) (l.map Prod.snd) := by
  intro resto
  induction l with
  | nil => rfl
  | cons c l ih =>
      rw [List.forall_mem_cons] at h
      rw [List.flatMap_cons, List.append_assoc, List.length_cons, bucle_succ hT h.1, ih h.2]
      rfl

theorem bucle_nil (n : ℕ) : (bucle sizeT n).run [] = some ([], []) := by
  cases n with
  | zero => rfl
  | succ n => rfl

theorem bucle_todas {l : List ((ℕ → UInt8) × Llamada)} (hT : sizeT = 4 ∨ sizeT = 8)
    (h : ∀ c ∈ l, c.2.Valida sizeT) {n : ℕ} (hn : l.length ≤ n) :
    (bucle sizeT n).run (l.flatMap fun c => c.2.bytes sizeT) = some (l.map Prod.snd, []) := by
  induction l generalizing n with
  | nil => exact bucle_nil n
  | cons c l ih =>
      rw [List.forall_mem_cons] at h
      obtain ⟨n, rfl⟩ : ∃ m, n = m + 1 := ⟨n - 1, by rw [List.length_cons] at hn; omega⟩
      rw [List.flatMap_cons, bucle_succ hT h.1, ih h.2 (by simpa using hn)]
      rfl

end Formato

/-- The server recovers every sequence of calls with their arguments from the
bytes that they send, whatever the fresh buffers held: after the calls `l₁` it has
read exactly their bytes, and it stops with every byte consumed. -/
theorem bucle_enviar {sizeT : ℕ} (hT : sizeT = 4 ∨ sizeT = 8)
    {l₁ l₂ : List ((ℕ → UInt8) × Llamada)} (h : ∀ c ∈ l₁ ++ l₂, c.2.Valida sizeT) :
    ∃ b₁ b₂, enviarTodas sizeT l₁ = some b₁ ∧ enviarTodas sizeT (l₁ ++ l₂) = some (b₁ ++ b₂) ∧
      (bucle sizeT l₁.length).run (b₁ ++ b₂) = some (l₁.map Prod.snd, b₂) ∧
      ∀ n, (l₁ ++ l₂).length ≤ n →
        (bucle sizeT n).run (b₁ ++ b₂) = some ((l₁ ++ l₂).map Prod.snd, []) := by
  have h₁ : ∀ c ∈ l₁, c.2.Valida sizeT := fun c hc => h c (List.mem_append_left _ hc)
  refine ⟨_, l₂.flatMap fun c => c.2.bytes sizeT, enviarTodas_eq h₁, ?_, ?_, ?_⟩
  · rw [enviarTodas_eq h, List.flatMap_append]
  · exact reads_bucle hT h₁ _
  · intro n hn
    rw [← List.flatMap_append]
    exact bucle_todas hT h hn

/-- A copy of three bytes and the request to read them back. -/
theorem bucle_enviar_copia :
    ∃ b₁ b₂, enviarTodas 4 [(fun _ => 0, Llamada.cpy 96 [1, 2, 3] 3)] = some b₁ ∧
      enviarTodas 4 ([(fun _ => 0, Llamada.cpy 96 [1, 2, 3] 3)] ++
        [(fun _ => 0, Llamada.get [0, 0, 0] 96 3)]) = some (b₁ ++ b₂) ∧
      (bucle 4 1).run (b₁ ++ b₂) = some ([Llamada.cpy 96 [1, 2, 3] 3], b₂) ∧
      ∀ n, 2 ≤ n → (bucle 4 n).run (b₁ ++ b₂) =
        some ([Llamada.cpy 96 [1, 2, 3] 3, Llamada.get [0, 0, 0] 96 3], []) :=
  bucle_enviar (Or.inl rfl) (by simp [Llamada.Valida])

end Muse
