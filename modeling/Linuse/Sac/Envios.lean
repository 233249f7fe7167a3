import Linuse.Sac.Encuadre

/-!
# Framing of the requests

The client sends the number of the operation and its arguments, each after its size, and the thread
of the server reads them back. The server reads exactly the requests that the client has sent, in
their order, however many are waiting in the stream (`reads_envios`).
-/

namespace Sac

open Memory Locks Wire

/-- The bytes of a path, with its first slash. -/
def Ruta.bytes (path : Ruta) : List UInt8 := 47 :: path.cola

/-- `strlen`; on a buffer without a NUL it goes on over what is after it. -/
def strlen (tras : ℕ) (buf : List UInt8) : ℕ :=
  if 0 ∈ buf then (buf.takeWhile (· != 0)).length else buf.length + tras

/-! ## The client -/

section Cliente

variable (basura : ℕ → UInt8)

/-- The requests that bring a path only. -/
def enviarPath (peticion : ℤ) (path : Ruta) : Option (List UInt8) :=
  sendBuffer basura (3 * 4 + path.bytes.length)
    [(0, entero 4), (4, entero peticion), (2 * 4, entero path.bytes.length), (3 * 4, path.bytes)]

def enviarRead (path : Ruta) (size offset : ℤ) : Option (List UInt8) :=
  sendBuffer basura (7 * 4 + path.bytes.length)
    [(0, entero 4), (4, entero 3), (2 * 4, entero path.bytes.length), (3 * 4, path.bytes),
      (3 * 4 + path.bytes.length, entero 4), (4 * 4 + path.bytes.length, entero size),
      (5 * 4 + path.bytes.length, entero 4), (6 * 4 + path.bytes.length, entero offset)]

/-- The size announced for the bytes is what `strlen` gives on them. -/
def enviarWrite (tras : ℕ) (path : Ruta) (offset : ℤ) (buf : List UInt8) : Option (List UInt8) :=
  sendBuffer basura (8 * 4 + path.bytes.length + buf.length)
    [(0, entero 4), (4, entero 9), (2 * 4, entero path.bytes.length), (3 * 4, path.bytes),
      (3 * 4 + path.bytes.length, entero 4), (4 * 4 + path.bytes.length, entero buf.length),
      (5 * 4 + path.bytes.length, entero 4), (6 * 4 + path.bytes.length, entero offset),
      (7 * 4 + path.bytes.length, entero (strlen tras buf)), (8 * 4 + path.bytes.length, buf)]

def enviarTruncate (path : Ruta) (offset : ℤ) : Option (List UInt8) :=
  sendBuffer basura (5 * 4 + path.bytes.length)
    [(0, entero 4), (4, entero 10), (2 * 4, entero path.bytes.length), (3 * 4, path.bytes),
      (3 * 4 + path.bytes.length, entero 4), (4 * 4 + path.bytes.length, entero offset)]

def enviarRename (oldpath newpath : Ruta) : Option (List UInt8) :=
  sendBuffer basura (4 * 4 + oldpath.bytes.length + newpath.bytes.length)
    [(0, entero 4), (4, entero 11), (2 * 4, entero oldpath.bytes.length), (3 * 4, oldpath.bytes),
      (3 * 4 + oldpath.bytes.length, entero newpath.bytes.length),
      (4 * 4 + oldpath.bytes.length, newpath.bytes)]

/-- The bytes that the function of the client sends. -/
def Peticion.envio (tras : ℕ) : Peticion → Option (List UInt8)
  | create _ path => enviarPath basura 1 path
  | read path size offset => enviarRead basura path size offset
  | readDir path => enviarPath basura 4 path
  | getAttr _ path => enviarPath basura 5 path
  | mkdir path => enviarPath basura 6 path
  | unlink path => enviarPath basura 7 path
  | rmdir path => enviarPath basura 8 path
  | write _ path offset buf => enviarWrite basura tras path offset buf
  | truncate path espacioNuevo => enviarTruncate basura path espacioNuevo
  | rename pathAntiguo nuevoPath => enviarRename basura pathAntiguo nuevoPath

end Cliente

/-! ## The server -/

/-- The absolute path in a buffer: its bytes up to a NUL. -/
def rutaDe (campo : List UInt8) : Option Ruta :=
  if (campo.takeWhile (· != 0)).head? = some 47 then
    some ⟨(campo.takeWhile (· != 0)).tail, fun h => by
      have hno := List.mem_takeWhile_imp (List.mem_of_mem_tail h)
      simp at hno⟩
  else none

/-- The path of a request, cut by `string_substring_until`. -/
def leerPath : Reader Ruta := do
  let campo ← readField
  StateT.lift (rutaDe campo)

/-- `tomarPeticionRead`, up to the call of `o_read`. -/
def tomarRead : Reader Peticion := do
  let path ← leerPath
  let size ← leerEntero
  let offset ← leerEntero
  return .read path size offset

/-- `tomarPeticionWrite`, up to the call of `o_write`: as many bytes are read as `size` says, and
the announced size of the buffer is not used. -/
def tomarWrite (ahora : ℕ) : Reader Peticion := do
  let path ← leerPath
  let size ← leerEntero
  let offset ← leerEntero
  let _tamanioBuf ← leerInt
  if size < 0 then failure
  else
    let buf ← readBytes size.toNat
    return .write ahora path offset buf

/-- `tomarPeticionTruncate`, up to the call of `o_truncate`. -/
def tomarTruncate : Reader Peticion := do
  let path ← leerPath
  let offset ← leerEntero
  return .truncate path offset

/-- `tomarPeticionRename`, up to the call of `o_rename`. -/
def tomarRename : Reader Peticion := do
  let path1 ← leerPath
  let path2 ← leerPath
  return .rename path1 path2

/-- The arguments of an operation. The client does not send operation 2, which has no effect. -/
def tomarPeticion (ahora : ℕ) (operacion : ℤ) : Reader Peticion :=
  if operacion = 1 then Peticion.create ahora <$> leerPath
  else if operacion = 3 then tomarRead
  else if operacion = 4 then Peticion.readDir <$> leerPath
  else if operacion = 5 then Peticion.getAttr ahora <$> leerPath
  else if operacion = 6 then Peticion.mkdir <$> leerPath
  else if operacion = 7 then Peticion.unlink <$> leerPath
  else if operacion = 8 then Peticion.rmdir <$> leerPath
  else if operacion = 9 then tomarWrite ahora
  else if operacion = 10 then tomarTruncate
  else if operacion = 11 then tomarRename
  else failure

/-- `socketThread`: one turn of its loop, up to the call of the operation. -/
def socketThread (ahora : ℕ) : Reader Peticion := do
  let _tamanioOperacion ← leerInt
  let operacion ← leerInt
  tomarPeticion ahora operacion

/-! ## One request -/

variable {basura : ℕ → UInt8}

/-- The request as the server has it: its clock, and the arguments as an `int` brings them. -/
def Peticion.recibida (ahora : ℕ) : Peticion → Peticion
  | create _ path => create ahora path
  | read path size offset => read path (signed size) (signed offset)
  | readDir path => readDir path
  | getAttr _ path => getAttr ahora path
  | mkdir path => mkdir path
  | unlink path => unlink path
  | rmdir path => rmdir path
  | write _ path offset buf => write ahora path (signed offset) buf
  | truncate path espacioNuevo => truncate path (signed espacioNuevo)
  | rename pathAntiguo nuevoPath => rename pathAntiguo nuevoPath

/-- The sizes of the paths and of the bytes of a request are values of an `int`. -/
def Peticion.Manda : Peticion → Prop
  | create _ path => path.bytes.length < 2147483648
  | read path _ _ => path.bytes.length < 2147483648
  | readDir path => path.bytes.length < 2147483648
  | getAttr _ path => path.bytes.length < 2147483648
  | mkdir path => path.bytes.length < 2147483648
  | unlink path => path.bytes.length < 2147483648
  | rmdir path => path.bytes.length < 2147483648
  | write _ path _ buf => path.bytes.length < 2147483648 ∧ buf.length < 2147483648
  | truncate path _ => path.bytes.length < 2147483648
  | rename pathAntiguo nuevoPath =>
      pathAntiguo.bytes.length < 2147483648 ∧ nuevoPath.bytes.length < 2147483648

theorem rutaDe_bytes (path : Ruta) : rutaDe path.bytes = some path := by
  have htodo : path.bytes.takeWhile (· != 0) = path.bytes := by
    rw [List.takeWhile_eq_self_iff]
    intro x hx
    rcases List.mem_cons.1 hx with rfl | hcola
    · decide
    · exact bne_iff_ne.2 fun hcero => path.sinNul (hcero ▸ hcola)
  rw [rutaDe]
  simp only [htodo]
  rfl

theorem reads_leerPath {path : Ruta} (h : path.bytes.length < 2147483648) :
    Reads leerPath (entero path.bytes.length ++ path.bytes) path := by
  have hcampo := reads_readField h
  rw [← Nat.mod_eq_of_lt (show path.bytes.length < 4294967296 by omega), ← entero_natCast] at hcampo
  have hlift := hcampo.bind (f := fun campo => StateT.lift (rutaDe campo))
    (Reads.lift (rutaDe_bytes path))
  rwa [List.append_nil] at hlift

/-- The operation comes after the size of its number. -/
theorem reads_socketThread {ahora : ℕ} {operacion : ℤ} {l : List UInt8} {p : Peticion}
    (hoperacion : signed operacion = operacion)
    (h : Reads (tomarPeticion ahora operacion) l p) :
    Reads (socketThread ahora) (entero 4 ++ (entero operacion ++ l)) p := by
  apply (reads_leerInt 4).bind
  apply (reads_leerInt operacion).bind
  rwa [hoperacion]

theorem reads_enviarPath {peticion : ℤ} {ahora : ℕ} {path : Ruta} {f : Ruta → Peticion}
    (hpath : path.bytes.length < 2147483648) (hpeticion : signed peticion = peticion)
    (htomar : tomarPeticion ahora peticion = f <$> leerPath) :
    ∃ l, enviarPath basura peticion path = some l ∧ Reads (socketThread ahora) l (f path) := by
  have henvio : enviarPath basura peticion path =
      some (entero 4 ++ (entero peticion ++ (entero path.bytes.length ++ path.bytes))) := by
    refine (sendBuffer_of_consecutive basura ?_ ?_).trans ?_
    · simp [Consecutive, length_entero]
    · simp [length_entero]
      omega
    · simp
  refine ⟨_, henvio, reads_socketThread hpeticion ?_⟩
  rw [htomar]
  exact (reads_leerPath hpath).map f

theorem reads_enviarRead {ahora : ℕ} {path : Ruta} {size offset : ℤ}
    (hpath : path.bytes.length < 2147483648) :
    ∃ l, enviarRead basura path size offset = some l ∧
      Reads (socketThread ahora) l (.read path (signed size) (signed offset)) := by
  have henvio : enviarRead basura path size offset =
      some (entero 4 ++ (entero 3 ++ (entero path.bytes.length ++ path.bytes ++
        (entero 4 ++ entero size ++ (entero 4 ++ entero offset))))) := by
    refine (sendBuffer_of_consecutive basura ?_ ?_).trans ?_
    · simp [Consecutive, length_entero]
      omega
    · simp [length_entero]
      omega
    · simp
  refine ⟨_, henvio, reads_socketThread (by decide) ?_⟩
  apply (reads_leerPath hpath).bind
  apply (reads_leerEntero size).bind
  exact (reads_leerEntero offset).bindPure fun offset : ℤ => Peticion.read path (signed size) offset

theorem reads_enviarWrite {tras ahora : ℕ} {path : Ruta} {offset : ℤ} {buf : List UInt8}
    (hpath : path.bytes.length < 2147483648) (hbuf : buf.length < 2147483648) :
    ∃ l, enviarWrite basura tras path offset buf = some l ∧
      Reads (socketThread ahora) l (.write ahora path (signed offset) buf) := by
  have henvio : enviarWrite basura tras path offset buf =
      some (entero 4 ++ (entero 9 ++ (entero path.bytes.length ++ path.bytes ++
        (entero 4 ++ entero buf.length ++ (entero 4 ++ entero offset ++
          (entero (strlen tras buf) ++ buf)))))) := by
    refine (sendBuffer_of_consecutive basura ?_ ?_).trans ?_
    · simp [Consecutive, length_entero]
      omega
    · simp [length_entero]
      omega
    · simp
  have hsize : signed (buf.length : ℤ) = buf.length := signed_eq_self (by omega) (by omega)
  refine ⟨_, henvio, reads_socketThread (by decide) ?_⟩
  apply (reads_leerPath hpath).bind
  apply (reads_leerEntero buf.length).bind
  apply (reads_leerEntero offset).bind
  apply (reads_leerInt (strlen tras buf)).bind
  rw [hsize, if_neg (by omega), Int.toNat_natCast]
  exact (reads_readBytes buf).bindPure fun buf => Peticion.write ahora path (signed offset) buf

theorem reads_enviarTruncate {ahora : ℕ} {path : Ruta} {offset : ℤ}
    (hpath : path.bytes.length < 2147483648) :
    ∃ l, enviarTruncate basura path offset = some l ∧
      Reads (socketThread ahora) l (.truncate path (signed offset)) := by
  have henvio : enviarTruncate basura path offset =
      some (entero 4 ++ (entero 10 ++ (entero path.bytes.length ++ path.bytes ++
        (entero 4 ++ entero offset)))) := by
    refine (sendBuffer_of_consecutive basura ?_ ?_).trans ?_
    · simp [Consecutive, length_entero]
      omega
    · simp [length_entero]
      omega
    · simp
  refine ⟨_, henvio, reads_socketThread (by decide) ?_⟩
  apply (reads_leerPath hpath).bind
  exact (reads_leerEntero offset).bindPure fun offset : ℤ => Peticion.truncate path offset

theorem reads_enviarRename {ahora : ℕ} {oldpath newpath : Ruta}
    (hold : oldpath.bytes.length < 2147483648) (hnew : newpath.bytes.length < 2147483648) :
    ∃ l, enviarRename basura oldpath newpath = some l ∧
      Reads (socketThread ahora) l (.rename oldpath newpath) := by
  have henvio : enviarRename basura oldpath newpath =
      some (entero 4 ++ (entero 11 ++ (entero oldpath.bytes.length ++ oldpath.bytes ++
        (entero newpath.bytes.length ++ newpath.bytes)))) := by
    refine (sendBuffer_of_consecutive basura ?_ ?_).trans ?_
    · simp [Consecutive, length_entero]
      omega
    · simp [length_entero]
      omega
    · simp
  refine ⟨_, henvio, reads_socketThread (by decide) ?_⟩
  apply (reads_leerPath hold).bind
  exact (reads_leerPath hnew).bindPure fun path2 => Peticion.rename oldpath path2

/-- The thread of the server reads exactly what the client has sent. -/
theorem reads_envio (basura : ℕ → UInt8) (tras ahora : ℕ) {p : Peticion} (h : p.Manda) :
    ∃ l, p.envio basura tras = some l ∧ Reads (socketThread ahora) l (p.recibida ahora) := by
  cases p with
  | create _ path => exact reads_enviarPath h (by decide) rfl
  | read path size offset => exact reads_enviarRead h
  | readDir path => exact reads_enviarPath h (by decide) rfl
  | getAttr _ path => exact reads_enviarPath h (by decide) rfl
  | mkdir path => exact reads_enviarPath h (by decide) rfl
  | unlink path => exact reads_enviarPath h (by decide) rfl
  | rmdir path => exact reads_enviarPath h (by decide) rfl
  | write _ path offset buf => exact reads_enviarWrite h.1 h.2
  | truncate path n => exact reads_enviarTruncate h
  | rename pathAntiguo nuevoPath => exact reads_enviarRename h.1 h.2

/-! ## Requests in a stream -/

/-- The turns of the loop of `socketThread`, each with the clock at that moment. -/
def atender (relojes : List ℕ) : Reader (List Peticion) := relojes.mapM socketThread

/-- However many requests are in the stream, the server reads them one by one, whatever follows. -/
theorem reads_envios (basura : ℕ → UInt8) (tras : ℕ) {pedidos : List (ℕ × Peticion)}
    (h : ∀ q ∈ pedidos, q.2.Manda) :
    ∃ l, pedidos.mapM (fun q => q.2.envio basura tras) = some l ∧
      Reads (atender (pedidos.map Prod.fst)) l.flatten
        (pedidos.map fun q => q.2.recibida q.1) := by
  induction pedidos with
  | nil => exact ⟨[], rfl, Reads.pure []⟩
  | cons q pedidos ih =>
      obtain ⟨l, hl, hreads⟩ := ih fun x hx => h x (List.mem_cons_of_mem q hx)
      obtain ⟨l₀, hl₀, hreads₀⟩ := reads_envio basura tras q.1 (h q List.mem_cons_self)
      refine ⟨l₀ :: l, ?_, ?_⟩
      · rw [List.mapM_cons, hl₀, hl]
        rfl
      · rw [atender, List.map_cons, List.mapM_cons, List.flatten_cons, List.map_cons]
        apply hreads₀.bind
        exact hreads.bindPure fun ps => q.2.recibida q.1 :: ps

/-- A creation and a write one after the other, the write with a NUL among its bytes. -/
theorem reads_envios_crearA : ∃ l,
    [(3, Peticion.create 0 rutaA), (4, Peticion.write 0 rutaA 0 [7, 0, 7])].mapM
        (fun q => q.2.envio (fun _ => 255) 9) = some l ∧
      Reads (atender [3, 4]) l.flatten [.create 3 rutaA, .write 4 rutaA 0 [7, 0, 7]] :=
  reads_envios (fun _ => 255) 9 fun q hq => by
    rcases List.mem_pair.1 hq with rfl | rfl
    · exact show rutaA.bytes.length < 2147483648 by decide
    · exact show rutaA.bytes.length < 2147483648 ∧ [7, 0, 7].length < 2147483648 by decide

end Sac
