import Linuse.Suse.Manejadores
import Linuse.Wire.Buffer
import Linuse.Wire.Int32

/-!
# The messages between hilolay and the scheduler

The requests of `implementaciones.c`, as the handlers of `SUSE.c` read them, and the answer to
`schedule_next`. A C string is the `String` whose characters are its bytes. The scheduler reads
exactly the request that the library has sent, whatever is after it in the stream
(`reads_leerPedido`).
-/

namespace Hilolay

open Suse (Tid Pid Evento)
open Wire

/-- What the library asks from the scheduler. -/
inductive Pedido where
  | create (tid : Tid)
  | scheduleNext
  | wait (tid : Tid) (semID : String)
  | signal (tid : Tid) (semID : String)
  | join (tidAEsperar : Tid)
  | close (tid : Tid)
  deriving DecidableEq

/-- The bytes of a C string, without its NUL. -/
def bytesDe (name : String) : List UInt8 := name.toList.map fun c => UInt8.ofNat c.toNat

/-- The C string with these bytes. -/
def nombreDe (l : List UInt8) : String := String.ofList (l.map fun b => Char.ofNat b.toNat)

/-- The characters are bytes, and none of them is NUL. -/
def EsNombre (name : String) : Prop := ∀ c ∈ name.toList, 0 < c.toNat ∧ c.toNat < 256

instance (name : String) : Decidable (EsNombre name) := inferInstanceAs (Decidable (∀ _ ∈ _, _))

/-! ## The library -/

section Biblioteca

variable (basura : ℕ → UInt8)

/-- The requests with one `int`. -/
def enviarTid (operacion : ℤ) (tid : Tid) : Option (List UInt8) :=
  sendBuffer basura (2 * 4) [(0, intBytes operacion), (4, intBytes tid)]

def suseCreate (tid : Tid) : Option (List UInt8) := enviarTid basura 1 tid

def suseJoin (tidAEsperar : Tid) : Option (List UInt8) := enviarTid basura 5 tidAEsperar

def suseClose (tid : Tid) : Option (List UInt8) := enviarTid basura 6 tid

/-- `suse_schedule_next`, up to its `recv`. -/
def suseScheduleNext : Option (List UInt8) := sendBuffer basura 4 [(0, intBytes 2)]

/-- The requests on a semaphore. -/
def enviarSem (operacion : ℤ) (tid : Tid) (semID : String) : Option (List UInt8) :=
  sendBuffer basura (3 * 4 + (bytesDe semID).length + 1)
    [(0, intBytes operacion), (4, intBytes tid), (2 * 4, intBytes (bytesDe semID).length),
      (3 * 4, bytesDe semID ++ [0])]

def suseWait (tid : Tid) (semID : String) : Option (List UInt8) := enviarSem basura 3 tid semID

def suseSignal (tid : Tid) (semID : String) : Option (List UInt8) := enviarSem basura 4 tid semID

/-- The bytes that the library sends. -/
def Pedido.envio : Pedido → Option (List UInt8)
  | create tid => suseCreate basura tid
  | scheduleNext => suseScheduleNext basura
  | wait tid semID => suseWait basura tid semID
  | signal tid semID => suseSignal basura tid semID
  | join tidAEsperar => suseJoin basura tidAEsperar
  | close tid => suseClose basura tid

end Biblioteca

/-! ## The scheduler -/

/-- What `atenderWait` and `atenderSignal` read. -/
def leerSem (f : Tid → String → Pedido) : Reader Pedido := do
  let tid ← readInt
  let longitudIDSemaforo ← readInt
  if longitudIDSemaforo < 0 then failure
  else
    let semID ← readBytes (longitudIDSemaforo.toNat + 1)
    if 0 ∈ semID then return f tid (nombreDe (semID.takeWhile (· != 0))) else failure

/-- What `iniciarConexion` reads of a program, up to the call of the handler; `none` for a number
that is not of an operation. -/
def leerPedido : Reader (Option Pedido) := do
  let operacion ← readInt
  if operacion = 1 then (fun tid : Tid => some (Pedido.create tid)) <$> readInt
  else if operacion = 2 then return some .scheduleNext
  else if operacion = 3 then some <$> leerSem Pedido.wait
  else if operacion = 4 then some <$> leerSem Pedido.signal
  else if operacion = 5 then (fun tid : Tid => some (Pedido.join tid)) <$> readInt
  else if operacion = 6 then (fun tid : Tid => some (Pedido.close tid)) <$> readInt
  else return none

/-- What a handler takes from outside: the bytes that `malloc` leaves and the clock. -/
structure Momento where
  basura : ℕ × ℕ
  reloj : ℕ → ℕ

/-- The handler of a request. The descriptor of the program is its pid. -/
def Pedido.evento (pid : Pid) (m : Momento) : Pedido → Evento
  | create tid => .crear pid tid m.basura (m.reloj 0)
  | scheduleNext => .scheduleNext pid m.reloj
  | wait tid semID => .wait pid tid semID
  | signal tid semID => .signal pid tid semID (m.reloj 0)
  | join tidAEsperar => .join pid tidAEsperar
  | close tid => .close pid tid (m.reloj 0)

/-- The bytes that a handler sends: `atenderScheduleNext` the id that it has, the others nothing. -/
def responder (basura : ℕ → UInt8) (r : Option Tid) : Option (List UInt8) :=
  r.elim (some []) fun tid => sendBuffer basura 4 [(0, intBytes tid)]

/-! ## The bytes of a request -/

/-- The numbers and the name of a request fit in what carries them. -/
def Pedido.Cabe : Pedido → Prop
  | create tid => FitsInt tid
  | scheduleNext => True
  | wait tid semID => FitsInt tid ∧ EsNombre semID ∧ (bytesDe semID).length < 2147483648
  | signal tid semID => FitsInt tid ∧ EsNombre semID ∧ (bytesDe semID).length < 2147483648
  | join tidAEsperar => FitsInt tidAEsperar
  | close tid => FitsInt tid

/-- A request in the stream. -/
def Pedido.bytes : Pedido → List UInt8
  | create tid => intBytes 1 ++ intBytes tid
  | scheduleNext => intBytes 2
  | wait tid semID => intBytes 3 ++ (intBytes tid ++ (intBytes (bytesDe semID).length ++
      (bytesDe semID ++ [0])))
  | signal tid semID => intBytes 4 ++ (intBytes tid ++ (intBytes (bytesDe semID).length ++
      (bytesDe semID ++ [0])))
  | join tidAEsperar => intBytes 5 ++ intBytes tidAEsperar
  | close tid => intBytes 6 ++ intBytes tid

section Bytes

variable (basura : ℕ → UInt8)

theorem enviarTid_eq (operacion : ℤ) (tid : Tid) :
    enviarTid basura operacion tid = some (intBytes operacion ++ intBytes tid) := by
  refine (sendBuffer_of_consecutive basura ?_ ?_).trans ?_
  · simp [Consecutive]
  · simp
  · simp

theorem enviarSem_eq (operacion : ℤ) (tid : Tid) (semID : String) :
    enviarSem basura operacion tid semID =
      some (intBytes operacion ++ (intBytes tid ++ (intBytes (bytesDe semID).length ++
        (bytesDe semID ++ [0])))) := by
  refine (sendBuffer_of_consecutive basura ?_ ?_).trans ?_
  · simp [Consecutive]
  · simp
    omega
  · simp

theorem Pedido.envio_eq (q : Pedido) : q.envio basura = some q.bytes := by
  cases q with
  | create tid => exact enviarTid_eq basura 1 tid
  | scheduleNext =>
      refine (sendBuffer_of_consecutive basura ?_ ?_).trans ?_
      · simp [Consecutive]
      · simp
      · simp [bytes]
  | wait tid semID => exact enviarSem_eq basura 3 tid semID
  | signal tid semID => exact enviarSem_eq basura 4 tid semID
  | join tid => exact enviarTid_eq basura 5 tid
  | close tid => exact enviarTid_eq basura 6 tid

theorem responder_some (tid : Tid) : responder basura (some tid) = some (intBytes tid) := by
  refine (sendBuffer_of_consecutive basura ?_ ?_).trans ?_
  · simp [Consecutive]
  · simp
  · simp

end Bytes

/-! ## Reading a request -/

/-- The bytes of a name end before its NUL. -/
theorem takeWhile_bytesDe {name : String} (h : EsNombre name) :
    (bytesDe name ++ [0]).takeWhile (· != 0) = bytesDe name := by
  have hpos : ∀ x ∈ bytesDe name, (x != 0) = true := by
    intro x hx
    obtain ⟨c, hc, rfl⟩ := List.mem_map.1 hx
    obtain ⟨hcero, hlt⟩ := h c hc
    rw [bne_iff_ne, ne_eq, ← UInt8.toNat_inj, UInt8.toNat_ofNat', Nat.mod_eq_of_lt hlt]
    exact hcero.ne'
  rw [List.takeWhile_append_of_pos hpos]
  simp

theorem nombreDe_bytesDe {name : String} (h : EsNombre name) : nombreDe (bytesDe name) = name := by
  have hlista : (bytesDe name).map (fun b => Char.ofNat b.toNat) = name.toList := by
    rw [bytesDe, List.map_map]
    refine (List.map_congr_left fun c hc => ?_).trans (List.map_id _)
    rw [Function.comp_apply, UInt8.toNat_ofNat', Nat.mod_eq_of_lt (h c hc).2, Char.ofNat_toNat, id]
  rw [nombreDe, hlista, String.ofList_toList]

theorem reads_leerSem {f : Tid → String → Pedido} {tid : Tid} {semID : String}
    (htid : FitsInt tid) (hnombre : EsNombre semID) (hlen : (bytesDe semID).length < 2147483648) :
    Reads (leerSem f) (intBytes tid ++ (intBytes (bytesDe semID).length ++
      (bytesDe semID ++ [0]))) (f tid semID) := by
  apply (reads_readInt htid).bind
  apply (reads_readInt (x := ((bytesDe semID).length : ℤ)) ⟨by omega, by omega⟩).bind
  rw [if_neg (by omega), Int.toNat_natCast]
  have hread := reads_readBytes (bytesDe semID ++ [0])
  rw [List.length_append, List.length_singleton] at hread
  rw [← List.append_nil (bytesDe semID ++ [0])]
  apply hread.bind
  rw [if_pos (by simp), takeWhile_bytesDe hnombre, nombreDe_bytesDe hnombre]
  exact Reads.pure _

/-- The scheduler reads the request that was sent, whatever is after it. -/
theorem reads_leerPedido {q : Pedido} (h : q.Cabe) : Reads leerPedido q.bytes (some q) := by
  cases q with
  | create tid =>
      exact (reads_readInt (x := 1) (by decide)).bind
        ((reads_readInt h).map fun tid : Tid => some (Pedido.create tid))
  | scheduleNext =>
      rw [Pedido.bytes, ← List.append_nil (intBytes 2)]
      exact (reads_readInt (x := 2) (by decide)).bind (Reads.pure _)
  | wait tid semID =>
      exact (reads_readInt (x := 3) (by decide)).bind ((reads_leerSem h.1 h.2.1 h.2.2).map some)
  | signal tid semID =>
      exact (reads_readInt (x := 4) (by decide)).bind ((reads_leerSem h.1 h.2.1 h.2.2).map some)
  | join tid =>
      exact (reads_readInt (x := 5) (by decide)).bind
        ((reads_readInt h).map fun tid : Tid => some (Pedido.join tid))
  | close tid =>
      exact (reads_readInt (x := 6) (by decide)).bind
        ((reads_readInt h).map fun tid : Tid => some (Pedido.close tid))

theorem Pedido.bytes_ne_nil (q : Pedido) : q.bytes ≠ [] := by
  cases q with
  | scheduleNext => exact intBytes_ne_nil 2
  | _ => exact fun h => intBytes_ne_nil _ (List.append_eq_nil_iff.1 h).1

/-- A request that is whole in a stream of requests is one of them. -/
theorem mem_of_flatMap_bytes {q : Pedido} {qs rs : List Pedido} {resto : List UInt8} (hq : q.Cabe)
    (hqs : ∀ q ∈ qs, q.Cabe) (hrs : ∀ q ∈ rs, q.Cabe)
    (h : qs.flatMap Pedido.bytes ++ (q.bytes ++ resto) = rs.flatMap Pedido.bytes) : q ∈ rs := by
  induction qs generalizing rs with
  | nil =>
      rw [List.flatMap_nil, List.nil_append] at h
      cases rs with
      | nil => exact absurd (List.append_eq_nil_iff.1 h).1 q.bytes_ne_nil
      | cons r rs =>
          have hlee := reads_leerPedido hq resto
          rw [h, List.flatMap_cons, reads_leerPedido (hrs r List.mem_cons_self)] at hlee
          cases hlee
          exact List.mem_cons_self
  | cons r₀ qs ih =>
      rw [List.flatMap_cons, List.append_assoc] at h
      cases rs with
      | nil => exact absurd (List.append_eq_nil_iff.1 h).1 r₀.bytes_ne_nil
      | cons r rs =>
          -- the first request is read in both, and the rest is the same
          have hlee := reads_leerPedido (hqs r₀ List.mem_cons_self)
            (qs.flatMap Pedido.bytes ++ (q.bytes ++ resto))
          rw [h, List.flatMap_cons, reads_leerPedido (hrs r List.mem_cons_self)] at hlee
          obtain ⟨-, hresto⟩ := Prod.mk.inj (Option.some.inj hlee)
          have hmem : q ∈ rs := ih (fun q hq => hqs q (List.mem_cons_of_mem _ hq))
            (fun q hq => hrs q (List.mem_cons_of_mem r hq)) hresto.symm
          exact List.mem_cons_of_mem r hmem

end Hilolay
