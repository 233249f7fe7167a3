import Mathlib.Algebra.BigOperators.Group.List.Basic
import Linuse.Wire.LittleEndian

/-!
# Buffers filled by copies

A buffer is allocated with arbitrary contents, filled by a sequence of copies at
given offsets, and its first bytes are sent. Copies that follow one another leave
in the buffer the concatenation of what they copied (`copyAll_of_consecutive`).
-/

namespace Wire

/-- A fresh buffer of `k` bytes whose contents are arbitrary. -/
def malloc (garbage : ℕ → UInt8) (k : ℕ) : List UInt8 :=
  (List.range k).map garbage

/-- Copies `l` at an offset of the buffer; fails when it does not fit. -/
def memcpy (buffer : List UInt8) (offset : ℕ) (l : List UInt8) : Option (List UInt8) :=
  if offset + l.length ≤ buffer.length then
    some (buffer.take offset ++ l ++ buffer.drop (offset + l.length))
  else none

/-- A sequence of copies, each with its offset. -/
def copyAll (buffer : List UInt8) (copies : List (ℕ × List UInt8)) : Option (List UInt8) :=
  copies.foldlM (fun buffer c => memcpy buffer c.1 c.2) buffer

/-- The first `k` bytes of the buffer; fails when it has fewer. -/
def firstBytes (buffer : List UInt8) (k : ℕ) : Option (List UInt8) :=
  if k ≤ buffer.length then some (buffer.take k) else none

/-- Allocates a buffer of `k` bytes, makes the copies and sends it whole. -/
def sendBuffer (garbage : ℕ → UInt8) (k : ℕ) (copies : List (ℕ × List UInt8)) :
    Option (List UInt8) :=
  copyAll (malloc garbage k) copies >>= fun buffer => firstBytes buffer k

/-- Each copy starts where the one before it ends, the first one at `offset`. -/
def Consecutive : ℕ → List (ℕ × List UInt8) → Prop
  | _, [] => True
  | offset, c :: copies => c.1 = offset ∧ Consecutive (offset + c.2.length) copies

@[simp]
theorem length_malloc (garbage : ℕ → UInt8) (k : ℕ) : (malloc garbage k).length = k := by
  simp [malloc]

theorem memcpy_append (pre : List UInt8) {rest l : List UInt8} (h : l.length ≤ rest.length) :
    memcpy (pre ++ rest) pre.length l = some (pre ++ l ++ rest.drop l.length) := by
  have hle : pre.length + l.length ≤ (pre ++ rest).length := by
    rw [List.length_append]
    omega
  rw [memcpy, if_pos hle, List.take_left, List.drop_append, List.drop_eq_nil_of_le (by omega),
    List.nil_append, Nat.add_sub_cancel_left]

/-- Consecutive copies leave their concatenation after what the buffer held
before the first one. -/
theorem copyAll_of_consecutive {copies : List (ℕ × List UInt8)} {p rest : List UInt8}
    (hc : Consecutive p.length copies)
    (hlen : (copies.flatMap Prod.snd).length ≤ rest.length) :
    copyAll (p ++ rest) copies =
      some (p ++ copies.flatMap Prod.snd ++ rest.drop (copies.flatMap Prod.snd).length) := by
  induction copies generalizing p rest with
  | nil => simp [copyAll, pure]
  | cons c copies ih =>
      obtain ⟨hoff, hc⟩ := hc
      rw [List.flatMap_cons, List.length_append] at hlen
      have hfirst := memcpy_append p (show c.2.length ≤ rest.length by omega)
      rw [← List.length_append] at hc
      have hrest : (copies.flatMap Prod.snd).length ≤ (rest.drop c.2.length).length := by
        rw [List.length_drop]
        omega
      have htail := ih hc hrest
      rw [copyAll] at htail
      rw [copyAll, List.foldlM_cons, hoff, hfirst, Option.bind_eq_bind, Option.bind_some, htail,
        List.flatMap_cons, List.append_assoc p, List.drop_drop, List.length_append]

/-- A fresh buffer filled by consecutive copies and sent whole. -/
theorem sendBuffer_of_consecutive {copies : List (ℕ × List UInt8)} {k : ℕ}
    (garbage : ℕ → UInt8) (hc : Consecutive 0 copies)
    (hk : (copies.flatMap Prod.snd).length = k) :
    sendBuffer garbage k copies = some (copies.flatMap Prod.snd) := by
  have hlen := length_malloc garbage k
  have hall := copyAll_of_consecutive (p := []) hc (hk.trans hlen.symm).le
  rw [List.nil_append, List.nil_append, hk, List.drop_eq_nil_of_le hlen.le,
    List.append_nil] at hall
  rw [sendBuffer, hall, Option.bind_eq_bind, Option.bind_some, firstBytes, if_pos hk.ge,
    List.take_of_length_le hk.le]

end Wire
