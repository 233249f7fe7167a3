import Linuse.Wire.LittleEndian

/-!
# Reading a stream of bytes

Readers consume a stream from its front. `Reads p l a` says that `p` consumes
exactly the bytes `l` and returns `a`, whatever follows them; its rules compose
along the sequencing of readers.
-/

namespace Wire

/-- A reader of a stream that fails when bytes are missing. -/
abbrev Reader (α : Type) : Type := StateT (List UInt8) Option α

/-- Reads `k` bytes, all of them. -/
def readBytes (k : ℕ) : Reader (List UInt8) := fun stream =>
  if k ≤ stream.length then some (stream.take k, stream.drop k) else none

/-- Reads an unsigned number of `w` bytes. -/
def readNat (w : ℕ) : Reader ℕ := do
  let bytes ← readBytes w
  return ofBytes bytes

/-- The object of `w` bytes at the start of a buffer; fails when the buffer is
shorter. -/
def load (w : ℕ) (buffer : List UInt8) : Option ℕ :=
  if w ≤ buffer.length then some (ofBytes (buffer.take w)) else none

/-- The reader consumes exactly these bytes and returns this value. -/
def Reads {α : Type} (p : Reader α) (bytes : List UInt8) (a : α) : Prop :=
  ∀ rest, p.run (bytes ++ rest) = some (a, rest)

variable {α β : Type} {p : Reader α} {f : α → Reader β} {l l' : List UInt8} {a : α} {b : β}

theorem Reads.pure (a : α) : Reads (pure a) [] a := fun _ => rfl

theorem Reads.bind (h : Reads p l a) (h' : Reads (f a) l' b) : Reads (p >>= f) (l ++ l') b := by
  intro rest
  rw [StateT.run_bind, List.append_assoc, h]
  exact h' rest

theorem Reads.map (g : α → β) (h : Reads p l a) : Reads (g <$> p) l (g a) := by
  intro rest
  rw [StateT.run_map, h]
  rfl

/-- The last reader of a sequence whose value is returned through a function. -/
theorem Reads.bindPure (g : α → β) (h : Reads p l a) :
    Reads (p >>= fun x => Pure.pure (g x)) l (g a) := by
  intro rest
  rw [StateT.run_bind, h]
  rfl

theorem Reads.lift {o : Option α} (h : o = some a) : Reads (StateT.lift o) [] a := by
  intro rest
  rw [h]
  rfl

/-- On exactly its bytes the reader leaves nothing. -/
theorem Reads.run_self (h : Reads p l a) : p.run l = some (a, []) := by
  have hrun := h []
  rwa [List.append_nil] at hrun

theorem reads_readBytes (l : List UInt8) : Reads (readBytes l.length) l l := by
  intro rest
  have hle : l.length ≤ (l ++ rest).length := by
    rw [List.length_append]
    omega
  exact (if_pos hle).trans (by rw [List.take_left, List.drop_left])

theorem reads_readNat {w n : ℕ} (h : n < 256 ^ w) : Reads (readNat w) (toBytes w n) n := by
  have hread := reads_readBytes (toBytes w n)
  rw [length_toBytes] at hread
  have hmap := hread.map ofBytes
  rw [ofBytes_toBytes_of_lt h] at hmap
  exact hmap

theorem load_toBytes {w n : ℕ} (h : n < 256 ^ w) : load w (toBytes w n) = some n := by
  have hle : w ≤ (toBytes w n).length := (length_toBytes w n).ge
  rw [load, if_pos hle, List.take_of_length_le (length_toBytes w n).le, ofBytes_toBytes_of_lt h]

/-! ## Fields of announced size -/

/-- Reads a size of four bytes and then as many bytes into a buffer of that size; no
buffer has a size that is not an `int`. -/
def readField : Reader (List UInt8) := do
  let size ← readNat 4
  if size < 2147483648 then readBytes size else failure

theorem reads_readField (hl : l.length < 2147483648) :
    Reads readField (toBytes 4 l.length ++ l) l := by
  apply (reads_readNat (by omega)).bind
  rw [if_pos hl]
  exact reads_readBytes l

/-- A field that does not fit in an `int` is not read to its end: the reader waits, or
leaves bytes. -/
theorem run_readField_of_le (hl : 2147483648 ≤ l.length) :
    readField.run (toBytes 4 (l.length % 4294967296) ++ l) = none ∨
      ∃ l' rest, readField.run (toBytes 4 (l.length % 4294967296) ++ l) = some (l', rest) ∧
        rest ≠ [] := by
  have hn : l.length % 4294967296 < 256 ^ 4 := Nat.mod_lt _ (by decide)
  generalize hmod : l.length % 4294967296 = n at hn ⊢
  rw [readField, StateT.run_bind, reads_readNat hn, Option.bind_eq_bind, Option.bind_some]
  rcases lt_or_ge n 2147483648 with hlt | hge
  · refine .inr ⟨l.take n, l.drop n, ?_, ?_⟩
    · rw [if_pos hlt]
      exact if_pos (show n ≤ l.length by omega)
    · rw [ne_eq, List.drop_eq_nil_iff]
      omega
  · rw [if_neg (not_lt.2 hge)]
    exact .inl rfl

end Wire
