import Mathlib.Data.List.GetD
import Linuse.Wire.LittleEndian

/-!
# A flat memory of bytes

A memory gives a byte for every address. Objects are stored as little-endian bytes
at an address; two memories agree on a region when they have the same bytes in it,
and a store changes nothing outside the region it writes.
-/

namespace Memory

open Wire

/-- The contents of an address space; an address is an offset that may be negative. -/
abbrev Mem : Type := ℤ → UInt8

/-- Writes bytes at consecutive addresses from `a` on. -/
def store (m : Mem) (a : ℤ) (l : List UInt8) : Mem := fun x =>
  if a ≤ x then l.getD (x - a).toNat (m x) else m x

/-- Writes the same byte at `k` consecutive addresses. -/
def fill (m : Mem) (a : ℤ) (k : ℕ) (v : UInt8) : Mem := fun x =>
  if a ≤ x ∧ x < a + k then v else m x

/-- The `k` bytes from `a` on. -/
def bytesAt (m : Mem) (a : ℤ) (k : ℕ) : List UInt8 :=
  (List.range k).map fun i : ℕ => m (a + i)

/-- The unsigned number of four bytes at `a`. -/
def load32 (m : Mem) (a : ℤ) : ℤ := ofBytes (bytesAt m a 4)

/-- Writes a number modulo 2³² at `a`. -/
def store32 (m : Mem) (a v : ℤ) : Mem := store m a (toBytes 4 (v % 4294967296).toNat)

/-- Writes a number of eight bytes at `a`. -/
def store64 (m : Mem) (a : ℤ) (v : ℕ) : Mem := store m a (toBytes 8 v)

/-- The bytes of a C string and the NUL after them are at `a`. -/
def isString (m : Mem) : ℤ → List UInt8 → Bool
  | a, [] => m a == 0
  | a, b :: l => m a == b && isString m (a + 1) l

/-- Writes a C string with its NUL. -/
def storeString (m : Mem) (a : ℤ) (l : List UInt8) : Mem := store m a (l ++ [0])

/-- The unsigned 32-bit value of an integer. -/
def unsigned (x : ℤ) : ℤ := x % 4294967296

/-- The signed 32-bit value of an integer. -/
def signed (x : ℤ) : ℤ := (x + 2147483648) % 4294967296 - 2147483648

/-- The memories have the same bytes in a region. -/
def AgreeOn (R : Set ℤ) (m m' : Mem) : Prop := ∀ x ∈ R, m' x = m x

variable {m m' m'' : Mem} {a b : ℤ} {l : List UInt8} {k : ℕ} {v : UInt8} {R R' : Set ℤ}

theorem store_of_lt {x : ℤ} (h : x < a) : store m a l x = m x := if_neg (not_le.2 h)

theorem store_of_le {x : ℤ} (h : a + l.length ≤ x) : store m a l x = m x := by
  have hle : l.length ≤ (x - a).toNat := by omega
  rw [store, List.getD_eq_default _ _ hle, ite_self]

/-- A store keeps the bytes outside what it writes. -/
theorem store_of_disjoint {x : ℤ} (h : x < a ∨ a + l.length ≤ x) : store m a l x = m x :=
  h.elim store_of_lt store_of_le

/-- What a store leaves at a place comes from the list or from that place. -/
theorem store_congr {x : ℤ} (h : m' x = m x) : store m' a l x = store m a l x := by
  rw [store, store, h]

theorem store_getElem {i : ℕ} (h : i < l.length) : store m a l (a + i) = l[i] := by
  have hi : (a + i - a).toNat = i := by omega
  rw [store, if_pos (by omega), hi, List.getD_eq_getElem _ _ h]

theorem exists_byte_ne (v : UInt8) : ∃ w, w ≠ v := by
  rcases eq_or_ne v 0 with rfl | hv
  · exact ⟨1, by decide⟩
  · exact ⟨0, hv.symm⟩

/-- A byte that the memory gets from a store is one of those stored, if it is not the one that the
memory had. -/
theorem exists_of_store_ne {x : ℤ} (h : store m a l x ≠ m x) :
    ∃ n : ℕ, n < l.length ∧ x = a + n := by
  by_contra hno
  refine h (store_of_disjoint ?_)
  by_contra hdentro
  refine hno ⟨(x - a).toNat, ?_, ?_⟩
  · omega
  · omega

/-- Two stores, the second where the first ends. -/
theorem store_append (m : Mem) (a : ℤ) (l l' : List UInt8) :
    store m a (l ++ l') = store (store m a l) (a + l.length) l' := by
  funext x
  by_cases hx : a ≤ x ∧ x < a + (l ++ l').length
  · obtain ⟨n, hn, rfl⟩ : ∃ n : ℕ, n < (l ++ l').length ∧ x = a + n :=
      ⟨(x - a).toNat, by omega, by omega⟩
    rw [store_getElem hn, List.getElem_append]
    rw [List.length_append] at hn
    split_ifs with hl
    · rw [store_of_lt (by omega), store_getElem hl]
    · have hsuma : a + (n : ℤ) = a + l.length + (n - l.length : ℕ) := by omega
      rw [hsuma, store_getElem]
  · rw [List.length_append] at hx
    rw [store_of_disjoint (by rw [List.length_append]; omega), store_of_disjoint (by omega),
      store_of_disjoint (by omega)]

theorem fill_of_disjoint {x : ℤ} (h : x < a ∨ a + k ≤ x) : fill m a k v x = m x :=
  if_neg (by omega)

theorem fill_of_mem {x : ℤ} (h : a ≤ x) (h' : x < a + k) : fill m a k v x = v :=
  if_pos ⟨h, h'⟩

@[simp]
theorem length_bytesAt (m : Mem) (a : ℤ) (k : ℕ) : (bytesAt m a k).length = k := by
  rw [bytesAt, List.length_map, List.length_range]

theorem getElem?_bytesAt {i : ℕ} (h : i < k) : (bytesAt m a k)[i]? = some (m (a + i)) := by
  rw [bytesAt, List.getElem?_map, List.getElem?_range h, Option.map_some]

theorem bytesAt_congr (h : ∀ i : ℕ, i < k → m' (a + i) = m (a + i)) :
    bytesAt m' a k = bytesAt m a k := by
  apply List.map_congr_left
  intro i hi
  exact h i (List.mem_range.1 hi)

/-- What was stored is read back. -/
theorem bytesAt_store (m : Mem) (a : ℤ) (l : List UInt8) :
    bytesAt (store m a l) a l.length = l := by
  apply List.ext_getElem (length_bytesAt _ _ _)
  intro i h h'
  simp only [bytesAt, List.getElem_map, List.getElem_range]
  exact store_getElem h'

theorem bytesAt_store_of_disjoint (h : b + k ≤ a ∨ a + l.length ≤ b) :
    bytesAt (store m a l) b k = bytesAt m b k :=
  bytesAt_congr fun i hi => store_of_disjoint (by omega)

theorem load32_nonneg (m : Mem) (a : ℤ) : 0 ≤ load32 m a := Int.natCast_nonneg _

theorem load32_lt (m : Mem) (a : ℤ) : load32 m a < 4294967296 := by
  have h := ofBytes_lt (bytesAt m a 4)
  rw [length_bytesAt] at h
  rw [load32]
  omega

theorem load32_congr (h : ∀ i : ℕ, i < 4 → m' (a + i) = m (a + i)) :
    load32 m' a = load32 m a := by
  rw [load32, load32, bytesAt_congr fun i hi => h i (by omega)]

theorem load32_store32 (m : Mem) (a v : ℤ) : load32 (store32 m a v) a = unsigned v := by
  have hlt : (v % 4294967296).toNat < 256 ^ 4 := by omega
  have hbytes := bytesAt_store m a (toBytes 4 (v % 4294967296).toNat)
  rw [length_toBytes] at hbytes
  rw [load32, store32, hbytes, ofBytes_toBytes_of_lt hlt, unsigned]
  omega

theorem store32_of_disjoint {v x : ℤ} (h : x < a ∨ a + 4 ≤ x) : store32 m a v x = m x :=
  store_of_disjoint (by rwa [length_toBytes])

/-- Storing what is there changes nothing. -/
theorem store_bytesAt (m : Mem) (a : ℤ) (k : ℕ) : store m a (bytesAt m a k) = m := by
  funext x
  by_cases hx : a ≤ x ∧ x < a + k
  · obtain ⟨i, hi, rfl⟩ : ∃ i : ℕ, i < k ∧ x = a + i := ⟨(x - a).toNat, by omega, by omega⟩
    rw [store_getElem (by rwa [length_bytesAt])]
    simp only [bytesAt, List.getElem_map, List.getElem_range]
  · apply store_of_disjoint
    rw [length_bytesAt]
    omega

/-- A store of what is there but for one byte changes that byte only. -/
theorem store_set_bytesAt {x : ℤ} {n w : ℕ} (h : x ≠ a + w) :
    store m a ((bytesAt m a n).set w v) x = m x := by
  have hlen : ((bytesAt m a n).set w v).length = n := by
    rw [List.length_set, length_bytesAt]
  by_cases hx : a ≤ x ∧ x < a + n
  · obtain ⟨j, hj, rfl⟩ : ∃ j : ℕ, j < n ∧ x = a + j := ⟨(x - a).toNat, by omega, by omega⟩
    rw [store_getElem (by omega), List.getElem_set_of_ne (by omega)]
    simp only [bytesAt, List.getElem_map, List.getElem_range]
  · exact store_of_disjoint (by omega)

theorem store32_load32 (m : Mem) (a : ℤ) : store32 m a (load32 m a) = m := by
  have hmod : (load32 m a % 4294967296).toNat = ofBytes (bytesAt m a 4) := by
    rw [Int.emod_eq_of_lt (load32_nonneg m a) (load32_lt m a), load32, Int.toNat_natCast]
  have hbytes := toBytes_ofBytes (bytesAt m a 4)
  rw [length_bytesAt] at hbytes
  rw [store32, hmod, hbytes, store_bytesAt]

/-- A store of a word changes nothing exactly when the word is there. -/
theorem store32_eq_self_iff {v : ℤ} : store32 m a v = m ↔ load32 m a = unsigned v := by
  constructor
  · intro h
    rw [← load32_store32 m a v, h]
  · intro h
    have hstore : store32 m a v = store32 m a (load32 m a) := by
      rw [h, store32, store32, unsigned, Int.emod_emod_of_dvd _ (dvd_refl _)]
    rw [hstore, store32_load32]

theorem isString_congr (h : ∀ i : ℕ, i ≤ l.length → m' (a + i) = m (a + i)) :
    isString m' a l = isString m a l := by
  induction l generalizing a with
  | nil =>
      have h0 := h 0 (Nat.zero_le _)
      rw [Nat.cast_zero, add_zero] at h0
      rw [isString, isString, h0]
  | cons b l ih =>
      have h0 := h 0 (Nat.zero_le _)
      rw [Nat.cast_zero, add_zero] at h0
      have hrest : isString m' (a + 1) l = isString m (a + 1) l := by
        apply ih
        intro i hi
        have hi' := h (i + 1) (by rw [List.length_cons]; omega)
        rwa [Nat.cast_succ, add_comm (i : ℤ) 1, ← add_assoc] at hi'
      rw [isString, isString, h0, hrest]

theorem signed_eq_self {x : ℤ} (h : -2147483648 ≤ x) (h' : x < 2147483648) : signed x = x := by
  rw [signed]
  omega

theorem unsigned_eq_self {x : ℤ} (h : 0 ≤ x) (h' : x < 4294967296) : unsigned x = x :=
  Int.emod_eq_of_lt h h'

theorem AgreeOn.refl (R : Set ℤ) (m : Mem) : AgreeOn R m m := fun _ _ => rfl

theorem AgreeOn.trans (h : AgreeOn R m m') (h' : AgreeOn R m' m'') : AgreeOn R m m'' :=
  fun x hx => (h' x hx).trans (h x hx)

theorem AgreeOn.mono (hR : R' ⊆ R) (h : AgreeOn R m m') : AgreeOn R' m m' :=
  fun x hx => h x (hR hx)

end Memory
