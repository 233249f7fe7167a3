import Linuse.Suse.Clientes

/-!
# The hilolay library

The table of TCBs of `hilolay_internal.c`, the running ULT and the next id. A program changes them
only by creating a ULT and by going on with another one, and both keep a table of one shape: the
ULTs that were created have their ids in order from the main thread on, one of them runs and the
others are ready, and the TCBs after them are free (`Biblioteca.de`). A TCB is never free again.
-/

namespace Hilolay

open Suse (Tid mainThreadId)

/-- The states of a ULT. -/
inductive State where
  | free
  | running
  | ready
  deriving DecidableEq, Repr

/-- The context of a ULT belongs to the program, and `next` is never read. -/
structure TCB where
  id : Tid
  state : State
  deriving DecidableEq, Repr

/-- `MAX_ULTS` -/
def maxUlts : ℕ := 5000

/-- `ults`, the place of `current_ult` in it, and `NEXT_ID`. -/
structure Biblioteca where
  ults : List TCB
  currentUlt : ℕ
  nextId : Tid
  deriving DecidableEq

namespace Biblioteca

/-- The variables as the program starts with them. -/
def enCero : Biblioteca := ⟨List.replicate maxUlts ⟨0, .free⟩, 0, 1⟩

/-- `init_internal`, up to its `suse_create`. -/
def initInternal (b : Biblioteca) : Biblioteca :=
  { b with ults := b.ults.set 0 ⟨mainThreadId, .running⟩, currentUlt := 0 }

/-- `find_free_tcb` -/
def findFreeTcb (b : Biblioteca) : Option ℕ := b.ults.findIdx? fun t => t.state = .free

/-- `hilolay_create`, up to its `suse_create`, with the id that it gives; `none` when it answers
`ERROR_TOO_MANY_ULTS`. -/
def hilolayCreate (b : Biblioteca) : Option (Tid × Biblioteca) :=
  b.findFreeTcb.map fun i =>
    (b.nextId, { b with ults := b.ults.set i ⟨b.nextId, .ready⟩, nextId := b.nextId + 1 })

/-- The loop of `get_next_tid`; `none` is the NULL that it returns when no TCB has the id. -/
def getNextTid (b : Biblioteca) (tid : Tid) : Option ℕ := b.ults.findIdx? fun t => t.id = tid

/-- `hilolay_get_tid` -/
def hilolayGetTid (b : Biblioteca) : Option Tid := (b.ults[b.currentUlt]?).map TCB.id

/-- `swap_context` -/
def swapContext (b : Biblioteca) (selectedUlt : ℕ) : Biblioteca :=
  { b with
    ults := (b.ults.modify b.currentUlt fun t => { t with state := .ready }).modify selectedUlt
      fun t => { t with state := .running }
    currentUlt := selectedUlt }

/-! ## The shape of the table -/

/-- The TCB at a place of the table, when the ULTs before `n` were created and `c` runs. -/
def tcb (n c i : ℕ) : TCB :=
  if i = c then ⟨i, .running⟩ else if i < n then ⟨i, .ready⟩ else ⟨0, .free⟩

/-- The library when the ULTs before `n` were created and `c` runs. -/
def de (n c : ℕ) : Biblioteca := ⟨(List.range maxUlts).map (tcb n c), c, n⟩

variable {n c i : ℕ}

theorem ults_de (n c : ℕ) : (de n c).ults = (List.range maxUlts).map (tcb n c) := by
  rw [de]

theorem length_ults_de (n c : ℕ) : (de n c).ults.length = maxUlts := by
  rw [ults_de, List.length_map, List.length_range]

theorem getElem?_ults_de (n c i : ℕ) :
    (de n c).ults[i]? = if i < maxUlts then some (tcb n c i) else none := by
  rw [ults_de, List.getElem?_map]
  split_ifs with h
  · rw [List.getElem?_range h, Option.map_some]
  · rw [List.getElem?_eq_none (by rw [List.length_range]; omega), Option.map_none]

/-- A library is known by its table. -/
theorem eq_de {b : Biblioteca} (h : ∀ i : ℕ, b.ults[i]? = (de n c).ults[i]?) (hc : b.currentUlt = c)
    (hn : b.nextId = n) : b = de n c := by
  obtain ⟨ults, currentUlt, nextId⟩ := b
  have hults := (List.ext_getElem? h).trans (ults_de n c)
  simp only at hults hc hn
  rw [de, hults, hc, hn]

/-- The first place of the table that meets a condition. -/
theorem findIdx?_ults_de {p : TCB → Bool} (hi : i < maxUlts) (hp : p (tcb n c i) = true)
    (hantes : ∀ j < i, p (tcb n c j) = false) : (de n c).ults.findIdx? p = some i := by
  rw [List.findIdx?_eq_some_iff_getElem]
  have hget : ∀ j (hj : j < (de n c).ults.length), (de n c).ults[j] = tcb n c j := by
    intro j hj
    simp only [ults_de, List.getElem_map, List.getElem_range]
  have hlen : i < (de n c).ults.length := by rwa [length_ults_de]
  refine ⟨hlen, by simpa only [hget] using hp, fun j hj => ?_⟩
  simp only [hget, hantes j hj, Bool.false_eq_true, not_false_eq_true]

theorem initInternal_enCero : enCero.initInternal = de 1 0 := by
  have hults : enCero.ults = List.replicate maxUlts ⟨0, .free⟩ := rfl
  refine eq_de (fun i => ?_) rfl rfl
  rw [initInternal, List.getElem?_set, hults, List.length_replicate, List.getElem?_replicate,
    getElem?_ults_de, tcb]
  have hpos : 0 < maxUlts := by decide
  rcases Nat.eq_zero_or_pos i with rfl | hi
  · rw [if_pos rfl, if_pos hpos, if_pos hpos, if_pos rfl]
    rfl
  · rw [if_neg (by omega), if_neg (show ¬ i = 0 by omega), if_neg (show ¬ i < 1 by omega)]

theorem findFreeTcb_de (hc : c < n) (hn : n < maxUlts) : (de n c).findFreeTcb = some n := by
  refine findIdx?_ults_de hn ?_ fun j hj => ?_
  · simp [tcb, hc.ne']
  · rw [tcb]
    split_ifs <;> simp

theorem findFreeTcb_de_of_le (hn : maxUlts ≤ n) (c : ℕ) : (de n c).findFreeTcb = none := by
  rw [findFreeTcb, List.findIdx?_eq_none_iff, ults_de]
  intro t ht
  rw [List.mem_map] at ht
  obtain ⟨i, hi, rfl⟩ := ht
  rw [List.mem_range] at hi
  rw [tcb]
  split_ifs with h₁ h₂
  · simp
  · simp
  · exact absurd (show i < n by omega) h₂

theorem hilolayCreate_de (hc : c < n) (hn : n < maxUlts) :
    (de n c).hilolayCreate = some ((n : Tid), de (n + 1) c) := by
  have hid : (de n c).nextId = n := rfl
  rw [hilolayCreate, findFreeTcb_de hc hn, Option.map_some, Option.some.injEq, Prod.mk.injEq]
  refine ⟨hid, eq_de (fun i => ?_) rfl (by push_cast; rfl)⟩
  rw [List.getElem?_set, length_ults_de, getElem?_ults_de, getElem?_ults_de, hid, if_pos hn]
  split_ifs with hi hmax
  · subst hi
    rw [tcb, if_neg (by omega), if_pos (by omega)]
  · omega
  · have hlt : i < n + 1 ↔ i < n := by omega
    simp only [tcb, hlt]
  · rfl

/-- No TCB is free again, so a program creates `MAX_ULTS` of them at most. -/
theorem hilolayCreate_de_of_le (hn : maxUlts ≤ n) (c : ℕ) : (de n c).hilolayCreate = none := by
  rw [hilolayCreate, findFreeTcb_de_of_le hn c, Option.map_none]

theorem getNextTid_de (hi : i < n) (hn : n ≤ maxUlts) : (de n c).getNextTid i = some i := by
  refine findIdx?_ults_de (by omega) ?_ fun j hj => ?_
  · rw [tcb]
    split_ifs <;> simp
  · have hid : (tcb n c j).id = j := by
      rw [tcb]
      split_ifs with h₁ h₂
      · rfl
      · rfl
      · exact absurd (show j < n by omega) h₂
    rw [hid, decide_eq_false_iff_not, Int.natCast_inj]
    exact hj.ne

theorem hilolayGetTid_de (hc : c < n) (hn : n ≤ maxUlts) :
    (de n c).hilolayGetTid = some (c : Tid) := by
  have hcurrent : (de n c).currentUlt = c := rfl
  rw [hilolayGetTid, hcurrent, getElem?_ults_de, if_pos (by omega), tcb, if_pos rfl,
    Option.map_some]

theorem swapContext_de (hc : c < n) (hi : i < n) : (de n c).swapContext i = de n i := by
  have hcurrent : (de n c).currentUlt = c := rfl
  have hid : ∀ {j : ℕ}, j < n → (tcb n c j).id = j := by
    intro j hj
    rw [tcb]
    split_ifs <;> rfl
  refine eq_de (fun j => ?_) rfl rfl
  rw [swapContext, List.getElem?_modify, List.getElem?_modify, getElem?_ults_de,
    getElem?_ults_de, hcurrent]
  by_cases hmax : j < maxUlts
  · simp only [if_pos hmax, Option.map_eq_map, Option.map_some, Option.some.injEq]
    by_cases hji : i = j
    · -- the selected ULT, which may be the one that ran
      subst hji
      have hcorre : tcb n i i = ⟨i, .running⟩ := if_pos rfl
      rw [if_pos rfl, hcorre]
      by_cases hci : c = i
      · rw [if_pos hci, hid hi]
      · rw [if_neg hci, hid hi]
    · rw [if_neg hji]
      by_cases hcj : c = j
      · subst hcj
        rw [if_pos rfl, hid hc, tcb, if_neg (Ne.symm hji), if_pos hc]
      · rw [if_neg hcj, tcb, tcb, if_neg (Ne.symm hcj), if_neg (Ne.symm hji)]
  · simp only [if_neg hmax, Option.map_eq_map, Option.map_none]

end Biblioteca

end Hilolay
