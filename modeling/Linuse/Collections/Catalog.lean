import Mathlib.Data.List.Induction
import Mathlib.Data.Set.Basic
import Mathlib.Logic.Function.Basic

/-!
# Tables of named nodes

A catalog is a table whose nodes have a father and a name, as the table of nodes of a file system.
The nodes are numbered from 1 and 0 is the root. A child is looked up by its father and its name,
the first one of the table if there are more (`Catalog.find`), and a list of names is walked from
the root (`Catalog.resolve`). A change of the table leaves the walks through nodes that keep their
father and their name, as long as no other node takes a name that was found
(`Catalog.resolve_keep`).
-/

/-- A node of a catalog: its father, its name, and what it holds. -/
structure Entry (ν δ : Type*) where
  father : ℕ
  name : ν
  data : δ
  deriving DecidableEq

/-- A table of nodes. -/
abbrev Catalog (ν δ : Type*) := ℕ → Option (Entry ν δ)

namespace Catalog

variable {ν δ : Type*} [DecidableEq ν] {size : ℕ} {t t' : Catalog ν δ} {q i j k : ℕ} {c : ν}

/-- The place of the table has a child of `q` with this name. -/
def isChild (t : Catalog ν δ) (q : ℕ) (c : ν) (i : ℕ) : Bool :=
  (t i).any fun e => e.father == q && e.name == c

/-- The number of the first child of `q` with this name. -/
def find (size : ℕ) (t : Catalog ν δ) (q : ℕ) (c : ν) : Option ℕ :=
  ((List.range size).find? (t.isChild q c)).map (· + 1)

/-- The number of the node at the end of a walk from the root. -/
def resolve (size : ℕ) (t : Catalog ν δ) (cs : List ν) : Option ℕ :=
  cs.foldlM (t.find size) 0

/-- The table with another node. -/
def put (t : Catalog ν δ) (i : ℕ) (e : Entry ν δ) : Catalog ν δ := Function.update t i (some e)

/-- The table when a node holds something else. -/
def setData (t : Catalog ν δ) (i : ℕ) (d : δ) : Catalog ν δ :=
  Function.update t i ((t i).map fun e => { e with data := d })

/-- The table when a node has another father and another name. -/
def move (t : Catalog ν δ) (i q : ℕ) (c : ν) : Catalog ν δ :=
  Function.update t i ((t i).map fun e => { e with father := q, name := c })

open Classical in
/-- The table without some nodes. -/
noncomputable def erase (t : Catalog ν δ) (D : Set ℕ) : Catalog ν δ :=
  fun i => if i ∈ D then none else t i

/-- The nodes below `q`, through nodes that hold what `dir` says. -/
inductive Below (dir : δ → Prop) (t : Catalog ν δ) (q : ℕ) : ℕ → Prop
  | child {i : ℕ} {e : Entry ν δ} : t i = some e → e.father = q → Below dir t q i
  | step {i j : ℕ} {d e : Entry ν δ} : Below dir t q j → t j = some d → dir d.data →
      t i = some e → e.father = j + 1 → Below dir t q i

theorem isChild_iff : t.isChild q c i = true ↔ ∃ e, t i = some e ∧ e.father = q ∧ e.name = c := by
  rw [isChild, Option.any_eq_true_iff_get]
  constructor
  · rintro ⟨hsome, h⟩
    rw [Bool.and_eq_true, beq_iff_eq, beq_iff_eq] at h
    exact ⟨_, (Option.some_get hsome).symm, h.1, h.2⟩
  · rintro ⟨e, he, rfl, rfl⟩
    simp [he]

theorem find_eq_none_iff : t.find size q c = none ↔ ∀ i < size, t.isChild q c i = false := by
  simp [find, List.find?_eq_none]

theorem find_eq_some_iff : t.find size q c = some k ↔
    ∃ i < size, k = i + 1 ∧ t.isChild q c i = true ∧ ∀ j < i, t.isChild q c j = false := by
  rw [find, Option.map_eq_some_iff]
  constructor
  · rintro ⟨i, hfind, rfl⟩
    rw [List.find?_range_eq_some] at hfind
    obtain ⟨hchild, hi, hfirst⟩ := hfind
    exact ⟨i, List.mem_range.1 hi, rfl, hchild, fun j hj => by simpa using hfirst j hj⟩
  · rintro ⟨i, hi, rfl, hchild, hfirst⟩
    refine ⟨i, ?_, rfl⟩
    rw [List.find?_range_eq_some]
    exact ⟨hchild, List.mem_range.2 hi, fun j hj => by simpa using hfirst j hj⟩

/-! ## Walks -/

@[simp]
theorem resolve_nil : t.resolve size [] = some 0 := rfl

/-- The last name of a walk is looked up among the children of where the others lead. -/
theorem resolve_snoc (cs : List ν) (c : ν) :
    t.resolve size (cs ++ [c]) = (t.resolve size cs).bind fun q => t.find size q c := by
  rw [resolve, List.foldlM_append]
  change ((t.resolve size cs).bind fun q => (t.find size q c).bind some) = _
  congr 1
  funext q
  exact Option.bind_fun_some _

/-- A walk ends at the root or at a node of the table. -/
theorem resolve_eq_some_cases {cs : List ν} (h : t.resolve size cs = some k) :
    cs = [] ∧ k = 0 ∨ ∃ i < size, k = i + 1 ∧ ∃ e, t i = some e := by
  rcases List.eq_nil_or_concat cs with rfl | ⟨cs, c, rfl⟩
  · exact .inl ⟨rfl, (Option.some.inj h).symm⟩
  · rw [List.concat_eq_append, resolve_snoc] at h
    obtain ⟨q, -, hfind⟩ := Option.bind_eq_some_iff.1 h
    obtain ⟨i, hi, rfl, hchild, -⟩ := find_eq_some_iff.1 hfind
    obtain ⟨e, he, -⟩ := isChild_iff.1 hchild
    exact .inr ⟨i, hi, rfl, e, he⟩

/-- The nodes through which a walk goes. -/
def Through (size : ℕ) (t : Catalog ν δ) (cs : List ν) (i : ℕ) : Prop :=
  ∃ cs', cs' <+: cs ∧ t.resolve size cs' = some (i + 1)

/-- The node has the same father and name in both tables. -/
def SameName (t t' : Catalog ν δ) (i : ℕ) : Prop :=
  (t' i).map (fun e => (e.father, e.name)) = (t i).map fun e => (e.father, e.name)

theorem SameName.isChild_eq (h : SameName t t' i) (q : ℕ) (c : ν) :
    t'.isChild q c i = t.isChild q c i := by
  rw [SameName] at h
  rw [isChild, isChild]
  cases he : t i with
  | none =>
      rw [he, Option.map_none, Option.map_eq_none_iff] at h
      rw [h]
  | some e =>
      rw [he, Option.map_some, Option.map_eq_some_iff] at h
      obtain ⟨e', he', heq⟩ := h
      rw [Prod.mk.injEq] at heq
      rw [he', Option.any_some, Option.any_some, heq.1, heq.2]

/-- A child that is kept is still the first, if no other node takes its name. -/
theorem find_keep (h : t.find size q c = some (i + 1)) (hkeep : SameName t t' i)
    (hnew : ∀ j, t'.isChild q c j = true → t.isChild q c j = true) :
    t'.find size q c = some (i + 1) := by
  obtain ⟨i', hi, heq, hchild, hfirst⟩ := find_eq_some_iff.1 h
  obtain rfl : i = i' := Nat.succ.inj heq
  refine find_eq_some_iff.2 ⟨i, hi, rfl, (hkeep.isChild_eq q c).trans hchild, fun j hj => ?_⟩
  by_contra hno
  rw [Bool.not_eq_false] at hno
  have hold := hnew j hno
  rw [hfirst j hj] at hold
  cases hold

/-- A walk through nodes that keep their father and their name leads where it led, if the names
that are new were not found. -/
theorem resolve_keep {cs : List ν} (h : t.resolve size cs = some k)
    (hkeep : ∀ i, t.Through size cs i → SameName t t' i)
    (hnew : ∀ q c j, t'.isChild q c j = true → t.isChild q c j = true ∨ t.find size q c = none) :
    t'.resolve size cs = some k := by
  induction cs using List.reverseRecOn generalizing k with
  | nil => exact h
  | append_singleton cs c ih =>
      have hend := h
      rw [resolve_snoc] at h
      obtain ⟨q, hq, hfind⟩ := Option.bind_eq_some_iff.1 h
      have hq' := ih hq fun i hi => hkeep i <| by
        obtain ⟨cs', hprefix, hcs'⟩ := hi
        exact ⟨cs', hprefix.trans (List.prefix_append _ _), hcs'⟩
      obtain ⟨i, -, rfl, -⟩ := find_eq_some_iff.1 hfind
      rw [resolve_snoc, hq', Option.bind_some]
      refine find_keep hfind (hkeep i ⟨_, List.prefix_rfl, hend⟩) fun j hj => ?_
      refine (hnew q c j hj).resolve_right ?_
      rw [hfind]
      exact Option.some_ne_none _

end Catalog
