import Mathlib.Data.List.AList

/-!
# Dictionaries

A finite map from keys to values with the operations of a dictionary of the
commons library: `get` (absent keys read as `none`), `put`, `remove` and the
list of entries that an iteration visits. It is Mathlib's `AList` at a constant
family; each operation has one lemma that says what `get` reads after it.
-/

/-- A finite map from `K` to `V`. -/
def Dictionary (K V : Type*) : Type _ := AList fun _ : K => V

namespace Dictionary

variable {K V : Type*}

/-- The dictionary with no entries. -/
def empty : Dictionary K V := (∅ : AList fun _ : K => V)

/-- The entries, in the order in which an iteration visits them. -/
def toList (d : Dictionary K V) : List (K × V) :=
  (AList.entries d).map fun e => (e.1, e.2)

@[simp] theorem toList_empty : (empty : Dictionary K V).toList = [] := rfl

/-- No two entries have the same key. -/
theorem pairwise_toList (d : Dictionary K V) : d.toList.Pairwise fun e e' => e.1 ≠ e'.1 := by
  have hkeys : (AList.entries d).Pairwise fun e e' => e.1 ≠ e'.1 :=
    List.pairwise_map.1 (AList.nodupKeys d)
  exact List.pairwise_map.2 hkeys

variable [DecidableEq K]

/-- The value stored under a key. -/
def get (d : Dictionary K V) (k : K) : Option V := AList.lookup k d

/-- Stores a value under a key, replacing the one that was there. -/
def put (d : Dictionary K V) (k : K) (v : V) : Dictionary K V := AList.insert k v d

/-- Removes a key. -/
def remove (d : Dictionary K V) (k : K) : Dictionary K V := AList.erase k d

/-- The dictionary that stores the pairs of a list one after the other. -/
def ofList (l : List (K × V)) : Dictionary K V :=
  l.foldl (fun d e => d.put e.1 e.2) empty

@[simp] theorem get_empty (k : K) : (empty : Dictionary K V).get k = none := rfl

theorem get_put (d : Dictionary K V) (k k' : K) (v : V) :
    (d.put k v).get k' = if k' = k then some v else d.get k' := by
  by_cases h : k' = k
  · subst h
    rw [if_pos rfl]
    exact AList.lookup_insert d
  · rw [if_neg h]
    exact AList.lookup_insert_ne h

@[simp] theorem get_put_self (d : Dictionary K V) (k : K) (v : V) :
    (d.put k v).get k = some v := by
  rw [get_put, if_pos rfl]

theorem get_put_of_ne (d : Dictionary K V) {k k' : K} (v : V) (h : k' ≠ k) :
    (d.put k v).get k' = d.get k' := by
  rw [get_put, if_neg h]

/-- A list with other values under the same keys gives a dictionary with these values. -/
theorem get_ofList_map {W : Type*} (f : V → W) (l : List (K × V)) (k : K) :
    (ofList (l.map fun e => (e.1, f e.2))).get k = ((ofList l).get k).map f := by
  have hfold : ∀ (d : Dictionary K V) (d' : Dictionary K W), d'.get k = (d.get k).map f →
      ((l.map fun e => (e.1, f e.2)).foldl (fun d e => d.put e.1 e.2) d').get k =
        ((l.foldl (fun d e => d.put e.1 e.2) d).get k).map f := by
    induction l with
    | nil => exact fun d d' h => h
    | cons e l ih =>
        intro d d' h
        refine ih _ _ ?_
        rw [get_put, get_put]
        split_ifs
        · rfl
        · exact h
  exact hfold empty empty rfl

theorem put_put (d : Dictionary K V) (k : K) (v v' : V) : (d.put k v).put k v' = d.put k v' :=
  AList.insert_insert d

theorem get_remove (d : Dictionary K V) (k k' : K) :
    (d.remove k).get k' = if k' = k then none else d.get k' := by
  by_cases h : k' = k
  · subst h
    rw [if_pos rfl]
    exact AList.lookup_erase k' d
  · rw [if_neg h]
    exact AList.lookup_erase_ne h

theorem mem_toList (d : Dictionary K V) (k : K) (v : V) :
    (k, v) ∈ d.toList ↔ d.get k = some v := by
  have hlook : d.get k = some v ↔ (⟨k, v⟩ : Sigma fun _ : K => V) ∈ AList.entries d :=
    AList.mem_lookup_iff
  rw [hlook, toList, List.mem_map]
  constructor
  · rintro ⟨e, he, heq⟩
    rw [Prod.mk.injEq] at heq
    obtain ⟨rfl, rfl⟩ := heq
    exact he
  · intro h
    exact ⟨⟨k, v⟩, h, rfl⟩

/-- Storing under a key is removing it and adding the entry. -/
theorem toList_put (d : Dictionary K V) (k : K) (v : V) :
    (d.put k v).toList = (k, v) :: (d.remove k).toList := rfl

/-- Reading a key splits its entry from the others. -/
theorem toList_perm (d : Dictionary K V) (k : K) :
    d.toList.Perm (((d.get k).map fun v => (k, v)).toList ++ (d.remove k).toList) := by
  cases hv : d.get k with
  | none =>
      have hkeys : k ∉ (AList.entries d).keys := by
        rw [← List.dlookup_eq_none]
        exact hv
      have herase : (AList.entries d).kerase k = AList.entries d :=
        List.kerase_of_notMem_keys hkeys
      have hsame : (d.remove k).toList = d.toList := by
        change ((AList.entries d).kerase k).map _ = _
        rw [herase]
        rfl
      rw [hsame]
      exact .refl _
  | some v =>
      have hlook : ∀ k' v', v' ∈ (AList.entries d).dlookup k' ↔
          v' ∈ (AList.entries (d.put k v)).dlookup k' := by
        intro k' v'
        change d.get k' = some v' ↔ (d.put k v).get k' = some v'
        by_cases hk : k' = k
        · subst hk
          rw [hv, get_put_self]
        · rw [get_put_of_ne _ _ hk]
      have hperm : d.toList.Perm (d.put k v).toList :=
        (List.lookup_ext (AList.nodupKeys d) (AList.nodupKeys (d.put k v)) hlook).map _
      rw [toList_put] at hperm
      exact hperm

/-- All the items of a dictionary of lists. -/
def concat {α : Type*} (d : Dictionary K (List α)) : List α := d.toList.flatMap Prod.snd

theorem mem_concat {α : Type*} {d : Dictionary K (List α)} {x : α} :
    x ∈ d.concat ↔ ∃ k, x ∈ (d.get k).getD [] := by
  rw [concat, List.mem_flatMap]
  constructor
  · rintro ⟨e, he, hx⟩
    exact ⟨e.1, by rw [(d.mem_toList _ _).1 he]; exact hx⟩
  · rintro ⟨k, hx⟩
    cases hv : d.get k with
    | none =>
        rw [hv] at hx
        cases hx
    | some l =>
        rw [hv] at hx
        exact ⟨(k, l), (d.mem_toList _ _).2 hv, hx⟩

/-- Replacing a list changes the count of the items by that of the two lists. -/
theorem countP_concat_put {α : Type*} (f : α → Bool) (d : Dictionary K (List α)) (k : K)
    (l : List α) :
    (d.put k l).concat.countP f + ((d.get k).getD []).countP f =
      d.concat.countP f + l.countP f := by
  have hput : (d.put k l).concat.countP f = l.countP f + (d.remove k).concat.countP f := by
    rw [concat, toList_put, List.flatMap_cons, List.countP_append]
    rfl
  have hget : d.concat.countP f =
      ((d.get k).getD []).countP f + (d.remove k).concat.countP f := by
    have hperm := ((d.toList_perm k).flatMap_right Prod.snd).countP_eq f
    rw [concat, hperm, List.flatMap_append, List.countP_append]
    cases d.get k with
    | none => rfl
    | some l => simp [concat]
  omega

/-- Lists read off the entries have no repetitions together when each has none
and those of different keys have nothing in common. -/
theorem nodup_flatMap {α : Type*} (d : Dictionary K V) {f : K × V → List α}
    (hf : ∀ k v, d.get k = some v → (f (k, v)).Nodup)
    (hdisj : ∀ k v k' v', d.get k = some v → d.get k' = some v' → k ≠ k' →
      ∀ x ∈ f (k, v), x ∉ f (k', v')) : (d.toList.flatMap f).Nodup := by
  rw [List.nodup_flatMap]
  refine ⟨fun e he => hf e.1 e.2 ((d.mem_toList _ _).1 he), ?_⟩
  refine d.pairwise_toList.imp_of_mem fun {e e'} he he' hne x hx => ?_
  exact hdisj e.1 e.2 e'.1 e'.2 ((d.mem_toList _ _).1 he) ((d.mem_toList _ _).1 he') hne x hx

end Dictionary
