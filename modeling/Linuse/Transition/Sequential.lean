import Linuse.Transition.Locks

/-!
# Code that runs alone

Code whose actions are the changes that they make to the shared data can be
evaluated when no other thread takes part: `Code.eval` gives the result and the
data at the end, `Code.trace` the locks it takes and releases on the way. Code
that is `Ordered` for a single rank takes a lock only when it owns none, and owns
none at its end (`balanced_of_ordered`).
-/

namespace Locks

/-- Code whose actions are the changes they make to the data. -/
abbrev Code (S L α : Type) : Type := Prog S L (S → S) α

/-- What a thread does with locks. -/
inductive LockEvent (L : Type) where
  | acquire (l : L)
  | release (l : L)
  deriving DecidableEq

namespace Code

variable {S L α β γ : Type}

/-- Reads something of the data. -/
def read (f : S → α) : Code S L α := .act id fun s => .ret (f s)

/-- Changes the data. -/
def modify (f : S → S) : Code S L Unit := .act f fun _ => .ret ()

/-- Goes on with a value that may be missing. -/
def orFail : Option α → Code S L α
  | some a => .ret a
  | none => .fail

/-- Reads and changes the data in one action, which may fail. -/
def attempt (f : S → Option (α × S)) : Code S L α :=
  .act (fun s => ((f s).map Prod.snd).getD s) fun s => orFail ((f s).map Prod.fst)

/-- The result and the data at the end of code that no other thread interrupts. -/
def eval : Code S L α → S → Option (α × S)
  | .ret a, s => some (a, s)
  | .fail, _ => none
  | .acquire _ k, s => eval k s
  | .release _ k, s => eval k s
  | .act f k, s => eval (k s) (f s)

/-- What the code does with locks on its way. -/
def trace : Code S L α → S → List (LockEvent L)
  | .ret _, _ => []
  | .fail, _ => []
  | .acquire l k, s => .acquire l :: trace k s
  | .release l k, s => .release l :: trace k s
  | .act f k, s => trace (k s) (f s)

section Eval

variable (s : S)

@[simp]
theorem eval_pure (a : α) : eval (pure a : Code S L α) s = some (a, s) := rfl

@[simp]
theorem eval_fail : eval (.fail : Code S L α) s = none := rfl

@[simp]
theorem eval_lock (l : L) : eval (Prog.lock l : Code S L Unit) s = some ((), s) := rfl

@[simp]
theorem eval_unlock (l : L) : eval (Prog.unlock l : Code S L Unit) s = some ((), s) := rfl

@[simp]
theorem eval_read (f : S → α) : eval (read f : Code S L α) s = some (f s, s) := rfl

@[simp]
theorem eval_modify (f : S → S) : eval (modify f : Code S L Unit) s = some ((), f s) := rfl

@[simp]
theorem eval_orFail (o : Option α) :
    eval (orFail o : Code S L α) s = o.map fun a => (a, s) := by
  cases o <;> rfl

@[simp]
theorem eval_attempt (f : S → Option (α × S)) :
    eval (attempt f : Code S L α) s = f s := by
  rw [attempt, eval, eval_orFail]
  cases f s <;> rfl

@[simp]
theorem eval_bind (p : Code S L α) (f : α → Code S L β) :
    eval (p >>= f) s = (eval p s).bind fun r => eval (f r.1) r.2 := by
  induction p generalizing s with
  | ret a => rfl
  | fail => rfl
  | acquire l k ih => exact ih s
  | release l k ih => exact ih s
  | act g k ih => exact ih s (g s)

theorem eval_bind_some {p : Code S L α} {f : α → Code S L β} {s s' : S} {b : β}
    (h : eval (p >>= f) s = some (b, s')) :
    ∃ a t, eval p s = some (a, t) ∧ eval (f a) t = some (b, s') := by
  rw [eval_bind, Option.bind_eq_some_iff] at h
  obtain ⟨⟨a, t⟩, hp, hf⟩ := h
  exact ⟨a, t, hp, hf⟩

theorem eval_forEach_cons (p : γ → Code S L Unit) (x : γ) (xs : List γ) :
    eval (Prog.forEach p (x :: xs)) s =
      (eval (p x) s).bind fun r => eval (Prog.forEach p xs) r.2 :=
  eval_bind s (p x) fun _ => Prog.forEach p xs

/-- A loop completes and keeps what every pass of its body completes and keeps. -/
theorem eval_forEach_invariant {P : S → Prop} {p : γ → Code S L Unit} :
    ∀ {xs : List γ} {s : S}, (∀ x ∈ xs, ∀ s, P s → ∃ s', eval (p x) s = some ((), s') ∧ P s') →
      P s → ∃ s', eval (Prog.forEach p xs) s = some ((), s') ∧ P s'
  | [], s, _, hs => ⟨s, rfl, hs⟩
  | x :: xs, s, h, hs => by
      obtain ⟨s1, heval, hs1⟩ := h x List.mem_cons_self s hs
      obtain ⟨s2, heval', hs2⟩ := eval_forEach_invariant
        (fun y hy => h y (List.mem_cons_of_mem x hy)) hs1
      exact ⟨s2, by rw [eval_forEach_cons, heval, Option.bind_some, heval'], hs2⟩

/-- A loop that completes keeps what every completed pass of its body keeps, and has done for each
element what its pass does and later ones do not undo. -/
theorem forEach_of_eval {P : S → Prop} {Q : γ → S → Prop} {p : γ → Code S L Unit} :
    ∀ {xs : List γ} {s s' : S},
      (∀ x ∈ xs, ∀ s s', P s → eval (p x) s = some ((), s') →
        P s' ∧ Q x s' ∧ ∀ y, Q y s → Q y s') → P s →
          eval (Prog.forEach p xs) s = some ((), s') →
            P s' ∧ (∀ x ∈ xs, Q x s') ∧ ∀ y, Q y s → Q y s'
  | [], s, s', _, hs, heval => by
      cases heval
      exact ⟨hs, fun _ hx => absurd hx List.not_mem_nil, fun _ hy => hy⟩
  | x :: xs, s, s', h, hs, heval => by
      rw [eval_forEach_cons, Option.bind_eq_some_iff] at heval
      obtain ⟨⟨_, t⟩, hx, hxs⟩ := heval
      obtain ⟨ht, hQx, hkeep⟩ := h x List.mem_cons_self s t hs hx
      obtain ⟨hs', hQ, hkeep'⟩ :=
        forEach_of_eval (fun y hy => h y (List.mem_cons_of_mem x hy)) ht hxs
      refine ⟨hs', fun y hy => ?_, fun y hy => hkeep' y (hkeep y hy)⟩
      rcases List.mem_cons.1 hy with rfl | hy
      · exact hkeep' y hQx
      · exact hQ y hy

end Eval

section Extends

/-- Where the first code completes, the second completes in the same way. -/
def Extends (p q : Code S L α) : Prop := ∀ s r, eval p s = some r → eval q s = some r

theorem Extends.refl (p : Code S L α) : Extends p p := fun _ _ h => h

theorem Extends.trans {p q r : Code S L α} (h : Extends p q) (h' : Extends q r) : Extends p r :=
  fun s t ht => h' s t (h s t ht)

theorem extends_fail (p : Code S L α) : Extends .fail p := by
  intro s r h
  cases h

theorem Extends.bind {p q : Code S L α} {f g : α → Code S L β} (h : Extends p q)
    (hf : ∀ a, Extends (f a) (g a)) : Extends (p >>= f) (q >>= g) := by
  intro s r hr
  obtain ⟨a, t, hp, hr⟩ := eval_bind_some hr
  rw [eval_bind, h s _ hp, Option.bind_some]
  exact hf a t r hr

theorem Extends.ite {c : Prop} [Decidable c] {p q p' q' : Code S L α} (h : Extends p p')
    (h' : Extends q q') : Extends (if c then p else q) (if c then p' else q') := by
  split_ifs
  · exact h
  · exact h'

theorem Extends.forEach {p q : γ → Code S L Unit} (h : ∀ x, Extends (p x) (q x))
    (xs : List γ) : Extends (Prog.forEach p xs) (Prog.forEach q xs) := by
  induction xs with
  | nil => exact .refl _
  | cons x xs ih => exact (h x).bind fun _ => ih

/-- Where more fuel extends the code by one step, it extends it by any number of steps. -/
theorem extends_of_le {p : ℕ → Code S L α} (hp : ∀ n, Extends (p n) (p (n + 1))) {n n' : ℕ}
    (h : n ≤ n') : Extends (p n) (p n') := by
  induction h with
  | refl => exact .refl _
  | step _ ih => exact ih.trans (hp _)

/-- Code that more fuel extends gives one result for all fuel that is enough. -/
theorem eval_unique {p : ℕ → Code S L α} (hp : ∀ n, Extends (p n) (p (n + 1))) {n n' : ℕ} {s : S}
    {r r' : α × S} (h : eval (p n) s = some r) (h' : eval (p n') s = some r') : r = r' := by
  have hmax := extends_of_le hp (Nat.le_max_left n n') s r h
  have hmax' := extends_of_le hp (Nat.le_max_right n n') s r' h'
  rw [hmax] at hmax'
  exact Option.some.inj hmax'

end Extends

section Ends

variable {p : ℕ → Code S L α} {s t : S} {r r' : α × S} {a : α}

/-- With all fuel that is enough the code completes with this result. -/
def Ends (p : ℕ → Code S L α) (s : S) (r : α × S) : Prop := ∃ n, ∀ k, n ≤ k → eval (p k) s = some r

theorem ends_of_eval {p : Code S L α} (h : eval p s = some r) : Ends (fun _ => p) s r :=
  ⟨0, fun _ _ => h⟩

theorem ends_of_extends (hp : ∀ n, Extends (p n) (p (n + 1))) {n : ℕ} (h : eval (p n) s = some r) :
    Ends p s r :=
  ⟨n, fun _ hk => extends_of_le hp hk s r h⟩

/-- Code whose fuel is the one of its parts and one more. -/
theorem Ends.of_succ (h : Ends (fun k => p (k + 1)) s r) : Ends p s r := by
  obtain ⟨n, hn⟩ := h
  refine ⟨n + 1, fun k hk => ?_⟩
  obtain ⟨k, rfl⟩ : ∃ l, k = l + 1 := ⟨k - 1, by omega⟩
  exact hn k (by omega)

theorem Ends.bind {f : ℕ → α → Code S L β} {r : β × S} (hp : Ends p s (a, t))
    (hf : Ends (fun k => f k a) t r) : Ends (fun k => p k >>= f k) s r := by
  obtain ⟨n, hn⟩ := hp
  obtain ⟨n', hn'⟩ := hf
  refine ⟨max n n', fun k hk => ?_⟩
  rw [eval_bind, hn k (Nat.le_trans (Nat.le_max_left n n') hk), Option.bind_some]
  exact hn' k (Nat.le_trans (Nat.le_max_right n n') hk)

theorem Ends.unique (h : Ends p s r) (h' : Ends p s r') : r = r' := by
  obtain ⟨n, hn⟩ := h
  obtain ⟨n', hn'⟩ := h'
  have hmax := hn (max n n') (Nat.le_max_left n n')
  rw [hn' (max n n') (Nat.le_max_right n n')] at hmax
  exact (Option.some.inj hmax).symm

/-- A loop whose passes complete completes, keeps what every pass keeps, and has done for each
element what its pass does and later ones do not undo. -/
theorem ends_forEach {P : S → Prop} {Q : γ → S → Prop} {p : ℕ → γ → Code S L Unit} :
    ∀ {xs : List γ} {s : S},
      (∀ x ∈ xs, ∀ s, P s → ∃ s', Ends (fun k => p k x) s ((), s') ∧
        P s' ∧ Q x s' ∧ ∀ y, Q y s → Q y s') → P s →
          ∃ s', Ends (fun k => Prog.forEach (p k) xs) s ((), s') ∧
            P s' ∧ (∀ x ∈ xs, Q x s') ∧ ∀ y, Q y s → Q y s'
  | [], s, _, hs => ⟨s, ends_of_eval rfl, hs, fun _ hx => absurd hx List.not_mem_nil, fun _ h => h⟩
  | x :: xs, s, h, hs => by
      obtain ⟨t, hends, ht, hQx, hkeep⟩ := h x List.mem_cons_self s hs
      obtain ⟨s', hends', hs', hQ, hkeep'⟩ :=
        ends_forEach (fun y hy => h y (List.mem_cons_of_mem x hy)) ht
      refine ⟨s', hends.bind hends', hs', fun y hy => ?_, fun y hy => hkeep' y (hkeep y hy)⟩
      rcases List.mem_cons.1 hy with rfl | hy
      · exact hkeep' y hQx
      · exact hQ y hy

end Ends

section Returns

variable {P : α → Prop} {Q : β → Prop}

/-- Whatever the data, the code returns only values with a property. -/
def Returns (P : α → Prop) (p : Code S L α) : Prop := ∀ s r, eval p s = some r → P r.1

theorem returns_pure {a : α} (h : P a) : Returns P (pure a : Code S L α) := by
  intro s r hr
  cases hr
  exact h

theorem returns_bind {p : Code S L β} {f : β → Code S L α} (h : ∀ b, Returns P (f b)) :
    Returns P (p >>= f) := by
  intro s r hr
  obtain ⟨b, t, -, hr⟩ := eval_bind_some hr
  exact h b t r hr

/-- The property of what the first code returns helps with the second. -/
theorem Returns.bind {p : Code S L β} {f : β → Code S L α} (hp : Returns Q p)
    (h : ∀ b, Q b → Returns P (f b)) : Returns P (p >>= f) := by
  intro s r hr
  obtain ⟨b, t, hb, hr⟩ := eval_bind_some hr
  exact h b (hp s _ hb) t r hr

theorem returns_ite {c : Prop} [Decidable c] {p q : Code S L α} (hp : Returns P p)
    (hq : Returns P q) : Returns P (if c then p else q) := by
  split_ifs
  · exact hp
  · exact hq

theorem returns_attempt {f : S → Option (α × S)} (h : ∀ s r, f s = some r → P r.1) :
    Returns P (attempt f : Code S L α) := by
  intro s r hr
  rw [eval_attempt] at hr
  exact h s r hr

end Returns

section Balance

variable [DecidableEq L]

/-- The locks that a thread owns after the events, if it takes a lock only when it
owns none and releases only what it owns. -/
def follow : List L → List (LockEvent L) → Option (List L)
  | held, [] => some held
  | held, .acquire l :: events => if held = [] then follow [l] events else none
  | held, .release l :: events => if l ∈ held then follow (held.erase l) events else none

/-- The thread takes a lock only when it owns none, and owns none at the end. -/
def LockBalanced (events : List (LockEvent L)) : Prop := follow [] events = some []

instance (events : List (LockEvent L)) : Decidable (LockBalanced events) :=
  inferInstanceAs (Decidable (follow [] events = some []))

theorem follow_append (held : List L) (events events' : List (LockEvent L)) :
    follow held (events ++ events') =
      (follow held events).bind fun held' => follow held' events' := by
  induction events generalizing held with
  | nil => rfl
  | cons e events ih =>
      cases e with
      | acquire l =>
          rw [List.cons_append, follow, follow]
          split_ifs
          · exact ih [l]
          · rfl
      | release l =>
          rw [List.cons_append, follow, follow]
          split_ifs
          · exact ih (held.erase l)
          · rfl

omit [DecidableEq L] in
theorem trace_bind {p : Code S L α} {f : α → Code S L β} {s t : S} {a : α}
    (h : eval p s = some (a, t)) : trace (p >>= f) s = trace p s ++ trace (f a) t := by
  induction p generalizing s with
  | ret a' =>
      cases h
      rfl
  | fail => cases h
  | acquire l k ih => exact congrArg (LockEvent.acquire l :: ·) (ih h)
  | release l k ih => exact congrArg (LockEvent.release l :: ·) (ih h)
  | act g k ih => exact ih s h

theorem follow_trace_of_ordered {p : Code S L α} {held post : List L} {s : S} {r : α × S}
    (h : Prog.Ordered (fun _ => 0) (fun _ _ => True) post held p) (hr : eval p s = some r) :
    follow held (trace p s) = some post := by
  induction p generalizing held s with
  | ret a =>
      have hheld : held = post := h
      rw [trace, follow, hheld]
  | fail => cases hr
  | acquire l k ih =>
      have hheld : held = [] :=
        List.eq_nil_iff_forall_not_mem.2 fun l' hl' => absurd (h.1 l' hl') (Nat.lt_irrefl 0)
      subst hheld
      rw [trace, follow, if_pos rfl]
      exact ih h.2 hr
  | release l k ih =>
      rw [trace, follow, if_pos h.1]
      exact ih h.2 hr
  | act f k ih => exact ih s (h s trivial) hr

/-- The locks after two pieces of code, the first of which is ordered. -/
theorem follow_trace_bind {p : Code S L α} {f : α → Code S L β} {s t : S} {a : α}
    {held held' : List L} (hp : Prog.Ordered (fun _ => 0) (fun _ _ => True) held' held p)
    (h : eval p s = some (a, t)) :
    follow held (trace (p >>= f) s) = follow held' (trace (f a) t) := by
  rw [trace_bind h, follow_append, follow_trace_of_ordered hp h, Option.bind_some]

/-- Ordered code that ends without a lock is balanced, from whatever data it starts. -/
theorem balanced_of_ordered {p : Code S L α} {s : S} {r : α × S}
    (h : Prog.Ordered (fun _ => 0) (fun _ _ => True) [] [] p) (hr : eval p s = some r) :
    LockBalanced (trace p s) :=
  follow_trace_of_ordered h hr

end Balance

section Ordered

variable [DecidableEq L] {rank : L → ℕ} {ok : (S → S) → S → Prop} {held : List L}

theorem ordered_read (f : S → α) : Prog.Ordered rank ok held held (read f : Code S L α) :=
  fun _ _ => rfl

theorem ordered_modify (f : S → S) :
    Prog.Ordered rank ok held held (modify f : Code S L Unit) :=
  fun _ _ => rfl

theorem ordered_orFail (o : Option α) :
    Prog.Ordered rank ok held held (orFail o : Code S L α) := by
  cases o with
  | none => trivial
  | some a => rfl

theorem ordered_attempt (f : S → Option (α × S)) :
    Prog.Ordered rank ok held held (attempt f : Code S L α) :=
  fun _ _ => ordered_orFail _

theorem ordered_ite {c : Prop} [Decidable c] {post : List L} {p q : Code S L α}
    (hp : c → Prog.Ordered rank ok post held p) (hq : ¬ c → Prog.Ordered rank ok post held q) :
    Prog.Ordered rank ok post held (if c then p else q) := by
  split_ifs with h
  · exact hp h
  · exact hq h

end Ordered

end Code

end Locks
