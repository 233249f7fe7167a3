import Mathlib.Logic.Basic
import Mathlib.Data.List.Basic

/-!
# Computations that leave marks

A computation over a state that may fail and leaves marks on its way, each with the
state in which it is made. A mark names a branch that was taken, so that a condition
on marks says which branches a computation does not take. `Triple ok P c Q` is the
partial correctness of the computation `c` when all its marks are `ok`; its rules
follow the ways in which computations are put together.
-/

/-- A computation: the value, the state after it and the marks, unless it fails. -/
def Marked (S E α : Type) : Type := S → Option (α × S × List (S × E))

namespace Marked

variable {S E α β γ : Type}

instance : Monad (Marked S E) where
  pure a := fun s => some (a, s, [])
  bind c f := fun s => (c s).bind fun r => (f r.1 r.2.1).map fun r' =>
    (r'.1, r'.2.1, r.2.2 ++ r'.2.2)

/-- Something of the state. -/
def gets (f : S → α) : Marked S E α := fun s => some (f s, s, [])

/-- Changes the state. -/
def modify (f : S → S) : Marked S E Unit := fun s => some ((), f s, [])

/-- Leaves a mark. -/
def mark (e : E) : Marked S E Unit := fun s => some ((), s, [(s, e)])

/-- Fails. -/
def fail : Marked S E α := fun _ => none

/-- Goes on with a value that may be missing. -/
def orFail : Option α → Marked S E α
  | some a => pure a
  | none => fail

/-- The last value of a loop over the list, whose body takes the value so far. -/
def fold (f : β → γ → Marked S E β) : β → List γ → Marked S E β
  | b, [] => pure b
  | b, x :: xs => f b x >>= fun b => fold f b xs

/-- The computation with its state and marks after it. -/
def Runs (c : Marked S E α) (s : S) (a : α) (s' : S) (marks : List (S × E)) : Prop :=
  c s = some (a, s', marks)

theorem runs_bind {c : Marked S E α} {f : α → Marked S E β} {s s' : S} {b : β}
    {marks : List (S × E)} :
    Runs (c >>= f) s b s' marks ↔ ∃ a t marks₁ marks₂, Runs c s a t marks₁ ∧
      Runs (f a) t b s' marks₂ ∧ marks = marks₁ ++ marks₂ := by
  have hbind : (c >>= f) s = (c s).bind fun r => (f r.1 r.2.1).map fun r' =>
    (r'.1, r'.2.1, r.2.2 ++ r'.2.2) := rfl
  rw [Runs, hbind, Option.bind_eq_some_iff]
  constructor
  · rintro ⟨⟨a, t, marks₁⟩, hc, hf⟩
    rw [Option.map_eq_some_iff] at hf
    obtain ⟨⟨b', s'', marks₂⟩, hf, heq⟩ := hf
    cases heq
    exact ⟨a, t, marks₁, marks₂, hc, hf, rfl⟩
  · rintro ⟨a, t, marks₁, marks₂, hc, hf, rfl⟩
    rw [Runs] at hf
    exact ⟨(a, t, marks₁), hc, by rw [hf, Option.map_some]⟩

theorem runs_pure (a : α) (s : S) : Runs (pure a : Marked S E α) s a s [] := rfl

theorem runs_gets (f : S → α) (s : S) : Runs (gets f : Marked S E α) s (f s) s [] := rfl

theorem runs_modify (f : S → S) (s : S) : Runs (modify f : Marked S E Unit) s () (f s) [] := rfl

theorem runs_mark (e : E) (s : S) : Runs (mark e : Marked S E Unit) s () s [(s, e)] := rfl

theorem runs_orFail {o : Option α} {a : α} (h : o = some a) (s : S) :
    Runs (orFail o : Marked S E α) s a s [] := by
  rw [h]
  rfl

/-- Two computations without marks, one after the other. -/
theorem Runs.bind {c : Marked S E α} {f : α → Marked S E β} {s t s' : S} {a : α} {b : β}
    (hc : Runs c s a t []) (hf : Runs (f a) t b s' []) : Runs (c >>= f) s b s' [] :=
  runs_bind.2 ⟨a, t, [], [], hc, hf, rfl⟩

/-- Two computations, one after the other. -/
theorem Runs.append {c : Marked S E α} {f : α → Marked S E β} {s t s' : S} {a : α} {b : β}
    {marks₁ marks₂ : List (S × E)} (hc : Runs c s a t marks₁) (hf : Runs (f a) t b s' marks₂) :
    Runs (c >>= f) s b s' (marks₁ ++ marks₂) :=
  runs_bind.2 ⟨a, t, marks₁, marks₂, hc, hf, rfl⟩

/-- A computation without marks can be taken out of what comes after it. -/
theorem Runs.bind_iff {c : Marked S E α} {f : α → Marked S E β} {s t s' : S} {a : α} {b : β}
    {marks : List (S × E)} (hc : Runs c s a t []) :
    Runs (c >>= f) s b s' marks ↔ Runs (f a) t b s' marks := by
  rw [runs_bind]
  constructor
  · rintro ⟨a', t', marks₁, marks₂, hc', hf, rfl⟩
    cases hc.symm.trans hc'
    exact hf
  · intro hf
    exact ⟨a, t, [], marks, hc, hf, rfl⟩

/-- Every result of the computation from a state with `P` has `Q`, if the marks on
the way are `ok`. -/
def Triple (ok : S → E → Prop) (P : S → Prop) (c : Marked S E α) (Q : α → S → Prop) : Prop :=
  ∀ s a s' marks, P s → Runs c s a s' marks → (∀ x ∈ marks, ok x.1 x.2) → Q a s'

section Rules

variable {ok : S → E → Prop} {P P' : S → Prop} {Q Q' : α → S → Prop} {R : β → S → Prop}

theorem triple_conseq {c : Marked S E α} (h : Triple ok P c Q) (hP : ∀ s, P' s → P s)
    (hQ : ∀ a s, Q a s → Q' a s) : Triple ok P' c Q' :=
  fun s a s' marks hs hr hok => hQ a s' (h s a s' marks (hP s hs) hr hok)

theorem triple_true (c : Marked S E α) : Triple ok P c fun _ _ => True :=
  fun _ _ _ _ _ _ _ => trivial

theorem triple_pure (a : α) (h : ∀ s, P s → Q a s) : Triple ok P (pure a) Q := by
  intro s a' s' marks hs hr _
  cases hr
  exact h s hs

theorem triple_bind {c : Marked S E α} {f : α → Marked S E β} (h : Triple ok P c Q)
    (hf : ∀ a, Triple ok (Q a) (f a) R) : Triple ok P (c >>= f) R := by
  intro s b s' marks hs hr hok
  obtain ⟨a, t, marks₁, marks₂, hc, hf', rfl⟩ := runs_bind.1 hr
  have ht : Q a t := h s a t marks₁ hs hc fun x hx => hok x (List.mem_append_left _ hx)
  exact hf a t b s' marks₂ ht hf' fun x hx => hok x (List.mem_append_right _ hx)

theorem triple_gets (f : S → α) (h : ∀ s, P s → Q (f s) s) : Triple ok P (gets f) Q := by
  intro s a s' marks hs hr _
  cases hr
  exact h s hs

theorem triple_modify (f : S → S) {Q : Unit → S → Prop} (h : ∀ s, P s → Q () (f s)) :
    Triple ok P (modify f) Q := by
  intro s a s' marks hs hr _
  cases hr
  exact h s hs

/-- A mark that is left is `ok`. -/
theorem triple_mark (e : E) {Q : Unit → S → Prop} (h : ∀ s, P s → ok s e → Q () s) :
    Triple ok P (mark e) Q := by
  intro s a s' marks hs hr hok
  cases hr
  exact h s hs (hok (s, e) (List.mem_singleton_self _))

theorem triple_fail : Triple ok P fail Q := by
  intro s a s' marks _ hr _
  cases hr

theorem triple_orFail (o : Option α) (h : ∀ a s, o = some a → P s → Q a s) :
    Triple ok P (orFail o) Q := by
  cases o with
  | none => exact triple_fail
  | some a => exact triple_pure a fun s hs => h a s rfl hs

theorem triple_ite {c : Prop} [Decidable c] {p q : Marked S E α} (hp : c → Triple ok P p Q)
    (hq : ¬ c → Triple ok P q Q) : Triple ok P (if c then p else q) Q := by
  split_ifs with h
  · exact hp h
  · exact hq h

/-- A property that every pass of a loop keeps. -/
theorem triple_fold {f : β → γ → Marked S E β} {xs : List γ} {b : β}
    (hf : ∀ b x, x ∈ xs → Triple ok (R b) (f b x) R) : Triple ok (R b) (fold f b xs) R := by
  induction xs generalizing b with
  | nil => exact triple_pure b fun _ hs => hs
  | cons x xs ih =>
      have hrest : ∀ b', Triple ok (R b') (fold f b' xs) R :=
        fun b' => ih fun b y hy => hf b y (List.mem_cons_of_mem x hy)
      exact triple_bind (hf b x List.mem_cons_self) hrest

/-- Goes on with the state at hand. -/
theorem triple_read {f : S → Marked S E β} (h : ∀ t, Triple ok (fun s => P s ∧ s = t) (f t) R) :
    Triple ok P (gets id >>= f) R :=
  triple_bind (triple_gets id fun _ hs => ⟨hs, rfl⟩) fun a =>
    triple_conseq (h a) (fun _ hs => hs) fun _ _ hb => hb

/-- Goes on with a value that is not missing. -/
theorem triple_orFail_bind {o : Option α} {f : α → Marked S E β}
    (h : ∀ a, o = some a → Triple ok P (f a) R) : Triple ok P (orFail o >>= f) R := by
  intro s b s' marks hs hr hok
  obtain ⟨a, t, marks₁, marks₂, ho, hf, rfl⟩ := runs_bind.1 hr
  cases o with
  | none => cases ho
  | some c =>
      cases ho
      exact h a rfl s b s' marks₂ hs hf hok

theorem triple_elim {o : Option γ} {d : Marked S E α} {f : γ → Marked S E α}
    (hd : o = none → Triple ok P d Q) (hf : ∀ c, o = some c → Triple ok P (f c) Q) :
    Triple ok P (o.elim d f) Q := by
  cases o with
  | none => exact hd rfl
  | some c => exact hf c rfl

/-- Two properties that a computation has at once. -/
theorem triple_and {c : Marked S E α} (h : Triple ok P c Q) (h' : Triple ok P' c Q') :
    Triple ok (fun s => P s ∧ P' s) c fun a s => Q a s ∧ Q' a s :=
  fun s a s' marks hs hr hok => ⟨h s a s' marks hs.1 hr hok, h' s a s' marks hs.2 hr hok⟩

/-- A property that does not depend on the state. -/
theorem triple_assume {c : Marked S E α} {p : Prop} (h : p → Triple ok P c Q) :
    Triple ok (fun s => P s ∧ p) c Q :=
  fun s a s' marks hs hr hok => h hs.2 s a s' marks hs.1 hr hok

end Rules

/-! ## Symbolic execution

From one state on, the state after each primitive is known. -/

section Execution

variable {ok : S → E → Prop} {P : S → Prop} {Q : α → S → Prop} {R : β → S → Prop} {t : S}

theorem triple_of_forall {c : Marked S E α} (h : ∀ t, P t → Triple ok (· = t) c Q) :
    Triple ok P c Q :=
  fun s a s' marks hs hr hok => h s hs s a s' marks rfl hr hok

/-- What a triple says of a run, whatever its marks are. -/
theorem Runs.post {c : Marked S E α} {s s' : S} {a : α} {marks : List (S × E)}
    (hr : Runs c s a s' marks) (h : Triple (fun _ _ => True) (· = s) c Q) : Q a s' :=
  h s a s' marks rfl hr fun _ _ => trivial

theorem exec_pure {a : α} (h : Q a t) : Triple ok (· = t) (pure a) Q :=
  triple_pure a fun _ hs => hs ▸ h

theorem exec_gets {f : S → α} {k : α → Marked S E β} (h : Triple ok (· = t) (k (f t)) R) :
    Triple ok (· = t) (gets f >>= k) R := by
  refine triple_bind (Q := fun a s => s = t ∧ a = f t) (triple_gets f fun s hs => ?_) fun a => ?_
  · exact ⟨hs, by rw [hs]⟩
  · refine triple_assume fun ha => ?_
    rw [ha]
    exact h

theorem exec_modify {f : S → S} {k : Unit → Marked S E β} (h : Triple ok (· = f t) (k ()) R) :
    Triple ok (· = t) (modify f >>= k) R :=
  triple_bind (Q := fun _ s => s = f t) (triple_modify f fun s hs => by rw [hs]) fun _ => h

theorem exec_mark {e : E} {k : Unit → Marked S E β} (h : ok t e → Triple ok (· = t) (k ()) R) :
    Triple ok (· = t) (mark e >>= k) R := by
  refine triple_bind (Q := fun _ s => s = t ∧ ok t e) (triple_mark e fun s hs hok => ?_) fun _ => ?_
  · exact ⟨hs, hs ▸ hok⟩
  · exact triple_assume h

/-- The computation of a part of the way, for which something is known. -/
theorem exec_bind {c : Marked S E α} {k : α → Marked S E β} (h : Triple ok (· = t) c Q)
    (hk : ∀ a s, Q a s → Triple ok (· = s) (k a) R) : Triple ok (· = t) (c >>= k) R :=
  triple_bind h fun a => triple_of_forall fun s hs => hk a s hs

end Execution

/-! ## Properties that are kept -/

/-- The computation keeps a property of states, if its marks are `ok`. -/
def Keeps (ok : S → E → Prop) (I : S → Prop) (c : Marked S E α) : Prop :=
  Triple ok I c fun _ => I

section Keeps

variable {ok : S → E → Prop} {I J : S → Prop}

theorem keeps_pure (a : α) : Keeps ok I (pure a) := triple_pure a fun _ hs => hs

theorem keeps_bind {c : Marked S E α} {f : α → Marked S E β} (h : Keeps ok I c)
    (hf : ∀ a, Keeps ok I (f a)) : Keeps ok I (c >>= f) := triple_bind h hf

theorem keeps_gets (f : S → α) : Keeps ok I (gets f) := triple_gets f fun _ hs => hs

theorem keeps_modify (f : S → S) (h : ∀ s, I s → I (f s)) : Keeps ok I (modify f) :=
  triple_modify f h

theorem keeps_mark (e : E) : Keeps ok I (mark e) := triple_mark e fun _ hs _ => hs

theorem keeps_orFail (o : Option α) : Keeps ok I (orFail o) :=
  triple_orFail o fun _ _ _ hs => hs

theorem keeps_ite {c : Prop} [Decidable c] {p q : Marked S E α} (hp : c → Keeps ok I p)
    (hq : ¬ c → Keeps ok I q) : Keeps ok I (if c then p else q) := triple_ite hp hq

theorem keeps_elim {o : Option γ} {d : Marked S E α} {f : γ → Marked S E α}
    (hd : o = none → Keeps ok I d) (hf : ∀ c, o = some c → Keeps ok I (f c)) :
    Keeps ok I (o.elim d f) := triple_elim hd hf

theorem keeps_fold {f : β → γ → Marked S E β} {xs : List γ} {b : β}
    (hf : ∀ b x, x ∈ xs → Keeps ok I (f b x)) : Keeps ok I (fold f b xs) :=
  triple_fold hf

theorem Keeps.and {c : Marked S E α} (h : Keeps ok I c) (h' : Keeps ok J c) :
    Keeps ok (fun s => I s ∧ J s) c := triple_and h h'

end Keeps

end Marked
