import Mathlib.Logic.Function.Basic
import Mathlib.Data.List.Basic

/-!
# Programs that take and release locks

`Prog S L A α` is the code of a thread: it takes and releases locks of `L`, and
between those steps it performs actions of `A` on data of `S` that all threads
share. A `Config` is the data, what each thread has left to do, and who owns each
lock; `Config.next` is one step of one thread, or the start of a new piece of code
by an idle thread.

The discipline against deadlock is a rank on the locks. `Ordered rank ok held p`
says that a thread that owns `held` and goes on with `p` takes each lock above
all it owns, releases only what it owns, and ends with nothing; actions are
supposed to happen only in data where `ok` holds of them. When every piece of
code is ordered, every configuration that a run reaches is `Disciplined`
(`Disciplined.next`), and a disciplined configuration has no circular wait
(`Disciplined.not_circularWait`).
-/

namespace Locks

open Function (update update_self update_of_ne)

/-- The code of a thread. After an action it goes on as the data before the action
tell it. -/
inductive Prog (S L A α : Type) where
  | ret (a : α)
  | fail
  | acquire (l : L) (k : Prog S L A α)
  | release (l : L) (k : Prog S L A α)
  | act (a : A) (k : S → Prog S L A α)

namespace Prog

variable {S L A α β : Type}

def bind : Prog S L A α → (α → Prog S L A β) → Prog S L A β
  | ret a, f => f a
  | fail, _ => fail
  | acquire l k, f => acquire l (bind k f)
  | release l k, f => release l (bind k f)
  | act a k, f => act a fun s => bind (k s) f

instance : Monad (Prog S L A) where
  pure := ret
  bind := bind

/-- Take a lock. -/
def lock (l : L) : Prog S L A Unit := acquire l (ret ())

/-- Release a lock. -/
def unlock (l : L) : Prog S L A Unit := release l (ret ())

/-- Perform an action, and return the data before it. -/
def perform (a : A) : Prog S L A S := act a ret

/-- Perform an action inside a lock. -/
def guarded (l : L) (a : A) : Prog S L A S := do
  lock l
  let s ← perform a
  unlock l
  pure s

/-- The same code for each member of a list, in order. -/
def forEach {γ : Type} (p : γ → Prog S L A Unit) : List γ → Prog S L A Unit
  | [] => ret ()
  | x :: xs => bind (p x) fun _ => forEach p xs

/-- The rest of a piece of code, for a thread that owns the locks of `held` and
has to end with those of `post`. -/
def Ordered [DecidableEq L] (rank : L → ℕ) (ok : A → S → Prop) (post : List L) :
    List L → Prog S L A α → Prop
  | held, ret _ => held = post
  | _, fail => True
  | held, acquire l k => (∀ l' ∈ held, rank l' < rank l) ∧ Ordered rank ok post (l :: held) k
  | held, release l k => l ∈ held ∧ Ordered rank ok post (held.erase l) k
  | held, act a k => ∀ s, ok a s → Ordered rank ok post held (k s)

section Ordered

variable [DecidableEq L] {rank : L → ℕ} {ok : A → S → Prop} {pre m post : List L}

theorem ordered_bind {p : Prog S L A α} {f : α → Prog S L A β}
    (hp : Ordered rank ok m pre p) (hf : ∀ a, Ordered rank ok post m (f a)) :
    Ordered rank ok post pre (p >>= f) := by
  induction p generalizing pre with
  | ret a =>
      have hpre : pre = m := hp
      subst hpre
      exact hf a
  | fail => trivial
  | acquire l k ih => exact ⟨hp.1, ih hp.2⟩
  | release l k ih => exact ⟨hp.1, ih hp.2⟩
  | act a k ih => exact fun s hs => ih s (hp s hs)

theorem ordered_pure {a : α} : Ordered rank ok pre pre (pure a : Prog S L A α) := rfl

theorem ordered_lock {l : L} (h : ∀ l' ∈ pre, rank l' < rank l) :
    Ordered rank ok (l :: pre) pre (lock l : Prog S L A Unit) :=
  ⟨h, rfl⟩

theorem ordered_unlock {l : L} (h : l ∈ pre) :
    Ordered rank ok (pre.erase l) pre (unlock l : Prog S L A Unit) :=
  ⟨h, rfl⟩

theorem ordered_perform {a : A} : Ordered rank ok pre pre (perform a : Prog S L A S) :=
  fun _ _ => rfl

theorem ordered_guarded {l : L} {a : A} (h : ∀ l' ∈ pre, rank l' < rank l) :
    Ordered rank ok pre pre (guarded l a : Prog S L A S) := by
  have herase : (l :: pre).erase l = pre := by simp
  exact ⟨h, fun _ _ => ⟨List.mem_cons_self, herase⟩⟩

theorem ordered_forEach {γ : Type} {p : γ → Prog S L A Unit} (xs : List γ)
    (h : ∀ x, Ordered rank ok pre pre (p x)) : Ordered rank ok pre pre (forEach p xs) := by
  induction xs with
  | nil => rfl
  | cons x xs ih => exact ordered_bind (h x) fun _ => ih

end Ordered

end Prog

/-- The data, what each thread has left to do, and who owns each lock. -/
structure Config (S L A T : Type) where
  data : S
  prog : T → Prog S L A Unit
  owner : L → Option T

/-- The start of the code `b` by a thread, or a step of the code of a thread. -/
inductive Label (T B : Type) where
  | start (t : T) (b : B)
  | step (t : T)

namespace Config

variable {S L A T B ε : Type} [DecidableEq L] [DecidableEq T]

/-- One step. A thread waits at a lock that has an owner and at an action that
fails. -/
def next (exec : A → S → Except ε S) (body : T → B → Option (Prog S L A Unit))
    (c : Config S L A T) : Label T B → Except Unit (Config S L A T)
  | .start t b =>
      match c.prog t, body t b with
      | .ret _, some p => .ok { c with prog := update c.prog t p }
      | _, _ => .error ()
  | .step t =>
      match c.prog t with
      | .acquire l k =>
          match c.owner l with
          | none => .ok { c with
              prog := update c.prog t k, owner := update c.owner l (some t) }
          | some _ => .error ()
      | .release l k => .ok { c with
          prog := update c.prog t k, owner := update c.owner l none }
      | .act a k =>
          match exec a c.data with
          | .ok s => .ok { c with data := s, prog := update c.prog t (k c.data) }
          | .error _ => .error ()
      | .ret _ => .error ()
      | .fail => .error ()

/-- The thread is about to take the lock. -/
def Waits (c : Config S L A T) (t : T) (l : L) : Prop :=
  ∃ k, c.prog t = .acquire l k

/-- The lock that the thread is about to take. -/
def waitsFor (c : Config S L A T) (t : T) : Option L :=
  match c.prog t with
  | .acquire l _ => some l
  | _ => none

omit [DecidableEq L] [DecidableEq T] in
theorem waits_of_waitsFor {c : Config S L A T} {t : T} {l : L} (h : c.waitsFor t = some l) :
    c.Waits t l := by
  cases hp : c.prog t with
  | acquire l' k =>
      have hl : l' = l := by simpa [waitsFor, hp] using h
      exact ⟨k, hl ▸ hp⟩
  | _ => simp [waitsFor, hp] at h

/-- Every thread of `D` waits for a lock that another thread of `D` owns. -/
def CircularWait (c : Config S L A T) (D : Set T) : Prop :=
  D.Nonempty ∧ ∀ t ∈ D, ∃ l, Waits c t l ∧ ∃ t' ∈ D, t' ≠ t ∧ c.owner l = some t'

/-- The action that a step performs. -/
def action (c : Config S L A T) (t : T) : Option A :=
  match c.prog t with
  | .act a _ => some a
  | _ => none

/-- Threads own what they have taken, and go on in order. -/
def Disciplined (rank : L → ℕ) (ok : A → S → Prop) (c : Config S L A T) : Prop :=
  ∃ held : T → List L, (∀ t, (held t).Nodup) ∧ (∀ t l, c.owner l = some t ↔ l ∈ held t) ∧
    ∀ t, (c.prog t).Ordered rank ok [] (held t)

/-- A step whose action is one that `ok` allows. -/
def Allowed (ok : A → S → Prop) (c : Config S L A T) : Label T B → Prop
  | .start _ _ => True
  | .step t => ∀ a ∈ c.action t, ok a c.data

omit [DecidableEq L] [DecidableEq T] in
instance (ok : A → S → Prop) [∀ a s, Decidable (ok a s)] (c : Config S L A T)
    (e : Label T B) : Decidable (Allowed ok c e) :=
  match e with
  | .start _ _ => isTrue trivial
  | .step t => inferInstanceAs (Decidable (∀ a ∈ c.action t, ok a c.data))

namespace Disciplined

variable {rank : L → ℕ} {ok : A → S → Prop} {c c' : Config S L A T}
  {exec : A → S → Except ε S} {body : T → B → Option (Prog S L A Unit)}

theorem next {e : Label T B} (h : c.Disciplined rank ok)
    (hbody : ∀ t b p, body t b = some p → p.Ordered rank ok [] [])
    (hs : c.next exec body e = .ok c') (hok : c.Allowed ok e) : c'.Disciplined rank ok := by
  obtain ⟨held, hnodup, howner, hord⟩ := h
  cases e with
  | start t b =>
      cases hp : c.prog t with
      | ret a =>
          cases hb : body t b with
          | none => simp [Config.next, hp, hb] at hs
          | some p =>
              simp only [Config.next, hp, hb, Except.ok.injEq] at hs
              subst hs
              refine ⟨held, hnodup, howner, fun t' => ?_⟩
              by_cases ht : t' = t
              · subst ht
                have hheld : held t' = [] := by
                  have hret := hord t'
                  rw [hp] at hret
                  exact hret
                simpa [hheld] using hbody t' b p hb
              · simpa [ht] using hord t'
      | _ => simp [Config.next, hp] at hs
  | step t =>
      have ht := hord t
      cases hp : c.prog t with
      | ret a => simp [Config.next, hp] at hs
      | fail => simp [Config.next, hp] at hs
      | acquire l k =>
          cases ho : c.owner l with
          | some t' => simp [Config.next, hp, ho] at hs
          | none =>
              simp only [Config.next, hp, ho, Except.ok.injEq] at hs
              subst hs
              rw [hp] at ht
              have hfree : ∀ t', l ∉ held t' := by
                intro t' hmem
                rw [← howner, ho] at hmem
                cases hmem
              refine ⟨update held t (l :: held t), fun t' => ?_, fun t' l' => ?_, fun t' => ?_⟩
              · by_cases heq : t' = t
                · subst heq
                  simpa using ⟨hfree t', hnodup t'⟩
                · simpa [heq] using hnodup t'
              · by_cases hl : l' = l
                · subst hl
                  by_cases heq : t' = t
                  · simp [heq]
                  · simp [heq, Ne.symm heq, hfree t']
                · by_cases heq : t' = t
                  · subst heq
                    simp [hl, howner]
                  · simp [hl, heq, howner]
              · by_cases heq : t' = t
                · subst heq
                  simpa using ht.2
                · simpa [heq] using hord t'
      | release l k =>
          simp only [Config.next, hp, Except.ok.injEq] at hs
          subst hs
          rw [hp] at ht
          have hmine : c.owner l = some t := (howner t l).2 ht.1
          refine ⟨update held t ((held t).erase l), fun t' => ?_, fun t' l' => ?_, fun t' => ?_⟩
          · by_cases heq : t' = t
            · subst heq
              simpa using (hnodup t').erase l
            · simpa [heq] using hnodup t'
          · by_cases hl : l' = l
            · subst hl
              by_cases heq : t' = t
              · subst heq
                simp [(hnodup t').mem_erase_iff]
              · have hnot : l' ∉ held t' := by
                  rw [← howner, hmine]
                  simpa using Ne.symm heq
                simp [heq, hnot]
            · by_cases heq : t' = t
              · subst heq
                simp [hl, howner, (hnodup t').mem_erase_iff]
              · simp [hl, heq, howner]
          · by_cases heq : t' = t
            · subst heq
              simpa using ht.2
            · simpa [heq] using hord t'
      | act a k =>
          cases hx : exec a c.data with
          | error f => simp [Config.next, hp, hx] at hs
          | ok s =>
              simp only [Config.next, hp, hx, Except.ok.injEq] at hs
              subst hs
              rw [hp] at ht
              refine ⟨held, hnodup, howner, fun t' => ?_⟩
              by_cases heq : t' = t
              · subst heq
                simpa using ht c.data (hok a (by simp [action, hp]))
              · simpa [heq] using hord t'

omit [DecidableEq T] in
/-- A thread that waits owns only locks below the one it waits for. -/
theorem rank_lt (h : c.Disciplined rank ok) {t : T} {l l' : L} (hw : c.Waits t l)
    (ho : c.owner l' = some t) : rank l' < rank l := by
  obtain ⟨held, -, howner, hord⟩ := h
  obtain ⟨k, hk⟩ := hw
  have ht := hord t
  rw [hk] at ht
  exact ht.1 l' ((howner t l').1 ho)

omit [DecidableEq T] in
/-- In a circular wait the ranks of the awaited locks would grow for ever. -/
theorem not_circularWait {n : ℕ} (h : c.Disciplined rank ok) (hn : ∀ l, rank l < n)
    (D : Set T) : ¬ c.CircularWait D := by
  rintro ⟨⟨t₀, ht₀⟩, hD⟩
  have hgrow : ∀ m, ∃ t ∈ D, ∃ l, c.Waits t l ∧ m ≤ rank l := by
    intro m
    induction m with
    | zero =>
        obtain ⟨l, hw, -⟩ := hD t₀ ht₀
        exact ⟨t₀, ht₀, l, hw, Nat.zero_le _⟩
    | succ m ih =>
        obtain ⟨t, ht, l, hw, hm⟩ := ih
        obtain ⟨l₁, hw₁, t', ht', -, ho⟩ := hD t ht
        obtain ⟨l₂, hw₂, -⟩ := hD t' ht'
        have hl : l₁ = l := by
          obtain ⟨k, hk⟩ := hw
          obtain ⟨k₁, hk₁⟩ := hw₁
          rw [hk] at hk₁
          cases hk₁
          rfl
        subst hl
        exact ⟨t', ht', l₂, hw₂, Nat.lt_of_le_of_lt hm (h.rank_lt hw₂ ho)⟩
  obtain ⟨t, -, l, -, hl⟩ := hgrow n
  exact absurd (hn l) (Nat.not_lt.2 hl)

end Disciplined

end Config

end Locks
