import Mathlib.Logic.Basic
import Mathlib.Tactic.Attr.Core

/-!
# Steps that may fail

Inversion of a fallible computation written in the `Except` monad: a sequence
returns `ok b` exactly when its first part returns `ok` of some value and the
rest returns `ok b` from it. These lemmas take a fallible step apart without
unfolding the monad. `foldlM_rel` is the rule for a loop: what relates the states
before and after one pass of its body, and composes, relates those before and
after the loop.
-/

namespace Fallible

universe u

variable {ε : Type*} {α β : Type u}

theorem bind_eq_ok {x : Except ε α} {f : α → Except ε β} {b : β} :
    (x >>= f) = .ok b ↔ ∃ a, x = .ok a ∧ f a = .ok b := by
  cases x with
  | error e => simp [bind, Except.bind]
  | ok a => simp [bind, Except.bind]

theorem pure_eq_ok {a b : α} : (pure a : Except ε α) = .ok b ↔ a = b := by
  simp [pure, Except.pure]

/-- The value of an option, or the fault `e` when there is none. -/
def orFail (e : ε) : Option α → Except ε α
  | none => .error e
  | some a => .ok a

theorem orFail_eq_ok {e : ε} {o : Option α} {a : α} :
    orFail e o = .ok a ↔ o = some a := by
  cases o with
  | none => simp [orFail]
  | some b => simp [orFail]

/-- A reflexive and transitive relation that each pass of a loop establishes
holds between the start and the end of the loop. -/
theorem foldlM_rel {γ : Type u} {f : α → γ → Except ε α} (R : α → α → Prop)
    (hrefl : ∀ a, R a a) (htrans : ∀ a b c, R a b → R b c → R a c)
    (hf : ∀ a x a', f a x = .ok a' → R a a') (l : List γ) {a a' : α}
    (h : l.foldlM f a = .ok a') : R a a' := by
  induction l generalizing a with
  | nil =>
      rw [List.foldlM_nil, pure_eq_ok] at h
      subst h
      exact hrefl a
  | cons x l ih =>
      rw [List.foldlM_cons, bind_eq_ok] at h
      obtain ⟨b, hb, h⟩ := h
      exact htrans a b a' (hf a x b hb) (ih h)

/-! ## Faults that do not occur -/

theorem bind_ne_error {e : ε} {x : Except ε α} {f : α → Except ε β} (hx : x ≠ .error e)
    (hf : ∀ a, f a ≠ .error e) : (x >>= f) ≠ .error e := by
  cases x with
  | error e' => simpa [bind, Except.bind] using hx
  | ok a => exact hf a

theorem orFail_ne_error {e e' : ε} (he : e' ≠ e) (o : Option α) : orFail e' o ≠ .error e := by
  cases o with
  | none => simpa [orFail] using he
  | some a => simp [orFail]

theorem foldlM_ne_error {γ : Type u} {e : ε} {f : α → γ → Except ε α}
    (hf : ∀ a x, f a x ≠ .error e) (l : List γ) (a : α) : l.foldlM f a ≠ .error e := by
  induction l generalizing a with
  | nil => simp [pure, Except.pure]
  | cons x l ih =>
      rw [List.foldlM_cons]
      exact bind_ne_error (hf a x) ih

end Fallible
