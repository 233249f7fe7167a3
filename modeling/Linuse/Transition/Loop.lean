import Mathlib.Data.Nat.Notation
import Mathlib.Logic.Relation

/-!
# Loops

A loop is a function that gives the state of the next iteration, or nothing when the
loop ends in this one. It ends when a measure decreases; it does not end from a set of
states that it never leaves.
-/

namespace Loop

variable {σ : Type*} (step : σ → Option σ)

/-- The loop ends within this number of iterations. -/
def EndsIn : ℕ → σ → Prop
  | 0, _ => False
  | n + 1, x => ∀ y, step x = some y → EndsIn n y

/-- Some iteration of the loop from the first state is at the second. -/
def Reaches : σ → σ → Prop := Relation.ReflTransGen fun x y => step x = some y

variable {step} {x y : σ}

theorem Reaches.head {z : σ} (h : step x = some y) (hyz : Reaches step y z) :
    Reaches step x z :=
  Relation.ReflTransGen.head h hyz

/-- What every iteration keeps holds at every state that the loop reaches. -/
theorem Reaches.invariant {P : σ → Prop} (hstep : ∀ x y, P x → step x = some y → P y)
    (h : Reaches step x y) (hx : P x) : P y := by
  induction h with
  | refl => exact hx
  | tail _ hlast ih => exact hstep _ _ ih hlast

/-- A measure that decreases while an invariant holds ends the loop. -/
theorem exists_endsIn {P : σ → Prop} (μ : σ → ℕ)
    (hstep : ∀ x y, P x → step x = some y → P y ∧ μ y < μ x) (hx : P x) :
    ∃ n, EndsIn step n x := by
  have hends : ∀ n x, μ x < n → P x → EndsIn step n x := by
    intro n
    induction n with
    | zero =>
        intro x hlt _
        exact absurd hlt (Nat.not_lt_zero _)
    | succ n ih =>
        intro x hlt hx y hy
        obtain ⟨hP, hμ⟩ := hstep x y hx hy
        exact ih y (by omega) hP
  exact ⟨μ x + 1, hends _ x (Nat.lt_succ_self _) hx⟩

/-- A loop that never leaves a set of states does not end. -/
theorem not_endsIn {P : σ → Prop} (hstep : ∀ x, P x → ∃ y, step x = some y ∧ P y) :
    ∀ (n : ℕ) {x : σ}, P x → ¬ EndsIn step n x
  | 0, _, _, h => h
  | n + 1, x, hx, h => by
      obtain ⟨y, hy, hP⟩ := hstep x hx
      exact not_endsIn hstep n hP (h y hy)

/-- A state that the loop reaches is not further from its end. -/
theorem EndsIn.exists_of_reaches (hxy : Reaches step x y) (h : ∃ n, EndsIn step n x) :
    ∃ n, EndsIn step n y := by
  induction hxy with
  | refl => exact h
  | tail _ hlast ih =>
      obtain ⟨n, hn⟩ := ih
      cases n with
      | zero => exact hn.elim
      | succ n => exact ⟨n, hn _ hlast⟩

end Loop
