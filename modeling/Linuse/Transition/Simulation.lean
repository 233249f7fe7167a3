import Linuse.Transition.Run

/-!
# Simulation

A system simulates another one through an abstraction of its states when each of its transitions is
one of the other system. Where this needs an invariant, and transitions that meet a condition, the
runs whose transitions meet it are runs of the other system (`Run.simulate`).

In a refinement the states are related rather than mapped, and a transition may show no label of
the other system, which then stays where it is (`Run.refine`).
-/

namespace Transition

variable {S A L : Type*}

/-- A transition, seen through an abstraction of the states. -/
def Step.map (abs : S → A) (x : Step S L) : Step A L := ⟨abs x.pre, x.label, abs x.post⟩

namespace Run

variable {step : S → L → S → Prop} {astep : A → L → A → Prop} {s₀ s : S} {tr : List (Step S L)}

/-- Runs with an invariant, whose transitions meet a condition, are runs of the other system. -/
theorem simulate (abs : S → A) (I : S → Prop) (cond : Step S L → Prop) (hinit : I s₀)
    (hstep : ∀ s e s', I s → cond ⟨s, e, s'⟩ → step s e s' → I s' ∧ astep (abs s) e (abs s'))
    (h : Run step s₀ tr s) (hc : ∀ x ∈ tr, cond x) :
    I s ∧ Run astep (abs s₀) (tr.map (Step.map abs)) (abs s) := by
  induction h with
  | nil => exact ⟨hinit, .nil⟩
  | @snoc tr s s' e _ hs ih =>
      obtain ⟨hI, hrun⟩ := ih fun x hx => hc x (List.mem_append_left _ hx)
      obtain ⟨hI', hastep⟩ := hstep s e s' hI (hc _ (by simp)) hs
      rw [List.map_append]
      exact ⟨hI', hrun.snoc hastep⟩

/-- Runs whose transitions meet a condition show runs of the other system, when each transition is
silent or one of that system, and the states stay related. -/
theorem refine {M : Type*} {bstep : A → M → A → Prop} {a₀ : A} (R : S → A → Prop)
    (shown : Step S L → Option M) (cond : Step S L → Prop) (hinit : R s₀ a₀)
    (hstep : ∀ s e s' a, R s a → cond ⟨s, e, s'⟩ → step s e s' →
      (shown ⟨s, e, s'⟩ = none ∧ R s' a) ∨
        ∃ e' a', shown ⟨s, e, s'⟩ = some e' ∧ bstep a e' a' ∧ R s' a')
    (h : Run step s₀ tr s) (hc : ∀ x ∈ tr, cond x) :
    ∃ atr a, Run bstep a₀ atr a ∧ atr.map Step.label = tr.filterMap shown ∧ R s a := by
  induction h with
  | nil => exact ⟨[], a₀, .nil, rfl, hinit⟩
  | @snoc tr s s' e _ hs ih =>
      obtain ⟨atr, a, hrun, hlabels, hR⟩ := ih fun x hx => hc x (List.mem_append_left _ hx)
      rw [filterMap_snoc]
      rcases hstep s e s' a hR (hc _ (by simp)) hs with ⟨hshown, hR'⟩ | ⟨e', a', hshown, hb, hR'⟩
      · refine ⟨atr, a, hrun, ?_, hR'⟩
        rw [hshown, hlabels, Option.toList_none, List.append_nil]
      · refine ⟨_, a', hrun.snoc hb, ?_, hR'⟩
        rw [hshown, List.map_append, hlabels]
        rfl

end Run

end Transition
