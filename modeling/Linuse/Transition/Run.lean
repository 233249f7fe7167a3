import Mathlib.Data.List.Basic

/-!
# Runs of a labelled transition system

`Run step s₀ tr s` says that the system with the transition relation `step`
goes from `s₀` to `s` and that `tr` is the list of transitions it took, each
with the state before it, its label and the state after it. A property of every
reachable state is a property of the last state of every run; a restriction on
the inputs of a run is a restriction on the members of `tr`.

The two induction rules are `Run.invariant`, for a property of states, and
`Run.invariant_trace`, for a property that relates the state to what happened
before it; `Run.eq_lastShown` is the second for a part of the state that keeps the
last value of something. A system whose transitions are computed by a function that
may fail can be executed on a list of labels (`trace`, `final`), which gives a run
when no transition fails (`Run.execute`).
-/

namespace Transition

/-- One transition of a run: the state before it, its label, the state after
it. -/
structure Step (S L : Type*) where
  pre : S
  label : L
  post : S

/-- The runs of `step` from `s₀`, with the transitions taken, in order. -/
inductive Run {S L : Type*} (step : S → L → S → Prop) (s₀ : S) :
    List (Step S L) → S → Prop
  | nil : Run step s₀ [] s₀
  | snoc {tr : List (Step S L)} {s s' : S} {e : L} :
      Run step s₀ tr s → step s e s' → Run step s₀ (tr ++ [⟨s, e, s'⟩]) s'

/-- The ways to split a list at an element are its positions. -/
theorem forall_append_cons_iff {α : Type*} {P : List α → α → Prop} {l : List α} :
    (∀ l₁ x l₂, l = l₁ ++ x :: l₂ → P l₁ x) ↔ ∀ i (h : i < l.length), P (l.take i) l[i] := by
  constructor
  · intro hP i hi
    apply hP _ _ (l.drop (i + 1))
    rw [List.getElem_cons_drop, List.take_append_drop]
  · rintro hP l₁ x l₂ rfl
    simpa using hP l₁.length (by simp)

namespace Run

variable {S L : Type*} {step : S → L → S → Prop} {s₀ s : S}
  {tr : List (Step S L)}

/-- A property of the trace and the state holds after every run when it holds
at the start and every transition keeps it. -/
theorem invariant_trace (I : List (Step S L) → S → Prop) (hinit : I [] s₀)
    (hstep : ∀ tr s e s', Run step s₀ tr s → I tr s → step s e s' →
      I (tr ++ [⟨s, e, s'⟩]) s')
    (h : Run step s₀ tr s) : I tr s := by
  induction h with
  | nil => exact hinit
  | snoc hrun hs ih => exact hstep _ _ _ _ hrun ih hs

/-- The same rule when the transitions of the run meet a condition: only those
have to keep the property. -/
theorem invariant_trace_of (I : List (Step S L) → S → Prop)
    (cond : List (Step S L) → Step S L → Prop) (hinit : I [] s₀)
    (hstep : ∀ tr s e s', Run step s₀ tr s → I tr s → cond tr ⟨s, e, s'⟩ →
      step s e s' → I (tr ++ [⟨s, e, s'⟩]) s')
    (h : Run step s₀ tr s)
    (hc : ∀ tr₁ x tr₂, tr = tr₁ ++ x :: tr₂ → cond tr₁ x) : I tr s := by
  induction h with
  | nil => exact hinit
  | @snoc tr s s' e hrun hs ih =>
      have hprev : I tr s := by
        apply ih
        intro tr₁ x tr₂ heq
        exact hc tr₁ x (tr₂ ++ [⟨s, e, s'⟩]) (by rw [heq]; simp)
      exact hstep _ _ _ _ hrun hprev (hc tr ⟨s, e, s'⟩ [] rfl) hs

/-- A property of states holds after every run whose transitions meet `cond`
when it holds at the start and every such transition keeps it. -/
theorem invariant (I : S → Prop) (cond : Step S L → Prop) (hinit : I s₀)
    (hstep : ∀ s e s', I s → cond ⟨s, e, s'⟩ → step s e s' → I s')
    (h : Run step s₀ tr s) (hc : ∀ x ∈ tr, cond x) : I s := by
  refine invariant_trace_of (fun _ s => I s) (fun _ x => cond x) hinit ?_ h ?_
  · intro tr s e s' _ hI hcond hs
    exact hstep s e s' hI hcond hs
  · intro tr₁ x tr₂ heq
    exact hc x (by rw [heq]; simp)

/-- Splitting a trace that was extended by one transition: the split is before
that transition or at it. -/
theorem append_singleton_eq {tr tr₁ tr₂ : List (Step S L)} {x y : Step S L}
    (h : tr ++ [y] = tr₁ ++ x :: tr₂) :
    (∃ tr₃, tr = tr₁ ++ x :: tr₃) ∨ (tr = tr₁ ∧ y = x) := by
  rcases List.eq_nil_or_concat tr₂ with rfl | ⟨tr₃, z, rfl⟩
  · obtain ⟨rfl, hx⟩ := List.append_inj' h rfl
    rw [List.cons.injEq] at hx
    exact Or.inr ⟨rfl, hx.1⟩
  · rw [List.concat_eq_append, ← List.cons_append, ← List.append_assoc] at h
    exact Or.inl ⟨tr₃, (List.append_inj' h rfl).1⟩

/-- A property that holds at the start and, where it holds, is kept by exactly
the transitions that meet a condition: it holds in every state of a run if and
only if every transition of the run meets the condition. -/
theorem forall_prefix_iff (P : List (Step S L) → S → Prop)
    (cond : List (Step S L) → Step S L → Prop) (hinit : P [] s₀)
    (hstep : ∀ tr s e s', Run step s₀ tr s → P tr s → step s e s' →
      (P (tr ++ [⟨s, e, s'⟩]) s' ↔ cond tr ⟨s, e, s'⟩))
    (h : Run step s₀ tr s) :
    (∀ tr₁ x tr₂, tr = tr₁ ++ x :: tr₂ → P (tr₁ ++ [x]) x.post) ↔
      ∀ tr₁ x tr₂, tr = tr₁ ++ x :: tr₂ → cond tr₁ x := by
  have hlast : ∀ {tr s}, Run step s₀ tr s →
      (∀ tr₁ x tr₂, tr = tr₁ ++ x :: tr₂ → P (tr₁ ++ [x]) x.post) → P tr s := by
    intro tr s hrun hP
    cases hrun with
    | nil => exact hinit
    | snoc hrun hs => exact hP _ _ [] rfl
  induction h with
  | nil => simp
  | @snoc tr s s' e hrun hs ih =>
      constructor
      · intro hP tr₁ x tr₂ heq
        have hprev : ∀ tr₁ x tr₂, tr = tr₁ ++ x :: tr₂ → P (tr₁ ++ [x]) x.post := by
          intro tr₁ x tr₂ heq
          exact hP tr₁ x (tr₂ ++ [⟨s, e, s'⟩]) (by rw [heq]; simp)
        rcases append_singleton_eq heq with ⟨tr₃, heq⟩ | ⟨rfl, rfl⟩
        · exact ih.1 hprev tr₁ x tr₃ heq
        · exact (hstep _ _ _ _ hrun (hlast hrun hprev) hs).1 (hP tr _ [] rfl)
      · intro hc tr₁ x tr₂ heq
        have hprev : ∀ tr₁ x tr₂, tr = tr₁ ++ x :: tr₂ → P (tr₁ ++ [x]) x.post := by
          apply ih.2
          intro tr₁ x tr₂ heq
          exact hc tr₁ x (tr₂ ++ [⟨s, e, s'⟩]) (by rw [heq]; simp)
        rcases append_singleton_eq heq with ⟨tr₃, heq⟩ | ⟨rfl, rfl⟩
        · exact hprev tr₁ x tr₃ heq
        · exact (hstep _ _ _ _ hrun (hlast hrun hprev) hs).2 (hc tr _ [] rfl)

/-- The same for a property of states and a condition on single transitions. -/
theorem forall_mem_iff (P : S → Prop) (cond : Step S L → Prop) (hinit : P s₀)
    (hstep : ∀ tr s e s', Run step s₀ tr s → P s → step s e s' → (P s' ↔ cond ⟨s, e, s'⟩))
    (h : Run step s₀ tr s) : (∀ x ∈ tr, P x.post) ↔ ∀ x ∈ tr, cond x := by
  have hmem : ∀ Q : Step S L → Prop,
      (∀ x ∈ tr, Q x) ↔ ∀ tr₁ x tr₂, tr = tr₁ ++ x :: tr₂ → Q x := by
    intro Q
    constructor
    · intro hQ tr₁ x tr₂ heq
      exact hQ x (by simp [heq])
    · intro hQ x hx
      obtain ⟨tr₁, tr₂, heq⟩ := List.append_of_mem hx
      exact hQ tr₁ x tr₂ heq
  rw [hmem, hmem]
  exact h.forall_prefix_iff (fun _ s => P s) (fun _ x => cond x) hinit hstep

/-- A run whose transitions meet a condition is a run of the system that has only
those transitions. -/
theorem restrict {cond : Step S L → Prop} (h : Run step s₀ tr s) (hc : ∀ x ∈ tr, cond x) :
    Run (fun s e s' => step s e s' ∧ cond ⟨s, e, s'⟩) s₀ tr s := by
  induction h with
  | nil => exact .nil
  | snoc _ hs ih =>
      constructor
      · exact ih fun x hx => hc x (List.mem_append_left _ hx)
      · exact ⟨hs, hc _ (by simp)⟩

/-- A run of a system is a run of any system with its transitions. -/
theorem mono {step' : S → L → S → Prop} (hstep : ∀ s e s', step s e s' → step' s e s')
    (h : Run step s₀ tr s) : Run step' s₀ tr s := by
  induction h with
  | nil => exact .nil
  | snoc _ hs ih => exact ih.snoc (hstep _ _ _ hs)

/-- Every transition of a run is a transition of the system. -/
theorem step_of_mem (h : Run step s₀ tr s) :
    ∀ x ∈ tr, step x.pre x.label x.post := by
  induction h with
  | nil => simp
  | snoc hrun hs ih =>
      intro x hx
      rcases List.mem_append.1 hx with hx | hx
      · exact ih x hx
      · rw [List.mem_singleton] at hx
        subst hx
        exact hs

/-- The state before a transition of a run is reached by the transitions before
it. -/
theorem prefix_of_append {tr₁ tr₂ : List (Step S L)} {x : Step S L}
    (h : Run step s₀ tr s) (heq : tr = tr₁ ++ x :: tr₂) :
    Run step s₀ tr₁ x.pre := by
  induction h generalizing tr₂ with
  | nil => simp at heq
  | @snoc tr s s' e hrun hs ih =>
      rcases append_singleton_eq heq with ⟨tr₃, heq⟩ | ⟨rfl, rfl⟩
      · exact ih heq
      · exact hrun

end Run

/-- What holds at every way of splitting a list holds at every position of it. -/
theorem forall_split_iff {α : Type*} {l : List α} {P : List α → α → Prop} :
    (∀ l₁ x l₂, l = l₁ ++ x :: l₂ → P l₁ x) ↔
      ∀ i, (h : i < l.length) → P (l.take i) (l.get ⟨i, h⟩) := by
  constructor
  · intro h i hi
    refine h _ _ (l.drop (i + 1)) ?_
    rw [List.get_eq_getElem, ← List.drop_eq_getElem_cons hi, List.take_append_drop]
  · rintro h l₁ x l₂ rfl
    simpa using h l₁.length (by simp)

/-! ## The last value that a trace shows -/

section LastShown

variable {S L α : Type*} {step : S → L → S → Prop} {s₀ s : S} {tr : List (Step S L)}

/-- The values that the transitions of a longer trace show. -/
theorem filterMap_snoc (f : Step S L → Option α) (tr : List (Step S L)) (x : Step S L) :
    (tr ++ [x]).filterMap f = tr.filterMap f ++ (f x).toList := by
  rw [List.filterMap_append]
  rfl

/-- The last of the values that the transitions of a trace show. -/
def lastShown (f : Step S L → Option α) (tr : List (Step S L)) : Option α :=
  (tr.filterMap f).getLast?

theorem lastShown_snoc (f : Step S L → Option α) (tr : List (Step S L)) (x : Step S L) :
    lastShown f (tr ++ [x]) = (f x).or (lastShown f tr) := by
  rw [lastShown, lastShown, filterMap_snoc, List.getLast?_append]
  cases f x with
  | none => rfl
  | some a => rfl

/-- A part of the state that each transition sets to what it shows, or else leaves,
is the last value shown. -/
theorem Run.eq_lastShown (g : S → α) (f : Step S L → Option α)
    (hstep : ∀ tr s e s', Run step s₀ tr s → step s e s' →
      g s' = (f ⟨s, e, s'⟩).getD (g s))
    (h : Run step s₀ tr s) : g s = (lastShown f tr).getD (g s₀) := by
  induction h with
  | nil => rfl
  | @snoc tr s s' e hrun hs ih =>
      rw [hstep tr s e s' hrun hs, lastShown_snoc, ih]
      cases f ⟨s, e, s'⟩ with
      | none => rfl
      | some a => rfl

end LastShown

/-! ## Executions -/

section Execution

variable {S L ε : Type*} (next : S → L → Except ε S)

/-- The state after a label, the same state if the transition fails. -/
def after (s : S) (e : L) : S :=
  match next s e with
  | .ok s' => s'
  | .error _ => s

/-- Whether a transition does not fail. -/
def accepts (s : S) (e : L) : Bool :=
  match next s e with
  | .ok _ => true
  | .error _ => false

/-- The transitions on a list of labels. -/
def trace : S → List L → List (Step S L)
  | _, [] => []
  | s, e :: es => ⟨s, e, after next s e⟩ :: trace (after next s e) es

theorem forall_label_trace_iff (P : L → Prop) (s : S) (es : List L) :
    (∀ x ∈ trace next s es, P x.label) ↔ ∀ e ∈ es, P e := by
  induction es generalizing s with
  | nil => simp [trace]
  | cons e es ih => rw [trace, List.forall_mem_cons, List.forall_mem_cons, ih]

/-- The state after a list of labels. -/
def final : S → List L → S
  | s, [] => s
  | s, e :: es => final (after next s e) es

/-- Whether no transition fails on a list of labels. -/
def acceptsAll : S → List L → Bool
  | _, [] => true
  | s, e :: es => accepts next s e && acceptsAll (after next s e) es

theorem eq_ok_after {s : S} {e : L} (h : accepts next s e = true) :
    next s e = .ok (after next s e) := by
  rw [accepts] at h
  rw [after]
  cases hn : next s e with
  | ok s' => rfl
  | error f =>
      rw [hn] at h
      cases h

theorem Run.execute_from {s₀ s : S} {tr : List (Step S L)} (es : List L)
    (hrun : Run (fun s e s' => next s e = .ok s') s₀ tr s)
    (h : acceptsAll next s es = true) :
    Run (fun s e s' => next s e = .ok s') s₀ (tr ++ trace next s es) (final next s es) := by
  induction es generalizing tr s with
  | nil =>
      rw [trace, List.append_nil]
      exact hrun
  | cons e es ih =>
      rw [acceptsAll, Bool.and_eq_true] at h
      rw [trace, List.append_cons]
      exact ih (hrun.snoc (eq_ok_after next h.1)) h.2

/-- Executing a list of labels without a failure is a run. -/
theorem Run.execute {s : S} (es : List L) (h : acceptsAll next s es = true) :
    Run (fun s e s' => next s e = .ok s') s (trace next s es) (final next s es) :=
  Run.execute_from next es .nil h

end Execution

end Transition
