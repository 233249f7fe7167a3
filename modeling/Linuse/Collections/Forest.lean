import Mathlib.Data.Set.Finite.Basic
import Mathlib.Logic.Relation

/-!
# Trees given by the fathers of their nodes

Every node has a father, and some nodes are directories. A node is rooted when going from father
to father arrives at the root through directories only: there is no cycle on the way and no father
is missing. Rooted nodes stay so when nodes are removed together with all that is below them
(`Rooted.keep`), and when a node goes to a rooted father that is not below it (`Rooted.move`).
When no node is below itself the nodes can be taken from the bottom up (`wellFounded_of_acyclic`).
-/

namespace Forest

variable {α : Type*} {root : α} {dir dir' : α → Prop} {father father' : α → α} {x a p : α}

/-- Going from father to father arrives at the root, through directories. -/
inductive Rooted (root : α) (dir : α → Prop) (father : α → α) : α → Prop
  | root : Rooted root dir father root
  | up {x : α} : dir x → Rooted root dir father (father x) → Rooted root dir father x

/-- Going from father to father through directories, `a` is met. -/
inductive Meets (dir : α → Prop) (father : α → α) (a : α) : α → Prop
  | here : Meets dir father a a
  | up {x : α} : dir x → Meets dir father a (father x) → Meets dir father a x

/-- Nodes outside a set that has all that is below its nodes, which stay as they are. -/
theorem Rooted.keep (removed : α → Prop)
    (hkeep : ∀ y, ¬ removed y → dir y → dir' y ∧ father' y = father y ∧ ¬ removed (father y))
    (h : Rooted root dir father x) (hx : ¬ removed x) : Rooted root dir' father' x := by
  induction h with
  | root => exact .root
  | @up x hdir _ ih =>
      obtain ⟨hdir', hfather, hup⟩ := hkeep x hx hdir
      refine .up hdir' ?_
      rw [hfather]
      exact ih hup

/-- Nodes whose way to the root does not meet the one that changes. -/
theorem Rooted.avoid (hdir : ∀ y, dir y → dir' y)
    (hfather : ∀ y, y ≠ a → dir y → father' y = father y) (h : Rooted root dir father x)
    (hx : ¬ Meets dir father a x) : Rooted root dir' father' x := by
  induction h with
  | root => exact .root
  | @up x hdirx _ ih =>
      have hne : x ≠ a := by
        rintro rfl
        exact hx .here
      refine .up (hdir x hdirx) ?_
      rw [hfather x hne hdirx]
      exact ih fun hup => hx (.up hdirx hup)

/-- A node goes to a rooted father that is not below it. -/
theorem Rooted.move (hdir : ∀ y, dir y → dir' y)
    (hfather : ∀ y, y ≠ a → dir y → father' y = father y) (ha : father' a = p)
    (hp : Rooted root dir father p) (hno : ¬ Meets dir father a p)
    (h : Rooted root dir father x) : Rooted root dir' father' x := by
  induction h with
  | root => exact .root
  | @up x hdirx _ ih =>
      refine .up (hdir x hdirx) ?_
      rcases eq_or_ne x a with rfl | hne
      · rw [ha]
        exact hp.avoid hdir hfather hno
      · rw [hfather x hne hdirx]
        exact ih

/-- A node that is its own father is not rooted. -/
theorem not_rooted_of_loop (ha : a ≠ root) (hloop : father a = a) : ¬ Rooted root dir father a := by
  intro h
  generalize hx : a = x at h
  induction h with
  | root => exact ha hx
  | up _ _ ih =>
      subst hx
      exact ih hloop.symm

/-- Finitely many nodes have a father, and no node is below itself: children come before their
fathers in a well-founded order. -/
theorem wellFounded_of_acyclic {r : α → α → Prop} {children : Set α} (hfinite : children.Finite)
    (hr : ∀ a b, r a b → b ∈ children) (hcycle : ∀ a, ¬ Relation.TransGen r a a) :
    WellFounded fun b a => r a b := by
  have := hfinite.to_subtype
  have hbelow : WellFounded fun b a : children => Relation.TransGen r (a : α) b := by
    have htrans : IsTrans children fun b a => Relation.TransGen r (a : α) b :=
      ⟨fun _ _ _ h h' => h'.trans h⟩
    have hirrefl : Std.Irrefl fun b a : children => Relation.TransGen r (a : α) b :=
      ⟨fun a h => hcycle a h⟩
    exact Finite.wellFounded_of_trans_of_irrefl _
  have hacc : ∀ x : children, Acc (fun b a => r a b) (x : α) := by
    intro x
    induction x using hbelow.induction with
    | h x ih => exact Acc.intro _ fun b hb => ih ⟨b, hr x b hb⟩ (.single hb)
  exact ⟨fun a => Acc.intro a fun b hb => hacc ⟨b, hr a b hb⟩⟩

end Forest
