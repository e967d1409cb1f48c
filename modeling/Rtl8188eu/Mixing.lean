import Mathlib.Algebra.Group.Basic
import Mathlib.Logic.Function.Basic
import Mathlib.Tactic
import Rtl8188eu.LiteralIndex

/-!
# Mixing words in place

A step of an unbalanced Feistel network adds to one word a function of the others. It can be
undone whatever the function is, because the function still has the same words to look at
(`Step.bijective`). So any sequence of steps permutes the states (`bijective_run`).
-/

namespace Mixing

variable {ι G : Type*}

/-- Add a function of the other words to the word `target`. -/
structure Step (ι G : Type*) [DecidableEq ι] where
  target : ι
  amount : (ι → G) → G
  ignores : ∀ x a, amount (Function.update x target a) = amount x

variable [DecidableEq ι] [AddGroup G]

def Step.apply (s : Step ι G) (x : ι → G) : ι → G :=
  Function.update x s.target (x s.target + s.amount x)

/-- What a step added can be taken away again. -/
def Step.undo (s : Step ι G) (x : ι → G) : ι → G :=
  Function.update x s.target (x s.target - s.amount x)

theorem Step.undo_apply (s : Step ι G) (x : ι → G) : s.undo (s.apply x) = x := by
  rw [undo, apply, s.ignores, Function.update_self, Function.update_idem, add_sub_cancel_right,
    Function.update_eq_self]

theorem Step.apply_undo (s : Step ι G) (x : ι → G) : s.apply (s.undo x) = x := by
  rw [undo, apply, s.ignores, Function.update_self, Function.update_idem, sub_add_cancel,
    Function.update_eq_self]

theorem Step.bijective (s : Step ι G) : Function.Bijective s.apply :=
  Function.bijective_iff_has_inverse.mpr ⟨s.undo, s.undo_apply, s.apply_undo⟩

/-- Steps one after the other. -/
def run (ss : List (Step ι G)) (x : ι → G) : ι → G := ss.foldl (fun x s => s.apply x) x

theorem bijective_run : ∀ ss : List (Step ι G), Function.Bijective (run ss)
  | [] => Function.bijective_id
  | s :: ss => (bijective_run ss).comp s.bijective

/-- Add a function of the word `j`. -/
def Step.ofWord (i j : ι) (h : j ≠ i) (f : G → G) : Step ι G where
  target := i
  amount := fun x => f (x j)
  ignores := fun x a => by rw [Function.update_of_ne h]

/-- Add a constant. -/
def Step.const (i : ι) (c : G) : Step ι G where
  target := i
  amount := fun _ => c
  ignores := fun _ _ => rfl

end Mixing
