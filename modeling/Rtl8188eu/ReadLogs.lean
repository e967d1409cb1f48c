import Mathlib.Tactic
import Rtl8188eu.LiteralIndex

/-!
# Computations that log what they read

A computation has the addresses that it reads, and a result unless it fails (`Logged`). `Within P Q`
says that it reads only addresses with `P`, and that a result has `Q`. It is taken apart along the
computation without a loss (`within_bind`), so what a computation needs can be read off it.
-/

/-- The addresses that are read, and the result. -/
structure Logged (ι α : Type*) where
  reads : List ι
  result : Option α

namespace Logged

variable {ι : Type*} {α β : Type}

/-- Behind a failure nothing is read. -/
def andThen (x : Logged ι α) (k : α → Logged ι β) : Logged ι β :=
  match x.result with
  | none => ⟨x.reads, none⟩
  | some a => ⟨x.reads ++ (k a).reads, (k a).result⟩

instance : Monad (Logged ι) where
  pure a := ⟨[], some a⟩
  bind := andThen

/-- A failure. -/
def fail : Logged ι α := ⟨[], none⟩

/-- A failure if the condition does not hold. -/
def check (c : Prop) [Decidable c] : Logged ι Unit := if c then pure () else fail

/-- A value with the addresses that are read for it. -/
def read (as : List ι) (a : α) : Logged ι α := ⟨as, some a⟩

/-- Only addresses with `P` are read, and the result has `Q`. -/
def Within (P : ι → Prop) (x : Logged ι α) (Q : α → Prop) : Prop :=
  (∀ a ∈ x.reads, P a) ∧ ∀ v, x.result = some v → Q v

section Rules

variable {P : ι → Prop} {Q : α → Prop}

@[simp] theorem within_pure {a : α} : Within P (pure a : Logged ι α) Q ↔ Q a :=
  ⟨fun h => h.2 a rfl, fun h => ⟨nofun, fun v hv => by cases hv; exact h⟩⟩

@[simp] theorem within_fail : Within P (fail : Logged ι α) Q :=
  ⟨nofun, nofun⟩

theorem within_read {as : List ι} {a : α} : Within P (read as a) Q ↔ (∀ i ∈ as, P i) ∧ Q a :=
  and_congr_right fun _ => ⟨fun h => h a rfl, fun h v hv => by cases hv; exact h⟩

/-- A computation is within exactly if its first part is, with the rest within behind it. -/
theorem within_bind {x : Logged ι α} {k : α → Logged ι β} {R : β → Prop} :
    Within P (x >>= k) R ↔ Within P x fun a => Within P (k a) R := by
  change Within P (andThen x k) R ↔ _
  unfold andThen
  rcases x with ⟨reads, _ | a⟩
  · exact ⟨fun h => ⟨h.1, nofun⟩, fun h => ⟨h.1, nofun⟩⟩
  · constructor
    · rintro ⟨hreads, hres⟩
      obtain ⟨hx, hk⟩ := List.forall_mem_append.mp hreads
      refine ⟨hx, fun v hv => ?_⟩
      cases hv
      exact ⟨hk, hres⟩
    · rintro ⟨hx, hrest⟩
      obtain ⟨hk, hres⟩ := hrest a rfl
      exact ⟨List.forall_mem_append.mpr ⟨hx, hk⟩, hres⟩

theorem within_check {c : Prop} [Decidable c] {k : Unit → Logged ι α} :
    Within P (check c >>= k) Q ↔ (c → Within P (k ()) Q) := by
  rw [within_bind]
  unfold check
  split_ifs with hc
  · rw [within_pure]
    exact ⟨fun h _ => h, fun h => h hc⟩
  · exact iff_of_true within_fail fun h => absurd h hc

end Rules

end Logged
