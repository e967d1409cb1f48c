import Mathlib.Order.WellFounded
import Mathlib.Tactic
import Rtl8188eu.LiteralIndex

/-!
# Runs on endless inputs

A state machine that is fed an endless sequence of inputs, and is done in some states. If no step
makes a measure larger, and every step but those that are stuck makes it smaller, then the machine
is done at last exactly if it is not stuck for ever (`done_iff`).
-/

namespace InfiniteRuns

variable {σ ε : Type*} (step : σ → ε → σ) (s : σ) (input : ℕ → ε)

/-- The state after `n` inputs. -/
def stateAt : ℕ → σ
  | 0 => s
  | n + 1 => step (stateAt n) (input n)

variable {step s input} {I : σ → Prop}

/-- What holds at the start and is kept by the steps of the run holds throughout. -/
theorem invariant (h0 : I s)
    (hstep : ∀ n, I (stateAt step s input n) → I (stateAt step s input (n + 1))) :
    ∀ n, I (stateAt step s input n)
  | 0 => h0
  | n + 1 => hstep n (invariant h0 hstep n)

variable {Done : σ → Prop} {Stuck : σ → ε → Prop} {μ : σ → ℕ}

/-- A state that no step leaves stays. -/
theorem stateAt_of_done (hdone : ∀ u e, Done u → step u e = u) {n : ℕ}
    (h : Done (stateAt step s input n)) :
    ∀ k, stateAt step s input (n + k) = stateAt step s input n
  | 0 => rfl
  | k + 1 => by
    have hk := stateAt_of_done hdone h k
    rw [← Nat.add_assoc, stateAt, hk]
    exact hdone _ _ h

section

variable (hinv : ∀ n, I (stateAt step s input n))
  (hstuck : ∀ u e, I u → Stuck u e → μ (step u e) ≤ μ u)
  (hstep : ∀ u e, I u → ¬Done u → ¬Stuck u e → μ (step u e) < μ u)

include hinv hstuck hstep

theorem measure_le (hnever : ∀ n, ¬Done (stateAt step s input n)) (n : ℕ) :
    ∀ k, μ (stateAt step s input (n + k)) ≤ μ (stateAt step s input n)
  | 0 => le_rfl
  | k + 1 => by
    refine le_trans ?_ (measure_le hnever n k)
    by_cases hs : Stuck (stateAt step s input (n + k)) (input (n + k))
    · exact hstuck _ _ (hinv _) hs
    · exact (hstep _ _ (hinv _) (hnever _) hs).le

/-- The machine is done at last exactly if it is not stuck for ever. -/
theorem done_iff (hdone : ∀ u e, Done u → step u e = u) (hnot : ∀ u e, Stuck u e → ¬Done u) :
    (∃ n, Done (stateAt step s input n)) ↔
    ¬∃ n, ∀ m ≥ n, Stuck (stateAt step s input m) (input m) := by
  constructor
  · rintro ⟨n, hn⟩ ⟨k, hk⟩
    have hsame := stateAt_of_done hdone hn k
    refine hnot _ _ (hk (n + k) (Nat.le_add_left k n)) ?_
    rw [hsame]
    exact hn
  · intro hforever
    by_contra hnone
    have hnever : ∀ n, ¬Done (stateAt step s input n) := not_exists.mp hnone
    -- from any state the measure becomes smaller behind the next step that is not stuck
    have hsmaller : ∀ n, ∃ m, μ (stateAt step s input m) < μ (stateAt step s input n) := fun n => by
      obtain ⟨m, hm⟩ := not_forall.mp fun h => hforever ⟨n, h⟩
      obtain ⟨hle, hs⟩ := Classical.not_imp.mp hm
      obtain ⟨k, rfl⟩ := Nat.exists_eq_add_of_le hle
      exact ⟨n + k + 1, (hstep _ _ (hinv _) (hnever _) hs).trans_le
        (measure_le hinv hstuck hstep hnever n k)⟩
    obtain ⟨m, hm⟩ := hsmaller (Function.argmin fun n => μ (stateAt step s input n))
    exact Function.not_lt_argmin (fun n => μ (stateAt step s input n)) m hm

end

end InfiniteRuns
