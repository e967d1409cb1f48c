import Mathlib.Algebra.Order.Group.Abs
import Mathlib.Tactic
import Rtl8188eu.LiteralIndex

/-!
# Moving averages of integers

A value is replaced by the average of a new sample and of the value itself with a weight, where the
division rounds towards zero. With the same sample every time the value goes towards it without
passing it, and comes to rest within the weight (`follows_iff`).
-/

namespace MovingAverage

/-- The average of the sample `s` and of `w` times the value `v`. -/
def next (w : ℕ) (s v : ℤ) : ℤ := (s + w * v).tdiv (w + 1)

variable {w : ℕ} {s v : ℤ} {n : ℕ} {x : ℕ → ℤ}

theorem le_next {b : ℤ} (h : (w + 1) * b ≤ s + w * v) : b ≤ next w s v := by
  have hpos : (0 : ℤ) < w + 1 := by positivity
  calc b = ((w + 1) * b).tdiv (w + 1) := (Int.mul_tdiv_cancel_left b hpos.ne').symm
    _ ≤ next w s v := Int.tdiv_le_tdiv hpos h

theorem next_le {b : ℤ} (h : s + w * v ≤ (w + 1) * b) : next w s v ≤ b := by
  have hpos : (0 : ℤ) < w + 1 := by positivity
  calc next w s v ≤ ((w + 1) * b).tdiv (w + 1) := Int.tdiv_le_tdiv hpos h
    _ = b := Int.mul_tdiv_cancel_left b hpos.ne'

/-- From below, the average is between the value and the sample. -/
theorem next_of_le (h : v ≤ s) : v ≤ next w s v ∧ next w s v ≤ s := by
  have hw : (0 : ℤ) ≤ w := by positivity
  have hws : (w : ℤ) * v ≤ w * s := mul_le_mul_of_nonneg_left h hw
  exact ⟨le_next (by linarith), next_le (by linarith)⟩

/-- From above as well. -/
theorem next_of_ge (h : s ≤ v) : s ≤ next w s v ∧ next w s v ≤ v := by
  have hw : (0 : ℤ) ≤ w := by positivity
  have hws : (w : ℤ) * s ≤ w * v := mul_le_mul_of_nonneg_left h hw
  exact ⟨le_next (by linarith), next_le (by linarith)⟩

/-- Further away than the weight, the value comes closer. -/
theorem abs_next_lt (h : (w : ℤ) < |v - s|) : |next w s v - s| < |v - s| := by
  rcases le_total v s with hle | hge
  · have hup : v + 1 ≤ next w s v := by
      rw [abs_of_nonpos (by omega)] at h
      exact le_next (by linarith)
    have hs := (next_of_le (w := w) hle).2
    rw [abs_of_nonpos (by omega), abs_of_nonpos (by omega)]
    omega
  · have hdown : next w s v ≤ v - 1 := by
      rw [abs_of_nonneg (by omega)] at h
      exact next_le (by linarith)
    have hs := (next_of_ge (w := w) hge).1
    rw [abs_of_nonneg (by omega), abs_of_nonneg (by omega)]
    omega

theorem abs_next_le (w : ℕ) (s v : ℤ) : |next w s v - s| ≤ |v - s| := by
  rcases le_total v s with hle | hge
  · obtain ⟨h1, h2⟩ := next_of_le (w := w) hle
    rw [abs_of_nonpos (by omega), abs_of_nonpos (by omega)]
    omega
  · obtain ⟨h1, h2⟩ := next_of_ge (w := w) hge
    rw [abs_of_nonneg (by omega), abs_of_nonneg (by omega)]
    omega

/-- The values `x` follow `n` samples `s` : each is the average of the sample and of the value
before it, so that they go towards the sample without passing it, and end within the weight when
there were enough samples. -/
structure Follows (w : ℕ) (s : ℤ) (n : ℕ) (x : ℕ → ℤ) : Prop where
  average : ∀ i < n, x (i + 1) = next w s (x i)
  towards : ∀ i < n, (x i ≤ s → x i ≤ x (i + 1) ∧ x (i + 1) ≤ s) ∧ (s ≤ x i → s ≤ x (i + 1) ∧ x (i + 1) ≤ x i)
  ends : |x 0 - s| ≤ n → |x n - s| ≤ w

/-- After `i` samples the value is within the weight, or at least `i` closer than at the start. -/
theorem abs_le_of_average (h : ∀ i < n, x (i + 1) = next w s (x i)) :
    ∀ i ≤ n, |x i - s| ≤ w ∨ |x i - s| + i ≤ |x 0 - s|
  | 0, _ => Or.inr (by simp)
  | i + 1, hi => by
    rw [h i hi]
    rcases abs_le_of_average h i (by omega) with hin | hfar
    · exact Or.inl ((abs_next_le w s (x i)).trans hin)
    · rcases le_or_gt |x i - s| (w : ℤ) with hin | hout
      · exact Or.inl ((abs_next_le w s (x i)).trans hin)
      · have hlt := abs_next_lt hout
        right
        push_cast
        omega

/-- The rule alone is enough. -/
theorem follows_iff : Follows w s n x ↔ ∀ i < n, x (i + 1) = next w s (x i) := by
  refine ⟨Follows.average, fun h => ⟨h, fun i hi => ?_, fun hn => ?_⟩⟩
  · rw [h i hi]
    exact ⟨next_of_le, next_of_ge⟩
  · rcases abs_le_of_average h n le_rfl with hin | hfar
    · exact hin
    · have hnonneg := abs_nonneg (x n - s)
      have hw : (0 : ℤ) ≤ w := by positivity
      omega

/-- Values that stay follow the samples exactly if the first one is at rest. -/
theorem follows_const_iff (hx : ∀ i ≤ n, x i = x 0) : Follows w s n x ↔
    n = 0 ∨ next w s (x 0) = x 0 := by
  rw [follows_iff]
  constructor
  · intro h
    rcases Nat.eq_zero_or_pos n with h0 | hpos
    · exact Or.inl h0
    · have hfirst := h 0 hpos
      rw [hx (0 + 1) hpos] at hfirst
      exact Or.inr hfirst.symm
  · rintro (h0 | hrest) i hi
    · omega
    · rw [hx (i + 1) hi, hx i hi.le, hrest]

end MovingAverage
