import Mathlib.Tactic
import Rtl8188eu.LiteralIndex

/-!
# Deadlines kept as one number

Deadlines are times, and a counter has the time since `base`. One number, `stored`, is kept for all
deadlines : it stands for the time `base + stored`. If it is the latest of the deadlines that
have not passed (`Tracks`) then a deadline has not passed exactly if the counter has not passed
the number (`Tracks.le_iff`).
-/

namespace Deadlines

/-- A deadline has not passed. -/
def Pending (now : ℕ) (deadlines : List ℕ) : Prop := ∃ d ∈ deadlines, now ≤ d

/-- The number covers the deadlines that have not passed, and is one of the deadlines. Without a
deadline it is zero. -/
structure Tracks (base now stored : ℕ) (deadlines : List ℕ) : Prop where
  covers : ∀ d ∈ deadlines, now ≤ d → d ≤ base + stored
  mem : deadlines = [] ∧ stored = 0 ∨ base + stored ∈ deadlines

variable {base now stored : ℕ} {deadlines : List ℕ}

theorem tracks_nil (base now : ℕ) : Tracks base now 0 [] :=
  ⟨fun _ hd => absurd hd List.not_mem_nil, .inl ⟨rfl, rfl⟩⟩

namespace Tracks

/-- The comparison of the counter with the number. -/
theorem le_iff (h : Tracks base now stored deadlines) (hne : deadlines ≠ []) :
    now - base ≤ stored ↔ Pending now deadlines := by
  constructor
  · intro hle
    exact ⟨base + stored, h.mem.resolve_left fun hnil => hne hnil.1, by omega⟩
  · rintro ⟨d, hd, hnow⟩
    have hcovers := h.covers d hd hnow
    omega

/-- Time passes. -/
theorem later (h : Tracks base now stored deadlines) {now' : ℕ} (hle : now ≤ now') :
    Tracks base now' stored deadlines :=
  ⟨fun d hd hnow => h.covers d hd (hle.trans hnow), h.mem⟩

/-- A new deadline replaces the number, and none is pending beyond it. -/
theorem replace (hbase : base ≤ now) {d : ℕ} (h : ∀ d' ∈ deadlines, now ≤ d' → d' ≤ now + d) :
    Tracks base now (now - base + d) ((now + d) :: deadlines) := by
  have hsum : base + (now - base + d) = now + d := by omega
  refine ⟨fun d' hd' hnow => ?_, .inr ?_⟩
  · rw [hsum]
    rcases List.mem_cons.mp hd' with rfl | hd'
    · exact le_rfl
    · exact h d' hd' hnow
  · rw [hsum]
    exact List.mem_cons_self

/-- A new deadline raises the number, if it is later. -/
theorem raise (h : Tracks base now stored deadlines) (hbase : base ≤ now) (d : ℕ) :
    Tracks base now (if stored < now - base + d then now - base + d else stored)
      ((now + d) :: deadlines) := by
  split_ifs with hlt
  · refine replace hbase fun d' hd' hnow => ?_
    have hcovers := h.covers d' hd' hnow
    omega
  · refine ⟨fun d' hd' hnow => ?_, .inr ?_⟩
    · rcases List.mem_cons.mp hd' with rfl | hd'
      · omega
      · exact h.covers d' hd' hnow
    · rcases h.mem with ⟨-, hzero⟩ | hmem
      · have hsum : base + stored = now + d := by omega
        rw [hsum]
        exact List.mem_cons_self
      · exact List.mem_cons_of_mem _ hmem

end Tracks

end Deadlines
