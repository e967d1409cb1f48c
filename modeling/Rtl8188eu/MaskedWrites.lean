import Mathlib.Logic.Function.Basic
import Rtl8188eu.LiteralIndex

/-!
# Masked writes to registers

A masked write gives new values to the bits of a mask and leaves the other bits of a register as
they are. After a list of them a bit is as the last write says that covers it (`covered`).
-/

namespace MaskedWrites

variable {α : Type*} [DecidableEq α] {w : ℕ}

/-- The bits of `mask` from `value`, the others from `old`. -/
def blend (mask value old : BitVec w) : BitVec w := (old &&& ~~~mask) ||| (value &&& mask)

theorem getLsbD_blend (mask value old : BitVec w) (i : ℕ) : (blend mask value old).getLsbD i =
    if mask.getLsbD i then value.getLsbD i else old.getLsbD i := by
  simp only [blend, BitVec.getLsbD_or, BitVec.getLsbD_and, BitVec.getLsbD_not]
  cases mask.getLsbD i with
  | false =>
    rcases Nat.lt_or_ge i w with hi | hi
    · simp [hi]
    · simp [BitVec.getLsbD_of_ge old i hi]
  | true => simp

structure MaskedWrite (α : Type*) (w : ℕ) where
  addr : α
  mask : BitVec w
  value : BitVec w

/-- The bit `i` at `a` behind a write, if it was `b`. -/
def MaskedWrite.bit (a : α) (i : ℕ) (b : Bool) (x : MaskedWrite α w) : Bool :=
  if x.addr = a ∧ x.mask.getLsbD i = true then x.value.getLsbD i else b

/-- The bit `i` at `a` behind some writes, if it was `b`. -/
def covered (a : α) (i : ℕ) (b : Bool) (xs : List (MaskedWrite α w)) : Bool :=
  xs.foldl (MaskedWrite.bit a i) b

/-- A masked write to a register whose value was read before, as `old`. -/
theorem getLsbD_update_blend (x : MaskedWrite α w) {regs : α → BitVec w} {old : BitVec w} {a : α}
    {i : ℕ} {b : Bool} (hregs : (regs a).getLsbD i = b) (hold : x.addr = a → old.getLsbD i = b) :
    (Function.update regs x.addr (blend x.mask x.value old) a).getLsbD i = x.bit a i b := by
  unfold MaskedWrite.bit
  obtain rfl | ha := eq_or_ne x.addr a
  · rw [Function.update_self, getLsbD_blend, hold rfl]
    simp
  · rw [Function.update_of_ne ha.symm, if_neg fun h => ha h.1, hregs]

end MaskedWrites
