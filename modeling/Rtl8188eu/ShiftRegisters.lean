import Mathlib.Logic.Function.Iterate
import Mathlib.Tactic
import Rtl8188eu.LiteralIndex

/-!
# Linear feedback shift registers

A cyclic redundancy check divides a string of bits by a polynomial over two elements. The
register of `w` bits holds the remainder. It is shifted by one for each bit, and the
polynomial is subtracted when a bit falls out (`stepLeft`). Most programs hold the register
in the other bit order, and shift it to the right (`stepRight`).

A step is linear, so `n` bits can be taken at once, with a table of what becomes of the `n`
low bits of the register (`feed_bits`, `shiftRight_iterate`). A register that is fed its own
bits, some of them complemented, ends in a state that depends on these only (`feed_own_bits`).
-/

namespace ShiftRegisters

variable {w : ℕ}

/-! ## The two orders -/

/-- One step of the register that is shifted to the left. -/
def stepLeft (poly c : BitVec w) (b : Bool) : BitVec w :=
  if c.msb ^^ b then (c <<< 1) ^^^ poly else c <<< 1

/-- One step of the register that is shifted to the right. -/
def stepRight (poly c : BitVec w) (b : Bool) : BitVec w :=
  if c.getLsbD 0 ^^ b then (c >>> 1) ^^^ poly else c >>> 1

theorem reverse_xor (a b : BitVec w) : (a ^^^ b).reverse = a.reverse ^^^ b.reverse := by
  refine BitVec.eq_of_getLsbD_eq fun i hi => ?_
  simp only [BitVec.getLsbD_reverse, BitVec.getLsbD_xor, BitVec.getMsbD_xor]

theorem reverse_shiftLeft_one (c : BitVec w) : (c <<< 1).reverse = c.reverse >>> 1 := by
  refine BitVec.eq_of_getLsbD_eq fun i hi => ?_
  rw [BitVec.getLsbD_ushiftRight, BitVec.getLsbD_reverse, BitVec.getLsbD_reverse,
    BitVec.getMsbD_shiftLeft, Nat.add_comm]

/-- The same bits in the other order make the same steps in the other direction. -/
theorem reverse_stepLeft (poly c : BitVec w) (b : Bool) :
    (stepLeft poly c b).reverse = stepRight poly.reverse c.reverse b := by
  have hbit : c.reverse.getLsbD 0 = c.msb := by
    rw [BitVec.getLsbD_reverse, BitVec.msb_eq_getMsbD_zero]
  unfold stepLeft stepRight
  rw [hbit]
  split_ifs
  · rw [reverse_xor, reverse_shiftLeft_one]
  · exact reverse_shiftLeft_one c

/-- The register after the bits `bs`. -/
def feedLeft (poly : BitVec w) (c : BitVec w) (bs : List Bool) : BitVec w :=
  bs.foldl (stepLeft poly) c

/-- The register in the other bit order after the bits `bs`. -/
def feed (poly : BitVec w) (c : BitVec w) (bs : List Bool) : BitVec w :=
  bs.foldl (stepRight poly) c

theorem reverse_feedLeft (poly : BitVec w) : ∀ (bs : List Bool) (c : BitVec w),
    (feedLeft poly c bs).reverse = feed poly.reverse c.reverse bs
  | [], _ => rfl
  | b :: bs, c => by
    have ih := reverse_feedLeft poly bs (stepLeft poly c b)
    rw [reverse_stepLeft] at ih
    exact ih

theorem feed_append (poly c : BitVec w) (xs ys : List Bool) :
    feed poly c (xs ++ ys) = feed poly (feed poly c xs) ys :=
  List.foldl_append

/-! ## Many bits at once -/

/-- One step without a bit. -/
def shiftRight (poly c : BitVec w) : BitVec w := stepRight poly c false

/-- What is subtracted when the bit `b` falls out. -/
def tap (poly : BitVec w) (b : Bool) : BitVec w := if b then poly else 0#w

theorem tap_xor (poly : BitVec w) (x y : Bool) : tap poly (x ^^ y) = tap poly x ^^^ tap poly y := by
  unfold tap
  cases x <;> cases y <;> simp

theorem stepRight_eq (poly c : BitVec w) (b : Bool) :
    stepRight poly c b = (c >>> 1) ^^^ tap poly (c.getLsbD 0 ^^ b) := by
  unfold stepRight tap
  split_ifs
  · rfl
  · exact BitVec.xor_zero.symm

theorem stepRight_xor (poly a b : BitVec w) (x y : Bool) :
    stepRight poly (a ^^^ b) (x ^^ y) = stepRight poly a x ^^^ stepRight poly b y := by
  have hbits : ((a ^^^ b).getLsbD 0 ^^ (x ^^ y)) = ((a.getLsbD 0 ^^ x) ^^ (b.getLsbD 0 ^^ y)) := by
    rw [BitVec.getLsbD_xor, Bool.xor_assoc, Bool.xor_assoc, Bool.xor_left_comm (b.getLsbD 0)]
  rw [stepRight_eq, stepRight_eq, stepRight_eq, hbits, tap_xor, BitVec.ushiftRight_xor_distrib]
  ac_rfl

/-- A register that is fed its own lowest bit is only shifted. -/
theorem stepRight_own (poly c : BitVec w) : stepRight poly c (c.getLsbD 0) = c >>> 1 := by
  unfold stepRight
  rw [Bool.xor_self, if_neg Bool.false_ne_true]

/-- The bit `x` holds lowest, fed to the register. -/
theorem stepRight_bit (poly c x : BitVec w) :
    stepRight poly c (x.getLsbD 0) ^^^ (x >>> 1) = shiftRight poly (c ^^^ x) := by
  rw [← stepRight_own poly x, ← stepRight_xor, Bool.xor_self]
  rfl

/-- The `n` lowest bits of `x`, the lowest first. -/
def bits (x : BitVec w) : ℕ → List Bool
  | 0 => []
  | n + 1 => x.getLsbD 0 :: bits (x >>> 1) n

theorem bits_congr {v : ℕ} : ∀ {n : ℕ} {x : BitVec w} {y : BitVec v},
    (∀ i < n, x.getLsbD i = y.getLsbD i) → bits x n = bits y n
  | 0, _, _, _ => rfl
  | n + 1, x, y, h => by
    have hrest : bits (x >>> 1) n = bits (y >>> 1) n := by
      refine bits_congr fun i hi => ?_
      rw [BitVec.getLsbD_ushiftRight, BitVec.getLsbD_ushiftRight]
      exact h (1 + i) (by omega)
    rw [bits, bits, h 0 (by omega), hrest]

theorem bits_setWidth (x : BitVec w) {v n : ℕ} (hn : n ≤ v) : bits (x.setWidth v) n = bits x n := by
  refine bits_congr fun i hi => ?_
  rw [BitVec.getLsbD_setWidth, decide_eq_true (by omega), Bool.true_and]

/-- A wider register has nothing behind the bits that were there. -/
theorem setWidth_shiftRight (x : BitVec w) (v : ℕ) : (x.setWidth v) >>> w = 0#v := by
  refine BitVec.eq_of_getLsbD_eq fun i _ => ?_
  rw [BitVec.getLsbD_ushiftRight, BitVec.getLsbD_setWidth, BitVec.getLsbD_of_ge x _ (by omega),
    Bool.and_false, BitVec.getLsbD_zero]

theorem bits_add (x : BitVec w) : ∀ m n : ℕ, bits x (m + n) = bits x m ++ bits (x >>> m) n
  | 0, n => by rw [Nat.zero_add, BitVec.ushiftRight_zero]; rfl
  | m + 1, n => by
    rw [Nat.add_right_comm, bits, bits, bits_add (x >>> 1) m n, ← BitVec.shiftRight_add,
      Nat.add_comm 1 m]
    rfl

/-- Feeding bits is shifting the register, with the bits added at the beginning. -/
theorem feed_bits (poly : BitVec w) : ∀ (n : ℕ) (c x : BitVec w),
    feed poly c (bits x n) ^^^ (x >>> n) = (shiftRight poly)^[n] (c ^^^ x)
  | 0, c, x => by rw [BitVec.ushiftRight_zero]; rfl
  | n + 1, c, x => by
    have ih := feed_bits poly n (stepRight poly c (x.getLsbD 0)) (x >>> 1)
    rw [stepRight_bit, ← BitVec.shiftRight_add, Nat.add_comm] at ih
    exact ih

/-- What the `n` lowest bits of `x` do to an empty register. -/
theorem feed_zero (poly x : BitVec w) (n : ℕ) :
    feed poly 0#w (bits x n) = (shiftRight poly)^[n] x ^^^ (x >>> n) := by
  have h := feed_bits poly n 0#w x
  rw [BitVec.zero_xor] at h
  rw [← h, BitVec.xor_assoc, BitVec.xor_self, BitVec.xor_zero]

/-- `n` steps, by a table for the `n` lowest bits. -/
theorem shiftRight_iterate (poly c k : BitVec w) (n : ℕ) (hlow : bits k n = bits c n)
    (hhigh : k >>> n = 0#w) :
    (shiftRight poly)^[n] c = (shiftRight poly)^[n] k ^^^ (c >>> n) := by
  have hc := feed_zero poly c n
  have hk := feed_zero poly k n
  rw [hlow, hhigh, BitVec.xor_zero] at hk
  rw [← hk, hc, BitVec.xor_assoc, BitVec.xor_self, BitVec.xor_zero]

/-- A register that is fed its own bits, those of `k` complemented. -/
theorem feed_own_bits (poly c k : BitVec w) :
    feed poly c (bits (c ^^^ k) w) = (shiftRight poly)^[w] k := by
  have h := feed_bits poly w c (c ^^^ k)
  rw [BitVec.ushiftRight_eq_zero le_rfl, BitVec.xor_zero, ← BitVec.xor_assoc, BitVec.xor_self,
    BitVec.zero_xor] at h
  exact h

end ShiftRegisters
