import Mathlib.Algebra.CharP.Two
import Mathlib.Algebra.Polynomial.Degree.Operations
import Mathlib.Data.ZMod.Basic
import Mathlib.RingTheory.AdjoinRoot
import Mathlib.Tactic
import Rtl8188eu.LiteralIndex

/-!
# Words of bits as elements of a binary field

The polynomials over two elements modulo `X ^ w + low` are the words of `w` bits (`elem`) :
bit `i` is the coefficient of `X ^ i`, and exclusive or is the addition. Multiplication by `X`
is a shift, with `low` added when a bit falls out (`times`). The product of two words is
computed from such shifts (`mul`).

When each word other than zero has a word that is its inverse, the modulus is irreducible and
the words are a field (`irreducible_modulus`).
-/

open Polynomial

namespace BinaryFields

variable {w : ℕ}

/-- The polynomial with the bits of `a`. -/
noncomputable def poly (a : BitVec w) : (ZMod 2)[X] :=
  ∑ i ∈ Finset.range w, if a.getLsbD i then X ^ i else 0

theorem coeff_poly (a : BitVec w) (i : ℕ) : (poly a).coeff i = if a.getLsbD i then 1 else 0 := by
  have hterm : ∀ j, ((if a.getLsbD j then X ^ j else 0 : (ZMod 2)[X])).coeff i =
      if j = i then (if a.getLsbD i then 1 else 0) else 0 := by
    intro j
    by_cases hj : j = i
    · subst hj
      cases a.getLsbD j <;> simp
    · cases a.getLsbD j <;> simp [coeff_X_pow, hj, Ne.symm hj]
  rw [poly, finsetSum_coeff, Finset.sum_congr rfl fun j _ => hterm j, Finset.sum_ite_eq']
  split_ifs with hi hbit hbit
  · rfl
  · rfl
  · exact absurd (BitVec.lt_of_getLsbD hbit) (fun h => hi (Finset.mem_range.mpr h))
  · rfl

@[simp] theorem poly_zero : poly (0#w) = 0 := by
  ext i
  simp [coeff_poly]

theorem poly_xor (a b : BitVec w) : poly (a ^^^ b) = poly a + poly b := by
  ext i
  rw [coeff_add, coeff_poly, coeff_poly, coeff_poly, BitVec.getLsbD_xor]
  cases a.getLsbD i <;> cases b.getLsbD i <;> decide

theorem poly_injective : Function.Injective (poly (w := w)) := by
  intro a b h
  refine BitVec.eq_of_getLsbD_eq fun i _ => ?_
  have hcoeff := congrArg (fun p : (ZMod 2)[X] => p.coeff i) h
  simp only [coeff_poly] at hcoeff
  cases ha : a.getLsbD i <;> cases hb : b.getLsbD i <;> simp [ha, hb] at hcoeff ⊢

theorem degree_poly_lt (a : BitVec w) : (poly a).degree < w := by
  refine (degree_lt_iff_coeff_zero _ _).mpr fun i hi => ?_
  rw [coeff_poly, BitVec.getLsbD_of_ge a i hi]
  rfl

/-! ## The quotient -/

variable (low : BitVec w)

/-- The modulus `X ^ w + low`. -/
noncomputable def modulus : (ZMod 2)[X] := X ^ w + poly low

/-- The polynomials modulo the modulus. -/
abbrev Residue := AdjoinRoot (modulus low)

/-- The element of a word. -/
noncomputable def elem (a : BitVec w) : Residue low := AdjoinRoot.mk (modulus low) (poly a)

/-- The element `X`. -/
noncomputable abbrev gen : Residue low := AdjoinRoot.root (modulus low)

theorem elem_xor (a b : BitVec w) : elem low (a ^^^ b) = elem low a + elem low b := by
  rw [elem, poly_xor, map_add]
  rfl

@[simp] theorem elem_zero : elem low (0#w) = 0 := by
  rw [elem, poly_zero, map_zero]

theorem degree_modulus : (modulus low).degree = w := by
  rw [modulus, degree_add_eq_left_of_degree_lt]
  · exact degree_X_pow w
  · rw [degree_X_pow]
    exact degree_poly_lt low

theorem elem_injective : Function.Injective (elem low) := by
  intro a b h
  refine poly_injective (sub_eq_zero.mp ?_)
  refine eq_zero_of_dvd_of_degree_lt (AdjoinRoot.mk_eq_mk.mp h) ?_
  rw [degree_modulus]
  exact (degree_sub_le _ _).trans_lt (max_lt (degree_poly_lt a) (degree_poly_lt b))

theorem elem_add_self (a : BitVec w) : elem low a + elem low a = 0 := by
  rw [← elem_xor, BitVec.xor_self, elem_zero]

/-- `X ^ w` is `low`. -/
theorem gen_pow : gen low ^ w = elem low low := by
  have hzero : AdjoinRoot.mk (modulus low) (X ^ w + poly low) = 0 := AdjoinRoot.mk_self
  rw [map_add, map_pow, AdjoinRoot.mk_X] at hzero
  exact add_right_cancel (hzero.trans (elem_add_self low low).symm)

/-- An element by the bits of its word. -/
theorem elem_eq_sum (a : BitVec w) :
    elem low a = ∑ i ∈ Finset.range w, if a.getLsbD i then gen low ^ i else 0 := by
  rw [elem, poly, map_sum]
  refine Finset.sum_congr rfl fun i _ => ?_
  split_ifs
  · rw [map_pow, AdjoinRoot.mk_X]
  · exact map_zero _

/-! ## Multiplication by `X` -/

/-- A shift, with `low` added when a bit falls out. -/
def times (a : BitVec w) : BitVec w := if a.msb then (a <<< 1) ^^^ low else a <<< 1

/-- The bit that falls out of a shift is the coefficient of `X ^ w`. -/
theorem X_mul_poly (a : BitVec w) :
    X * poly a = poly (a <<< 1) + if a.msb then X ^ w else 0 := by
  ext i
  cases i with
  | zero =>
    have hw : a.msb = true → w ≠ 0 := by
      rintro h rfl
      exact Bool.noConfusion (h.symm.trans (BitVec.msb_zero_length a))
    rw [coeff_add, coeff_poly, BitVec.getLsbD_shiftLeft]
    cases hmsb : a.msb
    · simp
    · simp [coeff_X_pow, (hw hmsb).symm]
  | succ i =>
    rw [coeff_X_mul, coeff_add, coeff_poly, coeff_poly, BitVec.getLsbD_shiftLeft,
      Nat.add_sub_cancel, BitVec.msb_eq_getLsbD_last]
    rcases lt_trichotomy (i + 1) w with hlt | rfl | hgt
    · cases a.getLsbD (w - 1) <;> simp [coeff_X_pow, hlt, hlt.ne]
    · rw [Nat.add_sub_cancel]
      cases a.getLsbD i <;> simp [coeff_X_pow]
    · rw [BitVec.getLsbD_of_ge a i (by omega)]
      cases a.getLsbD (w - 1) <;> simp [coeff_X_pow, hgt.ne']

/-- `times` multiplies by `X`. -/
theorem elem_times (a : BitVec w) : elem low (times low a) = gen low * elem low a := by
  have hmk := congrArg (AdjoinRoot.mk (modulus low)) (X_mul_poly a)
  rw [map_mul, AdjoinRoot.mk_X, map_add] at hmk
  unfold times
  split_ifs with hmsb
  · rw [if_pos hmsb, map_pow, AdjoinRoot.mk_X, gen_pow] at hmk
    rw [elem_xor]
    exact hmk.symm
  · rw [if_neg hmsb, map_zero, add_zero] at hmk
    exact hmk.symm

/-! ## Products -/

/-- The product of `a` and the polynomial of the `n` lowest bits of `b`. -/
def mulBits : ℕ → BitVec w → BitVec w → BitVec w
  | 0, _, _ => 0#w
  | n + 1, a, b => (if b.getLsbD 0 then a else 0#w) ^^^ mulBits n (times low a) (b >>> 1)

/-- The product of two words. -/
def mul (a b : BitVec w) : BitVec w := mulBits low w a b

theorem elem_mulBits : ∀ (n : ℕ) (a b : BitVec w), elem low (mulBits low n a b) =
    elem low a * ∑ i ∈ Finset.range n, if b.getLsbD i then gen low ^ i else 0
  | 0, a, b => by rw [mulBits, elem_zero, Finset.sum_range_zero, mul_zero]
  | n + 1, a, b => by
    have hrest : ∀ i, (b >>> 1).getLsbD i = b.getLsbD (i + 1) := fun i => by
      rw [BitVec.getLsbD_ushiftRight, Nat.add_comm]
    have hfirst : elem low (if b.getLsbD 0 then a else 0#w) =
        elem low a * if b.getLsbD 0 then gen low ^ 0 else 0 := by
      split_ifs
      · rw [pow_zero, mul_one]
      · rw [elem_zero, mul_zero]
    have hsum : ∑ i ∈ Finset.range n, (if b.getLsbD (i + 1) then gen low ^ (i + 1) else 0) =
        gen low * ∑ i ∈ Finset.range n, if b.getLsbD (i + 1) then gen low ^ i else 0 := by
      rw [Finset.mul_sum]
      refine Finset.sum_congr rfl fun i _ => ?_
      split_ifs
      · rw [pow_succ']
      · rw [mul_zero]
    rw [mulBits, elem_xor, elem_mulBits n, elem_times, hfirst, Finset.sum_range_succ', hsum]
    simp only [hrest]
    ring

theorem elem_mul (a b : BitVec w) : elem low (mul low a b) = elem low a * elem low b := by
  rw [mul, elem_mulBits, ← elem_eq_sum]

/-! ## The field -/

theorem elem_one (hw : 0 < w) : elem low (1#w) = 1 := by
  have hone : poly (1#w) = 1 := by
    ext i
    rw [coeff_poly, BitVec.getLsbD_one, coeff_one]
    by_cases hi : i = 0 <;> simp [hi, hw]
  rw [elem, hone, map_one]

/-- Every element has a word. -/
theorem elem_surjective (hw : 0 < w) : Function.Surjective (elem low) := by
  have hmonomial : ∀ (n : ℕ) (c : ZMod 2),
      ∃ a, elem low a = AdjoinRoot.mk (modulus low) (monomial n c) := by
    intro n c
    induction n with
    | zero =>
      obtain rfl | rfl : c = 0 ∨ c = 1 := by revert c; decide
      · exact ⟨0#w, by rw [elem_zero, map_zero, map_zero]⟩
      · exact ⟨1#w, by rw [elem_one low hw, monomial_zero_left, C_1, map_one]⟩
    | succ n ih =>
      obtain ⟨a, ha⟩ := ih
      refine ⟨times low a, ?_⟩
      rw [elem_times, ha, ← X_mul_monomial, map_mul, AdjoinRoot.mk_X]
  intro x
  obtain ⟨p, rfl⟩ := AdjoinRoot.mk_surjective x
  induction p using Polynomial.induction_on' with
  | add p q hp hq =>
    obtain ⟨a, ha⟩ := hp
    obtain ⟨b, hb⟩ := hq
    exact ⟨a ^^^ b, by rw [elem_xor, ha, hb, map_add]⟩
  | monomial n c => exact hmonomial n c

/-- Elements with inverses are a field. -/
theorem isField (hw : 0 < w) (h : ∀ a : BitVec w, a ≠ 0#w → ∃ b, mul low a b = 1#w) :
    IsField (Residue low) where
  exists_pair_ne := by
    refine ⟨elem low (0#w), elem low (1#w), fun heq => ?_⟩
    have hbit := congrArg (fun a : BitVec w => a.getLsbD 0) (elem_injective low heq)
    simp [hw] at hbit
  mul_comm := mul_comm
  mul_inv_cancel := by
    intro x hx
    obtain ⟨a, rfl⟩ := elem_surjective low hw x
    obtain ⟨b, hb⟩ := h a fun h0 => hx (by rw [h0, elem_zero])
    exact ⟨elem low b, by rw [← elem_mul, hb, elem_one low hw]⟩

/-- The modulus is irreducible when every word other than zero has an inverse. -/
theorem irreducible_modulus (hw : 0 < w) (h : ∀ a : BitVec w, a ≠ 0#w → ∃ b, mul low a b = 1#w) :
    Irreducible (modulus low) := by
  have hne : modulus low ≠ 0 := by
    intro h0
    have hdegree := degree_modulus low
    rw [h0, degree_zero] at hdegree
    exact WithBot.bot_ne_coe hdegree
  have hmax : (Ideal.span {modulus low}).IsMaximal :=
    Ideal.Quotient.maximal_of_isField _ (isField low hw h)
  exact ((Ideal.span_singleton_prime hne).mp hmax.isPrime).irreducible

end BinaryFields
