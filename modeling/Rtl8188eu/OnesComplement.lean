import Mathlib.Tactic
import Rtl8188eu.LiteralIndex

/-!
# Ones-complement checksums

The sum of the 16-bit words of a byte string, on a machine that reads the low byte first
(`wordSum`), folded to 16 bits with the carries added in (`foldSum`). Folding keeps the residue
modulo 65535 (`foldSum_mod`). A message is valid if the sum of its words, with the checksum among
them, is zero modulo 65535 (`Valid`), and the complement of the folded sum of the other words makes
it so (`valid_add_complement`).
-/

namespace OnesComplement

/-- The sum of the 16-bit words. A last single byte is a word with a zero behind it. -/
def wordSum : List UInt8 → ℕ
  | [] => 0
  | [a] => a.toNat
  | a :: b :: rest => a.toNat + 256 * b.toNat + wordSum rest

theorem wordSum_append : ∀ {xs : List UInt8} (_ : xs.length % 2 = 0) (ys : List UInt8),
    wordSum (xs ++ ys) = wordSum xs + wordSum ys
  | [], _, ys => by simp [wordSum]
  | [a], h, _ => by simp at h
  | a :: b :: rest, h, ys => by
    have hrest : rest.length % 2 = 0 := by
      simp only [List.length_cons] at h
      omega
    rw [List.cons_append, List.cons_append, wordSum, wordSum, wordSum_append hrest ys]
    omega

theorem wordSum_zeros : ∀ {xs : List UInt8}, (∀ b ∈ xs, b = 0) → wordSum xs = 0
  | [], _ => rfl
  | [a], h => by
    rw [h a (List.mem_singleton_self a)]
    rfl
  | a :: b :: rest, h => by
    rw [wordSum, wordSum_zeros fun c hc => h c (List.mem_cons_of_mem _ (List.mem_cons_of_mem _ hc)),
      h a (List.mem_cons_self ..), h b (List.mem_cons_of_mem _ (List.mem_cons_self ..))]
    rfl

/-- The carries of a sum are added in, until it has 16 bits. -/
def foldSum (s : ℕ) : ℕ :=
  if s >>> 16 = 0 then s else foldSum ((s &&& 0xffff) + (s >>> 16))
termination_by s
decreasing_by
  rename_i h
  have hand : s &&& 0xffff = s % 65536 := Nat.and_two_pow_sub_one_eq_mod s 16
  rw [Nat.shiftRight_eq_div_pow] at h
  rw [hand, Nat.shiftRight_eq_div_pow]
  omega

/-- The folded sum is the residue, with 65535 in the place of zero. -/
theorem foldSum_eq (s : ℕ) : foldSum s = if s = 0 then 0 else (s - 1) % 65535 + 1 := by
  induction s using Nat.strong_induction_on with
  | _ s ih =>
    have hand : s &&& 0xffff = s % 65536 := Nat.and_two_pow_sub_one_eq_mod s 16
    rw [foldSum, hand, Nat.shiftRight_eq_div_pow]
    split_ifs with h1 h2
    · exact h2
    · omega
    · omega
    · rw [ih _ (by omega), if_neg (by omega)]
      omega

theorem foldSum_le (s : ℕ) : foldSum s ≤ 65535 := by
  rw [foldSum_eq]
  split_ifs <;> omega

theorem foldSum_mod (s : ℕ) : foldSum s % 65535 = s % 65535 := by
  rw [foldSum_eq]
  split_ifs <;> omega

/-- The words add up to zero in ones-complement arithmetic. -/
def Valid (sum : ℕ) : Prop := sum % 65535 = 0

/-- A sum to which the complement of another one is added is valid just in case the two are the
same. -/
theorem valid_add_complement (s t : ℕ) : Valid (s + (65535 - foldSum t)) ↔
    s % 65535 = t % 65535 := by
  have hle := foldSum_le t
  have hmod := foldSum_mod t
  unfold Valid
  omega

end OnesComplement
