import Mathlib.Data.List.Basic

/-!
# Literal indices

The bounds of the literal indices that several modules use, by name. Lean makes one lemma of a bound
that a definition proves in place, and which definition it belongs to depends on the ones before it.
-/

namespace LiteralIndex

/-! The library's instances for the moduli of the definitions, each as one constant. -/

instance (priority := 2000) neZero_four : @NeZero ℕ Zero.ofOfNat0 4 := inferInstance

instance (priority := 2000) neZero_seven : @NeZero ℕ Zero.ofOfNat0 7 := inferInstance

instance (priority := 2000) neZero_eight : @NeZero ℕ Zero.ofOfNat0 8 := inferInstance

instance (priority := 2000) neZero_sixteen : @NeZero ℕ Zero.ofOfNat0 16 := inferInstance

instance (priority := 2000) neZero_word : @NeZero ℕ Zero.ofOfNat0 32 := inferInstance

/-! The octets of an IP address or a word, of a MAC address or a packet number, of a key or a block. -/

theorem octet0_lt_four : 0 < 4 := by decide

theorem octet1_lt_four : 1 < 4 := by decide

theorem octet2_lt_four : 2 < 4 := by decide

theorem octet3_lt_four : 3 < 4 := by decide

theorem octet0_lt_six : 0 < 6 := by decide

theorem octet1_lt_six : 1 < 6 := by decide

theorem octet2_lt_six : 2 < 6 := by decide

theorem octet3_lt_six : 3 < 6 := by decide

theorem octet4_lt_six : 4 < 6 := by decide

theorem octet5_lt_six : 5 < 6 := by decide

theorem octet0_lt_sixteen : 0 < 16 := by decide

theorem octet12_lt_sixteen : 12 < 16 := by decide

theorem octet13_lt_sixteen : 13 < 16 := by decide

theorem octet14_lt_sixteen : 14 < 16 := by decide

theorem octet15_lt_sixteen : 15 < 16 := by decide

/-! The state bits of a station that the lemmas on the access point name. -/

theorem sleepBit_lt : 2 < 32 := by decide

theorem authBit_lt : 10 < 32 := by decide

theorem assocBit_lt : 14 < 32 := by decide

/-- A block ACK has eight traffic ids, a frame sixteen. -/
theorem tids_le_sixteen : 8 ≤ 16 := by decide

/-- The body of an element with one letter. -/
theorem length_letter : [(0x61 : UInt8)].length ≤ 255 := by decide

end LiteralIndex
