import Rtl8188eu.Arc4
import Rtl8188eu.ShiftRegisters

/-!
# The ICV is a CRC-32

`getcrc32` of `core/rtw_security.c` takes a byte at a time, with a table that `crc32_init`
builds in the other bit order and turns over. It is the CRC-32 of the string bit by bit
(`getcrc32_serial`) : the lowest bit of each byte comes first, the register starts with ones
and is complemented at the end. A string with its checksum behind it always leaves the
register in the same state.
-/

namespace Rtl8188eu

open ShiftRegisters

/-! ## The checksum bit by bit -/

/-- The bits of a string in the order in which they are sent, the lowest of a byte first. -/
def bitsOf (buf : List UInt8) : List Bool := buf.flatMap fun b => bits b.toBitVec 8

/-- CRC-32 : what remains of the string in a division by `CRC32_POLY`. The register starts with
ones. It is read in the order of the bits of the string, and complemented. -/
def crc32 (buf : List UInt8) : BitVec 32 :=
  ~~~(feedLeft crc32Poly.toBitVec (BitVec.allOnes 32) (bitsOf buf)).reverse

/-- The state of the register after a string with its checksum. -/
def crc32Residue : UInt32 := 0xdebb20e3

theorem bitsOf_append (xs ys : List UInt8) : bitsOf (xs ++ ys) = bitsOf xs ++ bitsOf ys :=
  List.flatMap_append

/-- The polynomial for a register in the order of the bits of the string. -/
def crc32Reversed : BitVec 32 := 0xedb88320

theorem reverse_crc32Poly : crc32Poly.toBitVec.reverse = crc32Reversed := by
  decide +kernel

/-- The register in the order of the bits of the string. -/
theorem not_crc32 (buf : List UInt8) :
    ~~~crc32 buf = feed crc32Reversed (BitVec.allOnes 32) (bitsOf buf) := by
  have hones : (BitVec.allOnes 32).reverse = BitVec.allOnes 32 := by decide +kernel
  rw [crc32, BitVec.not_not, reverse_feedLeft, reverse_crc32Poly, hones]

/-! ## The table -/

/-- An entry of the table is what becomes of a byte in eight steps. -/
theorem crc32Table_eq (k : UInt8) :
    (byteAt crc32Table k).toBitVec = (shiftRight crc32Reversed)^[8] (k.toBitVec.setWidth 32) := by
  have hall : ∀ i : Fin 256, (crc32Table.get i).toBitVec =
      (shiftRight crc32Reversed)^[8] (BitVec.ofNat 32 i) := by
    intro i
    change (crc32Table[(i : ℕ)]).toBitVec = _
    rw [crc32Table, Vector.getElem_ofFn]
    revert i
    decide +kernel
  rw [← BitVec.ofNat_toNat]
  exact hall ⟨k.toNat, k.toNat_lt⟩

/-- The register in the loop of `getcrc32`. -/
def crc32Register (crc : UInt32) (buf : List UInt8) : UInt32 :=
  buf.foldl (fun crc p => byteAt crc32Table (crc ^^^ p.toUInt32).toUInt8 ^^^ (crc >>> 8)) crc

/-- A turn of the loop of `getcrc32` takes eight bits. -/
theorem crc32Step_eq (crc : UInt32) (p : UInt8) :
    (byteAt crc32Table (crc ^^^ p.toUInt32).toUInt8 ^^^ (crc >>> 8)).toBitVec =
      feed crc32Reversed crc.toBitVec (bits p.toBitVec 8) := by
  set x : BitVec 32 := crc.toBitVec ^^^ p.toBitVec.setWidth 32 with hx
  set k : UInt8 := (crc ^^^ p.toUInt32).toUInt8 with hk
  have hk8 : k.toBitVec = x.setWidth 8 := by
    rw [hk, UInt32.toBitVec_toUInt8, UInt32.toBitVec_xor, UInt8.toBitVec_toUInt32]
  have hfeed := feed_bits crc32Reversed 8 crc.toBitVec (p.toBitVec.setWidth 32)
  rw [bits_setWidth p.toBitVec (by omega), setWidth_shiftRight, BitVec.xor_zero] at hfeed
  have hlow : bits (k.toBitVec.setWidth 32) 8 = bits x 8 := by
    rw [bits_setWidth k.toBitVec (by omega), hk8, bits_setWidth x le_rfl]
  have hgone : x >>> 8 = crc.toBitVec >>> 8 := by
    rw [hx, BitVec.ushiftRight_xor_distrib, setWidth_shiftRight, BitVec.xor_zero]
  rw [hfeed, shiftRight_iterate crc32Reversed x _ 8 hlow (setWidth_shiftRight k.toBitVec 32),
    ← crc32Table_eq, hgone]
  rfl

theorem crc32Register_eq : ∀ (buf : List UInt8) (crc : UInt32),
    (crc32Register crc buf).toBitVec = feed crc32Reversed crc.toBitVec (bitsOf buf)
  | [], _ => rfl
  | p :: buf, crc => by
    have ih := crc32Register_eq buf (byteAt crc32Table (crc ^^^ p.toUInt32).toUInt8 ^^^ (crc >>> 8))
    rw [crc32Step_eq] at ih
    rw [bitsOf, List.flatMap_cons, feed_append]
    exact ih

/-! ## The string with its checksum -/

theorem bitsOf_le32Bytes (c : UInt32) : bitsOf (le32Bytes c) = bits c.toBitVec 32 := by
  have hbyte : ∀ i < 4, bits (u32Byte c i).toBitVec 8 = bits (c.toBitVec >>> (8 * i)) 8 := by
    intro i hi
    rw [u32Byte, UInt32.toBitVec_toUInt8, bits_setWidth _ le_rfl]
    interval_cases i <;> rfl
  have hsplit : bits c.toBitVec 32 = bits c.toBitVec 8 ++ (bits (c.toBitVec >>> 8) 8 ++
      (bits (c.toBitVec >>> 16) 8 ++ bits (c.toBitVec >>> 24) 8)) := by
    have h := bits_add c.toBitVec 8 (8 + (8 + 8))
    rw [bits_add _ 8 (8 + 8), bits_add _ 8 8, ← BitVec.shiftRight_add, ← BitVec.shiftRight_add] at h
    exact h
  have h0 := hbyte 0 (by omega)
  rw [Nat.mul_zero, BitVec.ushiftRight_zero] at h0
  rw [hsplit]
  simp only [bitsOf, le32Bytes, List.flatMap_cons, List.flatMap_nil, List.append_nil]
  rw [h0, hbyte 1 (by omega), hbyte 2 (by omega), hbyte 3 (by omega)]

/-- `getcrc32` computes the CRC-32 of the string. Behind a string its checksum leaves the register
in the same state. -/
theorem getcrc32_serial (buf : List UInt8) :
    getcrc32 buf = le32Bytes (UInt32.ofBitVec (crc32 buf)) ∧
      crc32Register 0xffffffff (buf ++ getcrc32 buf) = crc32Residue := by
  have hreg : (crc32Register 0xffffffff buf).toBitVec = ~~~crc32 buf := by
    rw [crc32Register_eq, not_crc32]
    rfl
  have hcrc : ~~~crc32Register 0xffffffff buf = UInt32.ofBitVec (crc32 buf) := by
    refine UInt32.toBitVec_inj.mp ?_
    rw [UInt32.toBitVec_not, hreg, BitVec.not_not]
  have hget : getcrc32 buf = le32Bytes (UInt32.ofBitVec (crc32 buf)) := by
    rw [← hcrc]
    rfl
  refine ⟨hget, UInt32.toBitVec_inj.mp ?_⟩
  -- the checksum is the register with all of its bits complemented
  have hown : crc32 buf = ~~~crc32 buf ^^^ BitVec.allOnes 32 := by
    rw [BitVec.xor_allOnes, BitVec.not_not]
  have hresidue : (shiftRight crc32Reversed)^[32] (BitVec.allOnes 32) = crc32Residue.toBitVec := by
    decide +kernel
  have hown' := feed_own_bits crc32Reversed (~~~crc32 buf) (BitVec.allOnes 32)
  rw [← hown, hresidue] at hown'
  rw [crc32Register_eq] at hreg
  rw [crc32Register_eq, bitsOf_append, feed_append, hreg, hget, bitsOf_le32Bytes]
  exact hown'

end Rtl8188eu
