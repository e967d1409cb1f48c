import Mathlib.Tactic
import Rtl8188eu.LiteralIndex

/-!
# RC4 and CRC-32

The WEP part of `core/rtw_security.c` : `arcfour_init`, `arcfour_byte`,
`arcfour_encrypt`, and `getcrc32` with its table. The indices of the source are 32-bit
variables masked with `0xff`, so they are bytes here.

Encrypting twice with the same key gives the text back (`arcfourEncrypt_involutive`), and
a text can be encrypted in two pieces (`arcfourEncrypt_append`).
-/

namespace Rtl8188eu

/-! ## RC4 -/

/-- `struct arc4context`. -/
structure Arc4context where
  x : UInt8
  y : UInt8
  state : Vector UInt8 256

/-- The entry of a table of 256 at a byte. -/
def byteAt {α : Type} (v : Vector α 256) (i : UInt8) : α := v.get ⟨i.toNat, i.toNat_lt⟩

/-- Set the entry of a table of 256 at a byte. -/
def setByteAt {α : Type} (v : Vector α 256) (i : UInt8) (a : α) : Vector α 256 :=
  v.set i.toNat a i.toNat_lt

/-- One round of the second loop of `arcfour_init`, on `keyindex`, `stateindex` and the
state. -/
def arcfourInitRound (key : List UInt8) (s : ℕ × UInt8 × Vector UInt8 256) (counter : ℕ) :
    ℕ × UInt8 × Vector UInt8 256 :=
  let (keyindex, stateindex, state) := s
  let counter := UInt8.ofNat counter
  let t := byteAt state counter
  let stateindex := stateindex + key.getD keyindex 0 + t
  let u := byteAt state stateindex
  let state := setByteAt state stateindex t
  let state := setByteAt state counter u
  (if keyindex + 1 ≥ key.length then 0 else keyindex + 1, stateindex, state)

/-- `arcfour_init` with the bytes `key`, `key_len` of them. -/
def arcfourInit (key : List UInt8) : Arc4context :=
  let state := Vector.ofFn fun i : Fin 256 => UInt8.ofNat i
  let (_, _, state) := (List.range 256).foldl (arcfourInitRound key) (0, 0, state)
  ⟨0, 0, state⟩

/-- `arcfour_byte`. -/
def arcfourByte (ctx : Arc4context) : UInt8 × Arc4context :=
  let x := ctx.x + 1
  let sx := byteAt ctx.state x
  let y := sx + ctx.y
  let sy := byteAt ctx.state y
  let state := setByteAt ctx.state y sx
  let state := setByteAt state x sy
  (byteAt state (sx + sy), ⟨x, y, state⟩)

/-- `arcfour_encrypt`. -/
def arcfourEncrypt (ctx : Arc4context) : List UInt8 → List UInt8 × Arc4context
  | [] => ([], ctx)
  | b :: src =>
    let (k, ctx) := arcfourByte ctx
    let (dest, ctx) := arcfourEncrypt ctx src
    ((b ^^^ k) :: dest, ctx)

theorem length_arcfourEncrypt : ∀ (ctx : Arc4context) (src : List UInt8),
    (arcfourEncrypt ctx src).1.length = src.length
  | _, [] => rfl
  | ctx, b :: src => by simp [arcfourEncrypt, length_arcfourEncrypt _ src]

theorem arcfourEncrypt_append : ∀ (ctx : Arc4context) (a b : List UInt8),
    (arcfourEncrypt ctx (a ++ b)).1
      = (arcfourEncrypt ctx a).1 ++ (arcfourEncrypt (arcfourEncrypt ctx a).2 b).1
  | _, [], _ => rfl
  | ctx, x :: a, b => by
    simp only [List.cons_append, arcfourEncrypt]
    rw [arcfourEncrypt_append _ a b]

/-- The key stream does not depend on the text. -/
theorem arcfourEncrypt_involutive : ∀ (ctx : Arc4context) (src : List UInt8),
    (arcfourEncrypt ctx (arcfourEncrypt ctx src).1).1 = src
  | _, [] => rfl
  | ctx, b :: src => by
    simp only [arcfourEncrypt]
    rw [arcfourEncrypt_involutive _ src, UInt8.xor_assoc, UInt8.xor_self, UInt8.xor_zero]

/-! ## CRC-32 -/

/-- `CRC32_POLY`. -/
def crc32Poly : UInt32 := 0x04c11db7

/-- `crc32_reverseBit`. -/
def crc32ReverseBit (data : UInt8) : UInt8 :=
  let l (n : UInt8) (mask : UInt8) : UInt8 := (data <<< n) &&& mask
  let r (n : UInt8) (mask : UInt8) : UInt8 := (data >>> n) &&& mask
  l 7 0x80 ||| l 5 0x40 ||| l 3 0x20 ||| l 1 0x10 ||| r 1 0x08 ||| r 3 0x04 ||| r 5 0x02 |||
    r 7 0x01

/-- One round of the inner loop of `crc32_init`. -/
def crc32Shift (c : UInt32) : UInt32 :=
  if c &&& 0x80000000 ≠ 0 then (c <<< 1) ^^^ crc32Poly else c <<< 1

/-- Byte `i` of a 32-bit value, the least significant one first. -/
def u32Byte (c : UInt32) (i : ℕ) : UInt8 := (c >>> UInt32.ofNat (8 * i)).toUInt8

/-- The four bytes of a 32-bit value, the least significant one first. -/
def le32Bytes (c : UInt32) : List UInt8 := [u32Byte c 0, u32Byte c 1, u32Byte c 2, u32Byte c 3]

/-- The 32-bit value of four bytes, the least significant one first. -/
def le32 (b0 b1 b2 b3 : UInt8) : UInt32 :=
  b0.toUInt32 ||| (b1.toUInt32 <<< 8) ||| (b2.toUInt32 <<< 16) ||| (b3.toUInt32 <<< 24)

theorem toNat_le32 (b0 b1 b2 b3 : UInt8) :
    (le32 b0 b1 b2 b3).toNat = b0.toNat + 256 * (b1.toNat + 256 * (b2.toNat + 256 * b3.toNat)) := by
  have h0 := b0.toNat_lt
  have h1 := b1.toNat_lt
  have h2 := b2.toNat_lt
  have h3 := b3.toNat_lt
  have e1 : (b1.toUInt32 <<< 8).toNat = 2 ^ 8 * b1.toNat := by
    simp [UInt32.toNat_shiftLeft, Nat.shiftLeft_eq]
    omega
  have e2 : (b2.toUInt32 <<< 16).toNat = 2 ^ 16 * b2.toNat := by
    simp [UInt32.toNat_shiftLeft, Nat.shiftLeft_eq]
    omega
  have e3 : (b3.toUInt32 <<< 24).toNat = 2 ^ 24 * b3.toNat := by
    simp [UInt32.toNat_shiftLeft, Nat.shiftLeft_eq]
    omega
  unfold le32
  rw [UInt32.toNat_or, UInt32.toNat_or, UInt32.toNat_or, e1, e2, e3, UInt8.toNat_toUInt32,
    Nat.or_comm b0.toNat, ← Nat.two_pow_add_eq_or_of_lt h0,
    Nat.or_comm _ (2 ^ 16 * b2.toNat), ← Nat.two_pow_add_eq_or_of_lt (by omega),
    Nat.or_comm _ (2 ^ 24 * b3.toNat), ← Nat.two_pow_add_eq_or_of_lt (by omega)]
  omega

/-- `crc32_table`, as `crc32_init` fills it. -/
def crc32Table : Vector UInt32 256 :=
  Vector.ofFn fun i =>
    let k := crc32ReverseBit (UInt8.ofNat i)
    let c := crc32Shift^[8] (k.toUInt32 <<< 24)
    le32 (crc32ReverseBit (u32Byte c 3)) (crc32ReverseBit (u32Byte c 2))
      (crc32ReverseBit (u32Byte c 1)) (crc32ReverseBit (u32Byte c 0))

/-- `getcrc32` : the four bytes of the checksum of `buf`. -/
def getcrc32 (buf : List UInt8) : List UInt8 :=
  let crc : UInt32 := buf.foldl
    (fun crc p => byteAt crc32Table (crc ^^^ p.toUInt32).toUInt8 ^^^ (crc >>> 8)) 0xffffffff
  le32Bytes (~~~crc)

theorem length_getcrc32 (buf : List UInt8) : (getcrc32 buf).length = 4 := rfl

end Rtl8188eu
