import Mathlib.Data.Matrix.Mul
import Rtl8188eu.BinaryFields

/-!
# The Advanced Encryption Standard

AES with a key of 128 bits, as FIPS 197 defines it. A byte is an element of the field with 256
elements, the polynomials modulo `X ^ 8 + X ^ 4 + X ^ 3 + X + 1`. The state has four rows and four
columns of such elements. `SubBytes` inverts each element and maps its bits by an affine map,
`ShiftRows` turns the rows, `MixColumns` multiplies the columns by a matrix over the field, and
`KeyExpansion` makes the words of the round keys.
-/

open BinaryFields

namespace Fips197

/-! ## The field -/

/-- The modulus without `X ^ 8`. -/
def low : BitVec 8 := 0x1b

set_option maxRecDepth 4000 in
/-- The inverses of the words in their order, and zero for zero. -/
def inverses : Vector (BitVec 8) 256 :=
  #v[0x00, 0x01, 0x8d, 0xf6, 0xcb, 0x52, 0x7b, 0xd1, 0xe8, 0x4f, 0x29, 0xc0, 0xb0, 0xe1, 0xe5, 0xc7,
    0x74, 0xb4, 0xaa, 0x4b, 0x99, 0x2b, 0x60, 0x5f, 0x58, 0x3f, 0xfd, 0xcc, 0xff, 0x40, 0xee, 0xb2,
    0x3a, 0x6e, 0x5a, 0xf1, 0x55, 0x4d, 0xa8, 0xc9, 0xc1, 0x0a, 0x98, 0x15, 0x30, 0x44, 0xa2, 0xc2,
    0x2c, 0x45, 0x92, 0x6c, 0xf3, 0x39, 0x66, 0x42, 0xf2, 0x35, 0x20, 0x6f, 0x77, 0xbb, 0x59, 0x19,
    0x1d, 0xfe, 0x37, 0x67, 0x2d, 0x31, 0xf5, 0x69, 0xa7, 0x64, 0xab, 0x13, 0x54, 0x25, 0xe9, 0x09,
    0xed, 0x5c, 0x05, 0xca, 0x4c, 0x24, 0x87, 0xbf, 0x18, 0x3e, 0x22, 0xf0, 0x51, 0xec, 0x61, 0x17,
    0x16, 0x5e, 0xaf, 0xd3, 0x49, 0xa6, 0x36, 0x43, 0xf4, 0x47, 0x91, 0xdf, 0x33, 0x93, 0x21, 0x3b,
    0x79, 0xb7, 0x97, 0x85, 0x10, 0xb5, 0xba, 0x3c, 0xb6, 0x70, 0xd0, 0x06, 0xa1, 0xfa, 0x81, 0x82,
    0x83, 0x7e, 0x7f, 0x80, 0x96, 0x73, 0xbe, 0x56, 0x9b, 0x9e, 0x95, 0xd9, 0xf7, 0x02, 0xb9, 0xa4,
    0xde, 0x6a, 0x32, 0x6d, 0xd8, 0x8a, 0x84, 0x72, 0x2a, 0x14, 0x9f, 0x88, 0xf9, 0xdc, 0x89, 0x9a,
    0xfb, 0x7c, 0x2e, 0xc3, 0x8f, 0xb8, 0x65, 0x48, 0x26, 0xc8, 0x12, 0x4a, 0xce, 0xe7, 0xd2, 0x62,
    0x0c, 0xe0, 0x1f, 0xef, 0x11, 0x75, 0x78, 0x71, 0xa5, 0x8e, 0x76, 0x3d, 0xbd, 0xbc, 0x86, 0x57,
    0x0b, 0x28, 0x2f, 0xa3, 0xda, 0xd4, 0xe4, 0x0f, 0xa9, 0x27, 0x53, 0x04, 0x1b, 0xfc, 0xac, 0xe6,
    0x7a, 0x07, 0xae, 0x63, 0xc5, 0xdb, 0xe2, 0xea, 0x94, 0x8b, 0xc4, 0xd5, 0x9d, 0xf8, 0x90, 0x6b,
    0xb1, 0x0d, 0xd6, 0xeb, 0xc6, 0x0e, 0xcf, 0xad, 0x08, 0x4e, 0xd7, 0xe3, 0x5d, 0x50, 0x1e, 0xb3,
    0x5b, 0x23, 0x38, 0x34, 0x68, 0x46, 0x03, 0x8c, 0xdd, 0x9c, 0x7d, 0xa0, 0xcd, 0x1a, 0x41, 0x1c]

def inverse (a : BitVec 8) : BitVec 8 := inverses.get a.toFin

theorem mul_inverse (a : BitVec 8) (h : a ≠ 0#8) : mul low a (inverse a) = 1#8 := by
  -- The table is read through once, since a single entry is slow to find.
  have hall : ∀ p ∈ inverses.toList.zipIdx,
      p.2 ≠ 0 → mul low (BitVec.ofNat 8 p.2) p.1 = 1#8 := by
    decide +kernel
  have hmem : (inverse a, a.toNat) ∈ inverses.toList.zipIdx := by
    refine List.mk_mem_zipIdx_iff_getElem?.mpr ?_
    rw [List.getElem?_eq_getElem (by simpa using a.isLt), Vector.getElem_toList]
    rfl
  have hone := hall _ hmem fun h0 => h (BitVec.eq_of_toNat_eq h0)
  rwa [BitVec.ofNat_toNat, BitVec.setWidth_eq] at hone

instance : Fact (Irreducible (modulus low)) :=
  ⟨irreducible_modulus low (by omega) fun a h => ⟨inverse a, mul_inverse a h⟩⟩

/-- The field with 256 elements. -/
abbrev GF256 := Residue low

/-- The word of an element. -/
noncomputable def wordEquiv : BitVec 8 ≃ GF256 :=
  Equiv.ofBijective (elem low) ⟨elem_injective low, elem_surjective low (by omega)⟩

theorem wordEquiv_inv (a : BitVec 8) : (elem low a)⁻¹ = elem low (inverse a) := by
  by_cases h : a = 0#8
  · subst h
    have hinv : inverse 0#8 = 0#8 := by decide +kernel
    rw [hinv, elem_zero, inv_zero]
  · refine inv_eq_of_mul_eq_one_right ?_
    rw [← elem_mul, mul_inverse a h, elem_one low (by omega)]

/-! ## The transformations -/

/-- The affine map of the S-box. -/
def affine (b : BitVec 8) : BitVec 8 :=
  (BitVec.ofBoolListLE <| List.ofFn fun i : Fin 8 =>
    b[i] ^^ b[i + 4] ^^ b[i + 5] ^^ b[i + 6] ^^ b[i + 7] ^^ (0x63#8)[i]).cast List.length_ofFn

/-- The S-box. -/
noncomputable def subByte (x : GF256) : GF256 := wordEquiv (affine (wordEquiv.symm x⁻¹))

/-- The state : an element for each row and column. -/
abbrev State := Matrix (Fin 4) (Fin 4) GF256

noncomputable def subBytes (s : State) : State := s.map subByte

def shiftRows (s : State) : State := Matrix.of fun r c => s r (c + r)

/-- The matrix of `MixColumns`. -/
noncomputable def mixMatrix : State :=
  let two := gen low
  let three := gen low + 1
  !![two, three, 1, 1;
    1, two, three, 1;
    1, 1, two, three;
    three, 1, 1, two]

noncomputable def mixColumns (s : State) : State := mixMatrix * s

noncomputable def addRoundKey (s k : State) : State := s + k

/-! ## The round keys -/

def rotWord (w : Fin 4 → GF256) : Fin 4 → GF256 := fun r => w (r + 1)

noncomputable def subWord (w : Fin 4 → GF256) : Fin 4 → GF256 := fun r => subByte (w r)

/-- The round constant, for the rounds from 1 on. -/
noncomputable def rcon (j : ℕ) : Fin 4 → GF256 := fun r => if r = 0 then gen low ^ (j - 1) else 0

/-- The words of `KeyExpansion`. -/
noncomputable def keyWord (key : State) (i : ℕ) : Fin 4 → GF256 :=
  if h : i < 4 then fun r => key r ⟨i, h⟩
  else if i % 4 = 0 then
    keyWord key (i - 4) + (subWord (rotWord (keyWord key (i - 1))) + rcon (i / 4))
  else keyWord key (i - 4) + keyWord key (i - 1)
termination_by i

theorem keyWord_zero (key : State) (c : Fin 4) : keyWord key c = fun r => key r c := by
  rw [keyWord, dif_pos c.isLt]

/-- The first word of a round key after the first. -/
theorem keyWord_first (key : State) (j : ℕ) : keyWord key (4 * (j + 1)) =
    keyWord key (4 * j) + (subWord (rotWord (keyWord key (4 * j + 3))) + rcon (j + 1)) := by
  have hback : 4 * (j + 1) - 4 = 4 * j := by omega
  have hlast : 4 * (j + 1) - 1 = 4 * j + 3 := by omega
  rw [keyWord, dif_neg (by omega), if_pos (Nat.mul_mod_right 4 _), hback, hlast,
    Nat.mul_div_cancel_left _ (by omega)]

/-- The other words of a round key after the first. -/
theorem keyWord_next (key : State) (j : ℕ) {c : ℕ} (hc : c < 3) :
    keyWord key (4 * (j + 1) + (c + 1)) =
      keyWord key (4 * j + (c + 1)) + keyWord key (4 * (j + 1) + c) := by
  have hback : 4 * (j + 1) + (c + 1) - 4 = 4 * j + (c + 1) := by omega
  rw [keyWord, dif_neg (by omega), if_neg (by omega), hback]
  rfl

/-- The key of a round. -/
noncomputable def roundKey (key : State) (j : ℕ) : State :=
  Matrix.of fun r c => keyWord key (4 * j + c) r

/-- `Cipher`. -/
noncomputable def cipher (key input : State) : State :=
  let s := (List.range' 1 9).foldl
    (fun s j => addRoundKey (mixColumns (shiftRows (subBytes s))) (roundKey key j))
    (addRoundKey input (roundKey key 0))
  addRoundKey (shiftRows (subBytes s)) (roundKey key 10)

end Fips197
