import Rtl8188eu.Ccmp
import Rtl8188eu.Fips197

/-!
# The block cipher and the AES standard

`aes128k128d` is `Cipher` of the standard. A block is a state of the standard, column after
column (`stateOf`). The table of `byte_sub` is the S-box, `mix_column` multiplies a column by
the matrix, and `next_key` makes the next four words of the key schedule in place, so the key
that it leaves after a round is the round key of the next one.
-/

open BinaryFields Fips197

namespace Rtl8188eu

open LiteralIndex

private theorem vector_get {α : Type*} {n : ℕ} (f : Fin n → α) (i : Fin n) :
    (Vector.ofFn f).get i = f i :=
  Vector.getElem_ofFn i.isLt

/-- The element of a byte. -/
noncomputable abbrev elemOf (a : UInt8) : GF256 := elem low a.toBitVec

theorem elemOf_xor (a b : UInt8) : elemOf (a ^^^ b) = elemOf a + elemOf b :=
  elem_xor low a.toBitVec b.toBitVec

/-- The state of a block : byte `4 * c + r` is at row `r` and column `c`. -/
noncomputable def stateOf : Block ≃ State where
  toFun b := Matrix.of fun r c => elemOf (b.get ⟨4 * c + r, by omega⟩)
  invFun s :=
    Vector.ofFn fun i => ⟨wordEquiv.symm (s ⟨i % 4, by omega⟩ ⟨i / 4, by omega⟩)⟩
  left_inv b := by
    refine Vector.ext fun i hi => ?_
    have hindex : 4 * (i / 4) + i % 4 = i := by omega
    simp only [Vector.getElem_ofFn, Matrix.of_apply, hindex]
    exact congrArg UInt8.ofBitVec (wordEquiv.symm_apply_apply (b.get ⟨i, hi⟩).toBitVec)
  right_inv s := by
    ext r c
    have hrow : (4 * c.val + r.val) % 4 = r := by omega
    have hcolumn : (4 * c.val + r.val) / 4 = c := by omega
    simp only [vector_get, Matrix.of_apply, hrow, hcolumn]
    exact wordEquiv.apply_symm_apply (s r c)

theorem stateOf_apply (b : Block) (r c : Fin 4) :
    stateOf b r c = elemOf (b.get ⟨4 * c + r, by omega⟩) := rfl

theorem stateOf_bitwiseXor (a b : Block) :
    stateOf (bitwiseXor a b) = addRoundKey (stateOf a) (stateOf b) := by
  ext r c
  rw [addRoundKey, Matrix.add_apply, stateOf_apply, bitwiseXor, vector_get, elemOf_xor]
  rfl

/-! ## The bytes -/

/-- The table is the affine map of the inverses. -/
theorem sbox_eq (a : UInt8) : (sbox a).toBitVec = affine (inverse a.toBitVec) := by
  have htable : sboxTable.toList.map UInt8.toBitVec = inverses.toList.map affine := by
    decide +kernel
  have hat := congrArg (fun l => l[a.toNat]?) htable
  have hbox : a.toNat < sboxTable.toList.length := by simpa using a.toNat_lt
  have hinverse : a.toNat < inverses.toList.length := by simpa using a.toNat_lt
  simp only [List.getElem?_map, List.getElem?_eq_getElem hbox, List.getElem?_eq_getElem hinverse,
    Vector.getElem_toList, Option.map_some] at hat
  exact Option.some.inj hat

theorem elemOf_sbox (a : UInt8) : elemOf (sbox a) = subByte (elemOf a) := by
  have hword : wordEquiv.symm (elem low (inverse a.toBitVec)) = inverse a.toBitVec :=
    wordEquiv.symm_apply_apply _
  rw [subByte, wordEquiv_inv, hword, ← sbox_eq]
  rfl

theorem stateOf_byteSub (b : Block) : stateOf (byteSub b) = subBytes (stateOf b) := by
  ext r c
  rw [subBytes, Matrix.map_apply, stateOf_apply, byteSub, vector_get, elemOf_sbox]
  rfl

theorem stateOf_shiftRow (b : Block) : stateOf (shiftRow b) = shiftRows (stateOf b) := by
  ext r c
  rw [shiftRows, Matrix.of_apply, stateOf_apply, stateOf_apply]
  congr 1
  fin_cases r <;> fin_cases c <;> rfl

/-! ## The columns -/

/-- The elements of four bytes. -/
noncomputable def columnOf (w : Vector UInt8 4) : Fin 4 → GF256 := fun r => elemOf (w.get r)

theorem columnOf_xor32 (a b : Vector UInt8 4) :
    columnOf (xor32 a b) = columnOf a + columnOf b := by
  funext r
  rw [columnOf, xor32, vector_get, elemOf_xor]
  rfl

theorem columnOf_wordOf (b : Block) (r c : Fin 4) : columnOf (wordOf b c) r = stateOf b r c := by
  rw [columnOf, wordOf, vector_get]
  rfl

/-- A block that is put together from four words. -/
theorem stateOf_append (w : Fin 4 → Vector UInt8 4) (r c : Fin 4) :
    stateOf (w 0 ++ w 1 ++ w 2 ++ w 3) r c = columnOf (w c) r := by
  rw [stateOf_apply, columnOf]
  congr 1
  change (w 0 ++ w 1 ++ w 2 ++ w 3)[4 * c.val + r.val] = (w c)[r.val]
  have hr := r.isLt
  simp only [Vector.getElem_append]
  fin_cases c <;> simp
  · rw [dif_pos (by omega), dif_pos (by omega)]
  · rw [dif_pos (by omega), dif_pos (by omega)]
  · rw [dif_pos (by omega)]

/-- The doubled bytes in `mix_column`. -/
def doubled (w : Vector UInt8 4) : Vector UInt8 4 :=
  xor32 (Vector.ofFn fun i => if w.get i &&& 0x80 = 0x80 then 0x1b else 0x00) (shiftAndf7 w)

theorem mixColumn_get (w : Vector UInt8 4) (r : Fin 4) :
    (mixColumn w).get r = (doubled w).get r ^^^ (w.get (r + 1) ^^^ (doubled w).get (r + 1)) ^^^
      (w.get (r + 2) ^^^ w.get (r + 3)) := by
  fin_cases r <;> rfl

/-- No bit is taken over, since the highest bit of each byte was masked. -/
theorem shiftAndf7_get (w : Vector UInt8 4) (r : Fin 4) :
    (shiftAndf7 w).get r = (w.get r &&& 0x7f) <<< 1 := by
  have hmasked : ∀ x : UInt8, (x &&& 0x7f) &&& 0x80 = 0 := by
    intro x
    rw [UInt8.and_assoc]
    exact UInt8.and_zero
  have hshl : ∀ x prev : UInt8, (if (prev &&& 0x7f) &&& 0x80 = 0x80 then x <<< 1 ||| 0x01
      else x <<< 1 : UInt8) = x <<< 1 := by
    intro x prev
    rw [hmasked, if_neg (by decide)]
  have heven : ∀ i : Fin 256,
      UInt8.ofFin i <<< 1 &&& (0xfe : UInt8) = UInt8.ofFin i <<< 1 := by
    decide +kernel
  fin_cases r
  · exact heven (w.get 0 &&& 0x7f).toFin
  all_goals exact hshl _ _

theorem toBitVec_double (x : UInt8) :
    ((if x &&& 0x80 = 0x80 then 0x1b else 0x00 : UInt8) ^^^ (x &&& 0x7f : UInt8) <<< 1).toBitVec =
      times low x.toBitVec := by
  have hall : ∀ i : Fin 256, ((if UInt8.ofFin i &&& 0x80 = 0x80 then 0x1b else 0x00 : UInt8) ^^^
      (UInt8.ofFin i &&& 0x7f : UInt8) <<< 1).toBitVec = times low (UInt8.ofFin i).toBitVec := by
    decide +kernel
  exact hall x.toFin

theorem columnOf_doubled (w : Vector UInt8 4) (r : Fin 4) :
    columnOf (doubled w) r = gen low * columnOf w r := by
  rw [columnOf, columnOf, doubled, xor32, vector_get, vector_get, shiftAndf7_get, elemOf,
    toBitVec_double, elem_times]

/-- The bytes of a column are multiplied by the matrix. -/
theorem columnOf_mixColumn (w : Vector UInt8 4) (r : Fin 4) :
    columnOf (mixColumn w) r = ∑ k, mixMatrix r k * columnOf w k := by
  have hget : columnOf (mixColumn w) r = gen low * columnOf w r +
      (columnOf w (r + 1) + gen low * columnOf w (r + 1)) +
        (columnOf w (r + 2) + columnOf w (r + 3)) := by
    rw [← columnOf_doubled, ← columnOf_doubled, columnOf, mixColumn_get]
    simp only [elemOf_xor, columnOf]
  rw [hget, Fin.sum_univ_four]
  fin_cases r <;> simp [mixMatrix] <;> ring

/-- A round of `aes128k128d` with the key of the round. -/
theorem stateOf_aesRound (b k : Block) (round : ℕ) : stateOf (aesRound (b, k) round).1 =
    addRoundKey (mixColumns (shiftRows (subBytes (stateOf b)))) (stateOf k) := by
  rw [aesRound, stateOf_bitwiseXor, ← stateOf_byteSub, ← stateOf_shiftRow]
  congr 1
  ext r c
  rw [stateOf_append fun c => mixColumn (wordOf (shiftRow (byteSub b)) c), columnOf_mixColumn,
    mixColumns, Matrix.mul_apply]
  refine Finset.sum_congr rfl fun k _ => ?_
  rw [columnOf_wordOf]

/-! ## The round keys -/

/-- The round constants are the powers of `X`. -/
theorem elemOf_rcon {j : ℕ} (hj : j < 10) : elemOf (rconTable.getD j 0) = gen low ^ j := by
  have hpow : ∀ j, elem low ((times low)^[j] 1#8) = gen low ^ j := by
    intro j
    induction j with
    | zero => exact elem_one low (by omega)
    | succ j ih => rw [Function.iterate_succ_apply', elem_times, ih, pow_succ']
  have htable : ∀ j < 10, (rconTable.getD j 0).toBitVec = (times low)^[j] 1#8 := by
    decide +kernel
  rw [elemOf, htable j hj, hpow]

/-- The words of `next_key`, one after the other. -/
def nextWord (key : Block) (round : ℕ) : Fin 4 → Vector UInt8 4 :=
  let w0 := xor32 (wordOf key 0) #v[sbox (getElem key 13 octet13_lt_sixteen),
    sbox (getElem key 14 octet14_lt_sixteen), sbox (getElem key 15 octet15_lt_sixteen),
    sbox (getElem key 12 octet12_lt_sixteen)]
  let w0 := w0.set 0 (getElem w0 0 octet0_lt_four ^^^ rconTable.getD round 0) octet0_lt_four
  let w1 := xor32 (wordOf key 1) w0
  let w2 := xor32 (wordOf key 2) w1
  ![w0, w1, w2, xor32 (wordOf key 3) w2]

theorem columnOf_nextWord_zero (key : Block) {round : ℕ} (h : round < 10) :
    columnOf (nextWord key round 0) = columnOf (wordOf key 0) +
      (subWord (rotWord (columnOf (wordOf key 3))) + Fips197.rcon (round + 1)) := by
  have hbyte : ∀ r : Fin 4, (nextWord key round 0).get r = (wordOf key 0).get r ^^^
      (sbox ((wordOf key 3).get (r + 1)) ^^^ if r = 0 then rconTable.getD round 0 else 0) := by
    intro r
    have hzero : ∀ x y : UInt8, x ^^^ y = x ^^^ (y ^^^ 0) := fun x y => by rw [UInt8.xor_zero]
    fin_cases r
    · exact UInt8.xor_assoc _ _ _
    all_goals exact hzero _ _
  funext r
  rw [columnOf, hbyte, elemOf_xor, elemOf_xor, elemOf_sbox]
  congr 2
  rw [Fips197.rcon]
  split_ifs
  · rw [elemOf_rcon h, Nat.add_sub_cancel]
  · exact elem_zero low

theorem columnOf_nextWord_succ (key : Block) (round : ℕ) (c : Fin 3) :
    columnOf (nextWord key round c.succ) =
      columnOf (wordOf key c.succ) + columnOf (nextWord key round c.castSucc) := by
  fin_cases c <;> exact columnOf_xor32 _ _

/-- The round key after `j` calls of `next_key`. -/
def keyAfter (key : Block) : ℕ → Block
  | 0 => key
  | j + 1 => nextKey (keyAfter key j) j

theorem columnOf_nextKey (key : Block) (round : ℕ) (c : Fin 4) :
    columnOf (wordOf (nextKey key round) c) = columnOf (nextWord key round c) := by
  funext r
  rw [columnOf_wordOf]
  exact stateOf_append (nextWord key round) r c

/-- A word of a round key is the word of the key schedule. -/
theorem columnOf_keyAfter (key : Block) : ∀ j ≤ 10, ∀ c : Fin 4,
    columnOf (wordOf (keyAfter key j) c) = keyWord (stateOf key) (4 * j + c) := by
  intro j hj
  induction j with
  | zero =>
    intro c
    funext r
    rw [Nat.mul_zero, Nat.zero_add, keyWord_zero, keyAfter, columnOf_wordOf]
  | succ j ih =>
    have ih := ih (Nat.le_of_succ_le hj)
    intro c
    rw [keyAfter, columnOf_nextKey]
    induction c using Fin.induction with
    | zero =>
      rw [columnOf_nextWord_zero _ (by omega), ih 0, ih 3]
      exact (keyWord_first (stateOf key) j).symm
    | succ c ihc =>
      rw [columnOf_nextWord_succ, ihc, ih]
      exact (keyWord_next (stateOf key) j c.isLt).symm

theorem stateOf_keyAfter (key : Block) {j : ℕ} (hj : j ≤ 10) :
    stateOf (keyAfter key j) = roundKey (stateOf key) j := by
  ext r c
  rw [← columnOf_wordOf, columnOf_keyAfter key j hj]
  rfl

/-! ## The cipher -/

/-- The rounds of `aes128k128d` from 1 to `n`. -/
theorem rounds_eq (key data : Block) : ∀ n ≤ 9,
    ∃ b, (List.range' 1 n).foldl aesRound (bitwiseXor key data, nextKey key 0) =
        (b, keyAfter key (n + 1)) ∧
      stateOf b = (List.range' 1 n).foldl (fun s j => addRoundKey
          (mixColumns (shiftRows (subBytes s))) (roundKey (stateOf key) j))
        (addRoundKey (stateOf data) (roundKey (stateOf key) 0)) := by
  intro n hn
  induction n with
  | zero =>
    refine ⟨bitwiseXor key data, rfl, ?_⟩
    rw [stateOf_bitwiseXor, ← stateOf_keyAfter key (by omega)]
    exact add_comm _ _
  | succ n ih =>
    obtain ⟨b, hfold, hb⟩ := ih (by omega)
    refine ⟨(aesRound (b, keyAfter key (n + 1)) (n + 1)).1, ?_, ?_⟩
    · rw [List.range'_1_concat, List.foldl_append, hfold, Nat.add_comm 1 n]
      rfl
    · rw [List.range'_1_concat, List.foldl_append, ← hb, stateOf_aesRound,
        stateOf_keyAfter key (by omega), Nat.add_comm 1 n]
      rfl

/-- `aes128k128d` encrypts as the standard defines it, with the affine map of the inverse in
the field as its table. -/
theorem aes128k128d_fips197 : (∀ a, elemOf (sbox a) = subByte (elemOf a)) ∧
    ∀ key data, stateOf (aes128k128d key data) = cipher (stateOf key) (stateOf data) := by
  refine ⟨elemOf_sbox, fun key data => ?_⟩
  obtain ⟨b, hfold, hb⟩ := rounds_eq key data 9 (by omega)
  rw [aes128k128d, hfold, stateOf_bitwiseXor, stateOf_shiftRow, stateOf_byteSub, hb,
    stateOf_keyAfter key (by omega), cipher]

end Rtl8188eu
