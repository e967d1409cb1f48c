import Mathlib.Tactic
import Rtl8188eu.LiteralIndex

/-!
# Counter mode and CBC-MAC

Both work on blocks of sixteen bytes, over any block cipher. Counter mode (`ctr`) adds byte `i` of
the key stream to byte `i` of a text, so it is its own inverse (`ctr_ctr`). The CBC-MAC chain
(`cbc`) runs over the blocks of a text, the last one padded with zeroes. A text of at least a block
can steer the chain to a chosen input of the cipher (`exists_cbc`).
-/

namespace CounterMode

/-- Sixteen bytes. -/
abbrev Blk := Vector UInt8 16

/-- The sum of two blocks. -/
def xorBlk (a b : Blk) : Blk := Vector.ofFn fun i => a.get i ^^^ b.get i

@[simp] theorem get_ofFn (f : Fin 16 → UInt8) (i : Fin 16) : (Vector.ofFn f).get i = f i := by
  show (Vector.ofFn f)[(i : ℕ)] = f i
  simp

@[simp] theorem get_xorBlk (a b : Blk) (i : Fin 16) : (xorBlk a b).get i = a.get i ^^^ b.get i := by
  rw [xorBlk, get_ofFn]

/-- Blocks with the same bytes are equal. -/
theorem blk_ext {a b : Blk} (h : ∀ i : Fin 16, a.get i = b.get i) : a = b := by
  refine Vector.ext fun i hi => ?_
  exact h ⟨i, hi⟩

theorem xorBlk_xorBlk_self (a b : Blk) : xorBlk a (xorBlk a b) = b := by
  refine blk_ext fun i => ?_
  rw [get_xorBlk, get_xorBlk, ← UInt8.xor_assoc, UInt8.xor_self, UInt8.zero_xor]

/-! ## Counter mode -/

/-- Byte `i` of the key stream made of the blocks `S 1`, `S 2` and so on. -/
def keyByte (S : ℕ → Blk) (i : ℕ) : UInt8 := (S (i / 16 + 1)).get ⟨i % 16, Nat.mod_lt _ (by omega)⟩

/-- A text with the key stream added. -/
def ctr (S : ℕ → Blk) (xs : List UInt8) : List UInt8 := xs.mapIdx fun i x => keyByte S i ^^^ x

@[simp] theorem length_ctr (S : ℕ → Blk) (xs : List UInt8) : (ctr S xs).length = xs.length := by
  simp [ctr]

theorem getElem_ctr (S : ℕ → Blk) (xs : List UInt8) (i : ℕ) (h : i < (ctr S xs).length) :
    (ctr S xs)[i] = keyByte S i ^^^ xs.get ⟨i, by simpa using h⟩ := by
  simp [ctr]

/-- Counter mode is its own inverse. -/
theorem ctr_ctr (S : ℕ → Blk) (xs : List UInt8) : ctr S (ctr S xs) = xs := by
  refine List.ext_getElem (by simp) fun i h h' => ?_
  rw [getElem_ctr, List.get_eq_getElem, getElem_ctr, List.get_eq_getElem, ← UInt8.xor_assoc,
    UInt8.xor_self, UInt8.zero_xor]

/-! ## The CBC chain -/

/-- Block `i` of a text, with zeroes behind the end. -/
def blockOf (xs : List UInt8) (i : ℕ) : Blk := Vector.ofFn fun j => xs.getD (16 * i + j) 0

theorem get_blockOf (xs : List UInt8) (i : ℕ) (j : Fin 16) :
    (blockOf xs i).get j = xs.getD (16 * i + j) 0 := by
  rw [blockOf, get_ofFn]

/-- One block of the chain. -/
def cbcStep (E : Blk → Blk) (xs : List UInt8) (x : Blk) (i : ℕ) : Blk := E (xorBlk x (blockOf xs i))

/-- The chain over the blocks of a text, from `x` on. -/
def cbc (E : Blk → Blk) (xs : List UInt8) (x : Blk) : Blk :=
  (List.range ((xs.length + 15) / 16)).foldl (cbcStep E xs) x

/-- A text whose chain from `x` on gives the cipher the input `c` at each of its full blocks. -/
def steer (E : Blk → Blk) (x c : Blk) (n : ℕ) : List UInt8 :=
  (List.range n).map fun i =>
    if 16 * (n / 16) ≤ i then 0
    else (xorBlk (if i < 16 then x else E c) c).get ⟨i % 16, Nat.mod_lt _ (by omega)⟩

@[simp] theorem length_steer (E : Blk → Blk) (x c : Blk) (n : ℕ) : (steer E x c n).length = n := by
  simp [steer]

theorem blockOf_steer (E : Blk → Blk) (x c : Blk) {n i : ℕ} (hi : i < n / 16) :
    blockOf (steer E x c n) i = xorBlk (if i = 0 then x else E c) c := by
  refine blk_ext fun j => ?_
  have hlt : 16 * i + (j : ℕ) < n := by omega
  have hfull : ¬ 16 * (n / 16) ≤ 16 * i + (j : ℕ) := by omega
  have hmod : (16 * i + (j : ℕ)) % 16 = j := by omega
  have hfirst : 16 * i + (j : ℕ) < 16 ↔ i = 0 := by omega
  rw [get_blockOf, List.getD_eq_getElem?_getD, steer, List.getElem?_map, List.getElem?_range hlt]
  simp only [Option.map_some, Option.getD_some, if_neg hfull, hmod, hfirst]

theorem blockOf_steer_last (E : Blk → Blk) (x c : Blk) (n : ℕ) :
    blockOf (steer E x c n) (n / 16) = Vector.ofFn fun _ => 0 := by
  refine blk_ext fun j => ?_
  rw [get_blockOf, List.getD_eq_getElem?_getD, steer, List.getElem?_map]
  by_cases hlt : 16 * (n / 16) + (j : ℕ) < n
  · rw [List.getElem?_range hlt]
    simp
  · rw [List.getElem?_eq_none (by simpa using hlt)]
    simp

/-- The chain over the first `k` blocks. -/
theorem foldl_steer (E : Blk → Blk) (x c : Blk) {n : ℕ} :
    ∀ k, k ≤ n / 16 → (List.range k).foldl (cbcStep E (steer E x c n)) x = if k = 0 then x else E c
  | 0, _ => rfl
  | k + 1, hk => by
    rw [List.range_succ, List.foldl_append, foldl_steer E x c k (by omega)]
    simp only [List.foldl_cons, List.foldl_nil, cbcStep,
      blockOf_steer E x c (show k < n / 16 by omega),
      xorBlk_xorBlk_self, Nat.add_eq_zero_iff, one_ne_zero, and_false, if_false]

/-- The chain can be steered to any input `c` of the cipher. -/
theorem exists_cbc (E : Blk → Blk) (x c : Blk) {n : ℕ} (hn : 16 ≤ n) :
    ∃ xs : List UInt8, xs.length = n ∧ cbc E xs x = if n % 16 = 0 then E c else E (E c) := by
  refine ⟨steer E x c n, by simp, ?_⟩
  have hpos : n / 16 ≠ 0 := by omega
  rw [cbc, length_steer]
  split_ifs with hmod
  · have hblocks : (n + 15) / 16 = n / 16 := by omega
    rw [hblocks, foldl_steer E x c _ le_rfl, if_neg hpos]
  · have hblocks : (n + 15) / 16 = n / 16 + 1 := by omega
    have hzero : xorBlk (E c) (Vector.ofFn fun _ => 0) = E c := by
      refine blk_ext fun i => ?_
      simp
    rw [hblocks, List.range_succ, List.foldl_append, foldl_steer E x c _ le_rfl, if_neg hpos]
    simp only [List.foldl_cons, List.foldl_nil, cbcStep, blockOf_steer_last, hzero]

end CounterMode
