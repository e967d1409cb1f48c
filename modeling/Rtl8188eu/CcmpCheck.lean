import Rtl8188eu.Ccmp
import Rtl8188eu.CounterMode
import Rtl8188eu.MemWindow

/-!
# The check of received CCMP frames

`aes_decipher` decrypts the payload of a frame in place, copies the frame to a static buffer,
computes the MIC there, encrypts the buffer again and compares the eight bytes behind the payload.
`CcmpExact` is what one expects : it accepts the frame exactly if the MIC is that of the decrypted
payload, and the payload is then in place.

It is off for two kinds of frames. The static buffer has 2048 bytes and a longer frame is not
copied, so the MIC is that of whatever frame was there before. And a frame with QoS control whose
header is not of 26 bytes, that is one with HT control, is taken to have a header that is two bytes
longer. All other frames are checked exactly, whatever the buffer had before (`ccmpExact_of_fits`).
For each of the two kinds there are frames with a wrong MIC that are accepted, and together this is
`ccmpExact_iff`.
-/

namespace Rtl8188eu

open CounterMode Mem

/-! ## What is read of the header -/

/-- The first 32 bytes at `p` and at `p'` are the same. -/
def SameHdr (m : Mem) (p : ℤ) (m' : Mem) (p' : ℤ) : Prop := ∀ i : ℕ, i < 32 → m (p + i) = m' (p' + i)

theorem nonceQos_congr {m m' : Mem} {p p' : ℤ} (h : SameHdr m p m' p') (qc a4 : Bool) :
    nonceQos qc a4 m p = nonceQos qc a4 m' p' := by
  have h24 : m (p + 24) = m' (p' + 24) := h 24 (by omega)
  have h30 : m (p + 30) = m' (p' + 30) := h 30 (by omega)
  rw [nonceQos, nonceQos, h24, h30]

/-- The nonce has the address of the transmitter. -/
theorem SameHdr.ta {m m' : Mem} {p p' : ℤ} (h : SameHdr m p m' p') :
    m (p + 10) = m' (p' + 10) ∧ m (p + 11) = m' (p' + 11) ∧ m (p + 12) = m' (p' + 12) ∧
      m (p + 13) = m' (p' + 13) ∧ m (p + 14) = m' (p' + 14) ∧ m (p + 15) = m' (p' + 15) :=
  ⟨h 10 (by omega), h 11 (by omega), h 12 (by omega), h 13 (by omega), h 14 (by omega),
    h 15 (by omega)⟩

theorem constructMicIv_congr {m m' : Mem} {p p' : ℤ} (h : SameHdr m p m' p') (qc a4 : Bool) (n : ℕ)
    (pn : Vector UInt8 6) : constructMicIv qc a4 m p n pn = constructMicIv qc a4 m' p' n pn := by
  obtain ⟨h10, h11, h12, h13, h14, h15⟩ := h.ta
  rw [constructMicIv, constructMicIv, nonceQos_congr h, h10, h11, h12, h13, h14, h15]

theorem constructCtrPreload_congr {m m' : Mem} {p p' : ℤ} (h : SameHdr m p m' p') (a4 qc : Bool)
    (pn : Vector UInt8 6) (c : ℕ) :
    constructCtrPreload a4 qc m p pn c = constructCtrPreload a4 qc m' p' pn c := by
  obtain ⟨h10, h11, h12, h13, h14, h15⟩ := h.ta
  rw [constructCtrPreload, constructCtrPreload, nonceQos_congr h, h10, h11, h12, h13, h14, h15]

/-- The bytes of the first eight that the header of the MIC and the packet number are taken from. -/
theorem eq_of_first_eight {m m' : Mem} {p p' : ℤ} (h : ∀ i : ℕ, i < 8 → m (p + i) = m' (p' + i)) :
    m p = m' p' ∧ m (p + 1) = m' (p' + 1) ∧ m (p + 4) = m' (p' + 4) ∧ m (p + 5) = m' (p' + 5) ∧
      m (p + 6) = m' (p' + 6) ∧ m (p + 7) = m' (p' + 7) :=
  ⟨by simpa using h 0 (by omega), h 1 (by omega), h 4 (by omega), h 5 (by omega), h 6 (by omega),
    h 7 (by omega)⟩

theorem constructMicHeader1_congr {m m' : Mem} {p p' : ℤ} (h : SameHdr m p m' p') (n : ℕ) :
    constructMicHeader1 n m p = constructMicHeader1 n m' p' := by
  obtain ⟨h10, h11, h12, h13, h14, h15⟩ := h.ta
  obtain ⟨h0, h1, h4, h5, h6, h7⟩ := eq_of_first_eight fun i hi => h i (by omega)
  have h8 : m (p + 8) = m' (p' + 8) := h 8 (by omega)
  have h9 : m (p + 9) = m' (p' + 9) := h 9 (by omega)
  rw [constructMicHeader1, constructMicHeader1, h0, h1, h4, h5, h6, h7, h8, h9, h10, h11, h12,
    h13, h14, h15]

theorem constructMicHeader2_congr {m m' : Mem} {p p' : ℤ} (h : SameHdr m p m' p') (a4 qc : Bool) :
    constructMicHeader2 m p a4 qc = constructMicHeader2 m' p' a4 qc := by
  have h16 : m (p + 16) = m' (p' + 16) := h 16 (by omega)
  have h17 : m (p + 17) = m' (p' + 17) := h 17 (by omega)
  have h18 : m (p + 18) = m' (p' + 18) := h 18 (by omega)
  have h19 : m (p + 19) = m' (p' + 19) := h 19 (by omega)
  have h20 : m (p + 20) = m' (p' + 20) := h 20 (by omega)
  have h21 : m (p + 21) = m' (p' + 21) := h 21 (by omega)
  have h24 : m (p + 24) = m' (p' + 24) := h 24 (by omega)
  have h25 : m (p + 25) = m' (p' + 25) := h 25 (by omega)
  have h30 : m (p + 30) = m' (p' + 30) := h 30 (by omega)
  have h31 : m (p + 31) = m' (p' + 31) := h 31 (by omega)
  have ha4 : ∀ i : ℕ, i < 6 → m (p + 24 + i) = m' (p' + 24 + i) := by
    intro i hi
    have hbyte := h (24 + i) (by omega)
    push_cast at hbyte
    rw [add_assoc, add_assoc, hbyte]
  rw [constructMicHeader2, constructMicHeader2, h16, h17, h18, h19, h20, h21, h24, h25, h30, h31]
  simp only [ha4 0 (by omega), ha4 1 (by omega), ha4 2 (by omega), ha4 3 (by omega),
    ha4 4 (by omega),
    ha4 5 (by omega)]

theorem ctrBlock_congr {m m' : Mem} {p p' : ℤ} (hs : SameHdr m p m' p') (key : Block) (h : CcmpHdr)
    (pn : Vector UInt8 6) : ctrBlock key h m p pn = ctrBlock key h m' p' pn := by
  funext c
  rw [ctrBlock, ctrBlock, constructCtrPreload_congr hs]

theorem pnVector_congr {m m' : Mem} {p p' : ℤ} (h : ∀ i : ℕ, i < 8 → m (p + i) = m' (p' + i)) :
    pnVector m p = pnVector m' p' := by
  obtain ⟨h0, h1, h4, h5, h6, h7⟩ := eq_of_first_eight h
  rw [pnVector, pnVector, h0, h1, h4, h5, h6, h7]

/-- A write behind the first 32 bytes leaves the header alone. -/
theorem sameHdr_write (m : Mem) {mpdu p : ℤ} (bs : List UInt8) (hp : mpdu + 32 ≤ p) :
    SameHdr (m.write p bs) mpdu m mpdu :=
  fun _ _ => Mem.write_of_disjoint m (Or.inl (by omega))

/-! ## The decryption -/

section Payload

variable {key : Block} {h : CcmpHdr} {mpdu : ℤ} {pn : Vector UInt8 6}

theorem get_bitwiseXor (a b : Block) (i : Fin 16) : (bitwiseXor a b).get i = a.get i ^^^ b.get i :=
  get_xorBlk a b i

theorem getD_toList (b : Block) {k : ℕ} (hk : k < 16) : b.toList.getD k 0 = b.get ⟨k, hk⟩ := by
  have hlen : k < b.toList.length := by simpa using hk
  rw [List.getD_eq_getElem?_getD, List.getElem?_eq_getElem hlen]
  simp [Vector.get]

/-- Key stream byte `k` behind the first `i` blocks. -/
theorem keyByte_block (S : ℕ → Blk) (i : ℕ) {k : ℕ} (hk : k < 16) :
    keyByte S (16 * i + k) = (S (i + 1)).get ⟨k, hk⟩ := by
  have hdiv : (16 * i + k) / 16 = i := by omega
  have hmod : (16 * i + k) % 16 = k := by omega
  simp only [keyByte, hdiv, hmod]

/-- The loop adds the key stream to the bytes of its blocks. -/
theorem ctrLoop_apply : ∀ (n i : ℕ) (p : ℤ) (m : Mem), mpdu + 32 ≤ p → ∀ a,
    ctrLoop key h mpdu pn n i p m a
      = if p ≤ a ∧ a < p + 16 * n then keyByte (ctrBlock key h m mpdu pn)
        (16 * i + (a - p).toNat) ^^^ m a
        else m a
  | 0, i, p, m, _, a => by
    rw [ctrLoop, if_neg (by omega)]
  | n + 1, i, p, m, hp, a => by
    have hsame := sameHdr_write m
      (bitwiseXor (ctrBlock key h m mpdu pn (i + 1)) (blockAt m p)).toList hp
    rw [ctrLoop, ctrLoop_apply n (i + 1) (p + 16) _ (by omega) a, ctrBlock_congr hsame]
    by_cases hblock : p ≤ a ∧ a < p + 16
    · -- the byte is in the block of this step
      obtain ⟨k, hk⟩ : ∃ k : ℕ, a = p + k := ⟨(a - p).toNat, by omega⟩
      have hk16 : k < 16 := by omega
      have hsub : (a - p).toNat = k := by omega
      rw [if_neg (by omega), if_pos (by push_cast; omega), hsub, keyByte_block _ i hk16, Mem.write,
        if_pos (by simpa using hblock), hsub, getD_toList _ hk16, get_bitwiseXor, blockAt,
        get_ofFn, hk]
    · have hother : (m.write p (bitwiseXor (ctrBlock key h m mpdu pn (i + 1)) (blockAt m p)).toList)
        a = m a := by
        refine Mem.write_of_disjoint m ?_
        simp only [Vector.length_toList]
        omega
      rw [hother]
      by_cases hin : p ≤ a ∧ a < p + 16 * ((n + 1 : ℕ) : ℤ)
      · have hsub : 16 * (i + 1) + (a - (p + 16)).toNat = 16 * i + (a - p).toNat := by
          push_cast at hin
          omega
        rw [if_pos (by push_cast at hin; omega), if_pos hin, hsub]
      · rw [if_neg (by push_cast at hin; omega), if_neg hin]

/-- Bytes of a text with the key stream added, stored over the text. -/
theorem write_ctr_apply (S : ℕ → Blk) (m : Mem) (p a : ℤ) (n : ℕ) :
    m.write p (ctr S (m.read p n)) a
      = if p ≤ a ∧ a < p + n then keyByte S (a - p).toNat ^^^ m a else m a := by
  rw [Mem.write]
  simp only [length_ctr, Mem.length_read]
  by_cases hin : p ≤ a ∧ a < p + n
  · have hlt : (a - p).toNat < (ctr S (m.read p n)).length := by
      simp only [length_ctr, Mem.length_read]
      omega
    have hpos : p + ((a - p).toNat : ℤ) = a := by omega
    rw [if_pos hin, if_pos hin, List.getD_eq_getElem?_getD, List.getElem?_eq_getElem hlt,
      Option.getD_some,
      getElem_ctr, List.get_eq_getElem, Mem.getElem_read, hpos]
  · rw [if_neg hin, if_neg hin]

/-- Behind the full blocks, the last bytes of the text are decrypted as a padded block. -/
theorem write_tail_apply (key : Block) (h : CcmpHdr) (mpdu : ℤ) (pn : Vector UInt8 6)
    (m : Mem) (p a : ℤ)
    (q : ℕ) {r : ℕ} (hr : r < 16) :
    m.write p ((bitwiseXor (ctrBlock key h m mpdu pn (q + 1)) (paddedAt m p r)).toList.take r) a
      = if p ≤ a ∧ a < p + r then keyByte (ctrBlock key h m mpdu pn)
        (16 * q + (a - p).toNat) ^^^ m a
        else m a := by
  rw [Mem.write]
  simp only [List.length_take, Vector.length_toList, min_eq_left (show r ≤ 16 by omega)]
  by_cases hin : p ≤ a ∧ a < p + r
  · obtain ⟨k, rfl⟩ : ∃ k : ℕ, a = p + k := ⟨(a - p).toNat, by omega⟩
    have hk : k < r := by omega
    have hsub : (p + (k : ℤ) - p).toNat = k := by omega
    have hbyte : (paddedAt m p r).get ⟨k, by omega⟩ = m (p + k) := by
      rw [paddedAt, get_ofFn, if_pos hk]
    rw [if_pos hin, if_pos hin, hsub, List.getD_eq_getElem?_getD, List.getElem?_take_of_lt hk,
      ← List.getD_eq_getElem?_getD, getD_toList _ (by omega), get_bitwiseXor, hbyte,
      keyByte_block _ q (by omega)]
  · rw [if_neg hin, if_neg hin]

/-- The decryption in place is counter mode on the bytes behind the IV. -/
theorem ctrPayload_eq (hh : 24 ≤ h.hdrlen) (n : ℕ) (m : Mem) :
    ctrPayload key h mpdu n pn m
      = m.write (mpdu + h.hdrlen + 8)
          (ctr (ctrBlock key h m mpdu pn) (m.read (mpdu + h.hdrlen + 8) n)) := by
  have hp : mpdu + 32 ≤ mpdu + h.hdrlen + 8 := by omega
  have hloop := @ctrLoop_apply key h mpdu pn (n / 16) 0 _ m hp
  have hsame : SameHdr (ctrLoop key h mpdu pn (n / 16) 0 (mpdu + h.hdrlen + 8) m) mpdu m mpdu := by
    intro i hi
    rw [hloop, if_neg (by omega)]
  funext a
  rw [write_ctr_apply]
  simp only [ctrPayload]
  by_cases hrem : n % 16 > 0
  · rw [if_pos hrem, write_tail_apply key h mpdu pn _ _ a (n / 16) (Nat.mod_lt n (by omega)),
      ctrBlock_congr hsame, hloop]
    by_cases htail : mpdu + h.hdrlen + 8 + 16 * ((n / 16 : ℕ) : ℤ) ≤ a ∧ a < mpdu + h.hdrlen + 8 + n
    · have hsub : 16 * (n / 16) + (a - (mpdu + h.hdrlen + 8 + 16 * ((n / 16 : ℕ) : ℤ))).toNat
          = (a - (mpdu + h.hdrlen + 8)).toNat := by omega
      rw [if_pos (by omega), if_neg (by omega), if_pos (by omega), hsub]
    · rw [if_neg (by omega)]
      simp only [Nat.mul_zero, Nat.zero_add]
      by_cases hin : mpdu + h.hdrlen + 8 ≤ a ∧ a < mpdu + h.hdrlen + 8 + 16 * ((n / 16 : ℕ) : ℤ)
      · rw [if_pos hin, if_pos (by omega)]
      · rw [if_neg hin, if_neg (by omega)]
  · have hblocks : 16 * (n / 16) = n := by omega
    have hcast : (16 : ℤ) * ((n / 16 : ℕ) : ℤ) = n := by exact_mod_cast hblocks
    rw [if_neg hrem, hloop, hcast, Nat.mul_zero, Nat.zero_add]

end Payload

/-! ## The MIC -/

/-- The sum of two texts, byte by byte, up to the length of the shorter one. -/
def xorText (a b : List UInt8) : List UInt8 := List.zipWith (· ^^^ ·) a b

/-- The chain of the MIC behind the three blocks that come from the header. -/
def micInit (key : Block) (h : CcmpHdr) (m : Mem) (mpdu : ℤ) (plen : ℕ) (pn : Vector UInt8 6) : Block :=
  let aesOut := aes128k128d key (constructMicIv h.qcExists h.a4Exists m mpdu plen pn)
  let aesOut := aes128k128d key (bitwiseXor aesOut (constructMicHeader1 h.hdrlen m mpdu))
  aes128k128d key (bitwiseXor aesOut (constructMicHeader2 m mpdu h.a4Exists h.qcExists))

/-- The MIC of CCM for a payload, as it is sent. -/
def ccmMic (key : Block) (h : CcmpHdr) (m : Mem) (mpdu : ℤ) (pn : Vector UInt8 6) (payload : List UInt8) :
    List UInt8 :=
  xorText (ctrBlock key h m mpdu pn 0).toList
    ((cbc (aes128k128d key) payload (micInit key h m mpdu payload.length pn)).toList.take 8)

theorem ccmMic_congr {m m' : Mem} {p p' : ℤ} (hs : SameHdr m p m' p') (key : Block) (h : CcmpHdr)
    (pn : Vector UInt8 6) (payload : List UInt8) :
    ccmMic key h m p pn payload = ccmMic key h m' p' pn payload := by
  simp only [ccmMic, micInit, ctrBlock_congr hs, constructMicIv_congr hs,
    constructMicHeader1_congr hs,
    constructMicHeader2_congr hs]

/-- The loop of the MIC with the last block taken apart. -/
theorem macLoop_succ (key : Block) (m : Mem) : ∀ (n : ℕ) (p : ℤ) (x : Block),
    macLoop key m (n + 1) p x
      = aes128k128d key (bitwiseXor (macLoop key m n p x) (blockAt m (p + 16 * n)))
  | 0, p, x => by
    simp [macLoop]
  | n + 1, p, x => by
    have hpos : p + 16 + 16 * (n : ℤ) = p + 16 * ((n + 1 : ℕ) : ℤ) := by
      push_cast
      ring
    rw [macLoop, macLoop_succ key m n, hpos]
    rfl

theorem blockOf_read (m : Mem) (p : ℤ) {n i : ℕ} (hi : i < n / 16) :
    blockOf (m.read p n) i = blockAt m (p + 16 * i) := by
  refine blk_ext fun j => ?_
  have hlt : 16 * i + (j : ℕ) < (m.read p n).length := by
    rw [Mem.length_read]
    omega
  rw [get_blockOf, blockAt, get_ofFn, List.getD_eq_getElem?_getD, List.getElem?_eq_getElem hlt,
    Option.getD_some, Mem.getElem_read]
  push_cast
  rw [add_assoc]

theorem blockOf_read_last (m : Mem) (p : ℤ) (n : ℕ) :
    blockOf (m.read p n) (n / 16) = paddedAt m (p + 16 * ((n / 16 : ℕ) : ℤ)) (n % 16) := by
  refine blk_ext fun j => ?_
  rw [get_blockOf, paddedAt, get_ofFn, List.getD_eq_getElem?_getD]
  by_cases hj : (j : ℕ) < n % 16
  · have hlt : 16 * (n / 16) + (j : ℕ) < (m.read p n).length := by
      rw [Mem.length_read]
      omega
    rw [if_pos hj, List.getElem?_eq_getElem hlt, Option.getD_some, Mem.getElem_read, add_assoc]
    push_cast
    rfl
  · have hge : (m.read p n).length ≤ 16 * (n / 16) + (j : ℕ) := by
      rw [Mem.length_read]
      omega
    rw [if_neg hj, List.getElem?_eq_none hge, Option.getD_none]

/-- The loop runs over the full blocks of the chain. -/
theorem macLoop_eq (key : Block) (m : Mem) (p : ℤ) (n : ℕ) (x : Block) : ∀ k, k ≤ n / 16 →
    macLoop key m k p x = (List.range k).foldl (cbcStep (aes128k128d key) (m.read p n)) x
  | 0, _ => rfl
  | k + 1, hk => by
    rw [macLoop_succ, macLoop_eq key m p n x k (by omega), List.range_succ, List.foldl_append]
    simp only [List.foldl_cons, List.foldl_nil, cbcStep,
      blockOf_read m p (show k < n / 16 by omega)]
    rfl

/-- The MIC that is computed is the end of the chain. -/
theorem calcMic_eq (key : Block) (h : CcmpHdr) (m : Mem) (mpdu : ℤ) (n : ℕ) (pn : Vector UInt8 6) :
    calcMic key h m mpdu n pn
      = (cbc (aes128k128d key) (m.read (mpdu + h.hdrlen + 8) n)
        (micInit key h m mpdu n pn)).toList.take 8 := by
  have hloop := macLoop_eq key m (mpdu + h.hdrlen + 8) n (micInit key h m mpdu n pn) (n / 16) le_rfl
  simp only [calcMic]
  rw [cbc, Mem.length_read]
  by_cases hrem : n % 16 > 0
  · have hblocks : (n + 15) / 16 = n / 16 + 1 := by omega
    rw [if_pos hrem, hblocks, List.range_succ, List.foldl_append, ← hloop]
    simp only [List.foldl_cons, List.foldl_nil, cbcStep, blockOf_read_last]
    rfl
  · have hblocks : (n + 15) / 16 = n / 16 := by omega
    rw [if_neg hrem, hblocks, ← hloop]
    rfl

theorem take_bitwiseXor {a b : Block} {mic : List UInt8} (hmic : mic.length = 8)
    (hb : ∀ i (hi : i < 8), b.get ⟨i, by omega⟩ = mic.getD i 0) :
    (bitwiseXor a b).toList.take 8 = xorText a.toList mic := by
  refine List.ext_getElem (by simp [xorText, hmic]) fun i hi hi' => ?_
  have hi8 : i < 8 := by
    simp only [List.length_take, Vector.length_toList] at hi
    omega
  have hget := get_bitwiseXor a b ⟨i, by omega⟩
  rw [hb i hi8, List.getD_eq_getElem?_getD, List.getElem?_eq_getElem (by omega),
    Option.getD_some] at hget
  rw [List.getElem_take, Vector.getElem_toList]
  simp only [xorText, List.getElem_zipWith, Vector.getElem_toList]
  exact hget

/-- The bytes behind the payload are the MIC with the first block of the key stream added. -/
theorem read_putMic {key : Block} {h : CcmpHdr} (hh : 24 ≤ h.hdrlen) (mpdu : ℤ) (n : ℕ)
    (pn : Vector UInt8 6) {mic : List UInt8} (hmic : mic.length = 8) (m : Mem) :
    (putMic key h mpdu n pn mic m).read (mpdu + h.hdrlen + 8 + n) 8
      = xorText (ctrBlock key h m mpdu pn 0).toList mic := by
  simp only [putMic, ctrPayload_eq hh]
  set m' := m.write (mpdu + h.hdrlen + 8 + n) mic with hm'
  set m'' := m'.write (mpdu + h.hdrlen + 8)
    (ctr (ctrBlock key h m' mpdu pn) (m'.read (mpdu + h.hdrlen + 8) n)) with hm''
  have hsame : SameHdr m'' mpdu m mpdu := fun i hi => by
    rw [hm'', sameHdr_write m' _ (by omega) i hi, hm', sameHdr_write m _ (by omega) i hi]
  have hbytes : ∀ i : ℕ, i < 8 → m'' (mpdu + h.hdrlen + 8 + n + i) = mic.getD i 0 := by
    intro i hi
    have hsub : (mpdu + h.hdrlen + 8 + (n : ℤ) + i - (mpdu + h.hdrlen + 8 + n)).toNat =
      i := by omega
    rw [hm'', Mem.write_of_disjoint _ (Or.inr (by simp only [length_ctr, Mem.length_read]; omega)),
      hm',
      Mem.write, if_pos (by omega), hsub]
  have hpad : ∀ i (hi : i < 8), (paddedAt m'' (mpdu + h.hdrlen + 8 + n) 8).get
    ⟨i, by omega⟩ = mic.getD i 0 := by
    intro i hi
    rw [paddedAt, get_ofFn, if_pos hi, hbytes i hi]
  rw [Mem.read_write_of_length _ _ (by simp), ctrBlock_congr hsame, take_bitwiseXor hmic hpad]

/-! ## What is checked -/

/-- The header of a frame, with the length it was received with. -/
def frameHdr (m : Mem) (pframe : ℤ) (hdrlen : ℕ) : CcmpHdr := { ccmpHdr m pframe hdrlen with hdrlen := hdrlen }

theorem hdrlen_eta {h : CcmpHdr} {n : ℕ} (hn : h.hdrlen = n) : { h with hdrlen := n } = h := by
  subst hn
  rfl

/-- The decrypted payload of a frame. -/
def ccmPayload (key : Block) (hdrlen : ℕ) (m : Mem) (pframe : ℤ) (plen : ℕ) : List UInt8 :=
  ctr (ctrBlock key (frameHdr m pframe hdrlen) m pframe (pnVector m (pframe + hdrlen)))
    (m.read (pframe + hdrlen + 8) (plen - 8))

/-- The MIC of the decrypted payload of a frame. -/
def frameMic (key : Block) (hdrlen : ℕ) (m : Mem) (pframe : ℤ) (plen : ℕ) : List UInt8 :=
  ccmMic key (frameHdr m pframe hdrlen) m pframe (pnVector m (pframe + hdrlen))
    (ccmPayload key hdrlen m pframe plen)

/-- The eight bytes at the end of a frame are the MIC of its decrypted payload. -/
def CcmMicOk (key : Block) (hdrlen : ℕ) (m : Mem) (pframe : ℤ) (plen : ℕ) : Prop :=
  m.read (pframe + hdrlen + plen) 8 = frameMic key hdrlen m pframe plen

/-- `aes_decipher` accepts the frame exactly if its MIC is right, and the payload is then decrypted
in place. -/
def CcmpExact (key : Block) (hdrlen : ℕ) (m : Mem) (pframe : ℤ) (plen : ℕ) (message : Mem) : Prop :=
  let r := aesDecipher key hdrlen m pframe plen message
  (r.1 = true ↔ CcmMicOk key hdrlen m pframe plen) ∧
    (r.1 = true → r.2.1.read (pframe + hdrlen + 8) (plen - 8) = ccmPayload key hdrlen m pframe plen)

/-! ## What is computed -/

section Decipher

variable (key : Block) {hdrlen plen : ℕ} (m : Mem) (pframe : ℤ) (message : Mem)

/-- The frame with the payload that `aes_decipher` finds decrypted. -/
def decrypted (hdrlen plen : ℕ) : Mem :=
  let h := ccmpHdr m pframe hdrlen
  m.write (pframe + h.hdrlen + 8)
    (ctr (ctrBlock key h m pframe (pnVector m (pframe + hdrlen)))
      (m.read (pframe + h.hdrlen + 8) (plen - 8)))

/-- The static buffer that the MIC is computed on. -/
def checkedMsg (hdrlen plen : ℕ) : Mem :=
  let h := ccmpHdr m pframe hdrlen
  if h.hdrlen + plen + 8 ≤ 2048 then
    message.write 0 ((decrypted key m pframe hdrlen plen).read pframe (h.hdrlen + plen + 8))
  else message

/-- The MIC that `aes_decipher` wants at the end of the frame. -/
def wantedMic (hdrlen plen : ℕ) : List UInt8 :=
  let h := ccmpHdr m pframe hdrlen
  let message := checkedMsg key m pframe message hdrlen plen
  ccmMic key h message 0 (pnVector m (pframe + h.hdrlen)) (message.read (h.hdrlen + 8) (plen - 8))

variable {key m pframe message}

theorem le_ccmpHdr (m : Mem) (pframe : ℤ) (hdrlen : ℕ) : hdrlen ≤ (ccmpHdr m pframe hdrlen).hdrlen ∧
    (ccmpHdr m pframe hdrlen).hdrlen ≤ hdrlen + 2 := by
  simp only [ccmpHdr]
  split_ifs <;> omega

/-- The static buffer in the end, with the MIC and the payload encrypted again. -/
def encryptedMsg (key : Block) (m : Mem) (pframe : ℤ) (message : Mem) (hdrlen plen : ℕ) : Mem :=
  let h := ccmpHdr m pframe hdrlen
  let message := checkedMsg key m pframe message hdrlen plen
  let pn := pnVector m (pframe + h.hdrlen)
  putMic key h 0 (plen - 8) pn (calcMic key h message 0 (plen - 8) pn) message

/-- `aes_decipher` decrypts, encrypts the static buffer, and compares both at the end of the
frame. -/
theorem aesDecipher_eq (hh : 24 ≤ hdrlen) (hp : 8 ≤ plen) (hl : hdrlen + plen + 10 < 4294967296) :
    aesDecipher key hdrlen m pframe plen message
      = (decide (m.read (pframe + (ccmpHdr m pframe hdrlen).hdrlen + plen) 8
          = (encryptedMsg key m pframe message hdrlen plen).read
            ((ccmpHdr m pframe hdrlen).hdrlen + plen) 8),
        decrypted key m pframe hdrlen plen, encryptedMsg key m pframe message hdrlen plen) := by
  obtain ⟨hle, hlt⟩ := le_ccmpHdr m pframe hdrlen
  have hn : u32 ((plen : ℤ) - 8) = plen - 8 := by
    rw [u32]
    omega
  have hlen : u32 (((ccmpHdr m pframe hdrlen).hdrlen : ℤ) + plen + 8)
      = (ccmpHdr m pframe hdrlen).hdrlen + plen + 8 := by
    rw [u32]
    omega
  have hpos : u32 (((ccmpHdr m pframe hdrlen).hdrlen : ℤ) + plen) =
    (ccmpHdr m pframe hdrlen).hdrlen + plen := by
    rw [u32]
    omega
  have hdec : ctrPayload key (ccmpHdr m pframe hdrlen) pframe (plen - 8)
    (pnVector m (pframe + hdrlen)) m
      = decrypted key m pframe hdrlen plen := ctrPayload_eq (by omega) _ _
  have hpn : pnVector (decrypted key m pframe hdrlen plen)
    (pframe + (ccmpHdr m pframe hdrlen).hdrlen)
      = pnVector m (pframe + (ccmpHdr m pframe hdrlen).hdrlen) :=
    pnVector_congr fun i hi => Mem.write_of_disjoint m (by omega)
  have hmic : (decrypted key m pframe hdrlen plen).read
        (pframe + ((ccmpHdr m pframe hdrlen).hdrlen + plen : ℕ)) 8
      = m.read (pframe + (ccmpHdr m pframe hdrlen).hdrlen + plen) 8 := by
    rw [decrypted, Nat.cast_add, ← add_assoc]
    refine Mem.read_write_of_disjoint m (Or.inr ?_)
    simp only [length_ctr, Mem.length_read]
    omega
  simp only [aesDecipher, hn, hlen, hpos, hdec, hpn, hmic]
  rw [← checkedMsg, Nat.cast_add, ← encryptedMsg]

/-- The end of the static buffer is the MIC that is wanted. -/
theorem read_encryptedMsg (hh : 24 ≤ hdrlen) (hp : 8 ≤ plen) :
    (encryptedMsg key m pframe message hdrlen plen).read ((ccmpHdr m pframe hdrlen).hdrlen + plen) 8
      = wantedMic key m pframe message hdrlen plen := by
  obtain ⟨hle, hlt⟩ := le_ccmpHdr m pframe hdrlen
  have hat : ((ccmpHdr m pframe hdrlen).hdrlen : ℤ) + plen
      = 0 + (ccmpHdr m pframe hdrlen).hdrlen + 8 + (plen - 8 : ℕ) := by omega
  have hmic8 : (calcMic key (ccmpHdr m pframe hdrlen)
    (checkedMsg key m pframe message hdrlen plen) 0
      (plen - 8) (pnVector m (pframe + (ccmpHdr m pframe hdrlen).hdrlen))).length = 8 := by
    simp [calcMic]
  have hput := @read_putMic key (ccmpHdr m pframe hdrlen) (by omega) 0 (plen - 8)
    (pnVector m (pframe + (ccmpHdr m pframe hdrlen).hdrlen)) _ hmic8
    (checkedMsg key m pframe message hdrlen plen)
  rw [encryptedMsg, hat, hput, calcMic_eq]
  simp only [wantedMic, ccmMic, Mem.length_read, zero_add]

/-- `aes_decipher` decrypts, and compares the end of the frame. -/
theorem aesDecipher_spec (hh : 24 ≤ hdrlen) (hp : 8 ≤ plen) (hl : hdrlen + plen + 10 < 4294967296) :
    ((aesDecipher key hdrlen m pframe plen message).1 = true ↔
        m.read (pframe + (ccmpHdr m pframe hdrlen).hdrlen + plen) 8
          = wantedMic key m pframe message hdrlen plen) ∧
      (aesDecipher key hdrlen m pframe plen message).2.1 = decrypted key m pframe hdrlen plen := by
  rw [aesDecipher_eq hh hp hl]
  simp only [decide_eq_true_eq, and_true]
  rw [read_encryptedMsg hh hp]

/-- A frame that fits in the static buffer is checked on its own bytes. -/
theorem wantedMic_of_fits (hh : 24 ≤ hdrlen) (hp : 8 ≤ plen)
    (hfit : (ccmpHdr m pframe hdrlen).hdrlen + plen + 8 ≤ 2048) :
    wantedMic key m pframe message hdrlen plen
      = ccmMic key (ccmpHdr m pframe hdrlen) m pframe
        (pnVector m (pframe + (ccmpHdr m pframe hdrlen).hdrlen))
          (ctr (ctrBlock key (ccmpHdr m pframe hdrlen) m pframe (pnVector m (pframe + hdrlen)))
            (m.read (pframe + (ccmpHdr m pframe hdrlen).hdrlen + 8) (plen - 8))) := by
  obtain ⟨hle, hlt⟩ := le_ccmpHdr m pframe hdrlen
  have hbyte : ∀ i : ℕ, i < (ccmpHdr m pframe hdrlen).hdrlen + plen + 8 →
      checkedMsg key m pframe message hdrlen plen i =
        decrypted key m pframe hdrlen plen (pframe + i) := by
    intro i hi
    have hsub : ((i : ℤ) - 0).toNat = i := by omega
    have hread : i < ((decrypted key m pframe hdrlen plen).read pframe
        ((ccmpHdr m pframe hdrlen).hdrlen + plen + 8)).length := by simpa using hi
    simp only [checkedMsg, if_pos hfit]
    rw [Mem.write, if_pos (by simp only [Mem.length_read]; omega), hsub, List.getD_eq_getElem?_getD,
      List.getElem?_eq_getElem hread, Option.getD_some, Mem.getElem_read]
  have hsame : SameHdr (checkedMsg key m pframe message hdrlen plen) 0 m pframe := fun i hi => by
    rw [zero_add, hbyte i (by omega), decrypted]
    exact sameHdr_write m _ (by omega) i hi
  have hpay : (checkedMsg key m pframe message hdrlen plen).read
    ((ccmpHdr m pframe hdrlen).hdrlen + 8) (plen - 8)
      = ctr (ctrBlock key (ccmpHdr m pframe hdrlen) m pframe (pnVector m (pframe + hdrlen)))
          (m.read (pframe + (ccmpHdr m pframe hdrlen).hdrlen + 8) (plen - 8)) := by
    have hcopy : (checkedMsg key m pframe message hdrlen plen).read
      ((ccmpHdr m pframe hdrlen).hdrlen + 8) (plen - 8)
        = (decrypted key m pframe hdrlen plen).read (pframe + (ccmpHdr m pframe hdrlen).hdrlen + 8)
          (plen - 8) := by
      refine Mem.read_congr fun i hi => ?_
      have h := hbyte ((ccmpHdr m pframe hdrlen).hdrlen + 8 + i) (by omega)
      push_cast at h
      rw [h, add_assoc, add_assoc, add_assoc]
    rw [hcopy, decrypted]
    exact Mem.read_write_of_length m _ (by simp)
  rw [wantedMic, ccmMic_congr hsame, hpay]

/-- A longer frame is checked on what the static buffer had before. -/
theorem wantedMic_of_long (hlong : 2048 < (ccmpHdr m pframe hdrlen).hdrlen + plen + 8) :
    wantedMic key m pframe message hdrlen plen
      = ccmMic key (ccmpHdr m pframe hdrlen) message 0
        (pnVector m (pframe + (ccmpHdr m pframe hdrlen).hdrlen))
          (message.read ((ccmpHdr m pframe hdrlen).hdrlen + 8) (plen - 8)) := by
  rw [wantedMic, checkedMsg, if_neg (by omega)]

/-- A frame that fits in the static buffer, with the header length that `aes_decipher` takes, is
checked exactly. -/
theorem ccmpExact_of_fits (hh : 24 ≤ hdrlen) (hp : 8 ≤ plen)
    (hhdr : (ccmpHdr m pframe hdrlen).hdrlen = hdrlen) (hfit : hdrlen + plen + 8 ≤ 2048) :
    CcmpExact key hdrlen m pframe plen message := by
  obtain ⟨hverdict, hdec⟩ := @aesDecipher_spec key hdrlen plen m pframe message hh hp (by omega)
  have hframe : frameHdr m pframe hdrlen = ccmpHdr m pframe hdrlen := hdrlen_eta hhdr
  have hwanted := @wantedMic_of_fits key hdrlen plen m pframe message hh hp (by omega)
  rw [hhdr] at hverdict hwanted
  refine ⟨?_, fun _ => ?_⟩
  · rw [hverdict, hwanted, CcmMicOk, frameMic, ccmPayload, hframe]
  · rw [hdec, decrypted, ccmPayload, hframe, hhdr]
    exact Mem.read_write_of_length m _ (by simp)

end Decipher

/-! ## Wrong frames that are accepted -/

section Fooled

variable {key : Block} {hdrlen plen : ℕ} {m m' : Mem} {pframe : ℤ} {message : Mem}

/-- A frame with a wrong MIC is accepted. -/
def Fooled (key : Block) (hdrlen : ℕ) (m : Mem) (pframe : ℤ) (plen : ℕ) (message : Mem) : Prop :=
  (aesDecipher key hdrlen m pframe plen message).1 = true ∧ ¬CcmMicOk key hdrlen m pframe plen

theorem Fooled.not_exact (h : Fooled key hdrlen m pframe plen message) :
    ¬CcmpExact key hdrlen m pframe plen message :=
  fun hexact => h.2 (hexact.1.1 h.1)

theorem sameHdr_of_sameOn {n : ℕ} (h : SameOn pframe n m m') (hn : 32 ≤ n) :
    SameHdr m pframe m' pframe :=
  fun i hi => h i (by omega)

theorem pnVector_of_sameOn {n : ℕ} (h : SameOn pframe n m m') {k : ℕ} (hn : k + 8 ≤ n) :
    pnVector m (pframe + k) = pnVector m' (pframe + k) := by
  refine pnVector_congr fun i hi => ?_
  have hbyte := h (k + i) (by omega)
  push_cast at hbyte
  rw [add_assoc, hbyte]

theorem ccmpHdr_of_sameOn {n : ℕ} (h : SameOn pframe n m m') (hn : 2 ≤ n) (hdrlen : ℕ) :
    ccmpHdr m pframe hdrlen = ccmpHdr m' pframe hdrlen := by
  have h0 : m pframe = m' pframe := by simpa using h 0 (by omega)
  have h1 : m (pframe + 1) = m' (pframe + 1) := h 1 (by omega)
  have hle : m.le16 pframe = m'.le16 pframe := by rw [Mem.le16, Mem.le16, h0, h1]
  rw [ccmpHdr, ccmpHdr, getFrameType, getFrameType, getFrameSubType, getFrameSubType, hle]

theorem frameHdr_of_sameOn {n : ℕ} (h : SameOn pframe n m m') (hn : 2 ≤ n) (hdrlen : ℕ) :
    frameHdr m pframe hdrlen = frameHdr m' pframe hdrlen := by
  rw [frameHdr, frameHdr, ccmpHdr_of_sameOn h hn]

/-- The MIC of a frame does not depend on what is behind its payload. -/
theorem frameMic_congr (hh : 24 ≤ hdrlen) (hp : 8 ≤ plen) (h : SameOn pframe (hdrlen + plen) m m') :
    frameMic key hdrlen m pframe plen = frameMic key hdrlen m' pframe plen := by
  have hsame := sameHdr_of_sameOn h (by omega)
  have hread : m.read (pframe + hdrlen + 8) (plen - 8) = m'.read (pframe + hdrlen + 8) (plen - 8) :=
    h.read (by omega) (by omega)
  rw [frameMic, frameMic, ccmPayload, ccmPayload, frameHdr_of_sameOn h (by omega),
    pnVector_of_sameOn h (show hdrlen + 8 ≤ _ by omega), ccmMic_congr hsame, ctrBlock_congr
    hsame, hread]

/-- Nor does the MIC that is wanted depend on what is behind the payload that is decrypted. -/
theorem wantedMic_congr (hh : 24 ≤ hdrlen) (hp : 8 ≤ plen)
    (h : SameOn pframe ((ccmpHdr m pframe hdrlen).hdrlen + plen) m m') :
    wantedMic key m pframe message hdrlen plen = wantedMic key m' pframe message hdrlen plen := by
  obtain ⟨hle, hlt⟩ := le_ccmpHdr m pframe hdrlen
  have hsame := sameHdr_of_sameOn h (by omega)
  have hhdr := ccmpHdr_of_sameOn h (by omega) hdrlen
  have hpn := pnVector_of_sameOn h (show (ccmpHdr m pframe hdrlen).hdrlen + 8 ≤ _ by omega)
  have hpn0 := pnVector_of_sameOn h (show hdrlen + 8 ≤ _ by omega)
  by_cases hfit : (ccmpHdr m pframe hdrlen).hdrlen + plen + 8 ≤ 2048
  · have hread : m.read (pframe + (ccmpHdr m pframe hdrlen).hdrlen + 8) (plen - 8)
        = m'.read (pframe + (ccmpHdr m pframe hdrlen).hdrlen + 8) (plen - 8) :=
          h.read (by omega) (by omega)
    rw [wantedMic_of_fits hh hp hfit, wantedMic_of_fits hh hp (by rw [← hhdr]; exact hfit),
      hpn, hpn0,
      ccmMic_congr hsame, ctrBlock_congr hsame, hread, hhdr]
  · rw [wantedMic_of_long (by omega), wantedMic_of_long (by rw [← hhdr]; omega), hpn, hhdr]

theorem length_ccmMic (key : Block) (h : CcmpHdr) (m : Mem) (mpdu : ℤ) (pn : Vector UInt8 6)
    (payload : List UInt8) : (ccmMic key h m mpdu pn payload).length = 8 := by
  simp [ccmMic, xorText]

theorem length_wantedMic (key : Block) (m : Mem) (pframe : ℤ) (message : Mem) (hdrlen plen : ℕ) :
    (wantedMic key m pframe message hdrlen plen).length = 8 := length_ccmMic _ _ _ _ _ _

/-- Every frame is accepted with the wanted MIC behind the payload that is decrypted. -/
theorem aesDecipher_write_wantedMic (hh : 24 ≤ hdrlen) (hp : 8 ≤ plen)
    (hl : hdrlen + plen + 10 < 4294967296) :
    (aesDecipher key hdrlen (m.write (pframe + (ccmpHdr m pframe hdrlen).hdrlen + plen)
      (wantedMic key m pframe message hdrlen plen)) pframe plen message).1 = true := by
  obtain ⟨hle, hlt⟩ := le_ccmpHdr m pframe hdrlen
  have hstart := sameOn_write m (wantedMic key m pframe message hdrlen plen)
    (show pframe + ((ccmpHdr m pframe hdrlen).hdrlen + plen : ℕ)
      ≤ pframe + (ccmpHdr m pframe hdrlen).hdrlen + plen by omega)
  have hlen := length_wantedMic key m pframe message hdrlen plen
  have hhdr := ccmpHdr_of_sameOn hstart (by omega) hdrlen
  have hwanted : wantedMic key (m.write (pframe + (ccmpHdr m pframe hdrlen).hdrlen + plen)
      (wantedMic key m pframe message hdrlen plen)) pframe message hdrlen plen
        = wantedMic key m pframe message hdrlen plen :=
    wantedMic_congr hh hp (by rw [hhdr]; exact hstart)
  rw [(aesDecipher_spec hh hp hl).1, hwanted, hhdr]
  exact Mem.read_write_of_length m _ hlen

/-- If the MIC that is wanted is not that of the frame, the frame with the wanted MIC is
accepted. -/
theorem fooled_of_frameMic_ne (hh : 24 ≤ hdrlen) (hp : 8 ≤ plen)
    (hl : hdrlen + plen + 10 < 4294967296)
    (hhdr : (ccmpHdr m pframe hdrlen).hdrlen = hdrlen)
    (hne : wantedMic key m pframe message hdrlen plen ≠ frameMic key hdrlen m pframe plen) :
    Fooled key hdrlen (m.write (pframe + hdrlen + plen)
      (wantedMic key m pframe message hdrlen plen)) pframe
      plen message := by
  have haccept := @aesDecipher_write_wantedMic key hdrlen plen m pframe message hh hp hl
  rw [hhdr] at haccept
  refine ⟨haccept, fun hok => hne ?_⟩
  have hstart := sameOn_write m (wantedMic key m pframe message hdrlen plen)
    (show pframe + ((hdrlen + plen : ℕ) : ℤ) ≤ pframe + hdrlen + plen by omega)
  rw [CcmMicOk, frameMic_congr hh hp hstart,
    Mem.read_write_of_length m _ (length_wantedMic key m pframe message hdrlen plen)] at hok
  exact hok

/-- A header that is taken to be two bytes longer than it is leaves the first byte of the MIC
unchecked. -/
theorem exists_fooled_of_hdrlen (key : Block) (message m : Mem) (hh : 24 ≤ hdrlen) (hp : 8 ≤ plen)
    (hl : hdrlen + plen + 10 < 4294967296) (hhdr : (ccmpHdr m pframe hdrlen).hdrlen = hdrlen + 2) :
    ∃ m', SameOn pframe (hdrlen + plen) m' m ∧ Fooled key hdrlen m' pframe plen message := by
  -- the first byte of the MIC is wrong
  let m₁ := m.write (pframe + hdrlen + plen) [(frameMic key hdrlen m pframe plen).headD 0 + 1]
  have hstart₁ : SameOn pframe (hdrlen + plen) m₁ m := sameOn_write m _ (by push_cast; omega)
  have hhdr₁ : (ccmpHdr m₁ pframe hdrlen).hdrlen = hdrlen + 2 := by
    rw [ccmpHdr_of_sameOn hstart₁ (by omega), hhdr]
  let m₂ := m₁.write (pframe + (hdrlen + 2 : ℕ) + plen)
    (wantedMic key m₁ pframe message hdrlen plen)
  have haccept : (aesDecipher key hdrlen m₂ pframe plen message).1 = true := by
    have h := @aesDecipher_write_wantedMic key hdrlen plen m₁ pframe message hh hp hl
    rw [hhdr₁] at h
    exact h
  have hstart₂ : SameOn pframe (hdrlen + 1 + plen) m₂ m₁ := sameOn_write m₁ _ (by push_cast; omega)
  have hstart : SameOn pframe (hdrlen + plen) m₂ m :=
    fun i hi => (hstart₂ i (by omega)).trans (hstart₁ i hi)
  refine ⟨m₂, hstart, haccept, fun hok => ?_⟩
  have hbyte : m₂ (pframe + hdrlen + plen) = (frameMic key hdrlen m pframe plen).headD 0 + 1 := by
    have h := hstart₂ (hdrlen + plen) (by omega)
    push_cast at h
    rw [← add_assoc] at h
    rw [h]
    simp [m₁, Mem.write]
  have hhead : m₂ (pframe + hdrlen + plen) = (frameMic key hdrlen m pframe plen).headD 0 := by
    have h := congrArg (fun bs => bs.headD 0) hok
    rw [frameMic_congr hh hp hstart] at h
    exact h
  rw [hhead] at hbyte
  simp at hbyte

theorem xorText_cancel {a x y : List UInt8} (ha : 8 ≤ a.length) (hx : x.length = 8)
    (hy : y.length = 8)
    (h : xorText a x = xorText a y) : x = y := by
  refine List.ext_getElem (by omega) fun i hi hi' => ?_
  have hbyte := congrArg (fun bs => bs.getD i 0) h
  simp only [xorText, List.getD_eq_getElem?_getD, List.getElem?_zipWith,
    List.getElem?_eq_getElem hi,
    List.getElem?_eq_getElem hi', List.getElem?_eq_getElem (show i < a.length by omega),
    Option.getD_some] at hbyte
  exact (UInt8.xor_right_inj _).1 hbyte

/-- The MIC of the frame that has the payload `payload` encrypted. -/
theorem frameMic_write_ctr (key : Block) (m : Mem) (pframe : ℤ) {payload : List UInt8}
    (hh : 24 ≤ hdrlen)
    (hlen : payload.length = plen - 8) :
    frameMic key hdrlen (m.write (pframe + hdrlen + 8)
        (ctr (ctrBlock key (frameHdr m pframe hdrlen) m pframe (pnVector m (pframe + hdrlen)))
        payload)) pframe plen
      = ccmMic key (frameHdr m pframe hdrlen) m pframe (pnVector m (pframe + hdrlen)) payload := by
  have hstart := sameOn_write m
    (ctr (ctrBlock key (frameHdr m pframe hdrlen) m pframe (pnVector m (pframe + hdrlen))) payload)
    (show pframe + ((hdrlen + 8 : ℕ) : ℤ) ≤ pframe + hdrlen + 8 by omega)
  have hsame := sameHdr_of_sameOn hstart (by omega)
  have hread := Mem.read_write_of_length m (pframe + hdrlen + 8) (show (ctr (ctrBlock key
    (frameHdr m pframe hdrlen) m pframe (pnVector m (pframe + hdrlen))) payload).length =
    plen - 8 by simpa using hlen)
  rw [frameMic, ccmPayload, ctrBlock_congr hsame, ccmMic_congr hsame, hread,
    pnVector_of_sameOn hstart le_rfl,
    frameHdr_of_sameOn hstart (by omega), ctr_ctr]

/-- The key of zeroes. -/
def nullKey : Block := Vector.replicate 16 0

/-- The round keys of the key of zeroes, but for the last one. -/
def nullRoundKeys : List Block :=
  [#v[0x62, 0x63, 0x63, 0x63, 0x62, 0x63, 0x63, 0x63, 0x62, 0x63, 0x63, 0x63, 0x62, 0x63, 0x63, 0x63],
    #v[0x9b, 0x98, 0x98, 0xc9, 0xf9, 0xfb, 0xfb, 0xaa, 0x9b, 0x98, 0x98, 0xc9, 0xf9, 0xfb, 0xfb, 0xaa],
    #v[0x90, 0x97, 0x34, 0x50, 0x69, 0x6c, 0xcf, 0xfa, 0xf2, 0xf4, 0x57, 0x33, 0x0b, 0x0f, 0xac, 0x99],
    #v[0xee, 0x06, 0xda, 0x7b, 0x87, 0x6a, 0x15, 0x81, 0x75, 0x9e, 0x42, 0xb2, 0x7e, 0x91, 0xee, 0x2b],
    #v[0x7f, 0x2e, 0x2b, 0x88, 0xf8, 0x44, 0x3e, 0x09, 0x8d, 0xda, 0x7c, 0xbb, 0xf3, 0x4b, 0x92, 0x90],
    #v[0xec, 0x61, 0x4b, 0x85, 0x14, 0x25, 0x75, 0x8c, 0x99, 0xff, 0x09, 0x37, 0x6a, 0xb4, 0x9b, 0xa7],
    #v[0x21, 0x75, 0x17, 0x87, 0x35, 0x50, 0x62, 0x0b, 0xac, 0xaf, 0x6b, 0x3c, 0xc6, 0x1b, 0xf0, 0x9b],
    #v[0x0e, 0xf9, 0x03, 0x33, 0x3b, 0xa9, 0x61, 0x38, 0x97, 0x06, 0x0a, 0x04, 0x51, 0x1d, 0xfa, 0x9f],
    #v[0xb1, 0xd4, 0xd8, 0xe2, 0x8a, 0x7d, 0xb9, 0xda, 0x1d, 0x7b, 0xb3, 0xde, 0x4c, 0x66, 0x49, 0x41]]

/-- The last round key of the key of zeroes. -/
def nullLastKey : Block :=
  #v[0xb4, 0xef, 0x5b, 0xcb, 0x3e, 0x92, 0xe2, 0x11, 0x23, 0xe9, 0x51, 0xcf, 0x6f, 0x8f, 0x18, 0x8e]

/-- The key of zeroes expanded. -/
def nullSchedule : {keys : List Block // schedule 10 0 nullKey = keys ++ [nullLastKey]} :=
  ⟨nullRoundKeys, by decide +kernel⟩

theorem aes128k128d_nullKey (data : Block) :
    aes128k128d nullKey data = encrypt nullRoundKeys nullLastKey (bitwiseXor nullKey data) :=
  aes128k128d_eq_encrypt nullSchedule.property data

/-- Two inputs of the cipher that can be told apart by the first eight bytes, after one round of the
chain and after two. -/
theorem exists_aes_ne : ∃ c c' : Block,
    (aes128k128d nullKey c).toList.take 8 ≠ (aes128k128d nullKey c').toList.take 8 ∧
      (aes128k128d nullKey (aes128k128d nullKey c)).toList.take 8
        ≠ (aes128k128d nullKey (aes128k128d nullKey c')).toList.take 8 := by
  let x : Block := #v[0x66, 0xe9, 0x4b, 0xd4, 0xef, 0x8a, 0x2c, 0x3b, 0x88, 0x4c, 0xfa, 0x59, 0xca,
    0x34, 0x2b, 0x2e]
  let y : Block := #v[0xf7, 0x95, 0xbd, 0x4a, 0x52, 0xe2, 0x9e, 0xd7, 0x13, 0xd3, 0x13, 0xfa, 0x20,
    0xe9, 0x8d, 0xbc]
  let z : Block := #v[0xa1, 0x0c, 0xf6, 0x6d, 0x0f, 0xdd, 0xf3, 0x40, 0x53, 0x70, 0xb4, 0xbf, 0x8d,
    0xf5, 0xbf, 0xb3]
  have hx : aes128k128d nullKey nullKey = x := by
    rw [aes128k128d_nullKey]
    decide +kernel
  have hy : aes128k128d nullKey x = y := by
    rw [aes128k128d_nullKey]
    decide +kernel
  have hz : aes128k128d nullKey y = z := by
    rw [aes128k128d_nullKey]
    decide +kernel
  refine ⟨nullKey, x, ?_, ?_⟩
  · rw [hx, hy]
    decide
  · rw [hx, hy, hz]
    decide

/-- There are payloads with different MICs. -/
theorem exists_ccmMic_ne (h : CcmpHdr) (m : Mem) (mpdu : ℤ) (pn : Vector UInt8 6) {n : ℕ}
    (hn : 16 ≤ n)
    (mic : List UInt8) :
    ∃ payload : List UInt8, payload.length = n ∧ mic ≠ ccmMic nullKey h m mpdu pn payload := by
  obtain ⟨c, c', hne1, hne2⟩ := exists_aes_ne
  obtain ⟨xs, hlen, hcbc⟩ := exists_cbc (aes128k128d nullKey) (micInit nullKey h m mpdu n pn) c hn
  obtain ⟨xs', hlen', hcbc'⟩ :=
    exists_cbc (aes128k128d nullKey) (micInit nullKey h m mpdu n pn) c' hn
  by_contra hall
  have heq : ∀ payload : List UInt8, payload.length = n →
    mic = ccmMic nullKey h m mpdu pn payload :=
    fun payload hpay => by_contra fun hne => hall ⟨payload, hpay, hne⟩
  have hmic := (heq xs hlen).symm.trans (heq xs' hlen')
  rw [ccmMic, ccmMic, hlen, hlen', hcbc, hcbc'] at hmic
  have htake := xorText_cancel (by simp) (by simp) (by simp) hmic
  split_ifs at htake with hmod
  · exact hne1 htake
  · exact hne2 htake

/-- A frame that is not copied to the static buffer can have any payload. -/
theorem exists_fooled_of_long (message m : Mem) (hh : 24 ≤ hdrlen) (hh' : hdrlen ≤ 30)
    (hp : 8 ≤ plen)
    (hl : hdrlen + plen + 10 < 4294967296) (hhdr : (ccmpHdr m pframe hdrlen).hdrlen = hdrlen)
    (hlong : 2048 < hdrlen + plen + 8) :
    ∃ m', SameOn pframe (hdrlen + 8) m' m ∧ Fooled nullKey hdrlen m' pframe plen message := by
  obtain ⟨payload, hlen, hne⟩ := exists_ccmMic_ne (frameHdr m pframe hdrlen) m pframe
    (pnVector m (pframe + hdrlen)) (show 16 ≤ plen - 8 by omega)
      (wantedMic nullKey m pframe message hdrlen plen)
  rw [← frameMic_write_ctr nullKey m pframe hh hlen] at hne
  set m₁ := m.write (pframe + hdrlen + 8)
    (ctr (ctrBlock nullKey (frameHdr m pframe hdrlen) m pframe (pnVector m (pframe + hdrlen)))
      payload) with hm₁
  have hstart₁ : SameOn pframe (hdrlen + 8) m₁ m := sameOn_write m _ (by push_cast; omega)
  have hhdr₁ : (ccmpHdr m₁ pframe hdrlen).hdrlen = hdrlen := by
    rw [ccmpHdr_of_sameOn hstart₁ (by omega), hhdr]
  have hwanted : wantedMic nullKey m₁ pframe message hdrlen plen =
    wantedMic nullKey m pframe message hdrlen plen := by
    rw [wantedMic_of_long (by omega), wantedMic_of_long (by omega), hhdr₁, hhdr,
      ccmpHdr_of_sameOn hstart₁ (by omega),
      pnVector_of_sameOn hstart₁ le_rfl]
  rw [← hwanted] at hne
  refine ⟨_, ?_, fooled_of_frameMic_ne hh hp hl hhdr₁ hne⟩
  intro i hi
  rw [← hstart₁ i hi]
  exact Mem.write_of_disjoint m₁ (Or.inl (by omega))

end Fooled

/-! ## Which frames are checked exactly -/

section Exact

variable {hdrlen plen : ℕ} {q : Bool}

/-- The header that `aes_decipher` takes is two bytes longer if the frame has QoS control and its
header is not of 26 bytes. -/
theorem ccmpHdr_hdrlen (m : Mem) (pframe : ℤ) (hdrlen : ℕ) : (ccmpHdr m pframe hdrlen).hdrlen
    = if (ccmpHdr m pframe hdrlen).qcExists = true ∧ hdrlen ≠ 26 then hdrlen + 2 else hdrlen := by
  simp [ccmpHdr]

/-- A data frame, with QoS control or without. -/
def dataHdr (q : Bool) (pframe : ℤ) : Mem := fun a => if a = pframe then (if q then 0x88 else 0x08) else 0

theorem qcExists_dataHdr (q : Bool) (pframe : ℤ) (hdrlen : ℕ) :
    (ccmpHdr (dataHdr q pframe) pframe hdrlen).qcExists = q := by
  have h0 : dataHdr q pframe pframe = if q then 0x88 else 0x08 := by simp [dataHdr]
  have h1 : dataHdr q pframe (pframe + 1) = 0 := by simp [dataHdr]
  simp only [ccmpHdr, getFrameType, getFrameSubType, Mem.le16, h0, h1]
  cases q <;> decide

/-- If the frame is too long for the static buffer or has QoS control and not a header of 26 bytes,
a wrong frame of the same kind is accepted. -/
theorem exists_fooled (q : Bool) (pframe : ℤ) (message : Mem) (hh : 24 ≤ hdrlen) (hh' : hdrlen ≤ 30)
    (hp : 8 ≤ plen) (hl : hdrlen + plen + 10 < 4294967296)
    (hbad : ¬((q = true → hdrlen = 26) ∧ hdrlen + plen + 8 ≤ 2048)) :
    ∃ key m, (ccmpHdr m pframe hdrlen).qcExists = q ∧ Fooled key hdrlen m pframe plen message := by
  have hqc := qcExists_dataHdr q pframe hdrlen
  have hhdr := ccmpHdr_hdrlen (dataHdr q pframe) pframe hdrlen
  rw [hqc] at hhdr
  by_cases hqos : q = true ∧ hdrlen ≠ 26
  · rw [if_pos hqos] at hhdr
    obtain ⟨m', hstart, hfool⟩ :=
      exists_fooled_of_hdrlen nullKey message (dataHdr q pframe) hh hp hl hhdr
    exact ⟨nullKey, m', by rw [ccmpHdr_of_sameOn hstart (by omega), hqc], hfool⟩
  · rw [if_neg hqos] at hhdr
    have hlong : 2048 < hdrlen + plen + 8 := by
      by_contra hfit
      exact hbad ⟨fun hq => by_contra fun hne => hqos ⟨hq, hne⟩, by omega⟩
    obtain ⟨m', hstart, hfool⟩ :=
      exists_fooled_of_long message (dataHdr q pframe) hh hh' hp hl hhdr hlong
    exact ⟨nullKey, m', by rw [ccmpHdr_of_sameOn hstart (by omega), hqc], hfool⟩

/-- The frames with a header of `hdrlen` bytes and `plen` bytes behind the IV, with QoS control if
`q`, are checked exactly if and only if they fit in the static buffer and have no QoS control or a
header of 26 bytes. -/
theorem ccmpExact_iff (q : Bool) (hh : 24 ≤ hdrlen) (hh' : hdrlen ≤ 30) (hp : 8 ≤ plen)
    (hl : hdrlen + plen + 10 < 4294967296) :
    (∀ key m pframe message, (ccmpHdr m pframe hdrlen).qcExists = q →
        CcmpExact key hdrlen m pframe plen message) ↔
      (q = true → hdrlen = 26) ∧ hdrlen + plen + 8 ≤ 2048 := by
  constructor
  · intro hexact
    by_contra hbad
    obtain ⟨key, m, hqc, hfool⟩ := exists_fooled q 0 (fun _ => 0) hh hh' hp hl hbad
    exact hfool.not_exact (hexact key m 0 _ hqc)
  · rintro ⟨hqos, hfit⟩ key m pframe message hqc
    refine ccmpExact_of_fits hh hp ?_ hfit
    rw [ccmpHdr_hdrlen, hqc, if_neg fun h => h.2 (hqos h.1)]

theorem ccmpExact_iff_qos :
    (∀ key m pframe message, (ccmpHdr m pframe 26).qcExists = true →
        CcmpExact key 26 m pframe 100 message) ↔ (true = true → 26 = 26) ∧ 26 + 100 + 8 ≤ 2048 :=
  ccmpExact_iff true (by decide) (by decide) (by decide) (by decide)

/-- A protected QoS frame with HT control, an empty body under the key of zeroes, and its MIC. -/
def sampleHtc : Mem :=
  let m : Mem := fun a => if a = 0 then 0x88 else if a = 1 then 0xc1 else if a = 33 then 0x20 else 0
  m.write 38 (frameMic nullKey 30 m 0 8)

/-- The frame without its MIC. -/
def sampleHtcStart : Mem := fun a => if a = 0 then 0x88 else if a = 1 then 0xc1 else if a = 33 then 0x20 else 0

/-- The MIC of the frame. -/
def sampleHtcMic : {mic : List UInt8 // frameMic nullKey 30 sampleHtcStart 0 8 = mic} :=
  ⟨[0x0b, 0x5c, 0x08, 0x38, 0xc4, 0x64, 0xd5, 0xe7], by
    simp only [frameMic, ccmPayload, ccmMic, ctrBlock, micInit, aes128k128d_nullKey]
    decide +kernel⟩

theorem sampleHtc_eq :
    sampleHtc = sampleHtcStart.write 38 [0x0b, 0x5c, 0x08, 0x38, 0xc4, 0x64, 0xd5, 0xe7] := by
  have hmic : frameMic nullKey 30 sampleHtcStart 0 8
      = [0x0b, 0x5c, 0x08, 0x38, 0xc4, 0x64, 0xd5, 0xe7] := sampleHtcMic.property
  rw [← hmic]
  rfl

/-- The last byte of the MIC that is wanted for the frame. -/
theorem wantedMic_sampleHtc :
    (ccmMic nullKey (ccmpHdr sampleHtc 0 30) sampleHtc 0 (pnVector sampleHtc 32) []).getD 7
    0 ≠ 0 := by
  simp only [sampleHtc_eq, ccmMic, ctrBlock, micInit, aes128k128d_nullKey]
  decide +kernel

/-- The frame is not accepted although its MIC is right. -/
theorem not_ccmpExact_sampleHtc : ¬CcmpExact nullKey 30 sampleHtc 0 8 (fun _ => 0) := by
  have hhdr : (ccmpHdr sampleHtc 0 30).hdrlen = 32 := by
    rw [sampleHtc_eq]
    decide +kernel
  have hok : CcmMicOk nullKey 30 sampleHtc 0 8 := by
    have hstart : SameOn 0 (30 + 8) sampleHtc sampleHtcStart := sameOn_write _ _ (by norm_num)
    rw [CcmMicOk, frameMic_congr (by omega) (by omega) hstart]
    exact Mem.read_write_of_length _ _ (length_ccmMic _ _ _ _ _ _)
  intro hexact
  have hread := (@aesDecipher_spec nullKey 30 8 sampleHtc 0 (fun _ => 0) (by omega) (by omega)
    (by omega)).1.mp
    (hexact.1.mpr hok)
  rw [wantedMic_of_fits (by omega) (by omega) (by omega), hhdr] at hread
  have hlast : sampleHtc 47 = 0 := by
    rw [sampleHtc_eq]
    decide +kernel
  have hbyte := congrArg (fun bs => bs.getD 7 0) hread
  exact wantedMic_sampleHtc (hbyte.symm.trans hlast)

end Exact

end Rtl8188eu
