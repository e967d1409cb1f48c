import Rtl8188eu.Michael
import Rtl8188eu.WordStreams

/-!
# Michael on words

The Michael of the standard is a function on 32-bit words : the message is padded with `0x5a`
and four to seven zeroes, cut into little-endian words, and each word goes through the block
function. The driver takes one byte at a time and keeps the bytes of a word in `M`.
`michael_words` : whatever the calls of `rtw_secmicappend` are, `rtw_secgetmic` returns the
Michael value of the whole string, and the state that it leaves is the one after
`rtw_secmicsetkey`.
-/

namespace Rtl8188eu

open WordStreams

namespace Michael

/-! ## The definition on words -/

/-- The little-endian word of four bytes. -/
def word (bs : List UInt8) : BitVec 32 := BitVec.ofNat 32 (Nat.ofDigits 256 (bs.map UInt8.toNat))

/-- The bytes of each half of a word, swapped. -/
def xswap (x : BitVec 32) : BitVec 32 :=
  x.extractLsb' 16 8 ++ x.extractLsb' 24 8 ++ x.extractLsb' 0 8 ++ x.extractLsb' 8 8

/-- The block function. -/
def block (l r : BitVec 32) : BitVec 32 × BitVec 32 :=
  let r := r ^^^ l.rotateLeft 17
  let l := l + r
  let r := r ^^^ xswap l
  let l := l + r
  let r := r ^^^ l.rotateLeft 3
  let l := l + r
  let r := r ^^^ l.rotateRight 2
  (l + r, r)

/-- One word of the message. -/
def takeWord (s : BitVec 32 × BitVec 32) (bs : List UInt8) : BitVec 32 × BitVec 32 :=
  block (s.1 ^^^ word bs) s.2

/-- The message with its padding : `0x5a`, and four to seven zeroes. -/
def pad (msg : List UInt8) : List UInt8 :=
  msg ++ 0x5a :: List.replicate (7 - msg.length % 4) 0

/-- The two words of the key. -/
def start (key : List UInt8) : BitVec 32 × BitVec 32 :=
    (word (key.take 4), word ((key.drop 4).take 4))

/-- The Michael value of a message. -/
def value (key msg : List UInt8) : List UInt8 :=
  let s := (words 4 ((pad msg).length / 4) (pad msg)).foldl takeWord (start key)
  le32Bytes (UInt32.ofBitVec s.1) ++ le32Bytes (UInt32.ofBitVec s.2)

theorem length_pad (msg : List UInt8) : (pad msg).length = (pad msg).length / 4 * 4 := by
  have h : (pad msg).length = msg.length + 1 + (7 - msg.length % 4) := by
    rw [pad, List.length_append, List.length_cons, List.length_replicate]
    omega
  omega

/-! ## The block function of the driver -/

/-- The mask of `ROL32` takes nothing away. -/
theorem rol_mask (x : BitVec 32) {n : ℕ} (hn : n < 32) :
    (x >>> (32 - n)) &&& ((1#32 <<< n) - 1#32) = x >>> (32 - n) := by
  have hpow : 2 ^ n < 2 ^ 32 := Nat.pow_lt_pow_right (by omega) hn
  have hpos : 0 < 2 ^ n := Nat.two_pow_pos n
  have hone : ((1#32 <<< n) - 1#32).toNat = 2 ^ n - 1 := by
    rw [BitVec.toNat_sub, BitVec.toNat_shiftLeft, BitVec.toNat_ofNat, Nat.shiftLeft_eq]
    omega
  have hlt : (x >>> (32 - n)).toNat < 2 ^ n := by
    rw [BitVec.toNat_ushiftRight, Nat.shiftRight_eq_div_pow,
      Nat.div_lt_iff_lt_mul (Nat.two_pow_pos _),
      ← pow_add, show n + (32 - n) = 32 by omega]
    exact x.isLt
  refine BitVec.eq_of_toNat_eq ?_
  rw [BitVec.toNat_and, hone, Nat.and_two_pow_sub_one_eq_mod, Nat.mod_eq_of_lt hlt]

theorem toBitVec_rol32_17 (a : UInt32) : (rol32 a 17).toBitVec = a.toBitVec.rotateLeft 17 := by
  change a.toBitVec <<< 17 ||| (a.toBitVec >>> (32 - 17) &&& ((1#32 <<< 17) - 1#32)) = _
  rw [rol_mask a.toBitVec (by omega)]
  rfl

theorem toBitVec_rol32_3 (a : UInt32) : (rol32 a 3).toBitVec = a.toBitVec.rotateLeft 3 := by
  change a.toBitVec <<< 3 ||| (a.toBitVec >>> (32 - 3) &&& ((1#32 <<< 3) - 1#32)) = _
  rw [rol_mask a.toBitVec (by omega)]
  rfl

theorem toBitVec_ror32_2 (a : UInt32) : (ror32 a 2).toBitVec = a.toBitVec.rotateRight 2 := by
  change a.toBitVec <<< 30 ||| (a.toBitVec >>> (32 - 30) &&& ((1#32 <<< 30) - 1#32)) = _
  rw [rol_mask a.toBitVec (by omega), BitVec.or_comm]
  rfl

theorem toBitVec_xswap (a : UInt32) :
    (((a &&& 0xff00ff00) >>> 8) ||| ((a &&& 0x00ff00ff) <<< 8)).toBitVec = xswap a.toBitVec := by
  change (a.toBitVec &&& 0xff00ff00#32) >>> 8 ||| (a.toBitVec &&& 0x00ff00ff#32) <<< 8 = _
  generalize a.toBitVec = x
  refine BitVec.eq_of_getLsbD_eq fun i hi => ?_
  simp only [xswap, BitVec.getLsbD_or, BitVec.getLsbD_ushiftRight, BitVec.getLsbD_shiftLeft,
    BitVec.getLsbD_and, BitVec.getLsbD_append, BitVec.getLsbD_extractLsb']
  interval_cases i <;> simp

theorem secmicword_eq (d : MicData) : ((secmicword d).l.toBitVec, (secmicword d).r.toBitVec) =
    block (d.l.toBitVec ^^^ d.m.toBitVec) d.r.toBitVec := by
  simp only [secmicword, block, UInt32.toBitVec_add, UInt32.toBitVec_xor, toBitVec_rol32_17,
    toBitVec_rol32_3, toBitVec_ror32_2, toBitVec_xswap]

/-! ## The state of the driver -/

/-- The bytes that `M` holds are those of a word that is not full. -/
theorem toBitVec_secmicgetuint32 {bs : List UInt8} (h : bs.length ≤ 4) :
    (secmicgetuint32 bs).toBitVec = word bs := by
  have hnat : (secmicgetuint32 bs).toNat = Nat.ofDigits 256 (bs.map UInt8.toNat) := by
    rw [secmicgetuint32, toNat_le32]
    rcases bs with _ | ⟨a, _ | ⟨b, _ | ⟨c, _ | ⟨d, bs⟩⟩⟩⟩
    · rfl
    · simp
    · simp [Nat.ofDigits]
    · simp [Nat.ofDigits]
    · obtain rfl : bs = [] :=
        List.eq_nil_of_length_eq_zero (by simp only [List.length_cons] at h; omega)
      simp [Nat.ofDigits]
  rw [word, ← hnat]
  exact ((BitVec.ofNat_toNat ..).trans (BitVec.setWidth_eq _)).symm

theorem secmicgetuint32_nil : secmicgetuint32 [] = 0 := by decide

/-- One more byte in `M`. -/
theorem secmicgetuint32_concat {bs : List UInt8} (h : bs.length < 4) (b : UInt8) :
    secmicgetuint32 bs ||| (b.toUInt32 <<< UInt32.ofNat (8 * bs.length)) =
      secmicgetuint32 (bs ++ [b]) := by
  rcases bs with _ | ⟨x, _ | ⟨y, _ | ⟨z, _ | ⟨t, bs⟩⟩⟩⟩
  · simp [secmicgetuint32, le32]
  · simp [secmicgetuint32, le32]
  · simp [secmicgetuint32, le32]
  · simp [secmicgetuint32, le32]
  · simp only [List.length_cons] at h
    omega

/-- The state of the driver with the key `key`, when the words before are taken and the bytes of `g`
are in `M`. -/
structure Holds (key : List UInt8) (g : Gather (BitVec 32 × BitVec 32) UInt8)
    (d : MicData) : Prop where
  k0 : d.k0 = secmicgetuint32 key
  k1 : d.k1 = secmicgetuint32 (key.drop 4)
  state : (d.l.toBitVec, d.r.toBitVec) = g.state
  m : d.m = secmicgetuint32 g.gathered
  n : d.nBytesInM = g.gathered.length
  short : g.gathered.length < 4

variable {key : List UInt8} {g : Gather (BitVec 32 × BitVec 32) UInt8} {d : MicData}

/-- `rtw_secmicappendbyte` takes a byte as the machine on words does. -/
theorem Holds.appendbyte (h : Holds key g d) (b : UInt8) :
    Holds key (absorb 4 takeWord g b) (rtwSecmicappendbyte d b) := by
  have hm : d.m ||| (b.toUInt32 <<< UInt32.ofNat (8 * d.nBytesInM)) = secmicgetuint32
    (g.gathered ++ [b]) := by
    rw [h.m, h.n, secmicgetuint32_concat h.short]
  have hlen : (g.gathered ++ [b]).length = g.gathered.length + 1 := by
    rw [List.length_append, List.length_singleton]
  unfold rtwSecmicappendbyte absorb
  dsimp only
  rw [hm, h.n]
  by_cases hfull : 4 ≤ g.gathered.length + 1
  · rw [if_pos hfull, if_pos hfull]
    refine ⟨h.k0, h.k1, ?_, secmicgetuint32_nil.symm, rfl, by simp⟩
    rw [secmicword_eq, takeWord, ← h.state,
      toBitVec_secmicgetuint32 (by rw [hlen]; have := h.short; omega)]
  · rw [if_neg hfull, if_neg hfull]
    exact ⟨h.k0, h.k1, h.state, rfl, hlen.symm, by dsimp only; omega⟩

theorem Holds.append : ∀ (bs : List UInt8) {g : Gather (BitVec 32 × BitVec 32) UInt8} {d : MicData},
    Holds key g d → Holds key (absorbs 4 takeWord g bs) (rtwSecmicappend d bs)
  | [], _, _, h => h
  | b :: bs, _, _, h => Holds.append bs (h.appendbyte b)

theorem holds_setkey (key : List UInt8) : Holds key ⟨start key, []⟩ (rtwSecmicsetkey key) := by
  have hword : ∀ bs : List UInt8, secmicgetuint32 bs = secmicgetuint32 (bs.take 4) := by
    intro bs
    rcases bs with _ | ⟨a, _ | ⟨b, _ | ⟨c, _ | ⟨d, bs⟩⟩⟩⟩ <;> rfl
  refine ⟨rfl, rfl, Prod.ext ?_ ?_, secmicgetuint32_nil.symm, rfl, by simp⟩
  · change (secmicgetuint32 key).toBitVec = _
    rw [hword, toBitVec_secmicgetuint32 (by simp)]
    rfl
  · change (secmicgetuint32 (key.drop 4)).toBitVec = _
    rw [hword, toBitVec_secmicgetuint32 (by simp)]
    rfl

/-- A cleared state is the one with the key. -/
theorem Holds.secmicclear (h : Holds key g d) : secmicclear d = rtwSecmicsetkey key := by
  obtain ⟨k0, k1, _, _, _, _⟩ := d
  obtain rfl : k0 = secmicgetuint32 key := h.k0
  obtain rfl : k1 = secmicgetuint32 (key.drop 4) := h.k1
  rfl

/-! ## The end of a message -/

end Michael

/-- The state of `rtw_secgetmic` when the padding is appended. -/
def secmicPadded (d : MicData) : MicData :=
  let d := rtwSecmicappend d [0x5a, 0, 0, 0, 0]
  rtwSecmicappend d (List.replicate ((4 - d.nBytesInM) % 4) 0)

/-- The state that `rtw_secgetmic` leaves. -/
def rtwSecgetmicData (d : MicData) : MicData := secmicclear (secmicPadded d)

theorem rtwSecgetmic_eq (d : MicData) :
    rtwSecgetmic d = le32Bytes (secmicPadded d).l ++ le32Bytes (secmicPadded d).r := rfl

namespace Michael

/-- The padding of the driver is the one of the definition. -/
theorem holds_padded (key msg : List UInt8) :
    Holds key (absorbs 4 takeWord ⟨start key, []⟩ (pad msg))
      (secmicPadded (rtwSecmicappend (rtwSecmicsetkey key) msg)) := by
  set g : Gather (BitVec 32 × BitVec 32) UInt8 := ⟨start key, []⟩
  have hmsg := (holds_setkey key).append msg
  have hfive := hmsg.append [0x5a, 0, 0, 0, 0]
  have hn := hfive.n
  rw [← absorbs_append, length_gathered (by omega) _ (by simp), List.length_append] at hn
  have hzeroes : pad msg = msg ++ [0x5a, 0, 0, 0, 0] ++
      List.replicate ((4 - (rtwSecmicappend (rtwSecmicappend (rtwSecmicsetkey key) msg)
        [0x5a, 0, 0, 0, 0]).nBytesInM) % 4) 0 := by
    have hsplit : 7 - msg.length % 4 = 4 + (3 - msg.length % 4) := by omega
    have hrest : (4 - (0 + (msg.length + 5)) % 4) % 4 = 3 - msg.length % 4 := by omega
    rw [hn, pad, hsplit, List.replicate_add, List.append_assoc]
    change _ = msg ++ ([0x5a, 0, 0, 0, 0] ++ List.replicate
      ((4 - (0 + (msg.length + 5)) % 4) % 4) 0)
    rw [hrest]
    rfl
  rw [hzeroes, absorbs_append, absorbs_append]
  exact hfive.append _

theorem rtwSecgetmic_append (key msg : List UInt8) :
    rtwSecgetmic (rtwSecmicappend (rtwSecmicsetkey key) msg) = value key msg ∧
      rtwSecgetmicData (rtwSecmicappend (rtwSecmicsetkey key) msg) = rtwSecmicsetkey key := by
  have hpadded := holds_padded key msg
  rw [absorbs_eq (by omega) _ _ _ (length_pad msg)] at hpadded
  obtain ⟨hl, hr⟩ := Prod.mk.inj hpadded.state
  refine ⟨?_, hpadded.secmicclear⟩
  rw [rtwSecgetmic_eq, value, ← hl, ← hr]

theorem foldl_rtwSecmicappend : ∀ (parts : List (List UInt8)) (d : MicData),
    parts.foldl rtwSecmicappend d = rtwSecmicappend d parts.flatten
  | [], _ => rfl
  | p :: ps, d => by
    rw [List.foldl_cons, foldl_rtwSecmicappend ps, List.flatten_cons, secmicappend_append]

/-- Whatever the calls of `rtw_secmicappend` are, `rtw_secgetmic` returns the Michael value of the
string, and leaves the state for the next message with the key. -/
theorem michael_words (key : Vector UInt8 8) (parts : List (List UInt8)) :
    rtwSecgetmic (parts.foldl rtwSecmicappend (rtwSecmicsetkey key.toList)) =
        value key.toList parts.flatten ∧
      rtwSecgetmicData (parts.foldl rtwSecmicappend (rtwSecmicsetkey key.toList)) =
        rtwSecmicsetkey key.toList := by
  rw [foldl_rtwSecmicappend]
  exact rtwSecgetmic_append key.toList parts.flatten

/-- `rtw_seccalctkipmic` computes the Michael value of the pseudo header and the data. -/
theorem rtwSeccalctkipmic_value (key : List UInt8) (m : Mem) (header : ℤ) (data : List UInt8)
    (pri : UInt8) :
    rtwSeccalctkipmic key m header data pri =
      value key (m.read (header + if m (header + 1) &&& 1 ≠ 0 then 16 else 4) 6 ++
        m.read (header + if m (header + 1) &&& 2 ≠ 0 then
          (if m (header + 1) &&& 1 ≠ 0 then 24 else 16) else 10) 6 ++ [pri, 0, 0, 0] ++ data) := by
  rw [rtwSeccalctkipmic_eq, michael, (rtwSecgetmic_append key _).1]

end Michael

end Rtl8188eu
