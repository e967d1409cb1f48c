import Rtl8188eu.Arc4
import Rtl8188eu.Wifi

/-!
# AES and CCMP

The AES part of `core/rtw_security.c` : the block cipher `aes128k128d`, the blocks that
CCMP derives from the 802.11 header, `aes_cipher` and `aes_decipher`. Both work in place on
a frame at an address of a memory. `aes_decipher` checks the MIC on a copy of the frame in
a static buffer, which it encrypts again. A frame that is too long for the buffer is not
copied, and the check is then made on what the buffer had before.
-/

namespace Rtl8188eu

open LiteralIndex

/-! ## The block cipher -/

/-- A block of 128 bits. -/
abbrev Block := Vector UInt8 16

set_option maxRecDepth 4000 in
/-- `sbox_table`. -/
def sboxTable : Vector UInt8 256 :=
  #v[0x63, 0x7c, 0x77, 0x7b, 0xf2, 0x6b, 0x6f, 0xc5, 0x30, 0x01, 0x67, 0x2b, 0xfe, 0xd7,
    0xab, 0x76, 0xca, 0x82, 0xc9, 0x7d, 0xfa, 0x59, 0x47, 0xf0, 0xad, 0xd4, 0xa2, 0xaf,
    0x9c, 0xa4, 0x72, 0xc0, 0xb7, 0xfd, 0x93, 0x26, 0x36, 0x3f, 0xf7, 0xcc, 0x34, 0xa5,
    0xe5, 0xf1, 0x71, 0xd8, 0x31, 0x15, 0x04, 0xc7, 0x23, 0xc3, 0x18, 0x96, 0x05, 0x9a,
    0x07, 0x12, 0x80, 0xe2, 0xeb, 0x27, 0xb2, 0x75, 0x09, 0x83, 0x2c, 0x1a, 0x1b, 0x6e,
    0x5a, 0xa0, 0x52, 0x3b, 0xd6, 0xb3, 0x29, 0xe3, 0x2f, 0x84, 0x53, 0xd1, 0x00, 0xed,
    0x20, 0xfc, 0xb1, 0x5b, 0x6a, 0xcb, 0xbe, 0x39, 0x4a, 0x4c, 0x58, 0xcf, 0xd0, 0xef,
    0xaa, 0xfb, 0x43, 0x4d, 0x33, 0x85, 0x45, 0xf9, 0x02, 0x7f, 0x50, 0x3c, 0x9f, 0xa8,
    0x51, 0xa3, 0x40, 0x8f, 0x92, 0x9d, 0x38, 0xf5, 0xbc, 0xb6, 0xda, 0x21, 0x10, 0xff,
    0xf3, 0xd2, 0xcd, 0x0c, 0x13, 0xec, 0x5f, 0x97, 0x44, 0x17, 0xc4, 0xa7, 0x7e, 0x3d,
    0x64, 0x5d, 0x19, 0x73, 0x60, 0x81, 0x4f, 0xdc, 0x22, 0x2a, 0x90, 0x88, 0x46, 0xee,
    0xb8, 0x14, 0xde, 0x5e, 0x0b, 0xdb, 0xe0, 0x32, 0x3a, 0x0a, 0x49, 0x06, 0x24, 0x5c,
    0xc2, 0xd3, 0xac, 0x62, 0x91, 0x95, 0xe4, 0x79, 0xe7, 0xc8, 0x37, 0x6d, 0x8d, 0xd5,
    0x4e, 0xa9, 0x6c, 0x56, 0xf4, 0xea, 0x65, 0x7a, 0xae, 0x08, 0xba, 0x78, 0x25, 0x2e,
    0x1c, 0xa6, 0xb4, 0xc6, 0xe8, 0xdd, 0x74, 0x1f, 0x4b, 0xbd, 0x8b, 0x8a, 0x70, 0x3e,
    0xb5, 0x66, 0x48, 0x03, 0xf6, 0x0e, 0x61, 0x35, 0x57, 0xb9, 0x86, 0xc1, 0x1d, 0x9e,
    0xe1, 0xf8, 0x98, 0x11, 0x69, 0xd9, 0x8e, 0x94, 0x9b, 0x1e, 0x87, 0xe9, 0xce, 0x55,
    0x28, 0xdf, 0x8c, 0xa1, 0x89, 0x0d, 0xbf, 0xe6, 0x42, 0x68, 0x41, 0x99, 0x2d, 0x0f,
    0xb0, 0x54, 0xbb, 0x16]

/-- `sbox`. -/
def sbox (a : UInt8) : UInt8 := byteAt sboxTable a

/-- `xor_128` and `bitwise_xor`. -/
def bitwiseXor (a b : Block) : Block := Vector.ofFn fun i => a.get i ^^^ b.get i

/-- `xor_32`. -/
def xor32 (a b : Vector UInt8 4) : Vector UInt8 4 := Vector.ofFn fun i => a.get i ^^^ b.get i

/-- `rcon_table`. -/
def rconTable : List UInt8 :=
  [0x01, 0x02, 0x04, 0x08, 0x10, 0x20, 0x40, 0x80, 0x1b, 0x36, 0x36, 0x36]

/-- The four bytes of a block from `4 * i` on. -/
def wordOf (b : Block) (i : Fin 4) : Vector UInt8 4 :=
  Vector.ofFn fun j => b.get ⟨4 * i + j, by omega⟩

/-- `next_key`. -/
def nextKey (key : Block) (round : ℕ) : Block :=
  let sboxKey := #v[sbox key[13], sbox key[14], sbox key[15], sbox key[12]]
  let rcon := rconTable.getD round 0
  let w0 := xor32 (wordOf key 0) sboxKey
  let w0 := w0.set 0 (w0[0] ^^^ rcon)
  let w1 := xor32 (wordOf key 1) w0
  let w2 := xor32 (wordOf key 2) w1
  let w3 := xor32 (wordOf key 3) w2
  w0 ++ w1 ++ w2 ++ w3

/-- `byte_sub`. -/
def byteSub (b : Block) : Block := Vector.ofFn fun i => sbox (b.get i)

/-- `shift_row`. -/
def shiftRow (b : Block) : Block :=
  #v[getElem b 0 octet0_lt_sixteen, b[5], b[10], b[15], b[4], b[9], b[14], b[3], b[8], b[13], b[2], b[7],
    b[12], b[1], b[6], b[11]]

/-- The shift of the low seven bits of each byte to the left in `mix_column`. The shift of a
byte takes a bit over from the byte before it if that bit is set, but it was masked. -/
def shiftAndf7 (w : Vector UInt8 4) : Vector UInt8 4 :=
  let a : Vector UInt8 4 := Vector.ofFn fun i => w.get i &&& 0x7f
  let shl (x prev : UInt8) : UInt8 :=
    if prev &&& 0x80 = 0x80 then (x <<< 1) ||| 0x01 else x <<< 1
  #v[(a[0] <<< 1) &&& 0xfe, shl a[1] a[0], shl a[2] a[1], shl a[3] a[2]]

/-- `mix_column`. -/
def mixColumn (w : Vector UInt8 4) : Vector UInt8 4 :=
  let add1b : Vector UInt8 4 :=
    Vector.ofFn fun i => if w.get i &&& 0x80 = 0x80 then 0x1b else 0x00
  let swapHalfs := #v[w[2], w[3], w[0], w[1]]
  let rotl := #v[w[3], w[0], w[1], w[2]]
  let add1bf7 := xor32 add1b (shiftAndf7 w)
  let rotr := xor32 w add1bf7
  let rotr := #v[rotr[1], rotr[2], rotr[3], rotr[0]]
  let temp := xor32 add1bf7 rotr
  let tempb := xor32 swapHalfs rotl
  xor32 temp tempb

/-- A round of `aes128k128d` from 1 to 9, on the text and the round key. -/
def aesRound (s : Block × Block) (round : ℕ) : Block × Block :=
  let b := shiftRow (byteSub s.1)
  let a : Block := mixColumn (wordOf b 0) ++ mixColumn (wordOf b 1) ++ mixColumn (wordOf b 2)
    ++ mixColumn (wordOf b 3)
  (bitwiseXor a s.2, nextKey s.2 round)

/-- `aes128k128d`. -/
def aes128k128d (key data : Block) : Block :=
  let (ct, roundKey) :=
    (List.range' 1 9).foldl aesRound (bitwiseXor key data, nextKey key 0)
  bitwiseXor (shiftRow (byteSub ct)) roundKey

/-! ### Evaluation

The rounds with the round keys and the table of `byte_sub` computed beforehand. -/

/-- `sboxTable` as one number, the first entry lowest. -/
def sboxPacked : ℕ := Nat.ofDigits 256 (sboxTable.toList.map UInt8.toNat)

theorem sbox_eq_packed (a : UInt8) : sbox a = UInt8.ofNat (sboxPacked / 256 ^ a.toNat) := by
  have hlt : ∀ d ∈ sboxTable.toList.map UInt8.toNat, d < 256 := by
    intro d hd
    obtain ⟨x, -, rfl⟩ := List.mem_map.mp hd
    exact x.toNat_lt
  have ha : a.toNat < (sboxTable.toList.map UInt8.toNat).length := by simpa using a.toNat_lt
  rw [sboxPacked, Nat.ofDigits_div_pow_eq_ofDigits_drop _ (by omega) _ hlt,
    List.drop_eq_getElem_cons ha,
    Nat.ofDigits_cons]
  apply UInt8.toNat_inj.mp
  rw [UInt8.toNat_ofNat', Nat.add_mul_mod_self_left, Nat.mod_eq_of_lt (hlt _ (List.getElem_mem ha))]
  rw [List.getElem_map, Vector.getElem_toList]
  rfl

/-- A round of the text, with the key of the round. -/
def textRound (b k : Block) : Block :=
  let b := shiftRow (Vector.ofFn fun i => UInt8.ofNat (sboxPacked / 256 ^ (b.get i).toNat))
  let a : Block := mixColumn (wordOf b 0) ++ mixColumn (wordOf b 1) ++ mixColumn (wordOf b 2)
    ++ mixColumn (wordOf b 3)
  bitwiseXor a k

theorem aesRound_eq (b k : Block) (round : ℕ) :
    aesRound (b, k) round = (textRound b k, nextKey k round) := by
  simp only [aesRound, textRound, byteSub, sbox_eq_packed]

/-- The `n` round keys that follow the key `k` of the round `r`. -/
def schedule : ℕ → ℕ → Block → List Block
  | 0, _, _ => []
  | n + 1, r, k => nextKey k r :: schedule n (r + 1) (nextKey k r)

theorem foldl_aesRound : ∀ (n r : ℕ) (b k : Block), (List.range' r n).foldl aesRound (b, k)
    = ((k :: schedule n r k).dropLast.foldl textRound b, (k :: schedule n r k).getLast (by simp))
  | 0, r, b, k => rfl
  | n + 1, r, b, k => by
    rw [List.range'_succ, List.foldl_cons, aesRound_eq, foldl_aesRound n (r + 1)]
    simp [schedule]

/-- The cipher with the round keys `ks` and the key `k` at the end. -/
def encrypt (ks : List Block) (k data : Block) : Block :=
  let b := ks.foldl textRound data
  bitwiseXor (shiftRow (Vector.ofFn fun i => UInt8.ofNat (sboxPacked / 256 ^ (b.get i).toNat))) k

theorem aes128k128d_eq_encrypt {key : Block} {ks : List Block} {k : Block}
    (h : schedule 10 0 key = ks ++ [k]) (data : Block) :
    aes128k128d key data = encrypt ks k (bitwiseXor key data) := by
  have hcons : nextKey key 0 :: schedule 9 1 (nextKey key 0) = ks ++ [k] := h
  have hrounds := foldl_aesRound 9 1 (bitwiseXor key data) (nextKey key 0)
  simp only [hcons, List.dropLast_concat, List.getLast_append_singleton] at hrounds
  simp only [aes128k128d, hrounds, encrypt, byteSub, sbox_eq_packed]

/-! ## Blocks from the header -/

/-- The sixteen bytes at `p`. -/
def blockAt (m : Mem) (p : ℤ) : Block := Vector.ofFn fun j => m (p + (j : ℕ))

/-- The `n` bytes at `p`, followed by zeroes (`padded_buffer`). -/
def paddedAt (m : Mem) (p : ℤ) (n : ℕ) : Block :=
  Vector.ofFn fun j => if (j : ℕ) < n then m (p + (j : ℕ)) else 0

/-- The QoS byte of the nonce, `0` without QoS control. -/
def nonceQos (qcExists a4Exists : Bool) (m : Mem) (mpdu : ℤ) : UInt8 :=
  if qcExists && a4Exists then m (mpdu + 30) &&& 0x0f
  else if qcExists then m (mpdu + 24) &&& 0x0f
  else 0

/-- `construct_mic_iv`. -/
def constructMicIv (qcExists a4Exists : Bool) (m : Mem) (mpdu : ℤ) (payloadLength : ℕ)
    (pn : Vector UInt8 6) : Block :=
  #v[0x59, nonceQos qcExists a4Exists m mpdu, m (mpdu + 10), m (mpdu + 11), m (mpdu + 12),
    m (mpdu + 13), m (mpdu + 14), m (mpdu + 15), getElem pn 5 octet5_lt_six, getElem pn 4 octet4_lt_six,
    getElem pn 3 octet3_lt_six, getElem pn 2 octet2_lt_six, getElem pn 1 octet1_lt_six, getElem pn 0 octet0_lt_six,
    UInt8.ofNat (payloadLength / 256), UInt8.ofNat (payloadLength % 256)]

/-- `construct_mic_header1`. -/
def constructMicHeader1 (headerLength : ℕ) (m : Mem) (mpdu : ℤ) : Block :=
  #v[UInt8.ofNat ((headerLength - 2) / 256), UInt8.ofNat ((headerLength - 2) % 256),
    m mpdu &&& 0xcf, m (mpdu + 1) &&& 0xc7, m (mpdu + 4), m (mpdu + 5), m (mpdu + 6),
    m (mpdu + 7), m (mpdu + 8), m (mpdu + 9), m (mpdu + 10), m (mpdu + 11), m (mpdu + 12),
    m (mpdu + 13), m (mpdu + 14), m (mpdu + 15)]

/-- `construct_mic_header2`. -/
def constructMicHeader2 (m : Mem) (mpdu : ℤ) (a4Exists qcExists : Bool) : Block :=
  let a4 (i : ℕ) : UInt8 := if a4Exists then m (mpdu + 24 + i) else 0
  #v[m (mpdu + 16), m (mpdu + 17), m (mpdu + 18), m (mpdu + 19), m (mpdu + 20), m (mpdu + 21),
    0, 0,
    if qcExists && !a4Exists then m (mpdu + 24) &&& 0x0f else a4 0,
    if qcExists && !a4Exists then m (mpdu + 25) &&& 0x00 else a4 1,
    a4 2, a4 3, a4 4, a4 5,
    if qcExists && a4Exists then m (mpdu + 30) &&& 0x0f else 0,
    if qcExists && a4Exists then m (mpdu + 31) &&& 0x00 else 0]

/-- `construct_ctr_preload`. -/
def constructCtrPreload (a4Exists qcExists : Bool) (m : Mem) (mpdu : ℤ) (pn : Vector UInt8 6)
    (c : ℕ) : Block :=
  #v[0x01, nonceQos qcExists a4Exists m mpdu, m (mpdu + 10), m (mpdu + 11), m (mpdu + 12),
    m (mpdu + 13), m (mpdu + 14), m (mpdu + 15), getElem pn 5 octet5_lt_six, getElem pn 4 octet4_lt_six,
    getElem pn 3 octet3_lt_six, getElem pn 2 octet2_lt_six, getElem pn 1 octet1_lt_six, getElem pn 0 octet0_lt_six,
    UInt8.ofNat (c / 256), UInt8.ofNat (c % 256)]

/-- What `aes_cipher` and `aes_decipher` read off the header first. -/
structure CcmpHdr where
  a4Exists : Bool
  qcExists : Bool
  /-- The length of the header with QoS control. -/
  hdrlen : ℕ

/-- The frame types with CF acknowledgement, which `GetFrameType` never returns. -/
def isCfData (frtype : ℕ) : Bool := frtype = 0x18 || frtype = 0x28 || frtype = 0x38

/-- The start of `aes_cipher` and `aes_decipher`. -/
def ccmpHdr (m : Mem) (pframe : ℤ) (hdrlen : ℕ) : CcmpHdr :=
  let frtype := getFrameType m pframe
  let frsubtype := getFrameSubType m pframe >>> 4
  let a4Exists := !(hdrlen = 24 || hdrlen = 26)
  let qcExists := isCfData frtype || (0x08 ≤ frsubtype && frsubtype ≤ 0x0b)
  ⟨a4Exists, qcExists, if qcExists && hdrlen ≠ 26 then hdrlen + 2 else hdrlen⟩

/-- `pn_vector`, read at `p`. -/
def pnVector (m : Mem) (p : ℤ) : Vector UInt8 6 :=
  #v[m p, m (p + 1), m (p + 4), m (p + 5), m (p + 6), m (p + 7)]

/-! ## The MIC and the key stream -/

/-- The loop over the full blocks at `p` in the computation of the MIC. -/
def macLoop (key : Block) (m : Mem) : ℕ → ℤ → Block → Block
  | 0, _, aesOut => aesOut
  | n + 1, p, aesOut =>
    macLoop key m n (p + 16) (aes128k128d key (bitwiseXor aesOut (blockAt m p)))

/-- The MIC of the `plen` bytes behind the IV. -/
def calcMic (key : Block) (h : CcmpHdr) (m : Mem) (mpdu : ℤ) (plen : ℕ)
    (pn : Vector UInt8 6) : List UInt8 :=
  let p := mpdu + h.hdrlen + 8
  let aesOut := aes128k128d key (constructMicIv h.qcExists h.a4Exists m mpdu plen pn)
  let aesOut := aes128k128d key (bitwiseXor aesOut (constructMicHeader1 h.hdrlen m mpdu))
  let aesOut := aes128k128d key
    (bitwiseXor aesOut (constructMicHeader2 m mpdu h.a4Exists h.qcExists))
  let aesOut := macLoop key m (plen / 16) p aesOut
  let aesOut :=
    if plen % 16 > 0 then
      aes128k128d key (bitwiseXor aesOut (paddedAt m (p + 16 * (plen / 16)) (plen % 16)))
    else aesOut
  aesOut.toList.take 8

/-- The key stream block number `c`. -/
def ctrBlock (key : Block) (h : CcmpHdr) (m : Mem) (mpdu : ℤ) (pn : Vector UInt8 6) (c : ℕ) :
    Block :=
  aes128k128d key (constructCtrPreload h.a4Exists h.qcExists m mpdu pn c)

/-- The loop over the full blocks at `p` of the encryption. -/
def ctrLoop (key : Block) (h : CcmpHdr) (mpdu : ℤ) (pn : Vector UInt8 6) :
    ℕ → ℕ → ℤ → Mem → Mem
  | 0, _, _, m => m
  | n + 1, i, p, m =>
    let chain := bitwiseXor (ctrBlock key h m mpdu pn (i + 1)) (blockAt m p)
    ctrLoop key h mpdu pn n (i + 1) (p + 16) (m.write p chain.toList)

/-- The encryption, and the decryption, of the `plen` bytes behind the IV. -/
def ctrPayload (key : Block) (h : CcmpHdr) (mpdu : ℤ) (plen : ℕ) (pn : Vector UInt8 6)
    (m : Mem) : Mem :=
  let p := mpdu + h.hdrlen + 8
  let numBlocks := plen / 16
  let m := ctrLoop key h mpdu pn numBlocks 0 p m
  if plen % 16 > 0 then
    let p := p + 16 * numBlocks
    let chain := bitwiseXor (ctrBlock key h m mpdu pn (numBlocks + 1)) (paddedAt m p (plen % 16))
    m.write p (chain.toList.take (plen % 16))
  else m

/-- The MIC behind the payload is written and encrypted. -/
def putMic (key : Block) (h : CcmpHdr) (mpdu : ℤ) (plen : ℕ) (pn : Vector UInt8 6)
    (mic : List UInt8) (m : Mem) : Mem :=
  let p := mpdu + h.hdrlen + 8
  let m := m.write (p + plen) mic
  let m := ctrPayload key h mpdu plen pn m
  let chain := bitwiseXor (ctrBlock key h m mpdu pn 0) (paddedAt m (p + plen) 8)
  m.write (p + plen) (chain.toList.take 8)

/-- `aes_cipher`. -/
def aesCipher (key : Block) (hdrlen : ℕ) (m : Mem) (pframe : ℤ) (plen : ℕ) : Mem :=
  let h := ccmpHdr m pframe hdrlen
  let pn := pnVector m (pframe + h.hdrlen)
  putMic key h pframe plen pn (calcMic key h m pframe plen pn) m

/-- `aes_decipher`, with the static buffer `message`. The result says whether the MIC is
right. -/
def aesDecipher (key : Block) (hdrlen : ℕ) (m : Mem) (pframe : ℤ) (plen : ℕ) (message : Mem) :
    Bool × Mem × Mem :=
  let n := u32 ((plen : ℤ) - 8)
  let pn := pnVector m (pframe + hdrlen)
  let h := ccmpHdr m pframe hdrlen
  let m := ctrPayload key h pframe n pn m
  let len := u32 ((h.hdrlen : ℤ) + plen + 8)
  let message := if len ≤ 2048 then message.write 0 (m.read pframe len) else message
  let pn := pnVector m (pframe + h.hdrlen)
  let message := putMic key h 0 n pn (calcMic key h message 0 n pn) message
  let p := u32 ((h.hdrlen : ℤ) + plen)
  (m.read (pframe + p) 8 = message.read p 8, m, message)

end Rtl8188eu
