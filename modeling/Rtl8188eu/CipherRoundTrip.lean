import Rtl8188eu.IntegrityCheck
import Rtl8188eu.XmitCoalesce

/-!
# Encryption and decryption of a fragment

What the loops of `rtw_wep_encrypt`, `rtw_tkip_encrypt` and `rtw_aes_encrypt` make of a fragment
(`encryptFrag`) is taken apart by `decryptor` at a device that has the keys of the sender
(`KeysAgree`). The checks of the ICV and of the MIC of CCMP succeed, and the bytes behind the IV are
again those that were encrypted (`decryptor_encryptFrag`).
-/

set_option linter.unusedSectionVars false

namespace Rtl8188eu

open CounterMode Mem

/-! ## RC4 with an ICV -/

theorem icvRight_append (text : List UInt8) : IcvRight (text ++ getcrc32 text) := by
  have hlen : (text ++ getcrc32 text).length - 4 = text.length := by
    rw [List.length_append, length_getcrc32, Nat.add_sub_cancel]
  rw [IcvRight, hlen, List.drop_left, List.take_left]

theorem read_arcfourAt (key : List UInt8) (m : Mem) (p : ℤ) (n : ℕ) :
    (arcfourAt key m p n).read p (n + 4)
      = (arcfourEncrypt (arcfourInit key) (m.read p n ++ getcrc32 (m.read p n))).1 := by
  refine Mem.read_write_of_length m p ?_
  rw [length_arcfourEncrypt, List.length_append, length_getcrc32, Mem.length_read]

theorem arcfourAt_of_disjoint (key : List UInt8) (m : Mem) {p a : ℤ} {n : ℕ}
    (h : a < p ∨ p + (n + 4 : ℕ) ≤ a) : arcfourAt key m p n a = m a := by
  refine Mem.write_of_disjoint m ?_
  rwa [length_arcfourEncrypt, List.length_append, length_getcrc32, Mem.length_read]

namespace RecvFrame

variable {fr : RecvFrame} {key : List UInt8} {m : Mem} {p : ℤ} {n : ℕ}

theorem arcfour_roundTrip (hlen : fr.payloadLen = n + 4) (hlt : n + 4 < 2 ^ 31)
    (hbytes : fr.mem.read fr.payloadPtr (n + 4) = (arcfourAt key m p n).read p (n + 4)) :
    (fr.arcfourPayload key).icvOk = true ∧
      (fr.arcfourPayload key).mem.read fr.payloadPtr n = m.read p n := by
  have htext : fr.arcfourText key = m.read p n ++ getcrc32 (m.read p n) := by
    rw [arcfourText, hlen, hbytes, read_arcfourAt, arcfourEncrypt_involutive]
  constructor
  · rw [fr.icvOk_arcfourPayload key (by omega) (by omega), htext]
    exact icvRight_append _
  · have hread : (fr.arcfourPayload key).mem.read fr.payloadPtr (n + 4) = fr.arcfourText key :=
      Mem.read_write_of_length fr.mem fr.payloadPtr
        (by rw [length_arcfourEncrypt, Mem.length_read, hlen])
    rw [Mem.read_add, htext] at hread
    exact (List.append_inj hread (by simp)).1

end RecvFrame

/-! ## CCMP -/

section Ccmp

variable {key : Block} {hdrlen n : ℕ} {m : Mem} {p : ℤ}

theorem aesCipher_eq_putMic (hhdr : (ccmpHdr m p hdrlen).hdrlen = hdrlen) :
    aesCipher key hdrlen m p n
      = putMic key (ccmpHdr m p hdrlen) p n (pnVector m (p + hdrlen))
        (calcMic key (ccmpHdr m p hdrlen) m p n (pnVector m (p + hdrlen))) m := by
  simp only [aesCipher, hhdr]

/-- What `aes_cipher` leaves of a frame : the header and the IV, the payload with the key stream
added, and the MIC of the payload. -/
theorem read_aesCipher (hh : 24 ≤ hdrlen) (hhdr : (ccmpHdr m p hdrlen).hdrlen = hdrlen) :
    (aesCipher key hdrlen m p n).read p (hdrlen + 8) = m.read p (hdrlen + 8) ∧
      (aesCipher key hdrlen m p n).read (p + hdrlen + 8) n
        = ctr (ctrBlock key (ccmpHdr m p hdrlen) m p (pnVector m (p + hdrlen)))
          (m.read (p + hdrlen + 8) n) ∧
      (aesCipher key hdrlen m p n).read (p + hdrlen + 8 + n) 8
        = ccmMic key (ccmpHdr m p hdrlen) m p (pnVector m (p + hdrlen))
          (m.read (p + hdrlen + 8) n) := by
  set h := ccmpHdr m p hdrlen with hh'
  set pn := pnVector m (p + hdrlen) with hpn
  have hle : 24 ≤ h.hdrlen := hhdr ▸ hh
  have hmic : (calcMic key h m p n pn).length = 8 := by simp [calcMic]
  have hput := @read_putMic key h hle p n pn _ hmic m
  rw [hhdr] at hput
  rw [aesCipher_eq_putMic hhdr, ← hh', ← hpn]
  refine ⟨?_, ?_, ?_⟩
  · simp only [putMic, ctrPayload_eq hle, hhdr]
    rw [Mem.read_write_of_disjoint _ (Or.inl (by push_cast; omega)),
      Mem.read_write_of_disjoint _ (Or.inl (by push_cast; omega)),
      Mem.read_write_of_disjoint _ (Or.inl (by push_cast; omega))]
  · simp only [putMic, ctrPayload_eq hle, hhdr]
    rw [Mem.read_write_of_disjoint _ (Or.inl le_rfl), Mem.read_write_of_length _ _ (by simp),
      Mem.read_write_of_disjoint _ (Or.inl le_rfl), ctrBlock_congr (sameHdr_write m _ (by omega))]
  · rw [hput, calcMic_eq, hhdr, ccmMic, Mem.length_read]

theorem aesCipher_of_disjoint (hh : 24 ≤ hdrlen)
    (hhdr : (ccmpHdr m p hdrlen).hdrlen = hdrlen) {a : ℤ}
    (h : a < p + hdrlen + 8 ∨ p + hdrlen + 8 + (n + 8 : ℕ) ≤ a) :
    aesCipher key hdrlen m p n a = m a := by
  have hle : 24 ≤ (ccmpHdr m p hdrlen).hdrlen := by rwa [hhdr]
  rw [aesCipher_eq_putMic hhdr]
  simp only [putMic, ctrPayload_eq hle, hhdr]
  rw [Mem.write_of_disjoint _ ?_, Mem.write_of_disjoint _ ?_, Mem.write_of_disjoint _ ?_]
  · simp only [calcMic, List.length_take, Vector.length_toList]
    omega
  · simp only [length_ctr, Mem.length_read]
    omega
  · simp only [List.length_take, Vector.length_toList]
    omega

variable {m' : Mem} {p' : ℤ} {message : Mem}

theorem ccmpHdr_congr (h : SameHdr m' p' m p) (hdrlen : ℕ) :
    ccmpHdr m' p' hdrlen = ccmpHdr m p hdrlen := by
  have h0 : m' p' = m p := by simpa using h 0 (by omega)
  have h1 : m' (p' + 1) = m (p + 1) := h 1 (by omega)
  have hle : m'.le16 p' = m.le16 p := by rw [Mem.le16, Mem.le16, h0, h1]
  rw [ccmpHdr, ccmpHdr, getFrameType, getFrameType, getFrameSubType, getFrameSubType, hle]

/-- Bytes that are read are the same at each place. -/
theorem apply_of_read {k i : ℕ} (h : m'.read p' k = m.read p k) (hi : i < k) :
    m' (p' + i) = m (p + i) := by
  have hlt : i < (m'.read p' k).length := by rwa [Mem.length_read]
  have hlt' : i < (m.read p k).length := by rwa [Mem.length_read]
  rw [← Mem.getElem_read m' k p' i hlt, ← Mem.getElem_read m k p i hlt']
  simp only [h]

/-- A frame as `aes_cipher` has left it, received elsewhere, is accepted and decrypted. Nothing but
its payload changes. -/
theorem aes_roundTrip (hh : 24 ≤ hdrlen) (hhdr : (ccmpHdr m p hdrlen).hdrlen = hdrlen)
    (hfits : hdrlen + (n + 8) + 8 ≤ 2048)
    (hbytes : m'.read p' (hdrlen + 8 + n + 8) = (aesCipher key hdrlen m p n).read p
    (hdrlen + 8 + n + 8)) :
    (aesDecipher key hdrlen m' p' (n + 8) message).1 = true ∧
      (aesDecipher key hdrlen m' p' (n + 8) message).2.1
        = m'.write (p' + hdrlen + 8) (m.read (p + hdrlen + 8) n) := by
  obtain ⟨hhead, hpay, hmic⟩ := @read_aesCipher key hdrlen n m p hh hhdr
  rw [Mem.read_add m' 8 (hdrlen + 8 + n), Mem.read_add m' n (hdrlen + 8),
    Mem.read_add _ 8 (hdrlen + 8 + n), Mem.read_add _ n (hdrlen + 8)] at hbytes
  obtain ⟨hbytes, hmic'⟩ := List.append_inj hbytes (by simp)
  obtain ⟨hhead', hpay'⟩ := List.append_inj hbytes (by simp)
  push_cast at hpay' hmic'
  rw [← add_assoc, ← add_assoc, hpay] at hpay'
  rw [← add_assoc, ← add_assoc, ← add_assoc, ← add_assoc, hmic] at hmic'
  rw [hhead] at hhead'
  have hsame : SameHdr m' p' m p := fun i hi => apply_of_read hhead' (by omega)
  have hhdr' : ccmpHdr m' p' hdrlen = ccmpHdr m p hdrlen := ccmpHdr_congr hsame hdrlen
  have hpn : pnVector m' (p' + hdrlen) = pnVector m (p + hdrlen) := by
    refine pnVector_congr fun i hi => ?_
    have hbyte := apply_of_read hhead' (show hdrlen + i < hdrlen + 8 by omega)
    push_cast at hbyte
    rwa [add_assoc, add_assoc]
  have hframe : frameHdr m' p' hdrlen = ccmpHdr m p hdrlen := by
    rw [frameHdr, hhdr', hdrlen_eta hhdr]
  have hexact : CcmpExact key hdrlen m' p' (n + 8) message :=
    ccmpExact_of_fits hh (by omega) (by rw [hhdr', hhdr]) hfits
  have hplain : ccmPayload key hdrlen m' p' (n + 8) = m.read (p + hdrlen + 8) n := by
    rw [ccmPayload, hframe, hpn, ctrBlock_congr hsame, Nat.add_sub_cancel, hpay', ctr_ctr]
  have hok : CcmMicOk key hdrlen m' p' (n + 8) := by
    have hat : p' + (hdrlen : ℤ) + ((n + 8 : ℕ) : ℤ) = p' + hdrlen + 8 + n := by omega
    rw [CcmMicOk, frameMic, hplain, hframe, hpn, ccmMic_congr hsame, hat, hmic']
  refine ⟨hexact.1.2 hok, ?_⟩
  rw [(aesDecipher_spec hh (by omega) (by omega)).2, decrypted, ← hplain, ccmPayload, hframe, hhdr',
    hhdr]

end Ccmp

/-! ## A fragment on the air -/

section Lengths

variable {a : XmitAttrib}

theorem tx_lengths_wep (h : a.encrypt = .wep40 ∨ a.encrypt = .wep104) :
    a.tx.ivLen = 4 ∧ a.tx.icvLen = 4 := by
  have htx : a.tx.encrypt = a.encrypt := rfl
  unfold TxAttrib.ivLen TxAttrib.icvLen
  rcases h with h | h <;> simp only [htx, h, and_self]

theorem tx_lengths_tkip (h : a.encrypt = .tkip) : a.tx.ivLen = 8 ∧ a.tx.icvLen = 4 := by
  have htx : a.tx.encrypt = .tkip := h
  unfold TxAttrib.ivLen TxAttrib.icvLen
  simp only [htx, and_self]

theorem tx_lengths_aes (h : a.encrypt = .aes) : a.tx.ivLen = 8 ∧ a.tx.icvLen = 8 := by
  have htx : a.tx.encrypt = .aes := h
  unfold TxAttrib.ivLen TxAttrib.icvLen
  simp only [htx, and_self]

end Lengths

/-- The frame that is received has the bytes of the fragment `g` in the memory `m`, with `n` bytes
of payload, and the attributes that belong to it. -/
structure OnAir (a : XmitAttrib) (m : Mem) (g : Frag) (n : ℕ) (fr : RecvFrame) : Prop where
  encrypt : fr.attrib.encrypt = a.encrypt
  hdrlen : fr.attrib.hdrlen = a.hdrlen
  ivLen : fr.attrib.ivLen = a.tx.ivLen
  ta : fr.attrib.ta = a.ta
  ra : fr.attrib.ra = a.ra
  len : fr.len = a.hdrlen + a.tx.ivLen + n + a.tx.icvLen
  bytes : fr.mem.read fr.rxData fr.len = m.read g.start fr.len

namespace OnAir

variable {a : XmitAttrib} {m : Mem} {g : Frag} {n : ℕ} {fr : RecvFrame}

/-- The header and the IV are received. -/
theorem head (h : OnAir a m g n fr) :
    fr.mem.read fr.rxData (a.hdrlen + a.tx.ivLen) = m.read g.start (a.hdrlen + a.tx.ivLen) := by
  have hbytes := h.bytes
  have hsplit : fr.len = a.hdrlen + a.tx.ivLen + (n + a.tx.icvLen) := by
    rw [h.len]
    ring
  rw [hsplit, Mem.read_add, Mem.read_add _ _ (a.hdrlen + a.tx.ivLen)] at hbytes
  exact (List.append_inj hbytes (by simp)).1

/-- What is behind the IV is received. -/
theorem tail (h : OnAir a m g n fr) : fr.mem.read fr.payloadPtr (n + a.tx.icvLen)
    = m.read (g.start + a.hdrlen + a.tx.ivLen) (n + a.tx.icvLen) := by
  have hbytes := h.bytes
  have hsplit : fr.len = a.hdrlen + a.tx.ivLen + (n + a.tx.icvLen) := by
    rw [h.len]
    ring
  have hptr : fr.payloadPtr = fr.rxData + ((a.hdrlen + a.tx.ivLen : ℕ) : ℤ) := by
    rw [RecvFrame.payloadPtr, h.hdrlen, h.ivLen]
    push_cast
    ring
  rw [hsplit, Mem.read_add, Mem.read_add _ _ (a.hdrlen + a.tx.ivLen)] at hbytes
  rw [hptr, (List.append_inj hbytes (by simp)).2]
  push_cast
  rw [add_assoc]

theorem payloadLen (h : OnAir a m g n fr) (hlt : n + a.tx.icvLen < 2 ^ 31) :
    fr.payloadLen = n + a.tx.icvLen := by
  rw [RecvFrame.payloadLen, h.len, h.hdrlen, h.ivLen, u32]
  push_cast
  omega

/-- A byte of the header or of the IV. -/
theorem apply (h : OnAir a m g n fr) {i : ℕ} (hi : i < a.hdrlen + a.tx.ivLen) :
    fr.mem (fr.rxData + i) = m (g.start + i) :=
  apply_of_read h.head hi

/-- The IV is received. -/
theorem readIv (h : OnAir a m g n fr) {k : ℕ} (hk : k ≤ a.tx.ivLen) :
    fr.mem.read fr.ivPtr k = m.read (g.start + a.hdrlen) k := by
  refine Mem.read_congr fun i hi => ?_
  have hbyte := h.apply (show a.hdrlen + i < a.hdrlen + a.tx.ivLen by omega)
  push_cast at hbyte
  rw [RecvFrame.ivPtr, h.hdrlen, add_assoc, hbyte, add_assoc]

end OnAir

/-- The index of the key in the IV at `p`. -/
def keyIndexAt (m : Mem) (p : ℤ) : Fin 4 := Fin.ofNat 4 ((m (p + 3)).toNat >>> 6)

/-- The payload of the frame `fr'` are the bytes of the fragment before they were encrypted, and
what is before the payload is as it was received in `fr`. -/
structure Deciphered (a : XmitAttrib) (m : Mem) (g : Frag) (n : ℕ) (fr fr' : RecvFrame) : Prop where
  payload : fr'.mem.read fr.payloadPtr n = m.read (g.start + a.hdrlen + a.tx.ivLen) n
  before : ∀ i < fr.payloadPtr, fr'.mem i = fr.mem i
  frame : fr' = { fr with
    mem := fr'.mem
    attrib := { fr.attrib with keyIndex := keyIndexAt fr.mem fr.ivPtr, bdecrypted := true } }

namespace Adapter

variable {ι κ : Type} [DecidableEq ι] [DecidableEq κ]

/-- The device has the temporal key `key` for frames from `ta` to `ra` with the key index `i`. -/
def HasKey (t : Adapter κ) (ta ra : MacAddr) (i : Fin 4) (key : Key) : Prop :=
  ∃ k, t.rtwGetStainfo ta = some k ∧
    if isMcast ra then
      t.securitypriv.binstallGrpkey = true ∧ t.securitypriv.dot118021XGrpKey i = key ∧
        t.securitypriv.dot118021XGrpKeyid = i
    else (t.sta k).dot118021xUncstKey = key

/-- For the frames with the attributes `a` and the key index `i`, the receiver `t` has the key of
the sender `s`. -/
structure KeysAgree (s : Adapter ι) (a : XmitAttrib) (i : Fin 4) (t : Adapter κ) : Prop where
  wep : a.encrypt = .wep40 ∨ a.encrypt = .wep104 →
    (t.securitypriv.dot11DefKey i).toList.take (t.securitypriv.dot11DefKeylen i)
      = (s.securitypriv.dot11DefKey s.securitypriv.dot11PrivacyKeyIndex).toList.take
        (s.securitypriv.dot11DefKeylen s.securitypriv.dot11PrivacyKeyIndex)
  temporal : a.encrypt = .tkip ∨ a.encrypt = .aes →
    ∃ k, s.frameSta a.toHdrAttrib = some k ∧ t.HasKey a.ta a.ra i (s.txKey a.toHdrAttrib k)

/-- The key of a receiver that has it. -/
theorem HasKey.rxKey {t : Adapter κ} {b : RxPktAttrib} {key : Key}
    (h : t.HasKey b.ta b.ra b.keyIndex key) :
    t.rxKey b = some key ∧ t.rxAesKey b = some key := by
  obtain ⟨k, hk, hkey⟩ := h
  have hrx : t.rxKey b = some key := by
    unfold Adapter.rxKey
    rw [hk]
    split_ifs at hkey with hm
    · obtain ⟨hinst, hgrp, -⟩ := hkey
      simp [hm, hinst, hgrp]
    · simp [hm, hkey]
  refine ⟨hrx, ?_⟩
  unfold rxAesKey
  rw [hrx]
  split_ifs at hkey with hm
  · simp [hm, hkey.2.2]
  · simp [hm]

/-- What `decryptor` makes of a frame that is decrypted in software and accepted. -/
theorem decryptor_of_swDecrypt {t u : Adapter κ} {f : κ} (hsw : t.InSoftware f)
    (henc : (t.recvframe f).attrib.encrypt ≠ .noPrivacy)
    (h : (t.toDecrypt f).swDecrypt f = (true, u)) :
    t.decryptor f
      = (true, u.updateFrame f
        fun fr => { fr with attrib := { fr.attrib with bdecrypted := true } }) := by
  simp only [decryptor, decryptFrame_inSoftware hsw henc, h, if_true]

variable {s : Adapter ι} {t : Adapter κ} {a : XmitAttrib} {m : Mem} {g : Frag} {n : ℕ} {f : κ}

/-- The frame in which the key index is noted. -/
def noted (fr : RecvFrame) : RecvFrame :=
  { fr with attrib := { fr.attrib with keyIndex := keyIndexAt fr.mem fr.ivPtr } }

theorem recvframe_toDecrypt_of_ne (h : (t.recvframe f).attrib.encrypt ≠ .noPrivacy) :
    (t.toDecrypt f).recvframe f = noted (t.recvframe f) := by
  rw [recvframe_toDecrypt]
  exact if_pos h

/-- `aes_cipher` takes the header to be as long as it is, and the frame fits in the static buffer of
`aes_decipher`. -/
def CcmpFits (m : Mem) (p : ℤ) (hdrlen n : ℕ) : Prop :=
  (ccmpHdr m p hdrlen).hdrlen = hdrlen ∧ hdrlen + (n + 8) + 8 ≤ 2048

/-- The fragment is encrypted, and its length is that of the payload. -/
structure Encrypts (a : XmitAttrib) (m : Mem) (g : Frag) (n : ℕ) : Prop where
  cipher : a.encrypt = .wep40 ∨ a.encrypt = .wep104 ∨ a.encrypt = .tkip ∨ a.encrypt = .aes
  hdrlen : 24 ≤ a.hdrlen
  len : g.len = n
  lt : n + 8 < 2 ^ 31
  ccmp : a.encrypt = .aes → CcmpFits m g.start a.hdrlen n

namespace Encrypts

theorem u32_len (h : Encrypts a m g n) : u32 g.len = n := by
  have hlt := h.lt
  rw [h.len, u32]
  omega

/-- The IV has the byte with the key index. -/
theorem four_le_ivLen (h : Encrypts a m g n) : 4 ≤ a.tx.ivLen ∧ a.tx.icvLen ≤ 8 := by
  rcases h.cipher with he | he | he | he
  · simp [tx_lengths_wep (Or.inl he)]
  · simp [tx_lengths_wep (Or.inr he)]
  · simp [tx_lengths_tkip he]
  · simp [tx_lengths_aes he]

/-- The header and the IV are sent as they are. -/
theorem before (h : Encrypts a m g n) {i : ℤ} (hi : i < g.start + a.hdrlen + a.tx.ivLen) :
    s.encryptFrag a m g i = m i := by
  unfold encryptFrag
  rcases h.cipher with he | he | he | he
  · rw [he]
    exact arcfourAt_of_disjoint _ _ (Or.inl hi)
  · rw [he]
    exact arcfourAt_of_disjoint _ _ (Or.inl hi)
  · rw [he]
    cases s.frameSta a.toHdrAttrib with
    | none => rfl
    | some k => exact arcfourAt_of_disjoint _ _ (Or.inl hi)
  · rw [he]
    cases s.frameSta a.toHdrAttrib with
    | none => rfl
    | some k =>
      refine aesCipher_of_disjoint h.hdrlen (h.ccmp he).1 (Or.inl ?_)
      rw [(tx_lengths_aes he).1] at hi
      exact hi

end Encrypts

/-- The frame that `decryptor` hands on, with the memory `m`. -/
def handedOn (fr : RecvFrame) (m : Mem) : RecvFrame :=
  { fr with
    mem := m
    attrib := { fr.attrib with keyIndex := keyIndexAt fr.mem fr.ivPtr, bdecrypted := true } }

/-- The switch of `decryptor` accepts the frame and decrypts it. -/
abbrev Opens (t : Adapter κ) (f : κ) (a : XmitAttrib) (m : Mem) (g : Frag) (n : ℕ) : Prop :=
  ∃ u M, (t.toDecrypt f).swDecrypt f = (true, u) ∧
    u.recvframe f = { noted (t.recvframe f) with mem := M } ∧
    Deciphered a m g n (t.recvframe f) (handedOn (t.recvframe f) M)

/-- A frame that was encrypted with RC4. -/
theorem deciphered_arcfour {fr : RecvFrame} {rc4key : List UInt8} (he : Encrypts a m g n)
    (hicv : a.tx.icvLen = 4)
    (hr : OnAir a (arcfourAt rc4key m (g.start + a.hdrlen + a.tx.ivLen) n) g n fr) :
    ((noted fr).arcfourPayload rc4key).icvOk = true ∧
      Deciphered a m g n fr (handedOn fr ((noted fr).arcfourPayload rc4key).mem) := by
  have hlt := he.lt
  have hlen : (noted fr).payloadLen = n + 4 := (hr.payloadLen (by omega)).trans (by rw [hicv])
  have htail := hr.tail
  rw [hicv] at htail
  obtain ⟨hok, hplain⟩ := @RecvFrame.arcfour_roundTrip (noted fr) rc4key _ _ n hlen (by omega) htail
  exact ⟨hok, hplain, fun j hj => Mem.write_of_disjoint _ (Or.inl hj), rfl⟩

section Receive

variable (he : Encrypts a m g n) (hr : OnAir a (s.encryptFrag a m g) g n (t.recvframe f))

include he hr

theorem encrypt_ne : (t.recvframe f).attrib.encrypt ≠ .noPrivacy := by
  rw [hr.encrypt]
  rcases he.cipher with h | h | h | h <;> rw [h] <;> simp

/-- The IV that is received is the one that was written before the encryption. -/
theorem read_ivPtr {k : ℕ} (hk : k ≤ a.tx.ivLen) :
    (t.recvframe f).mem.read (t.recvframe f).ivPtr k = m.read (g.start + a.hdrlen) k := by
  rw [hr.readIv hk]
  exact Mem.read_congr fun i hi => he.before (by omega)

theorem keyIndexAt_eq : keyIndexAt (t.recvframe f).mem (t.recvframe f).ivPtr
    = keyIndexAt m (g.start + a.hdrlen) := by
  have hbyte := apply_of_read (read_ivPtr he hr le_rfl) he.four_le_ivLen.1
  push_cast at hbyte
  rw [keyIndexAt, keyIndexAt, hbyte]

/-- The temporal key is found by the attributes of the frame. -/
theorem hasKey_noted {key : Key} (h : t.HasKey a.ta a.ra (keyIndexAt m (g.start + a.hdrlen)) key) :
    (t.toDecrypt f).rxKey (noted (t.recvframe f)).attrib = some key ∧
      (t.toDecrypt f).rxAesKey (noted (t.recvframe f)).attrib = some key := by
  rw [← keyIndexAt_eq he hr, ← hr.ta, ← hr.ra] at h
  exact HasKey.rxKey (t := t) (b := (noted (t.recvframe f)).attrib) h

/-- The switch of `decryptor` accepts a WEP frame. It does not look at the ICV. -/
theorem swDecrypt_encryptFrag_wep (hc : a.encrypt = .wep40 ∨ a.encrypt = .wep104)
    (hkeys : s.KeysAgree a (keyIndexAt m (g.start + a.hdrlen)) t) :
    t.Opens f a m g n := by
  obtain ⟨hivlen, hicvlen⟩ := tx_lengths_wep hc
  set rc4key := m.read (g.start + a.hdrlen) 3 ++
    (s.securitypriv.dot11DefKey s.securitypriv.dot11PrivacyKeyIndex).toList.take
      (s.securitypriv.dot11DefKeylen s.securitypriv.dot11PrivacyKeyIndex) with hrc4
  have hfrag : s.encryptFrag a m g = arcfourAt rc4key m (g.start + a.hdrlen + a.tx.ivLen) n := by
    unfold encryptFrag
    rcases hc with h | h <;> simp only [h, he.u32_len] <;> rfl
  have hdec : (t.toDecrypt f).swDecrypt f = (true, (t.toDecrypt f).updateFrame f fun _ =>
      (noted (t.recvframe f)).arcfourPayload rc4key) := by
    have henc : (noted (t.recvframe f)).attrib.encrypt = a.encrypt := hr.encrypt
    have hiv : (noted (t.recvframe f)).mem.read (noted (t.recvframe f)).ivPtr 3 = _ :=
      read_ivPtr he hr (show 3 ≤ a.tx.ivLen by omega)
    have hidx : (noted (t.recvframe f)).attrib.keyIndex = _ := keyIndexAt_eq he hr
    have hkey : (noted (t.recvframe f)).rtwWepDecrypt
        (t.securitypriv.dot11DefKey (noted (t.recvframe f)).attrib.keyIndex)
        (t.securitypriv.dot11DefKeylen (noted (t.recvframe f)).attrib.keyIndex)
        = (noted (t.recvframe f)).arcfourPayload rc4key := by
      rw [RecvFrame.rtwWepDecrypt, hiv, hidx, hkeys.wep hc]
    unfold swDecrypt
    rw [recvframe_toDecrypt_of_ne (encrypt_ne he hr), ← hkey]
    unfold updateFrame
    rw [recvframe_toDecrypt_of_ne (encrypt_ne he hr)]
    rcases hc with h | h <;> simp only [henc, h] <;> rfl
  rw [hfrag] at hr
  refine ⟨_, _, hdec, ?_, (deciphered_arcfour he hicvlen hr).2⟩
  rw [recvframe_updateFrame, Function.update_self]
  rfl

/-- It accepts a TKIP frame with the right ICV. -/
theorem swDecrypt_encryptFrag_tkip (hc : a.encrypt = .tkip)
    (hkeys : s.KeysAgree a (keyIndexAt m (g.start + a.hdrlen)) t) :
    t.Opens f a m g n := by
  obtain ⟨hivlen, hicvlen⟩ := tx_lengths_tkip hc
  obtain ⟨k, hk, hkey⟩ := hkeys.temporal (Or.inl hc)
  set rc4key := tkipKey (s.txKey a.toHdrAttrib k).toList a.ta.toList (m.read (g.start + a.hdrlen) 8)
    with hrc4
  have hfrag : s.encryptFrag a m g = arcfourAt rc4key m (g.start + a.hdrlen + a.tx.ivLen) n := by
    unfold encryptFrag
    simp only [hc, hk, he.u32_len]
    rfl
  have henc : (noted (t.recvframe f)).attrib.encrypt = .tkip := hr.encrypt.trans hc
  have hiv : (noted (t.recvframe f)).mem.read (noted (t.recvframe f)).ivPtr 8 = _ :=
    read_ivPtr he hr (show 8 ≤ a.tx.ivLen by omega)
  have hta : (noted (t.recvframe f)).attrib.ta = a.ta := hr.ta
  have hrx := (hasKey_noted he hr hkey).1
  have hto := recvframe_toDecrypt_of_ne (encrypt_ne he hr)
  rw [hfrag] at hr
  obtain ⟨hok, hplain⟩ := deciphered_arcfour he hicvlen hr
  have hdec : (t.toDecrypt f).swDecrypt f = (true, (t.toDecrypt f).updateFrame f fun _ =>
      (noted (t.recvframe f)).arcfourPayload rc4key) := by
    unfold swDecrypt
    rw [hto]
    simp only [henc, hrx, RecvFrame.rtwTkipDecrypt, hiv, hta]
    rw [← hrc4, hok]
  refine ⟨_, _, hdec, ?_, hplain⟩
  rw [recvframe_updateFrame, Function.update_self]
  rfl

/-- It accepts a CCMP frame with the right MIC. -/
theorem swDecrypt_encryptFrag_aes (hc : a.encrypt = .aes)
    (hkeys : s.KeysAgree a (keyIndexAt m (g.start + a.hdrlen)) t) :
    t.Opens f a m g n := by
  obtain ⟨hivlen, hicvlen⟩ := tx_lengths_aes hc
  obtain ⟨k, hk, hkey⟩ := hkeys.temporal (Or.inr hc)
  obtain ⟨hhdr, hfits⟩ := he.ccmp hc
  have hlt := he.lt
  have hfrag : s.encryptFrag a m g = aesCipher (s.txKey a.toHdrAttrib k) a.hdrlen m g.start n := by
    unfold encryptFrag
    simp only [hc, hk, he.u32_len]
  have henc : (noted (t.recvframe f)).attrib.encrypt = .aes := hr.encrypt.trans hc
  have hhdrlen : (noted (t.recvframe f)).attrib.hdrlen = a.hdrlen := hr.hdrlen
  have hlen : (noted (t.recvframe f)).payloadLen = n + 8 :=
    (hr.payloadLen (by omega)).trans (by rw [hicvlen])
  have hrx := (hasKey_noted he hr hkey).2
  have hto := recvframe_toDecrypt_of_ne (encrypt_ne he hr)
  rw [hfrag] at hr
  have hbytes := hr.bytes
  rw [hr.len, hivlen, hicvlen] at hbytes
  obtain ⟨hok, hmem⟩ := @aes_roundTrip (s.txKey a.toHdrAttrib k) a.hdrlen n m g.start
    (t.recvframe f).mem (t.recvframe f).rxData t.aesMessage he.hdrlen hhdr hfits hbytes
  have hptr : (t.recvframe f).payloadPtr = (t.recvframe f).rxData + a.hdrlen + 8 := by
    rw [RecvFrame.payloadPtr, hr.hdrlen, hr.ivLen, hivlen]
    push_cast
    ring
  have hdec : ∃ message, (t.toDecrypt f).swDecrypt f
      = (true, { (t.toDecrypt f).updateFrame f fun _ => { noted (t.recvframe f) with
          mem := (t.recvframe f).mem.write ((t.recvframe f).rxData + a.hdrlen + 8)
            (m.read (g.start + a.hdrlen + 8) n) } with aesMessage := message }) := by
    have hmsg : (t.toDecrypt f).aesMessage = t.aesMessage := rfl
    have hmem0 : (noted (t.recvframe f)).mem = (t.recvframe f).mem := rfl
    have hdata0 : (noted (t.recvframe f)).rxData = (t.recvframe f).rxData := rfl
    unfold swDecrypt
    rw [hto]
    simp only [henc, hrx, RecvFrame.rtwAesDecrypt, hhdrlen, hlen, hmsg, hmem0, hdata0, hok, hmem]
    exact ⟨_, rfl⟩
  obtain ⟨message, hdec⟩ := hdec
  refine ⟨_, (t.recvframe f).mem.write ((t.recvframe f).rxData + a.hdrlen + 8)
    (m.read (g.start + a.hdrlen + 8) n), hdec, ?_, ?_, ?_, rfl⟩
  · simp only [recvframe_updateFrame, Function.update_self]
  · rw [hptr, handedOn, hivlen]
    exact Mem.read_write_of_length _ _ (Mem.length_read _ _ _)
  · intro i hi
    rw [hptr] at hi
    exact Mem.write_of_disjoint _ (Or.inl hi)

end Receive

/-- A fragment that was encrypted is taken apart by a device that has the key : it is accepted, and
its payload is what it was before. -/
theorem decryptor_encryptFrag (he : Encrypts a m g n)
    (hr : OnAir a (s.encryptFrag a m g) g n (t.recvframe f))
    (hkeys : s.KeysAgree a (keyIndexAt m (g.start + a.hdrlen)) t) (hsw : t.InSoftware f) :
    (t.decryptor f).1 = true ∧ Deciphered a m g n (t.recvframe f)
    ((t.decryptor f).2.recvframe f) := by
  have hdec : t.Opens f a m g n := by
    rcases he.cipher with h | h | h | h
    · exact swDecrypt_encryptFrag_wep he hr (Or.inl h) hkeys
    · exact swDecrypt_encryptFrag_wep he hr (Or.inr h) hkeys
    · exact swDecrypt_encryptFrag_tkip he hr h hkeys
    · exact swDecrypt_encryptFrag_aes he hr h hkeys
  obtain ⟨u, M, hu, hframe, hplain⟩ := hdec
  rw [decryptor_of_swDecrypt hsw (encrypt_ne he hr) hu]
  refine ⟨rfl, ?_⟩
  rw [recvframe_updateFrame, Function.update_self, hframe]
  exact hplain

end Adapter

theorem hdrlen_sample : 24 < 2 ^ 16 := by decide

/-- The attributes of a CCMP frame to the other device. -/
def sampleCcmpAttrib : XmitAttrib :=
  { subtype := 8, hdrlen := 24, encrypt := .aes, priority := 0, ackPolicy := 0, eosp := 0
    mdata := false, dst := zeroAddr, src := Adapter.sampleTa, ra := zeroAddr, htEn := false
    ampduEn := false, seqnum := 0, psta := some 1, etherType := 0x0800, hdrlen_lt := hdrlen_sample
    bswenc := true, keyIdx := 0, icv := [], pktlen := 3, ta := Adapter.sampleTa, qosEn := false
    dhcpPkt := false, lastTxcmdsz := 0, nrFrags := 1 }

/-- A header with the protected bit, an IV and a payload. -/
def sampleCcmpMem : Mem := fun i => if i = 0 then 0x08 else if i = 1 then 0x40 else UInt8.ofNat i.toNat

/-- A device with a temporal key for its peer. -/
def keyedDevice (peer : MacAddr) : Adapter ℕ :=
  ((Adapter.init [] zeroAddr).rtwAllocStainfo peer).2.updateSta 1
    fun st => { st with dot118021xUncstKey := Vector.ofFn fun i => UInt8.ofNat (17 * i) }

/-- The device that receives the three bytes of the payload. -/
def sampleReceiver : Adapter ℕ :=
  (keyedDevice Adapter.sampleTa).updateFrame 0 fun _ =>
    { initRecvframe with
      attrib := { initRecvframe.attrib with
        hdrlen := 24, encrypt := .aes, ivLen := 8, ta := Adapter.sampleTa }
      len := 43
      mem := (keyedDevice zeroAddr).encryptFrag sampleCcmpAttrib sampleCcmpMem ⟨0, 24, 3⟩ }

theorem decryptor_encryptFrag_ccmp : (sampleReceiver.decryptor 0).1 = true ∧
    Deciphered sampleCcmpAttrib sampleCcmpMem ⟨0, 24, 3⟩ 3 (sampleReceiver.recvframe 0)
      ((sampleReceiver.decryptor 0).2.recvframe 0) := by
  have he : Adapter.Encrypts sampleCcmpAttrib sampleCcmpMem ⟨0, 24, 3⟩ 3 :=
    ⟨by decide, le_rfl, rfl, by decide, fun _ => ⟨by decide, by decide⟩⟩
  have hkeys : (keyedDevice zeroAddr).KeysAgree sampleCcmpAttrib (keyIndexAt sampleCcmpMem 24)
      sampleReceiver := ⟨by decide, fun _ => ⟨1, rfl, 1, rfl, rfl⟩⟩
  exact Adapter.decryptor_encryptFrag he ⟨rfl, rfl, rfl, rfl, rfl, rfl, rfl⟩ hkeys (Or.inl rfl)

end Rtl8188eu
