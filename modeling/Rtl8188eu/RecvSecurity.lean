import Rtl8188eu.Ccmp
import Rtl8188eu.Michael
import Rtl8188eu.RecvIndicate
import Rtl8188eu.Tkip

/-!
# Decryption of received frames

`rtw_wep_decrypt`, `rtw_tkip_decrypt` and `rtw_aes_decrypt` of `core/rtw_security.c` on a
receive frame, and `recvframe_chkmic` and `decryptor` of `core/rtw_recv.c`. WEP does not
look at the result of its integrity check.

`decryptor_eq` and `recvframeChkmic_eq` say what they change : the bytes of the frame, its
length and its decryption status, and two flags of the security state.
-/

set_option linter.unusedSectionVars false

namespace Rtl8188eu

/-- A 32-bit value as a signed one. -/
def s32 (n : ℕ) : ℤ := if n < 2147483648 then n else (n : ℤ) - 4294967296

namespace RecvFrame

/-- The address of the IV of a frame. -/
def ivPtr (f : RecvFrame) : ℤ := f.rxData + f.attrib.hdrlen

/-- The address behind the IV of a frame. -/
def payloadPtr (f : RecvFrame) : ℤ := f.rxData + f.attrib.ivLen + f.attrib.hdrlen

/-- The number of bytes behind the IV of a frame. -/
def payloadLen (f : RecvFrame) : ℕ := u32 ((f.len : ℤ) - f.attrib.hdrlen - f.attrib.ivLen)

/-- The bytes behind the IV are run through RC4. -/
def arcfourPayload (f : RecvFrame) (key : List UInt8) : RecvFrame :=
  let text := f.mem.read f.payloadPtr f.payloadLen
  { f with mem := f.mem.write f.payloadPtr (arcfourEncrypt (arcfourInit key) text).1 }

/-- The last four bytes are the checksum of the bytes behind the IV. -/
def icvOk (f : RecvFrame) : Bool :=
  let length := s32 f.payloadLen
  f.mem.read (f.payloadPtr + length - 4) 4
    = getcrc32 (f.mem.read f.payloadPtr (length - 4).toNat)

/-- `rtw_wep_decrypt` with a key of `keylength` bytes. -/
def rtwWepDecrypt (f : RecvFrame) (key : Key) (keylength : ℕ) : RecvFrame :=
  f.arcfourPayload (f.mem.read f.ivPtr 3 ++ key.toList.take keylength)

/-- `rtw_tkip_decrypt` with the temporal key `prwskey`. -/
def rtwTkipDecrypt (f : RecvFrame) (prwskey : Key) : Bool × RecvFrame :=
  let rc4key := tkipKey prwskey.toList f.attrib.ta.toList (f.mem.read f.ivPtr 8)
  let f := f.arcfourPayload rc4key
  (f.icvOk, f)

/-- `rtw_aes_decrypt` with the key `prwskey` and the static buffer of `aes_decipher`. -/
def rtwAesDecrypt (f : RecvFrame) (prwskey : Key) (message : Mem) : Bool × RecvFrame × Mem :=
  let (ok, mem, message) :=
    aesDecipher prwskey f.attrib.hdrlen f.mem f.rxData f.payloadLen message
  (ok, { f with mem := mem }, message)

/-- The MIC at the end of a frame, and the MIC that `recvframe_chkmic` computes. -/
def micOk (f : RecvFrame) (mickey : Key) : Bool :=
  let datalen := u32 ((f.len : ℤ) - f.attrib.hdrlen - f.attrib.ivLen - f.attrib.icvLen - 8)
  let payload := f.rxData + f.attrib.hdrlen + f.attrib.ivLen
  let miccode := rtwSeccalctkipmic mickey.toList f.mem f.rxData (f.mem.read payload datalen)
    (UInt8.ofNat f.attrib.priority)
  miccode = f.mem.read (payload + datalen) 8

/-- Frames that differ in the bytes, the bounds and the decryption status only. -/
def Kept (f f' : RecvFrame) : Prop :=
  f'.pkt = f.pkt ∧ f'.preorderCtrl = f.preorderCtrl ∧ ∃ keyIndex bdecrypted,
    f'.attrib = { f.attrib with keyIndex := keyIndex, bdecrypted := bdecrypted }

theorem Kept.refl (f : RecvFrame) : f.Kept f := ⟨rfl, rfl, _, _, rfl⟩

theorem Kept.trans {f g h : RecvFrame} (h1 : f.Kept g) (h2 : g.Kept h) : f.Kept h := by
  obtain ⟨p1, c1, k1, b1, a1⟩ := h1
  obtain ⟨p2, c2, k2, b2, a2⟩ := h2
  refine ⟨p2.trans p1, c2.trans c1, k2, b2, ?_⟩
  rw [a2, a1]

theorem kept_mem (f : RecvFrame) (mem : Mem) : f.Kept { f with mem := mem } :=
  ⟨rfl, rfl, _, _, rfl⟩

theorem SameBut.kept {f f' : RecvFrame} (h : f.SameBut f') : f.Kept f' :=
  ⟨h.1, h.2.2, _, _, h.2.1⟩

end RecvFrame

namespace Adapter

variable {ι : Type} [DecidableEq ι]

/-- The key of `rtw_tkip_decrypt` and `rtw_aes_decrypt` for the frame : the group key
with the key index of a group frame, or the key of the transmitter. -/
def rxKey (s : Adapter ι) (a : RxPktAttrib) : Option Key :=
  match s.rtwGetStainfo a.ta with
  | none => none
  | some psta =>
    if isMcast a.ra then
      if !s.securitypriv.binstallGrpkey then none
      else some (s.securitypriv.dot118021XGrpKey a.keyIndex)
    else some (s.sta psta).dot118021xUncstKey

/-- `rtw_aes_decrypt` also wants a group frame to have the index of the group key. -/
def rxAesKey (s : Adapter ι) (a : RxPktAttrib) : Option Key :=
  (s.rxKey a).filter fun _ =>
    !(isMcast a.ra) || s.securitypriv.dot118021XGrpKeyid = a.keyIndex

/-- The switch of `decryptor`. The result is `false` for `_FAIL`. -/
def swDecrypt (s : Adapter ι) (f : ι) : Bool × Adapter ι :=
  let fr := s.recvframe f
  match fr.attrib.encrypt with
  | .wep40 | .wep104 =>
    let i := fr.attrib.keyIndex
    (true, s.updateFrame f fun fr =>
      fr.rtwWepDecrypt (s.securitypriv.dot11DefKey i) (s.securitypriv.dot11DefKeylen i))
  | .tkip =>
    match s.rxKey fr.attrib with
    | none => (false, s)
    | some key =>
      let (ok, fr) := fr.rtwTkipDecrypt key
      (ok, s.updateFrame f fun _ => fr)
  | .aes =>
    match s.rxAesKey fr.attrib with
    | none => (false, s)
    | some key =>
      let (ok, fr, message) := fr.rtwAesDecrypt key s.aesMessage
      (ok, { s.updateFrame f fun _ => fr with aesMessage := message })
  | _ => (true, s)

/-- The key index is read from the IV of an encrypted frame. It has two bits, so it is
always that of a WEP key. -/
def readKeyIndex (fr : RecvFrame) : RecvFrame :=
  if fr.attrib.encrypt ≠ .noPrivacy then
    let keyIndex := Fin.ofNat 4 ((fr.mem (fr.ivPtr + 3)).toNat >>> 6)
    { fr with attrib := { fr.attrib with keyIndex := keyIndex } }
  else fr

/-- The choice of `decryptor` between decryption in software, a frame that the hardware has
decrypted, and neither. -/
def decryptFrame (s : Adapter ι) (f : ι) : Bool × Adapter ι :=
  let a := (s.recvframe f).attrib
  let encrypted := a.encrypt ≠ .noPrivacy
  if encrypted ∧ (!a.bdecrypted ∨ s.securitypriv.swDecrypt) then
    { s with securitypriv := { s.securitypriv with hwDecrypted := false } }.swDecrypt f
  else if a.bdecrypted ∧ encrypted ∧ (s.securitypriv.busetkipkey ∨ a.encrypt ≠ .tkip) then
    (true, { s with securitypriv := { s.securitypriv with hwDecrypted := true } })
  else (true, s)

/-- `decryptor`. The result is `false` where the source returns null, and the frame is then
back in the pool. -/
def decryptor (s : Adapter ι) (f : ι) : Bool × Adapter ι :=
  let (ok, s) := (s.updateFrame f readKeyIndex).decryptFrame f
  if ok then
    (true, s.updateFrame f fun fr => { fr with attrib := { fr.attrib with bdecrypted := true } })
  else (false, s.rtwFreeRecvframe f)

/-- The MIC key of `recvframe_chkmic`. -/
def rxMicKey (s : Adapter ι) (a : RxPktAttrib) : Option Key :=
  (s.rtwGetStainfo a.ta).map fun psta =>
    if isMcast a.ra then s.securitypriv.dot118021XGrprxmickey a.keyIndex
    else (s.sta psta).dot11tkiprxmickey

/-- `recvframe_chkmic`. The result is `false` for `_FAIL`. -/
def recvframeChkmic (s : Adapter ι) (f : ι) : Bool × Adapter ι :=
  let fr := s.recvframe f
  if fr.attrib.encrypt = .tkip then
    let pull (s : Adapter ι) : Adapter ι :=
      s.updateFrame f fun fr => (fr.recvframePullTail 8).getD fr
    match s.rxMicKey fr.attrib with
    | none => (true, pull s)
    | some mickey =>
      if fr.micOk mickey then
        let s :=
          if !s.securitypriv.bcheckGrpkey && isMcast fr.attrib.ra then
            { s with securitypriv := { s.securitypriv with bcheckGrpkey := true } }
          else s
        (true, pull s)
      else (false, pull s)
  else (true, s)

/-! ## What decryption changes -/

/-- The state after the security code worked on the frame `f` : new contents of the frame
and of the static buffer, and new flags. -/
def touched (s : Adapter ι) (f : ι) (fr : RecvFrame) (hw chk : Bool) (message : Mem) :
    Adapter ι :=
  { s with
    recvframe := Function.update s.recvframe f fr
    securitypriv := { s.securitypriv with hwDecrypted := hw, bcheckGrpkey := chk }
    aesMessage := message }

theorem touched_touched (s : Adapter ι) (f : ι) (fr fr' : RecvFrame) (hw hw' chk chk' : Bool)
    (message message' : Mem) :
    (s.touched f fr hw chk message).touched f fr' hw' chk' message'
      = s.touched f fr' hw' chk' message' := by
  simp [touched]

theorem updateFrame_eq_touched (s : Adapter ι) (f : ι) (g : RecvFrame → RecvFrame) :
    s.updateFrame f g
      = s.touched f (g (s.recvframe f)) s.securitypriv.hwDecrypted s.securitypriv.bcheckGrpkey
        s.aesMessage := rfl

@[simp] theorem touched_recvframe (s : Adapter ι) (f : ι) (fr : RecvFrame) (hw chk : Bool)
    (message : Mem) : (s.touched f fr hw chk message).recvframe f = fr := by
  simp [touched]

theorem swDecrypt_eq (s : Adapter ι) (f : ι) :
    ∃ fr message, (s.recvframe f).Kept fr ∧
      (s.swDecrypt f).2 = s.touched f fr s.securitypriv.hwDecrypted s.securitypriv.bcheckGrpkey
        message := by
  have hself : s = s.touched f (s.recvframe f) s.securitypriv.hwDecrypted
      s.securitypriv.bcheckGrpkey s.aesMessage := by
    simp [touched]
  unfold swDecrypt
  dsimp only
  split
  · exact ⟨_, s.aesMessage, RecvFrame.kept_mem _ _, rfl⟩
  · exact ⟨_, s.aesMessage, RecvFrame.kept_mem _ _, rfl⟩
  · split
    · exact ⟨_, _, RecvFrame.Kept.refl _, hself⟩
    · exact ⟨_, s.aesMessage, RecvFrame.kept_mem _ _, rfl⟩
  · split
    · exact ⟨_, _, RecvFrame.Kept.refl _, hself⟩
    · exact ⟨_, _, RecvFrame.kept_mem _ _, rfl⟩
  · exact ⟨_, _, RecvFrame.Kept.refl _, hself⟩

theorem decryptFrame_eq (s : Adapter ι) (f : ι) :
    ∃ fr hw message, (s.recvframe f).Kept fr ∧
      (s.decryptFrame f).2 = s.touched f fr hw s.securitypriv.bcheckGrpkey message := by
  have hself : ∀ hw, { s with securitypriv := { s.securitypriv with hwDecrypted := hw } }
      = s.touched f (s.recvframe f) hw s.securitypriv.bcheckGrpkey s.aesMessage := by
    simp [touched]
  unfold decryptFrame
  dsimp only
  split
  · obtain ⟨fr, message, hk, he⟩ :=
      { s with securitypriv := { s.securitypriv with hwDecrypted := false } }.swDecrypt_eq f
    exact ⟨fr, false, message, hk, he⟩
  · split
    · exact ⟨_, _, _, RecvFrame.Kept.refl _, hself true⟩
    · exact ⟨_, _, _, RecvFrame.Kept.refl _, hself s.securitypriv.hwDecrypted⟩

theorem kept_readKeyIndex (fr : RecvFrame) : fr.Kept (readKeyIndex fr) := by
  unfold readKeyIndex
  split
  · exact ⟨rfl, rfl, _, _, rfl⟩
  · exact RecvFrame.Kept.refl fr

/-- `decryptor` returns the frame, decrypted, or returns it to the pool. -/
theorem decryptor_eq (s : Adapter ι) (f : ι) :
    ∃ fr hw message, (s.recvframe f).Kept fr ∧
      (s.decryptor f = (true, s.touched f fr hw s.securitypriv.bcheckGrpkey message) ∨
        s.decryptor f = (false,
          (s.touched f fr hw s.securitypriv.bcheckGrpkey message).rtwFreeRecvframe f)) := by
  obtain ⟨fr, hw, message, hk, he⟩ := (s.updateFrame f readKeyIndex).decryptFrame_eq f
  rw [recvframe_updateFrame, Function.update_self] at hk
  rw [updateFrame_eq_touched, touched_touched] at he
  have hk' := (kept_readKeyIndex (s.recvframe f)).trans hk
  unfold decryptor
  rw [updateFrame_eq_touched]
  cases hr : (s.touched f (readKeyIndex (s.recvframe f)) s.securitypriv.hwDecrypted
      s.securitypriv.bcheckGrpkey s.aesMessage).decryptFrame f with
  | mk ok t =>
    rw [hr] at he
    obtain rfl : t = s.touched f fr hw s.securitypriv.bcheckGrpkey message := he
    cases ok with
    | false => exact ⟨fr, hw, message, hk', Or.inr rfl⟩
    | true =>
      refine ⟨{ fr with attrib := { fr.attrib with bdecrypted := true } }, hw, message,
        hk'.trans ⟨rfl, rfl, _, _, rfl⟩, Or.inl ?_⟩
      simp only [if_true]
      rw [updateFrame_eq_touched, touched_touched, touched_recvframe]
      rfl

/-- `recvframe_chkmic` takes the MIC off. -/
theorem recvframeChkmic_eq (s : Adapter ι) (f : ι) :
    ∃ fr chk, (s.recvframe f).Kept fr ∧
      (s.recvframeChkmic f).2
        = s.touched f fr s.securitypriv.hwDecrypted chk s.aesMessage := by
  have hpull : (s.recvframe f).Kept
      (((s.recvframe f).recvframePullTail 8).getD (s.recvframe f)) :=
    (RecvFrame.getD_sameBut fun _ h => RecvFrame.recvframePullTail_sameBut h).kept
  unfold recvframeChkmic
  dsimp only
  split
  · split
    · exact ⟨_, _, hpull, rfl⟩
    · split
      · split
        · exact ⟨_, true, hpull, rfl⟩
        · exact ⟨_, _, hpull, rfl⟩
      · exact ⟨_, _, hpull, rfl⟩
  · exact ⟨s.recvframe f, s.securitypriv.bcheckGrpkey, RecvFrame.Kept.refl _, by simp [touched]⟩

end Adapter

end Rtl8188eu
