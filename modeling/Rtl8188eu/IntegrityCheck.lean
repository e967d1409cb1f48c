import Rtl8188eu.CcmpCheck
import Rtl8188eu.RecvFunc

/-!
# Frames that fail their integrity check

A frame that is decrypted in software ends with an ICV (WEP and TKIP) or a MIC (CCMP). Where that is
not the one of the decrypted payload, `decryptor` should free the frame and return null, so that
nothing of it goes on (`Dropped`). Of the three functions `rtw_wep_decrypt` has no result to say so,
and every WEP frame goes on (`swDecrypt_wep`). `rtw_tkip_decrypt` and `rtw_aes_decrypt` have one,
and the latter is as good as the check of `aes_decipher`. `dropsWrong_iff` says for which frames the
law holds.
-/

set_option linter.unusedSectionVars false

namespace Rtl8188eu

open CounterMode Mem

/-- The last four bytes of a text are the checksum of the bytes before. -/
def IcvRight (text : List UInt8) : Prop :=
  text.drop (text.length - 4) = getcrc32 (text.take (text.length - 4))

instance (text : List UInt8) : Decidable (IcvRight text) := inferInstanceAs (Decidable (_ = _))

namespace RecvFrame

/-- The bytes behind the IV of a frame, decrypted with RC4. -/
def arcfourText (f : RecvFrame) (key : List UInt8) : List UInt8 :=
  (arcfourEncrypt (arcfourInit key) (f.mem.read f.payloadPtr f.payloadLen)).1

/-- The RC4 key of a WEP frame. -/
def wepRc4Key (f : RecvFrame) (key : Key) (keylength : ℕ) : List UInt8 :=
  f.mem.read f.ivPtr 3 ++ key.toList.take keylength

/-- The RC4 key of a TKIP frame. -/
def tkipRc4Key (f : RecvFrame) (prwskey : Key) : List UInt8 :=
  tkipKey prwskey.toList f.attrib.ta.toList (f.mem.read f.ivPtr 8)

theorem length_arcfourText (f : RecvFrame) (key : List UInt8) :
    (f.arcfourText key).length = f.payloadLen := by
  rw [arcfourText, length_arcfourEncrypt, Mem.length_read]

/-- The integrity check compares the ICV of the decrypted bytes. -/
theorem icvOk_arcfourPayload (f : RecvFrame) (key : List UInt8) (h4 : 4 ≤ f.payloadLen)
    (hlen : f.payloadLen < 2147483648) : (f.arcfourPayload key).icvOk = true ↔
    IcvRight (f.arcfourText key) := by
  have hs : s32 f.payloadLen = f.payloadLen := by rw [s32, if_pos hlen]
  have htext : (f.arcfourPayload key).mem.read f.payloadPtr f.payloadLen = f.arcfourText key :=
    Mem.read_write_of_length f.mem f.payloadPtr (f.length_arcfourText key)
  obtain ⟨n, hn⟩ : ∃ n, f.payloadLen = n + 4 := ⟨f.payloadLen - 4, by omega⟩
  have hsub : ((n + 4 : ℕ) : ℤ) - 4 = n := by omega
  have happ := (f.arcfourPayload key).mem.read_add 4 n f.payloadPtr
  rw [← hn, htext] at happ
  have hread : (f.arcfourPayload key).mem.read f.payloadPtr n = (f.arcfourText key).take n := by
    rw [happ, List.take_left' (Mem.length_read _ _ _)]
  have htail : (f.arcfourPayload key).mem.read
    (f.payloadPtr + n) 4 = (f.arcfourText key).drop n := by
    rw [happ, List.drop_left' (Mem.length_read _ _ _)]
  have hptr : (f.arcfourPayload key).payloadPtr = f.payloadPtr := rfl
  have hplen : (f.arcfourPayload key).payloadLen = f.payloadLen := rfl
  have hpos : f.payloadPtr + ((n + 4 : ℕ) : ℤ) - 4 = f.payloadPtr + n := by omega
  rw [hn] at hs
  rw [icvOk, hptr, hplen]
  simp only [hs, hn, hsub, hpos, Int.toNat_natCast, hread, htail, decide_eq_true_eq]
  rw [IcvRight, length_arcfourText, hn, Nat.add_sub_cancel]

end RecvFrame

/-- What a law about all frames may depend on : the cipher, the lengths of the header and of what is
behind the IV, and whether there is QoS control. -/
structure FrameKind where
  encrypt : PrivacyAlgrthm
  hdrlen : ℕ
  plen : ℕ
  qos : Bool

namespace FrameKind

/-- The kinds of the frames that are decrypted in software. They have a header as
`validate_recv_data_frame` takes it, and hold the ICV or the MIC. -/
structure Valid (k : FrameKind) : Prop where
  cipher : k.encrypt = .wep40 ∨ k.encrypt = .wep104 ∨ k.encrypt = .tkip ∨ k.encrypt = .aes
  hdrlen_ge : 24 ≤ k.hdrlen
  hdrlen_le : k.hdrlen ≤ 30
  icv : (setIceIvLen k.encrypt).2 ≤ k.plen
  plen_lt : k.plen < 2000000000

/-- The frame is of this kind. -/
structure Has (k : FrameKind) (fr : RecvFrame) : Prop where
  encrypt : fr.attrib.encrypt = k.encrypt
  hdrlen : fr.attrib.hdrlen = k.hdrlen
  ivLen : fr.attrib.ivLen = (setIceIvLen k.encrypt).1
  len : fr.len = k.hdrlen + (setIceIvLen k.encrypt).1 + k.plen
  qos : (ccmpHdr fr.mem fr.rxData k.hdrlen).qcExists = k.qos

theorem Has.payloadLen {k : FrameKind} {fr : RecvFrame} (h : k.Has fr) (hv : k.Valid) :
    fr.payloadLen = k.plen := by
  have hiv : (setIceIvLen k.encrypt).1 ≤ 8 := by
    rcases hv.cipher with he | he | he | he <;> rw [he] <;> decide
  have hlt := hv.plen_lt
  have hle := hv.hdrlen_le
  rw [RecvFrame.payloadLen, h.len, h.hdrlen, h.ivLen, u32]
  omega

end FrameKind

namespace Adapter

variable {ι : Type} [DecidableEq ι]

/-- The ICV or the MIC of the frame is that of its decrypted payload, with the key that is installed
for it. -/
def IntegrityRight (s : Adapter ι) (fr : RecvFrame) : Prop :=
  match fr.attrib.encrypt with
  | .wep40 | .wep104 =>
    let i := fr.attrib.keyIndex
    IcvRight (fr.arcfourText (fr.wepRc4Key (s.securitypriv.dot11DefKey i) (s.securitypriv.dot11DefKeylen i)))
  | .tkip => ∃ key, s.rxKey fr.attrib = some key ∧ IcvRight (fr.arcfourText (fr.tkipRc4Key key))
  | .aes => ∃ key, s.rxAesKey fr.attrib = some key ∧
      CcmMicOk key fr.attrib.hdrlen fr.mem fr.rxData fr.payloadLen
  | _ => True

/-- The frame is decrypted in software. -/
def InSoftware (s : Adapter ι) (f : ι) : Prop :=
  (s.recvframe f).attrib.bdecrypted = false ∨ s.securitypriv.swDecrypt = true

/-- `decryptor` frees the frame and returns null, and nothing else is done with it. -/
def Dropped (s : Adapter ι) (f : ι) : Prop :=
  ∃ t : Adapter ι, s.decryptor f = (false, t.rtwFreeRecvframe f) ∧
    s.recvFuncPosthandle f = some (t.rtwFreeRecvframe f)

/-- If the frame is wrong, it is dropped. -/
def DropsWrong (s : Adapter ι) (f : ι) : Prop :=
  ¬s.IntegrityRight (readKeyIndex (s.recvframe f)) → s.Dropped f

/-- The state in which the switch of `decryptor` is reached. -/
def toDecrypt (s : Adapter ι) (f : ι) : Adapter ι :=
  let s := s.updateFrame f readKeyIndex
  { s with securitypriv := { s.securitypriv with hwDecrypted := false } }

theorem attrib_readKeyIndex (fr : RecvFrame) :
    ∃ i, (readKeyIndex fr).attrib = { fr.attrib with keyIndex := i } := by
  unfold readKeyIndex
  split_ifs
  · exact ⟨_, rfl⟩
  · exact ⟨fr.attrib.keyIndex, rfl⟩

/-- A frame that is decrypted in software reaches the switch. -/
theorem decryptFrame_inSoftware {s : Adapter ι} {f : ι} (hsw : s.InSoftware f)
    (henc : (s.recvframe f).attrib.encrypt ≠ .noPrivacy) :
    (s.updateFrame f readKeyIndex).decryptFrame f = (s.toDecrypt f).swDecrypt f := by
  obtain ⟨i, hattrib⟩ := attrib_readKeyIndex (s.recvframe f)
  unfold decryptFrame
  refine if_pos ?_
  rw [recvframe_updateFrame, Function.update_self, hattrib]
  refine ⟨henc, ?_⟩
  rcases hsw with h | h
  · exact Or.inl (by rw [h]; rfl)
  · exact Or.inr h

/-- A frame that is decrypted in software gets what the switch says. -/
theorem decryptor_inSoftware {s : Adapter ι} {f : ι} (hsw : s.InSoftware f)
    (henc : (s.recvframe f).attrib.encrypt ≠ .noPrivacy) :
    (s.decryptor f).1 = ((s.toDecrypt f).swDecrypt f).1 ∧
      (((s.toDecrypt f).swDecrypt f).1 = false → s.Dropped f) := by
  have hframe := decryptFrame_inSoftware hsw henc
  cases hr : (s.toDecrypt f).swDecrypt f with
  | mk ok t =>
    rw [hr] at hframe
    cases ok with
    | true =>
      refine ⟨?_, fun h => absurd h (by simp)⟩
      simp only [decryptor, hframe, if_true]
    | false =>
      have hd : s.decryptor f = (false, t.rtwFreeRecvframe f) := by
        simp [decryptor, hframe]
      refine ⟨by rw [hd], fun _ => ⟨t, hd, ?_⟩⟩
      simp only [recvFuncPosthandle, hd]

/-! ## The three ciphers -/

theorem recvframe_toDecrypt (s : Adapter ι) (f : ι) :
    (s.toDecrypt f).recvframe f = readKeyIndex (s.recvframe f) := by
  simp [toDecrypt]

/-- The result of `rtw_wep_decrypt` is not known to `decryptor`. -/
theorem swDecrypt_wep {s : Adapter ι} {f : ι}
    (he : (readKeyIndex (s.recvframe f)).attrib.encrypt = .wep40 ∨
      (readKeyIndex (s.recvframe f)).attrib.encrypt = .wep104) : ((s.toDecrypt f).swDecrypt f).1 =
      true := by
  unfold swDecrypt
  rw [recvframe_toDecrypt]
  rcases he with he | he <;> simp [he]

/-- `rtw_tkip_decrypt` fails without a key and for a wrong ICV. -/
theorem swDecrypt_tkip {s : Adapter ι} {f : ι}
    (he : (readKeyIndex (s.recvframe f)).attrib.encrypt = .tkip)
    (h4 : 4 ≤ (readKeyIndex (s.recvframe f)).payloadLen)
    (hlen : (readKeyIndex (s.recvframe f)).payloadLen < 2147483648) :
    ((s.toDecrypt f).swDecrypt f).1 = true ↔ s.IntegrityRight (readKeyIndex (s.recvframe f)) := by
  have hkey : (s.toDecrypt f).rxKey (readKeyIndex (s.recvframe f)).attrib
      = s.rxKey (readKeyIndex (s.recvframe f)).attrib := rfl
  unfold swDecrypt IntegrityRight
  rw [recvframe_toDecrypt]
  simp only [he, hkey]
  cases hk : s.rxKey (readKeyIndex (s.recvframe f)).attrib with
  | none => simp
  | some key =>
    have hicv := (readKeyIndex (s.recvframe f)).icvOk_arcfourPayload
      ((readKeyIndex (s.recvframe f)).tkipRc4Key key) h4 hlen
    simp only [Option.some.injEq, exists_eq_left']
    exact hicv

/-- `rtw_aes_decrypt` fails without a key and where `aes_decipher` does. -/
theorem swDecrypt_aes {s : Adapter ι} {f : ι}
    (he : (readKeyIndex (s.recvframe f)).attrib.encrypt = .aes) :
    ((s.toDecrypt f).swDecrypt f).1 = true ↔
      ∃ key, s.rxAesKey (readKeyIndex (s.recvframe f)).attrib = some key ∧
        (aesDecipher key (readKeyIndex (s.recvframe f)).attrib.hdrlen
        (readKeyIndex (s.recvframe f)).mem
          (readKeyIndex (s.recvframe f)).rxData
          (readKeyIndex (s.recvframe f)).payloadLen s.aesMessage).1 = true := by
  have hkey : (s.toDecrypt f).rxAesKey (readKeyIndex (s.recvframe f)).attrib
      = s.rxAesKey (readKeyIndex (s.recvframe f)).attrib := rfl
  unfold swDecrypt
  rw [recvframe_toDecrypt]
  simp only [he, hkey]
  cases hk : s.rxAesKey (readKeyIndex (s.recvframe f)).attrib with
  | none => simp
  | some key =>
    simp only [Option.some.injEq, exists_eq_left']
    rfl

end Adapter

namespace FrameKind

variable {ι : Type} [DecidableEq ι] {k : FrameKind} {s : Adapter ι} {f : ι}

theorem Has.readKeyIndex {fr : RecvFrame} (h : k.Has fr) : k.Has (Adapter.readKeyIndex fr) := by
  unfold Adapter.readKeyIndex
  split_ifs
  · exact ⟨h.encrypt, h.hdrlen, h.ivLen, h.len, h.qos⟩
  · exact h

theorem Has.protected {fr : RecvFrame} (h : k.Has fr) (hv : k.Valid) :
    fr.attrib.encrypt ≠ .noPrivacy := by
  rw [h.encrypt]
  rcases hv.cipher with he | he | he | he <;> rw [he] <;> simp

/-- The kinds of frames for which `aes_decipher` is exact. -/
def CcmpFits (k : FrameKind) : Prop := (k.qos = true → k.hdrlen = 26) ∧ k.hdrlen + k.plen + 8 ≤ 2048

/-- A TKIP frame with a wrong ICV is dropped. -/
theorem dropsWrong_tkip (hv : k.Valid) (he : k.encrypt = .tkip) (h : k.Has (s.recvframe f))
    (hsw : s.InSoftware f) : s.DropsWrong f := by
  intro hwrong
  have hr := h.readKeyIndex
  have hlen := hr.payloadLen hv
  have hicv := hv.icv
  rw [he] at hicv
  have hlt := hv.plen_lt
  have hiff := Adapter.swDecrypt_tkip (by rw [hr.encrypt, he]) (by rw [hlen]; exact hicv) (by omega)
  refine (Adapter.decryptor_inSoftware hsw (h.protected hv)).2 ?_
  rw [← Bool.not_eq_true, hiff]
  exact hwrong

/-- A CCMP frame that is checked exactly and has a wrong MIC is dropped. -/
theorem dropsWrong_aes (hv : k.Valid) (he : k.encrypt = .aes) (hfits : k.CcmpFits)
    (h : k.Has (s.recvframe f)) (hsw : s.InSoftware f) : s.DropsWrong f := by
  intro hwrong
  have hr := h.readKeyIndex
  have hlen := hr.payloadLen hv
  have hicv := hv.icv
  rw [he] at hicv
  have haes : (Adapter.readKeyIndex (s.recvframe f)).attrib.encrypt = .aes := by rw [hr.encrypt, he]
  have hhdr : (ccmpHdr (Adapter.readKeyIndex (s.recvframe f)).mem
    (Adapter.readKeyIndex (s.recvframe f)).rxData
      k.hdrlen).hdrlen = k.hdrlen := by
    rw [ccmpHdr_hdrlen, hr.qos, if_neg fun hq => hq.2 (hfits.1 hq.1)]
  refine (Adapter.decryptor_inSoftware hsw (h.protected hv)).2 ?_
  rw [← Bool.not_eq_true, Adapter.swDecrypt_aes haes]
  rintro ⟨key, hkey, hok⟩
  refine hwrong ?_
  unfold Adapter.IntegrityRight
  simp only [haes]
  refine ⟨key, hkey, ?_⟩
  rw [hr.hdrlen, hlen] at hok ⊢
  exact (ccmpExact_of_fits hv.hdrlen_ge hicv hhdr hfits.2).1.1 hok

/-! ## Frames that go on -/

/-- A wrong frame that is decrypted goes on. -/
theorem not_dropsWrong (hv : k.Valid) (h : k.Has (s.recvframe f)) (hsw : s.InSoftware f)
    (hok : ((s.toDecrypt f).swDecrypt f).1 = true)
    (hwrong : ¬s.IntegrityRight (Adapter.readKeyIndex (s.recvframe f))) : ¬s.DropsWrong f := by
  intro hdrops
  obtain ⟨t, hd, -⟩ := hdrops hwrong
  have heq := (Adapter.decryptor_inSoftware hsw (h.protected hv)).1
  rw [hd, hok] at heq
  exact absurd heq (by simp)

/-- A frame of the kind, with the bytes `m`. -/
def frame (k : FrameKind) (m : Mem) : RecvFrame :=
  { initRecvframe with
    pkt := true
    attrib :=
      { initRecvframe.attrib with
        encrypt := k.encrypt, hdrlen := k.hdrlen, ivLen := (setIceIvLen k.encrypt).1
        icvLen := (setIceIvLen k.encrypt).2, privacy := true, ta := Adapter.sampleTa }
    len := k.hdrlen + (setIceIvLen k.encrypt).1 + k.plen
    rxTail := k.hdrlen + (setIceIvLen k.encrypt).1 + k.plen
    rxEnd := 3000000000
    mem := m }

/-- A driver that knows one station with the key `key` and has the frame `fr`. -/
def driver (key : Key) (fr : RecvFrame) : Adapter ι :=
  let s : Adapter ι := ((Adapter.init [] zeroAddr).rtwAllocStainfo Adapter.sampleTa).2
  { s.updateSta 1 fun st => { st with dot118021xUncstKey := key } with recvframe := fun _ => fr }

theorem has_frame {m : Mem} (hq : (ccmpHdr m 0 k.hdrlen).qcExists = k.qos) : k.Has (k.frame m) :=
  ⟨rfl, rfl, rfl, rfl, hq⟩

theorem inSoftware_driver (key : Key) (m : Mem) (f : ι) :
    (driver key (k.frame m) : Adapter ι).InSoftware f :=
  Or.inl rfl

theorem rtwGetStainfo_driver (key : Key) (fr : RecvFrame) :
    (driver key fr : Adapter ι).rtwGetStainfo Adapter.sampleTa = some 1 := by
  rfl

theorem rxAesKey_driver (key : Key) (m : Mem) :
    (driver key (k.frame m) : Adapter ι).rxAesKey (Adapter.readKeyIndex (k.frame m)).attrib =
    some key := by
  obtain ⟨i, hattrib⟩ := Adapter.attrib_readKeyIndex (k.frame m)
  have hra : isMcast (k.frame m).attrib.ra = false := by
    show isMcast zeroAddr = false
    decide
  have hta := @rtwGetStainfo_driver ι _ key (k.frame m)
  have hkey : ((driver key (k.frame m) : Adapter ι).sta 1).dot118021xUncstKey = key := by
    simp [driver, Adapter.updateSta]
  have hrx : (driver key (k.frame m) : Adapter ι).rxKey (Adapter.readKeyIndex (k.frame m)).attrib =
    some key := by
    unfold Adapter.rxKey
    rw [hattrib]
    simp only [hra, Bool.false_eq_true, if_false]
    rw [show (k.frame m).attrib.ta = Adapter.sampleTa from rfl, hta]
    exact congrArg some hkey
  rw [Adapter.rxAesKey, hrx, hattrib]
  simp [hra]

/-- A wrong CCMP frame that does not fit goes on. -/
theorem exists_not_dropsWrong_aes (hv : k.Valid) (he : k.encrypt = .aes)
    (hbad : ¬k.CcmpFits) (f : ι) :
    ∃ s : Adapter ι, k.Has (s.recvframe f) ∧ s.InSoftware f ∧ ¬s.DropsWrong f := by
  have hicv := hv.icv
  have hlt := hv.plen_lt
  have hle := hv.hdrlen_le
  rw [he] at hicv
  obtain ⟨key, m, hq, haccept, hwrong⟩ :=
    exists_fooled k.qos 0 (driver zeroKey (k.frame fun _ => 0) : Adapter ι).aesMessage
    hv.hdrlen_ge hv.hdrlen_le hicv (by omega) hbad
  have h : k.Has ((driver key (k.frame m) : Adapter ι).recvframe f) := has_frame hq
  have hr := h.readKeyIndex
  have hplen := hr.payloadLen hv
  have haes : (Adapter.readKeyIndex
    ((driver key (k.frame m) : Adapter ι).recvframe f)).attrib.encrypt = .aes := by
    rw [hr.encrypt, he]
  have hkey : (driver key (k.frame m) : Adapter ι).rxAesKey
      (Adapter.readKeyIndex ((driver key (k.frame m) : Adapter ι).recvframe f)).attrib = some key :=
    rxAesKey_driver key m
  have hmem : (Adapter.readKeyIndex ((driver key (k.frame m) : Adapter ι).recvframe f)).mem = m ∧
      (Adapter.readKeyIndex ((driver key (k.frame m) : Adapter ι).recvframe f)).rxData = 0 := by
    unfold Adapter.readKeyIndex
    split_ifs <;> exact ⟨rfl, rfl⟩
  refine ⟨driver key (k.frame m), h, inSoftware_driver key m f,
    not_dropsWrong hv h (inSoftware_driver key m f) ?_ ?_⟩
  · rw [Adapter.swDecrypt_aes haes]
    refine ⟨key, hkey, ?_⟩
    rw [hr.hdrlen, hplen, hmem.1, hmem.2]
    exact haccept
  · unfold Adapter.IntegrityRight
    simp only [haes]
    rintro ⟨key', hkey', hok⟩
    obtain rfl := Option.some.inj (hkey.symm.trans hkey')
    rw [hr.hdrlen, hplen, hmem.1, hmem.2] at hok
    exact hwrong hok

/-- A text of `n` bytes with a wrong ICV. -/
def wrongText (n : ℕ) : List UInt8 :=
  List.replicate (n - 4) 0 ++ (getcrc32 (List.replicate (n - 4) 0)).map (· + 1)

theorem not_icvRight_wrongText (n : ℕ) : ¬IcvRight (wrongText n) := by
  have hlen : (wrongText n).length - 4 = (List.replicate (n - 4) (0 : UInt8)).length := by
    simp [wrongText, length_getcrc32]
  rw [IcvRight, hlen, wrongText, List.drop_left, List.take_left]
  intro h
  have hhead := congrArg (fun bs => bs.headD 0) h
  simp [getcrc32, le32Bytes] at hhead

theorem length_wrongText {n : ℕ} (hn : 4 ≤ n) : (wrongText n).length = n := by
  simp only [wrongText, List.length_append, List.length_replicate, List.length_map, length_getcrc32]
  omega

/-- The bytes of a WEP frame with a wrong ICV, under an IV and a key of no bytes. -/
def wrongWep (k : FrameKind) : Mem :=
  (dataHdr k.qos 0).write (4 + k.hdrlen) (arcfourEncrypt (arcfourInit [0, 0, 0]) (wrongText k.plen)).1

theorem has_wrongWep (hv : k.Valid) : k.Has (k.frame k.wrongWep) := by
  have hge := hv.hdrlen_ge
  have hstart : SameOn 0 k.hdrlen k.wrongWep (dataHdr k.qos 0) := sameOn_write _ _ (by omega)
  refine has_frame ?_
  rw [ccmpHdr_of_sameOn hstart (by omega), qcExists_dataHdr]

theorem not_integrityRight_wrongWep (hv : k.Valid) (he : k.encrypt = .wep40 ∨ k.encrypt = .wep104) :
    ¬(driver zeroKey (k.frame k.wrongWep) : Adapter ι).IntegrityRight
      (Adapter.readKeyIndex (k.frame k.wrongWep)) := by
  have hicv : 4 ≤ k.plen := by
    have h := hv.icv
    rcases he with he | he <;> rw [he] at h <;> exact h
  have hiv : (setIceIvLen k.encrypt).1 = 4 := by
    rcases he with he | he <;> rw [he] <;> rfl
  have hr := (has_wrongWep hv).readKeyIndex
  have hge := hv.hdrlen_ge
  set fr := Adapter.readKeyIndex (k.frame k.wrongWep) with hfr
  have hmem : fr.mem = k.wrongWep ∧ fr.rxData = 0 := by
    rw [hfr, Adapter.readKeyIndex]
    split_ifs <;> exact ⟨rfl, rfl⟩
  have hkey : fr.wepRc4Key zeroKey 0 = [0, 0, 0] := by
    have hread : k.wrongWep.read (0 + k.hdrlen) 3 = (dataHdr k.qos 0).read (0 + k.hdrlen) 3 :=
      Mem.read_write_of_disjoint _ (Or.inl (by push_cast; omega))
    have hzero : ∀ i : ℤ, 0 < i → dataHdr k.qos 0 i = 0 := fun i hi => if_neg (by omega)
    rw [RecvFrame.wepRc4Key, RecvFrame.ivPtr, hmem.1, hmem.2, hr.hdrlen, hread]
    simp only [Mem.read, hzero _ (show (0 : ℤ) < 0 + k.hdrlen by omega),
      hzero _ (show (0 : ℤ) < 0 + k.hdrlen + 1 by omega),
      hzero _ (show (0 : ℤ) < 0 + k.hdrlen + 1 + 1 by omega), List.take_zero, List.append_nil]
  have htext : fr.arcfourText [0, 0, 0] = wrongText k.plen := by
    have hread : k.wrongWep.read (4 + k.hdrlen) k.plen
        = (arcfourEncrypt (arcfourInit [0, 0, 0]) (wrongText k.plen)).1 :=
      Mem.read_write_of_length _ _ (by rw [length_arcfourEncrypt, length_wrongText hicv])
    have hptr : fr.payloadPtr = 4 + k.hdrlen := by
      rw [RecvFrame.payloadPtr, hmem.2, hr.ivLen, hr.hdrlen, hiv]
      omega
    rw [RecvFrame.arcfourText, hmem.1, hptr, hr.payloadLen hv, hread, arcfourEncrypt_involutive]
  have hwrong : ¬IcvRight (fr.arcfourText (fr.wepRc4Key zeroKey 0)) := by
    rw [hkey, htext]
    exact not_icvRight_wrongText k.plen
  have henc := hr.encrypt
  unfold Adapter.IntegrityRight
  rcases he with he | he <;> rw [he] at henc <;> simp only [henc] <;> exact hwrong

/-- A wrong WEP frame goes on. -/
theorem exists_not_dropsWrong_wep (hv : k.Valid)
    (he : k.encrypt = .wep40 ∨ k.encrypt = .wep104) (f : ι) :
    ∃ s : Adapter ι, k.Has (s.recvframe f) ∧ s.InSoftware f ∧ ¬s.DropsWrong f := by
  have h : k.Has ((driver zeroKey (k.frame k.wrongWep) : Adapter ι).recvframe f) := has_wrongWep hv
  have hr := h.readKeyIndex.encrypt
  have hsw : (driver zeroKey (k.frame k.wrongWep) : Adapter ι).InSoftware f := inSoftware_driver ..
  refine ⟨_, h, hsw, not_dropsWrong hv h hsw (Adapter.swDecrypt_wep ?_)
    (not_integrityRight_wrongWep hv he)⟩
  rw [hr]
  exact he

/-- The law holds for TKIP, for CCMP frames that `aes_decipher` checks exactly, and for no other
kind. -/
theorem dropsWrong_iff (hv : k.Valid) (f : ι) :
    (∀ s : Adapter ι, k.Has (s.recvframe f) → s.InSoftware f → s.DropsWrong f) ↔
      k.encrypt = .tkip ∨ (k.encrypt = .aes ∧ (k.qos = true → k.hdrlen = 26) ∧ k.hdrlen + k.plen + 8 ≤ 2048) := by
  constructor
  · intro hall
    by_contra hbad
    have hex : ∃ s : Adapter ι, k.Has (s.recvframe f) ∧ s.InSoftware f ∧ ¬s.DropsWrong f := by
      rcases hv.cipher with he | he | he | he
      · exact exists_not_dropsWrong_wep hv (Or.inl he) f
      · exact exists_not_dropsWrong_wep hv (Or.inr he) f
      · exact absurd (Or.inl he) hbad
      · exact exists_not_dropsWrong_aes hv he (fun hfits => hbad (Or.inr ⟨he, hfits⟩)) f
    obtain ⟨s, h, hsw, hnot⟩ := hex
    exact hnot (hall s h hsw)
  · rintro (he | ⟨he, hfits⟩) s h hsw
    · exact dropsWrong_tkip hv he h hsw
    · exact dropsWrong_aes hv he hfits h hsw

end FrameKind

/-- TKIP frames with a header of 24 bytes and 100 bytes behind the IV. -/
def sampleTkipKind : FrameKind := ⟨.tkip, 24, 100, false⟩

theorem dropsWrong_iff_sampleTkipKind :
    (∀ s : Adapter ℕ, sampleTkipKind.Has (s.recvframe 0) → s.InSoftware 0 → s.DropsWrong 0) ↔
      sampleTkipKind.encrypt = .tkip ∨ (sampleTkipKind.encrypt = .aes ∧
        (sampleTkipKind.qos = true → sampleTkipKind.hdrlen = 26) ∧
          sampleTkipKind.hdrlen + sampleTkipKind.plen + 8 ≤ 2048) :=
  FrameKind.dropsWrong_iff ⟨by decide, by decide, by decide, by decide, by decide⟩ 0

/-- A WEP frame of 40 bytes. -/
def sampleWepKind : FrameKind := ⟨.wep40, 24, 12, false⟩

/-- The frame with a wrong ICV is not dropped. -/
theorem not_dropsWrong_sampleWep : ∃ s : Adapter ℕ, s.recvframe 0 = sampleWepKind.frame sampleWepKind.wrongWep ∧
    s.InSoftware 0 ∧ ¬s.DropsWrong 0 := by
  have hv : sampleWepKind.Valid := ⟨by decide, by decide, by decide, by decide, by decide⟩
  have h := FrameKind.has_wrongWep hv
  refine ⟨FrameKind.driver zeroKey (sampleWepKind.frame sampleWepKind.wrongWep), rfl,
    Or.inl rfl, ?_⟩
  exact FrameKind.not_dropsWrong hv h (Or.inl rfl)
    (Adapter.swDecrypt_wep (Or.inl h.readKeyIndex.encrypt))
    (FrameKind.not_integrityRight_wrongWep hv (Or.inl rfl))

end Rtl8188eu
