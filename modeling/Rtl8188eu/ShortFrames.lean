import Rtl8188eu.IntegrityCheck

/-!
# Short protected frames

The functions that decrypt and check a received frame subtract the sizes of header, IV, ICV and MIC
from its length. Nothing on the way has compared the length with them. `ShortSafe` is what one
expects of the five functions : the lengths are what they should be and not negative, and no byte
outside the frame is read or written, nor one outside the static buffer of `aes_decipher`.

`shortSafe_iff` says for which lengths all frames are handled like that. The frame has to hold all
the parts and six bytes more, since `wlanhdr_to_ethhdr` takes off a SNAP header that it sees. A CCMP
frame must fit in the static buffer, and may not be one for which `aes_decipher` takes a header two
bytes too long. In manufacturing-test mode the 24 bytes at `rx_head` are taken for the receive
status : in a buffer that `recvbuf2recvframe` has copied the frame to, they begin in front of the
frame.
-/

namespace Rtl8188eu

open CounterMode Mem

/-- A length is as it should be and not negative. -/
structure LengthOk (computed exact : ℤ) : Prop where
  nonneg : 0 ≤ exact
  eq : computed = exact

namespace RecvFrame

/-! ## The five functions on the bytes of a frame -/

/-- `rtw_wep_decrypt`, with the comparison of the ICV. -/
def wepRun (fr : RecvFrame) (key : Key) (keylength : ℕ) (m : Mem) : Bool × Mem :=
  let f := { fr with mem := m }.rtwWepDecrypt key keylength
  (f.icvOk, f.mem)

/-- `rtw_tkip_decrypt`. -/
def tkipRun (fr : RecvFrame) (key : Key) (m : Mem) : Bool × Mem :=
  let r := { fr with mem := m }.rtwTkipDecrypt key
  (r.1, r.2.mem)

/-- `rtw_aes_decrypt`. -/
def aesRun (fr : RecvFrame) (key : Key) (message m : Mem) : Bool × Mem :=
  let r := { fr with mem := m }.rtwAesDecrypt key message
  (r.1, r.2.1.mem)

/-- `recvframe_chkmic`. -/
def chkmicRun (fr : RecvFrame) (mickey : Key) (m : Mem) : Bool × Mem := ({ fr with mem := m }.micOk mickey, m)

/-- `wlanhdr_to_ethhdr`, with the new bounds of the frame. -/
def ethRun (fr : RecvFrame) (mp : Bool) (m : Mem) : Option (ℤ × ℕ) × Mem :=
  let r := { fr with mem := m }.wlanhdrToEthhdr mp
  (r.map fun f => (f.rxData, f.len), (r.map RecvFrame.mem).getD m)

/-- The frame behind `recvframe_chkmic`. -/
def afterChkmic (fr : RecvFrame) : RecvFrame :=
  if fr.attrib.encrypt = .tkip then (fr.recvframePullTail 8).getD fr else fr

/-- The length that `wlanhdr_to_ethhdr` takes off. -/
def rmvLen (fr : RecvFrame) : ℕ := fr.attrib.hdrlen + fr.attrib.ivLen + if fr.bsnaphdr then 6 else 0

/-- The two ciphers with RC4 : the length of what is behind the IV, and that without the ICV. -/
structure Rc4Safe (fr : RecvFrame) (run : Mem → Bool × Mem) : Prop where
  length : LengthOk (s32 fr.payloadLen) (fr.len - fr.attrib.hdrlen - fr.attrib.ivLen)
  text : LengthOk (s32 fr.payloadLen - 4) (fr.len - fr.attrib.hdrlen - fr.attrib.ivLen - 4)
  inside : Inside fr.rxData fr.len fr.mem run

/-- CCMP. The static buffer has 2048 bytes. -/
structure AesSafe (fr : RecvFrame) (key : Key) : Prop where
  length : LengthOk fr.payloadLen (fr.len - fr.attrib.hdrlen - fr.attrib.ivLen)
  text : LengthOk (u32 ((fr.payloadLen : ℤ) - 8)) (fr.len - fr.attrib.hdrlen - fr.attrib.ivLen - 8)
  inside : ∀ message, Inside fr.rxData fr.len fr.mem (fr.aesRun key message)
  scratch : ∀ message a, a < 0 ∨ 2048 ≤ a → (fr.rtwAesDecrypt key message).2.2 a = message a

/-- The MIC of TKIP. -/
structure ChkmicSafe (fr : RecvFrame) (mickey : Key) : Prop where
  datalen : LengthOk (u32 ((fr.len : ℤ) - fr.attrib.hdrlen - fr.attrib.ivLen - fr.attrib.icvLen - 8))
    (fr.len - fr.attrib.hdrlen - fr.attrib.ivLen - fr.attrib.icvLen - 8)
  inside : Inside fr.rxData fr.len fr.mem (fr.chkmicRun mickey)

/-- The new header, in a frame that was received with `n` bytes. -/
structure EthSafe (fr : RecvFrame) (mp : Bool) (n : ℕ) : Prop where
  length : LengthOk (u32 ((fr.pullIcv.len : ℤ) - fr.pullIcv.rmvLen) % 65536 : ℕ)
    (fr.len - fr.attrib.icvLen - fr.pullIcv.rmvLen)
  isSome : (fr.wlanhdrToEthhdr mp).isSome = true
  inside : Inside fr.rxData n fr.mem (fr.ethRun mp)

/-- The lengths are right and nothing outside the frame is read or written. -/
structure ShortSafe (fr : RecvFrame) (mp : Bool) : Prop where
  wep : fr.attrib.encrypt = .wep40 ∨ fr.attrib.encrypt = .wep104 →
    ∀ key keylength, fr.Rc4Safe (fr.wepRun key keylength)
  tkip : fr.attrib.encrypt = .tkip → ∀ key, fr.Rc4Safe (fr.tkipRun key)
  aes : fr.attrib.encrypt = .aes → ∀ key, fr.AesSafe key
  chkmic : fr.attrib.encrypt = .tkip → ∀ mickey, fr.ChkmicSafe mickey
  eth : fr.afterChkmic.EthSafe mp fr.len

end RecvFrame

/-! ## The frame and the static buffer of `aes_decipher` -/

section Scratch

variable {key : Block} {hdrlen plen : ℕ} {m m' : Mem} {pframe : ℤ} {message : Mem}

/-- The decryption depends on the frame. -/
theorem decrypted_sameOn {n : ℕ} (hh : 24 ≤ hdrlen) (hp : 8 ≤ plen)
    (hn : (ccmpHdr m pframe hdrlen).hdrlen + plen ≤ n) (h : SameOn pframe n m' m) :
    SameOn pframe n (decrypted key m' pframe hdrlen plen) (decrypted key m pframe hdrlen plen) := by
  obtain ⟨hle, hlt⟩ := le_ccmpHdr m pframe hdrlen
  have hread : m'.read (pframe + (ccmpHdr m pframe hdrlen).hdrlen + 8) (plen - 8)
      = m.read (pframe + (ccmpHdr m pframe hdrlen).hdrlen + 8) (plen - 8) :=
        h.read (by omega) (by omega)
  rw [decrypted, decrypted, ccmpHdr_of_sameOn h (by omega),
    pnVector_of_sameOn h (show hdrlen + 8 ≤ n by omega),
    ctrBlock_congr (sameHdr_of_sameOn h (by omega)), hread]
  exact h.write _ _

/-- The MIC depends on the frame. -/
theorem ccmMicOk_congr (hh : 24 ≤ hdrlen) (hp : 8 ≤ plen)
    (h : SameOn pframe (hdrlen + 8 + plen) m' m) :
    CcmMicOk key hdrlen m' pframe plen ↔ CcmMicOk key hdrlen m pframe plen := by
  have hread : m'.read (pframe + hdrlen + plen) 8 = m.read (pframe + hdrlen + plen) 8 :=
    h.read (by omega) (by omega)
  rw [CcmMicOk, CcmMicOk, hread, frameMic_congr hh hp (h.mono (by omega))]

/-- The MIC of a frame that fits is computed in the static buffer. -/
theorem encryptedMsg_outside (hh : 24 ≤ hdrlen) (hp : 8 ≤ plen)
    (hfit : (ccmpHdr m pframe hdrlen).hdrlen + plen + 8 ≤ 2048) {a : ℤ} (ha : a < 0 ∨ 2048 ≤ a) :
    encryptedMsg key m pframe message hdrlen plen a = message a := by
  obtain ⟨hle, hlt⟩ := le_ccmpHdr m pframe hdrlen
  have hchecked : checkedMsg key m pframe message hdrlen plen a = message a := by
    simp only [checkedMsg, if_pos hfit]
    refine write_of_disjoint message ?_
    rw [length_read]
    omega
  simp only [encryptedMsg, putMic,
    ctrPayload_eq (show 24 ≤ (ccmpHdr m pframe hdrlen).hdrlen by omega)]
  rw [write_of_disjoint, write_of_disjoint, write_of_disjoint, hchecked]
  · simp only [calcMic, List.length_take, Vector.length_toList]
    omega
  · rw [length_ctr, length_read]
    omega
  · simp only [List.length_take, Vector.length_toList]
    omega

/-- The MIC that is wanted for a longer frame depends on the bytes before it. -/
theorem wantedMic_message_congr {message' : Mem} (hp : 8 ≤ plen)
    (hlong : 2048 < (ccmpHdr m pframe hdrlen).hdrlen + plen + 8)
    (hs : SameOn 0 ((ccmpHdr m pframe hdrlen).hdrlen + plen) message' message) :
    wantedMic key m pframe message' hdrlen plen = wantedMic key m pframe message hdrlen plen := by
  obtain ⟨hle, hlt⟩ := le_ccmpHdr m pframe hdrlen
  have hread : message'.read ((ccmpHdr m pframe hdrlen).hdrlen + 8) (plen - 8)
      = message.read ((ccmpHdr m pframe hdrlen).hdrlen + 8) (plen - 8) :=
        hs.read (by omega) (by omega)
  rw [wantedMic_of_long hlong, wantedMic_of_long hlong,
    ccmMic_congr (sameHdr_of_sameOn hs (by omega)), hread]

/-- Behind the static buffer, a longer frame overwrites a byte. -/
theorem exists_encryptedMsg_ne (key : Block) (hh : 24 ≤ hdrlen) (hp : 8 ≤ plen)
    (hlong : 2048 < (ccmpHdr m pframe hdrlen).hdrlen + plen + 8) :
    ∃ message a, 2048 ≤ a ∧ encryptedMsg key m pframe message hdrlen plen a ≠ message a := by
  set n := (ccmpHdr m pframe hdrlen).hdrlen + plen with hn
  set w := wantedMic key m pframe (fun _ => 0) hdrlen plen with hw
  -- the last byte of the MIC is not there before
  let message : Mem := Mem.write (fun _ => 0) (n + 7) [w.getD 7 0 + 1]
  have hsame : SameOn 0 n message fun _ => 0 := sameOn_write _ _ (by omega)
  have hwanted : wantedMic key m pframe message hdrlen plen = w :=
    wantedMic_message_congr hp hlong hsame
  have hread : (encryptedMsg key m pframe message hdrlen plen).read n 8 = w := by
    rw [← hwanted, hn, Nat.cast_add]
    exact read_encryptedMsg hh hp
  have hlast : encryptedMsg key m pframe message hdrlen plen (n + 7) = w.getD 7 0 := by
    rw [← hread]
    rfl
  have hbefore : message (n + 7) = w.getD 7 0 + 1 := by simp [message, Mem.write]
  refine ⟨message, n + 7, by omega, ?_⟩
  rw [hlast, hbefore]
  simp

end Scratch

namespace RecvFrame

/-! ## Decryption -/

section Decrypt

variable {fr : RecvFrame}

theorem payloadLen_eq (hlen : fr.attrib.hdrlen + fr.attrib.ivLen ≤ fr.len) (hlt : fr.len < 65536) :
    fr.payloadLen = fr.len - fr.attrib.hdrlen - fr.attrib.ivLen := by
  rw [payloadLen, u32]
  omega

/-- RC4 under a key that depends on the frame. -/
theorem rc4Safe_of_le {K : RecvFrame → List UInt8} {run : Mem → Bool × Mem}
    (hK : ∀ m', SameOn fr.rxData fr.len m' fr.mem → K { fr with mem := m' } = K fr)
    (hrun : ∀ m, run m = (({ fr with mem := m }.arcfourPayload (K { fr with mem := m })).icvOk,
      ({ fr with mem := m }.arcfourPayload (K { fr with mem := m })).mem))
    (hlen : fr.attrib.hdrlen + fr.attrib.ivLen + 4 ≤ fr.len)
      (hlt : fr.len < 65536) : fr.Rc4Safe run := by
  have hpl := @payloadLen_eq fr (by omega) hlt
  have hs : s32 fr.payloadLen = fr.payloadLen := by rw [s32, if_pos (by omega)]
  have hptr : fr.payloadPtr = fr.rxData + fr.attrib.ivLen + fr.attrib.hdrlen := rfl
  have htext : ∀ m', SameOn fr.rxData fr.len m' fr.mem →
      { fr with mem := m' }.arcfourText (K { fr with mem := m' }) = fr.arcfourText (K fr) := by
    intro m' hm
    have hread : m'.read fr.payloadPtr fr.payloadLen = fr.mem.read fr.payloadPtr fr.payloadLen :=
      hm.read (by omega) (by omega)
    rw [hK m' hm]
    exact congrArg (fun bs => (arcfourEncrypt (arcfourInit (K fr)) bs).1) hread
  refine ⟨⟨by omega, by omega⟩, ⟨by omega, by omega⟩, ⟨fun m' hm => ?_, fun a ha => ?_⟩⟩
  · rw [hrun, hrun]
    constructor
    · have h1 := { fr with mem := m' }.icvOk_arcfourPayload (K { fr with mem := m' })
        (show 4 ≤ fr.payloadLen by omega) (show fr.payloadLen < 2147483648 by omega)
      have h2 := fr.icvOk_arcfourPayload (K fr) (show 4 ≤ fr.payloadLen by omega)
        (show fr.payloadLen < 2147483648 by omega)
      rw [htext m' hm] at h1
      exact Bool.eq_iff_iff.2 (h1.trans h2.symm)
    · have hbytes := htext m' hm
      show SameOn fr.rxData fr.len
        (m'.write fr.payloadPtr ({ fr with mem := m' }.arcfourText (K { fr with mem := m' })))
        (fr.mem.write fr.payloadPtr (fr.arcfourText (K fr)))
      rw [hbytes]
      exact hm.write _ _
  · rw [hrun]
    refine write_of_disjoint fr.mem ?_
    rw [length_arcfourEncrypt, length_read]
    show a < fr.payloadPtr ∨ fr.payloadPtr + fr.payloadLen ≤ a
    omega

/-- CCMP, for a header that is taken as it is. -/
theorem aesSafe_of_le (key : Key) (hh : 24 ≤ fr.attrib.hdrlen) (hiv : fr.attrib.ivLen = 8)
    (hlen : fr.attrib.hdrlen + 16 ≤ fr.len) (hfit : fr.len ≤ 2048)
    (hhdr : (ccmpHdr fr.mem fr.rxData fr.attrib.hdrlen).hdrlen = fr.attrib.hdrlen) :
    fr.AesSafe key := by
  have hpl := @payloadLen_eq fr (by omega) (by omega)
  have hn : u32 ((fr.payloadLen : ℤ) - 8) = fr.payloadLen - 8 := by
    rw [u32]
    omega
  have hsum : fr.attrib.hdrlen + 8 + fr.payloadLen = fr.len := by omega
  refine ⟨⟨by omega, by omega⟩, ⟨by omega, by omega⟩,
    fun message => ⟨fun m' hm => ?_, fun a ha => ?_⟩,
    fun message a ha => ?_⟩
  · have hhdr' : (ccmpHdr m' fr.rxData fr.attrib.hdrlen).hdrlen = fr.attrib.hdrlen := by
      rw [ccmpHdr_of_sameOn hm (by omega), hhdr]
    obtain ⟨hverdict, -⟩ :=
      @ccmpExact_of_fits key fr.attrib.hdrlen fr.payloadLen fr.mem fr.rxData message hh
      (by omega) hhdr (by omega)
    obtain ⟨hverdict', -⟩ :=
      @ccmpExact_of_fits key fr.attrib.hdrlen fr.payloadLen m' fr.rxData message hh
      (by omega) hhdr' (by omega)
    have hmic := @ccmMicOk_congr key fr.attrib.hdrlen fr.payloadLen fr.mem m' fr.rxData hh
      (by omega)
      (by rw [hsum]; exact hm)
    refine ⟨Bool.eq_iff_iff.2 ((hverdict'.trans hmic).trans hverdict.symm), ?_⟩
    have hdec := (@aesDecipher_spec key fr.attrib.hdrlen fr.payloadLen fr.mem fr.rxData message hh
      (by omega)
      (by omega)).2
    have hdec' := (@aesDecipher_spec key fr.attrib.hdrlen fr.payloadLen m' fr.rxData message hh
      (by omega)
      (by omega)).2
    show SameOn fr.rxData fr.len
      (aesDecipher key fr.attrib.hdrlen m' fr.rxData fr.payloadLen message).2.1
      (aesDecipher key fr.attrib.hdrlen fr.mem fr.rxData fr.payloadLen message).2.1
    rw [hdec, hdec']
    exact decrypted_sameOn hh (by omega) (by omega) hm
  · have hdec := (@aesDecipher_spec key fr.attrib.hdrlen fr.payloadLen fr.mem fr.rxData message hh
      (by omega)
      (by omega)).2
    show (aesDecipher key fr.attrib.hdrlen fr.mem fr.rxData fr.payloadLen message).2.1 a = fr.mem a
    rw [hdec, decrypted]
    refine write_of_disjoint fr.mem ?_
    rw [length_ctr, length_read]
    omega
  · show (aesDecipher key fr.attrib.hdrlen fr.mem fr.rxData fr.payloadLen message).2.2 a = message a
    rw [aesDecipher_eq hh (by omega) (by omega)]
    exact encryptedMsg_outside hh (by omega) (by omega) ha

theorem rtwSeccalctkipmic_congr {p : ℤ} {n : ℕ} {m m' : Mem} (h : SameOn p n m' m) (hn : 30 ≤ n)
    (key data : List UInt8) (pri : UInt8) :
    rtwSeccalctkipmic key m' p data pri = rtwSeccalctkipmic key m p data pri := by
  have h1 : m' (p + 1) = m (p + 1) := h 1 (by omega)
  rw [rtwSeccalctkipmic, rtwSeccalctkipmic, h1, h.read (by omega) (by omega),
    h.read (by omega) (by omega),
    h.read (by omega) (by omega), h.read (by omega) (by omega)]

/-- The MIC of TKIP. -/
theorem chkmicSafe_of_le (mickey : Key)
    (hlen : fr.attrib.hdrlen + fr.attrib.ivLen + fr.attrib.icvLen + 8 ≤ fr.len)
    (hhdr : 24 ≤ fr.attrib.hdrlen)
    (hiv : fr.attrib.ivLen = 8) (hlt : fr.len < 65536) : fr.ChkmicSafe mickey := by
  have hu : u32 ((fr.len : ℤ) - fr.attrib.hdrlen - fr.attrib.ivLen - fr.attrib.icvLen - 8)
      = fr.len - fr.attrib.hdrlen - fr.attrib.ivLen - fr.attrib.icvLen - 8 := by
    rw [u32]
    omega
  refine ⟨⟨by omega, by omega⟩, inside_read fun m' hm => ?_⟩
  have hdata : m'.read (fr.rxData + fr.attrib.hdrlen + fr.attrib.ivLen)
        (fr.len - fr.attrib.hdrlen - fr.attrib.ivLen - fr.attrib.icvLen - 8)
      = fr.mem.read (fr.rxData + fr.attrib.hdrlen + fr.attrib.ivLen)
        (fr.len - fr.attrib.hdrlen - fr.attrib.ivLen - fr.attrib.icvLen - 8) :=
          hm.read (by omega) (by omega)
  have hmic : m'.read (fr.rxData + fr.attrib.hdrlen + fr.attrib.ivLen
        + (fr.len - fr.attrib.hdrlen - fr.attrib.ivLen - fr.attrib.icvLen - 8 : ℕ)) 8
      = fr.mem.read (fr.rxData + fr.attrib.hdrlen + fr.attrib.ivLen
        + (fr.len - fr.attrib.hdrlen - fr.attrib.ivLen - fr.attrib.icvLen - 8 : ℕ)) 8 :=
    hm.read (by omega) (by omega)
  simp only [micOk, hu, hdata, hmic, rtwSeccalctkipmic_congr hm (show 30 ≤ fr.len by omega)]

end Decrypt

/-! ## The new header -/

section Ethhdr

variable {fr : RecvFrame} {mp : Bool} {n : ℕ}

/-- The addresses and the length stay in the window. -/
theorem inside_putEthhdr {α : Type} (f : RecvFrame) {p ptr : ℤ} (b : Bool) (len : ℕ)
    (m : Mem) (x : α)
    (h1 : p ≤ ptr) (h2 : ptr + (if b then 12 else 14) ≤ p + n) :
    Inside p n m fun m => (x, ({ f with mem := m }.putEthhdr ptr b len).mem) := by
  have hdst : Inside p n m fun m => ((), m.write ptr f.attrib.dst.toList) := by
    refine inside_write (fun _ _ => rfl) h1 ?_
    simp only [Vector.length_toList]
    split_ifs at h2 <;> omega
  have hsrc : ∀ m, Inside p n m fun m => (x, m.write (ptr + 6) f.attrib.src.toList) := by
    intro m
    refine inside_write (fun _ _ => rfl) (by omega) ?_
    simp only [Vector.length_toList]
    split_ifs at h2 <;> omega
  cases b with
  | true => exact hdst.bind (k := fun _ m => (x, m.write (ptr + 6) f.attrib.src.toList)) (hsrc _)
  | false =>
    have hlen : ∀ m, Inside p n m fun m => (x, m.write (ptr + 12) (be16Bytes len)) := by
      intro m
      refine inside_write (fun _ _ => rfl) (by omega) ?_
      simp only [be16Bytes, List.length_cons, List.length_nil]
      simp only [Bool.false_eq_true, if_false] at h2
      omega
    have htail := (hsrc (m.write ptr f.attrib.dst.toList)).bind
      (k := fun x m => (x, m.write (ptr + 12) (be16Bytes len))) (hlen _)
    exact hdst.bind
      (k := fun _ m => (x,
        (m.write (ptr + 6) f.attrib.src.toList).write (ptr + 12) (be16Bytes len))) htail

theorem pullIcv_withMem (fr : RecvFrame) (m : Mem) :
    { fr with mem := m }.pullIcv = { fr.pullIcv with mem := m } := by
  unfold pullIcv recvframePullTail
  dsimp only
  split_ifs <;> rfl

/-- `g` with `rx_data` moved, and the memory `m`. -/
def pulled (g : RecvFrame) (off : ℤ) (m : Mem) : RecvFrame :=
  { g with rxData := g.rxData + off, len := u32 (g.len - off), mem := m }

/-- The move of `rx_data`, and what is written before the new header. -/
theorem pullWlanhdr_eq (g : RecvFrame) (mp b : Bool) (rmv : ℕ) (htail : g.rxData + rmv ≤ g.rxTail)
    (m : Mem) : { g with mem := m }.pullWlanhdr mp b rmv
      = if mp then
          some (g.rxData + (rmv - 14 + 2 - 24) + 24, g.pulled (rmv - 14 + 2 - 24)
            ((m.write (g.rxData + rmv) [0x87, 0x12]).write (g.rxData + (rmv - 14 + 2 - 24))
              ((m.write (g.rxData + rmv) [0x87, 0x12]).read g.rxHead 24)))
        else
          some (g.rxData + (rmv - 14 + if b then 2 else 0), g.pulled (rmv - 14 + if b then 2 else 0) m) := by
  unfold pullWlanhdr recvframePull pulled
  cases mp with
  | true =>
    have hle : ¬g.rxData + ((rmv : ℤ) - 14 + 2 - 24) > g.rxTail := by omega
    simp only [if_true, if_neg hle, Option.map_some]
  | false =>
    have hle : ¬g.rxData + ((rmv : ℤ) - 14 + if b then 2 else 0) > g.rxTail := by
      split_ifs <;> omega
    simp only [Bool.false_eq_true, if_false, if_neg hle, Option.map_some]

/-- `wlanhdr_to_ethhdr` behind the SNAP test with the result `b`. -/
def ethTail (g : RecvFrame) (mp b : Bool) (m : Mem) : Option (ℤ × ℕ) × Mem :=
  let rmv := g.attrib.hdrlen + g.attrib.ivLen + if b then 6 else 0
  let r : Option RecvFrame := (pullWlanhdr { g with mem := m } mp b rmv).map fun r : ℤ × RecvFrame =>
    r.2.putEthhdr r.1 b (u32 ((g.len : ℤ) - rmv) % 65536)
  (r.map fun f => (f.rxData, f.len), (r.map RecvFrame.mem).getD m)

theorem ethRun_eq (fr : RecvFrame) (mp : Bool) (m : Mem) :
    fr.ethRun mp m = fr.pullIcv.ethTail mp { fr.pullIcv with mem := m }.bsnaphdr m := by
  simp only [ethRun, wlanhdrToEthhdr, pullIcv_withMem, ethTail]

/-- The new header at `ptr`, when `rx_data` is moved and the memory is `m`. -/
def ethPut (g : RecvFrame) (b : Bool) (rmv : ℕ) (off ptr : ℤ) (m : Mem) : Option (ℤ × ℕ) × Mem :=
  (some (g.rxData + off, u32 (g.len - off)),
    ((g.pulled off m).putEthhdr ptr b (u32 ((g.len : ℤ) - rmv) % 65536)).mem)

/-- What is behind the SNAP test stays in the frame. -/
theorem inside_ethTail (g : RecvFrame) (b : Bool) (m : Mem) (hhdr : 24 ≤ g.attrib.hdrlen)
    (hlen : g.attrib.hdrlen + g.attrib.ivLen + 8 ≤ n)
    (htail : g.rxData + (g.attrib.hdrlen + g.attrib.ivLen + 6) ≤ g.rxTail)
    (hmp : mp = true → g.rxHead = g.rxData ∧ 36 ≤ g.attrib.hdrlen + g.attrib.ivLen) :
    Inside g.rxData n m (g.ethTail mp b) := by
  set rmv := g.attrib.hdrlen + g.attrib.ivLen + if b then 6 else 0 with hrmv
  have hle : g.attrib.hdrlen + g.attrib.ivLen ≤ rmv ∧
    rmv ≤ g.attrib.hdrlen + g.attrib.ivLen + 6 := by
    rw [hrmv]
    split_ifs <;> omega
  have hpull := pullWlanhdr_eq g mp b rmv (by omega)
  cases mp with
  | false =>
    simp only [Bool.false_eq_true, if_false] at hpull
    have heq : g.ethTail false b = g.ethPut b rmv (rmv - 14 + if b then 2 else 0)
        (g.rxData + (rmv - 14 + if b then 2 else 0)) := by
      funext m
      simp only [ethTail, ← hrmv, hpull, Option.map_some, Option.getD_some]
      rfl
    rw [heq]
    exact inside_putEthhdr _ b _ m _ (by split_ifs <;> omega) (by split_ifs <;> omega)
  | true =>
    obtain ⟨hhead, h36⟩ := hmp rfl
    simp only [if_true] at hpull
    have hputhdr : ∀ m, Inside g.rxData n m
        (g.ethPut b rmv (rmv - 14 + 2 - 24) (g.rxData + (rmv - 14 + 2 - 24) + 24)) :=
      fun m => inside_putEthhdr _ b _ m _ (by omega) (by split_ifs <;> omega)
    have hstatus : ∀ m, Inside g.rxData n m fun m =>
        ((), m.write (g.rxData + (rmv - 14 + 2 - 24)) (m.read g.rxHead 24)) := by
      intro m
      refine inside_write (fun m' hm => hm.read (by omega) (by omega)) (by omega) ?_
      rw [length_read]
      omega
    have htype : Inside g.rxData n m fun m => ((), m.write (g.rxData + rmv) [0x87, 0x12]) := by
      refine inside_write (fun _ _ => rfl) (by omega) ?_
      simp only [List.length_cons, List.length_nil]
      omega
    have heq : g.ethTail true b = fun m =>
        g.ethPut b rmv (rmv - 14 + 2 - 24) (g.rxData + (rmv - 14 + 2 - 24) + 24)
          ((m.write (g.rxData + rmv) [0x87, 0x12]).write (g.rxData + (rmv - 14 + 2 - 24))
            ((m.write (g.rxData + rmv) [0x87, 0x12]).read g.rxHead 24)) := by
      funext m
      simp only [ethTail, ← hrmv, hpull, Option.map_some, Option.getD_some]
      rfl
    rw [heq]
    have htail := (hstatus (m.write (g.rxData + rmv) [0x87, 0x12])).bind
      (k := fun _ => g.ethPut b rmv (rmv - 14 + 2 - 24) (g.rxData + (rmv - 14 + 2 - 24) + 24))
      (hputhdr _)
    exact htype.bind (k := fun _ m => g.ethPut b rmv (rmv - 14 + 2 - 24)
      (g.rxData + (rmv - 14 + 2 - 24) + 24)
      (m.write (g.rxData + (rmv - 14 + 2 - 24)) (m.read g.rxHead 24))) htail

theorem pullIcv_eq (henc : fr.attrib.encrypt ≠ .noPrivacy) (hlen : fr.attrib.icvLen ≤ fr.len)
    (hlt : fr.len < 65536) (htail : fr.rxTail = fr.rxData + fr.len) :
    fr.pullIcv = { fr with rxTail := fr.rxTail - fr.attrib.icvLen, len := fr.len - fr.attrib.icvLen } := by
  have hu : u32 ((fr.len : ℤ) - fr.attrib.icvLen) = fr.len - fr.attrib.icvLen := by
    rw [u32]
    omega
  have hle : ¬fr.rxTail - fr.attrib.icvLen < fr.rxData := by omega
  rw [pullIcv, if_pos henc, recvframePullTail, if_neg hle, hu, Option.getD_some]

/-- The new header of a frame that holds its parts and six bytes more. -/
theorem ethSafe_of_le (henc : fr.attrib.encrypt ≠ .noPrivacy) (hhdr : 24 ≤ fr.attrib.hdrlen)
    (hicv : 2 ≤ fr.attrib.icvLen)
    (hlen : fr.attrib.hdrlen + fr.attrib.ivLen + fr.attrib.icvLen + 6 ≤ fr.len) (hn : fr.len ≤ n)
    (hlt : n < 65536) (htail : fr.rxTail = fr.rxData + fr.len)
    (hmp : mp = true → fr.rxHead = fr.rxData ∧ 36 ≤ fr.attrib.hdrlen + fr.attrib.ivLen) :
    fr.EthSafe mp n := by
  have hpull := pullIcv_eq henc (by omega) (by omega) htail
  have hrmv : fr.pullIcv.rmvLen ≤ fr.attrib.hdrlen + fr.attrib.ivLen + 6 := by
    rw [hpull, rmvLen]
    dsimp only
    split_ifs <;> omega
  have hlen' : fr.pullIcv.len = fr.len - fr.attrib.icvLen := by rw [hpull]
  have hmod : u32 ((fr.pullIcv.len : ℤ) - fr.pullIcv.rmvLen) =
    fr.pullIcv.len - fr.pullIcv.rmvLen := by
    rw [u32]
    omega
  have hinside : Inside fr.rxData n fr.mem (fr.ethRun mp) := by
    have hrun : fr.ethRun mp =
      fun m => fr.pullIcv.ethTail mp { fr.pullIcv with mem := m }.bsnaphdr m :=
      funext (ethRun_eq fr mp)
    have hsnap : Inside fr.rxData n fr.mem fun m => ({ fr.pullIcv with mem := m }.bsnaphdr, m) := by
      refine inside_read fun m' hm => ?_
      have h6 : m'.read (fr.rxData + fr.attrib.hdrlen + fr.attrib.ivLen) 6
          = fr.mem.read (fr.rxData + fr.attrib.hdrlen + fr.attrib.ivLen) 6 :=
            hm.read (by omega) (by omega)
      have h2 : m'.read (fr.rxData + fr.attrib.hdrlen + fr.attrib.ivLen + 6) 2
          = fr.mem.read (fr.rxData + fr.attrib.hdrlen + fr.attrib.ivLen + 6) 2 :=
            hm.read (by omega) (by omega)
      rw [hpull]
      simp only [bsnaphdr, h6, h2]
    have htl : ∀ b m, Inside fr.rxData n m (fr.pullIcv.ethTail mp b) := by
      intro b m
      have h := @inside_ethTail mp n fr.pullIcv b m (by rw [hpull]; exact hhdr)
        (by rw [hpull]; dsimp only; omega)
        (by rw [hpull]; dsimp only; omega) (by rw [hpull]; exact hmp)
      rw [hpull] at h ⊢
      exact h
    rw [hrun]
    exact hsnap.bind (k := fun b m => fr.pullIcv.ethTail mp b m) (htl _ _)
  refine ⟨⟨by omega, by omega⟩, ?_, hinside⟩
  have hsome := pullWlanhdr_eq fr.pullIcv mp fr.pullIcv.bsnaphdr fr.pullIcv.rmvLen
    (by rw [show fr.pullIcv.rxData = fr.rxData by
      rw [hpull], show fr.pullIcv.rxTail = fr.rxTail - fr.attrib.icvLen by
      rw [hpull]]; omega) fr.pullIcv.mem
  unfold wlanhdrToEthhdr
  dsimp only
  rw [Option.isSome_map, ← rmvLen, hsome]
  split_ifs <;> rfl

end Ethhdr

end RecvFrame

/-! ## Which lengths are handled -/

/-- How many bytes of its buffer are in front of a received frame. `recvbuf2recvframe` copies the
frame to the next multiple of eight, six bytes further if the descriptor has the QoS bit. If there is
no memory for that, the frame is `cloned`, and `rx_head` is its first byte. -/
def IsRoom (cloned : Bool) (room : ℕ) : Prop :=
  if cloned then room = 0
  else ∃ align shift, 1 ≤ align ∧ align ≤ 8 ∧ (shift = 0 ∨ shift = 6) ∧ room = align + shift

/-- The frames of `len` bytes with the cipher `e` and a header of `hdrlen` bytes, as they are
received, with QoS control if `q`. -/
structure Received (e : PrivacyAlgrthm) (hdrlen len : ℕ) (cloned q : Bool) (fr : RecvFrame) :
    Prop where
  encrypt : fr.attrib.encrypt = e
  hdrlen_eq : fr.attrib.hdrlen = hdrlen
  ivLen : fr.attrib.ivLen = (setIceIvLen e).1
  icvLen : fr.attrib.icvLen = (setIceIvLen e).2
  len_eq : fr.len = len
  head : ∃ room : ℕ, IsRoom cloned room ∧ fr.rxHead = fr.rxData - room
  tail : fr.rxTail = fr.rxData + len
  qos : (ccmpHdr fr.mem fr.rxData hdrlen).qcExists = q

/-- Header, IV, ICV, the MIC of TKIP, and a SNAP header. -/
def minLen (e : PrivacyAlgrthm) (hdrlen : ℕ) : ℕ :=
  hdrlen + (setIceIvLen e).1 + (setIceIvLen e).2 + (if e = .tkip then 8 else 0) + 6

/-- The ciphers of protected frames that are decrypted. -/
def IsCipher (e : PrivacyAlgrthm) : Prop := e = .wep40 ∨ e = .wep104 ∨ e = .tkip ∨ e = .aes

namespace Received

variable {e : PrivacyAlgrthm} {hdrlen len : ℕ} {cloned q mp : Bool} {fr : RecvFrame}

theorem afterChkmic (h : Received e hdrlen len cloned q fr) (hlen : 8 ≤ len) (hlt : len < 65536) :
    fr.afterChkmic =
      if e = .tkip then { fr with rxTail := fr.rxTail - 8, len := len - 8 } else fr := by
  have hu : u32 ((fr.len : ℤ) - 8) = len - 8 := by
    rw [h.len_eq, u32]
    omega
  have hle : ¬fr.rxTail - 8 < fr.rxData := by
    rw [h.tail]
    omega
  rw [RecvFrame.afterChkmic, h.encrypt, RecvFrame.recvframePullTail, if_neg hle, hu,
    Option.getD_some]

/-- Long enough frames, with the exception of the two kinds of CCMP frames. -/
theorem shortSafe (h : Received e hdrlen len cloned q fr) (he : IsCipher e) (hh : 24 ≤ hdrlen)
    (hlt : len < 65536) (hmin : minLen e hdrlen ≤ len)
    (haes : e = .aes → (q = true → hdrlen = 26) ∧ len ≤ 2048)
    (hmp : mp = true → cloned = true ∧ 36 ≤ hdrlen + (setIceIvLen e).1) : fr.ShortSafe mp := by
  have hlen8 : 8 ≤ len := by
    rw [minLen] at hmin
    omega
  have hafter := h.afterChkmic hlen8 hlt
  obtain ⟨henc, hhdr, hiv, hicv, hlen, hhead, htail, hqos⟩ := h
  have hicv2 : 2 ≤ fr.attrib.icvLen := by
    rw [hicv]
    rcases he with he | he | he | he <;> rw [he] <;> decide
  have hprot : fr.attrib.encrypt ≠ .noPrivacy := by
    rw [henc]
    rcases he with he | he | he | he <;> rw [he] <;> simp
  rw [minLen, ← hhdr, ← hiv, ← hicv, ← hlen] at hmin
  rw [← hhdr] at hh
  have hmp' : mp = true → fr.rxHead = fr.rxData ∧ 36 ≤ fr.attrib.hdrlen + fr.attrib.ivLen := by
    intro hm
    obtain ⟨rfl, h36⟩ := hmp hm
    obtain ⟨room, hroom, heq⟩ := hhead
    obtain rfl : room = 0 := hroom
    rw [hhdr, hiv, heq]
    exact ⟨sub_zero _, h36⟩
  rw [← hlen] at hlt
  refine ⟨fun hwep key keylength => ?_, fun htkip key => ?_, fun haes' key => ?_,
    fun htkip mickey => ?_, ?_⟩
  · have hiv4 : fr.attrib.ivLen = 4 := by
      rw [hiv, ← henc]
      rcases hwep with hw | hw <;> rw [hw] <;> rfl
    refine RecvFrame.rc4Safe_of_le (K := fun f => f.wepRc4Key key keylength) (fun m' hm => ?_)
      (fun _ => rfl)
      (by omega) hlt
    have hread : m'.read fr.ivPtr 3 = fr.mem.read fr.ivPtr 3 :=
      hm.read (by rw [RecvFrame.ivPtr]; omega) (by rw [RecvFrame.ivPtr]; omega)
    exact congrArg (· ++ key.toList.take keylength) hread
  · have hiv8 : fr.attrib.ivLen = 8 := by rw [hiv, ← henc, htkip]; rfl
    refine RecvFrame.rc4Safe_of_le (K := fun f => f.tkipRc4Key key) (fun m' hm => ?_) (fun _ => rfl)
      (by omega) hlt
    have hread : m'.read fr.ivPtr 8 = fr.mem.read fr.ivPtr 8 :=
      hm.read (by rw [RecvFrame.ivPtr]; omega) (by rw [RecvFrame.ivPtr]; omega)
    exact congrArg (tkipKey key.toList fr.attrib.ta.toList) hread
  · have hiv8 : fr.attrib.ivLen = 8 := by rw [hiv, ← henc, haes']; rfl
    have hicv8 : fr.attrib.icvLen = 8 := by rw [hicv, ← henc, haes']; rfl
    obtain ⟨hq, hfit⟩ := haes (by rw [← henc, haes'])
    refine RecvFrame.aesSafe_of_le key hh hiv8 (by omega) (by omega) ?_
    rw [ccmpHdr_hdrlen, hhdr, hqos, if_neg fun hne => hne.2 (hq hne.1)]
  · have hiv8 : fr.attrib.ivLen = 8 := by rw [hiv, ← henc, htkip]; rfl
    rw [if_pos (by rw [← henc, htkip])] at hmin
    exact RecvFrame.chkmicSafe_of_le mickey (by omega) hh hiv8 hlt
  · rw [hafter]
    split_ifs at hmin ⊢ with htkip
    · exact RecvFrame.ethSafe_of_le hprot hh hicv2 (by dsimp only; omega) (by dsimp only; omega) hlt
        (by dsimp only; omega) hmp'
    · exact RecvFrame.ethSafe_of_le hprot hh hicv2 (by omega) le_rfl hlt (by omega) hmp'

/-! ## Frames that are not handled -/

theorem afterChkmic_of_lt (h : Received e hdrlen len cloned q fr) (hlen : len < 8) :
    fr.afterChkmic = fr := by
  have hle : fr.rxTail - 8 < fr.rxData := by
    rw [h.tail]
    omega
  rw [RecvFrame.afterChkmic, RecvFrame.recvframePullTail, if_pos hle, Option.getD_none]
  split_ifs <;> rfl

/-- The bytes, their start and the attributes stay as they are when the tail is cut. -/
theorem pullTail_same (f : RecvFrame) (sz : ℤ) : ((f.recvframePullTail sz).getD f).mem = f.mem ∧
    ((f.recvframePullTail sz).getD f).rxData = f.rxData ∧
      ((f.recvframePullTail sz).getD f).attrib = f.attrib := by
  unfold RecvFrame.recvframePullTail
  split_ifs <;> exact ⟨rfl, rfl, rfl⟩

theorem bsnaphdr_afterChkmic (fr : RecvFrame) : fr.afterChkmic.pullIcv.bsnaphdr = fr.bsnaphdr ∧
    fr.afterChkmic.pullIcv.attrib = fr.attrib ∧ fr.afterChkmic.attrib = fr.attrib := by
  have hafter : fr.afterChkmic.mem = fr.mem ∧ fr.afterChkmic.rxData = fr.rxData ∧
      fr.afterChkmic.attrib = fr.attrib := by
    unfold RecvFrame.afterChkmic
    split_ifs
    · exact pullTail_same fr 8
    · exact ⟨rfl, rfl, rfl⟩
  have hpull : fr.afterChkmic.pullIcv.mem = fr.afterChkmic.mem ∧
      fr.afterChkmic.pullIcv.rxData = fr.afterChkmic.rxData ∧
        fr.afterChkmic.pullIcv.attrib = fr.afterChkmic.attrib := by
    unfold RecvFrame.pullIcv
    split_ifs
    · exact pullTail_same _ _
    · exact ⟨rfl, rfl, rfl⟩
  obtain ⟨hm, hr, ha⟩ := hafter
  obtain ⟨hm', hr', ha'⟩ := hpull
  refine ⟨?_, ha'.trans ha, ha⟩
  rw [RecvFrame.bsnaphdr, RecvFrame.bsnaphdr, hm', hr', ha', hm, hr, ha]

/-- A frame with a SNAP header is taken to have the length of one behind all of its parts. -/
theorem not_shortSafe_of_snap (h : Received e hdrlen len cloned q fr) (hsnap : fr.bsnaphdr = true)
    (hlt : len < 65536) (hmin : len < minLen e hdrlen) (hh : 24 ≤ hdrlen) : ¬fr.ShortSafe mp := by
  intro hsafe
  have hnonneg := hsafe.eth.length.nonneg
  obtain ⟨hs, ha, ha'⟩ := bsnaphdr_afterChkmic fr
  have hrmv : fr.afterChkmic.pullIcv.rmvLen = hdrlen + (setIceIvLen e).1 + 6 := by
    rw [RecvFrame.rmvLen, hs, hsnap, ha, h.hdrlen_eq, h.ivLen, if_pos rfl]
  rw [hrmv, ha', h.icvLen] at hnonneg
  rw [minLen] at hmin
  push_cast at hnonneg
  by_cases hlen : len < 8
  · rw [h.afterChkmic_of_lt hlen, h.len_eq] at hnonneg
    omega
  · rw [h.afterChkmic (by omega) hlt] at hnonneg
    split_ifs at hmin hnonneg with htkip
    · dsimp only at hnonneg
      omega
    · rw [h.len_eq] at hnonneg
      omega

/-- A frame of the kind with the bytes `m`, `room` bytes behind the start of its buffer. -/
def frame (e : PrivacyAlgrthm) (hdrlen len room : ℕ) (m : Mem) : RecvFrame :=
  { initRecvframe with
    pkt := true
    attrib :=
      { initRecvframe.attrib with
        encrypt := e, hdrlen := hdrlen, ivLen := (setIceIvLen e).1, icvLen := (setIceIvLen e).2, privacy := true
        ta := Adapter.sampleTa }
    len := len
    rxHead := 0 - room
    rxTail := 0 + len
    rxEnd := 70000
    mem := m }

theorem received_frame (e : PrivacyAlgrthm) (hdrlen len : ℕ) {room : ℕ} {m : Mem}
    (hroom : IsRoom cloned room) (hq : (ccmpHdr m 0 hdrlen).qcExists = q) :
    Received e hdrlen len cloned q (frame e hdrlen len room m) :=
  ⟨rfl, rfl, rfl, rfl, rfl, ⟨room, hroom, rfl⟩, rfl, hq⟩

/-- The room in front of a frame that is cloned, or copied to a buffer one byte in front of a multiple
of eight. -/
def minRoom (cloned : Bool) : ℕ := if cloned then 0 else 1

theorem isRoom_minRoom (cloned : Bool) : IsRoom cloned (minRoom cloned) := by
  cases cloned with
  | true => rfl
  | false => exact ⟨1, 0, le_rfl, by decide, Or.inl rfl, rfl⟩

/-- The bytes of a frame with a SNAP header. -/
def snapBytes (e : PrivacyAlgrthm) (hdrlen : ℕ) (q : Bool) : Mem :=
  (dataHdr q 0).write (0 + hdrlen + (setIceIvLen e).1) bridgeTunnelHeader

theorem exists_short (e : PrivacyAlgrthm) (cloned q mp : Bool) (hh : 24 ≤ hdrlen) (hlt : len < 65536)
    (hmin : len < minLen e hdrlen) : ∃ fr, Received e hdrlen len cloned q fr ∧ ¬fr.ShortSafe mp := by
  have hsame : SameOn 0 2 (snapBytes e hdrlen q) (dataHdr q 0) := sameOn_write _ _ (by omega)
  have hq : (ccmpHdr (snapBytes e hdrlen q) 0 hdrlen).qcExists = q := by
    rw [ccmpHdr_of_sameOn hsame le_rfl, qcExists_dataHdr]
  have hsnap : (frame e hdrlen len (minRoom cloned) (snapBytes e hdrlen q)).bsnaphdr = true := by
    have hread : (snapBytes e hdrlen q).read (0 + hdrlen + (setIceIvLen e).1) 6 =
      bridgeTunnelHeader :=
      Mem.read_write_of_length _ _ rfl
    show isSnapHdr ((snapBytes e hdrlen q).read (0 + hdrlen + (setIceIvLen e).1) 6) _ = true
    rw [hread]
    simp [isSnapHdr]
  have hreceived := received_frame e hdrlen len (isRoom_minRoom cloned) hq
  exact ⟨_, hreceived, hreceived.not_shortSafe_of_snap hsnap hlt hmin hh⟩

theorem payloadLen_frame (hdrlen len room : ℕ) (m : Mem) (hlen : hdrlen + 8 ≤ len)
    (hlt : len < 65536) : (frame .aes hdrlen len room m).payloadLen = len - hdrlen - 8 :=
  RecvFrame.payloadLen_eq (show hdrlen + 8 ≤ len from hlen) hlt

/-- With the header taken two bytes longer, the byte behind the frame decides whether it is
accepted. -/
theorem exists_behind (cloned : Bool) (hh : 24 ≤ hdrlen) (hmin : hdrlen + 16 ≤ len) (hlt : len < 65536)
    (hne : hdrlen ≠ 26) :
    ∃ fr, Received .aes hdrlen len cloned true fr ∧ ¬fr.AesSafe zeroKey := by
  obtain ⟨plen, hplen⟩ : ∃ plen, len = hdrlen + 8 + plen := ⟨len - hdrlen - 8, by omega⟩
  have hqc := qcExists_dataHdr true 0 hdrlen
  have hhdr : (ccmpHdr (dataHdr true 0) 0 hdrlen).hdrlen = hdrlen + 2 := by
    rw [ccmpHdr_hdrlen, hqc, if_pos ⟨rfl, hne⟩]
  set w := wantedMic zeroKey (dataHdr true 0) 0 (fun _ => 0) hdrlen plen with hw
  let m₁ := (dataHdr true 0).write (0 + (hdrlen + 2 : ℕ) + plen) w
  let m₂ := m₁.write (0 + len) [m₁ (0 + len) + 1]
  have hsame₁ : SameOn 0 (hdrlen + 2 + plen) m₁ (dataHdr true 0) :=
    sameOn_write _ _ (by push_cast; omega)
  have hsame₂ : SameOn 0 len m₂ m₁ := sameOn_write _ _ le_rfl
  have hhdr₁ : (ccmpHdr m₁ 0 hdrlen).hdrlen = hdrlen + 2 := by
    rw [ccmpHdr_of_sameOn hsame₁ (by omega), hhdr]
  have hhdr₂ : (ccmpHdr m₂ 0 hdrlen).hdrlen = hdrlen + 2 := by
    rw [ccmpHdr_of_sameOn hsame₂ (by omega), hhdr₁]
  have haccept : (aesDecipher zeroKey hdrlen m₁ 0 plen fun _ => 0).1 = true := by
    have h := @aesDecipher_write_wantedMic zeroKey hdrlen plen (dataHdr true 0) 0 (fun _ => 0) hh
      (by omega) (by omega)
    rw [hhdr] at h
    exact h
  refine ⟨frame .aes hdrlen len (minRoom cloned) m₁,
    received_frame .aes hdrlen len (isRoom_minRoom cloned) ?_, fun hsafe => ?_⟩
  · rw [ccmpHdr_of_sameOn hsame₁ (by omega), hqc]
  · have hlen := payloadLen_frame hdrlen len (minRoom cloned) m₁ (by omega) hlt
    have hpl : len - hdrlen - 8 = plen := by omega
    have hverdict : (aesDecipher zeroKey hdrlen m₂ 0
      (frame .aes hdrlen len (minRoom cloned) m₁).payloadLen fun _ => 0).1
        = (aesDecipher zeroKey hdrlen m₁ 0 (frame .aes hdrlen len (minRoom cloned) m₁).payloadLen
          fun _ => 0).1 :=
      ((hsafe.inside fun _ => 0).reads m₂ hsame₂).1
    rw [hlen, hpl, haccept, (aesDecipher_spec hh (by omega) (by omega)).1, hhdr₂,
      wantedMic_congr hh (by omega) (by rw [hhdr₂]; exact hsame₂.mono (by omega))] at hverdict
    have hspec := (aesDecipher_spec hh (by omega) (by omega)).1.1 haccept
    rw [hhdr₁] at hspec
    have hbyte := congrArg (fun bs => bs.getD 6 0) (hverdict.trans hspec.symm)
    have hget : ∀ m : Mem, (m.read (0 + (hdrlen + 2 : ℕ) + plen) 8).getD 6 0 = m (0 + len) := by
      intro m
      have hpos : 0 + ((hdrlen + 2 : ℕ) : ℤ) + plen + (6 : ℕ) = 0 + len := by
        push_cast
        omega
      rw [List.getD_eq_getElem?_getD, List.getElem?_eq_getElem (by simp), Option.getD_some,
        getElem_read, hpos]
    simp only [hget] at hbyte
    have hself : m₂ (0 + len) = m₁ (0 + len) + 1 := by simp [m₂, Mem.write]
    rw [hself] at hbyte
    simp at hbyte

/-- A CCMP frame that does not fit overwrites what is behind the static buffer. -/
theorem exists_long (hh : 24 ≤ hdrlen) (hlong : 2048 < len) (hle : hdrlen ≤ 30) (hlt : len < 65536)
    (cloned q : Bool) :
    ∃ fr, Received .aes hdrlen len cloned q fr ∧ ¬fr.AesSafe zeroKey := by
  obtain ⟨plen, hplen⟩ : ∃ plen, len = hdrlen + 8 + plen := ⟨len - hdrlen - 8, by omega⟩
  obtain ⟨hge, -⟩ := le_ccmpHdr (dataHdr q 0) 0 hdrlen
  obtain ⟨message, a, ha, hne⟩ :=
    @exists_encryptedMsg_ne hdrlen plen (dataHdr q 0) 0 zeroKey hh (by omega) (by omega)
  refine ⟨frame .aes hdrlen len (minRoom cloned) (dataHdr q 0),
    received_frame .aes hdrlen len (isRoom_minRoom cloned) (qcExists_dataHdr q 0 hdrlen), ?_⟩
  intro hsafe
  have hlen := payloadLen_frame hdrlen len (minRoom cloned) (dataHdr q 0) (by omega) hlt
  have hpl : len - hdrlen - 8 = plen := by omega
  have hscratch : (aesDecipher zeroKey hdrlen (dataHdr q 0) 0
    (frame .aes hdrlen len (minRoom cloned) (dataHdr q 0)).payloadLen
      message).2.2 a = message a := hsafe.scratch message a (Or.inr ha)
  rw [hlen, hpl, aesDecipher_eq hh (by omega) (by omega)] at hscratch
  exact hne hscratch

/-- Where the receive status goes in manufacturing-test mode. -/
def statusPtr (g : RecvFrame) : ℤ :=
  g.rxData + (((g.attrib.hdrlen + g.attrib.ivLen : ℕ) : ℤ) - 14 + 2 - 24)

/-- The first byte of the buffer is copied to there. -/
theorem ethTail_status (g : RecvFrame) (m : Mem) (hhdr : 24 ≤ g.attrib.hdrlen)
    (hhead : g.rxHead ≤ g.rxData)
    (htail : g.rxData + (g.attrib.hdrlen + g.attrib.ivLen) ≤ g.rxTail) :
    (g.ethTail true false m).2 (statusPtr g) = m g.rxHead := by
  rw [statusPtr]
  set rmv := g.attrib.hdrlen + g.attrib.ivLen with hrmv
  have hpull := RecvFrame.pullWlanhdr_eq g true false rmv (by omega) m
  simp only [if_true] at hpull
  simp only [RecvFrame.ethTail, ← hrmv, Bool.false_eq_true, if_false, Nat.add_zero, hpull,
    Option.map_some,
    Option.getD_some, RecvFrame.putEthhdr, RecvFrame.pulled]
  rw [write_of_disjoint _ (Or.inl (by omega)), write_of_disjoint _ (Or.inl (by omega)),
    write_of_disjoint _ (Or.inl (by omega)), Mem.write, if_pos (by simp), sub_self]
  exact write_of_disjoint m (Or.inl (by omega))

/-- The receive status changes a byte in front of the frame, or it is taken from there. -/
def StatusOutside (fr : RecvFrame) : Prop :=
  statusPtr fr < fr.rxData ∧ fr.mem (statusPtr fr) ≠ fr.mem fr.rxHead ∨
    fr.rxData ≤ statusPtr fr ∧ fr.rxHead < fr.rxData

theorem not_ethSafe_of_mp {n : ℕ} (hprot : fr.attrib.encrypt ≠ .noPrivacy)
    (hh : 24 ≤ fr.attrib.hdrlen)
    (hlen : fr.attrib.hdrlen + fr.attrib.ivLen + fr.attrib.icvLen ≤ fr.len) (hlt : fr.len < 65536)
    (htail : fr.rxTail = fr.rxData + fr.len) (hhead : fr.rxHead ≤ fr.rxData) (hn : fr.len ≤ n)
    (hsnap : ∀ m, SameOn fr.rxData n m fr.mem → { fr with mem := m }.bsnaphdr = false)
    (hout : StatusOutside fr) : ¬fr.EthSafe true n := by
  intro hsafe
  have hpull := RecvFrame.pullIcv_eq hprot (by omega) hlt htail
  have hptr : statusPtr fr.pullIcv = statusPtr fr := by rw [hpull]; rfl
  have hheads : fr.pullIcv.rxHead = fr.rxHead := by rw [hpull]
  -- the run puts the first byte of the buffer there, whatever is in front of the frame
  have hstatus : ∀ m, SameOn fr.rxData n m fr.mem →
      (fr.ethRun true m).2 (statusPtr fr) = m fr.rxHead := by
    intro m hm
    have hsnap' : { fr.pullIcv with mem := m }.bsnaphdr = false := by
      rw [hpull]
      exact hsnap m hm
    rw [RecvFrame.ethRun_eq, hsnap', ← hptr, ← hheads]
    exact ethTail_status fr.pullIcv m (by rw [hpull]; exact hh) (by rw [hpull]; exact hhead)
      (by rw [hpull]; dsimp only; omega)
  have hsame : SameOn fr.rxData n fr.mem fr.mem := fun _ _ => rfl
  rcases hout with ⟨hfront, hne⟩ | ⟨hin, hfront⟩
  · have hwrites := hsafe.inside.writes (statusPtr fr) (Or.inl hfront)
    rw [hstatus fr.mem hsame] at hwrites
    exact hne hwrites.symm
  · -- another first byte in the buffer is another byte in the frame
    let m := fr.mem.write fr.rxHead [fr.mem fr.rxHead + 1]
    have hm : SameOn fr.rxData n m fr.mem := fun a ha =>
      write_of_disjoint fr.mem (Or.inr (by simp only [List.length_singleton]; omega))
    obtain ⟨k, hk⟩ : ∃ k : ℕ, statusPtr fr = fr.rxData + k :=
      ⟨(statusPtr fr - fr.rxData).toNat, by omega⟩
    have hbyte := (hsafe.inside.reads m hm).2 k (by rw [statusPtr] at hk; omega)
    rw [← hk, hstatus m hm, hstatus fr.mem hsame] at hbyte
    simp [m, Mem.write] at hbyte

/-- The bytes of a frame without a SNAP header. The byte at the start of its buffer is not zero. -/
def statusBytes (q : Bool) (room : ℕ) : Mem :=
  if room = 0 then dataHdr q 0 else (dataHdr q 0).write (0 - room) [1]

theorem sameOn_statusBytes (q : Bool) (room n : ℕ) :
    SameOn 0 n (statusBytes q room) (dataHdr q 0) := by
  unfold statusBytes
  split_ifs with h
  · exact fun _ _ => rfl
  · exact fun a ha => write_of_disjoint _ (Or.inr (by simp only [List.length_singleton]; omega))

/-- A copied frame, whose status is not taken from where it goes, and a cloned frame whose status goes
in front of it. -/
theorem statusOutside_frame (e : PrivacyAlgrthm) (hdrlen len room : ℕ) (q : Bool)
    (hroom : room = 0 → hdrlen + (setIceIvLen e).1 < 36)
    (hne : hdrlen + (setIceIvLen e).1 + room ≠ 36) :
    StatusOutside (frame e hdrlen len room (statusBytes q room)) := by
  have hptr : statusPtr (frame e hdrlen len room (statusBytes q room)) =
      0 + (((hdrlen + (setIceIvLen e).1 : ℕ) : ℤ) - 14 + 2 - 24) := rfl
  have hhead : statusBytes q room (0 - room) ≠ 0 := by
    unfold statusBytes
    split_ifs with h
    · subst h
      cases q <;> decide
    · simp [Mem.write]
  have hzero : ∀ a : ℤ, a < 0 → a ≠ 0 - room → statusBytes q room a = 0 := by
    intro a ha har
    have hdata : dataHdr q 0 a = 0 := if_neg (by omega)
    unfold statusBytes
    split_ifs with h
    · exact hdata
    · rw [write_of_disjoint _ (by simp only [List.length_singleton]; omega), hdata]
  rcases Nat.lt_or_ge (hdrlen + (setIceIvLen e).1) 36 with hlt | hge
  · refine Or.inl ⟨?_, ?_⟩
    · rw [hptr]
      show _ < (0 : ℤ)
      omega
    · show statusBytes q room _ ≠ statusBytes q room (0 - room)
      rw [hptr, hzero _ (by omega) (by omega)]
      exact hhead.symm
  · refine Or.inr ⟨?_, ?_⟩
    · rw [hptr]
      show (0 : ℤ) ≤ _
      omega
    · show (0 : ℤ) - room < 0
      have hpos : room ≠ 0 := fun h => absurd (hroom h) (by omega)
      omega

/-- There is room in front of such a frame. -/
theorem exists_room (cloned : Bool) (n : ℕ) (hn : cloned = true → n < 36) :
    ∃ room, IsRoom cloned room ∧ (room = 0 → n < 36) ∧ n + room ≠ 36 := by
  cases cloned with
  | true => exact ⟨0, rfl, fun _ => hn rfl, by have := hn rfl; omega⟩
  | false =>
    by_cases h : n + 1 = 36
    · exact ⟨2, ⟨2, 0, by decide, by decide, Or.inl rfl, rfl⟩, fun h0 => absurd h0 (by decide),
        by omega⟩
    · exact ⟨1, isRoom_minRoom false, fun h0 => absurd h0 (by decide), h⟩

theorem exists_status (e : PrivacyAlgrthm) (cloned q : Bool) (he : IsCipher e) (hh : 24 ≤ hdrlen)
    (hmin : minLen e hdrlen ≤ len) (hlt : len < 65536)
    (hshort : cloned = true → hdrlen + (setIceIvLen e).1 < 36) :
    ∃ fr, Received e hdrlen len cloned q fr ∧ ¬fr.ShortSafe true := by
  obtain ⟨room, hroom, hzero, hne⟩ := exists_room cloned _ hshort
  have hqos : (ccmpHdr (statusBytes q room) 0 hdrlen).qcExists = q := by
    rw [ccmpHdr_of_sameOn (sameOn_statusBytes q room 2) le_rfl, qcExists_dataHdr]
  have h := received_frame e hdrlen len hroom hqos
  refine ⟨_, h, fun hsafe => ?_⟩
  have heth := hsafe.eth
  have hprot : e ≠ .noPrivacy := by
    rcases he with he | he | he | he <;> rw [he] <;> simp
  have hout := statusOutside_frame e hdrlen len room q hzero hne
  rw [minLen] at hmin
  -- the byte where a SNAP header would start is zero
  have hsnap : ∀ m : Mem, SameOn 0 len m (statusBytes q room) →
      isSnapHdr (m.read (0 + hdrlen + (setIceIvLen e).1) 6)
        (m.read (0 + hdrlen + (setIceIvLen e).1 + 6) 2) = false := by
    intro m hm
    have hread : m.read (0 + hdrlen + (setIceIvLen e).1) 6 = m (0 + hdrlen + (setIceIvLen e).1)
        :: m.read (0 + hdrlen + (setIceIvLen e).1 + 1) 5 := rfl
    have hpos : (0 : ℤ) + hdrlen + (setIceIvLen e).1 = 0 + (hdrlen + (setIceIvLen e).1 : ℕ) := by
      push_cast
      ring
    have hbyte : m (0 + hdrlen + (setIceIvLen e).1) = 0 := by
      rw [hpos, hm _ (by omega), sameOn_statusBytes q room len _ (by omega)]
      exact if_neg (by omega)
    rw [hread, hbyte]
    simp [isSnapHdr, rfc1042Header, bridgeTunnelHeader]
  rw [h.afterChkmic (by omega) hlt] at heth
  split_ifs at hmin heth with htkip
  · refine not_ethSafe_of_mp ?_ ?_ ?_ ?_ ?_ ?_ ?_ ?_ ?_ heth
    · exact hprot
    · exact hh
    · show hdrlen + (setIceIvLen e).1 + (setIceIvLen e).2 ≤ len - 8
      omega
    · show len - 8 < 65536
      omega
    · show (0 : ℤ) + len - 8 = 0 + (len - 8 : ℕ)
      omega
    · show (0 : ℤ) - room ≤ 0
      omega
    · exact Nat.sub_le len 8
    · exact hsnap
    · exact hout
  · refine not_ethSafe_of_mp ?_ hh ?_ hlt rfl ?_ le_rfl hsnap hout heth
    · exact hprot
    · show hdrlen + (setIceIvLen e).1 + (setIceIvLen e).2 ≤ len
      omega
    · show (0 : ℤ) - room ≤ 0
      omega

/-- All frames of a length, a cipher and a header length are handled safely if and only if they hold
all parts and a SNAP header, fit in the static buffer and have a header that is taken as it is if
they are CCMP frames, and, in manufacturing-test mode, are not copied and have room for the receive
status. -/
theorem shortSafe_iff (e : PrivacyAlgrthm) (cloned q mp : Bool) (he : IsCipher e)
    (hh : 24 ≤ hdrlen) (hh' : hdrlen ≤ 30) (hlt : len < 65536) :
    (∀ fr, Received e hdrlen len cloned q fr → fr.ShortSafe mp) ↔
      minLen e hdrlen ≤ len ∧ (e = .aes → (q = true → hdrlen = 26) ∧ len ≤ 2048) ∧
        (mp = true → cloned = true ∧ 36 ≤ hdrlen + (setIceIvLen e).1) := by
  constructor
  · intro hall
    have hmin : minLen e hdrlen ≤ len := by
      by_contra hshort
      obtain ⟨fr, h, hnot⟩ := exists_short e cloned q mp hh hlt (by omega)
      exact hnot (hall fr h)
    refine ⟨hmin, fun haes => ?_, fun hmp => ?_⟩
    · subst haes
      have hsafe : ∀ fr, Received .aes hdrlen len cloned q fr → fr.AesSafe zeroKey :=
        fun fr h => (hall fr h).aes h.encrypt zeroKey
      constructor
      · rintro rfl
        by_contra hne
        have h16 : hdrlen + 16 ≤ len := by
          have h : hdrlen + 8 + 8 + 0 + 6 ≤ len := hmin
          omega
        obtain ⟨fr, h, hnot⟩ := exists_behind cloned hh h16 hlt hne
        exact hnot (hsafe fr h)
      · by_contra hlong
        obtain ⟨fr, h, hnot⟩ := exists_long hh (by omega) hh' hlt cloned q
        exact hnot (hsafe fr h)
    · subst hmp
      by_contra hout
      have hshort : cloned = true → hdrlen + (setIceIvLen e).1 < 36 := by
        intro hcloned
        by_contra hge
        exact hout ⟨hcloned, by omega⟩
      obtain ⟨fr, h, hnot⟩ := exists_status e cloned q he hh hmin hlt hshort
      exact hnot (hall fr h)
  · rintro ⟨hmin, haes, hmp⟩ fr h
    exact h.shortSafe he hh hlt hmin haes hmp

/-- Copied TKIP frames, and cloned QoS frames in manufacturing-test mode. -/
theorem shortSafe_iff_tkip : ((∀ fr, Received .tkip 24 100 false false fr → fr.ShortSafe false) ↔
    minLen .tkip 24 ≤ 100 ∧ (PrivacyAlgrthm.tkip = .aes → (false = true → 24 = 26) ∧ 100 ≤ 2048) ∧
      (false = true → false = true ∧ 36 ≤ 24 + (setIceIvLen .tkip).1)) ∧
    ((∀ fr, Received .tkip 30 100 true true fr → fr.ShortSafe true) ↔
      minLen .tkip 30 ≤ 100 ∧ (PrivacyAlgrthm.tkip = .aes → (true = true → 30 = 26) ∧ 100 ≤ 2048) ∧
        (true = true → true = true ∧ 36 ≤ 30 + (setIceIvLen .tkip).1)) :=
  ⟨shortSafe_iff .tkip false false false (Or.inr (Or.inr (Or.inl rfl))) (by decide) (by decide)
      (by decide),
    shortSafe_iff .tkip true true true (Or.inr (Or.inr (Or.inl rfl))) (by decide) (by decide)
      (by decide)⟩

/-- A CCMP frame of 30 bytes, two bytes short of its IV. -/
theorem not_shortSafe_sampleCcmp :
    Received .aes 24 30 false false (frame .aes 24 30 1 (dataHdr false 0)) ∧
    ¬(frame .aes 24 30 1 (dataHdr false 0)).ShortSafe false := by
  refine ⟨received_frame .aes 24 30 (isRoom_minRoom false) (qcExists_dataHdr false 0 24),
    fun hsafe => ?_⟩
  have hnonneg : (0 : ℤ) ≤ 30 - 24 - 8 := (hsafe.aes rfl zeroKey).length.nonneg
  omega

end Received

end Rtl8188eu
