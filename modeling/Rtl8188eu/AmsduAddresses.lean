import Rtl8188eu.AmsduDecode
import Rtl8188eu.RecvOrigin

/-!
# The addresses of A-MSDU packets

`amsdu_to_msdu` writes the addresses of the frame in front of each packet, those that
`validate_recv_data_frame` has taken from the 802.11 header. The addresses of the subframe headers
are skipped.

`Validated.addresses` says which addresses of the header these are. A packet has the addresses of
its subframe just in case they are the same (`keepsAddresses_iff`).
-/

set_option linter.unusedSectionVars false

namespace Rtl8188eu

namespace Adapter

variable {ι : Type} [DecidableEq ι] {s t u : Adapter ι} {f : ι}

/-! ## The addresses of a frame -/

/-- The source of a frame that passes `validate_recv_data_frame`. A frame from the distribution
system that is taken in manufacturing-test mode has its transmitter for its source. -/
def headerSa (s : Adapter ι) (fr : RecvFrame) : MacAddr :=
  let state := s.mlmepriv.fwState
  if getTofrDs fr.mem fr.rxData = 1 ∧ ¬(checkFwstate state wifiStationState &&
      (checkFwstate state fwLinked || checkFwstate state fwUnderLinking)) then
    macAt fr.mem (getAddr2Ptr fr.rxData)
  else getSa fr.mem fr.rxData

theorem addresses_parseQos (fr : RecvFrame) :
    (parseQos fr).dst = fr.attrib.dst ∧ (parseQos fr).src = fr.attrib.src := by
  unfold parseQos
  dsimp only
  split_ifs <;> exact ⟨rfl, rfl⟩

theorem addresses_setEncrypt (s : Adapter ι) (psta : StaId) (a : RxPktAttrib) :
    (s.setEncrypt psta a).dst = a.dst ∧ (s.setEncrypt psta a).src = a.src := by
  unfold setEncrypt
  dsimp only
  split_ifs <;> exact ⟨rfl, rfl⟩

/-- The addresses of an accepted frame are those that the check for its direction leaves. -/
theorem addresses_validateRecvDataFrame (h : s.validateRecvDataFrame f = (.success, u)) :
    ∃ k a, s.checkDirection (s.recvframe f) = (.success, some k, a) ∧
      (u.recvframe f).attrib.dst = a.dst ∧ (u.recvframe f).attrib.src = a.src := by
  unfold validateRecvDataFrame at h
  generalize s.checkDirection (s.recvframe f) = r at h
  obtain ⟨ret, psta, a⟩ := r
  dsimp only at h
  split at h
  · rename_i k
    split at h
    · simp at h
    · cases h
      obtain ⟨hdst, hsrc⟩ :=
        addresses_parseQos ((s.updateFrame f fun fr => { fr with attrib := a }).recvframe f)
      refine ⟨k, a, rfl, ?_, ?_⟩
      · simp only [recvframe_updateFrame, Function.update_self, (addresses_setEncrypt ..).1]
        simpa [updateSta] using hdst
      · simp only [recvframe_updateFrame, Function.update_self, (addresses_setEncrypt ..).2]
        simpa [updateSta] using hsrc
  · simp at h
  · rename_i h₁ h₂
    cases h
    cases psta with
    | none => exact absurd rfl (h₂ rfl)
    | some k => exact absurd rfl (h₁ k rfl)

/-- The lookup of the station leaves the addresses. -/
theorem attrib_sta2staLookup (s : Adapter ι) (ret : Status) (bmcast : Bool)
    (staAddr : Option MacAddr)
    (a : RxPktAttrib) : (s.sta2staLookup ret bmcast staAddr a).2.2 = a := by
  unfold sta2staLookup
  split <;> rfl

/-- An ad-hoc frame keeps the addresses of its header. In manufacturing-test mode they are read
again. -/
theorem addresses_sta2staDataFrame (s : Adapter ι) {fr : RecvFrame}
    (hdst : fr.attrib.dst = macAt fr.mem (getAddr1Ptr fr.rxData))
    (hsrc : fr.attrib.src = macAt fr.mem (getAddr2Ptr fr.rxData)) :
    (s.sta2staDataFrame fr).2.2.dst = macAt fr.mem (getAddr1Ptr fr.rxData) ∧
      (s.sta2staDataFrame fr).2.2.src = macAt fr.mem (getAddr2Ptr fr.rxData) := by
  unfold sta2staDataFrame
  dsimp only
  split_ifs <;> simp only [attrib_sta2staLookup] <;> first | exact ⟨hdst, hsrc⟩ | exact ⟨rfl, rfl⟩

/-- A station takes a frame from the distribution system with the addresses of its header. The
manufacturing-test mode reads them again. -/
theorem addresses_ap2staDataFrame {fr : RecvFrame} {psta : Option StaId} {a : RxPktAttrib}
    (h : s.ap2staDataFrame fr = (.success, psta, a)) :
    if checkFwstate s.mlmepriv.fwState wifiStationState &&
      (checkFwstate s.mlmepriv.fwState fwLinked ||
        checkFwstate s.mlmepriv.fwState fwUnderLinking) then a = fr.attrib
    else a = { mpAddresses fr with bssid := s.mlmepriv.curBssid } := by
  unfold ap2staDataFrame at h
  dsimp only at h
  split_ifs with hsta
  · rw [if_pos hsta] at h
    iterate 3
      split at h
      · simp at h
    split at h
    · simp at h
    · split at h
      · simp at h
      · simp only [Prod.mk.injEq] at h
        exact h.2.2.symm
  · rw [if_neg hsta] at h
    split at h
    · split at h
      · simp at h
      · simp only [Prod.mk.injEq] at h
        exact h.2.2.symm
    · split at h <;> simp at h

/-- The addresses of a frame that passes the check for its direction. -/
theorem addresses_checkDirection {fr : RecvFrame}
    (hdir : fr.attrib.toFrDs = getTofrDs fr.mem fr.rxData)
    {k : StaId} {a : RxPktAttrib} (h : s.checkDirection fr = (.success, some k, a)) :
    a.dst = getDa fr.mem fr.rxData ∧ a.src = s.headerSa fr := by
  unfold checkDirection at h
  dsimp only at h
  split at h <;> rename_i hds <;> have hds' := hdir.symm.trans hds
  · have haddr := @addresses_sta2staDataFrame _ _ s { fr with attrib := { fr.attrib with
      dst := getDa fr.mem fr.rxData, src := getSa fr.mem fr.rxData, bssid :=
      getHdrBssid fr.mem fr.rxData
      ra := getDa fr.mem fr.rxData, ta := getSa fr.mem fr.rxData } }
      (by simp only [getDa, hds']) (by simp only [getSa, hds'])
    rw [h] at haddr
    simpa only [headerSa, getDa, getSa, hds', Fin.isValue, zero_ne_one, false_and,
      if_false] using haddr
  · have haddr := addresses_ap2staDataFrame h
    split_ifs at haddr with hsta
    · rw [haddr, headerSa, if_neg fun hmp => hmp.2 hsta]
      exact ⟨rfl, rfl⟩
    · rw [haddr, headerSa, if_pos ⟨hds', hsta⟩]
      refine ⟨?_, rfl⟩
      simp only [getDa, hds']
      rfl
  · obtain ⟨rfl, -⟩ := sta2apDataFrame_success h
    rw [headerSa, if_neg fun hmp => absurd (hds'.symm.trans hmp.1) (by decide)]
    exact ⟨rfl, rfl⟩
  · simp at h

/-- The frame `f` of the state `t` has passed `validate_recv_data_frame` in the state `s`, and still
has the addresses it got there. -/
structure Validated (s t : Adapter ι) (f : ι) : Prop where
  toFrDs : (s.recvframe f).attrib.toFrDs = getTofrDs (s.recvframe f).mem (s.recvframe f).rxData
  accepted : ∃ u, s.validateRecvDataFrame f = (.success, u) ∧
    (t.recvframe f).attrib.dst = (u.recvframe f).attrib.dst ∧
    (t.recvframe f).attrib.src = (u.recvframe f).attrib.src

/-- An accepted frame has the addresses of its header. -/
theorem Validated.addresses (h : Validated s t f) :
    (t.recvframe f).attrib.dst = getDa (s.recvframe f).mem (s.recvframe f).rxData ∧
      (t.recvframe f).attrib.src = s.headerSa (s.recvframe f) := by
  obtain ⟨hdir, u, hu, hdst, hsrc⟩ := h
  obtain ⟨k, a, hcheck, hda, hsa⟩ := addresses_validateRecvDataFrame hu
  obtain ⟨hda', hsa'⟩ := addresses_checkDirection hdir hcheck
  exact ⟨hdst.trans (hda.trans hda'), hsrc.trans (hsa.trans hsa')⟩

/-! ## The addresses of the packets -/

/-- The packets that `amsdu_to_msdu` delivers for `f`. -/
def msduPackets (s : Adapter ι) (f : ι) : List (Indication ι) :=
  (s.amsduToMsdu f).indications.drop s.indications.length

/-- The header of the `k`-th packet has the destination and the source of the `k`-th subframe. -/
def KeepsAddresses (s : Adapter ι) (f : ι) (xs : List Subframe) : Prop :=
  ∀ (k : ℕ) (x : Subframe) (i : Indication ι), xs[k]? = some x → (s.msduPackets f)[k]? = some i →
    i.bytes.take 6 = x.da.toList ∧ (i.bytes.drop 6).take 6 = x.sa.toList

theorem msduPackets_eq (s : Adapter ι) (f : ι) :
    s.msduPackets f = ((s.amsduSplit f).1.getD []).map fun sub =>
      s.packetOf f .stack (msduToEth (s.recvframe f).attrib.dst (s.recvframe f).attrib.src
        sub) := by
  obtain ⟨fr, avail, heq, -⟩ := s.amsduToMsdu_eq f
  rw [msduPackets, heq]
  exact List.drop_left ..

/-- Each packet starts with the addresses of the frame. -/
theorem addresses_msduToEth (dst src : MacAddr) (sub : List UInt8) :
    (msduToEth dst src sub).take 6 = dst.toList ∧ ((msduToEth dst src sub).drop 6).take 6 =
    src.toList := by
  obtain ⟨rest, h⟩ : ∃ rest, msduToEth dst src sub = dst.toList ++ (src.toList ++ rest) := by
    unfold msduToEth
    split_ifs
    · exact ⟨_, by rw [List.append_assoc]⟩
    · exact ⟨_, by rw [List.append_assoc, List.append_assoc]⟩
  rw [h, List.take_left' (by simp), List.drop_left' (by simp), List.take_left' (by simp)]
  exact ⟨rfl, rfl⟩

/-- The packets of a validated A-MSDU have the addresses of their subframes just in case these are
the addresses of the frame, for each subframe that gets a packet. -/
theorem keepsAddresses_iff (hv : Validated s t f) {xs : List Subframe} {bs icv : List UInt8}
    (hicv : icv.length = 0 ∨ (3 ≤ icv.length ∧ icv.length ≤ 14)) (hc : (t.recvframe f).Carries xs bs icv) :
    t.KeepsAddresses f xs ↔ ∀ x ∈ xs.take (granted t.memAvail (min xs.length maxSubframeCount)),
      x.da = getDa (s.recvframe f).mem (s.recvframe f).rxData ∧ x.sa = s.headerSa (s.recvframe f) := by
  obtain ⟨hdst, hsrc⟩ := hv.addresses
  have hpackets := t.msduPackets_eq f
  rw [amsduSplit_of_carries t f hicv hc, Option.getD_some, hdst, hsrc, ← List.map_take,
    List.map_map] at hpackets
  set n := granted t.memAvail (min xs.length maxSubframeCount) with hn
  have hat : ∀ k x, xs[k]? = some x → k < n → ∃ i, (t.msduPackets f)[k]? = some i ∧
      i.bytes.take 6 = (getDa (s.recvframe f).mem (s.recvframe f).rxData).toList ∧
      (i.bytes.drop 6).take 6 = (s.headerSa (s.recvframe f)).toList := by
    intro k x hx hk
    rw [hpackets, List.getElem?_map, List.getElem?_take_of_lt hk, hx]
    exact ⟨_, rfl, addresses_msduToEth ..⟩
  constructor
  · intro hkeeps x hx
    obtain ⟨k, hk, rfl⟩ := List.mem_take_iff_getElem.mp hx
    have hkx : xs[k]? = some xs[k] := List.getElem?_eq_getElem _
    obtain ⟨i, hi, hda, hsa⟩ := hat k _ hkx (by omega)
    obtain ⟨hda', hsa'⟩ := hkeeps k _ i hkx hi
    exact ⟨Vector.toList_inj.mp (hda'.symm.trans hda), Vector.toList_inj.mp (hsa'.symm.trans hsa)⟩
  · intro hsame k x i hx hi
    have hk : k < n := by
      by_contra hge
      rw [hpackets, List.getElem?_map, List.getElem?_take, if_neg hge] at hi
      simp at hi
    obtain ⟨i', hi', hda, hsa⟩ := hat k x hx hk
    obtain rfl := Option.some.inj (hi.symm.trans hi')
    have hlt := (List.getElem?_eq_some_iff.mp hx).1
    obtain ⟨hxda, hxsa⟩ := hsame x (List.mem_take_iff_getElem.mpr
      ⟨k, by omega, (List.getElem?_eq_some_iff.mp hx).2⟩)
    rw [hxda, hxsa]
    exact ⟨hda, hsa⟩

/-! ## An A-MSDU from an access point -/

/-- A subframe with an IP packet of the station `sampleTa`. -/
def sampleMsdu : Subframe := ⟨sampleMac, sampleTa, rfc1042Header ++ [0x08, 0x00], by decide, by decide⟩

/-- The A-MSDU with this subframe, as the access point `sampleBssid` sends it. The third address is
the BSSID. -/
def sampleFromDs : RecvFrame :=
  { sampleFrame ([0x88, 0x02, 0, 0] ++ sampleMac.toList ++ sampleBssid.toList ++ sampleBssid.toList
      ++ [0x10, 0, 0x80, 0] ++ sampleMsdu.bytes) with
    len := 48
    rxTail := 48
    attrib := { initRecvframe.attrib with toFrDs := 1, seqNum := 1, qos := true } }

/-- A station of this access point that has read the header of the frame. -/
def sampleStation : Adapter RecvId :=
  let s := (sampleDriver.rtwAllocStainfo sampleBssid).2
  { s with
    mlmepriv := { s.mlmepriv with fwState := wifiStationState ||| fwLinked }
    recvframe := Function.update s.recvframe 0 sampleFromDs
    memAvail := fun _ => true }

/-- The state in which the frame is accepted. -/
def sampleAccepted : Adapter RecvId := (sampleStation.validateRecvDataFrame 0).2

theorem validated_sampleAccepted : Validated sampleStation sampleAccepted 0 := by
  refine ⟨by decide +kernel, sampleAccepted, ?_, rfl, rfl⟩
  exact Prod.ext (by decide +kernel) rfl

theorem carries_sampleAccepted :
    (sampleAccepted.recvframe 0).Carries [sampleMsdu] sampleMsdu.bytes [] := by
  refine ⟨.last _, ?_, ?_, ?_, ?_⟩
  · rw [Mem.Holds]
    decide +kernel
  all_goals decide +kernel

theorem keepsAddresses_iff_sample : sampleAccepted.KeepsAddresses 0 [sampleMsdu] ↔
    ∀ x ∈ [sampleMsdu].take (granted sampleAccepted.memAvail (min 1 maxSubframeCount)),
      x.da = getDa (sampleStation.recvframe 0).mem (sampleStation.recvframe 0).rxData ∧
        x.sa = sampleStation.headerSa (sampleStation.recvframe 0) :=
  keepsAddresses_iff validated_sampleAccepted (Or.inl rfl) carries_sampleAccepted

/-- The packet has the BSSID for its source. -/
theorem not_keepsAddresses_sample : Validated sampleStation sampleAccepted 0 ∧
    (sampleAccepted.recvframe 0).Carries [sampleMsdu] sampleMsdu.bytes [] ∧
    ¬sampleAccepted.KeepsAddresses 0 [sampleMsdu] := by
  refine ⟨validated_sampleAccepted, carries_sampleAccepted, fun hkeeps => ?_⟩
  have hsource : (sampleAccepted.msduPackets 0)[0]?.any
      (fun i => (i.bytes.drop 6).take 6 = sampleBssid.toList) = true := by decide +kernel
  obtain ⟨i, hi, hsa⟩ := (Option.any_eq_true _ _).mp hsource
  have hwrong := (hkeeps 0 sampleMsdu i rfl hi).2.symm.trans (of_decide_eq_true hsa)
  exact absurd hwrong (by decide)

end Adapter

end Rtl8188eu
