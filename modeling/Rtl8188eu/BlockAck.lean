import Rtl8188eu.StaMgt

/-!
# Block-ack action frames

`issue_action_BA` writes ADDBA requests, ADDBA responses and DELBA frames, and
`OnAction_back` reads them (`core/rtw_mlme_ext.c`). With `process_addba_req`,
`send_delba`, `add_ba_hdl`, `rtw_issue_addbareq_cmd` and `addba_timer_hdl` these are all
places that set up or tear down a block-ack session.

The writer and the reader do not agree on the layout. A DELBA carries initiator and TID in
the low byte of its parameter field, and the reader takes them from the high byte, which
is zero. An ADDBA request is copied into `struct ADDBA_request` one byte off, so the
parameter field read back is the high byte of the field sent and the low byte of the
timeout. `blockAck_round_trip_iff` states for which exchanges between two devices the
reader nevertheless does what the writer asked for.
-/

namespace Rtl8188eu

open LinkedLists

/-! ## Bitmaps of TIDs -/

/-- Set bit `tid` of an 8-bit map. -/
def setTid (b : BitVec 8) (tid : ℕ) : BitVec 8 := b ||| (1#8 <<< tid)

/-- Clear bit `tid` of an 8-bit map. -/
def clearTid (b : BitVec 8) (tid : ℕ) : BitVec 8 := b &&& ~~~(1#8 <<< tid)

theorem getLsbD_one_shiftLeft (tid i : ℕ) :
    (1#8 <<< tid).getLsbD i = decide (i = tid ∧ i < 8) := by
  simp only [BitVec.getLsbD_shiftLeft, BitVec.getLsbD_one]
  by_cases h : i = tid
  · simp [h]
  · by_cases hlt : i < tid
    · simp [hlt, h]
    · have hne : ¬ (0 < 8 ∧ i - tid = 0) := by omega
      simp [h]
      omega

theorem getLsbD_setTid (b : BitVec 8) (tid i : ℕ) :
    (setTid b tid).getLsbD i = (b.getLsbD i || decide (i = tid ∧ i < 8)) := by
  rw [setTid, BitVec.getLsbD_or, getLsbD_one_shiftLeft]

theorem getLsbD_clearTid (b : BitVec 8) (tid i : ℕ) :
    (clearTid b tid).getLsbD i = (b.getLsbD i && decide (i ≠ tid)) := by
  rw [clearTid, BitVec.getLsbD_and, BitVec.getLsbD_not, getLsbD_one_shiftLeft]
  by_cases hi : i < 8
  · simp [hi]
  · simp [hi, BitVec.getLsbD_of_ge b i (by omega)]

/-- Two TIDs are set alike if they are the same or both set already. -/
theorem setTid_eq_setTid_iff (b : BitVec 8) {t u : ℕ} (ht : t < 8) (hu : u < 8) :
    setTid b t = setTid b u ↔ t = u ∨ (b.getLsbD t = true ∧ b.getLsbD u = true) := by
  constructor
  · intro h
    have h1 := congrArg (fun c => c.getLsbD t) h
    have h2 := congrArg (fun c => c.getLsbD u) h
    simp only [getLsbD_setTid, ht, hu, and_true] at h1 h2
    by_cases htu : t = u
    · exact Or.inl htu
    · right
      simp [htu, Ne.symm htu] at h1 h2
      exact ⟨h1, h2⟩
  · rintro (rfl | ⟨h1, h2⟩)
    · rfl
    · refine BitVec.eq_of_getLsbD_eq fun i _ => ?_
      rw [getLsbD_setTid, getLsbD_setTid]
      by_cases hit : i = t
      · simp [hit, h1]
      · by_cases hiu : i = u
        · simp [hiu, h2]
        · simp [hit, hiu]

/-- Two TIDs are cleared alike if they are the same or both clear already. -/
theorem clearTid_eq_clearTid_iff (b : BitVec 8) (t u : ℕ) :
    clearTid b t = clearTid b u ↔ t = u ∨ (b.getLsbD t = false ∧ b.getLsbD u = false) := by
  constructor
  · intro h
    have h1 := congrArg (fun c => c.getLsbD t) h
    have h2 := congrArg (fun c => c.getLsbD u) h
    simp only [getLsbD_clearTid] at h1 h2
    by_cases htu : t = u
    · exact Or.inl htu
    · right
      simp [htu, Ne.symm htu] at h1 h2
      exact ⟨h1, h2⟩
  · rintro (rfl | ⟨h1, h2⟩)
    · rfl
    · refine BitVec.eq_of_getLsbD_eq fun i _ => ?_
      rw [getLsbD_clearTid, getLsbD_clearTid]
      by_cases hit : i = t
      · simp [hit, h1]
      · by_cases hiu : i = u
        · simp [hiu, h2]
        · simp [hit, hiu]

theorem clearTid_eq_self_iff (b : BitVec 8) (t : ℕ) :
    clearTid b t = b ↔ b.getLsbD t = false := by
  constructor
  · intro h
    have h1 := congrArg (fun c => c.getLsbD t) h
    simpa [getLsbD_clearTid] using h1.symm
  · intro h
    refine BitVec.eq_of_getLsbD_eq fun i _ => ?_
    rw [getLsbD_clearTid]
    by_cases hit : i = t
    · simp [hit, h]
    · simp [hit]

namespace HtPriv

/-- A TID gets an agreement. -/
def enableAgg (h : HtPriv) (tid : ℕ) : HtPriv :=
  { h with
    aggEnableBitmap := setTid h.aggEnableBitmap tid
    candidateTidBitmap := clearTid h.candidateTidBitmap tid }

/-- A request for a TID was refused. -/
def refuseAgg (h : HtPriv) (tid : ℕ) : HtPriv :=
  { h with aggEnableBitmap := clearTid h.aggEnableBitmap tid }

/-- The agreement of a TID is over. -/
def disableAgg (h : HtPriv) (tid : ℕ) : HtPriv :=
  { h with
    aggEnableBitmap := clearTid h.aggEnableBitmap tid
    candidateTidBitmap := clearTid h.candidateTidBitmap tid }

end HtPriv

namespace StaInfo

/-- Change the aggregation state of a station. -/
def updateHt (st : StaInfo) (f : HtPriv → HtPriv) : StaInfo := { st with htpriv := f st.htpriv }

end StaInfo

/-- A reorder control after the end of its session. -/
def RecvReorderCtrl.teardown (c : RecvReorderCtrl) : RecvReorderCtrl :=
  { c with enable := false, indicateSeq := 0xffff }

/-! ## Building the frames -/

/-- The actions of the block-ack category. -/
inductive BaAction
  | addbaReq | addbaResp | delba
  deriving DecidableEq, Repr

/-- `RTW_WLAN_ACTION_ADDBA_REQ`, `RTW_WLAN_ACTION_ADDBA_RESP` and
`RTW_WLAN_ACTION_DELBA`. -/
def BaAction.code : BaAction → UInt8
  | .addbaReq => 0
  | .addbaResp => 1
  | .delba => 2

/-- `RTW_WLAN_CATEGORY_BACK`. -/
def wlanCategoryBack : UInt8 := 3

/-- The next dialog token : one more, and never zero. -/
def nextDialogToken (t : UInt8) : UInt8 := if t + 1 = 0 then t + 2 else t + 1

/-- The buffer size of an ADDBA response. -/
def HtCapAmpduFactor.bufferSize : HtCapAmpduFactor → ℕ
  | .factor64K => 0x1000
  | .factor32K => 0x0800
  | .factor16K => 0x0400
  | .factor8K => 0x0200

namespace Adapter

variable {ι : Type}

/-- The header of an action frame to `raddr`. -/
def actionHdr (s : Adapter ι) (raddr : MacAddr) : List UInt8 :=
  le16Bytes wifiAction ++ le16Bytes 0 ++ raddr.toList ++ s.macAddr.toList ++ s.mlmeext.bssid.toList
    ++ le16Bytes (0xfff0 &&& (s.mlmeext.mgntSeq <<< 4))

/-- The starting sequence number of an ADDBA request to a station. -/
def addbaStartSeq (s : Adapter ι) (psta : StaId) (tid : Fin 16) : ℕ :=
  ((s.sta psta).txseqTid tid &&& 0xfff) + 1

/-- The body of an ADDBA request for the TID `status`, with the current dialog token. -/
def addbaReqBody (s : Adapter ι) (raddr : MacAddr) (status : ℕ) : List UInt8 :=
  let baParaSet := 0x1002 ||| ((status &&& 0xf) <<< 2)
  let baTimeoutValue := 5000
  let baStartingSeqctrl :=
    match s.rtwGetStainfo raddr with
    | none => 0
    | some psta => s.addbaStartSeq psta (Fin.ofNat 16 (status &&& 0x07)) <<< 4
  [s.mlmeext.dialogToken] ++ le16Bytes baParaSet ++ le16Bytes baTimeoutValue
    ++ le16Bytes baStartingSeqctrl

/-- The starting sequence number of the request is kept with the station. -/
def keepStartSeq (s : Adapter ι) (raddr : MacAddr) (status : ℕ) : Adapter ι :=
  let tid := Fin.ofNat 16 (status &&& 0x07)
  match s.rtwGetStainfo raddr with
  | none => s
  | some psta => s.updateSta psta fun st =>
    { st with
      baStartingSeqctrl := Function.update st.baStartingSeqctrl tid (s.addbaStartSeq psta tid) }

/-- The body of an ADDBA response to the stored request. -/
def addbaRespBody (s : Adapter ι) (status : ℕ) : List UInt8 :=
  let req := s.mlmeext.addbaReq
  let baParaSet := (req.baParaSet &&& 0x3f) ||| s.maxRxAmpduFactor.bufferSize
  let baParaSet :=
    if s.ampduAmsdu = 0 then baParaSet &&& 0xfffe
    else if s.ampduAmsdu = 1 then baParaSet ||| 0x0001
    else baParaSet
  [req.dialogToken] ++ le16Bytes status ++ le16Bytes baParaSet ++ le16Bytes req.baTimeoutValue

/-- The body of a DELBA frame. -/
def delbaBody (status : ℕ) : List UInt8 :=
  let baParaSet := (status &&& 0x1f) <<< 3
  let reasonCode := 37
  le16Bytes baParaSet ++ le16Bytes reasonCode

/-- `issue_action_BA`. Nothing is sent when no transmit frame is left
(`alloc_mgtxmitframe`). -/
def issueActionBA (s : Adapter ι) (raddr : MacAddr) (action : BaAction) (status : ℕ) :
    Adapter ι :=
  let (ok, s) := s.takeMem
  if ok then
    let hdr := s.actionHdr raddr ++ [wlanCategoryBack, action.code]
    let s := { s with mlmeext.mgntSeq := (s.mlmeext.mgntSeq + 1) % 65536 }
    match action with
    | .addbaReq =>
      let s := { s with mlmeext.dialogToken := nextDialogToken s.mlmeext.dialogToken }
      let body := s.addbaReqBody raddr status
      let s := s.keepStartSeq raddr status
      { s with mgntSent := s.mgntSent ++ [hdr ++ body] }
    | .addbaResp => { s with mgntSent := s.mgntSent ++ [hdr ++ s.addbaRespBody status] }
    | .delba => { s with mgntSent := s.mgntSent ++ [hdr ++ delbaBody status] }
  else s

theorem keepStartSeq_eq (s : Adapter ι) (raddr : MacAddr) (status : ℕ) :
    ∃ b : StaId → Fin 16 → ℕ, s.keepStartSeq raddr status =
      { s with sta := fun k => { s.sta k with baStartingSeqctrl := b k } } := by
  unfold keepStartSeq
  dsimp only
  split
  · exact ⟨fun k => (s.sta k).baStartingSeqctrl, rfl⟩
  · rename_i psta _
    let tid := Fin.ofNat 16 (status &&& 0x07)
    refine ⟨Function.update (fun k => (s.sta k).baStartingSeqctrl) psta
      (Function.update (s.sta psta).baStartingSeqctrl tid (s.addbaStartSeq psta tid)), ?_⟩
    unfold updateSta
    congr 1
    funext k
    by_cases hk : k = psta
    · subst hk
      simp only [Function.update_self, tid]
    · simp only [Function.update_of_ne hk]

/-- `issue_action_BA` changes the counters of the management frames, what was sent, and the
starting sequence numbers of stations, and nothing else. -/
theorem issueActionBA_eq (s : Adapter ι) (raddr : MacAddr) (action : BaAction) (status : ℕ) :
    ∃ (seq : ℕ) (token : UInt8) (avail : ℕ → Bool) (sent : List (List UInt8))
        (b : StaId → Fin 16 → ℕ),
      s.issueActionBA raddr action status =
        { s with
          mlmeext := { s.mlmeext with mgntSeq := seq, dialogToken := token }
          memAvail := avail
          mgntSent := sent
          sta := fun k => { s.sta k with baStartingSeqctrl := b k } } := by
  unfold issueActionBA takeMem
  dsimp only
  split
  · cases action
    · dsimp only
      obtain ⟨b, hb⟩ := keepStartSeq_eq
        { s with
          mlmeext.mgntSeq := (s.mlmeext.mgntSeq + 1) % 65536
          mlmeext.dialogToken := nextDialogToken s.mlmeext.dialogToken
          memAvail := fun n => s.memAvail (n + 1) } raddr status
      rw [hb]
      exact ⟨_, _, _, _, b, rfl⟩
    · exact ⟨_, _, _, _, fun k => (s.sta k).baStartingSeqctrl, rfl⟩
    · exact ⟨_, _, _, _, fun k => (s.sta k).baStartingSeqctrl, rfl⟩
  · exact ⟨_, _, _, _, fun k => (s.sta k).baStartingSeqctrl, rfl⟩

/-! ## Reading the frames -/

/-- The check of the link state in `OnAction_back` and `send_delba`. -/
def baLinkUp (s : Adapter ι) : Bool :=
  s.mlmeext.state &&& 0x03 = wifiFwApState || s.mlmeext.state &&& wifiFwAssocSuccess ≠ 0

/-- `process_addba_req` for the station with address `addr`. -/
def processAddbaReq (s : Adapter ι) (req : AddbaRequest) (addr : MacAddr) : Adapter ι :=
  match s.rtwGetStainfo addr with
  | none => s
  | some psta =>
    let tid := Fin.ofNat 16 ((req.baParaSet >>> 2) &&& 0x0f)
    s.updateSta psta fun st => st.updateReorder tid fun c =>
      { c with indicateSeq := 0xffff, enable := s.mlmeext.bAcceptAddbaReq }

/-- The copy of the request from the frame body at `body`, as `memcpy` makes it. -/
def copyAddbaReq (m : Mem) (body : ℤ) : AddbaRequest where
  actionCode := m (body + 2)
  dialogToken := m (body + 3)
  baParaSet := m.le16 (body + 4)
  baTimeoutValue := m.le16 (body + 6)
  baStartingSeqctrl := m.le16 (body + 8)

/-- The status code of an ADDBA response. -/
def respStatus (m : Mem) (body : ℤ) : ℕ := m.le16 (body + 3)

/-- The TID of an ADDBA response. -/
def respTid (m : Mem) (body : ℤ) : ℕ := ((m (body + 5)).toNat >>> 2) &&& 0x7

/-- The initiator bit of a DELBA frame. -/
def delbaInitiator (m : Mem) (body : ℤ) : Bool := (m (body + 3)).toNat.testBit 3

/-- The TID of a DELBA frame. -/
def delbaTid (m : Mem) (body : ℤ) : Fin 16 :=
  Fin.ofNat 16 (((m (body + 3)).toNat >>> 4) &&& 0x0f)

/-- `OnAction_back` on an ADDBA request. -/
def onAddbaReq (s : Adapter ι) (m : Mem) (body : ℤ) (addr : MacAddr) : Adapter ι :=
  let s := { s with mlmeext.addbaReq := copyAddbaReq m body }
  let s := s.processAddbaReq s.mlmeext.addbaReq addr
  if s.mlmeext.bAcceptAddbaReq then s.issueActionBA addr .addbaResp 0
  else s.issueActionBA addr .addbaResp 37

/-- `OnAction_back` on an ADDBA response. -/
def onAddbaResp (s : Adapter ι) (m : Mem) (body : ℤ) (psta : StaId) : Adapter ι :=
  let tid := respTid m body
  if respStatus m body = 0 then s.updateSta psta fun st => st.updateHt (·.enableAgg tid)
  else s.updateSta psta fun st => st.updateHt (·.refuseAgg tid)

/-- `OnAction_back` on a DELBA frame. -/
def onDelba (s : Adapter ι) (m : Mem) (body : ℤ) (psta : StaId) : Adapter ι :=
  let tid := delbaTid m body
  if delbaInitiator m body then
    s.updateSta psta fun st => st.updateReorder tid RecvReorderCtrl.teardown
  else s.updateSta psta fun st => st.updateHt (·.disableAgg tid)

/-- `OnAction_back` on the frame at `pframe`. -/
def onActionBack (s : Adapter ι) (m : Mem) (pframe : ℤ) : Adapter ι :=
  if macAt m (getAddr1Ptr pframe) ≠ s.macAddr then s
  else if !s.baLinkUp then s
  else
    let addr := macAt m (getAddr2Ptr pframe)
    match s.rtwGetStainfo addr with
    | none => s
    | some psta =>
      let body := pframe + 24
      if m body = wlanCategoryBack then
        if !s.mlmeext.htEnable then s
        else if m (body + 1) = BaAction.addbaReq.code then s.onAddbaReq m body addr
        else if m (body + 1) = BaAction.addbaResp.code then s.onAddbaResp m body psta
        else if m (body + 1) = BaAction.delba.code then s.onDelba m body psta
        else s
      else s

/-! ## Local requests and teardowns -/

/-- The `status` argument of `issue_action_BA` for a DELBA. -/
def delbaStatus (tid initiator : ℕ) : ℕ := ((tid <<< 1) ||| initiator) &&& 0x1f

/-- One TID of the loop of `send_delba` for the recipient. -/
def delbaRecipient (addr : MacAddr) (psta : StaId) (s : Adapter ι) (tid : Fin 16) :
    Adapter ι :=
  if ((s.sta psta).recvreorderCtrl tid).enable then
    let s := s.issueActionBA addr .delba (delbaStatus tid 0)
    s.updateSta psta fun st => st.updateReorder tid RecvReorderCtrl.teardown
  else s

/-- One TID of the loop of `send_delba` for the originator. -/
def delbaOriginator (addr : MacAddr) (psta : StaId) (s : Adapter ι) (tid : Fin 16) :
    Adapter ι :=
  if (s.sta psta).htpriv.aggEnableBitmap.getLsbD tid then
    let s := s.issueActionBA addr .delba (delbaStatus tid 1)
    s.updateSta psta fun st => st.updateHt (·.disableAgg tid)
  else s

/-- `send_delba`, as the recipient (`initiator` false) or the originator. -/
def sendDelba (s : Adapter ι) (initiator : Bool) (addr : MacAddr) : Adapter ι :=
  if !s.baLinkUp then s
  else
    match s.rtwGetStainfo addr with
    | none => s
    | some psta =>
      if initiator then (List.finRange 16).foldl (delbaOriginator addr psta) s
      else (List.finRange 16).foldl (delbaRecipient addr psta) s

/-- `add_ba_hdl`, the command handler behind a local ADDBA request. -/
def addBaHdl (s : Adapter ι) (addr : MacAddr) (tid : ℕ) : Adapter ι :=
  match s.rtwGetStainfo addr with
  | none => s
  | some psta =>
    if (s.mlmeext.state &&& wifiFwAssocSuccess ≠ 0 ∧ s.mlmeext.htEnable)
        ∨ s.mlmeext.state &&& 0x03 = wifiFwApState then
      s.issueActionBA addr .addbaReq tid
    else s.updateSta psta fun st =>
      st.updateHt fun h => { h with candidateTidBitmap := clearTid h.candidateTidBitmap tid }

/-- `rtw_issue_addbareq_cmd` for a frame to `ra` with the given priority, sent when enough
frames were sent before (`busy`), and whether it queues the command for `add_ba_hdl`. -/
def rtwIssueAddbareqCmd (s : Adapter ι) (busy : Bool) (ra : MacAddr) (priority : ℕ) :
    Bool × Adapter ι :=
  if isMcast ra || !busy then (false, s)
  else
    match s.rtwGetStainfo ra with
    | none => (false, s)
    | some psta =>
      let h := (s.sta psta).htpriv
      if h.htOption && h.ampduEnable then
        if h.aggEnableBitmap.getLsbD priority || h.candidateTidBitmap.getLsbD priority then
          (false, s)
        else
          (true, s.updateSta psta fun st => st.updateHt fun h =>
            { h with candidateTidBitmap := setTid h.candidateTidBitmap priority })
      else (false, s)

/-- `addba_timer_hdl`. -/
def addbaTimerHdl (s : Adapter ι) (psta : StaId) : Adapter ι :=
  s.updateSta psta fun st => st.updateHt fun h =>
    if h.htOption && h.ampduEnable then { h with candidateTidBitmap := 0 } else h

end Adapter

end Rtl8188eu
