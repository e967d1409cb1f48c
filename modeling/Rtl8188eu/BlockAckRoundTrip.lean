import Rtl8188eu.BlockAck

/-!
# Block-ack action frames between two devices

Two devices run this driver. One builds a block-ack action frame with `issue_action_BA`,
the other reads it with `OnAction_back`. `DelbaExchange` is a DELBA as `send_delba` asks
for it, `AddbaExchange` an ADDBA request with the response of a peer that accepts it.

The writer and the reader do not agree on the layout. A DELBA carries initiator and TID in
the low byte of its parameter field, and the reader takes them from the high byte, which
is zero : every DELBA is read as one of the recipient for TID 0 (`DelbaExchange.outcome_eq`).
An ADDBA request is copied into `struct ADDBA_request` one byte off, so its parameter
field is read as `0x8810` (`copyAddbaReq_baParaSet`), the response is for TID 4, and the
sender of the request enables TID 4 (`AddbaExchange.agg_outcome`).
`blockAck_round_trip_iff` says for which exchanges the outcome is the one asked for.
-/

namespace Rtl8188eu

namespace Adapter

variable {ι κ : Type}

/-! ## The frames -/

/-- The body of the frame `issue_action_BA` sends. -/
def baBody (s : Adapter ι) (raddr : MacAddr) (action : BaAction) (status : ℕ) : List UInt8 :=
  match action with
  | .addbaReq =>
    { s with mlmeext.dialogToken := nextDialogToken s.mlmeext.dialogToken }.addbaReqBody
      raddr status
  | .addbaResp => s.addbaRespBody status
  | .delba => delbaBody status

/-- The frame `issue_action_BA` sends. -/
def baFrame (s : Adapter ι) (raddr : MacAddr) (action : BaAction) (status : ℕ) : List UInt8 :=
  s.actionHdr raddr ++ [wlanCategoryBack, action.code] ++ s.baBody raddr action status

theorem mgntSent_keepStartSeq (s : Adapter ι) (raddr : MacAddr) (status : ℕ) :
    (s.keepStartSeq raddr status).mgntSent = s.mgntSent := by
  unfold keepStartSeq
  dsimp only
  split <;> rfl

/-- `issue_action_BA` sends one frame, or none when no transmit frame is left. -/
theorem mgntSent_issueActionBA (s : Adapter ι) (raddr : MacAddr) (action : BaAction)
    (status : ℕ) :
    (s.issueActionBA raddr action status).mgntSent
      = s.mgntSent ++ if s.memAvail 0 then [s.baFrame raddr action status] else [] := by
  cases h : s.memAvail 0
  · simp [issueActionBA, takeMem, h]
  · cases action
    · simp only [issueActionBA, takeMem, h, if_true, mgntSent_keepStartSeq]
      rfl
    · simp only [issueActionBA, takeMem, h, if_true]
      rfl
    · simp only [issueActionBA, takeMem, h, if_true]
      rfl

/-- The frame that was sent, if one was. -/
theorem eq_baFrame_of_sent {s : Adapter ι} {raddr : MacAddr} {action : BaAction} {status : ℕ}
    {f : List UInt8}
    (h : (s.issueActionBA raddr action status).mgntSent = s.mgntSent ++ [f]) :
    f = s.baFrame raddr action status := by
  rw [mgntSent_issueActionBA] at h
  have h' := List.append_cancel_left h
  split at h'
  · simpa using h'.symm
  · simp at h'

theorem length_actionHdr (s : Adapter ι) (raddr : MacAddr) : (s.actionHdr raddr).length = 24 := by
  simp [actionHdr, le16Bytes]

/-- What a device finds in the frame another one sent to it. -/
theorem of_holds_baFrame {s : Adapter ι} {raddr : MacAddr} {action : BaAction} {status : ℕ}
    {m : Mem} {p : ℤ} (h : m.Holds p (s.baFrame raddr action status)) :
    macAt m (getAddr1Ptr p) = raddr ∧ macAt m (getAddr2Ptr p) = s.macAddr ∧
      m (p + 24) = wlanCategoryBack ∧ m (p + 24 + 1) = action.code ∧
      m.Holds (p + 24 + 2) (s.baBody raddr action status) := by
  rw [baFrame, Mem.holds_append, Mem.holds_append, List.length_append, length_actionHdr] at h
  obtain ⟨⟨hhdr, hcat⟩, hbody⟩ := h
  rw [Mem.holds_cons, Mem.holds_cons] at hcat
  obtain ⟨hcat, hact, -⟩ := hcat
  unfold actionHdr at hhdr
  simp only [Mem.holds_append, List.length_append, Vector.length_toList] at hhdr
  obtain ⟨⟨⟨⟨-, ha1⟩, ha2⟩, -⟩, -⟩ := hhdr
  refine ⟨macAt_of_holds ha1, macAt_of_holds ?_, hcat, hact, ?_⟩
  · convert ha2 using 1
    simp [getAddr2Ptr, le16Bytes]
  · convert hbody using 1
    push_cast
    simp
    ring

/-! ## Reading a frame of a peer -/

/-- A device with a link up and HT enabled knows the sender of the frame at `p`. -/
structure Hears (s : Adapter ι) (m : Mem) (p : ℤ) (psta : StaId) : Prop where
  ra : macAt m (getAddr1Ptr p) = s.macAddr
  linkUp : s.baLinkUp = true
  known : s.rtwGetStainfo (macAt m (getAddr2Ptr p)) = some psta
  category : m (p + 24) = wlanCategoryBack
  htEnable : s.mlmeext.htEnable = true

/-- `OnAction_back` on a frame it does not drop, by the action code. -/
theorem onActionBack_of_hears {s : Adapter ι} {m : Mem} {p : ℤ} {psta : StaId}
    (h : s.Hears m p psta) {action : BaAction} (ha : m (p + 24 + 1) = action.code) :
    s.onActionBack m p =
      match action with
      | .addbaReq => s.onAddbaReq m (p + 24) (macAt m (getAddr2Ptr p))
      | .addbaResp => s.onAddbaResp m (p + 24) psta
      | .delba => s.onDelba m (p + 24) psta := by
  have h1 : (BaAction.addbaResp.code = BaAction.addbaReq.code) = False := by decide
  have h2 : (BaAction.delba.code = BaAction.addbaReq.code) = False := by decide
  have h3 : (BaAction.delba.code = BaAction.addbaResp.code) = False := by decide
  cases action <;>
    simp [onActionBack, h.ra, h.linkUp, h.known, h.category, h.htEnable, ha, h1, h2, h3]

theorem le16_of_holds {m : Mem} {p : ℤ} {n : ℕ} (h : m.Holds p (le16Bytes n)) :
    m p = UInt8.ofNat n ∧ m (p + 1) = UInt8.ofNat (n / 256) := by
  rw [le16Bytes, Mem.holds_cons, Mem.holds_cons] at h
  exact ⟨h.1, h.2.1⟩

/-! ## DELBA -/

/-- The parameter field of a DELBA fits its low byte. -/
theorem delbaParam_div (tid : Fin 8) (initiator : Fin 2) :
    UInt8.ofNat (((delbaStatus tid initiator &&& 0x1f) <<< 3) / 256) = 0 := by
  revert tid initiator
  decide

/-- Any DELBA of `send_delba` is read as one of the recipient for TID 0. -/
theorem onDelba_of_holds {t : Adapter κ} {m : Mem} {body : ℤ} {tid : Fin 8}
    {initiator : Fin 2} (psta : StaId)
    (h : m.Holds (body + 2) (delbaBody (delbaStatus tid initiator))) :
    t.onDelba m body psta = t.updateSta psta fun st => st.updateHt (·.disableAgg 0) := by
  simp only [delbaBody, Mem.holds_append] at h
  have h3 : m (body + 3) = 0 := by
    have := (le16_of_holds h.1).2
    rw [delbaParam_div] at this
    rw [← this]
    congr 1
    ring
  have hi : delbaInitiator m body = false := by simp [delbaInitiator, h3]
  have ht : delbaTid m body = 0 := by simp [delbaTid, h3]
  simp [onDelba, hi, ht]

theorem updateSta_inj {s : Adapter ι} {k : StaId} {f g : StaInfo → StaInfo} :
    s.updateSta k f = s.updateSta k g ↔ f (s.sta k) = g (s.sta k) := by
  constructor
  · intro h
    have := congrArg (fun t => t.sta k) h
    simpa [updateSta] using this
  · intro h
    rw [updateSta, updateSta, h]

end Adapter

theorem StaInfo.updateHt_inj {st : StaInfo} {f g : HtPriv → HtPriv} :
    st.updateHt f = st.updateHt g ↔ f st.htpriv = g st.htpriv := by
  simp [StaInfo.updateHt]

theorem StaInfo.updateHt_eq_updateReorder_iff {st : StaInfo} {f : HtPriv → HtPriv}
    {tid : Fin 16} {g : RecvReorderCtrl → RecvReorderCtrl} :
    st.updateHt f = st.updateReorder tid g ↔
      f st.htpriv = st.htpriv ∧ g (st.recvreorderCtrl tid) = st.recvreorderCtrl tid := by
  cases st
  simp only [StaInfo.updateHt, StaInfo.updateReorder, StaInfo.mk.injEq, true_and, and_true]
  rw [eq_comm, Function.update_eq_self_iff]
  exact and_comm

theorem HtPriv.disableAgg_eq_self_iff {h : HtPriv} {t : ℕ} :
    h.disableAgg t = h ↔
      h.aggEnableBitmap.getLsbD t = false ∧ h.candidateTidBitmap.getLsbD t = false := by
  cases h
  simp [HtPriv.disableAgg, clearTid_eq_self_iff]

theorem HtPriv.disableAgg_inj {h : HtPriv} {t u : ℕ} :
    h.disableAgg t = h.disableAgg u ↔
      t = u ∨ ((h.aggEnableBitmap.getLsbD t = false ∧ h.candidateTidBitmap.getLsbD t = false) ∧
        h.aggEnableBitmap.getLsbD u = false ∧ h.candidateTidBitmap.getLsbD u = false) := by
  cases h
  simp only [HtPriv.disableAgg, HtPriv.mk.injEq, true_and, clearTid_eq_clearTid_iff]
  tauto

theorem RecvReorderCtrl.teardown_eq_self_iff {c : RecvReorderCtrl} :
    c.teardown = c ↔ c.enable = false ∧ c.indicateSeq = 0xffff := by
  cases c
  simp [RecvReorderCtrl.teardown, eq_comm]

/-- A DELBA for a TID below 8 that one device builds as `send_delba` does, and that a peer
with the sender in its station table hears. -/
structure DelbaExchange (ι κ : Type) where
  sender : Adapter ι
  peer : Adapter κ
  tid : Fin 8
  initiator : Fin 2
  frame : List UInt8
  sent : (sender.issueActionBA peer.macAddr .delba
    (Adapter.delbaStatus tid initiator)).mgntSent = sender.mgntSent ++ [frame]
  mem : Mem
  pos : ℤ
  carried : mem.Holds pos frame
  psta : StaId
  known : peer.rtwGetStainfo sender.macAddr = some psta
  linkUp : peer.baLinkUp = true
  htEnable : peer.mlmeext.htEnable = true

namespace DelbaExchange

variable {ι κ : Type} (e : DelbaExchange ι κ)

/-- The peer after the frame. -/
def outcome : Adapter κ := e.peer.onActionBack e.mem e.pos

/-- The peer as the sender wants it : without the reorder control of the TID when the
originator ends the session, without the agreement for the TID when the recipient does. -/
def wanted : Adapter κ :=
  if e.initiator = 1 then
    e.peer.updateSta e.psta fun st =>
      st.updateReorder (e.tid.castLE (by decide)) RecvReorderCtrl.teardown
  else e.peer.updateSta e.psta fun st => st.updateHt (·.disableAgg e.tid)

/-- The peer acts on the TID and the role of the frame, and on nothing else. -/
def RoundTrips : Prop := e.outcome = e.wanted

/-- A TID without an agreement and without a request on its way. -/
def Unused (h : HtPriv) (tid : ℕ) : Prop :=
  h.aggEnableBitmap.getLsbD tid = false ∧ h.candidateTidBitmap.getLsbD tid = false

/-- The frame is for TID 0 from the recipient, or neither it nor TID 0 has anything to tear
down at the peer. -/
def Harmless : Prop :=
  if e.initiator = 1 then
    Unused (e.peer.sta e.psta).htpriv 0 ∧
      ((e.peer.sta e.psta).recvreorderCtrl (e.tid.castLE (by decide))).enable = false ∧
      ((e.peer.sta e.psta).recvreorderCtrl (e.tid.castLE (by decide))).indicateSeq = 0xffff
  else
    e.tid = 0 ∨ (Unused (e.peer.sta e.psta).htpriv 0 ∧ Unused (e.peer.sta e.psta).htpriv e.tid)

theorem outcome_eq :
    e.outcome = e.peer.updateSta e.psta fun st => st.updateHt (·.disableAgg 0) := by
  have hf := Adapter.eq_baFrame_of_sent e.sent
  have hc := e.carried
  rw [hf] at hc
  obtain ⟨h1, h2, h3, h4, h5⟩ := Adapter.of_holds_baFrame hc
  have hh : e.peer.Hears e.mem e.pos e.psta :=
    ⟨h1, e.linkUp, by rw [h2]; exact e.known, h3, e.htEnable⟩
  rw [outcome, Adapter.onActionBack_of_hears hh h4]
  exact Adapter.onDelba_of_holds e.psta h5

/-- A DELBA has the wanted outcome exactly when it is harmless. -/
theorem roundTrips_iff : e.RoundTrips ↔ e.Harmless := by
  rw [RoundTrips, outcome_eq, wanted, Harmless]
  split
  · rw [Adapter.updateSta_inj, StaInfo.updateHt_eq_updateReorder_iff,
      HtPriv.disableAgg_eq_self_iff, RecvReorderCtrl.teardown_eq_self_iff]
    rfl
  · rw [Adapter.updateSta_inj, StaInfo.updateHt_inj, HtPriv.disableAgg_inj]
    have h0 : (0 : ℕ) = e.tid ↔ e.tid = 0 := by
      rw [Fin.ext_iff]
      exact eq_comm
    rw [h0]
    rfl

end DelbaExchange

/-! ## ADDBA -/

namespace Adapter

variable {ι κ : Type}

/-- The copy of a request takes the high byte of the parameter field and the low byte of
the timeout for the parameter field. -/
theorem copyAddbaReq_baParaSet {s : Adapter ι} {raddr : MacAddr} {tid : Fin 8} {m : Mem}
    {body : ℤ} (h : m.Holds (body + 2) (s.addbaReqBody raddr tid)) :
    (copyAddbaReq m body).baParaSet = 0x8810 := by
  simp only [addbaReqBody, Mem.holds_append, Mem.holds_cons] at h
  obtain ⟨⟨⟨-, hpara⟩, htimeout⟩, -⟩ := h
  have hp : m (body + 4) = 0x10 := by
    have hdiv : ∀ t : Fin 8, UInt8.ofNat ((0x1002 ||| (((t : ℕ) &&& 0xf) <<< 2)) / 256) = 0x10 := by
      decide
    have h2 := (le16_of_holds hpara).2
    rw [hdiv] at h2
    rw [← h2]
    congr 1
    simp
    ring
  have ht : m (body + 5) = 0x88 := by
    have h2 := (le16_of_holds htimeout).1
    rw [show UInt8.ofNat 5000 = 0x88 from rfl] at h2
    rw [← h2]
    congr 1
    simp [le16Bytes]
    ring
  simp only [copyAddbaReq, Mem.le16]
  rw [hp, show body + 4 + 1 = body + 5 by ring, ht]
  rfl

/-- The answer to a request read as `0x8810` is for TID 4. -/
theorem respTid_of_holds {t : Adapter κ} {m : Mem} {body : ℤ} {status : ℕ}
    (ht : t.mlmeext.addbaReq.baParaSet = 0x8810)
    (h : m.Holds (body + 2) (t.addbaRespBody status)) : respTid m body = 4 := by
  simp only [addbaRespBody, Mem.holds_append, Mem.holds_cons] at h
  obtain ⟨⟨⟨-, -⟩, hpara⟩, -⟩ := h
  have h5 := (le16_of_holds hpara).1
  rw [ht] at h5
  have hpos : body + 2 + (([t.mlmeext.addbaReq.dialogToken] ++ le16Bytes status).length : ℤ)
      = body + 5 := by
    simp [le16Bytes]
    ring
  rw [hpos] at h5
  rw [respTid, h5]
  cases t.maxRxAmpduFactor <;> split_ifs <;> rfl

/-- The answer carries the status code it was built with. -/
theorem respStatus_of_holds {t : Adapter κ} {m : Mem} {body : ℤ}
    (h : m.Holds (body + 2) (t.addbaRespBody 0)) : respStatus m body = 0 := by
  simp only [addbaRespBody, Mem.holds_append, Mem.holds_cons] at h
  obtain ⟨⟨⟨-, hst⟩, -⟩, -⟩ := h
  have hst' := le16_of_holds hst
  have hpos : body + 2 + ((List.length [t.mlmeext.addbaReq.dialogToken] : ℕ) : ℤ) = body + 3 := by
    simp
    ring
  rw [hpos] at hst'
  simp only [respStatus, Mem.le16]
  rw [hst'.1, hst'.2]
  rfl

end Adapter

/-- An ADDBA request for a TID below 8 to a peer that accepts it, and the answer of the
peer. Both devices have the other one in their station table. -/
structure AddbaExchange (ι κ : Type) where
  sender : Adapter ι
  peer : Adapter κ
  tid : Fin 8
  req : List UInt8
  reqSent : (sender.issueActionBA peer.macAddr .addbaReq tid).mgntSent
    = sender.mgntSent ++ [req]
  reqMem : Mem
  reqPos : ℤ
  reqCarried : reqMem.Holds reqPos req
  peerSta : StaId
  peerKnows : peer.rtwGetStainfo sender.macAddr = some peerSta
  peerLinkUp : peer.baLinkUp = true
  peerHt : peer.mlmeext.htEnable = true
  accepts : peer.mlmeext.bAcceptAddbaReq = true
  resp : List UInt8
  respSent : (peer.onActionBack reqMem reqPos).mgntSent = peer.mgntSent ++ [resp]
  respMem : Mem
  respPos : ℤ
  respCarried : respMem.Holds respPos resp
  psta : StaId
  knows : sender.rtwGetStainfo peer.macAddr = some psta
  linkUp : sender.baLinkUp = true
  ht : sender.mlmeext.htEnable = true

namespace AddbaExchange

variable {ι κ : Type} (e : AddbaExchange ι κ)

/-- The sender of the request after the answer. -/
def outcome : Adapter ι :=
  (e.sender.issueActionBA e.peer.macAddr .addbaReq e.tid).onActionBack e.respMem e.respPos

/-- The answer sets the bit of the TID, and no other. -/
def RoundTrips : Prop :=
  (e.outcome.sta e.psta).htpriv.aggEnableBitmap
    = setTid (e.sender.sta e.psta).htpriv.aggEnableBitmap e.tid

/-- The request is for TID 4, or its bit and the bit of TID 4 are set already. -/
def Harmless : Prop :=
  e.tid = 4 ∨ ((e.sender.sta e.psta).htpriv.aggEnableBitmap.getLsbD e.tid = true ∧
    (e.sender.sta e.psta).htpriv.aggEnableBitmap.getLsbD 4 = true)

/-- The peer reads the request as one with the parameter field `0x8810`, and answers it. -/
theorem resp_eq : ∃ t : Adapter κ, t.macAddr = e.peer.macAddr ∧
    t.mlmeext.addbaReq.baParaSet = 0x8810 ∧
    e.resp = t.baFrame e.sender.macAddr .addbaResp 0 := by
  have hreq := e.reqCarried
  rw [Adapter.eq_baFrame_of_sent e.reqSent] at hreq
  obtain ⟨h1, h2, h3, h4, h5⟩ := Adapter.of_holds_baFrame hreq
  have hh : e.peer.Hears e.reqMem e.reqPos e.peerSta :=
    ⟨h1, e.peerLinkUp, by rw [h2]; exact e.peerKnows, h3, e.peerHt⟩
  have hsent := e.respSent
  rw [Adapter.onActionBack_of_hears hh h4] at hsent
  have hpara := Adapter.copyAddbaReq_baParaSet h5
  simp only [Adapter.onAddbaReq, Adapter.processAddbaReq, h2] at hsent
  have hk : ∀ r : AddbaRequest,
      Adapter.rtwGetStainfo { e.peer with mlmeext.addbaReq := r } e.sender.macAddr
        = some e.peerSta := fun _ => e.peerKnows
  rw [hk] at hsent
  dsimp only at hsent
  rw [if_pos (by exact e.accepts)] at hsent
  refine ⟨_, ?_, ?_, Adapter.eq_baFrame_of_sent hsent⟩
  · rfl
  · exact hpara

/-- Whatever TID was asked for, the answer enables TID 4. -/
theorem agg_outcome : (e.outcome.sta e.psta).htpriv.aggEnableBitmap
    = setTid (e.sender.sta e.psta).htpriv.aggEnableBitmap 4 := by
  obtain ⟨t, hmac, hpara, hresp⟩ := e.resp_eq
  have hc := e.respCarried
  rw [hresp] at hc
  obtain ⟨h1, h2, h3, h4, h5⟩ := Adapter.of_holds_baFrame hc
  obtain ⟨seq, token, avail, sent, b, hs⟩ :=
    Adapter.issueActionBA_eq e.sender e.peer.macAddr .addbaReq e.tid
  unfold outcome
  rw [hs]
  have hh : Adapter.Hears
      { e.sender with
        mlmeext := { e.sender.mlmeext with mgntSeq := seq, dialogToken := token }
        memAvail := avail
        mgntSent := sent
        sta := fun k => { e.sender.sta k with baStartingSeqctrl := b k } }
      e.respMem e.respPos e.psta :=
    ⟨h1, e.linkUp, by rw [h2, hmac]; exact e.knows, h3, e.ht⟩
  rw [Adapter.onActionBack_of_hears hh h4]
  simp only [Adapter.onAddbaResp, Adapter.respStatus_of_holds h5,
    Adapter.respTid_of_holds hpara h5, if_true, Adapter.updateSta, Function.update_self,
    StaInfo.updateHt, HtPriv.enableAgg]

/-- A request has the wanted outcome exactly when it is harmless. -/
theorem roundTrips_iff : e.RoundTrips ↔ e.Harmless := by
  rw [RoundTrips, agg_outcome, setTid_eq_setTid_iff _ (by decide) e.tid.isLt, Harmless]
  have h4 : (4 : ℕ) = e.tid ↔ e.tid = 4 := by
    rw [Fin.ext_iff]
    exact eq_comm
  rw [h4]
  exact or_congr_right and_comm

end AddbaExchange

/-! ## Both kinds of exchange -/

/-- A DELBA has the wanted outcome exactly when it is one of the recipient for TID 0 or
finds nothing to tear down. An ADDBA request has it exactly when it is for TID 4 or finds
the bits of its TID and of TID 4 set already. -/
theorem blockAck_round_trip_iff {ι κ : Type} :
    (∀ e : DelbaExchange ι κ, e.RoundTrips ↔ e.Harmless) ∧
      ∀ e : AddbaExchange ι κ, e.RoundTrips ↔ e.Harmless :=
  ⟨fun e => e.roundTrips_iff, fun e => e.roundTrips_iff⟩

/-- An associated HT device with address `mac` that has an agreement for TID 1 with the
station `other`. -/
def agreedDevice (mac other : MacAddr) : Adapter (Fin 256) :=
  let s := ((Adapter.init (List.finRange 256) mac).rtwAllocStainfo other).2
  let s := s.updateSta 1 fun st => st.updateHt (·.enableAgg 1)
  { s with mlmeext.state := wifiFwAssocSuccess, mlmeext.htEnable := true }

/-- The DELBA with which the recipient ends the session of TID 1. -/
def delbaTidOne : DelbaExchange (Fin 256) (Fin 256) where
  sender := agreedDevice (localAddr 1) (localAddr 2)
  peer := agreedDevice (localAddr 2) (localAddr 1)
  tid := 1
  initiator := 0
  frame := (agreedDevice (localAddr 1) (localAddr 2)).baFrame
    (localAddr 2) .delba (Adapter.delbaStatus 1 0)
  sent := Adapter.mgntSent_issueActionBA _ _ _ _
  mem := Mem.write (fun _ => 0) 0 ((agreedDevice (localAddr 1) (localAddr 2)).baFrame
    (localAddr 2) .delba (Adapter.delbaStatus 1 0))
  pos := 0
  carried := Mem.read_write_self _ _ _
  psta := 1
  known := by decide
  linkUp := by decide
  htEnable := rfl

/-- The device with address 2, which accepts requests. -/
def acceptingDevice : Adapter (Fin 256) :=
  { agreedDevice (localAddr 2) (localAddr 1) with mlmeext.bAcceptAddbaReq := true }

/-- The request for `tid` to it, in memory. -/
def addbaReqMem (tid : Fin 8) : Mem :=
  Mem.write (fun _ => 0) 0
    ((agreedDevice (localAddr 1) (localAddr 2)).baFrame (localAddr 2) .addbaReq tid)

/-- What it has sent when it has read the request. -/
def addbaAnswers (tid : Fin 8) : List (List UInt8) :=
  (acceptingDevice.onActionBack (addbaReqMem tid) 0).mgntSent

theorem addbaAnswers_eq (tid : Fin 8) : addbaAnswers tid = [(addbaAnswers tid).getD 0 []] := by
  revert tid
  decide +kernel

/-- The exchange for `tid`. -/
def addbaFor (tid : Fin 8) : AddbaExchange (Fin 256) (Fin 256) where
  sender := agreedDevice (localAddr 1) (localAddr 2)
  peer := acceptingDevice
  tid := tid
  req := (agreedDevice (localAddr 1) (localAddr 2)).baFrame (localAddr 2) .addbaReq tid
  reqSent := Adapter.mgntSent_issueActionBA _ _ _ _
  reqMem := addbaReqMem tid
  reqPos := 0
  reqCarried := Mem.read_write_self _ _ _
  peerSta := 1
  peerKnows := by decide
  peerLinkUp := by decide
  peerHt := rfl
  accepts := rfl
  resp := (addbaAnswers tid).getD 0 []
  respSent := addbaAnswers_eq tid
  respMem := Mem.write (fun _ => 0) 0 ((addbaAnswers tid).getD 0 [])
  respPos := 0
  respCarried := Mem.read_write_self _ _ _
  psta := 1
  knows := by decide
  linkUp := by decide
  ht := rfl

/-- The peer of `delbaTidOne` keeps the agreement for TID 1. -/
theorem not_roundTrips_delbaTidOne : ¬ delbaTidOne.RoundTrips := by
  intro h
  have hbit : (delbaTidOne.peer.sta delbaTidOne.psta).htpriv.aggEnableBitmap.getLsbD 1 = true := by
    decide
  rcases delbaTidOne.roundTrips_iff.mp h with h1 | ⟨-, h1, -⟩
  · exact absurd h1 (by decide)
  · exact absurd (hbit.symm.trans h1) (by decide)

/-- Only the request for TID 4 has the wanted outcome, and the DELBA for TID 1 finds something to tear
down. -/
theorem blockAck_round_trip_iff_sample :
    (∀ tid, (addbaFor tid).RoundTrips ↔ tid = 4) ∧ ¬ delbaTidOne.Harmless := by
  have h := @blockAck_round_trip_iff (Fin 256) (Fin 256)
  have hfour : ((agreedDevice (localAddr 1) (localAddr 2)).sta 1).htpriv.aggEnableBitmap.getLsbD 4
      = false := by decide
  refine ⟨fun tid => (h.2 (addbaFor tid)).trans ⟨fun hs => hs.resolve_right fun h4 => ?_, Or.inl⟩,
    mt (h.1 delbaTidOne).mpr not_roundTrips_delbaTidOne⟩
  exact absurd (hfour.symm.trans h4.2) (by decide)

/-- Neither kind always has the wanted outcome. -/
theorem not_blockAck_round_trip :
    ¬ (∀ e : DelbaExchange (Fin 256) (Fin 256), e.RoundTrips) ∧
      ¬ ∀ e : AddbaExchange (Fin 256) (Fin 256), e.RoundTrips := by
  refine ⟨fun h => not_roundTrips_delbaTidOne (h delbaTidOne), fun h => ?_⟩
  rcases (addbaFor 2).roundTrips_iff.mp (h (addbaFor 2)) with h1 | ⟨-, h1⟩
  · exact absurd h1 (by decide)
  · exact absurd h1 (by decide)

end Rtl8188eu
