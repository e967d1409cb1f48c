import Rtl8188eu.Wifi

/-!
# Group-owner negotiation of Wi-Fi Direct

`core/rtw_p2p.c` and the public action frames of `core/rtw_mlme_ext.c`. A device that wants
to form a group sends a request with its intent to be the owner, the other answers, and the
first confirms. The higher intent wins, and a tie-breaker bit decides between equal ones.

A frame is taken here as the attributes that `rtw_get_p2p_attr_content` finds in its P2P
elements. Left out are the fields that these functions only write (the group id, the
interface address of the peer, the WPS configuration method).
-/

namespace Rtl8188eu

/-- `enum P2P_ROLE`. -/
inductive P2pRole
  | disable
  | device
  | client
  | go
  deriving DecidableEq

/-- `enum P2P_STATE`. -/
inductive P2pState
  | none
  | idle
  | listen
  | scan
  | findPhaseListen
  | findPhaseSearch
  | txProvisionDisReq
  | rxProvisionDisRsp
  | rxProvisionDisReq
  | gonegoIng
  | gonegoOk
  | gonegoFail
  | recvInviteReqMatch
  | provisioningIng
  | provisioningDone
  | txInviteReq
  | rxInviteRespOk
  | recvInviteReqDismatch
  | recvInviteReqGo
  | recvInviteReqJoin
  | rxInviteRespFail
  | rxInforNoready
  | txInforNoready
  deriving DecidableEq

/-- `enum P2P_WPSINFO`. -/
inductive P2pWpsinfo
  | noWpsinfo
  | peerDisplayPin
  | selfDisplayPin
  | pbc
  deriving DecidableEq

/-- `P2P_STATUS_SUCCESS`. -/
def p2pStatusSuccess : UInt8 := 0x00
/-- `P2P_STATUS_FAIL_INFO_UNAVAILABLE`. -/
def p2pStatusFailInfoUnavailable : UInt8 := 0x01
/-- `P2P_STATUS_FAIL_INCOMPATIBLE_PARAM`. -/
def p2pStatusFailIncompatibleParam : UInt8 := 0x02
/-- `P2P_STATUS_FAIL_NO_COMMON_CH`. -/
def p2pStatusFailNoCommonCh : UInt8 := 0x07
/-- `P2P_STATUS_FAIL_BOTH_GOINTENT_15`. -/
def p2pStatusFailBothGointent15 : UInt8 := 0x09
/-- `P2P_MAX_INTENT`. -/
def p2pMaxIntent : Fin 16 := 15

/-- One operating class of a channel list. -/
structure RegClass where
  regClass : UInt8
  channel : List UInt8

/-- The attributes of one P2P element. -/
structure P2pIe where
  status : Option UInt8
  /-- The intent in the upper bits, the tie breaker in bit 0. -/
  goIntent : Option UInt8
  operatingCh : Option UInt8
  chList : Option (List RegClass)

/-- The OUI subtypes of the negotiation. -/
inductive NegoSubtype
  | req
  | resp
  | conf
  deriving DecidableEq

/-- A public action frame of the negotiation. -/
structure NegoFrame where
  addr1 : MacAddr
  addr2 : MacAddr
  seqNum : ℕ
  subtype : NegoSubtype
  dialogToken : UInt8
  /-- A WPS element is there. -/
  wpsIe : Bool
  p2pIes : List P2pIe

/-- The fields of `struct wifidirect_info` and `struct mlme_ext_priv` that the negotiation
reads. -/
structure P2pDevice where
  /-- `myid`. -/
  myid : MacAddr
  p2pState : P2pState
  preP2pState : P2pState
  role : P2pRole
  /-- `rtw_p2p_set_intent` stores no value above `P2P_MAX_INTENT`. -/
  intent : Fin 16
  peerIntent : UInt8
  uiGotWpsInfo : P2pWpsinfo
  operatingChannel : UInt8
  peerOperatingCh : UInt8
  channelListAttr : List RegClass
  negotiationDialogToken : UInt8
  /-- `nego_req_info.benable`. -/
  benable : Bool
  /-- `nego_req_info.peerDevAddr`. -/
  peerDevAddr : MacAddr
  /-- `restore_p2p_state_timer` is armed. -/
  restoreTimer : Bool
  /-- The `P2P_RESTORE_STATE_WK` commands in the command queue. -/
  restoreCmds : ℕ
  /-- The channels of `channel_set`. -/
  channelSet : List UInt8
  channelList : List RegClass
  mgntSeq : ℕ
  actionPublicRxseq : ℕ
  actionPublicDialogToken : UInt8

/-- `rtw_p2p_get_peer_ch_list`. -/
def rtwP2pGetPeerChList (chContent : List RegClass) : List UInt8 :=
  chContent.flatMap (·.channel)

/-- `rtw_p2p_ch_inclusion`. The search goes on from the last channel found. -/
def rtwP2pChInclusion (channelSet : List UInt8) : ℕ → List UInt8 → List UInt8
  | _, [] => []
  | temp, ch :: chs =>
    match (channelSet.drop temp).idxOf? ch with
    | some j => ch :: rtwP2pChInclusion channelSet (temp + j) chs
    | none => rtwP2pChInclusion channelSet temp chs

namespace P2pDevice

/-- The channels of a peer's list that this device has too. -/
def chListInclusioned (w : P2pDevice) (chContent : List RegClass) : List UInt8 :=
  rtwP2pChInclusion w.channelSet 0 (rtwP2pGetPeerChList chContent)

/-- A group owner keeps its operating channel if it is common, else takes the peer's, else
the first common one. -/
def changeOperatingChannel (w : P2pDevice) (incl : List UInt8) (peerCh : Option UInt8) :
    P2pDevice :=
  if w.role ≠ .go ∨ w.operatingChannel ∈ incl then w
  else if peerCh.getD 0 ∈ incl then { w with operatingChannel := peerCh.getD 0 }
  else { w with operatingChannel := incl.headD 0 }

/-- The role by the two intents, for intents that differ or are below the maximum. -/
def roleByIntent (w : P2pDevice) (attr : UInt8) : P2pRole :=
  if w.intent.val = (attr >>> 1).toNat then
    if attr &&& 0x01 ≠ 0 then .client else .go
  else if w.intent.val > (attr >>> 1).toNat then .go
  else .client

/-! ## Requests -/

/-- What `process_p2p_group_negotation_req` does with the intent of the peer. -/
def reqGoIntent (w : P2pDevice) (result attr : UInt8) : UInt8 × P2pDevice :=
  let w := { w with peerIntent := attr }
  if w.intent.val = (attr >>> 1).toNat ∧ w.intent = p2pMaxIntent then
    (p2pStatusFailBothGointent15, { w with role := .device })
  else (result, { w with role := w.roleByIntent attr })

/-- The loop of `process_p2p_group_negotation_req` over the P2P elements. -/
def reqLoop (result : UInt8) (w : P2pDevice) : List P2pIe → UInt8 × P2pDevice
  | [] => (result, w)
  | ie :: ies =>
    let w := { w with p2pState := .gonegoIng }
    let (result, w) := match ie.goIntent with
      | some attr => w.reqGoIntent result attr
      | none => (result, w)
    match ie.chList with
    | some chContent =>
      let incl := w.chListInclusioned chContent
      if incl = [] then (p2pStatusFailNoCommonCh, { w with p2pState := .gonegoFail })
      else reqLoop result (w.changeOperatingChannel incl ie.operatingCh) ies
    | none => reqLoop result w ies

/-- `process_p2p_group_negotation_req`. -/
def processP2pGroupNegotationReq (w : P2pDevice) (f : NegoFrame) : UInt8 × P2pDevice :=
  if ¬ f.wpsIe then (p2pStatusFailIncompatibleParam, { w with p2pState := .gonegoFail })
  else if w.uiGotWpsInfo = .noWpsinfo then
    (p2pStatusFailInfoUnavailable, { w with p2pState := .txInforNoready })
  else if f.p2pIes = [] then
    (p2pStatusFailIncompatibleParam, { w with p2pState := .gonegoFail })
  else reqLoop p2pStatusSuccess w f.p2pIes

/-! ## Responses -/

/-- What `process_p2p_group_negotation_resp` does with the intent of the peer. -/
def respGoIntent (w : P2pDevice) (result attr : UInt8) : UInt8 × P2pDevice :=
  let w := { w with peerIntent := attr }
  if w.intent.val = (attr >>> 1).toNat ∧ w.intent = p2pMaxIntent then
    (p2pStatusFailBothGointent15, { w with role := .device, p2pState := .gonegoFail })
  else
    (result, { w with p2pState := .gonegoOk, preP2pState := .gonegoOk,
                      role := w.roleByIntent attr })

/-- The loop of `process_p2p_group_negotation_resp` over the P2P elements. -/
def respLoop (result : UInt8) (w : P2pDevice) : List P2pIe → UInt8 × P2pDevice
  | [] => (result, w)
  | ie :: ies =>
    match ie.status.filter (· ≠ p2pStatusSuccess) with
    | some st =>
      (st, { w with
        p2pState := if st = p2pStatusFailInfoUnavailable then .rxInforNoready else .gonegoFail
        role := .device })
    | none =>
      let (result, w) := match ie.goIntent with
        | some attr => w.respGoIntent result attr
        | none => (result, w)
      let w := { w with peerOperatingCh := ie.operatingCh.getD w.peerOperatingCh }
      match ie.chList with
      | some chContent =>
        let w := { w with channelListAttr := chContent }
        let incl := w.chListInclusioned chContent
        if incl = [] then (p2pStatusFailNoCommonCh, { w with p2pState := .gonegoFail })
        else respLoop result (w.changeOperatingChannel incl ie.operatingCh) ies
      | none => respLoop result w ies

/-- `process_p2p_group_negotation_resp`. -/
def processP2pGroupNegotationResp (w : P2pDevice) (f : NegoFrame) : UInt8 × P2pDevice :=
  let (result, w) :=
    if f.wpsIe then (p2pStatusSuccess, w)
    else (p2pStatusFailIncompatibleParam, { w with p2pState := .gonegoFail })
  if f.p2pIes = [] then
    (p2pStatusFailIncompatibleParam, { w with role := .device, p2pState := .gonegoFail })
  else respLoop result w f.p2pIes

/-! ## Confirms -/

/-- The loop of `process_p2p_group_negotation_confirm` over the P2P elements. The role comes
from the intent that was recorded last, whatever frame it came in. -/
def confirmLoop (result : UInt8) (w : P2pDevice) : List P2pIe → UInt8 × P2pDevice
  | [] => (result, w)
  | ie :: ies =>
    let w := { w with negotiationDialogToken := 1 }
    match ie.status with
    | none =>
      confirmLoop result
        { w with peerOperatingCh := ie.operatingCh.getD w.peerOperatingCh } ies
    | some st =>
      if st = p2pStatusSuccess then
        confirmLoop st { w with
          restoreTimer := false
          p2pState := .gonegoOk
          preP2pState := .gonegoOk
          role := w.roleByIntent w.peerIntent
          peerOperatingCh := ie.operatingCh.getD w.peerOperatingCh } ies
      else (st, { w with role := .device, p2pState := .gonegoFail })

/-- `process_p2p_group_negotation_confirm`. -/
def processP2pGroupNegotationConfirm (w : P2pDevice) (f : NegoFrame) : UInt8 × P2pDevice :=
  confirmLoop p2pStatusSuccess w f.p2pIes

/-! ## The frames sent -/

/-- The management frame counter moves on. -/
def nextMgntSeq (w : P2pDevice) : P2pDevice := { w with mgntSeq := (w.mgntSeq + 1) % 65536 }

/-- `intent << 1 | tie`. -/
def goIntentAttr (w : P2pDevice) (tie : Bool) : UInt8 :=
  UInt8.ofNat w.intent.val <<< 1 ||| if tie then 1 else 0

/-- `issue_p2p_GO_request`. `xmit` says that `alloc_mgtxmitframe` has a frame. -/
def issueP2pGORequest (w : P2pDevice) (xmit : Bool) (raddr : MacAddr) :
    P2pDevice × Option NegoFrame :=
  if ¬ xmit then (w, none)
  else
    ({ w.nextMgntSeq with negotiationDialogToken := 1 },
      some { addr1 := raddr, addr2 := w.myid, seqNum := w.mgntSeq % 4096, subtype := .req
             dialogToken := 1, wpsIe := true
             p2pIes := [{ status := none, goIntent := some (w.goIntentAttr true)
                          operatingCh := some w.operatingChannel
                          chList := some w.channelList }] })

/-- `issue_p2p_GO_response`. The tie breaker is the opposite of the recorded one. -/
def issueP2pGOResponse (w : P2pDevice) (xmit : Bool) (f : NegoFrame) (result : UInt8) :
    P2pDevice × Option NegoFrame :=
  if ¬ xmit then (w, none)
  else
    ({ w.nextMgntSeq with negotiationDialogToken := f.dialogToken },
      some { addr1 := f.addr2, addr2 := w.myid, seqNum := w.mgntSeq % 4096, subtype := .resp
             dialogToken := f.dialogToken, wpsIe := true
             p2pIes := [{ status := some result
                          goIntent := some (w.goIntentAttr (w.peerIntent &&& 0x01 = 0))
                          operatingCh := some w.operatingChannel
                          chList := some w.channelList }] })

/-- `issue_p2p_GO_confirm`. -/
def issueP2pGOConfirm (w : P2pDevice) (xmit : Bool) (raddr : MacAddr) (result : UInt8) :
    P2pDevice × Option NegoFrame :=
  if ¬ xmit then (w, none)
  else
    (w.nextMgntSeq,
      some { addr1 := raddr, addr2 := w.myid, seqNum := w.mgntSeq % 4096, subtype := .conf
             dialogToken := w.negotiationDialogToken, wpsIe := false
             p2pIes := [{ status := some result, goIntent := none
                          operatingCh := some
                            (if w.role = .client then w.peerOperatingCh else w.operatingChannel)
                          chList := some w.channelListAttr }] })

/-! ## Events -/

/-- `rtw_action_public_decache`. The frame is new, and is remembered, or it repeats the
last one. -/
def rtwActionPublicDecache (w : P2pDevice) (f : NegoFrame) (retry : Bool) :
    Option P2pDevice :=
  if retry ∧ f.seqNum * 16 = w.actionPublicRxseq ∧ f.dialogToken = w.actionPublicDialogToken
  then none
  else some { w with actionPublicRxseq := f.seqNum * 16
                     actionPublicDialogToken := f.dialogToken }

/-- The branch `P2P_GO_NEGO_REQ` of `on_action_public_p2p`. -/
def onGoNegoReq (w : P2pDevice) (xmit : Bool) (f : NegoFrame) : P2pDevice × Option NegoFrame :=
  let w := if w.p2pState = .rxProvisionDisReq then { w with p2pState := w.preP2pState } else w
  let w :=
    if w.p2pState = .gonegoFail then
      { w with restoreTimer := false, p2pState := w.preP2pState }
    else w
  let w := if w.p2pState ≠ .gonegoIng then { w with preP2pState := w.p2pState } else w
  let (result, w) := w.processP2pGroupNegotationReq f
  let (w, sent) := w.issueP2pGOResponse xmit f result
  ({ w with restoreTimer := true }, sent)

/-- The branch `P2P_GO_NEGO_RESP` of `on_action_public_p2p`. -/
def onGoNegoResp (w : P2pDevice) (xmit : Bool) (f : NegoFrame) : P2pDevice × Option NegoFrame :=
  if w.p2pState ≠ .gonegoIng then (w, none)
  else
    let w := { w with restoreTimer := false, benable := false }
    let (result, w) := w.processP2pGroupNegotationResp f
    let (w, sent) := w.issueP2pGOConfirm xmit f.addr2 result
    let w := { w with negotiationDialogToken := 1 }
    (if w.p2pState = .gonegoFail then { w with restoreTimer := true } else w, sent)

/-- `on_action_public_p2p` on the frames of the negotiation. -/
def onActionPublicP2p (w : P2pDevice) (xmit retry : Bool) (f : NegoFrame) :
    P2pDevice × Option NegoFrame :=
  match w.rtwActionPublicDecache f retry with
  | none => (w, none)
  | some w =>
    if w.p2pState = .none ∨ w.p2pState = .idle then (w, none)
    else match f.subtype with
      | .req => w.onGoNegoReq xmit f
      | .resp => w.onGoNegoResp xmit f
      | .conf => ((w.processP2pGroupNegotationConfirm f).2, none)

/-- `rtw_p2p_connect` to `peerMAC`, with the channel that the scan table has for it. -/
def rtwP2pConnect (w : P2pDevice) (peerMAC : MacAddr) (uintPeerChannel : ℕ) : P2pDevice :=
  if w.p2pState = .none ∨ w.uiGotWpsInfo = .noWpsinfo ∨ uintPeerChannel = 0 then w
  else
    let w := if w.p2pState ≠ .gonegoOk then { w with p2pState := .listen } else w
    { w with
      benable := true, peerDevAddr := peerMAC
      preP2pState := w.p2pState, p2pState := .gonegoIng
      restoreTimer := true }

/-- The part of `OnProbeRsp` that sends the request to the peer that is being asked. -/
def onProbeRsp (w : P2pDevice) (xmit : Bool) (addr2 : MacAddr) :
    P2pDevice × Option NegoFrame :=
  if w.p2pState = .gonegoIng ∧ w.benable ∧ w.peerDevAddr = addr2 then
    { w with benable := false }.issueP2pGORequest xmit w.peerDevAddr
  else (w, none)

/-- `restore_p2p_state_timer_process` with `p2p_protocol_wk_cmd`. -/
def restoreP2pStateTimerProcess (w : P2pDevice) : P2pDevice :=
  if ¬ w.restoreTimer then w
  else if w.p2pState = .none then { w with restoreTimer := false }
  else { w with restoreTimer := false, restoreCmds := w.restoreCmds + 1 }

/-- `restore_p2p_state_handler`, when the command queue comes to it. -/
def restoreP2pStateHandler (w : P2pDevice) : P2pDevice :=
  if w.restoreCmds = 0 then w
  else
    { w with
      restoreCmds := w.restoreCmds - 1
      role := if w.p2pState = .gonegoIng ∨ w.p2pState = .gonegoFail then .device else w.role
      p2pState := w.preP2pState }

end P2pDevice

end Rtl8188eu
