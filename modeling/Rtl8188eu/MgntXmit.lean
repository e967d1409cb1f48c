import Rtl8188eu.AccessPoint
import Rtl8188eu.InfoElementLists
import Rtl8188eu.P2p
import Rtl8188eu.XmitFragments

/-!
# The transmit path of management frames

A builder of management frames (`issue_beacon`, `issue_auth` and the others) takes an
`xmit_frame` and an ext `xmit_buf` from their free queues with `alloc_mgtxmitframe`, fills the
buffer, and passes both on with one of the three `dump_mgntframe` functions.
`rtw_hal_mgnt_xmit` gives the buffer to the USB core and the frame back to its queue, and the
completion of the URB gives the buffer back.

`MgntXmit` is the state of the two queues and of everything that is not in them. A builder is
what it does with the frame it was given (`build`) : the bytes it writes matter only where their
number decides how it leaves, which is the case for the beacon. The steps of different builders,
of the USB core and of the data path come in any order (`step`).
-/

namespace Rtl8188eu

/-- `NR_XMIT_EXTBUFF`. -/
def nrXmitExtbuff : ℕ := 32
/-- `_FIXED_IE_LENGTH_` and `_BEACON_IE_OFFSET_`. -/
def beaconIeOffset : ℕ := 12
/-- `sizeof (struct rtw_ieee80211_hdr_3addr)`. -/
def hdr3addrLen : ℕ := 24
/-- `_SSID_IE_`. -/
def ssidIe : UInt8 := 0
/-- `_SUPPORTEDRATES_IE_`. -/
def supportedratesIe : UInt8 := 1
/-- `_DSSET_IE_`. -/
def dssetIe : UInt8 := 3
/-- `_IBSS_PARA_IE_`. -/
def ibssParaIe : UInt8 := 6
/-- `_EXT_SUPPORTEDRATES_IE_`. -/
def extSupportedratesIe : UInt8 := 50
/-- `IEEE80211_BASIC_RATE_MASK`. -/
def basicRateMask : UInt8 := 0x80
/-- `WIFI_ASSOCRSP`. -/
def wifiAssocrsp : ℤ := 0x10
/-- `WIFI_REASSOCRSP`. -/
def wifiReassocrsp : ℤ := 0x30

/-- The value of a `u32`. -/
def toU32 (x : ℤ) : ℤ := x % 2 ^ 32

/-- A `u32` as an `int`. -/
def toInt (x : ℤ) : ℤ := x.bmod (2 ^ 32)

theorem toInt_of_le {n : ℕ} (h : n ≤ maxIeSz) : toInt n = n := by
  have hlt : n * 2 < 2 ^ 32 := lt_of_le_of_lt (Nat.mul_le_mul_right 2 h) (by decide)
  rw [toInt, Int.bmod_eq_of_le_mul_two]
  · have hneg : -((2 ^ 32 : ℕ) : ℤ) ≤ 0 := Int.neg_nonpos_of_nonneg (Int.natCast_nonneg _)
    exact hneg.trans (by positivity)
  · exact_mod_cast hlt

theorem toU32_of_le {x : ℤ} {n : ℕ} (h : n ≤ maxIeSz) (hx : x = n) : toU32 x = n := by
  unfold toU32
  unfold maxIeSz at h
  omega

/-! ## The length of a beacon -/

/-- `rtw_get_rateset_len` from the rate `i` on. -/
def rtwGetRatesetLenLoop (rateset : ℕ → UInt8) : ℕ → ℕ → ℕ
  | 0, i => i
  | fuel + 1, i =>
    if rateset i = 0 then i
    else if 12 < i then i
    else rtwGetRatesetLenLoop rateset fuel (i + 1)

/-- `rtw_get_rateset_len`. -/
def rtwGetRatesetLen (rateset : ℕ → UInt8) : ℕ := rtwGetRatesetLenLoop rateset 14 0

/-- `update_hidden_ssid` : the change of the length, and the memory. -/
def updateHiddenSsid (m : Mem) (ies iesLen : ℤ) (hiddenSsidMode : ℕ) : ℤ × Mem :=
  match rtwGetIe m ies ssidIe (toInt iesLen) with
  | none => (0, m)
  | some (ssid, ssidLenOri) =>
    if 0 < ssidLenOri then
      match hiddenSsidMode with
      | 1 =>
        let nextIe := ssid + 2 + ssidLenOri
        let remainLen := (toU32 (iesLen - (nextIe - ies))).toNat
        let m := m.write (ssid + 1) [0]
        (-ssidLenOri, m.write (ssid + 2) (m.read nextIe remainLen))
      | 2 => (0, m.write (ssid + 2) (List.replicate ssidLenOri 0))
      | _ => (0, m)
    else (0, m)

/-- `rtw_set_p2p_attr_content`. -/
def rtwSetP2pAttrContent (attrId : UInt8) (data : List UInt8) : List UInt8 :=
  attrId :: UInt8.ofNat data.length :: UInt8.ofNat (data.length / 256) :: data

/-- What `issue_beacon` reads : the memory with the elements of the network at `ies`, the
network, and the frame body at `pframe`. -/
structure BeaconInput where
  m : Mem
  pframe : ℤ
  /-- `pmlmeinfo->state`. -/
  state : ℕ
  ies : ℤ
  ieLength : ℕ
  ssid : List UInt8
  supportedRates : ℕ → UInt8
  dsConfig : UInt8
  hiddenSsidMode : ℕ
  role : P2pRole
  /-- `rtw_p2p_chk_state(pwdinfo, P2P_STATE_PROVISIONING_ING)`. -/
  provisioning : Bool
  deviceName : List UInt8
  deviceAddr : Vector UInt8 6
  timeoutMs : ℤ

namespace BeaconInput

variable (e : BeaconInput)

/-- `build_beacon_p2p_ie` : the length. -/
def buildBeaconP2pIe : ℕ :=
  let group : UInt8 := if e.provisioning then 0x49 else 0x09
  let p2pie := p2pOui ++ rtwSetP2pAttrContent 0x02 [0x22, group]
    ++ rtwSetP2pAttrContent 0x03 e.deviceAddr.toList
  (rtwSetIe e.m e.pframe vendorSpecificIe p2pie 0).2.2

/-- The primary device type and the device name that a group owner adds to the WPS element. -/
def wpsInsert : List UInt8 :=
  [0x10, 0x54, 0x00, 0x08, 0x00, 0x08, 0x00, 0x50, 0xf2, 0x04, 0x00, 0x05, 0x10, 0x11,
    UInt8.ofNat (e.deviceName.length / 256), UInt8.ofNat e.deviceName.length] ++ e.deviceName

/-- The WPS element of the network. -/
def wpsie : Option (ℤ × ℕ) :=
  rtwGetWpsIe e.m (e.ies + beaconIeOffset) (toU32 (e.ieLength - beaconIeOffset)).toNat

/-- `pattrib->pktlen` behind the elements of an access point. -/
def apPktlen : ℤ :=
  let pktlen : ℤ := hdr3addrLen
  let pktlen := match e.role, e.wpsie with
    | .go, some (wpsie, wpsielen) =>
      let wpsOffset := wpsie - e.ies
      let remainderIelen := e.ieLength - wpsOffset - wpsielen
      pktlen + (wpsOffset + wpsielen) + e.wpsInsert.length + remainderIelen
    | _, _ =>
      let m := e.m.write e.pframe (e.m.read e.ies e.ieLength)
      let lenDiff :=
        (updateHiddenSsid m (e.pframe + beaconIeOffset) (toU32 (e.ieLength - beaconIeOffset))
          e.hiddenSsidMode).1
      pktlen + (e.ieLength + lenDiff)
  if e.role = .go then pktlen + e.buildBeaconP2pIe else pktlen

/-- `pattrib->pktlen` behind the elements of an ad-hoc station. -/
def adhocPktlen : ℕ :=
  let pktlen := hdr3addrLen + 8
  let (pframe, m) := (e.pframe + 8, e.m.write (e.pframe + 8) (e.m.read (e.ies + 8) 2))
  let pktlen := pktlen + 2
  let (pframe, m) := (pframe + 2, m.write (pframe + 2) (e.m.read (e.ies + 10) 2))
  let pktlen := pktlen + 2
  let (pframe, m, pktlen) := rtwSetIe m (pframe + 2) ssidIe e.ssid pktlen
  let rateLen := rtwGetRatesetLen e.supportedRates
  let rates := (List.range rateLen).map e.supportedRates
  let (pframe, m, pktlen) := rtwSetIe m pframe supportedratesIe (rates.take 8) pktlen
  let (pframe, m, pktlen) := rtwSetIe m pframe dssetIe [e.dsConfig] pktlen
  let (pframe, m, pktlen) := rtwSetIe m pframe ibssParaIe [0, 0] pktlen
  let (pframe, m, pktlen) := rtwSetIe m pframe erpinfoIe [0] pktlen
  if 8 < rateLen then (rtwSetIe m pframe extSupportedratesIe (rates.drop 8) pktlen).2.2 else pktlen

/-- `pattrib->pktlen` at `_issue_bcn`. -/
def pktlen : ℤ := if e.state &&& 0x03 = wifiFwApState then e.apPktlen else e.adhocPktlen

end BeaconInput

/-- What `issue_assocreq` reads to find the rates that the network and the station have in
common. -/
structure AssocreqInput where
  supportedRates : ℕ → UInt8
  staBssrate : ℕ → UInt8
  /-- The length that `get_rate_set` returns. -/
  staBssrateLen : ℕ
  curChannel : ℕ

/-- The rates of the network, up to the first zero. -/
def AssocreqInput.networkRates (e : AssocreqInput) : List UInt8 :=
  ((List.range 16).map e.supportedRates).takeWhile (· ≠ 0)

/-- The rates of the station. Channel 14 has only the four of 11b. -/
def AssocreqInput.staRates (e : AssocreqInput) : List UInt8 :=
  (List.range (if e.curChannel = 14 then 4 else e.staBssrateLen)).map e.staBssrate

/-- `bssrate`. -/
def AssocreqInput.bssrate (e : AssocreqInput) : List UInt8 :=
  e.networkRates.filter fun r => e.staRates.any fun q => r ||| basicRateMask = q ||| basicRateMask

/-! ## The builders -/

/-- The builders that end with `dump_mgntframe` whatever they are given. -/
inductive PlainBuilder
  | issueAuth
  | issueProberspP2p
  | issueP2pGoRequest
  | issueP2pGoResponse
  | issueP2pGoConfirm
  | issueP2pInvitationRequest
  | issueP2pInvitationResponse
  | issueP2pProvisionRequest
  | issueP2pProvisionResp
  | issueP2pPresenceResp
  | issueP2pDevdiscResp
  | issueGroupDiscReq
  | issueActionSpctChSwitch
  | issueActionBa

/-- The builders that may wait for an acknowledgement. -/
inductive AckBuilder
  | issueProbereq
  | issueProbereqP2p
  | issueNulldata
  | issueQosNulldata
  | issueDeauth

/-- A call of a builder, with what it reads to decide how it leaves. -/
inductive MgntBuilder
  | issueBeacon (e : BeaconInput)
  /-- `issue_probersp`, with `cur_network->IELength`. -/
  | issueProbersp (ieLength : ℕ)
  | issueAsocrsp (pktType : ℤ)
  | issueAssocreq (e : AssocreqInput)
  | plain (b : PlainBuilder)
  | ack (b : AckBuilder) (waitAck : Bool)
  /-- `issue_action_BSSCoexistPacket`. -/
  | issueActionBssCoexistPacket (numFortyMHzIntolerant numStaNoHt : ℕ) (bwmodeUpdated : Bool)
  /-- `SetFwRsvdPagePkt`. -/
  | setFwRsvdPagePkt

/-- The builder comes to `alloc_mgtxmitframe`. -/
def MgntBuilder.allocates : MgntBuilder → Bool
  | .issueActionBssCoexistPacket numFortyMHzIntolerant numStaNoHt bwmodeUpdated =>
    !(numFortyMHzIntolerant = 0 || numStaNoHt = 0) && !bwmodeUpdated
  | _ => true

/-- `pmgntframe` with its `pxmitbuf`. -/
structure MgntFrame (φ β : Type*) where
  frame : φ
  pxmitbuf : β
deriving DecidableEq

/-- What `usb_submit_urb` returns, or the status a URB completes with. -/
inductive UrbStatus
  | ok
  | enodev
  | epipe
  | eproto
  | einprogress
  | enoent
  | econnreset
  | eshutdown
  | other
deriving DecidableEq

/-- The free queues of `struct xmit_priv`, and who has what is not in them. -/
structure MgntXmit (φ β : Type*) where
  freeXmitQueue : List φ
  freeXmitExtbufQueue : List β
  /-- The frames of data packets. -/
  dataFrames : List φ
  /-- The calls of builders that have a frame. -/
  building : List (MgntBuilder × MgntFrame φ β)
  /-- The calls of `rtw_hal_mgnt_xmit`. -/
  handed : List (MgntFrame φ β)
  /-- The buffers the USB core has. -/
  submitted : List β
  bDriverStopped : Bool
  bSurpriseRemoved : Bool
  bWritePortCancel : Bool
  /-- `pwrctrlpriv.pnp_bstop_trx`. -/
  pnpBstopTrx : Bool

namespace MgntXmit

variable {φ β : Type*}

/-! ## The free queues -/

/-- `rtw_alloc_xmitframe`. -/
def rtwAllocXmitframe (s : MgntXmit φ β) : Option (φ × MgntXmit φ β) :=
  match s.freeXmitQueue with
  | [] => none
  | f :: q => some (f, { s with freeXmitQueue := q })

/-- `rtw_free_xmitframe`. -/
def rtwFreeXmitframe (s : MgntXmit φ β) (f : φ) : MgntXmit φ β :=
  { s with freeXmitQueue := s.freeXmitQueue ++ [f] }

/-- `rtw_alloc_xmitbuf_ext`. -/
def rtwAllocXmitbufExt (s : MgntXmit φ β) : Option (β × MgntXmit φ β) :=
  match s.freeXmitExtbufQueue with
  | [] => none
  | b :: q => some (b, { s with freeXmitExtbufQueue := q })

/-- `rtw_free_xmitbuf_ext`, which `rtw_free_xmitbuf` is for an ext buffer. -/
def rtwFreeXmitbuf (s : MgntXmit φ β) (b : β) : MgntXmit φ β :=
  { s with freeXmitExtbufQueue := s.freeXmitExtbufQueue ++ [b] }

/-- `alloc_mgtxmitframe`. -/
def allocMgtxmitframe (s : MgntXmit φ β) : Option (MgntFrame φ β) × MgntXmit φ β :=
  match s.rtwAllocXmitframe with
  | none => (none, s)
  | some (f, s) =>
    match s.rtwAllocXmitbufExt with
    | none => (none, s.rtwFreeXmitframe f)
    | some (b, s) => (some ⟨f, b⟩, s)

/-! ## Below the builders -/

/-- `usb_write_port`. `status` is what `usb_submit_urb` returns. -/
def usbWritePort (s : MgntXmit φ β) (status : UrbStatus) (b : β) : MgntXmit φ β :=
  if s.bDriverStopped || s.bSurpriseRemoved || s.pnpBstopTrx then s.rtwFreeXmitbuf b
  else
    match status with
    | .ok => { s with submitted := s.submitted ++ [b] }
    | .enodev => { s with bDriverStopped := true }.rtwFreeXmitbuf b
    | _ => s.rtwFreeXmitbuf b

/-- `rtw_dump_xframe`. `update_mgntframe_attrib` sets `nr_frags` to one. -/
def rtwDumpXframe (s : MgntXmit φ β) (status : UrbStatus) (x : MgntFrame φ β) : MgntXmit φ β :=
  (s.usbWritePort status x.pxmitbuf).rtwFreeXmitframe x.frame

/-- What `usb_write_port_complete` does about the status of the URB. -/
def urbFailed (s : MgntXmit φ β) : UrbStatus → MgntXmit φ β
  | .eshutdown => { s with bDriverStopped := true }
  | .enodev | .other => { s with bSurpriseRemoved := true }
  | _ => s

/-- `usb_write_port_complete`. -/
def usbWritePortComplete (s : MgntXmit φ β) (status : UrbStatus) (b : β) : MgntXmit φ β :=
  (if s.bSurpriseRemoved || s.bDriverStopped || s.bWritePortCancel then s
    else s.urbFailed status).rtwFreeXmitbuf b

/-- `rtw_hal_mgnt_xmit` is called. -/
def rtwHalMgntXmit (s : MgntXmit φ β) (x : MgntFrame φ β) : MgntXmit φ β :=
  { s with handed := s.handed ++ [x] }

/-- The check at the start of the `dump_mgntframe` functions. They differ in what they wait for
behind `rtw_hal_mgnt_xmit`. -/
def dump (s : MgntXmit φ β) (x : MgntFrame φ β) : MgntXmit φ β :=
  if s.bSurpriseRemoved || s.bDriverStopped then s else s.rtwHalMgntXmit x

/-- `dump_mgntframe`. -/
def dumpMgntframe (s : MgntXmit φ β) (x : MgntFrame φ β) : MgntXmit φ β := s.dump x

/-- `dump_mgntframe_and_wait`. -/
def dumpMgntframeAndWait (s : MgntXmit φ β) (x : MgntFrame φ β) : MgntXmit φ β := s.dump x

/-- `dump_mgntframe_and_wait_ack`. -/
def dumpMgntframeAndWaitAck (s : MgntXmit φ β) (x : MgntFrame φ β) : MgntXmit φ β := s.dump x

/-! ## What the builders do with their frame -/

/-- `issue_beacon` behind `alloc_mgtxmitframe`. -/
def issueBeacon (s : MgntXmit φ β) (e : BeaconInput) (x : MgntFrame φ β) : MgntXmit φ β :=
  if toU32 (e.pktlen + txdescSize) > 512 then s
  else if 0 < e.timeoutMs then s.dumpMgntframeAndWait x
  else s.dumpMgntframe x

/-- `issue_probersp` behind `alloc_mgtxmitframe`. -/
def issueProbersp (s : MgntXmit φ β) (ieLength : ℕ) (x : MgntFrame φ β) : MgntXmit φ β :=
  if maxIeSz < ieLength then s else s.dumpMgntframe x

/-- `issue_asocrsp` behind `alloc_mgtxmitframe`. -/
def issueAsocrsp (s : MgntXmit φ β) (pktType : ℤ) (x : MgntFrame φ β) : MgntXmit φ β :=
  if pktType = wifiAssocrsp ∨ pktType = wifiReassocrsp then s.dumpMgntframe x else s

/-- `issue_assocreq` behind `alloc_mgtxmitframe`. -/
def issueAssocreq (s : MgntXmit φ β) (e : AssocreqInput) (x : MgntFrame φ β) : MgntXmit φ β :=
  if e.bssrate.length = 0 then (s.rtwFreeXmitbuf x.pxmitbuf).rtwFreeXmitframe x.frame
  else s.dumpMgntframe x

/-- A builder that may wait for an acknowledgement. -/
def dumpOrWaitAck (s : MgntXmit φ β) (waitAck : Bool) (x : MgntFrame φ β) : MgntXmit φ β :=
  if waitAck then s.dumpMgntframeAndWaitAck x else s.dumpMgntframe x

/-- A builder behind `alloc_mgtxmitframe`. -/
def build (s : MgntXmit φ β) (x : MgntFrame φ β) : MgntBuilder → MgntXmit φ β
  | .issueBeacon e => s.issueBeacon e x
  | .issueProbersp ieLength => s.issueProbersp ieLength x
  | .issueAsocrsp pktType => s.issueAsocrsp pktType x
  | .issueAssocreq e => s.issueAssocreq e x
  | .plain _ => s.dumpMgntframe x
  | .ack _ waitAck => s.dumpOrWaitAck waitAck x
  | .issueActionBssCoexistPacket .. => s.dumpMgntframe x
  | .setFwRsvdPagePkt => s.rtwHalMgntXmit x

/-! ## Steps -/

end MgntXmit

/-- What may happen. -/
inductive MgntXmitEvent
  /-- A builder is called and comes to the end of `alloc_mgtxmitframe`. -/
  | enter (b : MgntBuilder)
  /-- The builder number `i` goes on until it returns or calls `rtw_hal_mgnt_xmit`. -/
  | leave (i : ℕ)
  /-- The call number `i` of `rtw_hal_mgnt_xmit` runs. -/
  | write (i : ℕ) (status : UrbStatus)
  /-- The URB number `i` completes. -/
  | complete (i : ℕ) (status : UrbStatus)
  /-- A data packet takes a frame. -/
  | takeData
  /-- The frame number `i` of the data packets is freed. -/
  | freeData (i : ℕ)
  /-- The driver stops or starts, the device goes or comes. -/
  | setFlags (bDriverStopped bSurpriseRemoved bWritePortCancel pnpBstopTrx : Bool)

namespace MgntXmit

variable {φ β : Type*}

/-- A builder is called. -/
def enter (s : MgntXmit φ β) (b : MgntBuilder) : MgntXmit φ β :=
  if b.allocates then
    match s.allocMgtxmitframe with
    | (none, s) => s
    | (some x, s) => { s with building := s.building ++ [(b, x)] }
  else s

/-- The builder number `i` goes on. -/
def leave (s : MgntXmit φ β) (i : ℕ) : MgntXmit φ β :=
  match s.building[i]? with
  | none => s
  | some (b, x) => { s with building := s.building.eraseIdx i }.build x b

/-- One step. -/
def step (s : MgntXmit φ β) : MgntXmitEvent → MgntXmit φ β
  | .enter b => s.enter b
  | .leave i => s.leave i
  | .write i status =>
    match s.handed[i]? with
    | none => s
    | some x => { s with handed := s.handed.eraseIdx i }.rtwDumpXframe status x
  | .complete i status =>
    match s.submitted[i]? with
    | none => s
    | some b => { s with submitted := s.submitted.eraseIdx i }.usbWritePortComplete status b
  | .takeData =>
    match s.rtwAllocXmitframe with
    | none => s
    | some (f, s) => { s with dataFrames := s.dataFrames ++ [f] }
  | .freeData i =>
    match s.dataFrames[i]? with
    | none => s
    | some f => { s with dataFrames := s.dataFrames.eraseIdx i }.rtwFreeXmitframe f
  | .setFlags bDriverStopped bSurpriseRemoved bWritePortCancel pnpBstopTrx =>
    { s with bDriverStopped, bSurpriseRemoved, bWritePortCancel, pnpBstopTrx }

end MgntXmit

end Rtl8188eu
