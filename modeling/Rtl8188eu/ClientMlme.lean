import Rtl8188eu.Adapter
import Rtl8188eu.InfoElements

/-!
# Joining a network

The client side of `core/rtw_mlme_ext.c` : `start_clnt_join`, `start_clnt_auth`,
`start_clnt_assoc`, the handlers of the frames an access point answers with (`OnBeacon`,
`OnAuthClient`, `OnAssocRsp`, `OnDeAuth`, `OnDisassoc`), `receive_disconnect` and
`link_timer_hdl`. They share the bit mask `mlmext_info.state`, two retry counters, and the
authentication fields. The functions are those of a device that is not an access point.

`OnAuthClient` copies the challenge text by the length byte of its element, which may be
larger than `chg_txt`, and `HT_caps_handler` masks as many bytes as its element has. Both
reach the fields behind. The bytes of `struct mlme_ext_info` from `chg_txt` on are
therefore kept as memory (`tail`), and the places of the fields in it are a parameter
(`InfoLayout`).

What the device sends and reports is kept in `log`, the latest entry first, with the
authentication frames it received. The link timer may expire at any time.
-/

namespace Rtl8188eu

/-! ## Bits of `mlmext_info.state` -/

/-- `WIFI_FW_NULL_STATE`. -/
def wifiFwNullState : BitVec 32 := 0x00000000
/-- `WIFI_FW_STATION_STATE`. -/
def wifiFwStationState : BitVec 32 := 0x00000002
/-- `WIFI_FW_ADHOC_STATE`. -/
def wifiFwAdhocState : BitVec 32 := 0x00000001
/-- `WIFI_FW_AUTH_NULL`. -/
def wifiFwAuthNull : BitVec 32 := 0x00000100
/-- `WIFI_FW_AUTH_STATE`. -/
def wifiFwAuthState : BitVec 32 := 0x00000200
/-- `WIFI_FW_AUTH_SUCCESS`. -/
def wifiFwAuthSuccess : BitVec 32 := 0x00000400
/-- `WIFI_FW_ASSOC_STATE`. -/
def wifiFwAssocState : BitVec 32 := 0x00002000
/-- `WIFI_FW_ASSOC_SUCCESS` as a mask. -/
def wifiFwAssocSuccessBits : BitVec 32 := 0x00004000
/-- `WIFI_FW_LINKING_STATE`. -/
def wifiFwLinkingState : BitVec 32 :=
  wifiFwAuthNull ||| wifiFwAuthState ||| wifiFwAuthSuccess ||| wifiFwAssocState

/-- `state & mask` as a condition. -/
def hasBits (state mask : BitVec 32) : Bool := state &&& mask ≠ 0

/-- Clearing and setting other bits does not change the bits of `mask`. -/
theorem hasBits_update (s clr set mask : BitVec 32) (hclr : clr &&& mask = 0)
    (hset : set &&& mask = 0) : hasBits ((s &&& ~~~clr) ||| set) mask = hasBits s mask := by
  have heq : ((s &&& ~~~clr) ||| set) &&& mask = s &&& mask := by
    ext i hi
    have h1 : (clr &&& mask)[i] = false := by simp [hclr]
    have h2 : (set &&& mask)[i] = false := by simp [hset]
    simp only [BitVec.getElem_and, BitVec.getElem_or, BitVec.getElem_not] at h1 h2 ⊢
    cases hm : mask[i] <;> simp_all
  rw [hasBits, hasBits, heq]

/-- The bits of `mask` after they were cleared. -/
theorem hasBits_cleared (s clr set mask : BitVec 32) (hclr : clr &&& mask = mask)
    (hset : set &&& mask = 0) : hasBits ((s &&& ~~~clr) ||| set) mask = false := by
  have heq : ((s &&& ~~~clr) ||| set) &&& mask = 0 := by
    ext i hi
    have h1 : (clr &&& mask)[i] = mask[i] := by rw [hclr]
    have h2 : (set &&& mask)[i] = false := by simp [hset]
    simp only [BitVec.getElem_and, BitVec.getElem_or, BitVec.getElem_not] at h1 h2 ⊢
    cases hm : mask[i] <;> simp_all
  simp [hasBits, heq]

/-! ## Constants -/

/-- `REAUTH_LIMIT`. -/
def reauthLimit : ℕ := 4
/-- `REASSOC_LIMIT`. -/
def reassocLimit : ℕ := 4
/-- `WLAN_HDR_A3_LEN`. -/
def wlanHdrA3Len : ℕ := 24
/-- `_AUTH_IE_OFFSET_`. -/
def authIeOffset : ℕ := 6
/-- The size of `chg_txt`. -/
def chgTxtLen : ℕ := 128
/-- `cap_ESS`. -/
def capESS : ℕ := 0x0001
/-- `cap_IBSS`. -/
def capIBSS : ℕ := 0x0002
/-- `WLAN_REASON_PREV_AUTH_NOT_VALID`. -/
def wlanReasonPrevAuthNotValid : ℕ := 2
/-- `WLAN_REASON_DEAUTH_LEAVING`. -/
def wlanReasonDeauthLeaving : ℕ := 3
/-- `WLAN_REASON_CLASS2_FRAME_FROM_NONAUTH_STA`. -/
def wlanReasonClass2FrameFromNonauthSta : ℕ := 6

/-! ## The state of the client -/

/-- Offsets of fields of `struct mlme_ext_info`, counted from `chg_txt`. -/
structure InfoLayout where
  /-- `HT_caps`. -/
  htCaps : ℕ
  /-- `network.MacAddress`. -/
  macAddress : ℕ
  /-- `network.InfrastructureMode`. -/
  infrastructureMode : ℕ
  /-- `network.IELength`. -/
  ieLength : ℕ
  /-- The size of `struct wlan_bssid_ex` without its `IEs`. -/
  bssidExSz : ℕ
  chgTxt_le : chgTxtLen ≤ htCaps
  htCaps_le : htCaps + 26 ≤ macAddress
  macAddress_le : macAddress + 6 ≤ infrastructureMode
  infrastructureMode_le : infrastructureMode + 4 ≤ ieLength

/-- The layout on a machine whose `long` has eight bytes. -/
def InfoLayout.lp64 : InfoLayout where
  htCaps := 180
  macAddress := 232
  infrastructureMode := 324
  ieLength := 348
  bssidExSz := 124
  chgTxt_le := by decide
  htCaps_le := by decide
  macAddress_le := by decide
  infrastructureMode_le := by decide

/-- The body of an authentication frame, as `issue_auth` fills it in. -/
structure AuthBody where
  /-- The IV in front of the body of a protected frame. -/
  iv : Option ℕ
  algorithm : ℕ
  seq : ℕ
  status : ℕ
  /-- The data of the challenge text element. -/
  challenge : Option (List UInt8)
  deriving DecidableEq, Repr

/-- What the client sends, reports and receives. -/
inductive ClientLog
  /-- `issue_auth` sent a frame. -/
  | auth (body : AuthBody)
  /-- `issue_assocreq` sent a frame. -/
  | assocReq
  /-- `issue_deauth` sent a frame. -/
  | deauth (reason : ℕ)
  /-- `report_join_res`. -/
  | joinRes (res : ℤ)
  /-- `report_del_sta_event`. -/
  | delSta (mac : MacAddr) (reason : ℕ)
  /-- `start_clnt_assoc` was called, with the algorithm at that time. -/
  | startAssoc (algo : AuthAlgrthm)
  /-- An authentication frame for this device : its sequence number, its status and the
  text of its challenge element. -/
  | rxAuth (seq status : ℕ) (text : Option (List UInt8))
  deriving DecidableEq, Repr

/-- The client. -/
structure Client where
  /-- The own address. -/
  macAddr : MacAddr
  /-- `mlmepriv.htpriv.ht_option`. -/
  htOption : Bool
  /-- `HW_VAR_RF_TYPE` is `RF_1T1R` or `RF_1T2R`. -/
  rfType1R : Bool
  state : BitVec 32
  reauthCount : ℕ
  reassocCount : ℕ
  authSeq : ℕ
  authAlgo : AuthAlgrthm
  /-- The WEP key of authentication frames. -/
  keyIndex : Fin 4
  iv : ℕ
  /-- The bytes of `struct mlme_ext_info` from `chg_txt` on. -/
  tail : Mem
  /-- The answers of `alloc_mgtxmitframe` to the next requests. -/
  mgtAvail : ℕ → Bool
  /-- What was sent, reported and received, the latest entry first. -/
  log : List ClientLog

namespace Client

/-- Add an entry to the log. -/
def record (c : Client) (e : ClientLog) : Client := { c with log := e :: c.log }

/-- `get_my_bssid` of `mlmext_info.network`. -/
def getMyBssid (L : InfoLayout) (c : Client) : MacAddr := macAt c.tail L.macAddress

/-- `chg_txt`. -/
def chgTxt (c : Client) : List UInt8 := c.tail.read 0 chgTxtLen

/-! ## Sending -/

/-- Ask `alloc_mgtxmitframe` once. -/
def allocMgtxmitframe (c : Client) : Bool × Client :=
  (c.mgtAvail 0, { c with mgtAvail := fun n => c.mgtAvail (n + 1) })

/-- The conditions under which `issue_auth` sends a challenge text and protects the frame :
frame 3 of a shared-key authentication. -/
def sendsChallenge (c : Client) : Bool :=
  c.authSeq = 3 && hasBits c.state wifiFwAuthState && c.authAlgo = .shared

/-- The body `issue_auth` fills in for a client. -/
def authBody (c : Client) (status : ℕ) : AuthBody where
  iv := if c.sendsChallenge then some (c.iv ||| (c.keyIndex.val <<< 30)) else none
  algorithm := if c.authAlgo = .shared then 1 else 0
  seq := c.authSeq % 2 ^ 16
  status := status
  challenge := if c.sendsChallenge then some c.chgTxt else none

/-- `issue_auth` for a client. -/
def issueAuth (c : Client) (status : ℕ) : Client :=
  let (avail, c) := c.allocMgtxmitframe
  if avail then
    let body := c.authBody status
    { c with iv := if c.sendsChallenge then u32 (c.iv + 1) else c.iv }.record (.auth body)
  else c

/-- `issue_assocreq`. -/
def issueAssocreq (c : Client) : Client :=
  let (avail, c) := c.allocMgtxmitframe
  if avail then c.record .assocReq else c

/-- `issue_deauth`. -/
def issueDeauth (c : Client) (reason : ℕ) : Client :=
  let (avail, c) := c.allocMgtxmitframe
  if avail then c.record (.deauth reason) else c

/-- `issue_auth` changes the allocator, the IV and the log. -/
theorem issueAuth_eq (c : Client) (status : ℕ) :
    c.issueAuth status = { c with
      mgtAvail := fun n => c.mgtAvail (n + 1)
      iv := if c.mgtAvail 0 && c.sendsChallenge then u32 (c.iv + 1) else c.iv
      log := if c.mgtAvail 0 then .auth (c.authBody status) :: c.log else c.log } := by
  unfold issueAuth allocMgtxmitframe
  cases h : c.mgtAvail 0
  · simp
  · simp only [Bool.true_and, if_true]
    rfl

/-- `issue_assocreq` changes the allocator and the log. -/
theorem issueAssocreq_eq (c : Client) :
    c.issueAssocreq = { c with
      mgtAvail := fun n => c.mgtAvail (n + 1)
      log := if c.mgtAvail 0 then .assocReq :: c.log else c.log } := by
  unfold issueAssocreq allocMgtxmitframe
  cases h : c.mgtAvail 0 <;> simp [record]

/-- `issue_deauth` changes the allocator and the log. -/
theorem issueDeauth_eq (c : Client) (reason : ℕ) :
    c.issueDeauth reason = { c with
      mgtAvail := fun n => c.mgtAvail (n + 1)
      log := if c.mgtAvail 0 then .deauth reason :: c.log else c.log } := by
  unfold issueDeauth allocMgtxmitframe
  cases h : c.mgtAvail 0 <;> simp [record]

/-- `report_join_res`, up to the event it reports. -/
def reportJoinRes (c : Client) (res : ℤ) : Client := c.record (.joinRes res)

/-! ## The steps of a join -/

/-- `start_clnt_join` on a network with the capabilities `caps`. -/
def startClntJoin (c : Client) (caps : ℕ) : Client :=
  if caps &&& capESS ≠ 0 then { c with state := wifiFwAuthNull ||| wifiFwStationState }
  else if caps &&& capIBSS ≠ 0 then { c with state := wifiFwAdhocState }.reportJoinRes 1
  else c

/-- `start_clnt_auth`. -/
def startClntAuth (c : Client) : Client :=
  let c := { c with state := (c.state &&& ~~~wifiFwAuthNull) ||| wifiFwAuthState }
  let c := { c with authSeq := 1, reauthCount := 0, reassocCount := 0 }
  let c := c.issueDeauth wlanReasonDeauthLeaving
  c.issueAuth 0

/-- `start_clnt_assoc`. -/
def startClntAssoc (c : Client) : Client :=
  let c := c.record (.startAssoc c.authAlgo)
  let c := { c with
    state := (c.state &&& ~~~(wifiFwAuthNull ||| wifiFwAuthState)) |||
      (wifiFwAuthSuccess ||| wifiFwAssocState) }
  c.issueAssocreq

/-- `receive_disconnect`. -/
def receiveDisconnect (L : InfoLayout) (c : Client) (macAddr : MacAddr) (reason : ℕ) : Client :=
  if macAddr ≠ c.getMyBssid L then c
  else if c.state &&& 0x03 = wifiFwStationState then
    if hasBits c.state wifiFwAssocSuccessBits then
      { c with state := wifiFwNullState }.record (.delSta macAddr reason)
    else if hasBits c.state wifiFwLinkingState then
      { c with state := wifiFwNullState }.reportJoinRes (-2)
    else c
  else c

/-- `link_timer_hdl`. -/
def linkTimerHdl (c : Client) : Client :=
  if hasBits c.state wifiFwAuthNull then
    { c with state := wifiFwNullState }.reportJoinRes (-3)
  else if hasBits c.state wifiFwAuthState then
    let c := { c with reauthCount := u32 (c.reauthCount + 1) }
    if c.reauthCount > reauthLimit then { c with state := 0 }.reportJoinRes (-1)
    else { c with authSeq := 1 }.issueAuth 0
  else if hasBits c.state wifiFwAssocState then
    let c := { c with reassocCount := u32 (c.reassocCount + 1) }
    if c.reassocCount > reassocLimit then
      { c with state := wifiFwNullState }.reportJoinRes (-2)
    else c.issueAssocreq
  else c

/-! ## Received frames -/

/-- `OnBeacon`, outside an ad-hoc network. A device that is scanning (`scanning`) reports
the beacon and does nothing else. A linked device looks up the access point and calls
`rtw_check_bcn_info` (`apChanged` : the station is known and the check fails). -/
def onBeacon (L : InfoLayout) (c : Client) (rf : RecvFrame) (scanning apChanged : Bool) :
    Client :=
  if scanning then c
  else if macAt rf.mem (getAddr3Ptr rf.rxData) = c.getMyBssid L then
    if hasBits c.state wifiFwAuthNull then c.startClntAuth
    else if c.state &&& 0x03 = wifiFwStationState && hasBits c.state wifiFwAssocSuccessBits then
      if apChanged then c.receiveDisconnect L (c.getMyBssid L) 0 else c
    else c
  else c

/-- The 16-bit field of a management frame at `off` bytes behind the header. -/
def bodyLe16 (rf : RecvFrame) (off : ℕ) : ℕ := rf.mem.le16 (rf.rxData + wlanHdrA3Len + off)

/-- The offset of the fixed fields of an authentication frame : an IV stands in front of
the body of a protected frame. -/
def authOffset (rf : RecvFrame) : ℕ := if getPrivacy rf.mem rf.rxData then 4 else 0

/-- The sequence number of an authentication frame. -/
def authFrameSeq (rf : RecvFrame) : ℕ := bodyLe16 rf (authOffset rf + 2)
/-- The status of an authentication frame. -/
def authFrameStatus (rf : RecvFrame) : ℕ := bodyLe16 rf (authOffset rf + 4)

/-- The challenge element of an authentication frame, where `OnAuthClient` looks for it. -/
def challengeIe (rf : RecvFrame) : Option (ℤ × ℕ) :=
  rtwGetIe rf.mem (rf.rxData + wlanHdrA3Len + authIeOffset) chlgetxtIe
    (rf.len - wlanHdrA3Len - authIeOffset)

/-- The text of the challenge element. -/
def challengeText (rf : RecvFrame) : Option (List UInt8) :=
  (challengeIe rf).map fun (p, len) => rf.mem.read (p + 2) len

/-- The answer to a status other than success. Status 13 changes the algorithm. -/
def authFailed (c : Client) (status : ℕ) : Client :=
  if status = 13 then
    if c.authAlgo = .shared then { c with authAlgo := .openSystem }
    else { c with authAlgo := .shared }
  else c

/-- `OnAuthClient`. -/
def onAuthClient (c : Client) (rf : RecvFrame) : Client :=
  if c.macAddr ≠ getDa rf.mem rf.rxData then c
  else
    let seq := authFrameSeq rf
    let status := authFrameStatus rf
    let c := c.record (.rxAuth seq status (challengeText rf))
    if !hasBits c.state wifiFwAuthState then c
    else if status ≠ 0 then c.authFailed status
    else if seq = 2 then
      if c.authAlgo = .shared then
        match challengeIe rf with
        | none => c
        | some (p, len) =>
          { c with tail := c.tail.write 0 (rf.mem.read (p + 2) len), authSeq := 3 }.issueAuth 0
      else c.startClntAssoc
    else if seq = 4 then
      if c.authAlgo = .shared then c.startClntAssoc else c
    else c

/-- The byte `i` of `HT_caps` after `HT_caps_handler` looked at the byte `b` of the
element. The third byte holds two fields that are compared. -/
def htCapByte (i : ℕ) (old b : UInt8) : UInt8 :=
  if i ≠ 2 then old &&& b
  else
    let maxAMPDULen := if (old &&& 0x3) > (b &&& 0x3) then b &&& 0x3 else old &&& 0x3
    let minMPDUSpacing := if (old &&& 0x1c) > (b &&& 0x1c) then old &&& 0x1c else b &&& 0x1c
    maxAMPDULen ||| minMPDUSpacing

/-- `MCS_rate_1R` and `MCS_rate_2R`. -/
def mcsRate (rfType1R : Bool) (i : ℕ) : UInt8 :=
  if i = 0 then 0xff else if i = 1 then (if rfType1R then 0x00 else 0xff)
  else if i = 4 then 0x01 else 0x00

/-- `HT_caps_handler` on the element at `p`. The loop runs to the length byte of the
element, the array has 26 bytes. -/
def htCapsHandler (L : InfoLayout) (c : Client) (m : Mem) (p : ℤ) : Client :=
  if !c.htOption then c
  else
    let length := (m (p + 1)).toNat
    let tail : Mem := fun a =>
      let i := (a - L.htCaps).toNat
      if L.htCaps ≤ a ∧ i < length then htCapByte i (c.tail a) (m (p + 2 + i)) else c.tail a
    let tail : Mem := fun a =>
      let i := (a - (L.htCaps + 3)).toNat
      if L.htCaps + 3 ≤ a ∧ i < 16 then tail a &&& mcsRate c.rfType1R i else tail a
    { c with tail := tail }

/-- The elements of an association response. -/
def assocRspIes (rf : RecvFrame) : List ℕ :=
  ieOffsets rf.mem rf.rxData rf.len rf.len (6 + wlanHdrA3Len)

/-- One round of the loop of `OnAssocRsp`. The elements about WMM, ERP and the HT
operation are copied to fields of their own within their sizes, which the join does not
read. -/
def assocRspIe (L : InfoLayout) (rf : RecvFrame) (c : Client) (i : ℕ) : Client :=
  if rf.mem (rf.rxData + i) = htCapabilityIe then c.htCapsHandler L rf.mem (rf.rxData + i)
  else c

/-- `OnAssocRsp` handles an association response in this state. -/
def acceptsAssocRsp (c : Client) (rf : RecvFrame) : Bool :=
  c.macAddr = getDa rf.mem rf.rxData &&
    hasBits c.state (wifiFwAuthSuccess ||| wifiFwAssocState) &&
    !hasBits c.state wifiFwAssocSuccessBits

/-- The status of an association response. -/
def assocRspStatus (rf : RecvFrame) : ℕ := bodyLe16 rf 2
/-- The AID of an association response, without its two high bits. -/
def assocRspAid (rf : RecvFrame) : ℕ := bodyLe16 rf 4 &&& 0x3fff

/-- `OnAssocRsp` up to the call of `report_join_res`, and the result to report. -/
def onAssocRspRes (L : InfoLayout) (c : Client) (rf : RecvFrame) : ℤ × Client :=
  if assocRspStatus rf > 0 then (-4, { c with state := wifiFwNullState })
  else
    let res := assocRspAid rf
    -- `aid` is the field behind `chg_txt`
    let c := { c with tail := c.tail.write chgTxtLen (le16Bytes res) }
    let c := (assocRspIes rf).foldl (assocRspIe L rf) c
    (res, { c with state := (c.state &&& ~~~wifiFwAssocState) ||| wifiFwAssocSuccessBits })

/-- `OnAssocRsp`. -/
def onAssocRsp (L : InfoLayout) (c : Client) (rf : RecvFrame) : Client :=
  if c.acceptsAssocRsp rf then
    let (res, c) := c.onAssocRspRes L rf
    c.reportJoinRes res
  else c

/-- `OnDeAuth` ignores the reasons an access point gives for the deauthentication frame
this device sends before it authenticates. -/
def ignoresDeauth (c : Client) (reason : ℕ) : Bool :=
  (hasBits c.state wifiFwAuthState || hasBits c.state wifiFwAssocState) &&
    (reason = wlanReasonClass2FrameFromNonauthSta || reason = wlanReasonPrevAuthNotValid)

/-- `OnDeAuth`. -/
def onDeAuth (L : InfoLayout) (c : Client) (rf : RecvFrame) : Client :=
  let a3 := macAt rf.mem (getAddr3Ptr rf.rxData)
  if a3 ≠ c.getMyBssid L then c
  else
    let reason := bodyLe16 rf 0
    if c.ignoresDeauth reason then c else c.receiveDisconnect L a3 reason

/-- `OnDisassoc`. -/
def onDisassoc (L : InfoLayout) (c : Client) (rf : RecvFrame) : Client :=
  let a3 := macAt rf.mem (getAddr3Ptr rf.rxData)
  if a3 ≠ c.getMyBssid L then c else c.receiveDisconnect L a3 (bodyLe16 rf 0)

end Client

/-! ## Runs -/

/-- What can happen to a client during a join. -/
inductive ClientEvent
  | beacon (rf : RecvFrame) (scanning apChanged : Bool)
  | auth (rf : RecvFrame)
  | assocRsp (rf : RecvFrame)
  | deauth (rf : RecvFrame)
  | disassoc (rf : RecvFrame)
  | linkTimer

/-- One step of the client. -/
def Client.step (L : InfoLayout) (c : Client) : ClientEvent → Client
  | .beacon rf scanning apChanged => c.onBeacon L rf scanning apChanged
  | .auth rf => c.onAuthClient rf
  | .assocRsp rf => c.onAssocRsp L rf
  | .deauth rf => c.onDeAuth L rf
  | .disassoc rf => c.onDisassoc L rf
  | .linkTimer => c.linkTimerHdl

end Rtl8188eu
