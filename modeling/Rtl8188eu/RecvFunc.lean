import Rtl8188eu.Defrag
import Rtl8188eu.Reorder

/-!
# The receive path

`validate_recv_frame` with the checks on data frames, `portctrl`,
`process_recv_indicatepkts`, `recv_func_prehandle`, `recv_func_posthandle` and `recv_func` of
`core/rtw_recv.c`. What a management frame makes `mgt_dispatcher` do to the data the receive
path works on is a list of `MlmeOp`, given by a parameter.

A result is `none` where the source follows a null or wild pointer, and where the loop over
the frames without a key does not end.
-/

set_option linter.unusedSectionVars false

namespace Rtl8188eu

open LinkedLists

/-- `SET_ICE_IV_LEN` : the lengths of the IV and the ICV. -/
def setIceIvLen : PrivacyAlgrthm → ℕ × ℕ
  | .wep40 | .wep104 => (4, 4)
  | .tkip => (8, 4)
  | .aes => (8, 8)
  | .sms4 => (18, 16)
  | _ => (0, 0)

/-- What connection management does to the data of the receive path. -/
inductive MlmeOp
  /-- `rtw_free_stainfo`. -/
  | freeStainfo (psta : StaId)
  /-- `rtw_alloc_stainfo`. -/
  | allocStainfo (hwaddr : MacAddr)
  /-- `rtw_free_uc_swdec_pending_queue`. -/
  | freeUcSwdecPendingQueue
  /-- The driver is stopped, or the device is gone. -/
  | stop (bDriverStopped bSurpriseRemoved : Bool)
  /-- Other fields get new values. -/
  | configure (mlmepriv : MlmePriv) (mlmeext : MlmeExtPriv) (securitypriv : SecurityPriv)
    (sta : StaId → StaInfo)

namespace Adapter

variable {ι : Type} [DecidableEq ι]

/-- One operation of connection management. -/
def mlmeOp (s : Adapter ι) : MlmeOp → Adapter ι
  | .freeStainfo psta => s.rtwFreeStainfo psta
  | .allocStainfo hwaddr => (s.rtwAllocStainfo hwaddr).2
  | .freeUcSwdecPendingQueue => s.rtwFreeUcSwdecPendingQueue
  | .stop stopped removed => { s with bDriverStopped := stopped, bSurpriseRemoved := removed }
  | .configure mlmepriv mlmeext securitypriv sta =>
    { s with mlmepriv := mlmepriv, mlmeext := mlmeext, securitypriv := securitypriv, sta := sta }

/-! ## Data frames -/

/-- `GET_ENCRY_ALGO`. -/
def getEncryAlgo (s : Adapter ι) (psta : StaId) (bmcst : Bool) : PrivacyAlgrthm :=
  match s.securitypriv.dot11AuthAlgrthm with
  | .ieee8021X =>
    if bmcst then s.securitypriv.dot118021XGrpPrivacy else (s.sta psta).dot118021XPrivacy
  | _ => s.securitypriv.dot11PrivacyAlgrthm

/-- The addresses of a frame as the manufacturing-test mode takes them. -/
def mpAddresses (fr : RecvFrame) : RxPktAttrib :=
  let dst := macAt fr.mem (getAddr1Ptr fr.rxData)
  let src := macAt fr.mem (getAddr2Ptr fr.rxData)
  { fr.attrib with
    dst := dst, src := src, bssid := macAt fr.mem (getAddr3Ptr fr.rxData), ra := dst, ta := src }

/-- The BSSID test of `sta2sta_data_frame` and `ap2sta_data_frame`. -/
def bssidOk (s : Adapter ι) (bssid : MacAddr) : Bool :=
  bssid ≠ zeroAddr && s.mlmepriv.curBssid ≠ zeroAddr && bssid = s.mlmepriv.curBssid

/-- The end of `sta2sta_data_frame` : the station is looked up. -/
def sta2staLookup (s : Adapter ι) (ret : Status) (bmcast : Bool) (staAddr : Option MacAddr)
    (a : RxPktAttrib) : Status × Option StaId × RxPktAttrib :=
  match if bmcast then s.rtwGetBcmcStainfo else staAddr.bind s.rtwGetStainfo with
  | none => (.fail, none, a)
  | some psta => (ret, some psta, a)

/-- `sta2sta_data_frame` : the result, the station, and the attributes. -/
def sta2staDataFrame (s : Adapter ι) (fr : RecvFrame) : Status × Option StaId × RxPktAttrib :=
  let a := fr.attrib
  let state := s.mlmepriv.fwState
  let bmcast := isMcast a.dst
  if checkFwstate state wifiAdhocState || checkFwstate state wifiAdhocMasterState then
    if s.macAddr = a.src then (.fail, none, a)
    else if s.macAddr ≠ a.dst ∧ !bmcast then (.fail, none, a)
    else if !s.bssidOk a.bssid then (.fail, none, a)
    else s.sta2staLookup .success bmcast (some a.src) a
  else if checkFwstate state wifiStationState then
    if a.bssid ≠ a.src then (.fail, none, a)
    else s.sta2staLookup .success bmcast (some a.bssid) a
  else if checkFwstate state wifiApState then
    if bmcast then
      if !isMcast a.bssid then (.fail, none, a)
      else s.sta2staLookup .success bmcast none a
    else if a.bssid ≠ a.dst then (.fail, none, a)
    else s.sta2staLookup .success bmcast (some a.src) a
  else if checkFwstate state wifiMpState then
    s.sta2staLookup .success bmcast (some s.mlmepriv.curBssid) (mpAddresses fr)
  else s.sta2staLookup .fail bmcast none a

/-- `ap2sta_data_frame`. -/
def ap2staDataFrame (s : Adapter ι) (fr : RecvFrame) : Status × Option StaId × RxPktAttrib :=
  let a := fr.attrib
  let state := s.mlmepriv.fwState
  let bmcast := isMcast a.dst
  if checkFwstate state wifiStationState &&
      (checkFwstate state fwLinked || checkFwstate state fwUnderLinking) then
    if s.macAddr = a.src then (.fail, none, a)
    else if s.macAddr ≠ a.dst ∧ !bmcast then (.fail, none, a)
    else if !s.bssidOk a.bssid then (.fail, none, a)
    else
      match if bmcast then s.rtwGetBcmcStainfo else s.rtwGetStainfo a.bssid with
      | none => (.fail, none, a)
      | some psta =>
        if (getFrameSubType fr.mem fr.rxData).testBit 6 then (.rxHandled, some psta, a)
        else (.success, some psta, a)
  else if checkFwstate state wifiMpState && checkFwstate state fwLinked then
    let a := { mpAddresses fr with bssid := s.mlmepriv.curBssid }
    match s.rtwGetStainfo a.bssid with
    | none => (.fail, none, a)
    | some psta => (.success, some psta, a)
  else if checkFwstate state wifiApState then (.rxHandled, none, a)
  else (.fail, none, a)

/-- `sta2ap_data_frame`. -/
def sta2apDataFrame (s : Adapter ι) (fr : RecvFrame) : Status × Option StaId × RxPktAttrib :=
  let a := fr.attrib
  if checkFwstate s.mlmepriv.fwState wifiApState then
    if a.bssid ≠ s.mlmepriv.curBssid then (.fail, none, a)
    else
      match s.rtwGetStainfo a.src with
      | none => (.rxHandled, none, a)
      | some psta =>
        if (getFrameSubType fr.mem fr.rxData).testBit 6 then (.rxHandled, some psta, a)
        else (.success, some psta, a)
  else (.rxHandled, none, a)

/-- The addresses that `validate_recv_data_frame` reads, and the check for the direction of
the frame. -/
def checkDirection (s : Adapter ι) (fr : RecvFrame) : Status × Option StaId × RxPktAttrib :=
  let pda := getDa fr.mem fr.rxData
  let psa := getSa fr.mem fr.rxData
  let pbssid := getHdrBssid fr.mem fr.rxData
  let a := { fr.attrib with dst := pda, src := psa, bssid := pbssid }
  match a.toFrDs with
  | 0 => s.sta2staDataFrame { fr with attrib := { a with ra := pda, ta := psa } }
  | 1 => s.ap2staDataFrame { fr with attrib := { a with ra := pda, ta := pbssid } }
  | 2 => s.sta2apDataFrame { fr with attrib := { a with ra := pbssid, ta := psa } }
  | 3 =>
    (.fail, none, { a with
      ra := macAt fr.mem (getAddr1Ptr fr.rxData), ta := macAt fr.mem (getAddr2Ptr fr.rxData) })

/-- The checks for the direction fill in the addresses and leave the other attributes. -/
theorem attrib_checkDirection (s : Adapter ι) (fr : RecvFrame) :
    ∃ dst src bssid ra ta, (s.checkDirection fr).2.2 =
      { fr.attrib with dst := dst, src := src, bssid := bssid, ra := ra, ta := ta } := by
  have hlookup : ∀ ret b addr a, (s.sta2staLookup ret b addr a).2.2 = a := by
    intro ret b addr a
    unfold sta2staLookup
    split <;> rfl
  unfold checkDirection
  dsimp only
  split
  · unfold sta2staDataFrame
    dsimp only
    split_ifs
    all_goals first | exact ⟨_, _, _, _, _, rfl⟩ | exact ⟨_, _, _, _, _, hlookup ..⟩
  · unfold ap2staDataFrame
    dsimp only
    split_ifs
    all_goals first | exact ⟨_, _, _, _, _, rfl⟩ | (split <;> exact ⟨_, _, _, _, _, rfl⟩)
  · unfold sta2apDataFrame
    dsimp only
    split_ifs
    all_goals first | exact ⟨_, _, _, _, _, rfl⟩ | (split <;> exact ⟨_, _, _, _, _, rfl⟩)
  · exact ⟨_, _, _, _, _, rfl⟩

/-- The parsing of the QoS-control field, and the length of the header. -/
def parseQos (fr : RecvFrame) : RxPktAttrib :=
  let a := fr.attrib
  let a :=
    if a.qos then
      { a with
        priority := getPriority fr.mem (fr.rxData + 24)
        amsdu := getAMsdu fr.mem (fr.rxData + 24)
        hdrlen := if a.toFrDs = 3 then 32 else 26 }
    else { a with amsdu := false, priority := 0, hdrlen := if a.toFrDs = 3 then 30 else 24 }
  if a.order then { a with hdrlen := a.hdrlen + 4 } else a

/-- `recv_decache` : `none` for a frame with the sequence-control field of the last frame
of its TID, else the station with the field noted. -/
def recvDecache (st : StaInfo) (a : RxPktAttrib) : Option StaInfo :=
  let seqCtrl := ((a.seqNum <<< 4) ||| (a.fragNum &&& 0xf)) % 65536
  if seqCtrl = st.tidRxseq a.priority then none
  else some { st with tidRxseq := Function.update st.tidRxseq a.priority seqCtrl }

/-- The encryption of a data frame, and the lengths that follow from it. -/
def setEncrypt (s : Adapter ι) (psta : StaId) (a : RxPktAttrib) : RxPktAttrib :=
  if a.privacy then
    let encrypt := s.getEncryAlgo psta (isMcast a.ra)
    { a with
      encrypt := encrypt, ivLen := (setIceIvLen encrypt).1, icvLen := (setIceIvLen encrypt).2 }
  else { a with encrypt := .noPrivacy, ivLen := 0, icvLen := 0 }

/-- `validate_recv_data_frame`. -/
def validateRecvDataFrame (s : Adapter ι) (f : ι) : Status × Adapter ι :=
  let (ret, psta, a) := s.checkDirection (s.recvframe f)
  let s := s.updateFrame f fun fr => { fr with attrib := a }
  match ret, psta with
  | .success, some psta =>
    let a := parseQos (s.recvframe f)
    let s := s.updateFrame f fun fr =>
      { fr with attrib := a, preorderCtrl := (psta, a.priority) }
    match recvDecache (s.sta psta) a with
    | none => (.fail, s)
    | some st =>
      let s := s.updateSta psta fun _ => st
      (.success, s.updateFrame f fun fr => { fr with attrib := s.setEncrypt psta fr.attrib })
  | .success, none => (.fail, s)
  | ret, _ => (ret, s)

/-! ## All frames -/

/-- The attributes that `validate_recv_frame` reads off the header. -/
def readHeader (fr : RecvFrame) : RecvFrame :=
  { fr with
    attrib :=
      { fr.attrib with
        toFrDs := getTofrDs fr.mem fr.rxData
        fragNum := getFragNum fr.mem fr.rxData
        seqNum := getSequence fr.mem fr.rxData
        mfrag := getMFrag fr.mem fr.rxData
        privacy := getPrivacy fr.mem fr.rxData
        order := getOrder fr.mem fr.rxData } }

/-- `validate_recv_mgnt_frame`, with what `mgt_dispatcher` does on the frame. -/
def validateRecvMgntFrame (mgt : Adapter ι → ι → List MlmeOp) (s : Adapter ι) (f : ι) :
    Option (Adapter ι) :=
  (s.recvframeChkDefrag f).map fun r =>
    match r.1 with
    | none => r.2
    | some g => (mgt r.2 g).foldl mlmeOp r.2

/-- `validate_recv_frame`. The result for management and control frames is always
`_FAIL`. -/
def validateRecvFrame (mgt : Adapter ι → ι → List MlmeOp) (s : Adapter ι) (f : ι) :
    Option (Status × Adapter ι) :=
  let fr := s.recvframe f
  if fr.mem fr.rxData &&& 0x3 ≠ 0 then some (.fail, s)
  else
    let type := getFrameType fr.mem fr.rxData
    let s := s.updateFrame f readHeader
    if type = wifiMgtType then (s.validateRecvMgntFrame mgt f).map fun s => (.fail, s)
    else if type = wifiDataType then
      let s := s.updateFrame f fun fr =>
        { fr with
          attrib := { fr.attrib with qos := (getFrameSubType fr.mem fr.rxData).testBit 7 } }
      some (s.validateRecvDataFrame f)
    else some (.fail, s)

/-- `portctrl`. The result is `false` where the source returns null, and the frame is then
back in the pool. -/
def portctrl (s : Adapter ι) (f : ι) : Bool × Adapter ι :=
  let fr := s.recvframe f
  if s.securitypriv.dot11AuthAlgrthm = .ieee8021X ∧ s.portBlocked fr.attrib.ta then
    let ptr := fr.rxData + fr.attrib.hdrlen + fr.attrib.ivLen + 6
    if fr.mem.be16 ptr = 0x888e then (true, s) else (false, s.rtwFreeRecvframe f)
  else (true, s)

/-- `process_recv_indicatepkts`. The result is `false` for `_FAIL`. -/
def processRecvIndicatepkts (s : Adapter ι) (f : ι) : Option (Bool × Adapter ι) :=
  if s.mlmepriv.htOption then
    (s.recvIndicatepktReorder f).map fun r =>
      if r.1 ≠ .success ∧ r.2.driverUp then (false, r.2) else (true, r.2)
  else
    (s.wlanhdrToEthhdr f).bind fun s =>
      if s.driverUp then (s.rtwRecvIndicatepkt f).map fun s => (true, s)
      else some (false, s)

/-- `recv_func_prehandle`. -/
def recvFuncPrehandle (mgt : Adapter ι → ι → List MlmeOp) (s : Adapter ι) (f : ι) :
    Option (Status × Adapter ι) :=
  if s.mpMode ∧ !checkFwstate s.mlmepriv.fwState wifiMpLpbkState then
    some (.fail, s.rtwFreeRecvframe f)
  else
    (s.validateRecvFrame mgt f).map fun r =>
      if r.1 = .success then r else (r.1, r.2.rtwFreeRecvframe f)

/-- `recv_func_posthandle`. `orig_prframe` is `f`. -/
def recvFuncPosthandle (s : Adapter ι) (f : ι) : Option (Adapter ι) :=
  match s.decryptor f with
  | (false, s) => some s
  | (true, s) =>
    (s.recvframeChkDefrag f).bind fun r =>
      match r with
      | (none, s) => some s
      | (some prframe, s) =>
        match s.portctrl prframe with
        | (false, s) => some s
        | (true, s) =>
          (s.processRecvIndicatepkts prframe).map fun r =>
            if r.1 then r.2 else r.2.rtwFreeRecvframe f

/-- The loop of `recv_func` over the frames without a key. It does not fetch the next
frame. The frames given to `recv_func_posthandle`, in order, and the state, or `none` if
the loop is still going after `fuel` rounds. -/
def drainLoop : ℕ → Option ι → Adapter ι → Option (List ι × Adapter ι)
  | _, none, s => some ([], s)
  | 0, some _, _ => none
  | fuel + 1, some pendingFrame, s =>
    (s.recvFuncPosthandle pendingFrame).bind fun s =>
      (drainLoop fuel (some pendingFrame) s).map fun r => (pendingFrame :: r.1, r.2)

/-- The start of `recv_func` with the temporal key set : the frames without a key are
handled. -/
def drainUcSwdec (fuel : ℕ) (s : Adapter ι) : Option (List ι × Adapter ι) :=
  match s.rtwAllocRecvframe .ucSwdecPending with
  | none => drainLoop fuel none s
  | some (f, s) => drainLoop fuel (some f) s

/-- The frame has to wait for the temporal key. -/
def lacksKey (s : Adapter ι) (a : RxPktAttrib) : Bool :=
  checkFwstate s.mlmepriv.fwState wifiStationState && !isMcast a.ra &&
    a.encrypt ≠ .noPrivacy && (!a.bdecrypted || s.securitypriv.swDecrypt) &&
    s.securitypriv.ndisauthtype = ndis80211AuthModeWPAPSK && !s.securitypriv.busetkipkey

/-- `recv_func` from the call of `recv_func_prehandle` on. -/
def recvFuncFrame (mgt : Adapter ι → ι → List MlmeOp) (s : Adapter ι) (f : ι) :
    Option (Adapter ι) :=
  (s.recvFuncPrehandle mgt f).bind fun r =>
    let s := r.2
    if r.1 = .success then
      if s.lacksKey (s.recvframe f).attrib then
        let s := s.rtwEnqueueRecvframe f .ucSwdecPending
        if s.freeRecvframeCnt < nrRecvframe / 4 then
          match s.rtwAllocRecvframe .ucSwdecPending with
          | none => some s
          | some (g, s) => s.recvFuncPosthandle g
        else some s
      else s.recvFuncPosthandle f
    else some s

/-- `recv_func`, with `fuel` rounds for its loop. -/
def recvFunc (mgt : Adapter ι → ι → List MlmeOp) (fuel : ℕ) (s : Adapter ι) (f : ι) :
    Option (Adapter ι) :=
  if checkFwstate s.mlmepriv.fwState wifiStationState && s.securitypriv.busetkipkey then
    (s.drainUcSwdec fuel).bind fun r => r.2.recvFuncFrame mgt f
  else s.recvFuncFrame mgt f

/-! ## The loop over the frames without a key -/

/-- With a frame to handle, the loop of `recv_func` does not end. -/
theorem drainLoop_some : ∀ (fuel : ℕ) (f : ι) (s : Adapter ι), drainLoop fuel (some f) s = none
  | 0, _, _ => rfl
  | fuel + 1, f, s => by
    rw [drainLoop]
    cases s.recvFuncPosthandle f with
    | none => rfl
    | some t => simp [drainLoop_some fuel f t]

theorem drainUcSwdec_eq (fuel : ℕ) (s : Adapter ι) :
    s.drainUcSwdec fuel = if s.queue .ucSwdecPending = [] then some ([], s) else none := by
  unfold drainUcSwdec rtwAllocRecvframe
  cases hq : s.queue .ucSwdecPending with
  | nil => simp [drainLoop]
  | cons f fs => simp [drainLoop_some]

/-- `recv_func` gives every frame without a key to `recv_func_posthandle` once, in order,
until none is left, before it handles the new frame `f`. -/
def DrainsOnce (mgt : Adapter ι → ι → List MlmeOp) (s : Adapter ι) (f : ι) : Prop :=
  ∃ fuel s', s.drainUcSwdec fuel = some (s.queue .ucSwdecPending, s') ∧
    s'.queue .ucSwdecPending = [] ∧
    ∀ n, fuel ≤ n → s.recvFunc mgt n f = s'.recvFuncFrame mgt f

theorem DrainsOnce.nil {mgt : Adapter ι → ι → List MlmeOp} {s : Adapter ι} {f : ι}
    (h : DrainsOnce mgt s f) : s.queue .ucSwdecPending = [] := by
  obtain ⟨fuel, s', hdrain, -⟩ := h
  by_contra hne
  rw [drainUcSwdec_eq, if_neg hne] at hdrain
  simp at hdrain

/-- The frames without a key are handled once each exactly if there are none. -/
theorem drainsOnce_iff {mgt : Adapter ι → ι → List MlmeOp} {s : Adapter ι} {f : ι}
    (hsta : checkFwstate s.mlmepriv.fwState wifiStationState = true)
    (hkey : s.securitypriv.busetkipkey = true) :
    DrainsOnce mgt s f ↔ s.queue .ucSwdecPending = [] := by
  refine ⟨DrainsOnce.nil, fun hq => ?_⟩
  have hdrain : ∀ n, s.drainUcSwdec n = some ([], s) := by
    intro n
    rw [drainUcSwdec_eq, if_pos hq]
  refine ⟨0, s, by rw [hq, hdrain], hq, fun n _ => ?_⟩
  simp [recvFunc, hsta, hkey, hdrain]

/-- A station that has just got its temporal key, with the frames `fs` waiting for it. -/
def sampleWaiting (fs : List ℕ) : Adapter ℕ :=
  let s := Adapter.blank [] zeroAddr
  { s with
    securitypriv := { s.securitypriv with busetkipkey := true }
    queue := Function.update s.queue .ucSwdecPending fs }

theorem drainsOnce_iff_sample :
    checkFwstate (sampleWaiting []).mlmepriv.fwState wifiStationState = true ∧
      (sampleWaiting []).securitypriv.busetkipkey = true ∧
      (DrainsOnce (fun _ _ => []) (sampleWaiting []) 1 ↔
        (sampleWaiting []).queue .ucSwdecPending = []) :=
  ⟨rfl, rfl, drainsOnce_iff rfl rfl⟩

/-- One frame that waits for its key is enough for the loop not to end. -/
theorem not_drainsOnce :
    checkFwstate (sampleWaiting [0]).mlmepriv.fwState wifiStationState = true ∧
      (sampleWaiting [0]).securitypriv.busetkipkey = true ∧
      ¬ DrainsOnce (fun _ _ => []) (sampleWaiting [0]) 1 := by
  refine ⟨rfl, rfl, fun h => ?_⟩
  have hq := h.nil
  simp [sampleWaiting] at hq

end Adapter

end Rtl8188eu
