import Rtl8188eu.AccessPoint
import Rtl8188eu.RecvFunc

/-!
# Sleeping stations

The power-save code of an access point : the queues for sleeping stations in
`core/rtw_xmit.c`, the power-management bit, the trigger frames and the PS-Poll frames in
`core/rtw_recv.c`, `expire_timeout_chk` of `core/rtw_ap.c`, and the group frames behind a
beacon (`tx_beacon_hdl`, `rtw_chk_hi_queue_hdl`).

A frame taken off the queue of a station is given to the device with `triggered` set. Such a
frame passes the queues from then on, so it is left out here.
-/

set_option linter.unusedSectionVars false

namespace Rtl8188eu

/-- `WIFI_PSPOLL`. -/
def wifiPspoll : ℕ := 0xa4

/-- A counter of 32 bits is decremented. -/
def decU32 (n : ℕ) : ℕ := if n = 0 then 4294967295 else n - 1

/-- `GetPwrMgt`. -/
def getPwrMgt (m : Mem) (p : ℤ) : Bool := (m.le16 p).testBit 12

/-- `GetAid`. -/
def getAid (m : Mem) (p : ℤ) : ℕ := m.le16 (p + 2) &&& 0x3fff

namespace ApSta

/-- `wmmps_ac` : the bit `i` of the `uapsd_*` field for a priority. Bit 0 stands for delivery,
bit 1 for triggers. -/
def wmmpsAc (st : ApSta) (priority i : ℕ) : Bool :=
  let uapsd := match priority with
    | 1 | 2 => st.uapsdBk
    | 4 | 5 => st.uapsdVi
    | 6 | 7 => st.uapsdVo
    | _ => st.uapsdBe
  uapsd.toNat.testBit i

/-- A frame leaves `sleep_q`. -/
def sent (st : ApSta) (f : XmitFrame) : ApSta :=
  { st with
    sleepqLen := decU32 st.sleepqLen
    sleepqAcLen := if st.wmmpsAc f.priority 1 then decU32 st.sleepqAcLen else st.sleepqAcLen }

/-- The loop of `wakeup_sta_to_xmit` over `sleep_q`. -/
def flush (st : ApSta) : ApSta := { st.sleepQ.foldl sent st with sleepQ := [] }

/-- The loops over `sleep_q` of the broadcast station. -/
def flushGroup (st : ApSta) : ApSta :=
  { st with sleepQ := [], sleepqLen := st.sleepQ.foldl (fun n _ => decU32 n) st.sleepqLen }

/-- The end of the alive check. -/
def aliveSeen (st : ApSta) (expireTo : ℕ) : ApSta :=
  if hasBits st.state wifiStaAliveChkState then
    { st with expireTo := expireTo, state := st.state ^^^ wifiStaAliveChkState }
  else st

/-- The station has woken up. -/
def awake (st : ApSta) (expireTo : ℕ) : ApSta :=
  let st := if st.asleep then { st with state := st.state ^^^ wifiSleepState } else st
  st.aliveSeen expireTo

/-- The loop of `xmit_delivery_enabled_frames` over `sleep_q` : the frames that stay, the
record, and whether the bit of the station in `tim_bitmap` is cleared. -/
def deliverLoop : List XmitFrame → ApSta → List XmitFrame × ApSta × Bool
  | [], st => ([], st, false)
  | f :: fs, st =>
    if st.wmmpsAc f.priority 1 then
      let st := st.sent f
      let (kept, st', clr) := deliverLoop fs st
      (kept, st', clr || (st.sleepqAcLen = 0 && !st.hasLegacyAc))
    else
      let (kept, st', clr) := deliverLoop fs st
      (f :: kept, st', clr)

end ApSta

namespace Ap

variable {ι : Type} [DecidableEq ι]

/-! ## The queues -/

/-- A group frame is kept for the broadcast station. -/
def bufferGroup (s : Ap ι) (k : StaId) (f : XmitFrame) : Ap ι :=
  { s.updateSta k fun st =>
      { st with sleepQ := st.sleepQ ++ [f], sleepqLen := st.sleepqLen + 1 } with
    timBitmap := s.timBitmap ||| bit16 0
    staDzBitmap := s.staDzBitmap ||| bit16 0 }

/-- A frame is kept for the sleeping station. -/
def buffer (s : Ap ι) (k : StaId) (f : XmitFrame) : Ap ι :=
  let st := s.sta k
  let wmmps := st.wmmpsAc f.priority 0
  { (s.record .buffer k).updateSta k fun st =>
      { st with
        sleepQ := st.sleepQ ++ [f]
        sleepqLen := st.sleepqLen + 1
        sleepqAcLen := if wmmps then st.sleepqAcLen + 1 else st.sleepqAcLen } with
    timBitmap :=
      if st.hasLegacyAc ≠ wmmps then s.timBitmap ||| bit16 st.aid else s.timBitmap }

/-- `xmitframe_enqueue_for_sleeping_sta`, for a frame to the station `k`. -/
def xmitframeEnqueueForSleepingSta (s : Ap ι) (k : StaId) (f : XmitFrame) : Bool × Ap ι :=
  if ¬ checkFwstate s.base.mlmepriv.fwState wifiApState then (false, s)
  else if f.triggered then (false, s)
  else if f.bmcst then if s.staDzBitmap ≠ 0 then (true, s.bufferGroup k f) else (false, s)
  else if (s.sta k).asleep ∧ s.staDzBitmap &&& bit16 (s.sta k).aid ≠ 0 then (true, s.buffer k f)
  else (false, s)

/-- The loop of `dequeue_xmitframes_to_sleeping_queue` : the frames that stay, and the
state. -/
def dequeueLoop (k : StaId) : List XmitFrame → Ap ι → List XmitFrame × Ap ι
  | [], s => ([], s)
  | f :: fs, s =>
    match s.xmitframeEnqueueForSleepingSta k f with
    | (true, s) => dequeueLoop k fs s
    | (false, s) =>
      let (kept, s) := dequeueLoop k fs s
      (f :: kept, s)

/-- `dequeue_xmitframes_to_sleeping_queue`. -/
def dequeueXmitframesToSleepingQueue (s : Ap ι) (k : StaId) (q : AcQueue) : Ap ι :=
  let (kept, s) := dequeueLoop k ((s.sta k).pending q) s
  s.updateSta k fun st => { st with pending := Function.update st.pending q kept }

/-- The station goes to sleep : its state and its bit. -/
def fallAsleep (s : Ap ι) (k : StaId) : Ap ι :=
  { (s.record .stop k).updateSta k fun st => { st with state := st.state ||| wifiSleepState } with
    staDzBitmap := s.staDzBitmap ||| bit16 (s.sta k).aid }

/-- `stop_sta_xmit`. The result is `none` without a broadcast station, where the source
follows a null pointer. -/
def stopStaXmit (s : Ap ι) (k : StaId) : Option (Ap ι) :=
  let s := s.fallAsleep k
  let s := s.dequeueXmitframesToSleepingQueue k .vo
  let s := s.dequeueXmitframesToSleepingQueue k .vi
  let s := s.dequeueXmitframesToSleepingQueue k .be
  let s := s.dequeueXmitframesToSleepingQueue k .bk
  s.base.rtwGetBcmcStainfo.map fun bmc => s.dequeueXmitframesToSleepingQueue bmc .be

/-- Bit 0 of both bitmaps is cleared. -/
def clearBit0 (s : Ap ι) : Ap ι :=
  { s with
    timBitmap := s.timBitmap &&& ~~~bit16 0
    staDzBitmap := s.staDzBitmap &&& ~~~bit16 0
    inHiq := false }

/-- The end of `wakeup_sta_to_xmit` : group frames go out if no station sleeps. -/
def wakeupGroup (s : Ap ι) : Ap ι :=
  match s.base.rtwGetBcmcStainfo with
  | none => s
  | some bmc =>
    if s.staDzBitmap &&& 0xfffe = 0 then
      let s := s.updateSta bmc ApSta.flushGroup
      if (s.sta bmc).sleepqLen = 0 then s.clearBit0 else s
    else s

/-- The part of `wakeup_sta_to_xmit` about the station. -/
def wakeupSta (s : Ap ι) (k : StaId) : Ap ι :=
  let s := (s.record .wakeup k).updateSta k ApSta.flush
  if (s.sta k).sleepqLen = 0 then
    { s.updateSta k fun st => st.awake s.expireTo with
      timBitmap := s.timBitmap &&& ~~~bit16 (s.sta k).aid
      staDzBitmap := s.staDzBitmap &&& ~~~bit16 (s.sta k).aid }
  else s

/-- `wakeup_sta_to_xmit`. -/
def wakeupStaToXmit (s : Ap ι) (k : StaId) : Ap ι := (s.wakeupSta k).wakeupGroup

/-- `xmit_delivery_enabled_frames`. -/
def xmitDeliveryEnabledFrames (s : Ap ι) (k : StaId) : Ap ι :=
  let st := s.sta k
  let (kept, st', clr) := ApSta.deliverLoop st.sleepQ st
  { (s.record .deliver k).updateSta k fun _ => { st' with sleepQ := kept } with
    timBitmap := if clr then s.timBitmap &&& ~~~bit16 st.aid else s.timBitmap }

/-! ## Received frames -/

/-- `process_pwrbit_data`, for a frame of the station `k`. -/
def processPwrbitData (s : Ap ι) (k : StaId) (pwrbit : Bool) : Option (Ap ι) :=
  if pwrbit then
    if (s.sta k).asleep then some s else (s.record .pwrBit k).stopStaXmit k
  else if (s.sta k).asleep then some ((s.record .pwrBit k).wakeupStaToXmit k) else some s

/-- `process_wmmps_data`, for a frame of the station `k`. -/
def processWmmpsData (s : Ap ι) (k : StaId) (priority : ℕ) : Ap ι :=
  let st := s.sta k
  if (s.base.sta k).qosOption ∧ st.qosInfo &&& 0xf ≠ 0 ∧ st.asleep ∧ st.wmmpsAc priority 1 ∧
      0 < st.sleepqAcLen then s.xmitDeliveryEnabledFrames k
  else s

/-- The power-save part of `sta2ap_data_frame`, for a frame of the station `k`. The priority
of the frame is not read yet. -/
def sta2apPowerSave (s : Ap ι) (k : StaId) (fr : RecvFrame) : Option (Ap ι) :=
  (s.processPwrbitData k (getPwrMgt fr.mem fr.rxData)).map fun s =>
    if getFrameSubType fr.mem fr.rxData &&& wifiQosDataType = wifiQosDataType then
      s.processWmmpsData k fr.attrib.priority
    else s

/-- A PS-Poll of a sleeping station gets the first frame of `sleep_q`. -/
def psPollFrame (s : Ap ι) (k : StaId) : Ap ι :=
  let st := s.sta k
  let cleared := s.timBitmap &&& ~~~bit16 st.aid
  match st.sleepQ with
  | _ :: fs =>
    { s.updateSta k fun st => { st with sleepQ := fs, sleepqLen := decU32 st.sleepqLen } with
      timBitmap := if decU32 st.sleepqLen = 0 then cleared else s.timBitmap }
  | [] =>
    if s.timBitmap &&& bit16 st.aid ≠ 0 then
      { s.updateSta k fun st => { st with sleepqLen := 0 } with timBitmap := cleared }
    else s

/-- `validate_recv_ctrl_frame` for a PS-Poll of the station `k` with its id. -/
def psPoll (s : Ap ι) (k : StaId) (priority : ℕ) : Ap ι :=
  if (s.sta k).wmmpsAc priority 0 then s
  else
    let s := (s.record .psPoll k).updateSta k fun st => st.aliveSeen s.expireTo
    let st := s.sta k
    if st.asleep ∧ s.staDzBitmap &&& bit16 st.aid ≠ 0 then s.psPollFrame k else s

/-- `validate_recv_ctrl_frame`. -/
def validateRecvCtrlFrame (s : Ap ι) (fr : RecvFrame) : Ap ι :=
  if getFrameType fr.mem fr.rxData ≠ wifiCtrlType ∨
      macAt fr.mem (getAddr1Ptr fr.rxData) ≠ s.base.macAddr ∨
      getFrameSubType fr.mem fr.rxData ≠ wifiPspoll then s
  else
    match s.base.rtwGetStainfo (macAt fr.mem (getAddr2Ptr fr.rxData)) with
    | none => s
    | some k =>
      if (s.sta k).aid ≠ getAid fr.mem fr.rxData then s else s.psPoll k fr.attrib.priority

/-! ## Timers and beacons -/

/-- What `expire_timeout_chk` asks about the stations and the device. -/
structure TickEnv where
  /-- `chk_sta_is_alive`. -/
  alive : StaId → Bool
  /-- The null frame to the station is acknowledged. -/
  acked : StaId → Bool
  /-- `free_xmitframe_cnt`. -/
  freeXmitframeCnt : ℕ

/-- The loop of `expire_timeout_chk` over `auth_list`. -/
def expireAuth (s : Ap ι) (k : StaId) : Ap ι :=
  let n := (s.sta k).expireTo
  if n = 0 then s
  else
    let s := s.updateSta k fun st => { st with expireTo := n - 1 }
    if n = 1 then (s.authUnlink k).rtwFreeStainfo k else s

/-- A sleeping station whose time is over : the bit for it in the beacon asks it to answer. -/
def aliveChk (s : Ap ι) (k : StaId) : Ap ι :=
  { (s.record .aliveChk k).updateSta k fun st =>
      { st with expireTo := s.expireTo, state := st.state ||| wifiStaAliveChkState } with
    timBitmap := s.timBitmap ||| bit16 (s.sta k).aid }

/-- `expire_timeout_chk` removes an associated station. -/
def expireFree (s : Ap ι) (k : StaId) : Ap ι :=
  (s.asocUnlink k).apFreeSta k

/-- The time of an associated station goes on. -/
def countDown (s : Ap ι) (env : TickEnv) (k : StaId) : Ap ι :=
  s.updateSta k fun st =>
    if env.alive k ∨ st.expireTo = 0 then
      { st with expireTo := s.expireTo, keepAliveTrycnt := 0 }
    else { st with expireTo := st.expireTo - 1 }

/-- The time of an associated station is over. The station is also returned if a null frame
has to find out whether it is there. -/
def expireDue (s : Ap ι) (k : StaId) : Option StaId × Ap ι :=
  let st := s.sta k
  if s.wifiSpec then (none, s.updateSta k fun st => { st with expireTo := s.expireTo })
  else
    let chk := st.asleep && !hasBits st.state wifiStaAliveChkState
    let s := if chk then s.aliveChk k else s
    if s.activeKeepAliveCheck then (some k, s)
    else if chk then (none, s)
    else (none, s.expireFree k)

/-- The loop of `expire_timeout_chk` over `asoc_list`, for one station. -/
def expireAsoc (s : Ap ι) (env : TickEnv) (k : StaId) : Option StaId × Ap ι :=
  let s := s.countDown env k
  if (s.sta k).expireTo = 0 then s.expireDue k
  else
    let share := nrXmitframe / s.asocListCnt
    if share < (s.sta k).sleepqLen ∧ env.freeXmitframeCnt < share / 2 then
      (none, s.wakeupStaToXmit k)
    else (none, s)

/-- The loop of `expire_timeout_chk` over `asoc_list` : the stations to ask, and the
state. -/
def expireAsocLoop (env : TickEnv) : List StaId → Ap ι → List StaId × Ap ι
  | [], s => ([], s)
  | k :: ks, s =>
    let (chk, s) := s.expireAsoc env k
    let (chks, s) := expireAsocLoop env ks s
    (chk.toList ++ chks, s)

/-- The loop of `expire_timeout_chk` over the stations to ask. -/
def expireAsk (env : TickEnv) (s : Ap ι) (k : StaId) : Ap ι :=
  let n := (s.sta k).keepAliveTrycnt + 1
  if env.acked k then
    s.updateSta k fun st => { st with expireTo := s.expireTo, keepAliveTrycnt := 0 }
  else if n ≤ 3 then s.updateSta k fun st => { st with expireTo := 1, keepAliveTrycnt := n }
  else (s.updateSta k fun st => { st with keepAliveTrycnt := 0 }).expireFree k

/-- `expire_timeout_chk`. -/
def expireTimeoutChk (s : Ap ι) (env : TickEnv) : Ap ι :=
  let s := s.authList.foldl expireAuth s
  let (chks, s) := expireAsocLoop env s.asocList s
  chks.foldl (expireAsk env) s

/-- `tx_beacon_hdl` after the beacon was sent. -/
def txBeaconHdl (s : Ap ι) : Ap ι :=
  match s.base.rtwGetBcmcStainfo with
  | none => s
  | some bmc =>
    if s.timBitmap &&& bit16 0 ≠ 0 ∧ 0 < (s.sta bmc).sleepqLen then
      { s.updateSta bmc ApSta.flushGroup with inHiq := true }
    else s

/-- `rtw_chk_hi_queue_hdl`. `empty` says that the high queue of the device gets empty in
time. -/
def rtwChkHiQueueHdl (s : Ap ι) (empty : Bool) : Ap ι :=
  match s.base.rtwGetBcmcStainfo with
  | none => s
  | some bmc => if (s.sta bmc).sleepqLen = 0 ∧ empty then s.clearBit0 else s

end Ap

end Rtl8188eu
