import Rtl8188eu.ClientMlme
import Rtl8188eu.StaMgt

/-!
# The stations of an access point

The access point side of `core/rtw_mlme_ext.c` (`OnAuth`, `OnAssocReq`, `OnDeAuth`,
`OnDisassoc`), of `core/rtw_ap.c` (`ap_free_sta`) and of `core/rtw_sta_mgt.c`. A station
record is made by the first authentication frame and lives until it is freed. Its state word
is shared by authentication, association, power save and keep-alive. The association ids are
kept twice, in the records and in the table `sta_aid`, and two bitmaps have one bit for each
id.

The checks of `OnAssocReq` on the elements of the frame come with the request
(`AssocReq`). The calls that the properties of this part are about are written into a log
with what they found (`ApCall`).
-/

set_option linter.unusedSectionVars false

namespace Rtl8188eu

open LiteralIndex

/-! ## Constants -/

/-- `WIFI_SLEEP_STATE`. -/
def wifiSleepState : BitVec 32 := 0x00000004
/-- `WIFI_STA_ALIVE_CHK_STATE`. -/
def wifiStaAliveChkState : BitVec 32 := 0x00000400
/-- `_FW_LINKED` in the state of a station. -/
def fwLinkedBits : BitVec 32 := 0x00000001
/-- `NUM_STA`. -/
def numSta : ℕ := 32
/-- `_STATS_SUCCESSFUL_`. -/
def statsSuccessful : ℕ := 0
/-- `_STATS_NO_SUPP_ALG_`. -/
def statsNoSuppAlg : ℕ := 13
/-- `_STATS_OUT_OF_AUTH_SEQ_`. -/
def statsOutOfAuthSeq : ℕ := 14
/-- `_STATS_CHALLENGE_FAIL_`. -/
def statsChallengeFail : ℕ := 15
/-- `_STATS_UNABLE_HANDLE_STA_`. -/
def statsUnableHandleSta : ℕ := 17

/-- The value of `dot11AuthAlgrthm`. -/
def AuthAlgrthm.toNat : AuthAlgrthm → ℕ
  | .openSystem => 0
  | .shared => 1
  | .ieee8021X => 2
  | .auto => 3
  | .wapi => 4

/-- `BIT(n)` as far as it fits into a bitmap of 16 bits. C leaves `1 << 32` undefined, which is what it
is at AID 32 : it is 0 here, and bit 0 on a machine that shifts modulo 32. -/
def bit16 (n : ℕ) : BitVec 16 := 1#16 <<< n

/-- `WLAN_CAPABILITY_SHORT_PREAMBLE`. -/
def wlanCapabilityShortPreamble : BitVec 16 := 0x0020
/-- `WLAN_CAPABILITY_SHORT_SLOT`. -/
def wlanCapabilityShortSlot : BitVec 16 := 0x0400
/-- `IEEE80211_HT_CAP_SUP_WIDTH`. -/
def ieee80211HtCapSupWidth : BitVec 16 := 0x0002
/-- `IEEE80211_HT_CAP_GRN_FLD`. -/
def ieee80211HtCapGrnFld : BitVec 16 := 0x0010
/-- `WIRELESS_11B`. -/
def wireless11B : ℕ := 1
/-- `_ERPINFO_IE_`. -/
def erpinfoIe : UInt8 := 42
/-- `_HT_ADD_INFO_IE_`. -/
def htAddInfoIe : UInt8 := 61
/-- `HT_INFO_OPERATION_MODE_OP_MODE_MASK`. -/
def htInfoOperationModeOpModeMask : BitVec 16 := 0x0003
/-- `HT_INFO_OPERATION_MODE_NON_GF_DEVS_PRESENT`. -/
def htInfoOperationModeNonGfDevsPresent : BitVec 16 := 0x0004
/-- `HT_INFO_OPERATION_MODE_NON_HT_STA_PRESENT`. -/
def htInfoOperationModeNonHtStaPresent : BitVec 16 := 0x0010
/-- `OP_MODE_PURE`. -/
def opModePure : BitVec 16 := 0
/-- `OP_MODE_MAY_BE_LEGACY_STAS`. -/
def opModeMayBeLegacyStas : BitVec 16 := 1
/-- `OP_MODE_20MHZ_HT_STA_ASSOCED`. -/
def opMode20mhzHtStaAssoced : BitVec 16 := 2
/-- `OP_MODE_MIXED`. -/
def opModeMixed : BitVec 16 := 3

/-- A counter of 8 bits is incremented. -/
def incU8 (n : ℕ) : ℕ := (n + 1) % 256
/-- A counter of 8 bits is decremented. -/
def decU8 (n : ℕ) : ℕ := (n + 255) % 256

/-! ## The state -/

/-- A frame to transmit, as far as the queues of sleeping stations look at it. -/
structure XmitFrame where
  /-- `IS_MCAST(attrib.ra)`. -/
  bmcst : Bool
  priority : ℕ
  triggered : Bool
  deriving DecidableEq

/-- The transmit queues of a station. -/
inductive AcQueue
  | vo
  | vi
  | be
  | bk
  deriving DecidableEq

/-- The fields of `struct sta_info` that an access point uses for its stations. -/
structure ApSta where
  state : BitVec 32
  aid : ℕ
  authSeq : ℕ
  authalg : ℕ
  chgTxt : Vector UInt8 128
  expireTo : ℕ
  keepAliveTrycnt : ℕ
  qosInfo : UInt8
  uapsdVo : UInt8
  uapsdVi : UInt8
  uapsdBe : UInt8
  uapsdBk : UInt8
  hasLegacyAc : Bool
  /-- The frames that wait for the station to wake up. -/
  sleepQ : List XmitFrame
  sleepqLen : ℕ
  sleepqAcLen : ℕ
  /-- The frames on their way out. -/
  pending : AcQueue → List XmitFrame
  capability : BitVec 16
  /-- `WLAN_STA_SHORT_PREAMBLE`. -/
  shortPreamble : Bool
  /-- `WLAN_STA_NONERP`. -/
  nonErp : Bool
  /-- `WLAN_STA_HT`. -/
  ht : Bool
  /-- `htpriv.ht_cap.cap_info`. -/
  htCapInfo : BitVec 16
  noShortPreambleSet : Bool
  nonerpSet : Bool
  noShortSlotTimeSet : Bool
  noHtGfSet : Bool
  noHtSet : Bool
  ht20mhzSet : Bool

/-- `_rtw_init_stainfo` : a record of zero bytes. -/
def initApSta : ApSta where
  state := 0
  aid := 0
  authSeq := 0
  authalg := 0
  chgTxt := Vector.replicate 128 0
  expireTo := 0
  keepAliveTrycnt := 0
  qosInfo := 0
  uapsdVo := 0
  uapsdVi := 0
  uapsdBe := 0
  uapsdBk := 0
  hasLegacyAc := false
  sleepQ := []
  sleepqLen := 0
  sleepqAcLen := 0
  pending := fun _ => []
  capability := 0
  shortPreamble := false
  nonErp := false
  ht := false
  htCapInfo := 0
  noShortPreambleSet := false
  nonerpSet := false
  noShortSlotTimeSet := false
  noHtGfSet := false
  noHtSet := false
  ht20mhzSet := false

/-- The station is in `WIFI_SLEEP_STATE`. -/
def ApSta.asleep (st : ApSta) : Bool := hasBits st.state wifiSleepState

/-- `WIFI_FW_AUTH_SUCCESS` is set. -/
def ApSta.authSuccess (st : ApSta) : Bool := hasBits st.state wifiFwAuthSuccess

/-- `WIFI_FW_ASSOC_SUCCESS` is set. -/
def ApSta.assocSuccess (st : ApSta) : Bool := hasBits st.state wifiFwAssocSuccessBits

/-- An HT station without greenfield. -/
def ApSta.noGf (st : ApSta) : Bool := st.ht ∧ st.htCapInfo &&& ieee80211HtCapGrnFld = 0

/-- An HT station with 20 MHz only. -/
def ApSta.only20mhz (st : ApSta) : Bool := st.ht ∧ st.htCapInfo &&& ieee80211HtCapSupWidth = 0

/-- The station does not have short slots. -/
def ApSta.noShortSlot (st : ApSta) : Bool := st.capability &&& wlanCapabilityShortSlot = 0

/-- One of the counters of the BSS counts the station. -/
def ApSta.counted (st : ApSta) : Bool :=
  st.noShortPreambleSet || st.nonerpSet || st.noShortSlotTimeSet || st.noHtGfSet || st.noHtSet ||
    st.ht20mhzSet

/-- The station is counted as an HT station without greenfield or with 20 MHz only, and it is no
such station any more. -/
def ApSta.stale (st : ApSta) : Bool :=
  (st.noHtGfSet && !st.noGf) || (st.ht20mhzSet && !st.only20mhz)

/-- The counters of the BSS count the station for what it is. -/
def ApSta.countedRight (st : ApSta) : Bool :=
  (st.noShortPreambleSet == !st.shortPreamble) && (st.nonerpSet == st.nonErp) &&
    (st.noShortSlotTimeSet == st.noShortSlot) && (st.noHtSet == !st.ht) &&
    (st.noHtGfSet == st.noGf) && (st.ht20mhzSet == st.only20mhz)

/-- A mask of one bit asks for that bit. -/
theorem hasBits_bit (x : BitVec 32) {mask : BitVec 32} {i : ℕ} (hi : i < 32)
    (h : mask = BitVec.twoPow 32 i) : hasBits x mask = x[i] := by
  subst h
  rw [hasBits, BitVec.and_twoPow, ← BitVec.getLsbD_eq_getElem]
  cases hx : x.getLsbD i with
  | false => simp
  | true =>
    have hne : BitVec.twoPow 32 i ≠ 0#32 := by
      intro h0
      have hbit := congrArg (fun b => b.getLsbD i) h0
      simp [hi] at hbit
    simpa using hne

theorem hasBits_sleep (x : BitVec 32) : hasBits x wifiSleepState = getElem x 2 sleepBit_lt :=
  hasBits_bit x (by decide) (by decide)

theorem hasBits_authSuccess (x : BitVec 32) : hasBits x wifiFwAuthSuccess = getElem x 10 authBit_lt :=
  hasBits_bit x (by decide) (by decide)

/-- The bit of the alive check is the bit of a completed authentication. -/
theorem hasBits_aliveChk (x : BitVec 32) : hasBits x wifiStaAliveChkState = getElem x 10 authBit_lt :=
  hasBits_bit x (by decide) (by decide)

theorem hasBits_assocSuccess (x : BitVec 32) : hasBits x wifiFwAssocSuccessBits = getElem x 14 assocBit_lt :=
  hasBits_bit x (by decide) (by decide)

theorem ApSta.asleep_eq (st : ApSta) : st.asleep = getElem st.state 2 sleepBit_lt := hasBits_sleep _

theorem ApSta.authSuccess_eq (st : ApSta) : st.authSuccess = getElem st.state 10 authBit_lt :=
  hasBits_authSuccess _

theorem ApSta.assocSuccess_eq (st : ApSta) : st.assocSuccess = getElem st.state 14 assocBit_lt :=
  hasBits_assocSuccess _

/-- The calls and branches that the log keeps, each on a station. -/
inductive ApOp
  /-- `rtw_alloc_stainfo`. -/
  | alloc
  /-- `rtw_free_stainfo`. -/
  | free
  /-- `OnAuth` completes the authentication. -/
  | authDone
  /-- `OnAssocReq` finds the station. -/
  | assocReq
  /-- `OnAssocReqFail`. -/
  | reject
  /-- `stop_sta_xmit`. -/
  | stop
  /-- `wakeup_sta_to_xmit`. -/
  | wakeup
  /-- A PS-Poll of the station with its id. -/
  | psPoll
  /-- `expire_timeout_chk` sets `WIFI_STA_ALIVE_CHK_STATE`. -/
  | aliveChk
  /-- A frame is kept for the sleeping station. -/
  | buffer
  /-- `xmit_delivery_enabled_frames`. -/
  | deliver
  /-- `process_pwrbit_data` acts on the power-management bit of a frame. -/
  | pwrBit
  /-- A to-DS frame of the station is handed up. -/
  | handUp
  /-- `OnAuth` finds the record of the station. -/
  | reauth
  /-- `OnAuth` accepts a frame of the station. -/
  | authAccept
  /-- `bss_cap_update_on_sta_join`. -/
  | join
  deriving DecidableEq

/-- An entry of the log, with what was found at that moment. -/
structure ApCall where
  op : ApOp
  sta : StaId
  aid : ℕ
  asleep : Bool
  authSuccess : Bool
  assocSuccess : Bool
  /-- The address of the station is a group address. -/
  group : Bool
  /-- Bit 0 of `sta_dz_bitmap` or `tim_bitmap` is set. -/
  bit0 : Bool
  /-- The station is on `asoc_list`. -/
  listed : Bool
  /-- One of the counters of the BSS counts the station. -/
  counted : Bool
  /-- For `bss_cap_update_on_sta_join` : the station is counted as an HT station without
  greenfield or with 20 MHz only, and its request does not say so any more. For
  `OnAssocReqFail` : the request is not what the station is counted for. -/
  stale : Bool
  /-- The request is from an HT station with greenfield, which has 40 MHz if the access point
  has. -/
  pureHt : Bool
  deriving DecidableEq

/-- The fields of `struct mlme_priv` about the stations of the BSS. -/
structure BssCap where
  numStaNoShortPreamble : ℤ
  numStaNonErp : ℤ
  numStaNoShortSlotTime : ℤ
  numStaNoHt : ℤ
  numStaHtNoGf : ℤ
  numStaHt20mhz : ℤ
  olbcHt : Bool
  htOpMode : BitVec 16
  /-- `htpriv.ht_cap.cap_info` of the access point. -/
  htCapInfo : BitVec 16
  /-- `cur_wireless_mode`. -/
  curWirelessMode : ℕ
  /-- The elements for which `update_beacon` was called, the latest one first. -/
  bcnUpdates : List UInt8

/-- The state of an access point. -/
structure Ap (ι : Type) where
  base : Adapter ι
  sta : StaId → ApSta
  authList : List StaId
  asocList : List StaId
  authListCnt : ℕ
  asocListCnt : ℕ
  authTo : ℕ
  assocTo : ℕ
  expireTo : ℕ
  maxNumSta : Fin (numSta + 1)
  /-- The entries `0` to `NUM_STA - 1` of `sta_aid`. -/
  staAid : ℕ → Option StaId
  staDzBitmap : BitVec 16
  timBitmap : BitVec 16
  /-- `acl_list.mode`. -/
  aclMode : ℕ
  /-- The valid entries of `acl_list`. -/
  aclNodes : List MacAddr
  /-- `registrypriv.wifi_spec == 1`. -/
  wifiSpec : Bool
  activeKeepAliveCheck : Bool
  /-- `tx_beacon_hdl` has moved the frames of the broadcast station to the high queue of the
  device, and bit 0 of `tim_bitmap` was not cleared since. -/
  inHiq : Bool
  /-- The authentication frames sent, with their receivers, the latest one first. -/
  authSent : List (MacAddr × AuthBody)
  bss : BssCap
  /-- The latest call first. -/
  calls : List ApCall

namespace Ap

variable {ι : Type} [DecidableEq ι]

/-- Change the record of one station. -/
def updateSta (s : Ap ι) (k : StaId) (f : ApSta → ApSta) : Ap ι :=
  { s with sta := Function.update s.sta k (f (s.sta k)) }

/-- Bit 0 of one of the bitmaps is set. -/
def bit0 (s : Ap ι) : Bool := s.staDzBitmap &&& bit16 0 ≠ 0 ∨ s.timBitmap &&& bit16 0 ≠ 0

/-- The address of the station is a group address. -/
def group (s : Ap ι) (k : StaId) : Bool := isMcast (s.base.sta k).hwaddr

/-- The entry of the log for a call on the station `k`. -/
def callOf (s : Ap ι) (op : ApOp) (k : StaId) : ApCall where
  op := op
  sta := k
  aid := (s.sta k).aid
  asleep := (s.sta k).asleep
  authSuccess := (s.sta k).authSuccess
  assocSuccess := (s.sta k).assocSuccess
  group := s.group k
  bit0 := s.bit0
  listed := k ∈ s.asocList
  counted := (s.sta k).counted
  stale := false
  pureHt := true

/-- Add an entry to the log. -/
def record (s : Ap ι) (op : ApOp) (k : StaId) : Ap ι := { s with calls := s.callOf op k :: s.calls }

/-- The entry of the log for `bss_cap_update_on_sta_join`. -/
def joinCall (s : Ap ι) (k : StaId) : ApCall :=
  let st := s.sta k
  { s.callOf .join k with
    stale := st.stale
    pureHt := st.ht ∧ ¬ st.noGf ∧
      (s.bss.htCapInfo &&& ieee80211HtCapSupWidth ≠ 0 → ¬ st.only20mhz) }

/-- The record `k` is in the hash table. -/
def Live (s : Ap ι) (k : StaId) : Prop := ∃ i, k ∈ s.base.staHash i

/-! ## The lists of stations -/

/-- The station gets onto `auth_list`. -/
def authLink (s : Ap ι) (k : StaId) : Ap ι :=
  { s with authList := s.authList ++ [k], authListCnt := incU8 s.authListCnt }

/-- The station leaves `auth_list`. -/
def authUnlink (s : Ap ι) (k : StaId) : Ap ι :=
  { s with authList := s.authList.filter (· ≠ k), authListCnt := decU8 s.authListCnt }

/-- The station gets onto `asoc_list`. -/
def asocLink (s : Ap ι) (k : StaId) : Ap ι :=
  { s with asocList := s.asocList ++ [k], asocListCnt := incU8 s.asocListCnt }

/-- The station leaves `asoc_list`. -/
def asocUnlink (s : Ap ι) (k : StaId) : Ap ι :=
  { s with asocList := s.asocList.filter (· ≠ k), asocListCnt := decU8 s.asocListCnt }

/-! ## Station records -/

/-- `rtw_alloc_stainfo`. -/
def rtwAllocStainfo (s : Ap ι) (hwaddr : MacAddr) : Option StaId × Ap ι :=
  match s.base.rtwAllocStainfo hwaddr with
  | (none, base) => (none, { s with base := base })
  | (some k, base) =>
    (some k, ({ s with base := base }.updateSta k fun _ => initApSta).record .alloc k)

/-- The fields that `rtw_free_stainfo` clears. -/
def clearedSta (st : ApSta) (aid : ℕ) : ApSta :=
  { st with
    aid := aid
    expireTo := 0
    qosInfo := 0
    uapsdVo := 0, uapsdVi := 0, uapsdBe := 0, uapsdBk := 0
    hasLegacyAc := false
    sleepQ := [], sleepqLen := 0, sleepqAcLen := 0
    pending := fun _ => [] }

/-- `rtw_free_stainfo`. -/
def rtwFreeStainfo (s : Ap ι) (k : StaId) : Ap ι :=
  let st := s.sta k
  let listed : Bool := 0 < st.aid ∧ s.staAid (st.aid - 1) = some k
  { s.record .free k with
    base := s.base.rtwFreeStainfo k
    authList := s.authList.filter (· ≠ k)
    authListCnt := if k ∈ s.authList then decU8 s.authListCnt else s.authListCnt
    staDzBitmap := s.staDzBitmap &&& ~~~bit16 st.aid
    timBitmap := s.timBitmap &&& ~~~bit16 st.aid
    staAid := if listed then Function.update s.staAid (st.aid - 1) none else s.staAid
    sta := Function.update s.sta k (clearedSta st (if listed then 0 else st.aid)) }

/-! ## The counters of the BSS -/

/-- A station gets a flag, and is counted unless it has the flag. The last part says that it is
the first one. -/
def raiseFlag (flag : Bool) (n : ℤ) : Bool × ℤ × Bool :=
  if flag then (true, n, false) else (true, n + 1, n + 1 = 1)

/-- A station loses a flag, and is not counted any more. The last part says that it was the last
one. -/
def lowerFlag (flag : Bool) (n : ℤ) : Bool × ℤ × Bool :=
  if flag then (false, n - 1, n - 1 = 0) else (false, n, false)

/-- A flag follows a property of the station. -/
def setFlag (want flag : Bool) (n : ℤ) : Bool × ℤ × Bool :=
  if want then raiseFlag flag n else lowerFlag flag n

/-- A bit of `ht_op_mode` follows a condition : the changes and the mode. -/
def opModeBit (mode bit : BitVec 16) (cond : Bool) : ℕ × BitVec 16 :=
  if mode &&& bit = 0 ∧ cond then (1, mode ||| bit)
  else if mode &&& bit ≠ 0 ∧ ¬ cond then (1, mode &&& ~~~bit)
  else (0, mode)

/-- The mode that `rtw_ht_operation_update` finds. -/
def newOpMode (b : BssCap) (mode : BitVec 16) : BitVec 16 :=
  if b.numStaNoHt ≠ 0 ∨ mode &&& htInfoOperationModeNonGfDevsPresent ≠ 0 then opModeMixed
  else if b.htCapInfo &&& ieee80211HtCapSupWidth ≠ 0 ∧ b.numStaHt20mhz ≠ 0 then
    opMode20mhzHtStaAssoced
  else if b.olbcHt then opModeMayBeLegacyStas
  else opModePure

/-- `rtw_ht_operation_update` : the number of changes, and the fields. -/
def rtwHtOperationUpdate (htOption : Bool) (b : BssCap) : ℕ × BssCap :=
  if htOption then (0, b)
  else
    let (c₁, mode) := opModeBit b.htOpMode htInfoOperationModeNonGfDevsPresent (b.numStaHtNoGf ≠ 0)
    let (c₂, mode) :=
      opModeBit mode htInfoOperationModeNonHtStaPresent (b.numStaNoHt ≠ 0 ∨ b.olbcHt)
    let new := newOpMode b mode
    if mode &&& htInfoOperationModeOpModeMask ≠ new then
      (c₁ + c₂ + 1, { b with htOpMode := (mode &&& ~~~htInfoOperationModeOpModeMask) ||| new })
    else (c₁ + c₂, { b with htOpMode := mode })

/-- The HT elements of the beacon are made again if the mode has changed. -/
def htRefresh (htOption : Bool) (b : BssCap) : BssCap :=
  let (n, b) := rtwHtOperationUpdate htOption b
  if 0 < n then { b with bcnUpdates := htAddInfoIe :: htCapabilityIe :: b.bcnUpdates } else b

/-- The elements for which `update_beacon` is called after the first three counters have
changed. -/
def bcnEdges (b : BssCap) (preamble erp slot : Bool) : List UInt8 :=
  let bg : Bool := wireless11B < b.curWirelessMode
  (if slot && bg then [0xff] else []) ++ (if erp then [erpinfoIe] else []) ++
    (if preamble && bg then [0xff] else [])

/-- `bss_cap_update_on_sta_join`. -/
def bssCapUpdateOnStaJoin (s : Ap ι) (k : StaId) : Ap ι :=
  let st := s.sta k
  let b := s.bss
  let (f₁, n₁, e₁) := setFlag (!st.shortPreamble) st.noShortPreambleSet b.numStaNoShortPreamble
  let (f₂, n₂, e₂) := setFlag st.nonErp st.nonerpSet b.numStaNonErp
  let (f₃, n₃, e₃) := setFlag st.noShortSlot st.noShortSlotTimeSet b.numStaNoShortSlotTime
  let (f₄, n₄, _) := setFlag (!st.ht) st.noHtSet b.numStaNoHt
  let (f₅, n₅, _) :=
    if st.noGf then raiseFlag st.noHtGfSet b.numStaHtNoGf
    else (st.noHtGfSet, b.numStaHtNoGf, false)
  let (f₆, n₆, _) :=
    if st.only20mhz then raiseFlag st.ht20mhzSet b.numStaHt20mhz
    else (st.ht20mhzSet, b.numStaHt20mhz, false)
  { s.updateSta k fun st =>
      { st with
        noShortPreambleSet := f₁, nonerpSet := f₂, noShortSlotTimeSet := f₃
        noHtSet := f₄, noHtGfSet := f₅, ht20mhzSet := f₆ } with
    calls := s.joinCall k :: s.calls
    bss := htRefresh s.base.mlmepriv.htOption
      { b with
        numStaNoShortPreamble := n₁, numStaNonErp := n₂, numStaNoShortSlotTime := n₃
        numStaNoHt := n₄, numStaHtNoGf := n₅, numStaHt20mhz := n₆
        bcnUpdates := bcnEdges b e₁ e₂ e₃ ++ b.bcnUpdates } }

/-- `bss_cap_update_on_sta_leave`. -/
def bssCapUpdateOnStaLeave (s : Ap ι) (k : StaId) : Ap ι :=
  let st := s.sta k
  let b := s.bss
  let (f₁, n₁, e₁) := lowerFlag st.noShortPreambleSet b.numStaNoShortPreamble
  let (f₂, n₂, e₂) := lowerFlag st.nonerpSet b.numStaNonErp
  let (f₃, n₃, e₃) := lowerFlag st.noShortSlotTimeSet b.numStaNoShortSlotTime
  let (f₄, n₄, _) := lowerFlag st.noHtSet b.numStaNoHt
  let (f₅, n₅, _) := lowerFlag st.noHtGfSet b.numStaHtNoGf
  let (f₆, n₆, _) := lowerFlag st.ht20mhzSet b.numStaHt20mhz
  { s.updateSta k fun st =>
      { st with
        noShortPreambleSet := f₁, nonerpSet := f₂, noShortSlotTimeSet := f₃
        noHtSet := f₄, noHtGfSet := f₅, ht20mhzSet := f₆ } with
    bss := htRefresh s.base.mlmepriv.htOption
      { b with
        numStaNoShortPreamble := n₁, numStaNonErp := n₂, numStaNoShortSlotTime := n₃
        numStaNoHt := n₄, numStaHtNoGf := n₅, numStaHt20mhz := n₆
        bcnUpdates := bcnEdges b e₁ e₂ e₃ ++ b.bcnUpdates } }

/-- `ap_free_sta` up to the release of the record, without the block-ack agreements and the key
of the station. -/
def apLeave (s : Ap ι) (k : StaId) : Ap ι :=
  (s.updateSta k fun st => { st with state := st.state &&& ~~~fwLinkedBits }).bssCapUpdateOnStaLeave k

/-- `ap_free_sta`. -/
def apFreeSta (s : Ap ι) (k : StaId) : Ap ι := (s.apLeave k).rtwFreeStainfo k

/-- `rtw_access_ctrl`. -/
def rtwAccessCtrl (s : Ap ι) (mac : MacAddr) : Bool :=
  if s.aclMode = 1 then mac ∉ s.aclNodes
  else if s.aclMode = 2 then mac ∈ s.aclNodes
  else true

/-! ## Authentication -/

/-- The body `issue_auth` fills in for the station `st`. -/
def authBody (st : ApSta) (status : ℕ) : AuthBody where
  iv := none
  algorithm := if status = statsSuccessful then st.authalg % 2 ^ 16 else 0
  seq := st.authSeq % 2 ^ 16
  status := status
  challenge :=
    if st.authSeq = 2 ∧ hasBits st.state wifiFwAuthState ∧ status = statsSuccessful ∧
        st.authalg % 2 ^ 16 ≠ 0 then some st.chgTxt.toList
    else none

/-- `issue_auth` to the station at `hwaddr`. `xmit` says that `alloc_mgtxmitframe` has a
frame. -/
def issueAuth (s : Ap ι) (xmit : Bool) (hwaddr : MacAddr) (st : ApSta) (status : ℕ) : Ap ι :=
  if xmit then { s with authSent := (hwaddr, authBody st status) :: s.authSent } else s

/-- The label `auth_fail` of `OnAuth`. The answer comes from a record of zero bytes. -/
def authFail (s : Ap ι) (xmit : Bool) (k? : Option StaId) (sa : MacAddr) (status : ℕ) : Ap ι :=
  let s := match k? with
    | some k => s.rtwFreeStainfo k
    | none => s
  s.issueAuth xmit sa { initApSta with authSeq := 2 } status

/-- The end of `OnAuth` for a frame that was accepted. -/
def authAccept (s : Ap ι) (xmit : Bool) (k : StaId) (seq : ℕ) : Ap ι :=
  let s := (s.record .authAccept k).updateSta k fun st => { st with authSeq := seq + 1 }
  let s := s.issueAuth xmit (s.base.sta k).hwaddr (s.sta k) statsSuccessful
  if (s.sta k).authSuccess then s.updateSta k fun st => { st with authSeq := 0 } else s

/-- The authentication of the station is complete. -/
def authComplete (s : Ap ι) (k : StaId) (clr : BitVec 32) : Ap ι :=
  (s.updateSta k fun st =>
    { st with
      state := (st.state &&& ~~~clr) ||| wifiFwAuthSuccess
      expireTo := s.assocTo }).record .authDone k

/-- An authentication frame of a station with a record takes it off `asoc_list`. -/
def reauth (s : Ap ι) (k : StaId) : Ap ι :=
  let s := s.record .reauth k
  if k ∈ s.asocList then s.asocUnlink k else s

/-- The record for an authentication frame : the one that is there, or a new one. -/
def authStation (s : Ap ι) (sa : MacAddr) : Option StaId × Ap ι :=
  match s.base.rtwGetStainfo sa with
  | some k =>
    (some k, s.reauth k)
  | none =>
    match s.rtwAllocStainfo sa with
    | (none, s) => (none, s)
    | (some k, s) =>
      (some k, s.updateSta k fun st => { st with state := wifiFwAuthNull, authSeq := 0 })

/-- The challenge in frame 3 of a shared-key authentication. The text is looked for behind
the place of an IV, and 128 bytes of it are compared. -/
def authChallenge (s : Ap ι) (xmit : Bool) (k : StaId) (sa : MacAddr) (f : RecvFrame) : Ap ι :=
  match rtwGetIe f.mem (f.rxData + wlanHdrA3Len + 4 + authIeOffset) chlgetxtIe
      ((f.len : ℤ) - wlanHdrA3Len - authIeOffset - 4) with
  | none => s.authFail xmit (some k) sa statsChallengeFail
  | some (p, ieLen) =>
    if ieLen = 0 then s.authFail xmit (some k) sa statsChallengeFail
    else if f.mem.read (p + 2) 128 = (s.sta k).chgTxt.toList then
      (s.authComplete k wifiFwAuthState).authAccept xmit k 3
    else s.authFail xmit (some k) sa statsChallengeFail

/-- `OnAuth` from the place on where the record of the station is known. -/
def authExchange (s : Ap ι) (xmit : Bool) (k : StaId) (sa : MacAddr) (f : RecvFrame)
    (algorithm seq authMode : ℕ) : Ap ι :=
  let s := if k ∈ s.authList then s else s.authLink k
  let s :=
    if (s.sta k).authSeq = 0 then s.updateSta k fun st => { st with expireTo := s.authTo } else s
  if (s.sta k).authSeq + 1 ≠ seq then s.authFail xmit (some k) sa statsOutOfAuthSeq
  else if algorithm = 0 ∧ (authMode = 0 ∨ authMode = 2) then
    if seq = 1 then
      ((s.authComplete k wifiFwAuthNull).updateSta k fun st =>
        { st with authalg := algorithm }).authAccept xmit k seq
    else s.authFail xmit (some k) sa statsOutOfAuthSeq
  else if seq = 1 then
    (s.updateSta k fun st =>
      { st with
        state := (st.state &&& ~~~wifiFwAuthNull) ||| wifiFwAuthState
        authalg := algorithm, authSeq := 2 }).authAccept xmit k seq
  else if seq = 3 then s.authChallenge xmit k sa f
  else s.authFail xmit (some k) sa statsOutOfAuthSeq

/-- `OnAuth`. The algorithm and the sequence number are read behind the header. -/
def onAuth (s : Ap ι) (xmit : Bool) (f : RecvFrame) : Ap ι :=
  if s.base.mlmeext.state &&& 0x03 ≠ wifiFwApState then s
  else
    let sa := macAt f.mem (getAddr2Ptr f.rxData)
    let seq := f.mem.le16 (f.rxData + wlanHdrA3Len + 2)
    let algorithm := f.mem.le16 (f.rxData + wlanHdrA3Len)
    let sec := s.base.securitypriv
    let authMode :=
      if sec.dot11AuthAlgrthm.toNat = 2 ∧ sec.dot11PrivacyAlgrthm ≠ .wep40 ∧
          sec.dot11PrivacyAlgrthm ≠ .wep104 then 0
      else sec.dot11AuthAlgrthm.toNat
    if 0 < algorithm ∧ authMode = 0 ∨ algorithm = 0 ∧ authMode = 1 then
      s.authFail xmit none sa statsNoSuppAlg
    else if ¬ s.rtwAccessCtrl sa then s.authFail xmit none sa statsUnableHandleSta
    else
      match s.authStation sa with
      | (none, s) => s.authFail xmit none sa statsUnableHandleSta
      | (some k, s) => s.authExchange xmit k sa f algorithm seq authMode

/-! ## Association -/

/-- An association request, with what the checks on its elements find. -/
structure AssocReq where
  addr2 : MacAddr
  /-- The frame is shorter than its fixed fields. -/
  tooShort : Bool
  /-- The capability field. -/
  capabInfo : BitVec 16
  /-- The elements can be parsed, and the SSID, the rates and the RSN, WPA and WPS elements
  are accepted. -/
  elemsOk : Bool
  /-- The QoS info field of the WMM element. -/
  wmm : Option UInt8
  /-- The supported rates. -/
  rates : List UInt8
  /-- The capability info field of the HT element. -/
  htCap : Option (BitVec 16)
  /-- The P2P element is accepted. -/
  p2pOk : Bool

/-- The label `OnAssocReqFail`. -/
def assocReqFail (s : Ap ι) (k : StaId) : Ap ι :=
  { s.updateSta k fun st => { st with aid := 0 } with
    calls := { s.callOf .reject k with stale := !(s.sta k).countedRight } :: s.calls }

/-- `uapsd_*` for one bit of the QoS info field. -/
def uapsdOf (qosInfo : UInt8) (i : ℕ) : UInt8 := if qosInfo.toNat.testBit i then 3 else 0

/-- The WMM element sets the delivery of buffered frames. -/
def parseWmm (s : Ap ι) (k : StaId) (wmm : Option UInt8) : Ap ι :=
  let wmm := if s.base.mlmepriv.qosOption then wmm else none
  let qosInfo := wmm.getD 0
  { s with base := s.base.updateSta k fun st => { st with qosOption := wmm.isSome } }.updateSta k
    fun st =>
      { st with
        qosInfo := qosInfo
        hasLegacyAc := qosInfo &&& 0xf ≠ 0xf
        uapsdVo := uapsdOf qosInfo 0, uapsdVi := uapsdOf qosInfo 1
        uapsdBk := uapsdOf qosInfo 2, uapsdBe := uapsdOf qosInfo 3 }

/-- The record keeps the HT capabilities. -/
def parseHt (s : Ap ι) (k : StaId) (htCap : Option (BitVec 16)) : Ap ι :=
  s.updateSta k fun st => { st with ht := htCap.isSome, htCapInfo := htCap.getD 0 }

/-- The record keeps whether there are ERP rates and short preambles. -/
def parseRates (s : Ap ι) (k : StaId) (rates : List UInt8) : Ap ι :=
  s.updateSta k fun st =>
    { st with
      nonErp := rates.all fun rate => rate &&& 0x7f ≤ 22
      shortPreamble := st.capability &&& wlanCapabilityShortPreamble ≠ 0 }

/-- The station is associated : its state, the lists, and `sta_info_update`. -/
def assocListed (s : Ap ι) (k : StaId) : Ap ι :=
  let s := s.updateSta k fun st =>
    { st with
      state := ((st.state &&& ~~~wifiFwAssocState) ||| wifiFwAssocSuccessBits) ||| fwLinkedBits }
  let s := { s with
    base := s.base.updateSta k fun st =>
      { st with ieee8021xBlocked := s.base.securitypriv.dot11AuthAlgrthm = AuthAlgrthm.ieee8021X } }
  let s := if k ∈ s.authList then s.authUnlink k else s
  if k ∈ s.asocList then s
  else (s.updateSta k fun st => { st with expireTo := s.expireTo }).asocLink k

/-- The station is associated and counted. -/
def assocDone (s : Ap ι) (k : StaId) : Ap ι := (s.assocListed k).bssCapUpdateOnStaJoin k

/-- The first free id, `NUM_STA + 1` if there is none. -/
def freeAid (s : Ap ι) : ℕ := (List.range numSta).findIdx (fun i => (s.staAid i).isNone) + 1

/-- The station keeps its id or gets a free one. -/
def assignAid (s : Ap ι) (k : StaId) : Ap ι :=
  if 0 < (s.sta k).aid then s.assocDone k
  else if s.maxNumSta.val < s.freeAid then s.assocReqFail k
  else
    ({ s with staAid := Function.update s.staAid (s.freeAid - 1) (some k) }.updateSta k fun st =>
      { st with aid := s.freeAid }).assocDone k

/-- `OnAssocReq` from the place on where the station is known to be authenticated or
associated : the request uses up the authentication or the association. -/
def assocStart (s : Ap ι) (k : StaId) : Ap ι :=
  let clr := if (s.sta k).authSuccess then wifiFwAuthSuccess else wifiFwAssocSuccessBits
  (s.record .assocReq k).updateSta k fun st =>
    { st with state := (st.state &&& ~~~clr) ||| wifiFwAssocState }

/-- `OnAssocReq`. -/
def onAssocReq (s : Ap ι) (r : AssocReq) : Ap ι :=
  if s.base.mlmeext.state &&& 0x03 ≠ wifiFwApState ∨ r.tooShort then s
  else
    match s.base.rtwGetStainfo r.addr2 with
    | none => s
    | some k =>
      let st := s.sta k
      if ¬ st.authSuccess ∧ ¬ st.assocSuccess then s.record .assocReq k
      else
        let s := (s.assocStart k).updateSta k fun st => { st with capability := r.capabInfo }
        if ¬ r.elemsOk then s.assocReqFail k
        else
          let s := (s.parseWmm k r.wmm).parseHt k r.htCap
          if r.htCap.isSome ∧ ¬ s.base.mlmepriv.htOption then s.assocReqFail k
          else
            let s := s.parseRates k r.rates
            if ¬ r.p2pOk then s.assocReqFail k else s.assignAid k

/-- `OnDeAuth` and `OnDisassoc` of an access point, for a frame with its BSSID. -/
def onDeAuth (s : Ap ι) (addr2 : MacAddr) : Ap ι :=
  if ¬ checkFwstate s.base.mlmepriv.fwState wifiApState then s
  else
    match s.base.rtwGetStainfo addr2 with
    | none => s
    | some k =>
      if k ∈ s.asocList then (s.asocUnlink k).apFreeSta k else s

end Ap

end Rtl8188eu
