import Rtl8188eu.Wifi

/-!
# The adapter

The data of `struct adapter` that the receive path, the block-ack code and the transmit
path read and write : the station table, the security state, the pool of receive frames
with the lists they are linked on, and what has been handed to the network stack.

A receive frame is named by an element of `ι`. The pool of the driver is `Fin 256`
(`NR_RECVFRAME`). Results that do not depend on the size of the pool keep `ι` arbitrary.
A station is a slot of the table of `NUM_STA` stations (`StaId`), and a
`recv_reorder_ctrl` is a station with a TID. The lists a frame can be on are the list
heads `Queue`, and `Adapter.queue` gives the frames linked on each.
-/

namespace Rtl8188eu

/-- `NR_RECVFRAME`, the number of receive frames. -/
def nrRecvframe : ℕ := 256

/-- A slot of the station table (`NUM_STA` of them). -/
abbrev StaId := Fin 32

instance (priority := 2000) lawfulBEq_staId : LawfulBEq StaId := inferInstance

/-- A key or a MIC key (`union Keytype`). -/
abbrev Key := Vector UInt8 16

/-! ## Enumerations -/

/-- The privacy algorithms of `rtw_security.h`. -/
inductive PrivacyAlgrthm
  | noPrivacy | wep40 | tkip | tkipWtmic | aes | wep104 | sms4 | wepWpaMixed
  deriving DecidableEq, Repr

/-- The authentication algorithms `dot11AuthAlgrthm_*`. -/
inductive AuthAlgrthm
  | openSystem | shared | ieee8021X | auto | wapi
  deriving DecidableEq, Repr

/-- `_SUCCESS`, `_FAIL` and `RTW_RX_HANDLED`. -/
inductive Status
  | success | fail | rxHandled
  deriving DecidableEq, Repr

/-- `enum ht_cap_ampdu_factor`. -/
inductive HtCapAmpduFactor
  | factor8K | factor16K | factor32K | factor64K
  deriving DecidableEq, Repr

/-! ## Driver states -/

/-- `_FW_LINKED` (`WIFI_ASOC_STATE`). -/
def fwLinked : ℕ := 0x00000001
/-- `WIFI_STATION_STATE`. -/
def wifiStationState : ℕ := 0x00000008
/-- `WIFI_AP_STATE`. -/
def wifiApState : ℕ := 0x00000010
/-- `WIFI_ADHOC_STATE`. -/
def wifiAdhocState : ℕ := 0x00000020
/-- `WIFI_ADHOC_MASTER_STATE`. -/
def wifiAdhocMasterState : ℕ := 0x00000040
/-- `_FW_UNDER_LINKING`. -/
def fwUnderLinking : ℕ := 0x00000080
/-- `WIFI_MP_STATE`. -/
def wifiMpState : ℕ := 0x00010000
/-- `WIFI_MP_LPBK_STATE`. -/
def wifiMpLpbkState : ℕ := 0x00400000

/-- `NR_XMITFRAME`. -/
def nrXmitframe : ℕ := 256

/-- `WIFI_FW_AP_STATE`, a value of the two low bits of `mlmext_info.state`. -/
def wifiFwApState : ℕ := 0x03
/-- `WIFI_FW_ASSOC_SUCCESS`. -/
def wifiFwAssocSuccess : ℕ := 0x00004000

/-! ## Stations -/

/-- `struct recv_reorder_ctrl`, without its pending list (`Queue.pending`). -/
structure RecvReorderCtrl where
  enable : Bool
  /-- The start of the window, `0xffff` before the first frame. -/
  indicateSeq : ℕ
  /-- The size of the window. -/
  wsizeB : ℕ
  deriving DecidableEq, Repr

/-- The fields of `struct ht_priv` about transmit aggregation. -/
structure HtPriv where
  htOption : Bool
  ampduEnable : Bool
  /-- One bit for each TID with an agreement. -/
  aggEnableBitmap : BitVec 8
  /-- One bit for each TID with a request on its way. -/
  candidateTidBitmap : BitVec 8
  deriving DecidableEq, Repr

/-- `struct sta_info`, without its lists of frames. -/
structure StaInfo where
  hwaddr : MacAddr
  qosOption : Bool
  ieee8021xBlocked : Bool
  dot118021XPrivacy : PrivacyAlgrthm
  dot11tkiptxmickey : Key
  dot11tkiprxmickey : Key
  dot118021xUncstKey : Key
  /-- The packet number of the next unicast frame. -/
  dot11txpn : UInt64
  recvreorderCtrl : Fin 16 → RecvReorderCtrl
  baStartingSeqctrl : Fin 16 → ℕ
  htpriv : HtPriv
  txseqTid : Fin 16 → ℕ
  /-- The sequence-control field of the last frame of each TID (`stainfo_rxcache`). -/
  tidRxseq : Fin 16 → ℕ

/-- Change the reorder control of a TID. -/
def StaInfo.updateReorder (st : StaInfo) (tid : Fin 16)
    (f : RecvReorderCtrl → RecvReorderCtrl) : StaInfo :=
  { st with
    recvreorderCtrl := Function.update st.recvreorderCtrl tid (f (st.recvreorderCtrl tid)) }

/-! ## Security -/

/-- The fields of `struct security_priv` that the data paths use. -/
structure SecurityPriv where
  dot11AuthAlgrthm : AuthAlgrthm
  dot11PrivacyAlgrthm : PrivacyAlgrthm
  /-- The WEP key used to transmit. -/
  dot11PrivacyKeyIndex : Fin 4
  dot11DefKey : Fin 4 → Key
  dot11DefKeylen : Fin 4 → ℕ
  dot118021XGrpPrivacy : PrivacyAlgrthm
  /-- The group key used to transmit. -/
  dot118021XGrpKeyid : Fin 4
  dot118021XGrpKey : Fin 4 → Key
  dot118021XGrptxmickey : Fin 4 → Key
  dot118021XGrprxmickey : Fin 4 → Key
  binstallGrpkey : Bool
  busetkipkey : Bool
  bcheckGrpkey : Bool
  swEncrypt : Bool
  swDecrypt : Bool
  hwDecrypted : Bool
  /-- The authentication mode set from user space (`NDIS_802_11_AUTHENTICATION_MODE`). -/
  ndisauthtype : ℕ

/-- `Ndis802_11AuthModeWPAPSK`. -/
def ndis80211AuthModeWPAPSK : ℕ := 4

/-! ## Connection management -/

/-- `struct ADDBA_request`. The struct starts with an action code, which is not part of
the frame body it is copied from. -/
structure AddbaRequest where
  actionCode : UInt8
  dialogToken : UInt8
  baParaSet : ℕ
  baTimeoutValue : ℕ
  baStartingSeqctrl : ℕ
  deriving DecidableEq, Repr

/-- The fields of `struct mlme_priv` that the data paths use. -/
structure MlmePriv where
  fwState : ℕ
  /-- `cur_network.network.MacAddress`. -/
  curBssid : MacAddr
  /-- `htpriv.ht_option`. -/
  htOption : Bool
  /-- `qospriv.qos_option`. -/
  qosOption : Bool

/-- The fields of `struct mlme_ext_priv` and `struct mlme_ext_info` that the block-ack
code uses. -/
structure MlmeExtPriv where
  mgntSeq : ℕ
  state : ℕ
  htEnable : Bool
  bAcceptAddbaReq : Bool
  addbaReq : AddbaRequest
  dialogToken : UInt8
  /-- `network.MacAddress`, as `get_my_bssid` reads it. -/
  bssid : MacAddr

/-! ## Receive frames -/

/-- The fields of `struct rx_pkt_attrib` that the receive path uses. -/
structure RxPktAttrib where
  hdrlen : ℕ
  toFrDs : Fin 4
  amsdu : Bool
  qos : Bool
  priority : Fin 16
  seqNum : ℕ
  fragNum : ℕ
  mfrag : Bool
  order : Bool
  privacy : Bool
  bdecrypted : Bool
  encrypt : PrivacyAlgrthm
  ivLen : ℕ
  icvLen : ℕ
  dst : MacAddr
  src : MacAddr
  ta : MacAddr
  ra : MacAddr
  bssid : MacAddr
  keyIndex : Fin 4

/-- `struct recv_frame`. The pointers are addresses in the frame's own buffer. -/
structure RecvFrame where
  /-- The frame owns an `sk_buff`. -/
  pkt : Bool
  attrib : RxPktAttrib
  len : ℕ
  rxHead : ℤ
  rxData : ℤ
  rxTail : ℤ
  rxEnd : ℤ
  /-- The buffer of the `sk_buff`. -/
  mem : Mem
  /-- The reorder control of the frame, a station and a TID. -/
  preorderCtrl : StaId × Fin 16

/-- The list heads a receive frame can be linked on. -/
inductive Queue
  | freeRecv
  | ucSwdecPending
  | defrag (psta : StaId)
  | pending (psta : StaId) (tid : Fin 16)
  deriving DecidableEq, Repr, Fintype

/-- Where a packet leaves the receive path. -/
inductive Sink
  /-- `netif_rx`. -/
  | stack
  /-- `rtw_xmit_entry`, for a packet an access point relays. -/
  | relay
  deriving DecidableEq, Repr

/-- A packet handed up, with the frame it came from, the transmitter of the frame, and
whether the port of the transmitter was blocked at that time. -/
structure Indication (ι : Type) where
  frame : ι
  sink : Sink
  ta : MacAddr
  blocked : Bool
  bytes : List UInt8

/-- A frame taken from the free queue or returned to it. -/
inductive PoolEvent (ι : Type)
  | alloc (f : ι)
  | free (f : ι)
  deriving DecidableEq, Repr

/-! ## The adapter -/

/-- The state of the driver. -/
structure Adapter (ι : Type) where
  /-- `eeprompriv.mac_addr`, the own address. -/
  macAddr : MacAddr
  /-- `registrypriv.mp_mode == 1`. -/
  mpMode : Bool
  /-- `registrypriv.ampdu_amsdu`. -/
  ampduAmsdu : ℕ
  /-- `HW_VAR_MAX_RX_AMPDU_FACTOR`. -/
  maxRxAmpduFactor : HtCapAmpduFactor
  bDriverStopped : Bool
  bSurpriseRemoved : Bool
  mlmepriv : MlmePriv
  mlmeext : MlmeExtPriv
  securitypriv : SecurityPriv
  sta : StaId → StaInfo
  staHash : Fin 32 → List StaId
  freeStaQueue : List StaId
  recvframe : ι → RecvFrame
  queue : Queue → List ι
  freeRecvframeCnt : ℕ
  /-- The static buffer `message` of `aes_decipher`. -/
  aesMessage : Mem
  /-- The management frames sent (`dump_mgntframe`), the first one first. -/
  mgntSent : List (List UInt8)
  /-- The answers of the memory allocator to the next requests. -/
  memAvail : ℕ → Bool
  /-- The frames given to `rtw_recv_indicatepkt` or `amsdu_to_msdu` so far, the first one
  first. -/
  handedUp : List ι
  /-- The packets handed up so far, the first one first. -/
  indications : List (Indication ι)
  /-- The frames taken from and returned to the pool so far, the first one first. -/
  poolLog : List (PoolEvent ι)

variable {ι : Type}

/-- `check_fwstate`. -/
def checkFwstate (fwState state : ℕ) : Bool := fwState &&& state ≠ 0

/-- `wifi_mac_hash`. -/
def wifiMacHash (mac : MacAddr) : Fin 32 :=
  let x := mac[0].toNat
  let x := (x <<< 2) ^^^ mac[1].toNat
  let x := (x <<< 2) ^^^ mac[2].toNat
  let x := (x <<< 2) ^^^ mac[3].toNat
  let x := (x <<< 2) ^^^ mac[4].toNat
  let x := (x <<< 2) ^^^ mac[5].toNat
  Fin.ofNat 32 ((x ^^^ (x >>> 8)) &&& 31)

namespace Adapter

/-- `rtw_get_stainfo`. A group address stands for the broadcast station. -/
def rtwGetStainfo (s : Adapter ι) (hwaddr : MacAddr) : Option StaId :=
  let addr := if isMcast hwaddr then bcAddr else hwaddr
  (s.staHash (wifiMacHash addr)).find? fun k => (s.sta k).hwaddr = addr

/-- `rtw_get_bcmc_stainfo`. -/
def rtwGetBcmcStainfo (s : Adapter ι) : Option StaId := s.rtwGetStainfo bcAddr

/-- Change the record of one station. -/
def updateSta (s : Adapter ι) (k : StaId) (f : StaInfo → StaInfo) : Adapter ι :=
  { s with sta := Function.update s.sta k (f (s.sta k)) }

/-- Change the record of one receive frame. -/
def updateFrame [DecidableEq ι] (s : Adapter ι) (f : ι) (g : RecvFrame → RecvFrame) :
    Adapter ι :=
  { s with recvframe := Function.update s.recvframe f (g (s.recvframe f)) }

@[simp] theorem recvframe_updateFrame [DecidableEq ι] (s : Adapter ι) (f : ι)
    (g : RecvFrame → RecvFrame) :
    (s.updateFrame f g).recvframe = Function.update s.recvframe f (g (s.recvframe f)) := rfl

/-- Ask the memory allocator once. -/
def takeMem (s : Adapter ι) : Bool × Adapter ι :=
  (s.memAvail 0, { s with memAvail := fun n => s.memAvail (n + 1) })

/-- The port of the station with address `ta` is blocked. -/
def portBlocked (s : Adapter ι) (ta : MacAddr) : Bool :=
  (s.rtwGetStainfo ta).any fun k => (s.sta k).ieee8021xBlocked

end Adapter

end Rtl8188eu
