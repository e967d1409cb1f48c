import Rtl8188eu.ClientJoin
import Rtl8188eu.ElementParser
import Rtl8188eu.MgntXmit

/-!
# Arrays that received elements are copied to

The handlers of management frames copy rates, challenge texts and HT capabilities from the elements
of a frame to arrays of 13 to 128 bytes, by the length byte of the element. A handler of this part
is the list of its writes to these arrays (`ArrayWrite`), in the order of the source.

`RxHandler.inside_iff` : none of the writes of a handler is behind its array exactly if the frame
carries no more bytes than the array has. `OnAssocReq` compares the number of the rates with the
array, but behind their copy, so the comparison makes no difference (`inside_copyRates`). The writes
of `OnAuthClient` and `OnAssocRsp` are what the two do to the memory of a client
(`tail_onAuthClient`, `tail_onAssocRsp`).
-/

namespace Rtl8188eu

/-! ## Arrays -/

/-- `NumRates`. -/
def numRates : ℕ := 13
/-- `NDIS_802_11_LENGTH_RATES_EX`. -/
def ndisLengthRatesEx : ℕ := 16
/-- `IBSS_START_MAC_ID`. -/
def ibssStartMacId : ℕ := 2
/-- `WIFI_ASSOCREQ`. -/
def wifiAssocreq : ℕ := 0
/-- `_ASOCREQ_IE_OFFSET_`. -/
def asocreqIeOffset : ℕ := 4
/-- `_REASOCREQ_IE_OFFSET_`. -/
def reasocreqIeOffset : ℕ := 10

/-- The arrays that are written. -/
inductive FixedArray where
  /-- `supportRate` of `OnAssocReq`. -/
  | supportRate
  /-- `bssrateset` of the station. -/
  | bssrateset
  /-- `SupportedRates` of the entry `camIdx` of `FW_sta_info`. -/
  | fwSupportedRates (camIdx : ℕ)
  /-- `supportedrates` of `get_rate_set`. -/
  | supportedrates
  /-- `sta_bssrate` of `issue_assocreq`. -/
  | staBssrate
  /-- `bssrate` of `issue_assocreq`. -/
  | bssrate
  /-- `chg_txt`. -/
  | chgTxt
  /-- `HT_caps`. -/
  | htCap

namespace FixedArray

/-- The size. `FW_sta_info` has `NUM_STA` entries. -/
def size : FixedArray → ℕ
  | supportRate | bssrateset => 16
  | fwSupportedRates camIdx => if camIdx < numSta then ndisLengthRatesEx else 0
  | supportedrates | staBssrate | bssrate => numRates
  | chgTxt => chgTxtLen
  | htCap => 26

/-- The place of the two arrays of `struct mlme_ext_info`, counted from `chg_txt`. -/
def base (L : InfoLayout) : FixedArray → ℕ
  | htCap => L.htCaps
  | _ => 0

end FixedArray

/-- Bytes are written `off` bytes behind the start of an array. -/
structure ArrayWrite where
  arr : FixedArray
  off : ℕ
  bytes : List UInt8

namespace ArrayWrite

/-- The write ends inside the array. -/
def Inside (w : ArrayWrite) : Prop := w.off + w.bytes.length ≤ w.arr.size

instance (w : ArrayWrite) : Decidable w.Inside := inferInstanceAs (Decidable (_ ≤ _))

theorem inside_nil_iff {P : Prop} (h : P) : (∀ w ∈ ([] : List ArrayWrite), w.Inside) ↔ P :=
  iff_of_true (fun _ h => absurd h List.not_mem_nil) h

/-- The write to the memory from `chg_txt` on. -/
def perform (L : InfoLayout) (t : Mem) (w : ArrayWrite) : Mem := t.write (w.arr.base L + w.off) w.bytes

end ArrayWrite

/-! ## The rates of a frame -/

/-- The bodies of the element with the supported rates and of the one with the extended rates. -/
structure RateIes where
  rates : List UInt8
  ext : Option (List UInt8)

/-- All rates. -/
def RateIes.all (ies : RateIes) : List UInt8 := ies.rates ++ ies.ext.getD []

/-- The elements that `rtw_get_ie` finds in an area. -/
def rateIes (m : Mem) (p limit : ℤ) : Option RateIes :=
  (rtwGetIe m p supportedratesIe limit).map fun r =>
    ⟨m.read (r.1 + 2) r.2, (rtwGetIe m p extSupportedratesIe limit).map fun r => m.read (r.1 + 2) r.2⟩

/-- The rates are copied, and the extended rates behind them, in `OnAssocReq` only if the number of
the rates is not above the size of the array (`checked`). The result has the number of all rates. -/
def copyRates (arr : FixedArray) (checked : Bool) (ies : RateIes) : List ArrayWrite × ℕ :=
  let first : ArrayWrite := ⟨arr, 0, ies.rates⟩
  match ies.ext with
  | none => ([first], ies.rates.length)
  | some ext =>
    if checked && decide (arr.size < ies.rates.length) then ([first], ies.rates.length)
    else ([first, ⟨arr, ies.rates.length, ext⟩], ies.rates.length + ext.length)

/-! ## `OnAssocReq` -/

/-- What `OnAssocReq` reads before the rates : the state, the SSID and the states of the stations.
`supportRate` is on the stack. -/
structure AssocReqEnv where
  state : ℕ
  ssid : List UInt8
  stainfo : MacAddr → Option (BitVec 32)
  stack : Mem

namespace AssocReqEnv

/-- `ie_offset`. -/
def ieOffset (rf : RecvFrame) : ℕ :=
  if getFrameSubType rf.mem rf.rxData = wifiAssocreq then asocreqIeOffset else reasocreqIeOffset

/-- The start of the elements. -/
def elems (rf : RecvFrame) : ℤ := rf.rxData + wlanHdrA3Len + ieOffset rf

/-- The limit of the searches. -/
def limit (rf : RecvFrame) : ℤ := rf.len - wlanHdrA3Len - ieOffset rf

/-- The check of the SSID. -/
def ssidOk (s : AssocReqEnv) (rf : RecvFrame) : Bool :=
  match rtwGetIe rf.mem (elems rf) ssidIe (limit rf) with
  | none => false
  | some (p, ieLen) =>
    decide (ieLen ≠ 0) && decide (rf.mem.read (p + 2) s.ssid.length = s.ssid) &&
      decide (ieLen = s.ssid.length)

/-- The elements can be parsed, and one of them is the SSID. -/
def parseOk (rf : RecvFrame) : Bool :=
  match rtwIeee80211ParseElems (rf.mem.read (elems rf) (rf.len - wlanHdrA3Len - ieOffset rf)) with
  | none => false
  | some (res, es) => decide (res ≠ .failed) && (es .ssid).isSome

/-- The request gets to the check of the rates. -/
def checksRates (s : AssocReqEnv) (rf : RecvFrame) : Bool :=
  decide (s.state &&& 0x03 = wifiFwApState) && decide (wlanHdrA3Len + ieOffset rf ≤ rf.len) &&
    (match s.stainfo (macAt rf.mem (getAddr2Ptr rf.rxData)) with
      | none => false
      | some st => hasBits st wifiFwAuthSuccess || hasBits st wifiFwAssocSuccessBits) &&
    parseOk rf && s.ssidOk rf

/-- `OnAssocReq`. The rates go through `supportRate` to the record of the station. -/
def onAssocReq (s : AssocReqEnv) (rf : RecvFrame) : List ArrayWrite :=
  if s.checksRates rf then
    match rateIes rf.mem (elems rf) (limit rf) with
    | none => []
    | some ies =>
      let (ws, supportRateNum) := copyRates .supportRate true ies
      let supportRate := ws.foldl (fun (m : Mem) w => m.write w.off w.bytes) s.stack
      ws ++ [⟨.bssrateset, 0, supportRate.read 0 supportRateNum⟩]
  else []

end AssocReqEnv

/-! ## `OnBeacon` in an ad-hoc network -/

/-- What `OnBeacon` reads before it calls `update_sta_support_rate` : the scan, the state, the
BSSID, whether a station is known, and `FW_sta_info[].status`. -/
structure Ibss where
  scanning : Bool
  state : BitVec 32
  bssid : MacAddr
  known : MacAddr → Bool
  status : ℕ → ℕ

namespace Ibss

/-- The loop of `allocate_fw_sta_entry`. -/
def allocateLoop (s : Ibss) : ℕ → ℕ → ℕ
  | 0, macId => macId
  | fuel + 1, macId => if s.status macId = 0 then macId else s.allocateLoop fuel (macId + 1)

/-- `allocate_fw_sta_entry`. -/
def allocateFwStaEntry (s : Ibss) : ℕ := s.allocateLoop (numSta - ibssStartMacId) ibssStartMacId

/-- The entry for the sender of a beacon, if it gets one. -/
def entryFor (s : Ibss) (rf : RecvFrame) : Option ℕ :=
  if s.scanning then none
  else if macAt rf.mem (getAddr3Ptr rf.rxData) ≠ s.bssid then none
  else if hasBits s.state wifiFwAuthNull then none
  else if s.state &&& 0x03 = wifiFwStationState && hasBits s.state wifiFwAssocSuccessBits then none
  else if s.state &&& 0x03 = wifiFwAdhocState then
    if s.known (macAt rf.mem (getAddr2Ptr rf.rxData)) then none
    else if s.allocateFwStaEntry = numSta then none else some s.allocateFwStaEntry
  else none

/-- `update_sta_support_rate`. -/
def updateStaSupportRate (m : Mem) (pvarIe varIeLen : ℤ) (camIdx : ℕ) : List ArrayWrite :=
  match rateIes m pvarIe varIeLen with
  | none => []
  | some ies => (copyRates (.fwSupportedRates camIdx) false ies).1

/-- `OnBeacon`. -/
def onBeacon (s : Ibss) (rf : RecvFrame) : List ArrayWrite :=
  match s.entryFor rf with
  | none => []
  | some camIdx =>
    updateStaSupportRate rf.mem (rf.rxData + wlanHdrA3Len + beaconIeOffset)
      (rf.len - wlanHdrA3Len - beaconIeOffset) camIdx

end Ibss

/-! ## `issue_assocreq` -/

/-- `ratetbl_val_2wifirate`. -/
def ratetblVal2wifirate (rate : UInt8) : UInt8 :=
  match (rate &&& 0x7f).toNat with
  | 0 => 0x02
  | 1 => 0x04
  | 2 => 0x0b
  | 3 => 0x16
  | 4 => 0x0c
  | 5 => 0x12
  | 6 => 0x18
  | 7 => 0x24
  | 8 => 0x30
  | 9 => 0x48
  | 10 => 0x60
  | 11 => 0x6c
  | _ => 0

/-- What `issue_assocreq` reads to find the common rates : the rates of the network, the tables of
the device, the channel, and what was in `sta_bssrate`. -/
structure JoinRates where
  supportedRates : ℕ → UInt8
  datarate : ℕ → UInt8
  basicrate : ℕ → UInt8
  curChannel : ℕ
  stack : ℕ → UInt8

namespace JoinRates

/-- `is_basicrate`. -/
def isBasicrate (e : JoinRates) (rate : UInt8) : Bool :=
  (List.range numRates).any fun i =>
    let val := e.basicrate i
    decide (val ≠ 0xff) && decide (val ≠ 0xfe) && decide (rate = ratetblVal2wifirate val)

/-- The loop of `ratetbl2rateset` over the table, with the next index. -/
def ratetbl2ratesetLoop (e : JoinRates) : List UInt8 → ℕ → List ArrayWrite
  | [], _ => []
  | rate :: rates, len =>
    if rate = 0xff then []
    else if rate = 0xfe then e.ratetbl2ratesetLoop rates len
    else
      let rate := ratetblVal2wifirate rate
      let rate := if e.isBasicrate rate then rate ||| basicRateMask else rate
      ⟨.supportedrates, len, [rate]⟩ :: e.ratetbl2ratesetLoop rates (len + 1)

/-- `ratetbl2rateset`. -/
def ratetbl2rateset (e : JoinRates) : List ArrayWrite :=
  e.ratetbl2ratesetLoop ((List.range numRates).map e.datarate) 0

/-- `get_rate_set` : the set of rates is copied to `sta_bssrate`. -/
def getRateSet (e : JoinRates) : List ArrayWrite :=
  e.ratetbl2rateset ++ [⟨.staBssrate, 0, e.ratetbl2rateset.flatMap ArrayWrite.bytes⟩]

/-- `sta_bssrate` and `sta_bssrate_len`, with the rest of what `issue_assocreq` reads. -/
def input (e : JoinRates) : AssocreqInput where
  supportedRates := e.supportedRates
  staBssrate := fun j => (e.ratetbl2rateset.flatMap ArrayWrite.bytes).getD j (e.stack j)
  staBssrateLen := e.ratetbl2rateset.length
  curChannel := e.curChannel

/-- The station has the rate. -/
def Has (e : JoinRates) (rate : UInt8) : Prop :=
  ∃ q ∈ e.input.staRates, rate ||| basicRateMask = q ||| basicRateMask

instance (e : JoinRates) (rate : UInt8) : Decidable (e.Has rate) := inferInstanceAs (Decidable (∃ _ ∈ _, _))

/-- The loop of `issue_assocreq` over the rates of the network. -/
def bssrateLoop (e : JoinRates) : ℕ → ℕ → ℕ → List ArrayWrite
  | 0, _, _ => []
  | fuel + 1, i, index =>
    if e.supportedRates i = 0 then []
    else if e.Has (e.supportedRates i) then
      ⟨.bssrate, index, [e.supportedRates i]⟩ :: e.bssrateLoop fuel (i + 1) (index + 1)
    else e.bssrateLoop fuel (i + 1) index

/-- `issue_assocreq`. -/
def issueAssocreq (e : JoinRates) : List ArrayWrite := e.getRateSet ++ e.bssrateLoop ndisLengthRatesEx 0 0

end JoinRates

/-! ## `OnAuthClient` and `OnAssocRsp` -/

namespace Client

/-- The writes of `OnAuthClient`. -/
def onAuthClientWrites (c : Client) (rf : RecvFrame) : List ArrayWrite :=
  if c.macAddr ≠ getDa rf.mem rf.rxData then []
  else if !hasBits c.state wifiFwAuthState then []
  else if authFrameStatus rf ≠ 0 then []
  else if authFrameSeq rf = 2 then
    if c.authAlgo = .shared then
      match challengeIe rf with
      | none => []
      | some (p, len) => [⟨.chgTxt, 0, rf.mem.read (p + 2) len⟩]
    else []
  else []

/-- The writes of `HT_caps_handler`. Every byte of `HT_caps` is read before it is written, so the
bytes of a loop are one write. -/
def htCapsWrites (L : InfoLayout) (c : Client) (m : Mem) (p : ℤ) : List ArrayWrite :=
  if !c.htOption then []
  else
    let w : ArrayWrite := ⟨.htCap, 0, (List.range (m (p + 1)).toNat).map fun i : ℕ =>
      htCapByte i (c.tail (L.htCaps + i)) (m (p + 2 + i))⟩
    let t := w.perform L c.tail
    [w, ⟨.htCap, 3, (List.range 16).map fun i : ℕ => t (L.htCaps + 3 + i) &&& mcsRate c.rfType1R i⟩]

/-- The writes of one round of the loop of `OnAssocRsp`. -/
def assocRspIeWrites (L : InfoLayout) (rf : RecvFrame) (c : Client) (i : ℕ) : List ArrayWrite :=
  if rf.mem (rf.rxData + i) = htCapabilityIe then c.htCapsWrites L rf.mem (rf.rxData + i) else []

/-- The writes of the loop of `OnAssocRsp`. -/
def assocRspIesWrites (L : InfoLayout) (rf : RecvFrame) : Client → List ℕ → List ArrayWrite
  | _, [] => []
  | c, i :: is => c.assocRspIeWrites L rf i ++ assocRspIesWrites L rf (assocRspIe L rf c i) is

/-- The client when `OnAssocRsp` comes to the elements : the id is stored. -/
def assocRspStored (c : Client) (rf : RecvFrame) : Client :=
  { c with tail := c.tail.write chgTxtLen (le16Bytes (assocRspAid rf)) }

/-- The writes of `OnAssocRsp`. -/
def onAssocRspWrites (L : InfoLayout) (c : Client) (rf : RecvFrame) : List ArrayWrite :=
  if c.acceptsAssocRsp rf then
    if assocRspStatus rf > 0 then [] else assocRspIesWrites L rf (c.assocRspStored rf) (assocRspIes rf)
  else []

end Client

/-! ## The rates -/

section Rates

variable {m : Mem} {p limit : ℤ} {arr : FixedArray} {checked : Bool} {ies : RateIes}

/-- The rates of an area are at most 16. -/
def RatesFit (m : Mem) (p limit : ℤ) : Prop := ∀ ies ∈ rateIes m p limit, ies.all.length ≤ 16

/-- The copies are inside the array exactly if it has room for all rates. The comparison makes no
difference. -/
theorem inside_copyRates : (∀ w ∈ (copyRates arr checked ies).1, w.Inside) ↔
    ies.all.length ≤ arr.size := by
  obtain ⟨rates, ext⟩ := ies
  unfold copyRates RateIes.all
  cases ext with
  | none => simp [ArrayWrite.Inside]
  | some ext =>
    dsimp only
    rw [Option.getD_some, List.length_append]
    split_ifs with hcheck
    · have hsize := of_decide_eq_true (Bool.and_eq_true_iff.mp hcheck).2
      rw [List.forall_mem_singleton, ArrayWrite.Inside]
      dsimp only
      omega
    · rw [List.forall_mem_cons, List.forall_mem_singleton, ArrayWrite.Inside, ArrayWrite.Inside]
      dsimp only
      omega

theorem copyRates_num (h : ies.all.length ≤ arr.size) :
    (copyRates arr checked ies).2 = ies.all.length := by
  obtain ⟨rates, ext⟩ := ies
  unfold copyRates RateIes.all at *
  cases ext with
  | none => simp
  | some ext =>
    dsimp only at *
    rw [Option.getD_some, List.length_append] at *
    have hsize : ¬arr.size < rates.length := by omega
    simp [hsize]

end Rates

/-- The writes of `OnAssocReq`, for a request that gets to the rates. -/
theorem inside_onAssocReq (s : AssocReqEnv) (rf : RecvFrame) : (∀ w ∈ s.onAssocReq rf, w.Inside) ↔
    (s.checksRates rf → RatesFit rf.mem (AssocReqEnv.elems rf) (AssocReqEnv.limit rf)) := by
  unfold AssocReqEnv.onAssocReq RatesFit
  split_ifs with hreach
  swap
  · exact ArrayWrite.inside_nil_iff fun h => absurd h hreach
  rw [imp_iff_right hreach]
  cases rateIes rf.mem (AssocReqEnv.elems rf) (AssocReqEnv.limit rf) with
  | none => exact ArrayWrite.inside_nil_iff (by simp)
  | some ies =>
    dsimp only
    rw [List.forall_mem_append, List.forall_mem_singleton, inside_copyRates]
    have hsome : (∀ ies' ∈ some ies, ies'.all.length ≤ 16) ↔ ies.all.length ≤ 16 := by simp
    rw [hsome]
    refine ⟨And.left, fun h => ⟨h, ?_⟩⟩
    -- the second copy is as long as the first ones together
    rw [ArrayWrite.Inside, copyRates_num h, Mem.length_read, zero_add]
    exact h

/-! ## The entry of an ad-hoc station -/

theorem allocateLoop_le (s : Ibss) : ∀ fuel macId : ℕ, s.allocateLoop fuel macId ≤ macId + fuel
  | 0, _ => le_rfl
  | fuel + 1, macId => by
    unfold Ibss.allocateLoop
    split_ifs
    · exact Nat.le_add_right macId (fuel + 1)
    · have hle := allocateLoop_le s fuel (macId + 1)
      omega

/-- An entry that is given to a sender is one of `FW_sta_info`. -/
theorem entryFor_lt {s : Ibss} {rf : RecvFrame} {camIdx : ℕ} (h : s.entryFor rf = some camIdx) :
    camIdx < numSta := by
  have hle : s.allocateFwStaEntry ≤ numSta := allocateLoop_le s _ _
  unfold Ibss.entryFor at h
  split_ifs at h with h1 h2 h3 h4 h5 h6 hfull
  cases h
  exact lt_of_le_of_ne hle hfull

/-- The writes of `OnBeacon`, for a sender that gets an entry. -/
theorem inside_onBeacon (s : Ibss) (rf : RecvFrame) : (∀ w ∈ s.onBeacon rf, w.Inside) ↔
    ((s.entryFor rf).isSome → RatesFit rf.mem (rf.rxData + wlanHdrA3Len + beaconIeOffset)
      (rf.len - wlanHdrA3Len - beaconIeOffset)) := by
  unfold Ibss.onBeacon
  cases hentry : s.entryFor rf with
  | none => exact ArrayWrite.inside_nil_iff fun h => absurd h Bool.false_ne_true
  | some camIdx =>
    rw [imp_iff_right Option.isSome_some]
    unfold Ibss.updateStaSupportRate RatesFit
    dsimp only
    cases rateIes rf.mem (rf.rxData + wlanHdrA3Len + beaconIeOffset)
      (rf.len - wlanHdrA3Len - beaconIeOffset) with
    | none => exact ArrayWrite.inside_nil_iff (by simp)
    | some ies =>
      have hsize : (FixedArray.fwSupportedRates camIdx).size = 16 := if_pos (entryFor_lt hentry)
      rw [inside_copyRates, hsize]
      simp

/-! ## The common rates -/

/-- Bytes that a loop writes one after another. -/
def byteWrites (arr : FixedArray) (off : ℕ) (bs : List UInt8) : List ArrayWrite :=
  bs.mapIdx fun j b => ⟨arr, off + j, [b]⟩

section ByteWrites

variable {arr : FixedArray} {off : ℕ} {b : UInt8} {bs : List UInt8}

theorem byteWrites_cons : byteWrites arr off (b :: bs) = ⟨arr, off, [b]⟩ :: byteWrites arr
    (off + 1) bs := by
  unfold byteWrites
  rw [List.mapIdx_cons]
  simp only [Nat.add_zero, Nat.add_assoc, Nat.add_comm 1]

theorem flatMap_byteWrites : ∀ {bs : List UInt8} {off : ℕ},
    (byteWrites arr off bs).flatMap ArrayWrite.bytes = bs
  | [], _ => rfl
  | b :: bs, off => by rw [byteWrites_cons, List.flatMap_cons, flatMap_byteWrites,
    List.singleton_append]

theorem inside_byteWrites : (∀ w ∈ byteWrites arr 0 bs, w.Inside) ↔ bs.length ≤ arr.size := by
  unfold byteWrites ArrayWrite.Inside
  simp only [List.mem_mapIdx, forall_exists_index]
  constructor
  · intro h
    rcases bs.eq_nil_or_concat with rfl | ⟨init, b, rfl⟩
    · exact Nat.zero_le _
    · have hlast := h _ init.length (by simp) rfl
      simpa using hlast
  · rintro h w j hj rfl
    simp only [zero_add, List.length_singleton]
    omega

end ByteWrites

namespace JoinRates

variable (e : JoinRates)

/-- Every rate of a table is at the next index. -/
theorem ratetbl2ratesetLoop_eq : ∀ (rates : List UInt8) (len : ℕ), ∃ bs : List UInt8,
    bs.length ≤ rates.length ∧ e.ratetbl2ratesetLoop rates len = byteWrites .supportedrates len bs
  | [], _ => ⟨[], le_rfl, rfl⟩
  | rate :: rates, len => by
    unfold ratetbl2ratesetLoop
    split_ifs
    · exact ⟨[], Nat.zero_le _, rfl⟩
    · obtain ⟨bs, hlen, heq⟩ := ratetbl2ratesetLoop_eq rates len
      exact ⟨bs, Nat.le_succ_of_le hlen, heq⟩
    all_goals
      obtain ⟨bs, hlen, heq⟩ := ratetbl2ratesetLoop_eq rates (len + 1)
      rw [heq]
      exact ⟨_ :: bs, Nat.succ_le_succ hlen, byteWrites_cons.symm⟩

theorem exists_rateset : ∃ bs : List UInt8, bs.length ≤ numRates ∧
    e.ratetbl2rateset = byteWrites .supportedrates 0 bs := by
  obtain ⟨bs, hlen, heq⟩ := e.ratetbl2ratesetLoop_eq ((List.range numRates).map e.datarate) 0
  rw [List.length_map, List.length_range] at hlen
  exact ⟨bs, hlen, heq⟩

/-- The set of rates of the station fits, whatever the tables are. -/
theorem inside_getRateSet : ∀ w ∈ e.getRateSet, w.Inside := by
  obtain ⟨bs, hlen, heq⟩ := e.exists_rateset
  unfold getRateSet
  rw [heq, flatMap_byteWrites]
  refine List.forall_mem_append.mpr ⟨inside_byteWrites.mpr hlen, List.forall_mem_singleton.mpr ?_⟩
  exact (Nat.zero_add _).trans_le hlen

/-- The rates that the loop of `issue_assocreq` comes to. -/
def networkRatesFrom (e : JoinRates) (fuel i : ℕ) : List UInt8 :=
  ((List.range' i fuel).map e.supportedRates).takeWhile (· ≠ 0)

/-- The loop of `issue_assocreq` writes the rates that the station has at one index after
another. -/
theorem bssrateLoop_eq : ∀ fuel i index : ℕ, e.bssrateLoop fuel i index =
    byteWrites .bssrate index ((e.networkRatesFrom fuel i).filter fun r => decide (e.Has r))
  | 0, _, _ => rfl
  | fuel + 1, i, index => by
    unfold bssrateLoop networkRatesFrom
    rw [List.range'_succ, List.map_cons]
    split_ifs with hzero hhas
    · rw [List.takeWhile_cons_of_neg (by simpa using hzero)]
      rfl
    · rw [List.takeWhile_cons_of_pos (by simpa using hzero),
        List.filter_cons_of_pos (by simpa using hhas),
        byteWrites_cons, bssrateLoop_eq fuel (i + 1) (index + 1)]
      rfl
    · rw [List.takeWhile_cons_of_pos (by simpa using hzero),
        List.filter_cons_of_neg (by simpa using hhas),
        bssrateLoop_eq fuel (i + 1) index]
      rfl

/-- How many of the rates of the network, up to the first zero, the station has. -/
def commonRates (e : JoinRates) : ℕ := e.input.networkRates.countP fun r => decide (e.Has r)

/-- The writes of `issue_assocreq`. -/
theorem inside_issueAssocreq : (∀ w ∈ e.issueAssocreq, w.Inside) ↔ e.commonRates ≤ numRates := by
  have hnet : e.networkRatesFrom ndisLengthRatesEx 0 = e.input.networkRates := by
    unfold networkRatesFrom AssocreqInput.networkRates
    rw [← List.range_eq_range']
    rfl
  unfold issueAssocreq commonRates
  rw [List.forall_mem_append, and_iff_right e.inside_getRateSet, bssrateLoop_eq,
    inside_byteWrites, hnet,
    List.countP_eq_length_filter]
  exact Iff.rfl

end JoinRates

/-! ## The challenge text -/

/-- The challenge text of a frame that `OnAuthClient` answers. -/
def Client.takesChallenge (c : Client) (rf : RecvFrame) : Prop :=
  c.macAddr = getDa rf.mem rf.rxData ∧ hasBits c.state wifiFwAuthState ∧ authFrameStatus rf = 0 ∧
    authFrameSeq rf = 2 ∧ c.authAlgo = .shared

namespace Client

/-- The writes of `OnAuthClient`, for a frame whose text it copies. -/
theorem inside_onAuthClient (c : Client) (rf : RecvFrame) :
    (∀ w ∈ c.onAuthClientWrites rf, w.Inside) ↔
    (c.takesChallenge rf → ∀ text ∈ challengeText rf, text.length ≤ chgTxtLen) := by
  unfold onAuthClientWrites takesChallenge
  split_ifs with hda hstate hstatus hseq halgo
  · exact ArrayWrite.inside_nil_iff fun h => absurd h.1 hda
  · exact ArrayWrite.inside_nil_iff fun h => absurd h.2.1 (by simpa using hstate)
  · exact ArrayWrite.inside_nil_iff fun h => absurd h.2.2.1 hstatus
  · rw [imp_iff_right ⟨not_not.mp hda, by simpa using hstate, not_not.mp hstatus, hseq, halgo⟩]
    unfold challengeText
    cases challengeIe rf with
    | none => exact ArrayWrite.inside_nil_iff (by simp)
    | some r =>
      rw [List.forall_mem_singleton, ArrayWrite.Inside, zero_add]
      simp [FixedArray.size]
  · exact ArrayWrite.inside_nil_iff fun h => absurd h.2.2.2.2 halgo
  · exact ArrayWrite.inside_nil_iff fun h => absurd h.2.2.2.1 hseq

/-- The writes change the memory as `OnAuthClient` does. -/
theorem tail_onAuthClient (L : InfoLayout) (c : Client) (rf : RecvFrame) :
    (c.onAuthClient rf).tail = (c.onAuthClientWrites rf).foldl (ArrayWrite.perform L) c.tail := by
  unfold onAuthClient onAuthClientWrites
  dsimp only [record]
  split_ifs
  · rfl
  · rfl
  · unfold authFailed
    split_ifs <;> rfl
  · cases challengeIe rf with
    | none => rfl
    | some r =>
      dsimp only
      rw [issueAuth_eq]
      rfl
  · unfold startClntAssoc
    dsimp only [record]
    rw [issueAssocreq_eq]
    rfl
  · unfold startClntAssoc
    dsimp only [record]
    rw [issueAssocreq_eq]
    rfl
  · rfl
  · rfl

end Client

/-! ## The HT capabilities -/

/-- The byte at an address behind a write of computed bytes. -/
theorem write_map_range (t : Mem) (p : ℤ) (n : ℕ) (f : ℕ → UInt8) (a : ℤ) :
    t.write p ((List.range n).map f) a = if p ≤ a ∧
      (a - p).toNat < n then f (a - p).toNat else t a := by
  have hlen : (((List.range n).map f).length : ℤ) = n := by rw [List.length_map, List.length_range]
  unfold Mem.write
  rw [hlen]
  split_ifs with h h' h'
  · rw [List.getD_eq_getElem?_getD, List.getElem?_map, List.getElem?_range h'.2]
    rfl
  · omega
  · omega
  · rfl

namespace Client

variable {L : InfoLayout} {c : Client} {m : Mem} {p : ℤ} {rf : RecvFrame}

/-- The writes of `HT_caps_handler`. -/
theorem inside_htCapsWrites :
    (∀ w ∈ c.htCapsWrites L m p, w.Inside) ↔ (c.htOption → (m (p + 1)).toNat ≤ 26) := by
  unfold htCapsWrites
  split_ifs with hoff
  · exact ArrayWrite.inside_nil_iff fun h => absurd h (by simpa using hoff)
  · have hon : c.htOption = true := by simpa using hoff
    rw [imp_iff_right hon]
    dsimp only
    rw [List.forall_mem_cons, List.forall_mem_singleton]
    simp [ArrayWrite.Inside, FixedArray.size]

/-- The writes change the memory as `HT_caps_handler` does. -/
theorem tail_htCapsHandler :
    (c.htCapsHandler L m p).tail = (c.htCapsWrites L m p).foldl (ArrayWrite.perform L) c.tail := by
  unfold htCapsHandler htCapsWrites
  split_ifs
  · rfl
  · -- the second write reads what the first one left
    have hfirst : c.tail.write (L.htCaps + (0 : ℕ)) ((List.range (m (p + 1)).toNat).map fun i : ℕ =>
        htCapByte i (c.tail (L.htCaps + i)) (m (p + 2 + i))) = fun a : ℤ =>
        if L.htCaps ≤ a ∧ (a - L.htCaps).toNat < (m (p + 1)).toNat then
          htCapByte (a - L.htCaps).toNat (c.tail a)
            (m (p + 2 + (a - L.htCaps).toNat)) else c.tail a := by
      funext a
      rw [Nat.cast_zero, add_zero, write_map_range]
      split_ifs with h
      · have ha : (L.htCaps : ℤ) + (a - L.htCaps).toNat = a := by omega
        rw [ha]
      · rfl
    simp only [List.foldl_cons, List.foldl_nil, ArrayWrite.perform, FixedArray.base]
    rw [hfirst]
    funext a
    rw [write_map_range, Nat.cast_ofNat]
    split_ifs with h h' h'
    · have ha : (L.htCaps : ℤ) + 3 + (a - (L.htCaps + 3)).toNat = a := by omega
      rw [ha]
      dsimp only
      rw [if_pos h']
    · have ha : (L.htCaps : ℤ) + 3 + (a - (L.htCaps + 3)).toNat = a := by omega
      rw [ha]
      dsimp only
      rw [if_neg h']
    · rfl
    · rfl

theorem assocRspIe_eq (L : InfoLayout) (rf : RecvFrame) (c : Client) (i : ℕ) :
    ∃ tail, assocRspIe L rf c i = { c with tail := tail } := foldl_assocRspIe_eq L rf [i] c

/-- The writes of the loop of `OnAssocRsp`. -/
theorem inside_assocRspIesWrites : ∀ {is : List ℕ} {c : Client},
    (∀ w ∈ assocRspIesWrites L rf c is, w.Inside) ↔ (c.htOption → ∀ i ∈ is,
      rf.mem (rf.rxData + i) = htCapabilityIe → (rf.mem (rf.rxData + i + 1)).toNat ≤ 26)
  | [], c => ArrayWrite.inside_nil_iff fun _ _ h => absurd h List.not_mem_nil
  | i :: is, c => by
    obtain ⟨tail, heq⟩ := assocRspIe_eq L rf c i
    have hopt : (assocRspIe L rf c i).htOption = c.htOption := by rw [heq]
    have hround : (∀ w ∈ c.assocRspIeWrites L rf i, w.Inside) ↔ (c.htOption →
        rf.mem (rf.rxData + i) = htCapabilityIe → (rf.mem (rf.rxData + i + 1)).toNat ≤ 26) := by
      unfold assocRspIeWrites
      split_ifs with hid
      · rw [inside_htCapsWrites, imp_iff_right hid]
      · exact ArrayWrite.inside_nil_iff fun _ h => absurd h hid
    rw [assocRspIesWrites, List.forall_mem_append, hround, inside_assocRspIesWrites, hopt,
      ← imp_and,
      List.forall_mem_cons]

/-- The writes of the loop change the memory as the loop of `OnAssocRsp` does. -/
theorem tail_assocRspIes : ∀ {is : List ℕ} {c : Client}, (is.foldl (assocRspIe L rf) c).tail =
    (assocRspIesWrites L rf c is).foldl (ArrayWrite.perform L) c.tail
  | [], _ => rfl
  | i :: is, c => by
    have hround : (assocRspIe L rf c i).tail =
        (c.assocRspIeWrites L rf i).foldl (ArrayWrite.perform L) c.tail := by
      unfold assocRspIe assocRspIeWrites
      split_ifs
      · exact tail_htCapsHandler
      · rfl
    rw [List.foldl_cons, tail_assocRspIes, hround, assocRspIesWrites, List.foldl_append]

/-- The writes of `OnAssocRsp`, for a response that is handled. -/
theorem inside_onAssocRsp (L : InfoLayout) (c : Client) (rf : RecvFrame) :
    (∀ w ∈ c.onAssocRspWrites L rf, w.Inside) ↔
      (c.acceptsAssocRsp rf → assocRspStatus rf = 0 → c.htOption → ∀ i ∈ assocRspIes rf,
        rf.mem (rf.rxData + i) = htCapabilityIe → (rf.mem (rf.rxData + i + 1)).toNat ≤ 26) := by
  unfold onAssocRspWrites
  split_ifs with hacc hstatus
  · exact ArrayWrite.inside_nil_iff fun _ h => absurd hstatus (by omega)
  · rw [imp_iff_right hacc, imp_iff_right (by omega), inside_assocRspIesWrites]
    rfl
  · exact ArrayWrite.inside_nil_iff fun h => absurd h hacc

/-- The writes, and the id, change the memory as `OnAssocRsp` does. -/
theorem tail_onAssocRsp (L : InfoLayout) (c : Client) (rf : RecvFrame) (hacc : c.acceptsAssocRsp rf)
    (hstatus : assocRspStatus rf = 0) : (c.onAssocRsp L rf).tail =
      (c.onAssocRspWrites L rf).foldl (ArrayWrite.perform L) (c.assocRspStored rf).tail := by
  have hno : ¬assocRspStatus rf > 0 := by omega
  unfold onAssocRsp onAssocRspRes onAssocRspWrites
  rw [if_pos hacc, if_pos hacc, if_neg hno, if_neg hno]
  exact tail_assocRspIes

end Client

/-! ## The handlers -/

open Client

/-- A handler with what it reads. -/
inductive RxHandler where
  /-- `OnAssocReq`. -/
  | onAssocReq (s : AssocReqEnv) (rf : RecvFrame)
  /-- `OnBeacon`. -/
  | onBeacon (s : Ibss) (rf : RecvFrame)
  /-- `issue_assocreq`, which answers an authentication frame. -/
  | issueAssocreq (e : JoinRates)
  /-- `OnAuthClient`. -/
  | onAuthClient (c : Client) (rf : RecvFrame)
  /-- `OnAssocRsp`. -/
  | onAssocRsp (L : InfoLayout) (c : Client) (rf : RecvFrame)

namespace RxHandler

/-- What it writes to the arrays. -/
def writes : RxHandler → List ArrayWrite
  | onAssocReq s rf => s.onAssocReq rf
  | onBeacon s rf => s.onBeacon rf
  | issueAssocreq e => e.issueAssocreq
  | onAuthClient c rf => c.onAuthClientWrites rf
  | onAssocRsp L c rf => c.onAssocRspWrites L rf

/-- No write is behind its array. -/
def Inside (k : RxHandler) : Prop := ∀ w ∈ k.writes, w.Inside

instance (k : RxHandler) : Decidable k.Inside := inferInstanceAs (Decidable (∀ _ ∈ _, _))

/-- The elements that the handler copies are not larger than the arrays : the rates and the extended
rates have 16 bytes at most, the station has 13 of the rates of the network at most, the text has
128 bytes at most, and an element with HT capabilities 26. -/
def Fits : RxHandler → Prop
  | onAssocReq s rf => s.checksRates rf → RatesFit rf.mem (AssocReqEnv.elems rf) (AssocReqEnv.limit rf)
  | onBeacon s rf => (s.entryFor rf).isSome → RatesFit rf.mem (rf.rxData + wlanHdrA3Len + beaconIeOffset)
      (rf.len - wlanHdrA3Len - beaconIeOffset)
  | issueAssocreq e => e.commonRates ≤ numRates
  | onAuthClient c rf => c.takesChallenge rf → ∀ text ∈ challengeText rf, text.length ≤ chgTxtLen
  | onAssocRsp _ c rf => c.acceptsAssocRsp rf → assocRspStatus rf = 0 → c.htOption → ∀ i ∈ assocRspIes rf,
      rf.mem (rf.rxData + i) = htCapabilityIe → (rf.mem (rf.rxData + i + 1)).toNat ≤ 26

/-- No write of a handler is behind its array exactly if the elements it copies fit. -/
theorem inside_iff (k : RxHandler) : k.Inside ↔ k.Fits := by
  cases k with
  | onAssocReq s rf => exact inside_onAssocReq s rf
  | onBeacon s rf => exact inside_onBeacon s rf
  | issueAssocreq e => exact e.inside_issueAssocreq
  | onAuthClient c rf => exact c.inside_onAuthClient rf
  | onAssocRsp L c rf => exact c.inside_onAssocRsp L rf

end RxHandler

/-- A management frame with the bytes `body` behind the header. -/
def sampleBody (body : List UInt8) : RecvFrame :=
  { initRecvframe with len := 24 + body.length, mem := Mem.write (fun _ => 0) 24 body }

/-- Seventeen rates in an association request for the network `a`. -/
def sampleRatesReq : RxHandler :=
  .onAssocReq ⟨0x03, [0x61], fun _ => some wifiFwAuthSuccess, fun _ => 0⟩
    (sampleBody ([0, 0, 0, 0, 0, 1, 0x61, 1, 17] ++ List.replicate 17 0x82))

/-- Seventeen rates in a beacon of an ad-hoc network. -/
def sampleRatesBeacon : RxHandler :=
  .onBeacon ⟨false, wifiFwAdhocState, zeroAddr, fun _ => false, fun _ => 0⟩
    (sampleBody (List.replicate 12 0 ++ [1, 17] ++ List.replicate 17 0x82))

/-- The rates of a network that sends one rate fourteen times. -/
def sampleJoinRates : JoinRates where
  supportedRates := fun i => if i < 14 then 0x82 else 0
  datarate := fun i => if i < 12 then UInt8.ofNat i else 0xff
  basicrate := fun i => if i < 5 then UInt8.ofNat i else 0xff
  curChannel := 1
  stack := fun _ => 0

/-- A challenge text of 129 bytes. -/
def sampleLongText : RxHandler :=
  .onAuthClient { Client.sample with state := wifiFwAuthState, authAlgo := .shared }
    (sampleBody ([1, 0, 2, 0, 0, 0, 16, 129] ++ List.replicate 129 1))

/-- HT capabilities of 27 bytes. -/
def sampleLongHt : RxHandler :=
  .onAssocRsp .lp64 { Client.sample with state := wifiFwAssocState, htOption := true }
    (sampleBody ([0, 0, 0, 0, 1, 0, 45, 27] ++ List.replicate 27 0))

/-- Each of the handlers writes behind an array. -/
theorem not_inside_samples : ¬sampleRatesReq.Inside ∧ ¬sampleRatesBeacon.Inside ∧
    ¬(RxHandler.issueAssocreq sampleJoinRates).Inside ∧ ¬sampleLongText.Inside ∧ ¬sampleLongHt.Inside := by
  refine ⟨?_, ?_, ?_, ?_, ?_⟩
  all_goals decide +kernel

end Rtl8188eu
