import Mathlib.Data.Nat.Bitwise
import Rtl8188eu.ClientJoin

/-!
# The result of a join in the upper layer

`report_join_res` hands the result of a join to `rtw_joinbss_event_prehandle` of
`core/rtw_mlme.c`, which looks for the network in the scan table, sets up the station
record of the access point and sets `_FW_LINKED`. The result is one signed number. It is
the association id when the access point accepted, and negative when the join failed.

The upper layer takes the join as done when the number is positive. An access point that
accepts with the id 0 leaves the lower half associated and the upper half not. So do a full
station table and an HT capability element that is long enough to reach
`InfrastructureMode` in `mlmext_info.network` (`linkAgrees_iff`).
-/

set_option linter.unusedSectionVars false

namespace Rtl8188eu

/-- `WIFI_UNDER_WPS`. -/
def wifiUnderWps : ℕ := 0x00000100
/-- `Ndis802_11IBSS`. -/
def ndis80211IBSS : ℕ := 0
/-- `Ndis802_11Infrastructure`. -/
def ndis80211Infrastructure : ℕ := 1

/-- `_clr_fwstate_`. -/
def clrFwstate (fwState state : ℕ) : ℕ := fwState.ldiff state

/-- The join event : what `report_join_res` copies of `mlmext_info.network`, as far as the
upper layer decides by it, and the result. -/
structure JoinEvent where
  macAddress : MacAddr
  infrastructureMode : ℕ
  ieLength : ℕ
  joinRes : ℤ

/-- The event about the network that the memory behind `chg_txt` describes. -/
def joinEvent (L : InfoLayout) (tail : Mem) (res : ℤ) : JoinEvent where
  macAddress := macAt tail L.macAddress
  infrastructureMode := Mem.le32 tail L.infrastructureMode
  ieLength := Mem.le32 tail L.ieLength
  joinRes := res

/-- A station : the client and the state of the upper layer. -/
structure Station (ι : Type) where
  client : Client
  adapter : Adapter ι
  /-- The addresses of the networks in `scanned_queue`. -/
  scannedQueue : List MacAddr
  /-- `securitypriv.wps_ie_len`. -/
  wpsIeLen : ℕ
  /-- `mlmepriv.htpriv.ampdu_enable`. -/
  ampduEnable : Bool

namespace Station

variable {ι : Type} [DecidableEq ι]

/-- `fw_state` of `mlme_priv`. -/
def fwState (s : Station ι) : ℕ := s.adapter.mlmepriv.fwState

/-- Change `fw_state`. -/
def setFwState (s : Station ι) (fwState : ℕ) : Station ι :=
  { s with adapter := { s.adapter with mlmepriv := { s.adapter.mlmepriv with fwState := fwState } } }

/-- `rtw_find_network` : the address is in the scan table. The zero address is never
found. -/
def rtwFindNetwork (s : Station ι) (addr : MacAddr) : Bool :=
  addr ≠ zeroAddr && addr ∈ s.scannedQueue

/-- `rtw_indicate_connect`. -/
def rtwIndicateConnect (s : Station ι) : Station ι :=
  if checkFwstate s.fwState fwLinked then s else s.setFwState (s.fwState ||| fwLinked)

/-- `rtw_reset_securitypriv`, without the PMK cache and the countermeasures. -/
def rtwResetSecuritypriv (sec : SecurityPriv) : SecurityPriv :=
  if sec.dot11AuthAlgrthm = .ieee8021X then { initSecurityPriv with dot118021XGrpKeyid := 0 }
  else
    { sec with
      dot11AuthAlgrthm := .openSystem
      dot11PrivacyAlgrthm := .noPrivacy
      dot11PrivacyKeyIndex := 0
      dot118021XGrpPrivacy := .noPrivacy
      dot118021XGrpKeyid := 1
      ndisauthtype := 0 }

/-- `rtw_joinbss_update_network`. The new value of `fw_state` has no `_FW_LINKED`. -/
def rtwJoinbssUpdateNetwork (s : Station ι) (ev : JoinEvent) : Station ι :=
  let fw :=
    if ev.infrastructureMode = ndis80211Infrastructure then
      if checkFwstate s.fwState wifiUnderWps then wifiStationState ||| wifiUnderWps
      else wifiStationState
    else if ev.infrastructureMode = ndis80211IBSS then wifiAdhocState
    else 0
  { s with
    adapter := { s.adapter with
      mlmepriv := { s.adapter.mlmepriv with fwState := fw, curBssid := ev.macAddress } } }

/-- `update_sta_info`. -/
def updateStaInfo (s : Station ι) (st : StaInfo) : StaInfo :=
  let ht := s.adapter.mlmepriv.htOption
  { st with
    htpriv := ⟨ht, ht && s.ampduEnable, 0, 0⟩
    qosOption := ht || s.adapter.mlmepriv.qosOption }

/-- What `rtw_joinbss_update_stainfo` does to the record of the access point. -/
def joinStainfo (s : Station ι) (st : StaInfo) : StaInfo :=
  let sec := s.adapter.securitypriv
  let st :=
    if sec.dot11AuthAlgrthm = .ieee8021X then
      { st with
        ieee8021xBlocked := true
        dot118021XPrivacy := sec.dot11PrivacyAlgrthm
        dot118021xUncstKey := zeroKey
        dot11tkiprxmickey := zeroKey
        dot11tkiptxmickey := zeroKey
        dot11txpn := 0 }
    else st
  let st := if s.wpsIeLen ≠ 0 then { st with ieee8021xBlocked := true } else st
  s.updateStaInfo { st with recvreorderCtrl := fun _ => initReorderCtrl }

/-- `rtw_joinbss_update_stainfo`. The result is null when the access point has no record
and the table is full. -/
def rtwJoinbssUpdateStainfo (s : Station ι) (ev : JoinEvent) : Option (Station ι) :=
  let (psta, a) :=
    match s.adapter.rtwGetStainfo ev.macAddress with
    | some psta => (some psta, s.adapter)
    | none => s.adapter.rtwAllocStainfo ev.macAddress
  match psta with
  | none => none
  | some psta =>
    let a := a.updateSta psta s.joinStainfo
    let a :=
      match a.rtwGetBcmcStainfo with
      | none => a
      | some k => a.updateSta k fun st => { st with recvreorderCtrl := fun _ => initReorderCtrl }
    let sec :=
      if a.securitypriv.dot11AuthAlgrthm = .ieee8021X then
        { a.securitypriv with binstallGrpkey := false, busetkipkey := false }
      else a.securitypriv
    some { s with adapter := { a with securitypriv := sec }, wpsIeLen := 0 }

/-- The record of the network that is left is freed. -/
def leaveCurrent (s : Station ι) (ev : JoinEvent) : Station ι :=
  if checkFwstate s.fwState fwLinked ∧ ev.macAddress ≠ s.adapter.mlmepriv.curBssid then
    match s.adapter.rtwGetStainfo s.adapter.mlmepriv.curBssid with
    | some pcur => { s with adapter := s.adapter.rtwFreeStainfo pcur }
    | none => s
  else s

/-- `rtw_joinbss_event_prehandle`. -/
def rtwJoinbssEventPrehandle (L : InfoLayout) (s : Station ι) (ev : JoinEvent) : Station ι :=
  if u32 (L.bssidExSz + ev.ieLength) > L.bssidExSz + maxIeSz then s
  else if ev.joinRes > 0 then
    if checkFwstate s.fwState fwUnderLinking then
      -- a linked device on the same network looks for that network, which is the same address
      let s := s.leaveCurrent ev
      if s.rtwFindNetwork ev.macAddress then
        let s := s.rtwJoinbssUpdateNetwork ev
        if checkFwstate s.fwState wifiStationState then
          match s.rtwJoinbssUpdateStainfo ev with
          | none => s
          | some s => s.rtwIndicateConnect
        else s
      else s
    else s
  else if ev.joinRes = -4 then
    let s := { s with adapter := { s.adapter with
      securitypriv := rtwResetSecuritypriv s.adapter.securitypriv } }
    if checkFwstate s.fwState fwUnderLinking then s.setFwState (clrFwstate s.fwState fwUnderLinking)
    else s
  else s.setFwState (clrFwstate s.fwState fwUnderLinking)

/-- `OnAssocRsp` with the event it reports, handled at once. -/
def onAssocRsp (L : InfoLayout) (s : Station ι) (rf : RecvFrame) : Station ι :=
  if s.client.acceptsAssocRsp rf then
    let (res, c) := s.client.onAssocRspRes L rf
    { s with client := c.reportJoinRes res }.rtwJoinbssEventPrehandle L (joinEvent L c.tail res)
  else s

/-- Both halves agree on being connected. -/
def LinkAgrees (s : Station ι) : Prop :=
  hasBits s.client.state wifiFwAssocSuccessBits ↔ checkFwstate s.fwState fwLinked

end Station

/-! ## What the elements of the frame do to the reported network -/

namespace Client

/-- The byte at `off` behind the start of `HT_caps`, masked by one element. -/
def htMaskStep (c : Client) (rf : RecvFrame) (off : ℕ) (acc : UInt8) (i : ℕ) : UInt8 :=
  if c.htOption ∧ rf.mem (rf.rxData + i) = htCapabilityIe ∧
      off < (rf.mem (rf.rxData + i + 1)).toNat then
    acc &&& rf.mem (rf.rxData + i + 2 + off)
  else acc

/-- The mask that the HT capability elements of the frame are for the byte at `off` behind
the start of `HT_caps`. Elements that end before it do not count. -/
def htMask (c : Client) (rf : RecvFrame) (off : ℕ) : UInt8 :=
  (assocRspIes rf).foldl (c.htMaskStep rf off) 0xff

/-- The memory behind `chg_txt` as far as `report_join_res` reads it : an association
response that is accepted masks it by its HT capability elements. -/
def reportedTail (L : InfoLayout) (c : Client) (rf : RecvFrame) : Mem :=
  if assocRspStatus rf > 0 then c.tail
  else fun a => c.tail a &&& c.htMask rf (a - L.htCaps).toNat

theorem foldl_htMaskStep (c : Client) (rf : RecvFrame) (off : ℕ) :
    ∀ (is : List ℕ) (x acc : UInt8),
      is.foldl (c.htMaskStep rf off) (x &&& acc) = x &&& is.foldl (c.htMaskStep rf off) acc
  | [], x, acc => rfl
  | i :: is, x, acc => by
    rw [List.foldl_cons, List.foldl_cons]
    have h : c.htMaskStep rf off (x &&& acc) i = x &&& c.htMaskStep rf off acc i := by
      unfold htMaskStep
      split_ifs
      · rw [UInt8.and_assoc]
      · rfl
    rw [h, foldl_htMaskStep c rf off is]

/-- Behind `HT_caps`, `HT_caps_handler` masks a byte by the element. -/
theorem tail_assocRspIe (L : InfoLayout) (rf : RecvFrame) (c : Client) (i : ℕ) {a : ℤ}
    (ha : (L.htCaps + 26 : ℤ) ≤ a) :
    (assocRspIe L rf c i).tail a = c.htMaskStep rf (a - L.htCaps).toNat (c.tail a) i := by
  have h16 : ¬ ((L.htCaps : ℤ) + 3 ≤ a ∧ (a - (L.htCaps + 3)).toNat < 16) := by omega
  have hle : (L.htCaps : ℤ) ≤ a := by omega
  have h2 : (a - L.htCaps).toNat ≠ 2 := by omega
  unfold assocRspIe htCapsHandler htMaskStep
  by_cases hid : rf.mem (rf.rxData + i) = htCapabilityIe
  · cases hopt : c.htOption
    · simp [hid]
    · simp only [hid, if_true, Bool.not_true, Bool.false_eq_true, if_false, h16, hle,
        true_and]
      split_ifs
      · rw [htCapByte, if_pos h2]
      · rfl
  · simp [hid]

theorem htMaskStep_congr {c c' : Client} (h : c'.htOption = c.htOption) (rf : RecvFrame)
    (off : ℕ) : c'.htMaskStep rf off = c.htMaskStep rf off := by
  funext acc i
  simp [htMaskStep, h]

theorem tail_foldl_assocRspIe (L : InfoLayout) (rf : RecvFrame) {a : ℤ}
    (ha : (L.htCaps + 26 : ℤ) ≤ a) :
    ∀ (is : List ℕ) (c : Client), (is.foldl (assocRspIe L rf) c).tail a =
      is.foldl (c.htMaskStep rf (a - L.htCaps).toNat) (c.tail a)
  | [], c => rfl
  | i :: is, c => by
    obtain ⟨tail, htail⟩ := foldl_assocRspIe_eq L rf [i] c
    have hopt : (assocRspIe L rf c i).htOption = c.htOption := by
      rw [List.foldl_cons, List.foldl_nil] at htail
      rw [htail]
    rw [List.foldl_cons, List.foldl_cons, tail_foldl_assocRspIe L rf ha is,
      tail_assocRspIe L rf c i ha, htMaskStep_congr hopt]

/-- The network that is reported. -/
theorem tail_onAssocRspRes (L : InfoLayout) (c : Client) (rf : RecvFrame) {a : ℤ}
    (ha : (L.htCaps + 26 : ℤ) ≤ a) :
    (c.onAssocRspRes L rf).2.tail a = c.reportedTail L rf a := by
  unfold onAssocRspRes reportedTail
  split_ifs with hstatus
  · rfl
  · dsimp only
    rw [tail_foldl_assocRspIe L rf ha]
    have haid : c.tail.write chgTxtLen (le16Bytes (assocRspAid rf)) a = c.tail a := by
      refine Mem.write_of_disjoint _ (Or.inr ?_)
      have hL := L.chgTxt_le
      simp only [le16Bytes, List.length_cons, List.length_nil]
      omega
    have hff : c.tail a = c.tail a &&& 0xff := by
      have h255 : (0xff : UInt8) = -1 := by decide
      rw [h255, UInt8.and_neg_one]
    dsimp only
    rw [haid]
    conv_lhs => rw [hff]
    exact foldl_htMaskStep c rf _ _ _ _

end Client

/-- `report_join_res` reads the network behind `HT_caps` only. -/
theorem joinEvent_congr (L : InfoLayout) {m m' : Mem}
    (h : ∀ a : ℤ, (L.htCaps + 26 : ℤ) ≤ a → m a = m' a) (res : ℤ) :
    joinEvent L m res = joinEvent L m' res := by
  have h1 := L.htCaps_le
  have h2 := L.macAddress_le
  have h3 := L.infrastructureMode_le
  have hmac : macAt m L.macAddress = macAt m' L.macAddress := by
    refine Vector.toList_inj.mp ?_
    rw [toList_macAt, toList_macAt]
    exact Mem.read_congr fun i _ => h _ (by omega)
  have hmode : Mem.le32 m L.infrastructureMode = Mem.le32 m' L.infrastructureMode :=
    Mem.le32_congr fun i _ => h _ (by omega)
  have hlen : Mem.le32 m L.ieLength = Mem.le32 m' L.ieLength :=
    Mem.le32_congr fun i _ => h _ (by omega)
  simp [joinEvent, hmac, hmode, hlen]

/-! ## When both halves agree -/

theorem checkFwstate_fwLinked (fw : ℕ) : checkFwstate fw fwLinked = fw.testBit 0 := by
  rw [checkFwstate, fwLinked, Nat.and_one_is_mod, Nat.testBit_zero]
  rcases Nat.mod_two_eq_zero_or_one fw with h | h <;> simp [h]

theorem checkFwstate_clrFwstate (fw : ℕ) :
    checkFwstate (clrFwstate fw fwUnderLinking) fwLinked = checkFwstate fw fwLinked := by
  rw [checkFwstate_fwLinked, checkFwstate_fwLinked, clrFwstate, Nat.testBit_ldiff]
  simp [fwUnderLinking]

namespace Station

open Client (assocRspStatus assocRspAid)

variable {ι : Type} [DecidableEq ι]

theorem fwState_setFwState (s : Station ι) (fw : ℕ) : (s.setFwState fw).fwState = fw := rfl

/-- There is a station record for the access point, or one can be had : a free one, or the
one of the network that is left. -/
def HasRoom (s : Station ι) (mac : MacAddr) : Prop :=
  (s.adapter.rtwGetStainfo mac).isSome ∨ s.adapter.freeStaQueue ≠ [] ∨
    (checkFwstate s.fwState fwLinked ∧ mac ≠ s.adapter.mlmepriv.curBssid ∧
      (s.adapter.rtwGetStainfo s.adapter.mlmepriv.curBssid).isSome)

/-- `rtw_joinbss_update_stainfo` fails exactly when there is neither a record nor a free
slot, and leaves `fw_state` alone. -/
theorem rtwJoinbssUpdateStainfo_cases (s : Station ι) (ev : JoinEvent) :
    (s.rtwJoinbssUpdateStainfo ev = none ∧
      ¬ ((s.adapter.rtwGetStainfo ev.macAddress).isSome ∨ s.adapter.freeStaQueue ≠ [])) ∨
    (∃ t, s.rtwJoinbssUpdateStainfo ev = some t ∧ t.fwState = s.fwState ∧
      t.client = s.client ∧
      ((s.adapter.rtwGetStainfo ev.macAddress).isSome ∨ s.adapter.freeStaQueue ≠ [])) := by
  unfold rtwJoinbssUpdateStainfo
  cases hget : s.adapter.rtwGetStainfo ev.macAddress with
  | some psta =>
    refine Or.inr ⟨_, rfl, ?_, rfl, Or.inl rfl⟩
    dsimp only [fwState]
    split <;> rfl
  | none =>
    cases hfree : s.adapter.freeStaQueue with
    | nil => exact Or.inl ⟨by simp [Adapter.rtwAllocStainfo, hfree], by simp⟩
    | cons psta rest =>
      simp only [Adapter.rtwAllocStainfo, hfree]
      refine Or.inr ⟨_, rfl, ?_, rfl, Or.inr (by simp)⟩
      dsimp only [fwState]
      split <;> rfl

/-- Leaving the current network keeps everything but its station record. -/
theorem leaveCurrent_spec (s : Station ι) (ev : JoinEvent) :
    (s.leaveCurrent ev).fwState = s.fwState ∧ (s.leaveCurrent ev).client = s.client ∧
    (s.leaveCurrent ev).scannedQueue = s.scannedQueue ∧
    (((s.leaveCurrent ev).adapter.rtwGetStainfo ev.macAddress).isSome ∨
      (s.leaveCurrent ev).adapter.freeStaQueue ≠ [] ↔ s.HasRoom ev.macAddress) := by
  unfold leaveCurrent HasRoom
  by_cases hl : checkFwstate s.fwState fwLinked ∧ ev.macAddress ≠ s.adapter.mlmepriv.curBssid
  swap
  · rw [if_neg hl]
    exact ⟨rfl, rfl, rfl, by tauto⟩
  rw [if_pos hl]
  cases hcur : s.adapter.rtwGetStainfo s.adapter.mlmepriv.curBssid with
  | none => exact ⟨rfl, rfl, rfl, by simp⟩
  | some pcur =>
    have hfree := s.adapter.rtwFreeStainfo_framesOnly pcur
    unfold Adapter.FramesOnly at hfree
    refine ⟨?_, rfl, rfl, ?_⟩
    · dsimp only [fwState]
      rw [hfree]
    · have hne : (s.adapter.rtwFreeStainfo pcur).freeStaQueue ≠ [] := by
        rw [hfree]
        simp
      simp [hne, hl]

/-- After `rtw_joinbss_update_network` the device is not linked, and it is a station exactly
in an infrastructure network. -/
theorem rtwJoinbssUpdateNetwork_fwState (s : Station ι) (ev : JoinEvent) :
    checkFwstate (s.rtwJoinbssUpdateNetwork ev).fwState fwLinked = false ∧
    (checkFwstate (s.rtwJoinbssUpdateNetwork ev).fwState wifiStationState ↔
      ev.infrastructureMode = ndis80211Infrastructure) := by
  unfold rtwJoinbssUpdateNetwork fwState
  dsimp only
  split_ifs with h1 h2 h3
  all_goals simp only [h1, iff_true, iff_false, Bool.not_eq_true]
  all_goals exact ⟨by decide, by decide⟩

/-- A positive result links the device exactly if the network is an infrastructure network
and there is room for the access point. -/
theorem prehandle_positive (L : InfoLayout) (s : Station ι) (ev : JoinEvent)
    (hsz : ¬ u32 (L.bssidExSz + ev.ieLength) > L.bssidExSz + maxIeSz) (hres : ev.joinRes > 0)
    (hlinking : checkFwstate s.fwState fwUnderLinking)
    (hfound : s.rtwFindNetwork ev.macAddress) :
    checkFwstate (s.rtwJoinbssEventPrehandle L ev).fwState fwLinked ↔
      ev.infrastructureMode = ndis80211Infrastructure ∧ s.HasRoom ev.macAddress := by
  obtain ⟨hfw, -, hscan, hroom⟩ := s.leaveCurrent_spec ev
  have hfound' : (s.leaveCurrent ev).rtwFindNetwork ev.macAddress := by
    rw [rtwFindNetwork, hscan]
    exact hfound
  obtain ⟨hnl, hsta⟩ := (s.leaveCurrent ev).rtwJoinbssUpdateNetwork_fwState ev
  rw [rtwJoinbssEventPrehandle, if_neg hsz, if_pos hres, if_pos hlinking, if_pos hfound',
    ← hroom]
  dsimp only
  split_ifs with hst
  · have hmode := hsta.mp hst
    rcases ((s.leaveCurrent ev).rtwJoinbssUpdateNetwork ev).rtwJoinbssUpdateStainfo_cases ev with
      ⟨hnone, hno⟩ | ⟨t, hsome, hfwt, -, hyes⟩
    · rw [hnone]
      refine iff_of_false (by rw [hnl]; decide) fun h => hno h.2
    · rw [hsome]
      refine iff_of_true ?_ ⟨hmode, hyes⟩
      dsimp only
      rw [rtwIndicateConnect, hfwt, hnl, if_neg (by decide), fwState_setFwState,
        checkFwstate_fwLinked, Nat.testBit_or]
      simp [fwLinked]
  · exact iff_of_false (by rw [hnl]; decide) fun h => hst (hsta.mpr h.1)

/-- The condition on the association response and the state before it under which both
halves agree afterwards. -/
def AgreesWhen (L : InfoLayout) (s : Station ι) (rf : RecvFrame) : Prop :=
  let network := s.client.reportedTail L rf
  if assocRspStatus rf > 0 then ¬ checkFwstate s.fwState fwLinked
  else if assocRspAid rf = 0 ∨
      u32 (L.bssidExSz + Mem.le32 network L.ieLength) > L.bssidExSz + maxIeSz then
    checkFwstate s.fwState fwLinked = true
  else Mem.le32 network L.infrastructureMode = ndis80211Infrastructure ∧
    s.HasRoom (macAt network L.macAddress)

theorem client_rtwJoinbssEventPrehandle (L : InfoLayout) (s : Station ι) (ev : JoinEvent) :
    (s.rtwJoinbssEventPrehandle L ev).client = s.client := by
  have hcon : ∀ t : Station ι, t.rtwIndicateConnect.client = t.client := by
    intro t
    unfold rtwIndicateConnect
    split_ifs <;> rfl
  obtain ⟨-, hleave, -, -⟩ := s.leaveCurrent_spec ev
  unfold rtwJoinbssEventPrehandle
  dsimp only
  split_ifs
  · rfl
  · rcases ((s.leaveCurrent ev).rtwJoinbssUpdateNetwork ev).rtwJoinbssUpdateStainfo_cases ev with
      ⟨hnone, -⟩ | ⟨t, hsome, -, hc, -⟩
    · rw [hnone]
      exact hleave
    · rw [hsome]
      exact (hcon t).trans (hc.trans hleave)
  · exact hleave
  · exact hleave
  · rfl
  · rfl
  · rfl
  · rfl

/-- The success bit of the lower half says whether the status was 0. -/
theorem hasBits_onAssocRspRes (L : InfoLayout) (c : Client) (rf : RecvFrame) :
    hasBits (c.onAssocRspRes L rf).2.state wifiFwAssocSuccessBits ↔ ¬ assocRspStatus rf > 0 := by
  unfold Client.onAssocRspRes
  have hnull : ¬ hasBits wifiFwNullState wifiFwAssocSuccessBits := by decide
  split_ifs with h
  · exact iff_of_false hnull (not_not_intro h)
  · refine iff_of_true ?_ h
    have hset : ∀ t : BitVec 32, hasBits (t ||| wifiFwAssocSuccessBits) wifiFwAssocSuccessBits := by
      intro t
      have heq : (t ||| wifiFwAssocSuccessBits) &&& wifiFwAssocSuccessBits =
          wifiFwAssocSuccessBits := by
        ext i hi
        simp only [BitVec.getElem_and, BitVec.getElem_or]
        cases t[i] <;> cases wifiFwAssocSuccessBits[i] <;> rfl
      rw [hasBits, heq]
      decide
    exact hset _

/-- For every association response that is accepted, with `_FW_UNDER_LINKING` set and the
network of the event in the scan table, the lower half is associated if and only if the
upper half is linked, exactly under the condition `AgreesWhen`. -/
theorem linkAgrees_iff (L : InfoLayout) (s : Station ι) (rf : RecvFrame)
    (hacc : s.client.acceptsAssocRsp rf) (hlinking : checkFwstate s.fwState fwUnderLinking)
    (hfound : s.rtwFindNetwork (macAt (s.client.reportedTail L rf) L.macAddress)) :
    (s.onAssocRsp L rf).LinkAgrees ↔ s.AgreesWhen L rf := by
  set res := (s.client.onAssocRspRes L rf).1 with hres
  set t : Station ι :=
    { s with client := (s.client.onAssocRspRes L rf).2.reportJoinRes res } with ht
  set ev := joinEvent L (s.client.reportedTail L rf) res with hev
  have hrun : s.onAssocRsp L rf = t.rtwJoinbssEventPrehandle L ev := by
    rw [hev, ← joinEvent_congr L (fun a ha => s.client.tail_onAssocRspRes L rf ha) res]
    rw [onAssocRsp, if_pos hacc]
  have hlow : hasBits (s.onAssocRsp L rf).client.state wifiFwAssocSuccessBits ↔
      ¬ assocRspStatus rf > 0 := by
    rw [hrun, client_rtwJoinbssEventPrehandle]
    exact hasBits_onAssocRspRes L s.client rf
  unfold LinkAgrees AgreesWhen
  rw [hlow, hrun]
  dsimp only
  by_cases hstatus : assocRspStatus rf > 0
  · -- refused : the result is -4 and the linked bit stays
    have hres4 : ev.joinRes = -4 := by
      rw [hev, joinEvent, hres, Client.onAssocRspRes, if_pos hstatus]
    have hkeep : checkFwstate (t.rtwJoinbssEventPrehandle L ev).fwState fwLinked =
        checkFwstate s.fwState fwLinked := by
      rw [rtwJoinbssEventPrehandle, if_neg (c := ev.joinRes > 0) (by rw [hres4]; decide),
        if_pos hres4]
      dsimp only
      split_ifs
      · rfl
      · exact checkFwstate_clrFwstate s.fwState
      · rfl
    rw [if_pos hstatus, hkeep]
    simp [hstatus]
  · have hresAid : ev.joinRes = assocRspAid rf := by
      rw [hev, joinEvent, hres, Client.onAssocRspRes, if_neg hstatus]
    rw [if_neg hstatus]
    simp only [hstatus, not_false_eq_true, true_iff]
    have hlen : Mem.le32 (s.client.reportedTail L rf) L.ieLength = ev.ieLength := rfl
    rw [hlen]
    by_cases hsz : u32 (L.bssidExSz + ev.ieLength) > L.bssidExSz + maxIeSz
    · rw [if_pos (Or.inr hsz), rtwJoinbssEventPrehandle, if_pos hsz]
      rfl
    by_cases haid : assocRspAid rf = 0
    · rw [if_pos (Or.inl haid), rtwJoinbssEventPrehandle, if_neg hsz]
      rw [hresAid, haid, if_neg (by decide), if_neg (by decide), fwState_setFwState,
        checkFwstate_clrFwstate]
      rfl
    · rw [if_neg (not_or.mpr ⟨haid, hsz⟩)]
      have hpos : ev.joinRes > 0 := by
        rw [hresAid]
        omega
      exact t.prehandle_positive L ev hsz hpos hlinking hfound

/-- A station that waits for the association response of the network 02:00:00:00:00:00. -/
def sample : Station ℕ where
  client :=
    { Client.sample with
      state := wifiFwAuthSuccess ||| wifiFwAssocState ||| wifiFwStationState
      tail := fun a => if a = 232 then 2 else if a = 324 then 1 else 0 }
  adapter :=
    { Adapter.init [] zeroAddr with
      mlmepriv := ⟨wifiStationState ||| fwUnderLinking, zeroAddr, false, false⟩ }
  scannedQueue := [#v[2, 0, 0, 0, 0, 0]]
  wpsIeLen := 0
  ampduEnable := false

/-- An association response with status 0 and the association id `aid`. -/
def sampleAssocRsp (aid : UInt8) : RecvFrame :=
  { initRecvframe with
    pkt := true
    len := 30
    rxTail := 30
    rxEnd := 2000
    mem := fun a => if a = 28 then aid else 0 }

/-- With the association id 1 both halves are connected. -/
theorem linkAgrees_iff_sample : (sample.onAssocRsp .lp64 (sampleAssocRsp 1)).LinkAgrees := by
  refine (linkAgrees_iff .lp64 sample (sampleAssocRsp 1) (by decide +kernel) (by decide +kernel)
    (by decide +kernel)).mpr ?_
  have h1 : ¬ assocRspStatus (sampleAssocRsp 1) > 0 := by decide +kernel
  have h2 : ¬ (assocRspAid (sampleAssocRsp 1) = 0 ∨
      u32 (InfoLayout.lp64.bssidExSz + Mem.le32
      (sample.client.reportedTail .lp64 (sampleAssocRsp 1))
        InfoLayout.lp64.ieLength) > InfoLayout.lp64.bssidExSz + maxIeSz) := by decide +kernel
  rw [AgreesWhen, if_neg h1, if_neg h2]
  refine ⟨by decide +kernel, Or.inr (Or.inl ?_)⟩
  decide +kernel

/-- With status 0 and the association id 0 the lower half is associated and the upper half
is not linked. -/
theorem not_linkAgrees :
    ¬ ∀ (L : InfoLayout) (s : Station ℕ) (rf : RecvFrame), s.client.acceptsAssocRsp rf →
      checkFwstate s.fwState fwUnderLinking →
      s.rtwFindNetwork (macAt (s.client.reportedTail L rf) L.macAddress) →
      (s.onAssocRsp L rf).LinkAgrees := by
  intro h
  have hagree := h .lp64 sample (sampleAssocRsp 0) (by decide +kernel) (by decide +kernel)
    (by decide +kernel)
  have hlow : hasBits (sample.onAssocRsp .lp64 (sampleAssocRsp 0)).client.state
      wifiFwAssocSuccessBits = true := by decide +kernel
  have hup : checkFwstate (sample.onAssocRsp .lp64 (sampleAssocRsp 0)).fwState fwLinked =
    false := by
    decide +kernel
  exact Bool.false_ne_true (hup.symm.trans (hagree.mp hlow))

end Station

end Rtl8188eu
