import Rtl8188eu.FirstMaximum
import Rtl8188eu.JoinElements
import Rtl8188eu.ScanTable

/-!
# The choice of a network to join

`rtw_select_and_join_from_scanned_queue` walks the queue of scanned networks and keeps the one with
the greatest received power among those that suit the request, the first of them if there are
several. When the driver is roaming, a network must have been scanned within the last two seconds
and belong to the same ESS.

The time since the scan is computed in milliseconds with 32 bits, which a product with 1000 exceeds
after some hours. What was scanned so long ago may then look recent, and is joined if no other
network beats it (`selectsRight_iff`).
-/

namespace Rtl8188eu

open FirstMaximum

/-! ## The functions of the source -/

/-- `Ndis802_11EncryptionDisabled`. -/
def ndis80211EncryptionDisabled : ℕ := 1
/-- `RTW_SCAN_RESULT_EXPIRE`, in milliseconds. -/
def rtwScanResultExpire : ℕ := 2000

/-- An entry of the queue, with the other fields of its descriptor that the choice looks at. -/
structure QueuedNetwork where
  entry : WlanNetwork
  collected : entry.network.Collected
  privacy : ℕ
  infrastructureMode : ℕ

/-- What the choice reads of the driver. -/
structure SelectEnv where
  jiffies : BitVec 64
  /-- `HZ`, of any kernel. -/
  hz : ℕ
  hz_ge : 2 ≤ hz
  hz_le : hz ≤ 10000
  fwState : ℕ
  assocByBssid : Bool
  assocBssid : MacAddr
  /-- `assoc_ssid`, empty for any. -/
  assocSsid : List UInt8
  toRoaming : ℕ
  ndisencryptstatus : ℕ
  ndisauthtype : ℕ
  /-- `wifi_spec == 1`. -/
  wifiSpec : Bool
  curNetwork : WlanBssidEx
  curInfrastructureMode : ℕ

/-- The `IEs` of a descriptor. -/
def WlanBssidEx.mem (b : WlanBssidEx) : Mem := fun a => b.ies a.toNat

/-- The SSID of a descriptor. -/
def WlanBssidEx.ssidBytes (b : WlanBssidEx) : List UInt8 := b.ssid.toList.take b.ssidLength

/-- `is_same_ess`. -/
def isSameEss (a b : WlanBssidEx) : Bool :=
  a.ssidLength == b.ssidLength && a.ssid.toList.take a.ssidLength == b.ssid.toList.take a.ssidLength

/-- `rtw_systime_to_ms`. -/
def rtwSystimeToMs (hz systime : ℕ) : ℕ := systime * 1000 % 2 ^ 32 / hz

namespace SelectEnv

variable (env : SelectEnv)

/-- `rtw_get_passing_time_ms`. As the result of a division it is no negative `s32`. -/
def rtwGetPassingTimeMs (start : BitVec 32) : ℕ :=
  rtwSystimeToMs env.hz ((env.jiffies - start.setWidth 64).setWidth 32).toNat

/-- `rtw_is_desired_network`. -/
def rtwIsDesiredNetwork (e : QueuedNetwork) : Bool :=
  let b := e.entry.network
  if checkFwstate env.fwState wifiUnderWps then (rtwGetWpsIe b.mem 12 (b.ieLength - 12)).isSome
  else
    let bselected :=
      if env.wifiSpec then
        if env.ndisauthtype = ndis80211AuthModeWPA2PSK then
          match rtwGetIe b.mem 12 wpa2IeId (b.ieLength - 12) with
          | none => false
          | some (_, ieLen) => decide (0 < ieLen)
        else !(env.ndisencryptstatus = ndis80211EncryptionDisabled && e.privacy != 0)
      else true
    let bselected :=
      if env.ndisencryptstatus ≠ ndis80211EncryptionDisabled ∧ e.privacy = 0 then false else bselected
    if checkFwstate env.fwState wifiAdhocState && e.infrastructureMode != env.curInfrastructureMode then false
    else bselected

variable {ι : Type} (network : ι → QueuedNetwork)

/-- The received power of an entry. -/
def rssiOf (k : ι) : ℤ := (network k).entry.network.rssi

/-- `rtw_check_join_candidate`. -/
def rtwCheckJoinCandidate (candidate : Option ι) (competitor : ι) : Option ι :=
  let e := (network competitor).entry
  if env.assocByBssid ∧ e.network.macAddress ≠ env.assocBssid then candidate
  else if env.assocSsid.length ≠ 0 ∧ (e.network.ssidLength ≠ env.assocSsid.length ∨
      e.network.ssid.toList.take env.assocSsid.length ≠ env.assocSsid) then candidate
  else if !env.rtwIsDesiredNetwork (network competitor) then candidate
  else if 0 < env.toRoaming ∧ (rtwScanResultExpire ≤ env.rtwGetPassingTimeMs (e.lastScanned.setWidth 32) ∨
      !isSameEss e.network env.curNetwork) then candidate
  else
    match candidate with
    | none => some competitor
    | some c => if rssiOf network c < rssiOf network competitor then some competitor else some c

/-- The calls that change something : `rtw_disassoc_cmd`, `rtw_indicate_disconnect`,
`rtw_free_assoc_resources` and `rtw_joinbss_cmd`. -/
inductive SelectAct (ι : Type)
  | disassocCmd
  | indicateDisconnect
  | freeAssocResources
  | joinbssCmd (candidate : ι)

/-- The calls for a candidate. -/
def joinActs (candidate : ι) : List (SelectAct ι) :=
  (if checkFwstate env.fwState fwLinked then [.disassocCmd, .indicateDisconnect, .freeAssocResources] else []) ++
    [.joinbssCmd candidate]

/-- `rtw_select_and_join_from_scanned_queue` : the calls, and whether `_SUCCESS` is returned.
`joinbssOk` is what `rtw_joinbss_cmd` returns. -/
def rtwSelectAndJoinFromScannedQueue (joinbssOk : ι → Bool) (queue : List ι) : List (SelectAct ι) × Bool :=
  match queue.foldl (env.rtwCheckJoinCandidate network) none with
  | none => ([], false)
  | some candidate => (env.joinActs candidate, joinbssOk candidate)

/-! ## What is claimed -/

/-- The jiffies since an entry was scanned. -/
def age (e : WlanNetwork) : ℕ := (env.jiffies - e.lastScanned).toNat

/-- The entry matches the request. -/
def Requested (k : ι) : Prop :=
  (env.assocByBssid → (network k).entry.network.macAddress = env.assocBssid) ∧
    (env.assocSsid ≠ [] → (network k).entry.network.ssidBytes = env.assocSsid) ∧
    env.rtwIsDesiredNetwork (network k) = true

/-- The entry matches the request, and when the driver is roaming it is of the same ESS and was
scanned within two seconds. -/
def Eligible (k : ι) : Prop :=
  env.Requested network k ∧
    (0 < env.toRoaming → env.age (network k).entry < 2 * env.hz ∧ isSameEss (network k).entry.network env.curNetwork)

/-- The time since the scan looks short, with the product in 32 bits. -/
def LooksRecent (e : WlanNetwork) : Prop := env.age e % 2 ^ 32 * 1000 % 2 ^ 32 < 2000 * env.hz

/-- The entry would be eligible if it were as recent as it looks. -/
def Accepted (k : ι) : Prop :=
  env.Requested network k ∧
    (0 < env.toRoaming → env.LooksRecent (network k).entry ∧ isSameEss (network k).entry.network env.curNetwork)

instance (k : ι) : Decidable (env.Requested network k) := inferInstanceAs (Decidable (_ ∧ _ ∧ _))

instance (k : ι) : Decidable (env.Eligible network k) := inferInstanceAs (Decidable (_ ∧ (_ → _ ∧ _)))

instance (e : WlanNetwork) : Decidable (env.LooksRecent e) := inferInstanceAs (Decidable (_ < _))

instance (k : ι) : Decidable (env.Accepted network k) := inferInstanceAs (Decidable (_ ∧ (_ → _ ∧ _)))

/-- What is claimed of the choice. The first entry of the greatest power among the eligible ones is
joined, and without one nothing is done. -/
def SelectsRight (joinbssOk : ι → Bool) (queue : List ι) : Prop :=
  (∀ k, IsFirstMax (env.Eligible network) (rssiOf network) queue k →
    env.rtwSelectAndJoinFromScannedQueue network joinbssOk queue = (env.joinActs k, joinbssOk k)) ∧
  ((∀ k ∈ queue, ¬env.Eligible network k) →
    env.rtwSelectAndJoinFromScannedQueue network joinbssOk queue = ([], false))

/-- Each entry of the queue that only looks recent is beaten by an eligible one : by one before it
that is not weaker, or by one behind it that is stronger. -/
def StaleBeaten (queue : List ι) : Prop :=
  ∀ pre k post, queue = pre ++ k :: post → env.Accepted network k → ¬env.Eligible network k →
    (∃ j ∈ pre, env.Eligible network j ∧ rssiOf network k ≤ rssiOf network j) ∨
      ∃ j ∈ post, env.Eligible network j ∧ rssiOf network k < rssiOf network j

/-! ## The time -/

/-- The 32 bits of the start are enough for the time in 32 bits. -/
theorem rtwGetPassingTimeMs_eq (e : WlanNetwork) :
    env.rtwGetPassingTimeMs (e.lastScanned.setWidth 32) =
      env.age e % 2 ^ 32 * 1000 % 2 ^ 32 / env.hz := by
  have hlow : ((env.jiffies - (e.lastScanned.setWidth 32).setWidth 64).setWidth 32).toNat =
    env.age e % 2 ^ 32 := by
    rw [age, BitVec.toNat_setWidth, BitVec.toNat_sub, BitVec.toNat_sub, BitVec.toNat_setWidth,
      BitVec.toNat_setWidth]
    have h1 := env.jiffies.isLt
    have h2 := e.lastScanned.isLt
    omega
  rw [rtwGetPassingTimeMs, hlow, rtwSystimeToMs]

theorem looksRecent_iff (e : WlanNetwork) :
    env.LooksRecent e ↔ ¬rtwScanResultExpire ≤
      env.rtwGetPassingTimeMs (e.lastScanned.setWidth 32) := by
  have hpos : 0 < env.hz := lt_of_lt_of_le (by decide) env.hz_ge
  rw [rtwGetPassingTimeMs_eq, not_le, Nat.div_lt_iff_lt_mul hpos]
  rfl

/-- What is recent looks recent. -/
theorem looksRecent_of_age (e : WlanNetwork) (h : env.age e < 2 * env.hz) : env.LooksRecent e := by
  have hle := env.hz_le
  have hage : env.age e % 2 ^ 32 = env.age e := Nat.mod_eq_of_lt (by omega)
  have hms : env.age e * 1000 % 2 ^ 32 = env.age e * 1000 := Nat.mod_eq_of_lt (by omega)
  rw [LooksRecent, hage, hms]
  omega

theorem Eligible.accepted {k : ι} (h : env.Eligible network k) : env.Accepted network k :=
  ⟨h.1, fun hroam => ⟨env.looksRecent_of_age _ (h.2 hroam).1, (h.2 hroam).2⟩⟩

/-! ## The choice -/

/-- The two comparisons of the SSID. -/
theorem ssid_iff {b : WlanBssidEx} (hb : b.Collected) (ssid : List UInt8) :
    b.ssidBytes = ssid ↔ b.ssidLength = ssid.length ∧ b.ssid.toList.take ssid.length = ssid := by
  have hlen : b.ssidBytes.length = b.ssidLength := by
    rw [WlanBssidEx.ssidBytes, List.length_take, Vector.length_toList]
    exact min_eq_left hb.1
  constructor
  · intro h
    have hsame : b.ssidLength = ssid.length := by rw [← hlen, h]
    exact ⟨hsame, by rw [← hsame]; exact h⟩
  · rintro ⟨hsame, htake⟩
    rw [WlanBssidEx.ssidBytes, hsame, htake]

/-- The tests that leave the candidate as it is. -/
def Skipped (k : ι) : Prop :=
  let e := (network k).entry
  (env.assocByBssid ∧ e.network.macAddress ≠ env.assocBssid) ∨
    (env.assocSsid.length ≠ 0 ∧ (e.network.ssidLength ≠ env.assocSsid.length ∨
      e.network.ssid.toList.take env.assocSsid.length ≠ env.assocSsid)) ∨
    (!env.rtwIsDesiredNetwork (network k)) = true ∨
    (0 < env.toRoaming ∧ (rtwScanResultExpire ≤ env.rtwGetPassingTimeMs (e.lastScanned.setWidth 32) ∨
      (!isSameEss e.network env.curNetwork) = true))

theorem not_skipped_iff (k : ι) : ¬env.Skipped network k ↔ env.Accepted network k := by
  have hssid := ssid_iff (network k).collected env.assocSsid
  have hlooks := env.looksRecent_iff (network k).entry
  simp only [Skipped, Accepted, Requested, not_or, not_and, hssid, hlooks, Bool.not_eq_true',
    Bool.not_eq_false,
    not_not, ne_eq, List.length_eq_zero_iff, and_assoc]

/-- `rtw_check_join_candidate` is one round of the choice of the first best among the accepted
entries. -/
theorem rtwCheckJoinCandidate_eq (candidate : Option ι) (k : ι) :
    env.rtwCheckJoinCandidate network candidate k =
      better (env.Accepted network) (rssiOf network) candidate k := by
  by_cases hacc : env.Accepted network k
  · have hnot := (env.not_skipped_iff network k).mpr hacc
    obtain ⟨h1, hnot⟩ := not_or.mp hnot
    obtain ⟨h2, hnot⟩ := not_or.mp hnot
    obtain ⟨h3, h4⟩ := not_or.mp hnot
    unfold rtwCheckJoinCandidate
    dsimp only
    rw [if_neg h1, if_neg h2, if_neg h3, if_neg h4]
    cases candidate with
    | none => exact (better_none hacc).symm
    | some c => exact (better_some hacc).symm
  · have hskip := not_not.mp fun h => hacc ((env.not_skipped_iff network k).mp h)
    rw [better_of_not hacc]
    unfold rtwCheckJoinCandidate
    dsimp only
    rcases hskip with h | h | h | h
    · rw [if_pos h]
    · rw [if_pos h, ite_self]
    · rw [if_pos h, ite_self, ite_self]
    · rw [if_pos h, ite_self, ite_self, ite_self]

theorem foldl_rtwCheckJoinCandidate (queue : List ι) :
    queue.foldl (env.rtwCheckJoinCandidate network) none =
      queue.foldl (better (env.Accepted network) (rssiOf network)) none := by
  have hstep : env.rtwCheckJoinCandidate network = better (env.Accepted network)
    (rssiOf network) := by
    funext candidate k
    exact env.rtwCheckJoinCandidate_eq network candidate k
  rw [hstep]

/-- The calls tell which entry was chosen. -/
theorem joinActs_inj {j k : ι} (h : env.joinActs j = env.joinActs k) : j = k := by
  have hlast := (List.append_inj' h rfl).2
  exact SelectAct.joinbssCmd.inj (List.cons.inj hlast).1

/-- The right entry is joined exactly if the loop finds the same one as with the eligible
entries. -/
theorem selectsRight_iff_foldl (joinbssOk : ι → Bool) (queue : List ι) :
    env.SelectsRight network joinbssOk queue ↔
      queue.foldl (better (env.Accepted network) (rssiOf network)) none =
        queue.foldl (better (env.Eligible network) (rssiOf network)) none := by
  unfold SelectsRight rtwSelectAndJoinFromScannedQueue
  rw [foldl_rtwCheckJoinCandidate]
  constructor
  · rintro ⟨hsome, hnone⟩
    rcases foldl_better (P := env.Eligible network) (f :=
      rssiOf network) queue with ⟨hno, hall⟩ | ⟨k, hk, hmax⟩
    · rw [hno]
      have hrun := hnone hall
      cases hfold : queue.foldl (better (env.Accepted network) (rssiOf network)) none with
      | none => rfl
      | some j =>
        rw [hfold] at hrun
        exact absurd (Prod.mk.inj hrun).1 (by simp [joinActs])
    · rw [hk]
      have hrun := hsome k hmax
      cases hfold : queue.foldl (better (env.Accepted network) (rssiOf network)) none with
      | none =>
        rw [hfold] at hrun
        exact absurd (Prod.mk.inj hrun).1.symm (by simp [joinActs])
      | some j =>
        rw [hfold] at hrun
        rw [env.joinActs_inj (Prod.mk.inj hrun).1]
  · intro heq
    refine ⟨fun k hmax => ?_, fun hall => ?_⟩
    · rw [heq, foldl_eq_some_iff.mpr hmax]
    · rw [heq, foldl_eq_none_iff.mpr hall]

/-- The first of the strongest eligible networks is joined, in a queue of any length, exactly if the
entries that only look recent are beaten. -/
theorem selectsRight_iff (joinbssOk : ι → Bool) (queue : List ι) :
    env.SelectsRight network joinbssOk queue ↔ env.StaleBeaten network queue := by
  rw [selectsRight_iff_foldl]
  exact foldl_congr_iff fun k => Eligible.accepted env network

end SelectEnv

/-- A driver that is roaming, more than four hours after the start. -/
def sampleSelect : SelectEnv where
  jiffies := 4294968
  hz := 250
  hz_ge := by decide
  hz_le := by decide
  fwState := wifiStationState
  assocByBssid := false
  assocBssid := zeroAddr
  assocSsid := []
  toRoaming := 1
  ndisencryptstatus := ndis80211EncryptionDisabled
  ndisauthtype := 0
  wifiSpec := false
  curNetwork := ScanTable.sampleBss 0
  curInfrastructureMode := 1

theorem collected_first : (ScanTable.sampleBss 0).Collected := ScanTable.collected_sampleBss 0

/-- A network that was scanned at the start. -/
def sampleQueued : QueuedNetwork where
  entry := ⟨false, 0, ScanTable.sampleBss 0⟩
  collected := collected_first
  privacy := 0
  infrastructureMode := 1

/-- The network looks as if it was scanned 2 milliseconds ago, and is joined. -/
theorem not_selectsRight_sample :
    ¬sampleSelect.SelectsRight (fun _ : Unit => sampleQueued) (fun _ => true) [()] := by
  rintro ⟨-, hnone⟩
  have hstale : ¬sampleSelect.Eligible (fun _ : Unit => sampleQueued) () := by
    rintro ⟨-, hroam⟩
    exact absurd (hroam (by decide)).1 (by decide)
  have hrun := hnone fun _ _ => hstale
  have hjoin : (sampleSelect.rtwSelectAndJoinFromScannedQueue (fun _ : Unit => sampleQueued)
    (fun _ => true) [()]).2 =
      true := by decide
  rw [hrun] at hjoin
  exact absurd hjoin (by decide)

end Rtl8188eu
