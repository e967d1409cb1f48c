import Rtl8188eu.CipherSuites
import Rtl8188eu.CollectBss

/-!
# The beacons of the connected access point

While the station is connected, `rtw_check_bcn_info` compares each beacon of its access point with
what it knows of the network, and the station leaves if they differ. It works under the lock of the
scan queue. All mismatches jump to one exit, which gives the lock back ; those of the protocol and
of the ciphers are found behind the place where it was given back already. The SSID is copied with
the length that the frame gives it (`checksRight_iff`).
-/

namespace Rtl8188eu

/-! ## The WPA element -/

/-- The loop of `rtw_get_wpa_ie`, at the vendor elements from `pbuf` on. -/
def rtwGetWpaIeLoop (m : Mem) (pie limit : ℤ) : ℕ → ℤ → ℤ → Option (ℤ × ℕ)
  | 0, _, _ => none
  | fuel + 1, pbuf, limitNew =>
    match rtwGetIe m pbuf vendorSpecificIe limitNew with
    | none => none
    | some (p, len) =>
      if m.read (p + 2) 4 = wpaOuiType ∧ m.le16 (p + 6) = 1 then some (p, len)
      else if limit - (p - pie) - 2 - len ≤ 0 then none
      else rtwGetWpaIeLoop m pie limit fuel (p + (2 + len)) (limit - (p - pie) - 2 - len)

/-- `rtw_get_wpa_ie` : the WPA element and its length. A round of the loop passes two bytes or
more. -/
def rtwGetWpaIe (m : Mem) (pie limit : ℤ) : Option (ℤ × ℕ) :=
  rtwGetWpaIeLoop m pie limit (limit.toNat + 1) pie limit

/-! ## The function of the source -/

/-- `ENCRYP_PROTOCOL_OPENSYS`. -/
def encrypProtocolOpensys : ℕ := 0
/-- `ENCRYP_PROTOCOL_WEP`. -/
def encrypProtocolWep : ℕ := 1
/-- `ENCRYP_PROTOCOL_WPA`. -/
def encrypProtocolWpa : ℕ := 2
/-- `ENCRYP_PROTOCOL_WPA2`. -/
def encrypProtocolWpa2 : ℕ := 3

/-- `struct wlan_bcn_info`. -/
structure WlanBcnInfo where
  encrypProtocol : ℕ
  groupCipher : BitVec 32
  pairwiseCipher : BitVec 32
  is8021x : BitVec 32
  htCapInfo : ℕ
  htInfoInfos0 : UInt8
  deriving DecidableEq

/-- What the driver knows of its network. `Ssid.Ssid` is zero behind the SSID. -/
structure CurNetwork where
  macAddress : MacAddr
  ssid : List UInt8
  ssid_le : ssid.length ≤ ndisLengthSsid
  privacy : ℕ
  bcnInfo : WlanBcnInfo

/-- A call of `rtw_check_bcn_info`. The frame begins at the address 0 of its memory. -/
structure BcnCheck where
  /-- `is_client_associated_to_ap`. -/
  associated : Bool
  /-- Whether there is memory for a descriptor. -/
  alloc : Bool
  curChannel : UInt8
  curNetwork : CurNetwork
  frame : Mem
  packetLen : ℕ
  /-- What is behind the descriptor. -/
  heap : Mem

/-- A call of the lock functions, or a copy of bytes to `Ssid.Ssid`. -/
inductive BcnAct
  | lock
  | unlock
  | copySsid (n : ℕ)
  deriving DecidableEq

/-- What is done, what becomes of `BcnInfo`, and whether `_FAIL` is not returned. Nothing is known
of what follows a copy that runs over its array. -/
structure BcnRun where
  acts : List BcnAct
  bcnInfo : WlanBcnInfo
  result : Option Bool

namespace BcnCheck

variable (c : BcnCheck)

/-- The length of the elements. -/
def ieLength : ℕ := c.packetLen - hdr3addrLen

/-- `bssid->IEs`. -/
def ies : Mem :=
  (c.heap.write 0 (List.replicate maxIeSz 0)).write 0 (c.frame.read hdr3addrLen c.ieLength)

/-- `rtw_get_ie` behind the fixed fields. -/
def getIe (index : UInt8) : Option (ℤ × ℕ) := rtwGetIe c.ies 12 index (c.ieLength - 12)

/-- The body of an element that is not empty. -/
def bodyOf (index : UInt8) : Option ℤ :=
  match c.getIe index with
  | none => none
  | some (p, len) => if 0 < len then some (p + 2) else none

/-- `ht_cap_info`. -/
def htCapInfo : ℕ := ((c.bodyOf htCapabilityIe).map c.ies.le16).getD 0

/-- `ht_info_infos_0`. -/
def htInfoInfos0 : UInt8 := ((c.bodyOf htAddInfoIe).map fun p => c.ies (p + 1)).getD 0

/-- `BcnInfo` with the HT fields of the beacon if they differ. -/
def bcnInfo : WlanBcnInfo :=
  if c.htCapInfo ≠ c.curNetwork.bcnInfo.htCapInfo ∨ c.htInfoInfos0 &&& 3 ≠ c.curNetwork.bcnInfo.htInfoInfos0 &&& 3 then
    { c.curNetwork.bcnInfo with htCapInfo := c.htCapInfo, htInfoInfos0 := c.htInfoInfos0 }
  else c.curNetwork.bcnInfo

/-- `bcn_channel`. A beacon without a channel has the current one. -/
def bcnChannel : UInt8 :=
  match c.getIe dssetIe with
  | some (p, _) => c.ies (p + 2)
  | none => ((c.bodyOf htAddInfoIe).map c.ies).getD c.curChannel

/-- The SSID of the beacon. -/
def ssid : List UInt8 :=
  match c.getIe ssidIe with
  | none => []
  | some (p, len) => c.ies.read (p + 2) len

/-- `bssid->Privacy`. -/
def privacy : ℕ := if (c.ies.le16 10).testBit 4 then 1 else 0

/-- `rsn_len` and `wpa_len`. -/
def secLens : ℕ × ℕ :=
  match rtwGetSecIe c.ies 0 c.ieLength ⟨none, 0, none, 0⟩ (c.ieLength + 1) with
  | none => (0, 0)
  | some (_, s) => (s.rsnLen, s.wpaLen)

/-- `encryp_protocol`. -/
def encrypProtocol : ℕ :=
  if 0 < c.secLens.1 then encrypProtocolWpa2
  else if 0 < c.secLens.2 then encrypProtocolWpa
  else if c.privacy ≠ 0 then encrypProtocolWep
  else encrypProtocolOpensys

/-- What is parsed of an element with security parameters, if there is one. -/
def parsed (parse : Mem → ℤ → ℤ → SuiteInfo → SuiteResult) : Option (ℤ × ℕ) → Option SuiteInfo
  | none => none
  | some (p, len) => if 0 < len then some (parse c.ies p (len + 2) ⟨0, 0, some 0⟩).info else none

/-- `group_cipher`, `pairwise_cipher` and `is_8021x`. A WPA element goes first. -/
def suites : SuiteInfo :=
  ((c.parsed rtwParseWpaIe (rtwGetWpaIe c.ies 12 (c.ieLength - 12))).or
    (c.parsed rtwParseWpa2Ie (c.getIe wpa2IeId))).getD ⟨0, 0, some 0⟩

/-- The comparison of the SSIDs. An SSID that is empty or begins with a zero byte is hidden. -/
def ssidMismatch : Prop :=
  (padded ndisLengthSsid c.ssid ≠ padded ndisLengthSsid c.curNetwork.ssid ∨
    c.ssid.length ≠ c.curNetwork.ssid.length) ∧ c.ssid.headD 0 ≠ 0 ∧ c.ssid.length ≠ 0

/-- The test for WPA and WPA2. -/
def usesSuites : Prop := c.encrypProtocol = encrypProtocolWpa ∨ c.encrypProtocol = encrypProtocolWpa2

/-- The comparison of the ciphers. -/
def cipherMismatch : Prop :=
  c.suites.pairwiseCipher ≠ c.curNetwork.bcnInfo.pairwiseCipher ∨
    c.suites.groupCipher ≠ c.curNetwork.bcnInfo.groupCipher

instance : Decidable c.ssidMismatch := inferInstanceAs (Decidable ((_ ∨ _) ∧ _ ∧ _))

instance : Decidable c.usesSuites := inferInstanceAs (Decidable (_ ∨ _))

instance : Decidable c.cipherMismatch := inferInstanceAs (Decidable (_ ∨ _))

/-- The copy of the SSID. -/
def copyActs : List BcnAct := if c.ssid.length = 0 then [] else [.copySsid c.ssid.length]

/-- The exit `_mismatch`. -/
def mismatch (acts : List BcnAct) : BcnRun := ⟨acts ++ [.unlock], c.bcnInfo, some false⟩

/-- The tests behind the place where the lock is given back. -/
def afterUnlock (acts : List BcnAct) : BcnRun :=
  if c.curNetwork.bcnInfo.encrypProtocol ≠ c.encrypProtocol then c.mismatch acts
  else if c.usesSuites ∧ c.cipherMismatch then c.mismatch acts
  else if c.usesSuites ∧ c.suites.is8021x ≠ some c.curNetwork.bcnInfo.is8021x then c.mismatch acts
  else ⟨acts, c.bcnInfo, some true⟩

/-- The copy of the SSID, and what follows it. -/
def copyAndCompare (acts : List BcnAct) : BcnRun :=
  if ndisLengthSsid < c.ssid.length then ⟨acts, c.bcnInfo, none⟩
  else if c.ssidMismatch then c.mismatch acts
  else if c.curNetwork.privacy ≠ c.privacy then c.mismatch acts
  else c.afterUnlock (acts ++ [.unlock])

/-- What is done from where the lock is taken. -/
def locked : BcnRun :=
  if c.bcnChannel ≠ c.curChannel then c.mismatch [.lock] else c.copyAndCompare (.lock :: c.copyActs)

/-- `rtw_check_bcn_info`. The length is an unsigned one, a frame shorter than the header is a long
one. -/
def rtwCheckBcnInfo : BcnRun :=
  if !c.associated then ⟨[], c.curNetwork.bcnInfo, some true⟩
  else if c.packetLen < hdr3addrLen ∨ maxIeSz < c.ieLength then ⟨[], c.curNetwork.bcnInfo, some false⟩
  else if c.curNetwork.macAddress ≠ macAt c.frame 16 then ⟨[], c.curNetwork.bcnInfo, some true⟩
  else if !c.alloc then ⟨[], c.curNetwork.bcnInfo, some false⟩
  else c.locked

/-! ## What is claimed -/

/-- The beacon is one of the access point that the station is connected to. -/
def OfConnected : Prop := c.associated = true ∧ macAt c.frame 16 = c.curNetwork.macAddress

/-- The channel differs. -/
def ChannelDiffers : Prop := c.bcnChannel ≠ c.curChannel

/-- The SSID is not hidden, and differs. -/
def SsidDiffers : Prop := c.ssid.headD 0 ≠ 0 ∧ c.ssid ≠ c.curNetwork.ssid

/-- The privacy bit differs. -/
def PrivacyDiffers : Prop := c.privacy ≠ c.curNetwork.privacy

/-- The protocol differs. -/
def ProtocolDiffers : Prop := c.encrypProtocol ≠ c.curNetwork.bcnInfo.encrypProtocol

/-- The ciphers or the 802.1X flag of a network with WPA or WPA2 differ. -/
def SuitesDiffer : Prop :=
  c.usesSuites ∧ (c.cipherMismatch ∨ c.suites.is8021x ≠ some c.curNetwork.bcnInfo.is8021x)

/-- The beacon differs from the current network. -/
def Differs : Prop :=
  c.ChannelDiffers ∨ c.SsidDiffers ∨ c.PrivacyDiffers ∨ c.ProtocolDiffers ∨ c.SuitesDiffer

/-- What is claimed of a run. The lock is taken once and given back once, at most 32 bytes of the
SSID are copied, and the result is a failure exactly for a beacon that differs. -/
structure ChecksRight : Prop where
  lock : (c.rtwCheckBcnInfo.acts.filter fun a => decide (a = .lock ∨ a = .unlock)) = [.lock, .unlock]
  copied : ∀ n, .copySsid n ∈ c.rtwCheckBcnInfo.acts → n ≤ ndisLengthSsid
  result : ∃ ok, c.rtwCheckBcnInfo.result = some ok ∧ (ok = false ↔ c.Differs)

/-- The condition. The frame is neither too short nor too long, and there is memory for the
descriptor. If the channel is the same, the SSID has at most 32 bytes, and a beacon with the same
SSID and privacy differs in nothing else. -/
def Checkable : Prop :=
  hdr3addrLen ≤ c.packetLen ∧ c.ieLength ≤ maxIeSz ∧ c.alloc = true ∧
    (c.ChannelDiffers ∨ c.ssid.length ≤ ndisLengthSsid ∧
      (c.SsidDiffers ∨ c.PrivacyDiffers ∨ ¬(c.ProtocolDiffers ∨ c.SuitesDiffer)))

/-! ## The runs -/

/-- The arrays and the lengths agree exactly for the same SSIDs. -/
theorem ssidMismatch_iff : c.ssidMismatch ↔ c.SsidDiffers := by
  have hhead : c.ssid.headD 0 ≠ 0 → c.ssid.length ≠ 0 := by
    intro hne hlen
    rw [List.eq_nil_of_length_eq_zero hlen] at hne
    exact hne rfl
  have hsame : padded ndisLengthSsid c.ssid = padded ndisLengthSsid c.curNetwork.ssid →
      c.ssid.length = c.curNetwork.ssid.length → c.ssid = c.curNetwork.ssid := by
    intro hpad hlen
    exact (List.append_inj hpad hlen).1
  unfold ssidMismatch SsidDiffers
  constructor
  · rintro ⟨hdiff, hne, -⟩
    refine ⟨hne, fun heq => ?_⟩
    rw [heq] at hdiff
    rcases hdiff with h | h <;> exact h rfl
  · rintro ⟨hne, hdiff⟩
    refine ⟨?_, hne, hhead hne⟩
    by_contra hnot
    obtain ⟨hpad, hlen⟩ := not_or.mp hnot
    exact hdiff (hsame (not_not.mp hpad) (not_not.mp hlen))

variable {c}

theorem rtwCheckBcnInfo_of_connected (h : c.OfConnected) :
    c.rtwCheckBcnInfo =
      if hdr3addrLen ≤ c.packetLen ∧ c.ieLength ≤ maxIeSz ∧ c.alloc = true then c.locked
      else ⟨[], c.curNetwork.bcnInfo, some false⟩ := by
  obtain ⟨hassoc, hmac⟩ := h
  rw [rtwCheckBcnInfo, if_neg (by simp [hassoc])]
  by_cases hlen : c.packetLen < hdr3addrLen ∨ maxIeSz < c.ieLength
  · rw [if_pos hlen, if_neg fun hok => by omega]
  · rw [if_neg hlen, if_neg (not_not.mpr hmac.symm)]
    by_cases halloc : c.alloc = true
    · rw [if_neg (by simp [halloc]), if_pos ⟨by omega, by omega, halloc⟩]
    · rw [if_pos (by simpa using halloc), if_neg fun hok => halloc hok.2.2]

/-- The actions on the lock. -/
def lockActs (acts : List BcnAct) : List BcnAct := acts.filter fun a => decide (a = .lock ∨ a = .unlock)

theorem lockActs_append (as bs : List BcnAct) : lockActs (as ++ bs) = lockActs as ++ lockActs bs :=
  List.filter_append ..

theorem lockActs_copyActs : lockActs c.copyActs = [] := by
  unfold copyActs
  split_ifs <;> rfl

theorem mem_copyActs {n : ℕ} : .copySsid n ∈ c.copyActs ↔
    c.ssid.length ≠ 0 ∧ n = c.ssid.length := by
  unfold copyActs
  split_ifs with h <;> simp [h]

/-- A test behind the unlock gives the lock back once more. -/
theorem afterUnlock_of_differs (acts : List BcnAct) (h : c.ProtocolDiffers ∨ c.SuitesDiffer) :
    c.afterUnlock acts = c.mismatch acts := by
  rcases h with h | ⟨huses, h | h⟩
  · exact if_pos fun heq => h heq.symm
  · rw [afterUnlock, if_pos (show c.usesSuites ∧ c.cipherMismatch from ⟨huses, h⟩), ite_self]
  · rw [afterUnlock, if_pos (show c.usesSuites ∧ _ from ⟨huses, h⟩), ite_self, ite_self]

theorem afterUnlock_of_same (acts : List BcnAct) (h : ¬(c.ProtocolDiffers ∨ c.SuitesDiffer)) :
    c.afterUnlock acts = ⟨acts, c.bcnInfo, some true⟩ := by
  obtain ⟨hproto, hsuites⟩ := not_or.mp h
  rw [afterUnlock, if_neg fun hne => hproto fun heq => hne heq.symm,
    if_neg fun hne => hsuites ⟨hne.1, Or.inl hne.2⟩, if_neg fun hne => hsuites ⟨hne.1,
    Or.inr hne.2⟩]

/-- The run in which the lock is held, by what the beacon differs in. -/
theorem locked_of_channel (h : c.ChannelDiffers) : c.locked = c.mismatch [.lock] := if_pos h

theorem locked_of_not_channel (h : ¬c.ChannelDiffers) :
    c.locked = c.copyAndCompare (.lock :: c.copyActs) := if_neg h

theorem locked_of_long (hch : ¬c.ChannelDiffers) (h : ndisLengthSsid < c.ssid.length) :
    c.locked = ⟨.lock :: c.copyActs, c.bcnInfo, none⟩ := by
  rw [locked_of_not_channel hch, copyAndCompare, if_pos h]

theorem locked_of_early (hch : ¬c.ChannelDiffers) (hlen : c.ssid.length ≤ ndisLengthSsid)
    (h : c.SsidDiffers ∨ c.PrivacyDiffers) : c.locked = c.mismatch (.lock :: c.copyActs) := by
  rw [locked_of_not_channel hch, copyAndCompare, if_neg (not_lt.mpr hlen)]
  by_cases hssid : c.ssidMismatch
  · exact if_pos hssid
  · have hpriv := h.resolve_left fun hdiff => hssid (c.ssidMismatch_iff.mpr hdiff)
    rw [if_neg hssid]
    exact if_pos fun heq => hpriv heq.symm

theorem locked_of_late (hch : ¬c.ChannelDiffers) (hlen : c.ssid.length ≤ ndisLengthSsid)
    (h : ¬(c.SsidDiffers ∨ c.PrivacyDiffers)) :
    c.locked = c.afterUnlock (.lock :: c.copyActs ++ [.unlock]) := by
  obtain ⟨hssid, hpriv⟩ := not_or.mp h
  rw [locked_of_not_channel hch, copyAndCompare, if_neg (not_lt.mpr hlen),
    if_neg fun hm => hssid (c.ssidMismatch_iff.mp hm),
    if_neg fun hne => hpriv fun heq => hne heq.symm]

/-- A run through the exit from where the lock is still held. -/
theorem checksRight_of_mismatch {acts : List BcnAct} (hrun : c.rtwCheckBcnInfo = c.mismatch acts)
    (hacts : lockActs acts = [.lock]) (hcopy : ∀ n, .copySsid n ∈ acts → n ≤ ndisLengthSsid)
    (hdiff : c.Differs) :
    c.ChecksRight := by
  refine ⟨?_, fun n hn => ?_, false, ?_, fun _ => hdiff, fun _ => rfl⟩
  · rw [hrun]
    exact (lockActs_append acts [.unlock]).trans (by rw [hacts]; rfl)
  · rw [hrun] at hn
    exact hcopy n (by simpa [mismatch] using hn)
  · rw [hrun, mismatch]

theorem lockActs_locked : lockActs (.lock :: c.copyActs) = [.lock] :=
  (lockActs_append [.lock] c.copyActs).trans (by rw [lockActs_copyActs]; rfl)

theorem lockActs_unlocked : lockActs (.lock :: c.copyActs ++ [.unlock]) = [.lock, .unlock] := by
  rw [lockActs_append, lockActs_locked]
  rfl

/-- The copy is the only one, and it is as long as the SSID. -/
theorem copied_of_le (hlen : c.ssid.length ≤ ndisLengthSsid) {n : ℕ}
    (hn : .copySsid n ∈ .lock :: c.copyActs) : n ≤ ndisLengthSsid := by
  obtain ⟨-, rfl⟩ := mem_copyActs.mp (List.mem_of_ne_of_mem (by simp) hn)
  exact hlen

/-- A mismatch that is found behind the unlock gives the lock back twice. -/
theorem not_checksRight_of_late
    (hrun : c.rtwCheckBcnInfo = c.afterUnlock (.lock :: c.copyActs ++ [.unlock]))
    (hlate : c.ProtocolDiffers ∨ c.SuitesDiffer) : ¬c.ChecksRight := by
  intro hright
  rw [afterUnlock_of_differs _ hlate] at hrun
  have htwice := hright.lock
  rw [hrun] at htwice
  have hacts : lockActs (.lock :: c.copyActs ++ [.unlock] ++ [.unlock]) = [.lock, .unlock] := htwice
  rw [lockActs_append, lockActs_unlocked] at hacts
  exact absurd hacts (by decide)

/-- A run to the end. -/
theorem checksRight_of_same
    (hrun : c.rtwCheckBcnInfo = c.afterUnlock (.lock :: c.copyActs ++ [.unlock]))
    (hlen : c.ssid.length ≤ ndisLengthSsid) (hsame : ¬c.Differs) : c.ChecksRight := by
  have hlate : ¬(c.ProtocolDiffers ∨ c.SuitesDiffer) := fun h => hsame (Or.inr (Or.inr (Or.inr h)))
  rw [afterUnlock_of_same _ hlate] at hrun
  refine ⟨?_, fun n hn => ?_, true, ?_, by simpa using hsame⟩
  · rw [hrun]
    exact lockActs_unlocked
  · rw [hrun] at hn
    exact copied_of_le hlen (by simpa using hn)
  · rw [hrun]

/-- `rtw_check_bcn_info` works as claimed on a beacon of the connected access point exactly for the
frames that it can check. -/
theorem checksRight_iff (h : c.OfConnected) : c.ChecksRight ↔ c.Checkable := by
  have hrun := rtwCheckBcnInfo_of_connected h
  by_cases hok : hdr3addrLen ≤ c.packetLen ∧ c.ieLength ≤ maxIeSz ∧ c.alloc = true
  · rw [if_pos hok] at hrun
    by_cases hch : c.ChannelDiffers
    · refine iff_of_true ?_ ⟨hok.1, hok.2.1, hok.2.2, Or.inl hch⟩
      exact checksRight_of_mismatch (hrun.trans (locked_of_channel hch)) rfl (by simp) (Or.inl hch)
    · rcases Nat.lt_or_ge ndisLengthSsid c.ssid.length with hlong | hlen
      · -- the copy itself
        refine iff_of_false (fun hright => ?_) fun hcheck => ?_
        · have hmem : .copySsid c.ssid.length ∈ c.rtwCheckBcnInfo.acts := by
            rw [hrun, locked_of_long hch hlong]
            exact List.mem_cons_of_mem _ (mem_copyActs.mpr ⟨by omega, rfl⟩)
          have hle := hright.copied _ hmem
          omega
        · have hle := (hcheck.2.2.2.resolve_left hch).1
          omega
      · by_cases hearly : c.SsidDiffers ∨ c.PrivacyDiffers
        · have hdiff : c.Differs := by
            rcases hearly with h | h
            · exact Or.inr (Or.inl h)
            · exact Or.inr (Or.inr (Or.inl h))
          refine iff_of_true ?_ ⟨hok.1, hok.2.1, hok.2.2, Or.inr ⟨hlen, ?_⟩⟩
          · exact checksRight_of_mismatch (hrun.trans (locked_of_early hch hlen hearly))
              lockActs_locked (fun n hn => copied_of_le hlen hn) hdiff
          · rcases hearly with h | h
            · exact Or.inl h
            · exact Or.inr (Or.inl h)
        · rw [locked_of_late hch hlen hearly] at hrun
          obtain ⟨hssid, hpriv⟩ := not_or.mp hearly
          by_cases hlate : c.ProtocolDiffers ∨ c.SuitesDiffer
          · -- the second unlock
            refine iff_of_false (not_checksRight_of_late hrun hlate) fun hcheck => ?_
            rcases (hcheck.2.2.2.resolve_left hch).2 with h | h | h
            · exact hssid h
            · exact hpriv h
            · exact h hlate
          · have hsame : ¬c.Differs := by
              rintro (h | h | h | h)
              · exact hch h
              · exact hssid h
              · exact hpriv h
              · exact hlate h
            exact iff_of_true (checksRight_of_same hrun hlen hsame)
              ⟨hok.1, hok.2.1, hok.2.2, Or.inr ⟨hlen, Or.inr (Or.inr hlate)⟩⟩
  · rw [if_neg hok] at hrun
    refine iff_of_false (fun hright => ?_) fun hcheck => hok ⟨hcheck.1, hcheck.2.1, hcheck.2.2.1⟩
    have hlock := hright.lock
    rw [hrun] at hlock
    exact absurd hlock.symm (List.cons_ne_nil _ _)

/-- A station that is connected to a network with WPA2, and a beacon of its access point without an
RSN element. -/
def sample : BcnCheck where
  associated := true
  alloc := true
  curChannel := 6
  curNetwork :=
    { macAddress := Vector.replicate 6 0
      ssid := []
      ssid_le := by decide
      privacy := 1
      bcnInfo := ⟨encrypProtocolWpa2, wpaCipherCcmp, wpaCipherCcmp, 0, 0, 0⟩ }
  frame := Mem.write (fun _ => 0) 34 [0x10, 0]
  packetLen := 36
  heap := fun _ => 0

theorem checksRight_iff_sample : sample.ChecksRight ↔ sample.Checkable := checksRight_iff ⟨rfl, by decide⟩

/-- The lock is given back twice. -/
theorem not_checksRight_sample : ¬sample.ChecksRight := by
  intro h
  have hacts : sample.rtwCheckBcnInfo.acts = [.lock, .unlock, .unlock] := by decide
  have hlock := h.lock
  rw [hacts] at hlock
  exact absurd hlock (by decide)

end BcnCheck

end Rtl8188eu
