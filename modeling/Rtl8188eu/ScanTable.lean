import Rtl8188eu.JoinEvent

/-!
# The table of scanned networks

`core/rtw_mlme.c` keeps the networks it has heard of in `MAX_BSS_CNT` entries, which are on
`free_bss_pool` or on `scanned_queue`. `rtw_update_scanned_network` updates the entry of a network,
takes a free one or, without a free one, overwrites the oldest. `_rtw_free_network_queue` frees
entries by age, and `rtw_free_assoc_resources` the entry of the current network.
`rtw_joinbss_event_prehandle` marks the entry of the network that was joined as fixed.

The time, the state of the driver and the current network come with each call, so the runs are those
of any driver around the table. The table keeps its books in all of them (`scanTable_run`). A fixed
entry stays as long as the oldest entry is not fixed whenever one has to be overwritten
(`fixed_run`).
-/

namespace Rtl8188eu

open LinkedLists Runs

/-- `MAX_BSS_CNT`. -/
abbrev maxBssCnt : ℕ := 128
/-- `SCANQUEUE_LIFETIME`, in seconds. -/
def scanqueueLifetime : ℕ := 20
/-- `WLAN_CAPABILITY_BSS`. -/
def wlanCapabilityBss : UInt16 := 0x0001
/-- `WLAN_CAPABILITY_IBSS`. -/
def wlanCapabilityIbss : UInt16 := 0x0002

/-- The number of an entry. -/
abbrev NetId := Fin maxBssCnt

/-- The fields of `struct wlan_bssid_ex` that the table uses. -/
structure WlanBssidEx where
  macAddress : MacAddr
  /-- `Reserved[0]` : the kind of frame, 1 for a beacon, 2 for a probe request, 3 for a probe
  response. -/
  reserved : UInt8
  ssidLength : ℕ
  ssid : Vector UInt8 32
  rssi : ℤ
  signalStrength : UInt8
  signalQuality : UInt8
  ieLength : ℕ
  ies : ℕ → UInt8

/-- What `collect_bss_info` accepts : the SSID has its place, and the elements begin with the fixed
fields and fit. -/
def WlanBssidEx.Collected (b : WlanBssidEx) : Prop :=
  b.ssidLength ≤ 32 ∧ 12 ≤ b.ieLength ∧ b.ieLength ≤ maxIeSz

/-- `struct wlan_network`. -/
structure WlanNetwork where
  fixed : Bool
  /-- The jiffies, an `unsigned long`. -/
  lastScanned : BitVec 64
  network : WlanBssidEx

/-- The table. -/
structure ScanTable where
  network : NetId → WlanNetwork
  freeBssPool : List NetId
  scannedQueue : List NetId
  numOfScanned : UInt32

/-- What the functions of the table read of the driver around it. -/
structure ScanEnv where
  jiffies : BitVec 64
  /-- `HZ`. -/
  hz : ℕ
  fwState : ℕ
  curNetwork : WlanBssidEx
  /-- `recvpriv.signal_strength`. -/
  signalStrength : UInt8
  /-- `recvpriv.signal_qual`. -/
  signalQual : UInt8
  asocStaCount : ℤ

/-- `time_after`. -/
def timeAfter (a b : BitVec 64) : Bool := (b - a).msb

/-! ## Networks -/

namespace WlanBssidEx

/-- `rtw_get_capability`. -/
def capability (b : WlanBssidEx) : UInt16 :=
  (b.ies 10).toUInt16 ||| (b.ies 11).toUInt16 <<< 8

/-- `is_same_network`. -/
def isSameNetwork (src dst : WlanBssidEx) : Bool :=
  src.ssidLength == dst.ssidLength && src.macAddress == dst.macAddress &&
    src.ssid.toList.take src.ssidLength == dst.ssid.toList.take src.ssidLength &&
    src.capability &&& wlanCapabilityIbss == dst.capability &&& wlanCapabilityIbss &&
    src.capability &&& wlanCapabilityBss == dst.capability &&& wlanCapabilityBss

/-- `memcpy` of `get_wlan_bssid_ex_sz(src)` bytes : the elements of `dst` behind those of `src`
stay. -/
def copy (dst src : WlanBssidEx) : WlanBssidEx :=
  { src with ies := fun i => if i < src.ieLength then src.ies i else dst.ies i }

/-- A frame that was not received on the channel of its network says nothing about the signal. -/
def clearQuality (b : WlanBssidEx) : WlanBssidEx :=
  if b.signalQuality = 101 then { b with signalQuality := 0 } else b

/-- `update_network`. The received power of `src` is not used. -/
def updateNetwork (dst src : WlanBssidEx) (env : ScanEnv) (updateIe : Bool) : WlanBssidEx :=
  let linked := checkFwstate env.fwState fwLinked && env.curNetwork.isSameNetwork src
  let new := if updateIe then dst.copy src else dst
  { new with
    signalStrength := if linked then env.signalStrength else dst.signalStrength
    signalQuality := if linked then env.signalQual else dst.signalQuality
    rssi := dst.rssi }

/-- What `is_same_network` compares. -/
def key (b : WlanBssidEx) : ℕ × MacAddr × List UInt8 × UInt16 × UInt16 :=
  (b.ssidLength, b.macAddress, b.ssid.toList.take b.ssidLength, b.capability &&& wlanCapabilityIbss,
    b.capability &&& wlanCapabilityBss)

theorem isSameNetwork_iff {a b : WlanBssidEx} : a.isSameNetwork b = true ↔ a.key = b.key := by
  simp only [isSameNetwork, key, Bool.and_eq_true, beq_iff_eq, Prod.mk.injEq, and_assoc]
  constructor
  · rintro ⟨hlen, hmac, hssid, hibss, hbss⟩
    exact ⟨hlen, hmac, by rw [hssid, hlen], hibss, hbss⟩
  · rintro ⟨hlen, hmac, hssid, hibss, hbss⟩
    exact ⟨hlen, hmac, by rw [hssid, hlen], hibss, hbss⟩

/-- The capabilities are among the bytes that are copied. -/
theorem key_copy {dst src : WlanBssidEx} (h : src.Collected) : (dst.copy src).key = src.key := by
  have hcap : (dst.copy src).capability = src.capability := by
    have h10 : 10 < src.ieLength := by
      have := h.2.1
      omega
    have h11 : 11 < src.ieLength := h.2.1
    simp only [capability, copy, if_pos h10, if_pos h11]
  simp only [key, hcap]
  rfl

theorem key_clearQuality (b : WlanBssidEx) : b.clearQuality.key = b.key := by
  unfold clearQuality
  split
  · rfl
  · rfl

theorem key_updateNetwork {dst src : WlanBssidEx} {env : ScanEnv} {updateIe : Bool}
    (h : src.Collected) (hsame : dst.key = src.key) :
    (dst.updateNetwork src env updateIe).key = src.key := by
  have hkey : (dst.updateNetwork src env updateIe).key =
    (if updateIe then dst.copy src else dst).key := by
    simp only [updateNetwork, key, capability]
  rw [hkey]
  split
  · exact key_copy h
  · exact hsame

end WlanBssidEx

/-- A call of the functions of the table. -/
inductive ScanEvent
  /-- `rtw_update_scanned_network`, with what `collect_bss_info` has collected. -/
  | scanned (env : ScanEnv) (target : { b : WlanBssidEx // b.Collected })
  /-- `_rtw_free_network_queue`. -/
  | freeQueue (env : ScanEnv) (isfreeall : Bool)
  /-- `rtw_free_assoc_resources`. -/
  | freeAssoc (env : ScanEnv)
  /-- `rtw_joinbss_event_prehandle`. -/
  | join (env : ScanEnv) (ev : JoinEvent)

namespace ScanTable

/-- Change one entry. -/
def updateEntry (s : ScanTable) (k : NetId) (f : WlanNetwork → WlanNetwork) : ScanTable :=
  { s with network := Function.update s.network k (f (s.network k)) }

/-- `_rtw_init_mlme_priv`. -/
def init : ScanTable where
  network := fun _ =>
    { fixed := false, lastScanned := 0
      network :=
        { macAddress := zeroAddr, reserved := 0, ssidLength := 0, ssid := Vector.replicate 32 0
          rssi := 0, signalStrength := 0, signalQuality := 0, ieLength := 0, ies := fun _ => 0 } }
  freeBssPool := List.finRange maxBssCnt
  scannedQueue := []
  numOfScanned := 0

/-- The first entry of the queue for the network. -/
def findSame (s : ScanTable) (target : WlanBssidEx) : Option NetId :=
  s.scannedQueue.find? fun k => (s.network k).network.isSameNetwork target

/-- The older one of two entries. -/
def older (s : ScanTable) (oldest : Option NetId) (k : NetId) : Option NetId :=
  match oldest with
  | none => some k
  | some o => if timeAfter (s.network o).lastScanned (s.network k).lastScanned then some k else some o

/-- The oldest entry of the queue, as `rtw_update_scanned_network` looks for it. -/
def oldest (s : ScanTable) : Option NetId := s.scannedQueue.foldl s.older none

/-- An entry becomes one for the network `target`. -/
def fill (target : WlanBssidEx) (env : ScanEnv) (e : WlanNetwork) : WlanNetwork where
  fixed := false
  lastScanned := env.jiffies
  network := (e.network.copy target).clearQuality

/-- An entry is updated. -/
def refresh (target : WlanBssidEx) (env : ScanEnv) (e : WlanNetwork) : WlanNetwork :=
  let updateIe := target.reserved ≠ 2 ∧ e.network.reserved ≤ target.reserved
  { e with
    lastScanned := env.jiffies
    network := e.network.updateNetwork target env updateIe }

/-- `rtw_update_scanned_network`. The result is `none` where the source follows a null pointer. -/
def rtwUpdateScannedNetwork (s : ScanTable) (env : ScanEnv) (target : WlanBssidEx) :
    Option ScanTable :=
  match s.findSame target with
  | some k => some (s.updateEntry k (refresh target env))
  | none =>
    match s.freeBssPool with
    | [] => s.oldest.map fun k => s.updateEntry k (fill target env)
    | k :: rest =>
      -- `_rtw_alloc_network`, and the entry is put to the end of the queue
      some { s.updateEntry k (fill target env) with
        freeBssPool := rest
        scannedQueue := s.scannedQueue ++ [k]
        numOfScanned := s.numOfScanned + 1 }

/-- The entry goes from the queue to the pool. -/
def release (s : ScanTable) (k : NetId) : ScanTable :=
  { s with
    scannedQueue := s.scannedQueue.filter (· ≠ k)
    freeBssPool := s.freeBssPool ++ [k]
    numOfScanned := s.numOfScanned - 1 }

/-- The entry is too old. -/
def expired (env : ScanEnv) (e : WlanNetwork) : Bool :=
  let adhoc := checkFwstate env.fwState wifiAdhocMasterState || checkFwstate env.fwState wifiAdhocState
  let lifetime := if adhoc then 1 else scanqueueLifetime
  let currTime : BitVec 64 := (env.jiffies.setWidth 32).setWidth 64
  lifetime ≤ ((currTime - e.lastScanned).toNat / env.hz) % 2 ^ 32

/-- `_rtw_free_network`. -/
def rtwFreeNetwork (env : ScanEnv) (isfreeall : Bool) (s : ScanTable) (k : NetId) : ScanTable :=
  if (s.network k).fixed then s
  else if !isfreeall && !expired env (s.network k) then s
  else s.release k

/-- `_rtw_free_network_nolock`. -/
def rtwFreeNetworkNolock (s : ScanTable) (k : NetId) : ScanTable :=
  if (s.network k).fixed then s else s.release k

/-- `_rtw_free_network_queue`. The next entry is read before one is freed, so the loop goes over the
queue as it was. -/
def rtwFreeNetworkQueue (s : ScanTable) (env : ScanEnv) (isfreeall : Bool) : ScanTable :=
  s.scannedQueue.foldl (rtwFreeNetwork env isfreeall) s

/-- `_rtw_find_network`. -/
def rtwFindNetwork (s : ScanTable) (addr : MacAddr) : Option NetId :=
  if addr = zeroAddr then none
  else s.scannedQueue.find? fun k => (s.network k).network.macAddress = addr

/-- `fixed` of the entry that was found. -/
def setFixed (s : ScanTable) (pwlan : Option NetId) (fixed : Bool) : ScanTable :=
  match pwlan with
  | none => s
  | some k => s.updateEntry k fun e => { e with fixed := fixed }

/-- `rtw_free_assoc_resources`, its part about the table. -/
def rtwFreeAssocResources (s : ScanTable) (env : ScanEnv) : ScanTable :=
  let pwlan := s.rtwFindNetwork env.curNetwork.macAddress
  let s := s.setFixed pwlan false
  match pwlan with
  | none => s
  | some k =>
    if checkFwstate env.fwState wifiAdhocMasterState && env.asocStaCount = 1 then
      s.rtwFreeNetworkNolock k
    else s

/-- The entry of the joined network becomes fixed. -/
def fixTarget (s : ScanTable) (env : ScanEnv) (addr : MacAddr) : ScanTable :=
  if checkFwstate env.fwState wifiStationState then s.setFixed (s.rtwFindNetwork addr) true else s

/-- `rtw_joinbss_event_prehandle`, its part about the table. -/
def rtwJoinbssEventPrehandle (s : ScanTable) (env : ScanEnv) (ev : JoinEvent) : ScanTable :=
  let cur := env.curNetwork.macAddress
  let L := InfoLayout.lp64
  if u32 (L.bssidExSz + ev.ieLength) > L.bssidExSz + maxIeSz then s
  else if ev.joinRes ≤ 0 ∨ ¬ checkFwstate env.fwState fwUnderLinking then s
  else if checkFwstate env.fwState fwLinked then
    if ev.macAddress = cur then s
    else (s.setFixed (s.rtwFindNetwork cur) false).fixTarget env ev.macAddress
  else s.fixTarget env ev.macAddress

/-- One call. -/
def scanStep (s : ScanTable) : ScanEvent → Option ScanTable
  | .scanned env target => s.rtwUpdateScannedNetwork env target.val
  | .freeQueue env isfreeall => some (s.rtwFreeNetworkQueue env isfreeall)
  | .freeAssoc env => some (s.rtwFreeAssocResources env)
  | .join env ev => some (s.rtwJoinbssEventPrehandle env ev)

/-! ## The invariant -/

variable {s s' t : ScanTable} {j k : NetId}

/-- What `is_same_network` compares of an entry. -/
def keyOf (s : ScanTable) (k : NetId) : ℕ × MacAddr × List UInt8 × UInt16 × UInt16 :=
  (s.network k).network.key

/-- What every call keeps. -/
structure ScanInv (s : ScanTable) : Prop where
  place : ∀ k, s.freeBssPool.count k + s.scannedQueue.count k = 1
  count : s.numOfScanned.toNat = s.scannedQueue.length
  distinct : ∀ j ∈ s.scannedQueue, ∀ k ∈ s.scannedQueue, s.keyOf j = s.keyOf k → j = k

theorem ScanInv.free_iff (h : ScanInv s) : k ∈ s.freeBssPool ↔ k ∉ s.scannedQueue := by
  have hplace := h.place k
  rw [← List.count_pos_iff, ← List.count_eq_zero]
  omega

theorem ScanInv.nodup (h : ScanInv s) : s.scannedQueue.Nodup := by
  rw [List.nodup_iff_count_le_one]
  intro k
  have hplace := h.place k
  omega

theorem ScanInv.length_le (h : ScanInv s) : s.scannedQueue.length ≤ maxBssCnt := by
  simpa using h.nodup.length_le_card

theorem keyOf_updateEntry {f : WlanNetwork → WlanNetwork} :
    (s.updateEntry k f).keyOf j = if j = k then (f (s.network k)).network.key else s.keyOf j := by
  unfold keyOf updateEntry
  dsimp only
  split
  · rename_i hj
    rw [hj, Function.update_self]
  · rename_i hj
    rw [Function.update_of_ne hj]

/-- An entry changes, and it stays an entry for its network. -/
theorem scanInv_same (h : ScanInv s) {f : WlanNetwork → WlanNetwork}
    (hf : (f (s.network k)).network.key = s.keyOf k) : ScanInv (s.updateEntry k f) := by
  have hkey : ∀ j, (s.updateEntry k f).keyOf j = s.keyOf j := by
    intro j
    rw [keyOf_updateEntry]
    split
    · rename_i hj
      rw [hf, hj]
    · rfl
  refine ⟨h.place, h.count, fun i hi j hj hij => ?_⟩
  rw [hkey, hkey] at hij
  exact h.distinct i hi j hj hij

theorem findSame_none (h : s.findSame b = none) (hj : j ∈ s.scannedQueue) : s.keyOf j ≠ b.key := by
  intro hkey
  have hno := List.find?_eq_none.mp h j hj
  exact hno (WlanBssidEx.isSameNetwork_iff.mpr hkey)

theorem findSame_some (h : s.findSame b = some k) : k ∈ s.scannedQueue ∧ s.keyOf k = b.key := by
  unfold findSame at h
  exact ⟨List.mem_of_find?_eq_some h,
    WlanBssidEx.isSameNetwork_iff.mp (by simpa using List.find?_some h)⟩

/-- The entry `k` becomes one for a network that no entry of the queue is for. -/
theorem distinct_fill {b : WlanBssidEx} {env : ScanEnv} (hb : b.Collected)
    (hnew : ∀ j ∈ s.scannedQueue, s.keyOf j ≠ b.key)
    (hdist : ∀ i ∈ s.scannedQueue, ∀ j ∈ s.scannedQueue, s.keyOf i = s.keyOf j → i = j) :
    ∀ i, (i ∈ s.scannedQueue ∨ i = k) → ∀ j, (j ∈ s.scannedQueue ∨ j = k) →
      (s.updateEntry k (fill b env)).keyOf i = (s.updateEntry k (fill b env)).keyOf j → i = j := by
  have hfill : (fill b env (s.network k)).network.key = b.key := by
    rw [fill, WlanBssidEx.key_clearQuality, WlanBssidEx.key_copy hb]
  intro i hi j hj hij
  rw [keyOf_updateEntry, keyOf_updateEntry, hfill] at hij
  by_cases hik : i = k
  · by_cases hjk : j = k
    · rw [hik, hjk]
    · rw [if_pos hik, if_neg hjk] at hij
      exact absurd hij.symm (hnew j (hj.resolve_right hjk))
  · by_cases hjk : j = k
    · rw [if_neg hik, if_pos hjk] at hij
      exact absurd hij (hnew i (hi.resolve_right hik))
    · rw [if_neg hik, if_neg hjk] at hij
      exact hdist i (hi.resolve_right hik) j (hj.resolve_right hjk) hij

theorem older_isSome (s : ScanTable) (o : Option NetId) (k : NetId) :
    (s.older o k).isSome = true := by
  unfold older
  split
  · rfl
  · split
    · rfl
    · rfl

theorem older_foldl : ∀ (l : List NetId) (o : Option NetId),
    (∀ k, l.foldl s.older o = some k → k ∈ l ∨ o = some k) ∧
      (l ≠ [] ∨ o.isSome = true → (l.foldl s.older o).isSome = true)
  | [], o => by
    refine ⟨fun k hk => Or.inr hk, fun h => ?_⟩
    rcases h with h | h
    · exact absurd rfl h
    · exact h
  | x :: l, o => by
    obtain ⟨hmem, hsome⟩ := older_foldl l (s.older o x)
    refine ⟨fun k hk => ?_, fun _ => hsome (Or.inr (s.older_isSome o x))⟩
    rcases hmem k hk with hk | hk
    · exact Or.inl (List.mem_cons_of_mem x hk)
    · unfold older at hk
      split at hk
      · cases hk
        exact Or.inl List.mem_cons_self
      · split at hk
        · cases hk
          exact Or.inl List.mem_cons_self
        · exact Or.inr hk

/-! ## The calls -/

/-- The entries of a full table are all on the queue, so one of them is the oldest. -/
theorem scanInv_scanned (h : ScanInv s) (env : ScanEnv) {b : WlanBssidEx} (hb : b.Collected) :
    ∃ t, s.rtwUpdateScannedNetwork env b = some t ∧ ScanInv t := by
  unfold rtwUpdateScannedNetwork
  split
  · rename_i k hk
    refine ⟨_, rfl, scanInv_same h ?_⟩
    have hkey := (findSame_some hk).2
    exact (WlanBssidEx.key_updateNetwork hb hkey).trans hkey.symm
  · rename_i hnone
    have hnew := fun j (hj : j ∈ s.scannedQueue) => findSame_none hnone hj
    split
    · rename_i hpool
      have hall : ∀ k, k ∈ s.scannedQueue := by
        intro k
        by_contra hk
        have hfree := h.free_iff.mpr hk
        rw [hpool] at hfree
        exact absurd hfree List.not_mem_nil
      have hsome : s.oldest.isSome = true :=
        (older_foldl s.scannedQueue none).2 (Or.inl (List.ne_nil_of_mem (hall ⟨0, by decide⟩)))
      obtain ⟨k, hk⟩ := Option.isSome_iff_exists.mp hsome
      rw [hk]
      refine ⟨_, rfl, h.place, h.count, fun i hi j hj => ?_⟩
      exact distinct_fill hb hnew h.distinct i (Or.inl hi) j (Or.inl hj)
    · rename_i k rest hpool
      refine ⟨_, rfl, fun j => ?_, ?_, fun i hi j hj => ?_⟩
      · have hplace := h.place j
        rw [hpool, List.count_cons] at hplace
        dsimp only
        rw [List.count_append, List.count_singleton]
        omega
      · have hk : k ∉ s.scannedQueue := h.free_iff.mp (by rw [hpool]; exact List.mem_cons_self)
        have hlt : s.scannedQueue.length < maxBssCnt := by
          have hnd : (k :: s.scannedQueue).Nodup := List.nodup_cons.mpr ⟨hk, h.nodup⟩
          simpa using hnd.length_le_card
        have hcount := h.count
        dsimp only
        rw [List.length_append, List.length_singleton, UInt32.toNat_add, hcount,
          show UInt32.toNat 1 = 1 from rfl]
        unfold maxBssCnt at hlt
        exact Nat.mod_eq_of_lt (by omega)
      · have hmem : ∀ x ∈ s.scannedQueue ++ [k], x ∈ s.scannedQueue ∨ x = k := by
          intro x hx
          simpa using hx
        exact distinct_fill hb hnew h.distinct i (hmem i hi) j (hmem j hj)

/-- An entry of the queue goes to the pool. -/
theorem scanInv_release (h : ScanInv s) (hk : k ∈ s.scannedQueue) : ScanInv (s.release k) := by
  have hone : s.scannedQueue.count k = 1 := List.count_eq_one_of_mem h.nodup hk
  refine ⟨fun j => ?_, ?_, fun i hi j hj => ?_⟩
  · have hplace := h.place j
    unfold release
    dsimp only
    rw [List.count_append, List.count_singleton]
    rcases eq_or_ne j k with rfl | hj
    · have hzero : (s.scannedQueue.filter (· ≠ j)).count j = 0 := by simp [List.count_eq_zero]
      rw [hzero, if_pos (beq_self_eq_true j)]
      omega
    · have hsame : (s.scannedQueue.filter (· ≠ k)).count j = s.scannedQueue.count j :=
        List.count_filter (by simpa using hj)
      rw [hsame, if_neg (by simpa using hj.symm)]
      omega
  · have hpos : 0 < s.scannedQueue.length := List.length_pos_of_mem hk
    have hle := h.length_le
    have hlen := length_filter_ne s.scannedQueue k
    have hcount := h.count
    have hone' : (1 : UInt32) ≤ s.numOfScanned := by
      rw [UInt32.le_iff_toNat_le, hcount]
      exact hpos
    unfold release
    dsimp only
    rw [UInt32.toNat_sub_of_le _ _ hone', hcount, show UInt32.toNat 1 = 1 from rfl]
    omega
  · exact h.distinct i (List.mem_filter.mp hi).1 j (List.mem_filter.mp hj).1

theorem scanInv_freeNetwork (h : ScanInv s) (hk : k ∈ s.scannedQueue) (env : ScanEnv)
    (isfreeall : Bool) : ScanInv (rtwFreeNetwork env isfreeall s k) ∧
      ∀ j ∈ s.scannedQueue, j ≠ k → j ∈ (rtwFreeNetwork env isfreeall s k).scannedQueue := by
  unfold rtwFreeNetwork
  split
  · exact ⟨h, fun j hj _ => hj⟩
  split
  · exact ⟨h, fun j hj _ => hj⟩
  · refine ⟨scanInv_release h hk, fun j hj hjk => ?_⟩
    exact List.mem_filter.mpr ⟨hj, by simpa using hjk⟩

/-- The entries of the queue are freed one after the other. Those that are still to come are on
it. -/
theorem scanInv_freeAll (env : ScanEnv) (isfreeall : Bool) : ∀ (ks : List NetId) {s : ScanTable},
    ScanInv s → ks.Nodup → (∀ k ∈ ks, k ∈ s.scannedQueue) →
    ScanInv (ks.foldl (rtwFreeNetwork env isfreeall) s)
  | [], _, h, _, _ => h
  | k :: ks, s, h, hnd, hks => by
    obtain ⟨hk, hnd⟩ := List.nodup_cons.mp hnd
    obtain ⟨h', hstay⟩ := scanInv_freeNetwork h (hks k List.mem_cons_self) env isfreeall
    rw [List.foldl_cons]
    refine scanInv_freeAll env isfreeall ks h' hnd fun j hj => ?_
    exact hstay j (hks j (List.mem_cons_of_mem k hj)) (ne_of_mem_of_not_mem hj hk)

theorem scanInv_setFixed (h : ScanInv s) (pwlan : Option NetId) (fixed : Bool) :
    ScanInv (s.setFixed pwlan fixed) := by
  cases pwlan with
  | none => exact h
  | some k => exact scanInv_same (f := fun e => { e with fixed := fixed }) h rfl

theorem mem_of_rtwFindNetwork {addr : MacAddr} (h : s.rtwFindNetwork addr = some k) :
    k ∈ s.scannedQueue ∧ (s.network k).network.macAddress = addr := by
  unfold rtwFindNetwork at h
  split at h
  · simp at h
  · exact ⟨List.mem_of_find?_eq_some h, by simpa using List.find?_some h⟩

theorem scanInv_freeAssoc (h : ScanInv s) (env : ScanEnv) :
    ScanInv (s.rtwFreeAssocResources env) := by
  unfold rtwFreeAssocResources
  cases hk : s.rtwFindNetwork env.curNetwork.macAddress with
  | none => exact h
  | some k =>
    have hu := scanInv_setFixed h (some k) false
    dsimp only
    split
    · unfold rtwFreeNetworkNolock
      split
      · exact hu
      · exact scanInv_release hu (mem_of_rtwFindNetwork hk).1
    · exact hu

theorem scanInv_fixTarget (h : ScanInv s) (env : ScanEnv) (addr : MacAddr) :
    ScanInv (s.fixTarget env addr) := by
  unfold fixTarget
  split
  · exact scanInv_setFixed h _ true
  · exact h

theorem scanInv_join (h : ScanInv s) (env : ScanEnv) (ev : JoinEvent) :
    ScanInv (s.rtwJoinbssEventPrehandle env ev) := by
  unfold rtwJoinbssEventPrehandle
  extract_lets cur L
  split
  · exact h
  split
  · exact h
  split
  · split
    · exact h
    · exact scanInv_fixTarget (scanInv_setFixed h _ false) env _
  · exact scanInv_fixTarget h env _

theorem scanInv_step (h : ScanInv s) (e : ScanEvent) : ∃ t, s.scanStep e = some t ∧ ScanInv t := by
  cases e with
  | scanned env target => exact scanInv_scanned h env target.2
  | freeQueue env isfreeall =>
    exact ⟨_, rfl, scanInv_freeAll env isfreeall _ h h.nodup fun _ hk => hk⟩
  | freeAssoc env => exact ⟨_, rfl, scanInv_freeAssoc h env⟩
  | join env ev => exact ⟨_, rfl, scanInv_join h env ev⟩

/-! ## Runs -/

/-- The table keeps its books. -/
structure ScanOk (s : ScanTable) : Prop where
  /-- An entry is once on one of the two lists, and not on the other. -/
  place : ∀ k, (s.freeBssPool.count k = 1 ∧ k ∉ s.scannedQueue) ∨
    (k ∉ s.freeBssPool ∧ s.scannedQueue.count k = 1)
  count : s.numOfScanned.toNat = s.scannedQueue.length
  distinct : ∀ j ∈ s.scannedQueue, ∀ k ∈ s.scannedQueue,
    (s.network j).network.isSameNetwork (s.network k).network = true → j = k

theorem ScanInv.ok (h : ScanInv s) : ScanOk s := by
  refine ⟨fun k => ?_, h.count, fun j hj k hk hjk => ?_⟩
  · have hplace := h.place k
    rw [← List.count_eq_zero, ← List.count_eq_zero]
    omega
  · exact h.distinct j hj k hk (WlanBssidEx.isSameNetwork_iff.mp hjk)

theorem scanInv_init : ScanInv init := by
  refine ⟨fun k => ?_, rfl, fun j hj => ?_⟩
  · have hone : (List.finRange maxBssCnt).count k = 1 :=
      List.count_eq_one_of_mem (List.nodup_finRange _) (List.mem_finRange k)
    simp [init, hone]
  · exact absurd hj List.not_mem_nil

/-- Every run of the table goes on, without a null pointer where an entry has to be overwritten, and
the table keeps its books. -/
theorem scanTable_run (es : List ScanEvent) : ∃ t, runM scanStep init es = some t ∧ ScanOk t := by
  obtain ⟨t, ht, hinv⟩ := exists_runM (I := ScanInv) (fun _ e h => scanInv_step h e) es scanInv_init
  exact ⟨t, ht, hinv.ok⟩

/-! ## The associated network -/

/-- `rtw_free_assoc_resources` or a new join clears the flag of the entry `k`. -/
def Clears (k : NetId) (s : ScanTable) : ScanEvent → Prop
  | .freeAssoc env => s.rtwFindNetwork env.curNetwork.macAddress = some k
  | .join env ev => s.rtwFindNetwork env.curNetwork.macAddress = some k ∧
    ev.macAddress ≠ env.curNetwork.macAddress
  | _ => False

/-- A network without an entry is heard of, there is no free entry, and the oldest one is fixed. -/
def EvictsFixed (s : ScanTable) : ScanEvent → Prop
  | .scanned _ target => s.findSame target.val = none ∧ s.freeBssPool = [] ∧
    (s.oldest.any fun k => (s.network k).fixed) = true
  | _ => False

/-- The entry `k` is on the queue, fixed, and for the network `addr`. -/
structure Fixed (k : NetId) (addr : MacAddr) (s : ScanTable) : Prop where
  mem : k ∈ s.scannedQueue
  fixed : (s.network k).fixed = true
  mac : (s.network k).network.macAddress = addr

/-- Another entry changes. -/
theorem Fixed.other {addr : MacAddr} (h : Fixed k addr s) (hj : j ≠ k)
    (f : WlanNetwork → WlanNetwork) :
    Fixed k addr (s.updateEntry j f) := by
  have he : (s.updateEntry j f).network k = s.network k := Function.update_of_ne hj.symm ..
  exact ⟨h.mem, by rw [he, h.fixed], by rw [he, h.mac]⟩

theorem Fixed.release {addr : MacAddr} (h : Fixed k addr s) (hj : j ≠ k) :
    Fixed k addr (s.release j) :=
  ⟨List.mem_filter.mpr ⟨h.mem, by simpa using hj.symm⟩, h.fixed, h.mac⟩

theorem Fixed.setFixed {addr : MacAddr} (h : Fixed k addr s) {pwlan : Option NetId} {b : Bool}
    (hk : pwlan = some k → b = true) : Fixed k addr (s.setFixed pwlan b) := by
  cases pwlan with
  | none => exact h
  | some j =>
    rcases eq_or_ne j k with rfl | hj
    · have he : (s.setFixed (some j) b).network j = { s.network j with fixed := b } :=
        Function.update_self ..
      exact ⟨h.mem, by rw [he]; exact hk rfl, by rw [he, h.mac]⟩
    · exact h.other hj fun e => { e with fixed := b }

theorem macAddress_refresh {b : WlanBssidEx} {env : ScanEnv} {e : WlanNetwork}
    (hsame : e.network.key = b.key) :
    (refresh b env e).network.macAddress = e.network.macAddress := by
  have hmac : e.network.macAddress = b.macAddress := congrArg (fun key => key.2.1) hsame
  unfold refresh WlanBssidEx.updateNetwork
  dsimp only
  split
  · exact hmac.symm
  · rfl

/-- A fixed entry is updated, and stays as it is if it is not overwritten. -/
theorem Fixed.scanned {addr : MacAddr} (h : Fixed k addr s) (hinv : ScanInv s) {env : ScanEnv}
    {target : { b : WlanBssidEx // b.Collected }} (hsafe : ¬ s.EvictsFixed (.scanned env target))
    (hs : s.rtwUpdateScannedNetwork env target.val = some t) : Fixed k addr t := by
  unfold rtwUpdateScannedNetwork at hs
  split at hs
  · rename_i j hj
    cases hs
    rcases eq_or_ne j k with rfl | hne
    · have he : (s.updateEntry j (refresh target.val env)).network j =
          refresh target.val env (s.network j) := Function.update_self ..
      refine ⟨h.mem, by rw [he]; exact h.fixed, ?_⟩
      rw [he, macAddress_refresh (findSame_some hj).2, h.mac]
    · exact h.other hne _
  · rename_i hnone
    split at hs
    · rename_i hpool
      obtain ⟨j, hj, rfl⟩ := Option.map_eq_some_iff.mp hs
      refine h.other ?_ _
      rintro rfl
      exact hsafe ⟨hnone, hpool, by rw [hj]; exact h.fixed⟩
    · rename_i j rest hpool
      cases hs
      -- the entry of the pool is not on the queue
      have hne : j ≠ k := by
        rintro rfl
        exact hinv.free_iff.mp (by rw [hpool]; exact List.mem_cons_self) h.mem
      have h' := h.other hne (fill target.val env)
      exact ⟨List.mem_append_left [j] h'.mem, h'.fixed, h'.mac⟩

/-- Fixed entries are not freed by their age. -/
theorem Fixed.freeQueue {addr : MacAddr} (env : ScanEnv) (isfreeall : Bool) :
    ∀ (ks : List NetId) {s : ScanTable}, Fixed k addr s →
      Fixed k addr (ks.foldl (rtwFreeNetwork env isfreeall) s)
  | [], _, h => h
  | j :: ks, s, h => by
    rw [List.foldl_cons]
    refine Fixed.freeQueue env isfreeall ks ?_
    unfold rtwFreeNetwork
    split
    · exact h
    · rename_i hfree
      split
      · exact h
      · refine h.release ?_
        rintro rfl
        exact hfree h.fixed

theorem Fixed.freeAssoc {addr : MacAddr} (h : Fixed k addr s) {env : ScanEnv}
    (hclear : s.rtwFindNetwork env.curNetwork.macAddress ≠ some k) :
    Fixed k addr (s.rtwFreeAssocResources env) := by
  unfold rtwFreeAssocResources
  cases hj : s.rtwFindNetwork env.curNetwork.macAddress with
  | none => exact h
  | some j =>
    have hne : j ≠ k := by
      rintro rfl
      exact hclear hj
    have hu : Fixed k addr (s.setFixed (some j) false) :=
      h.other hne fun e => { e with fixed := false }
    dsimp only
    split
    · unfold rtwFreeNetworkNolock
      split
      · exact hu
      · exact hu.release hne
    · exact hu

theorem Fixed.fixTarget {addr : MacAddr} (h : Fixed k addr s) (env : ScanEnv) (a : MacAddr) :
    Fixed k addr (s.fixTarget env a) := by
  unfold ScanTable.fixTarget
  split
  · exact h.setFixed fun _ => rfl
  · exact h

theorem Fixed.join {addr : MacAddr} (h : Fixed k addr s) {env : ScanEnv} {ev : JoinEvent}
    (hclear : ¬ Clears k s (.join env ev)) : Fixed k addr (s.rtwJoinbssEventPrehandle env ev) := by
  unfold rtwJoinbssEventPrehandle
  extract_lets cur L
  split
  · exact h
  split
  · exact h
  split
  · split
    · exact h
    · rename_i hmac
      refine Fixed.fixTarget (h.setFixed fun hk => ?_) env _
      exact absurd ⟨hk, hmac⟩ hclear
  · exact h.fixTarget env _

theorem fixed_step {addr : MacAddr} {e : ScanEvent} (h : Fixed k addr s) (hinv : ScanInv s)
    (hsafe : ¬ s.EvictsFixed e ∧ ¬ Clears k s e)
    (hstep : s.scanStep e = some t) : Fixed k addr t := by
  cases e with
  | scanned env target => exact h.scanned hinv hsafe.1 hstep
  | freeQueue env isfreeall =>
    obtain rfl := Option.some.inj hstep
    exact Fixed.freeQueue env isfreeall _ h
  | freeAssoc env =>
    obtain rfl := Option.some.inj hstep
    exact h.freeAssoc hsafe.2
  | join env ev =>
    obtain rfl := Option.some.inj hstep
    exact h.join hsafe.2

/-- An entry that is fixed stays on the queue, with its address and its flag, until
`rtw_free_assoc_resources` or a new join clears the flag, if no fixed entry is the oldest one when
an entry has to be overwritten. -/
theorem fixed_run {pre es : List ScanEvent} (hs : runM scanStep init pre = some s)
    (hk : k ∈ s.scannedQueue) (hfixed : (s.network k).fixed = true)
    (hsafe : AlongM scanStep (fun u e => ¬ u.EvictsFixed e ∧ ¬ Clears k u e) s es)
    (hrun : runM scanStep s es = some t) :
    k ∈ t.scannedQueue ∧ (t.network k).fixed = true ∧
      (t.network k).network.macAddress = (s.network k).network.macAddress := by
  have hinv : ScanInv s := by
    obtain ⟨u, hu, hinv⟩ :=
      exists_runM (I := ScanInv) (fun _ e h => scanInv_step h e) pre scanInv_init
    rw [hs] at hu
    cases hu
    exact hinv
  have hstep : ∀ u e v, ScanInv u ∧ Fixed k (s.network k).network.macAddress u →
      ¬ u.EvictsFixed e ∧ ¬ Clears k u e → u.scanStep e = some v →
      ScanInv v ∧ Fixed k (s.network k).network.macAddress v := by
    rintro u e v ⟨hu, hfix⟩ hue huv
    obtain ⟨w, hw, hinv'⟩ := scanInv_step hu e
    rw [huv] at hw
    cases hw
    exact ⟨hinv', fixed_step hfix hu hue huv⟩
  obtain ⟨-, hfix⟩ := invariant_alongM hstep ⟨hinv, hk, hfixed, rfl⟩ hsafe hrun
  exact ⟨hfix.mem, hfix.fixed, hfix.mac⟩

/-! ## A table that fills up -/

/-- A beacon of the network number `i`. -/
def sampleBss (i : ℕ) : WlanBssidEx where
  macAddress := #v[2, 0, 0, 0, 0, UInt8.ofNat i]
  reserved := 1
  ssidLength := 0
  ssid := Vector.replicate 32 0
  rssi := -50
  signalStrength := 50
  signalQuality := 50
  ieLength := 12
  ies := fun n => if n = 10 then 1 else 0

theorem collected_sampleBss (i : ℕ) : (sampleBss i).Collected := by
  refine ⟨Nat.zero_le 32, Nat.le_refl 12, ?_⟩
  unfold maxIeSz sampleBss
  dsimp only
  omega

/-- The driver of a client of the network number 0, `now` jiffies after its start. -/
def sampleEnv (now fwState : ℕ) : ScanEnv where
  jiffies := BitVec.ofNat 64 now
  hz := 250
  fwState := fwState
  curNetwork := sampleBss 0
  signalStrength := 50
  signalQual := 50
  asocStaCount := 1

/-- The beacon of the network number `i` is heard. -/
def sampleScan (i : ℕ) : ScanEvent :=
  .scanned (sampleEnv i wifiStationState) ⟨sampleBss i, collected_sampleBss i⟩

/-- The network number 0 is joined. -/
def sampleJoin : ScanEvent :=
  .join (sampleEnv 0 (wifiStationState ||| fwUnderLinking)) ⟨(sampleBss 0).macAddress, 1, 12, 1⟩

/-- The first `n` networks were heard of, and the entry of the first one may be fixed. -/
def sampleTable (fixed : Bool) (n : ℕ) : ScanTable where
  network := fun k =>
    if k.val < n then
      { fixed := fixed && k.val == 0, lastScanned := BitVec.ofNat 64 k.val, network := sampleBss k.val }
    else init.network k
  freeBssPool := (List.finRange maxBssCnt).drop n
  scannedQueue := (List.finRange maxBssCnt).take n
  numOfScanned := UInt32.ofNat n

theorem sampleBss_ne {i j : ℕ} (hij : i < j) (hj : j < 256) :
    (sampleBss i).isSameNetwork (sampleBss j) = false := by
  rw [Bool.eq_false_iff]
  intro h
  have hmac : (sampleBss i).macAddress = (sampleBss j).macAddress :=
    congrArg (fun key => key.2.1) (WlanBssidEx.isSameNetwork_iff.mp h)
  have hlast := congrArg (fun a : MacAddr => a[5].toNat) hmac
  simp only [sampleBss, Vector.getElem_mk, List.getElem_toArray, List.getElem_cons_succ,
    List.getElem_cons_zero, UInt8.toNat_ofNat'] at hlast
  omega

theorem val_lt_of_mem_take {n : ℕ} {k : NetId} (hk : k ∈ (List.finRange maxBssCnt).take n) :
    k.val < n := by
  obtain ⟨i, hi, rfl⟩ := List.mem_take_iff_getElem.mp hk
  rw [List.getElem_finRange]
  simp only [Fin.val_cast]
  omega

theorem findSame_sampleTable (fixed : Bool) {n m : ℕ} (hnm : n ≤ m) (hm : m < 256) :
    (sampleTable fixed n).findSame (sampleBss m) = none := by
  refine List.find?_eq_none.mpr fun k hk => ?_
  have hlt : k.val < n := val_lt_of_mem_take hk
  simp only [sampleTable, if_pos hlt, sampleBss_ne (hlt.trans_le hnm) hm]
  exact Bool.false_ne_true

theorem fill_init (n : ℕ) (k : NetId) :
    fill (sampleBss n) (sampleEnv n wifiStationState) (init.network k) =
      { fixed := false, lastScanned := BitVec.ofNat 64 n, network := sampleBss n } := by
  have h50 : (sampleBss n).signalQuality = 50 := rfl
  have hq : ¬ (sampleBss n).signalQuality = 101 := by
    rw [h50]
    decide
  have hies : (fun i => if i < (sampleBss n).ieLength then (sampleBss n).ies i
      else (init.network k).network.ies i) = (sampleBss n).ies := by
    funext i
    by_cases hi : i < (sampleBss n).ieLength
    · rw [if_pos hi]
    · have h10 : ¬ i = 10 := by
        rintro rfl
        exact hi (Nat.lt_of_sub_eq_succ rfl)
      rw [if_neg hi]
      exact (if_neg h10).symm
  have hcopy : (init.network k).network.copy (sampleBss n) = sampleBss n := by
    rw [WlanBssidEx.copy, hies]
  rw [fill, hcopy, WlanBssidEx.clearQuality, if_neg hq]
  rfl

/-- A network more is heard of. -/
theorem scan_sampleTable {fixed : Bool} {n : ℕ} (hn : n < maxBssCnt) (h0 : n = 0 → fixed = false) :
    (sampleTable fixed n).scanStep (sampleScan n) = some (sampleTable fixed (n + 1)) := by
  have hnone := findSame_sampleTable fixed (le_refl n) (hn.trans (by decide))
  have hlen : n < (List.finRange maxBssCnt).length := by rwa [List.length_finRange]
  have hpool : (sampleTable fixed n).freeBssPool = ⟨n, hn⟩ :: (List.finRange maxBssCnt).drop
    (n + 1) := by
    simp only [sampleTable]
    rw [List.drop_eq_getElem_cons hlen, List.getElem_finRange]
    rfl
  have hqueue : (List.finRange maxBssCnt).take n ++ [⟨n, hn⟩] = (List.finRange maxBssCnt).take
    (n + 1) := by
    rw [List.take_succ_eq_append_getElem hlen, List.getElem_finRange]
    rfl
  have hnet : Function.update (sampleTable fixed n).network ⟨n, hn⟩
      (fill (sampleBss n) (sampleEnv n wifiStationState) ((sampleTable fixed n).network ⟨n, hn⟩)) =
        (sampleTable fixed (n + 1)).network := by
    have hold : (sampleTable fixed n).network ⟨n, hn⟩ = init.network ⟨n, hn⟩ := by
      simp only [sampleTable, if_neg (Nat.lt_irrefl n)]
    rw [hold, fill_init]
    funext k
    rcases eq_or_ne k ⟨n, hn⟩ with rfl | hk
    · rw [Function.update_self]
      have hfix : (fixed && n == 0) = false := by
        rcases Nat.eq_zero_or_pos n with h | h
        · rw [h0 h, Bool.false_and]
        · simp [h.ne']
      simp only [sampleTable, if_pos (Nat.lt_succ_self n), hfix]
    · have hne : k.val ≠ n := fun hkn => hk (Fin.ext hkn)
      rw [Function.update_of_ne hk]
      simp only [sampleTable]
      by_cases hlt : k.val < n
      · rw [if_pos hlt, if_pos (by omega)]
      · rw [if_neg hlt, if_neg (by omega)]
  have hnum : (sampleTable fixed n).numOfScanned + 1 =
    (sampleTable fixed (n + 1)).numOfScanned := by
    simp [sampleTable, UInt32.ofNat_add]
  change (sampleTable fixed n).rtwUpdateScannedNetwork (sampleEnv n wifiStationState)
    (sampleBss n) = _
  unfold rtwUpdateScannedNetwork
  rw [hnone, hpool]
  simp only [updateEntry, hnet, hnum]
  simp only [sampleTable, hqueue]

/-- The join marks the entry it finds. -/
theorem scanStep_sampleJoin (s : ScanTable) :
    s.scanStep sampleJoin = some (s.setFixed (s.rtwFindNetwork (sampleBss 0).macAddress) true) := by
  simp only [scanStep, sampleJoin, rtwJoinbssEventPrehandle, fixTarget]
  rw [if_neg (by decide), if_neg (by decide), if_neg (by decide), if_pos (by decide)]

theorem join_sampleTable :
    (sampleTable false 1).scanStep sampleJoin = some (sampleTable true 1) := by
  have hfind : (sampleTable false 1).rtwFindNetwork (sampleBss 0).macAddress = some 0 := by
    decide +kernel
  have hnet : Function.update (sampleTable false 1).network 0
      { (sampleTable false 1).network 0 with fixed := true } = (sampleTable true 1).network := by
    funext k
    rcases eq_or_ne k 0 with rfl | hk
    · rw [Function.update_self]
      rfl
    · have hpos : ¬ k.val < 1 := by
        have : k.val ≠ 0 := fun h => hk (Fin.ext h)
        omega
      rw [Function.update_of_ne hk]
      simp only [sampleTable, if_neg hpos]
  rw [scanStep_sampleJoin, hfind]
  simp only [setFixed, updateEntry, hnet]
  simp only [sampleTable]

/-- The table is filled behind the fixed entry. -/
theorem run_sampleTable {m : ℕ} (hm : m < maxBssCnt) :
    runM scanStep (sampleTable true 1) ((List.range' 1 m).map sampleScan) =
      some (sampleTable true (m + 1)) := by
  induction m with
  | zero => rfl
  | succ m ih =>
    rw [List.range'_concat, List.map_append]
    refine runM_concat.mpr ⟨_, ih (by omega), ?_⟩
    rw [Nat.one_mul, Nat.add_comm 1 m]
    exact scan_sampleTable hm fun h => absurd h (Nat.succ_ne_zero m)

/-- The first network is heard of. -/
theorem run_sampleScan : runM scanStep init [sampleScan 0] = some (sampleTable false 1) := by
  have hinit : init = sampleTable false 0 := rfl
  rw [runM, List.foldlM_cons, hinit, scan_sampleTable (by decide) fun _ => rfl]
  rfl

/-- The first network is heard of and joined. -/
theorem run_sampleJoin :
    runM scanStep init [sampleScan 0, sampleJoin] = some (sampleTable true 1) :=
  runM_concat.mpr ⟨sampleTable false 1, run_sampleScan, join_sampleTable⟩

/-- Nothing has been heard of the first network for the longest time. -/
theorem oldest_sampleTable : (sampleTable true maxBssCnt).oldest = some 0 := by
  have hkeep : ∀ l : List NetId, l.foldl (sampleTable true maxBssCnt).older (some 0) = some 0 := by
    intro l
    induction l with
    | nil => rfl
    | cons k l ih =>
      have hage : timeAfter ((sampleTable true maxBssCnt).network 0).lastScanned
          ((sampleTable true maxBssCnt).network k).lastScanned = false := by
        have hk : k.val < 128 := k.isLt
        simp only [sampleTable, if_pos k.isLt, timeAfter]
        rw [BitVec.msb_eq_false_iff_two_mul_lt]
        simp
        omega
      rw [List.foldl_cons, older, hage, if_neg Bool.false_ne_true]
      exact ih
  have hqueue : (sampleTable true maxBssCnt).scannedQueue =
    0 :: (List.finRange 127).map Fin.succ := by
    simp only [sampleTable]
    rw [List.take_of_length_le (by rw [List.length_finRange]), List.finRange_succ]
  rw [oldest, hqueue, List.foldl_cons]
  exact hkeep _

/-- The beacon of one more network overwrites the entry of the network that is joined. -/
theorem evict_sampleTable : (sampleTable true maxBssCnt).scanStep (sampleScan maxBssCnt) =
    some ((sampleTable true maxBssCnt).updateEntry 0
      (fill (sampleBss maxBssCnt) (sampleEnv maxBssCnt wifiStationState))) := by
  have hnone := findSame_sampleTable true (le_refl maxBssCnt) (by decide)
  have hpool : (sampleTable true maxBssCnt).freeBssPool = [] :=
    List.drop_of_length_le (by rw [List.length_finRange])
  change (sampleTable true maxBssCnt).rtwUpdateScannedNetwork (sampleEnv maxBssCnt wifiStationState)
    (sampleBss maxBssCnt) = _
  unfold rtwUpdateScannedNetwork
  rw [hnone, hpool, oldest_sampleTable]
  rfl

theorem not_clears_sampleScan : ∀ (l : List ℕ) (s : ScanTable),
    AlongM scanStep (fun u e => ¬ Clears 0 u e) s (l.map sampleScan)
  | [], _ => trivial
  | _ :: l, _ => ⟨not_false, fun t _ => not_clears_sampleScan l t⟩

theorem mem_sampleTable : (0 : NetId) ∈ (sampleTable true 1).scannedQueue := by
  rw [show (sampleTable true 1).scannedQueue = [0] from rfl]
  exact List.mem_singleton_self 0

theorem fixed_run_sampleScan : ∃ s t,
    runM scanStep init [sampleScan 0, sampleJoin] = some s ∧ (s.network 0).fixed = true ∧
    runM scanStep s [sampleScan 1] = some t ∧ 0 ∈ t.scannedQueue ∧ (t.network 0).fixed = true ∧
      (t.network 0).network.macAddress = (s.network 0).network.macAddress := by
  have hfixed : ((sampleTable true 1).network 0).fixed = true := rfl
  have hpool : (sampleTable true 1).freeBssPool ≠ [] := by
    intro h
    have hlen := congrArg List.length h
    simp [sampleTable] at hlen
  have hsafe : AlongM scanStep (fun u e => ¬ u.EvictsFixed e ∧ ¬ Clears 0 u e) (sampleTable true 1)
      [sampleScan 1] := ⟨⟨fun h => hpool h.2.1, not_false⟩, fun _ _ => trivial⟩
  have hrun := run_sampleTable (m := 1) (by decide)
  exact ⟨_, _, run_sampleJoin, hfixed, hrun,
    fixed_run run_sampleJoin mem_sampleTable hfixed hsafe hrun⟩

/-- The entry of the joined network is overwritten when more networks than entries are heard of,
without `rtw_free_assoc_resources` and without a new join. -/
theorem not_fixed_run_sampleScan : ¬ ∀ (pre es : List ScanEvent) (s t : ScanTable) (k : NetId),
    runM scanStep init pre = some s → k ∈ s.scannedQueue → (s.network k).fixed = true →
    AlongM scanStep (fun u e => ¬ Clears k u e) s es → runM scanStep s es = some t →
    k ∈ t.scannedQueue ∧ (t.network k).fixed = true ∧
      (t.network k).network.macAddress = (s.network k).network.macAddress := by
  intro h
  have hfull := run_sampleTable (m := 127) (by decide)
  have hrun : runM scanStep (sampleTable true 1) ((List.range' 1 128).map sampleScan) =
      some ((sampleTable true maxBssCnt).updateEntry 0
        (fill (sampleBss maxBssCnt) (sampleEnv maxBssCnt wifiStationState))) := by
    rw [List.range'_concat, List.map_append]
    exact runM_concat.mpr ⟨_, hfull, evict_sampleTable⟩
  obtain ⟨-, hfixed, -⟩ := h _ _ _ _ 0 run_sampleJoin mem_sampleTable rfl
    (not_clears_sampleScan _ _) hrun
  simp only [updateEntry, Function.update_self, fill] at hfixed
  exact Bool.false_ne_true hfixed

end ScanTable

end Rtl8188eu
