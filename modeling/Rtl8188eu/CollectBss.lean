import Rtl8188eu.IeSearchLimits
import Rtl8188eu.MemCopy
import Rtl8188eu.MgntXmit
import Rtl8188eu.ReadLogs

/-!
# Scan entries

`collect_bss_info` copies the body of a beacon, a probe request or a probe response to the `IEs` of
a descriptor and fills the other fields from the header, the receive attributes and the elements.
The model logs the bytes of the frame that are read ; a byte of `IEs` behind the copy is logged as
one behind the frame.

`collectsRight_iff` : when the descriptor is the one that the frame describes (`described`), with
nothing read behind the frame. The upper half of the beacon period is what is on the stack.
-/

namespace Rtl8188eu

open Tlv

/-! ## The function of the source -/

/-- `NDIS_802_11_LENGTH_SSID`. -/
def ndisLengthSsid : ℕ := 32
/-- `NDIS_802_11_LENGTH_RATES_EX`, the size of `SupportedRates`. -/
def lengthRatesEx : ℕ := 16
/-- `Ndis802_11OFDM24`. -/
def ndis80211Ofdm24 : ℕ := 3
/-- `WIFI_PROBEREQ`. -/
def wifiProbereq : ℕ := 0x40
/-- `WIFI_PROBERSP`. -/
def wifiProbersp : ℕ := 0x50
/-- `WIFI_BEACON`. -/
def wifiBeacon : ℕ := 0x80

/-- `enum ndis_802_11_network_infra`, as far as it is used here. -/
inductive NetworkInfra
  | ibss
  | infrastructure
  deriving DecidableEq

/-- The receive attributes of a frame : its signal, and the antenna that it was received on. -/
structure RxSignal where
  recvpower : ℤ
  signalQuality : UInt8
  signalStrength : UInt8
  antenna : UInt8

/-- A received frame, in a memory. -/
structure SurveyFrame where
  mem : Mem
  rxData : ℤ
  len : ℕ
  signal : RxSignal
  len_lt : len < 2 ^ 32

/-- What is in the memory that the function does not write : the upper half of `le32_tmp`, and what
is behind the descriptor. -/
structure Stale where
  tmp2 : UInt8
  tmp3 : UInt8
  behind : Mem

/-- What the function reads of the device. -/
structure CollectEnv where
  /-- `rtw_get_oper_ch`. -/
  operCh : UInt8
  /-- `sizeof(struct wlan_bssid_ex) - MAX_IE_SZ`, which depends on the size of `long`. -/
  fixedSz : ℕ
  /-- `pregistrypriv->wifi_spec == 1`. -/
  wifiSpec : Bool
  bwmodeUpdated : Bool
  numFortyMHzIntolerant : ℤ
  numStaNoHt : ℤ

/-- `struct wlan_bssid_ex`. The fields of `Configuration` and of `PhyInfo` stand on their own, and
those that are always zero are left out. -/
structure CollectedBss where
  length : ℕ
  macAddress : MacAddr
  /-- `Reserved[0]`. -/
  reserved : ℕ
  ssidLength : ℕ
  ssid : List UInt8
  privacy : ℕ
  rssi : ℤ
  networkTypeInUse : ℕ
  beaconPeriod : ℕ
  dsConfig : ℕ
  infrastructureMode : NetworkInfra
  supportedRates : List UInt8
  signalStrength : UInt8
  signalQuality : ℕ
  optimumAntenna : UInt8
  ieLength : ℕ
  ies : List UInt8

/-- `num_FortyMHzIntolerant` and `num_sta_no_ht`. -/
structure HtCounts where
  numFortyMHzIntolerant : ℤ
  numStaNoHt : ℤ

/-- `Reserved[0]` and `ie_offset` of a subtype. -/
def ieStart (subtype : ℕ) : ℕ × ℕ :=
  if subtype = wifiBeacon then (1, 12)
  else if subtype = wifiProbereq then (2, 0)
  else if subtype = wifiProbersp then (3, 12)
  else (0, 12)

namespace SurveyFrame

variable (f : SurveyFrame)

/-- The `IEs` behind `memset` and `memcpy`, and what is behind them. -/
def ies (stale : Stale) (len : ℕ) : Mem :=
  (stale.behind.write 0 (List.replicate maxIeSz 0)).write 0 (f.mem.read (f.rxData + hdr3addrLen) len)

end SurveyFrame

/-- An array of `n` bytes that is zero behind what is copied to it. -/
def padded (n : ℕ) (bs : List UInt8) : List UInt8 := bs ++ List.replicate (n - bs.length) 0

/-- A value that is read from `n` bytes of the frame, at an offset. -/
def readFrame {α : Type} (off n : ℕ) (a : α) : Logged ℤ α := .read (addrs off n) a

/-- Bytes of `IEs`. -/
def readIes (ies : Mem) (p : ℤ) (n : ℕ) : Logged ℤ (List UInt8) := .read (addrs (hdr3addrLen + p) n) (ies.read p n)

/-- `rtw_get_ie` in `IEs`. -/
def getIe (ies : Mem) (p : ℤ) (index : UInt8) (limit : ℤ) : Logged ℤ (Option (ℤ × ℕ)) :=
  .read (((IeFun.getIe index).run ies p limit (limit.toNat + 1)).elim [] fun r => r.reads.map (hdr3addrLen + ·))
    (rtwGetIe ies p index limit)

/-- An element is copied if it is not longer than `max`. -/
def copyIe (ies : Mem) (max : ℕ) (p : ℤ) (len : ℕ) : Logged ℤ (List UInt8) :=
  .check (len ≤ max) >>= fun _ => readIes ies (p + 2) len

/-- The SSID of an element. The one of a hidden network has no bytes to copy. -/
def copySsid (ies : Mem) (p : ℤ) (len : ℕ) : Logged ℤ (List UInt8) :=
  if 0 < len then copyIe ies ndisLengthSsid p len else pure []

/-- The rates of an element, if there is one. -/
def copyRatesIe (ies : Mem) (max : ℕ) : Option (ℤ × ℕ) → Logged ℤ (List UInt8)
  | none => pure []
  | some (p, len) => copyIe ies max p len

/-- `Configuration.DSConfig`, from an element of the frame or else the current channel. -/
def dsConfigOf (env : CollectEnv) (ies : Mem) (off : ℕ) (limit : ℤ) : Logged ℤ UInt8 := do
  let first (p : ℤ) : Logged ℤ UInt8 := readIes ies (p + 2) 1 >>= fun bs => pure (bs.headD 0)
  match ← getIe ies off dssetIe limit with
  | some (p, _) => first p
  | none =>
    match ← getIe ies off htAddInfoIe limit with
    | some (p, _) => first p
    | none => pure env.operCh

/-- The 20/40 coexistence check. -/
def coexistence (env : CollectEnv) (ies : Mem) (off : ℕ) (limit : ℤ) : Logged ℤ HtCounts := do
  let counts : HtCounts := ⟨env.numFortyMHzIntolerant, env.numStaNoHt⟩
  if env.wifiSpec && !env.bwmodeUpdated then
    match ← getIe ies off htCapabilityIe limit with
    | some (p, len) =>
      if 0 < len then
        let info ← readIes ies (p + 2) 2
        -- bit 14 of `HT_caps_info`
        if (info.getD 1 0).toNat.testBit 6 then
          pure { counts with numFortyMHzIntolerant := counts.numFortyMHzIntolerant + 1 }
        else pure counts
      else pure { counts with numStaNoHt := counts.numStaNoHt + 1 }
    | none => pure { counts with numStaNoHt := counts.numStaNoHt + 1 }
  else pure counts

/-- Two bytes of the frame as a number. -/
def le16Of (bs : List UInt8) : ℕ := (bs.getD 0 0).toNat + 256 * (bs.getD 1 0).toNat

/-- The fields of the descriptor. -/
def fillBss (env : CollectEnv) (signal : RxSignal) (stale : Stale) (len reserved : ℕ) (ssid rates : List UInt8)
    (dsConfig : UInt8) (interval capability : ℕ) (mac : MacAddr) (ies : List UInt8) : CollectedBss where
  length := env.fixedSz + len
  macAddress := mac
  reserved
  ssidLength := ssid.length
  ssid := padded ndisLengthSsid ssid
  privacy := if capability.testBit 4 then 1 else 0
  rssi := signal.recvpower
  networkTypeInUse := ndis80211Ofdm24
  -- the upper half of `le32_tmp` is not written
  beaconPeriod := interval + 65536 * stale.tmp2.toNat + 16777216 * stale.tmp3.toNat
  dsConfig := dsConfig.toNat
  infrastructureMode := if capability.testBit 0 then .infrastructure else .ibss
  supportedRates := padded lengthRatesEx rates
  signalStrength := signal.signalStrength
  -- a network of another channel is marked
  signalQuality := if dsConfig = env.operCh then signal.signalQuality.toNat else 101
  optimumAntenna := signal.antenna
  ieLength := len
  ies

/-- `collect_bss_info` behind the rates. -/
def finishBssInfo (env : CollectEnv) (f : SurveyFrame) (stale : Stale) (len reserved ieOffset : ℕ) (ies : Mem)
    (ssid rates : List UInt8) : Logged ℤ (CollectedBss × HtCounts) := do
  let limit := toInt (len - ieOffset)
  .check (12 ≤ len)
  let dsConfig ← dsConfigOf env ies ieOffset limit
  let interval ← readIes ies 8 2
  let val16 ← readIes ies 10 2
  let addr : ℕ := if (le16Of val16).testBit 0 then 10 else 16
  let mac ← readFrame addr 6 (macAt f.mem (f.rxData + addr))
  let counts ← coexistence env ies ieOffset limit
  pure (fillBss env f.signal stale len reserved ssid rates dsConfig (le16Of interval) (le16Of val16) mac
    (ies.read 0 maxIeSz), counts)

/-- `collect_bss_info`. -/
def collectBssInfo (env : CollectEnv) (f : SurveyFrame) (stale : Stale) : Logged ℤ (CollectedBss × HtCounts) := do
  let len := (toU32 (f.len - hdr3addrLen)).toNat
  .check (len ≤ maxIeSz)
  let subtype ← readFrame 0 2 (getFrameSubType f.mem f.rxData)
  let (reserved, ieOffset) := ieStart subtype
  let ies ← readFrame hdr3addrLen len (f.ies stale len)
  let limit := toInt (len - ieOffset)
  let some (p, n) ← getIe ies ieOffset ssidIe limit | .fail
  let ssid ← copySsid ies p n
  let rates ← getIe ies ieOffset supportedratesIe limit >>= copyRatesIe ies lengthRatesEx
  let extRates ← getIe ies ieOffset extSupportedratesIe limit >>= copyRatesIe ies (lengthRatesEx - rates.length)
  finishBssInfo env f stale len reserved ieOffset ies ssid (rates ++ extRates)

/-! ## What a frame describes -/

/-- What is found for an id in the bytes of a frame. -/
inductive Lookup
  | absent
  /-- The length byte of the last element is not in the frame. -/
  | short
  /-- The length of the element, and what is in the frame behind the header. -/
  | found (len : ℕ) (after : List UInt8)

namespace Lookup

/-- The body of the element, as far as it is in the frame. -/
def body : Lookup → List UInt8
  | found len after => after.take len
  | _ => []

/-- The first byte behind the header. -/
def first : Lookup → Option UInt8
  | found _ after => after.head?
  | _ => none

end Lookup

/-- The first element with the id, as far as it is in the frame. -/
def findIe (id : UInt8) : List UInt8 → Lookup
  | [] => .absent
  | [_] => .short
  | a :: len :: after =>
    if a = id then .found len.toNat after
    else if len.toNat < after.length then findIe id (after.drop len.toNat)
    else .absent
termination_by bs => bs.length
decreasing_by
  rw [List.length_drop]
  simp only [List.length_cons]
  omega

namespace SurveyFrame

variable (f : SurveyFrame)

/-- The bytes of the frame. -/
def bytes : List UInt8 := f.mem.read f.rxData f.len

/-- The offset is one of the frame. -/
def Inside (a : ℤ) : Prop := 0 ≤ a ∧ a < f.len

end SurveyFrame

/-- The memory with the bytes of a frame. -/
def frameMem (bs : List UInt8) : Mem := Mem.write (fun _ => 0) 0 bs

/-- The elements of a frame. -/
def frameIes (bs : List UInt8) : List UInt8 :=
  (bs.drop hdr3addrLen).drop (ieStart (getFrameSubType (frameMem bs) 0)).2

/-- The descriptor of a frame. Its fields depend on the bytes of the frame, the receive attributes
and the current channel. -/
def described (fixedSz : ℕ) (operCh : UInt8) (signal : RxSignal) (bs : List UInt8) : CollectedBss :=
  let m := frameMem bs
  let len := bs.length - hdr3addrLen
  let lookup (id : UInt8) := findIe id (frameIes bs)
  let capability := m.le16 34
  let infra := capability.testBit 0
  let dsConfig := ((lookup dssetIe).first.or (lookup htAddInfoIe).first).getD operCh
  { length := fixedSz + len
    macAddress := macAt m (if infra then 10 else 16)
    reserved := (ieStart (getFrameSubType m 0)).1
    ssidLength := (lookup ssidIe).body.length
    ssid := padded ndisLengthSsid (lookup ssidIe).body
    privacy := if capability.testBit 4 then 1 else 0
    rssi := signal.recvpower
    networkTypeInUse := ndis80211Ofdm24
    beaconPeriod := m.le16 32
    dsConfig := dsConfig.toNat
    infrastructureMode := if infra then .infrastructure else .ibss
    supportedRates := padded lengthRatesEx ((lookup supportedratesIe).body ++ (lookup extSupportedratesIe).body)
    signalStrength := signal.signalStrength
    signalQuality := if dsConfig = operCh then signal.signalQuality.toNat else 101
    optimumAntenna := signal.antenna
    ieLength := len
    ies := padded maxIeSz (bs.drop hdr3addrLen) }

/-- `collect_bss_info` reads nothing behind the frame, and it fails or fills the descriptor that the
frame describes. -/
def CollectsRight (env : CollectEnv) (f : SurveyFrame) (stale : Stale) : Prop :=
  (collectBssInfo env f stale).Within f.Inside fun r =>
    r.1 = described env.fixedSz env.operCh f.signal f.bytes

namespace Lookup

/-- The element is missing, and `no` holds, or it is longer than `max`, or it is in the frame, and
`yes` holds. -/
def Copied (l : Lookup) (max : ℕ) (no yes : Prop) : Prop :=
  match l with
  | absent => no
  | short => False
  | found len after => max < len ∨ len ≤ after.length ∧ yes

/-- The element is missing, and `no` holds, or there are `n` bytes of the frame behind its header,
and `yes` holds. -/
def Peeked (l : Lookup) (n : ℕ) (no yes : Prop) : Prop :=
  match l with
  | absent => no
  | short => False
  | found _ after => n ≤ after.length ∧ yes

end Lookup

/-- The bytes for the channel, the beacon period and the coexistence check are in the frame, and the
upper half of `le32_tmp` is zero. -/
def TailReadable (env : CollectEnv) (ies : List UInt8) (stale : Stale) : Prop :=
  stale.tmp2 = 0 ∧ stale.tmp3 = 0 ∧
  (findIe dssetIe ies).Peeked 1 ((findIe htAddInfoIe ies).Peeked 1 True True) True ∧
  (env.wifiSpec = true ∧ env.bwmodeUpdated = false →
    match findIe htCapabilityIe ies with
    | .absent => True
    | .short => False
    | .found len after => len = 0 ∨ 2 ≤ after.length)

/-- The frame is too short or too long, or it is rejected by one of the checks, or else all elements
that are copied are in the frame, and so is what is read behind them. -/
def Readable (env : CollectEnv) (bs : List UInt8) (stale : Stale) : Prop :=
  bs.length < hdr3addrLen ∨ hdr3addrLen + maxIeSz < bs.length ∨
    let ies := frameIes bs
    let behind := bs.length < hdr3addrLen + 12 ∨ TailReadable env ies stale
    let ext := (findIe extSupportedratesIe ies).Copied (lengthRatesEx - (findIe supportedratesIe ies).body.length)
      behind behind
    (findIe ssidIe ies).Copied ndisLengthSsid True ((findIe supportedratesIe ies).Copied lengthRatesEx ext ext)

/-! ## The search in the bytes of a frame -/

section Search

variable {m : Mem} {index : UInt8}

/-- There is a header before the bytes that are found. -/
theorem exists_header :
    ∀ {bs : List UInt8} {len : ℕ} {after : List UInt8}, findIe index bs = .found len after →
    ∃ pre, 2 ≤ pre.length ∧ pre ++ after = bs
  | [], len, after, h => by simp [findIe] at h
  | [_], len, after, h => by simp [findIe] at h
  | a :: l :: rest, len, after, h => by
    rw [findIe] at h
    split_ifs at h with hid hlt
    · cases h
      exact ⟨[a, l], le_rfl, rfl⟩
    · obtain ⟨pre, -, hpre⟩ := exists_header h
      refine ⟨a :: l :: (rest.take l.toNat ++ pre), Nat.le_add_left 2 _, ?_⟩
      rw [List.cons_append, List.cons_append, List.append_assoc, hpre, List.take_append_drop]
termination_by bs => bs.length
decreasing_by
  rw [List.length_drop]
  simp only [List.length_cons]
  omega

/-- The bytes behind a header are the last ones of what it is in. -/
theorem after_suffix {bs after : List UInt8} {len : ℕ} (h : findIe index bs = .found len after) :
    after <:+ bs := by
  obtain ⟨pre, -, hpre⟩ := exists_header h
  exact ⟨pre, hpre⟩

/-- What the trace of `rtw_get_ie` is for what is found in the bytes. -/
def TraceOf (q : ℤ) (n : ℕ) (l : Lookup) (r : Searched) : Prop :=
  match l with
  | .absent => r.result = none ∧ ∀ a ∈ r.reads, q ≤ a ∧ a < q + n
  | .short => q + n ∈ r.reads
  | .found len after => r.result = some (q + n - after.length - 2, len + 2) ∧ ∀ a ∈ r.reads, q ≤ a ∧ a < q + n

/-- One more element before a list. -/
theorem TraceOf.pass {q : ℤ} {n k : ℕ} {l : Lookup} {r : Searched} (h : TraceOf (q + k) n l r)
    (hk : 2 ≤ k) :
    TraceOf q (k + n) l ⟨r.result, q :: (q + 1) :: r.reads⟩ := by
  have hend : q + (k + n : ℕ) = q + k + n := by push_cast; ring
  have hin : (∀ a ∈ r.reads, q + k ≤ a ∧ a < q + k + n) → ∀ a ∈ q :: (q + 1) :: r.reads, q ≤ a ∧
    a < q + k + n := by
    intro hr a ha
    rcases List.mem_cons.mp ha with rfl | ha
    · omega
    rcases List.mem_cons.mp ha with rfl | ha
    · omega
    have := hr a ha
    omega
  unfold TraceOf at h ⊢
  rw [hend]
  cases l with
  | absent => exact ⟨h.1, hin h.2⟩
  | short => exact List.mem_cons_of_mem _ (List.mem_cons_of_mem _ h)
  | found len after => exact ⟨h.1, hin h.2⟩

theorem exists_traceOf {limit : ℤ} :
    ∀ {bs : List UInt8} {fuel : ℕ} {q i : ℤ}, m.read q bs.length = bs →
    limit = i + bs.length → bs ≠ [] → bs.length ≤ fuel →
      ∃ r, rtwGetIeTrace m index limit fuel q i = some r ∧ TraceOf q bs.length (findIe index bs) r
  | [], fuel, q, i, h, hl, hne, hf => absurd rfl hne
  | [a], fuel, q, i, h, hl, hne, hf => by
    obtain ⟨fuel, rfl⟩ : ∃ k, fuel = k + 1 := ⟨fuel - 1, by simp at hf; omega⟩
    rw [rtwGetIeTrace, findIe]
    dsimp only
    split_ifs with hid hend
    · exact ⟨_, rfl, by simp [TraceOf]⟩
    · exact ⟨_, rfl, by simp [TraceOf]⟩
    · refine absurd ?_ hend
      rw [hl]
      simp only [List.length_singleton]
      omega
  | a :: l :: after, fuel, q, i, h, hl, hne, hf => by
    obtain ⟨fuel, rfl⟩ : ∃ k, fuel = k + 1 := ⟨fuel - 1, by simp at hf; omega⟩
    have hholds : m.Holds q (a :: l :: after) := h
    rw [Mem.holds_cons, Mem.holds_cons] at hholds
    obtain ⟨ha, hl', hafter⟩ := hholds
    rw [rtwGetIeTrace, findIe, ha, hl']
    have hlen : (a :: l :: after).length = after.length + 2 := rfl
    rw [hlen] at hl hf ⊢
    by_cases hid : a = index
    · rw [if_pos hid, if_pos hid]
      refine ⟨_, rfl, ?_, ?_⟩
      · dsimp only
        congr 2
        push_cast
        ring
      · intro x hx
        simp only [List.mem_cons, List.not_mem_nil, or_false] at hx
        push_cast
        omega
    rw [if_neg hid, if_neg hid]
    dsimp only
    by_cases hlt : l.toNat < after.length
    · have hmore : ¬i + ((l.toNat : ℤ) + 2) ≥ limit := by omega
      have hdrop : m.read (q + ((l.toNat : ℤ) + 2)) (after.drop l.toNat).length =
        after.drop l.toNat := by
        have hsplit : m.Holds (q + 1 + 1) (after.take l.toNat ++ after.drop l.toNat) := by
          rw [List.take_append_drop]
          exact hafter
        have hbehind := (Mem.holds_append.mp hsplit).2
        rw [List.length_take, min_eq_left hlt.le] at hbehind
        have hq : q + ((l.toNat : ℤ) + 2) = q + 1 + 1 + l.toNat := by ring
        rw [hq]
        exact hbehind
      obtain ⟨r, hr, htrace⟩ :=
        @exists_traceOf limit (after.drop l.toNat) fuel (q + ((l.toNat : ℤ) + 2))
        (i + ((l.toNat : ℤ) + 2)) hdrop (by rw [List.length_drop]; omega)
        (List.ne_nil_of_length_pos (by rw [List.length_drop]; omega))
          (by rw [List.length_drop]; omega)
      have hq : q + ((l.toNat : ℤ) + 2) = q + (l.toNat + 2 : ℕ) := by push_cast; ring
      have hsize : l.toNat + 2 + (after.drop l.toNat).length = after.length + 2 := by
        rw [List.length_drop]
        omega
      rw [if_neg hmore, if_pos hlt, hr]
      refine ⟨_, rfl, ?_⟩
      rw [hq] at htrace
      rw [← hsize]
      exact htrace.pass (by omega)
    · have hend : i + ((l.toNat : ℤ) + 2) ≥ limit := by omega
      rw [if_pos hend, if_neg hlt]
      refine ⟨_, rfl, rfl, ?_⟩
      intro x hx
      simp only [List.mem_cons, List.not_mem_nil, or_false] at hx
      push_cast
      omega
termination_by bs => bs.length
decreasing_by
  rw [List.length_drop]
  simp only [List.length_cons]
  omega

end Search

/-! ## What the steps need -/

section Steps

variable {f : SurveyFrame} {ies : Mem} {body : List UInt8} {off : ℕ} {α : Type} {Q : α → Prop}

/-- The `IEs` hold the body of the frame. -/
structure Copied (f : SurveyFrame) (ies : Mem) (body : List UInt8) : Prop where
  read : ies.read 0 body.length = body
  len : f.len = hdr3addrLen + body.length
  le : body.length ≤ maxIeSz

theorem within_readFrame {n : ℕ} {a : α} (h : off + n ≤ f.len) :
    (readFrame off n a).Within f.Inside Q ↔ Q a := by
  unfold readFrame
  rw [Logged.within_read]
  refine and_iff_right fun x hx => ?_
  have hx' := mem_addrs.mp hx
  exact ⟨by omega, by omega⟩

/-- Bytes of the body are in the frame. -/
theorem within_readIes (h : Copied f ies body) {after : List UInt8}
    (hafter : after <:+ body) {k : ℕ}
    {R : List UInt8 → Prop} : (readIes ies (body.length - after.length) k).Within f.Inside R ↔
      k ≤ after.length ∧ R (after.take k) := by
  obtain ⟨before, rfl⟩ := hafter
  have hstart : ((before ++ after).length : ℤ) - after.length = before.length := by
    rw [List.length_append]
    push_cast
    ring
  have hlen := h.len
  rw [List.length_append] at hlen
  unfold readIes
  rw [Logged.within_read, hstart]
  have hread (hk : k ≤ after.length) : ies.read before.length k = after.take k := by
    have hheld : ies.Holds 0 (before ++ (after.take k ++ after.drop k)) := by
      rw [List.take_append_drop]
      exact h.read
    have htake := (Mem.holds_append.mp (Mem.holds_append.mp hheld).2).1
    rw [zero_add, Mem.Holds, List.length_take, min_eq_left hk] at htake
    exact htake
  constructor
  · rintro ⟨hreads, hR⟩
    have hk : k ≤ after.length := by
      rcases Nat.eq_zero_or_pos k with rfl | hpos
      · exact Nat.zero_le _
      · have hlast := hreads (hdr3addrLen + before.length + k - 1) (mem_addrs.mpr (by omega))
        have := hlast.2
        omega
    rw [hread hk] at hR
    exact ⟨hk, hR⟩
  · rintro ⟨hk, hR⟩
    rw [hread hk]
    refine ⟨fun x hx => ?_, hR⟩
    have hx' := mem_addrs.mp hx
    exact ⟨by omega, by omega⟩

theorem toInt_limit (h : Copied f ies body) (hoff : off ≤ 12) :
    toInt (body.length - off) = (body.length : ℤ) - off := by
  have hle := h.le
  unfold maxIeSz at hle
  have hsmall : (-1000 : ℤ) ≤ body.length - off ∧ (body.length : ℤ) - off ≤ 1000 := by omega
  generalize (body.length : ℤ) - off = x at hsmall
  rw [toInt, Int.bmod_eq_of_le_mul_two]
  · have hpow : (2000 : ℤ) ≤ (2 ^ 32 : ℕ) := by norm_num
    linarith
  · have hpow : (2001 : ℤ) ≤ (2 ^ 32 : ℕ) := by norm_num
    linarith

/-- A search finds what is in the bytes of the frame, and reads nothing else unless the last length
byte is missing. -/
theorem within_getIe (h : Copied f ies body) (hoff : off ≤ 12) (index : UInt8)
    {R : Option (ℤ × ℕ) → Prop} :
    (getIe ies off index (toInt (body.length - off))).Within f.Inside R ↔
      match findIe index (body.drop off) with
      | .absent => R none
      | .short => False
      | .found len after => R (some ((body.length : ℤ) - after.length - 2, len)) := by
  rw [toInt_limit h hoff]
  unfold getIe
  rw [Logged.within_read]
  rcases Nat.lt_or_ge off body.length with hlt | hge
  · have hlimit : (body.length : ℤ) - off = (body.drop off).length := by
      rw [List.length_drop]
      omega
    have hread : ies.read off (body.drop off).length = body.drop off := by
      have hheld : ies.Holds 0 (body.take off ++ body.drop off) := by
        rw [List.take_append_drop]
        exact h.read
      have hdrop := (Mem.holds_append.mp hheld).2
      rw [zero_add, List.length_take, min_eq_left hlt.le] at hdrop
      exact hdrop
    have hpos : 0 < (body.drop off).length := by
      rw [List.length_drop]
      omega
    obtain ⟨r, hr, htrace⟩ := @exists_traceOf ies index (body.drop off).length (body.drop off)
      ((body.drop off).length + 1) off 0 hread (zero_add _).symm (List.ne_nil_of_length_pos hpos)
        (Nat.le_succ _)
    have hrun : (IeFun.getIe index).run ies off ((body.drop off).length : ℕ)
      ((body.drop off).length + 1) =
        some r := by
      unfold IeFun.run
      dsimp only
      rw [if_neg (by omega), hr]
    have hres := IeFun.result_of_run hrun
    unfold IeFun.result at hres
    dsimp only at hres
    rw [hlimit, Int.toNat_natCast, hrun]
    dsimp only [Option.elim_some]
    have hinside (hin : ∀ a ∈ r.reads, (off : ℤ) ≤ a ∧ a < off + (body.drop off).length) :
        ∀ x ∈ r.reads.map ((hdr3addrLen : ℤ) + ·), f.Inside x := by
      intro x hx
      obtain ⟨a, ha, rfl⟩ := List.mem_map.mp hx
      have hb := hin a ha
      have hlen := h.len
      exact ⟨by omega, by omega⟩
    unfold TraceOf at htrace
    cases hfind : findIe index (body.drop off) with
    | absent =>
      rw [hfind] at htrace
      rw [htrace.1, Option.map_eq_none_iff] at hres
      rw [hres]
      exact and_iff_right (hinside htrace.2)
    | short =>
      rw [hfind] at htrace
      refine iff_of_false (fun hboth => ?_) id
      have hlast := hboth.1 _ (List.mem_map_of_mem htrace)
      have hend := hlast.2
      have hlen := h.len
      omega
    | found len after =>
      rw [hfind] at htrace
      rw [htrace.1] at hres
      obtain ⟨⟨q, n⟩, hget, hq⟩ := Option.map_eq_some_iff.mp hres
      simp only [Prod.mk.injEq, Nat.add_right_cancel_iff] at hq
      obtain ⟨rfl, rfl⟩ := hq
      rw [hget]
      refine (and_iff_right (hinside htrace.2)).trans ?_
      rw [← hlimit]
      ring_nf
  · -- the limit is not positive, and nothing is read
    have hnil : body.drop off = [] := List.drop_eq_nil_of_le hge
    have hneg : (body.length : ℤ) - off < 1 := by omega
    have hrun : (IeFun.getIe index).run ies off ((body.length : ℤ) - off)
      (((body.length : ℤ) - off).toNat + 1) =
        some ⟨none, []⟩ := if_pos hneg
    have hget : rtwGetIe ies off index ((body.length : ℤ) - off) = none := if_pos hneg
    rw [hrun, hget, hnil, findIe]
    exact and_iff_right nofun

/-- A copy of an element that is found. -/
theorem within_copyIe (h : Copied f ies body) {index : UInt8} {max len : ℕ} {after : List UInt8}
    (hfind : findIe index (body.drop off) = .found len after) {R : List UInt8 → Prop} :
    (copyIe ies max ((body.length : ℤ) - after.length - 2) len).Within f.Inside R ↔
      max < len ∨ len ≤ after.length ∧ R (after.take len) := by
  have hstart : (body.length : ℤ) - after.length - 2 + 2 = body.length - after.length := by ring
  unfold copyIe
  rw [Logged.within_check, hstart,
    within_readIes h ((after_suffix hfind).trans (List.drop_suffix _ _)), ← not_le,
    imp_iff_not_or]

theorem within_copySsid (h : Copied f ies body) {index : UInt8} {len : ℕ} {after : List UInt8}
    (hfind : findIe index (body.drop off) = .found len after) {R : List UInt8 → Prop} :
    (copySsid ies ((body.length : ℤ) - after.length - 2) len).Within f.Inside R ↔
      ndisLengthSsid < len ∨ len ≤ after.length ∧ R (after.take len) := by
  unfold copySsid
  split_ifs with hpos
  · exact within_copyIe h hfind
  · obtain rfl : len = 0 := by omega
    rw [Logged.within_pure, List.take_zero]
    constructor
    · exact fun hR => Or.inr ⟨Nat.zero_le _, hR⟩
    · rintro (hlt | ⟨-, hR⟩)
      · exact absurd hlt (Nat.not_lt_zero _)
      · exact hR

/-- The rates of an element. -/
theorem within_rates (h : Copied f ies body) (hoff : off ≤ 12) (index : UInt8) (max : ℕ)
    {R : List UInt8 → Prop} :
    (getIe ies off index (toInt (body.length - off)) >>= copyRatesIe ies max).Within f.Inside R ↔
      (findIe index (body.drop off)).Copied max (R (findIe index (body.drop off)).body)
        (R (findIe index (body.drop off)).body) := by
  rw [Logged.within_bind, within_getIe h hoff]
  cases hfind : findIe index (body.drop off) with
  | absent => exact Logged.within_pure
  | short => exact Iff.rfl
  | found len after => exact within_copyIe h hfind

/-- The byte behind a header. -/
theorem within_first (h : Copied f ies body) {index : UInt8} {len : ℕ} {after : List UInt8}
    (hfind : findIe index (body.drop off) = .found len after) (d : UInt8) {R : UInt8 → Prop} :
    (readIes ies ((body.length : ℤ) - after.length - 2 + 2) 1 >>= fun bs => pure
    (bs.headD 0)).Within f.Inside R ↔
      1 ≤ after.length ∧ R (after.head?.getD d) := by
  have hstart : (body.length : ℤ) - after.length - 2 + 2 = body.length - after.length := by ring
  rw [Logged.within_bind, hstart,
    within_readIes h ((after_suffix hfind).trans (List.drop_suffix _ _)),
    Logged.within_pure]
  refine and_congr_right fun hlen => ?_
  cases after with
  | nil => exact absurd hlen (Nat.not_lt_zero _)
  | cons b after => exact Iff.rfl

/-- The channel of the frame. -/
theorem within_dsConfigOf (h : Copied f ies body) (hoff : off ≤ 12) (env : CollectEnv)
    {R : UInt8 → Prop} :
    (dsConfigOf env ies off (toInt (body.length - off))).Within f.Inside R ↔
      (findIe dssetIe (body.drop off)).Peeked 1
      ((findIe htAddInfoIe (body.drop off)).Peeked 1 True True) True ∧
        R (((findIe dssetIe (body.drop off)).first.or
          (findIe htAddInfoIe (body.drop off)).first).getD env.operCh) := by
  unfold dsConfigOf
  rw [Logged.within_bind, within_getIe h hoff]
  cases hds : findIe dssetIe (body.drop off) with
  | short => exact iff_of_false id fun hno => hno.1
  | found len after =>
    dsimp only
    rw [within_first h hds env.operCh]
    unfold Lookup.Peeked Lookup.first
    dsimp only
    rw [and_true]
    refine and_congr_right fun hlen => ?_
    cases after with
    | nil => exact absurd hlen (Nat.not_lt_zero _)
    | cons b after => exact Iff.rfl
  | absent =>
    dsimp only
    rw [Logged.within_bind, within_getIe h hoff]
    unfold Lookup.Peeked Lookup.first
    rw [Option.none_or]
    cases hht : findIe htAddInfoIe (body.drop off) with
    | short => exact iff_of_false id fun hno => hno.1
    | found len after =>
      dsimp only
      rw [within_first h hht env.operCh, and_true]
    | absent =>
      dsimp only
      rw [Logged.within_pure, true_and, Option.getD_none]

/-- What the coexistence check reads. -/
theorem within_coexistence (h : Copied f ies body) (hoff : off ≤ 12) (env : CollectEnv) {R : Prop} :
    (coexistence env ies off (toInt (body.length - off))).Within f.Inside (fun _ => R) ↔
      (env.wifiSpec = true ∧ env.bwmodeUpdated = false →
        match findIe htCapabilityIe (body.drop off) with
        | .absent => True
        | .short => False
        | .found len after => len = 0 ∨ 2 ≤ after.length) ∧ R := by
  unfold coexistence
  have hcond : (env.wifiSpec && !env.bwmodeUpdated) = true ↔
    env.wifiSpec = true ∧ env.bwmodeUpdated = false := by
    rw [Bool.and_eq_true, Bool.not_eq_true']
  dsimp only
  rw [← hcond]
  split_ifs with hspec
  · rw [Logged.within_bind, within_getIe h hoff, imp_iff_right hspec]
    cases hfind : findIe htCapabilityIe (body.drop off) with
    | absent =>
      dsimp only
      rw [Logged.within_pure, true_and]
    | short => exact iff_of_false id fun hno => hno.1
    | found len after =>
      have hstart : (body.length : ℤ) - after.length - 2 + 2 = body.length - after.length := by ring
      dsimp only
      split_ifs with hpos
      · rw [Logged.within_bind, hstart,
          within_readIes h ((after_suffix hfind).trans (List.drop_suffix _ _)),
          or_iff_right (by omega)]
        refine and_congr_right fun _ => ?_
        split_ifs
        · exact Logged.within_pure
        · exact Logged.within_pure
      · rw [Logged.within_pure]
        exact (and_iff_right (Or.inl (by omega))).symm
  · rw [Logged.within_pure]
    exact (and_iff_right fun hyes => absurd hyes hspec).symm

end Steps

/-! ## The descriptor -/

section Frame

variable (f : SurveyFrame) (stale : Stale)

theorem length_bytes : f.bytes.length = f.len := Mem.length_read _ _ _

/-- The memory of the bytes agrees with the frame. -/
theorem read_frameMem {off n : ℕ} (h : off + n ≤ f.len) :
    (frameMem f.bytes).read off n = f.mem.read (f.rxData + off) n := by
  refine Mem.read_congr fun i hi => ?_
  have hlt : off + i < f.bytes.length := by
    rw [length_bytes]
    omega
  have hat : (off : ℤ) + i = 0 + (off + i : ℕ) := by push_cast; ring
  unfold frameMem
  rw [hat, Mem.write_apply hlt, List.getD_eq_getElem _ _ hlt]
  have hget := Mem.getElem_read f.mem f.len f.rxData (off + i) hlt
  push_cast at hget
  rw [← add_assoc] at hget
  exact hget

theorem frameMem_apply {i : ℕ} (h : i < f.len) : frameMem f.bytes i = f.mem (f.rxData + i) := by
  have hread := @read_frameMem f i 1 h
  simpa [Mem.read] using hread

theorem getFrameSubType_bytes (h : 2 ≤ f.len) :
    getFrameSubType (frameMem f.bytes) 0 = getFrameSubType f.mem f.rxData := by
  have h0 := @frameMem_apply f 0 (by omega)
  have h1 := @frameMem_apply f 1 (by omega)
  unfold getFrameSubType Mem.le16
  rw [zero_add]
  rw [Nat.cast_zero, add_zero] at h0
  rw [Nat.cast_one] at h1
  rw [h0, h1]

theorem macAt_bytes {off : ℕ} (h : off + 6 ≤ f.len) :
    macAt (frameMem f.bytes) off = macAt f.mem (f.rxData + off) := by
  unfold macAt
  refine congrArg Vector.ofFn (funext fun i => ?_)
  have hat := @frameMem_apply f (off + i) (by omega)
  push_cast at hat
  rw [hat, add_assoc]

theorem drop_bytes : f.bytes.drop hdr3addrLen = f.mem.read (f.rxData + hdr3addrLen)
    (f.len - hdr3addrLen) := by
  rcases Nat.lt_or_ge f.len hdr3addrLen with hlt | hge
  · rw [Nat.sub_eq_zero_of_le hlt.le, List.drop_eq_nil_of_le (by rw [length_bytes]; exact hlt.le)]
    rfl
  · have hsplit : f.bytes = f.mem.read f.rxData hdr3addrLen ++
        f.mem.read (f.rxData + hdr3addrLen) (f.len - hdr3addrLen) := by
      rw [← Mem.read_add, Nat.add_sub_cancel' hge]
      rfl
    rw [hsplit, List.drop_left' (Mem.length_read _ _ _)]

theorem length_body : (f.bytes.drop hdr3addrLen).length = f.len - hdr3addrLen := by
  rw [List.length_drop, length_bytes]

/-- The copy of the body. -/
theorem copied_ies (hmin : hdr3addrLen ≤ f.len) (hmax : f.len ≤ hdr3addrLen + maxIeSz) :
    Copied f (f.ies stale (f.len - hdr3addrLen)) (f.bytes.drop hdr3addrLen) where
  read := by
    rw [length_body, SurveyFrame.ies, Mem.read_write_of_length _ _ (Mem.length_read _ _ _),
      drop_bytes]
  len := by
    rw [length_body]
    omega
  le := by
    rw [length_body]
    omega

/-- The array behind the copy is zero. -/
theorem read_ies (hmax : f.len ≤ hdr3addrLen + maxIeSz) :
    (f.ies stale (f.len - hdr3addrLen)).read 0 maxIeSz = padded maxIeSz
    (f.bytes.drop hdr3addrLen) := by
  obtain ⟨n, hn⟩ : ∃ n, f.len - hdr3addrLen = n := ⟨_, rfl⟩
  have hle : n ≤ maxIeSz := by omega
  have hzeros : (stale.behind.write 0 (List.replicate maxIeSz 0)).Holds 0
      (List.replicate n 0 ++ List.replicate (maxIeSz - n) 0) := by
    rw [List.replicate_append_replicate, Nat.add_sub_cancel' hle, Mem.Holds]
    exact Mem.read_write_self ..
  have hbehind := (Mem.holds_append.mp hzeros).2
  rw [Mem.Holds, List.length_replicate, List.length_replicate] at hbehind
  rw [padded, length_body, drop_bytes, SurveyFrame.ies, hn]
  have hsum : ∀ m : Mem, m.read 0 maxIeSz = m.read 0 n ++ m.read (0 + n) (maxIeSz - n) := by
    intro m
    rw [← Mem.read_add, Nat.add_sub_cancel' hle]
  rw [hsum, Mem.read_write_of_length _ _ (Mem.length_read _ _ _),
    Mem.read_write_of_disjoint _ (Or.inr (by rw [Mem.length_read])), hbehind]

theorem ies_apply {i : ℕ} (h : i < f.len - hdr3addrLen) :
    f.ies stale (f.len - hdr3addrLen) i = frameMem f.bytes (hdr3addrLen + i : ℕ) := by
  have hlt : i < (f.mem.read (f.rxData + hdr3addrLen) (f.len - hdr3addrLen)).length := by
    rw [Mem.length_read]
    exact h
  have hat := @Mem.write_apply (stale.behind.write 0 (List.replicate maxIeSz 0)) 0
    (f.mem.read (f.rxData + hdr3addrLen) (f.len - hdr3addrLen)) i hlt
  rw [zero_add, List.getD_eq_getElem _ _ hlt, Mem.getElem_read] at hat
  rw [SurveyFrame.ies, hat, frameMem_apply f (by omega)]
  push_cast
  rw [add_assoc]

end Frame

/-- Two fixed bytes of the body. -/
theorem within_fixed {f : SurveyFrame} {ies : Mem} {body : List UInt8} (h : Copied f ies body)
    {p : ℤ} (hp : 0 ≤ p)
    (hend : p + 2 ≤ body.length) {R : List UInt8 → Prop} :
    (readIes ies p 2).Within f.Inside R ↔ R [ies p, ies (p + 1)] := by
  have hlen := h.len
  unfold readIes
  rw [Logged.within_read]
  refine and_iff_right fun x hx => ?_
  have hx' := mem_addrs.mp hx
  exact ⟨by omega, by omega⟩

theorem le16Of_ies (f : SurveyFrame) (stale : Stale) {n : ℕ} (hn : n = f.len - hdr3addrLen) {p : ℤ}
    (hp : 0 ≤ p)
    (hend : p + 2 ≤ n) :
    le16Of [f.ies stale n p, f.ies stale n (p + 1)] =
      (frameMem f.bytes).le16 (hdr3addrLen + p) := by
  obtain ⟨off, rfl⟩ := Int.eq_ofNat_of_zero_le hp
  subst hn
  have h0 := @ies_apply f stale off (by omega)
  have h1 := @ies_apply f stale (off + 1) (by omega)
  push_cast at h0 h1
  unfold le16Of Mem.le16
  rw [add_assoc, ← h0, ← h1]
  rfl

/-- The fields are those of the frame, apart from the upper half of the beacon period. -/
theorem fillBss_eq_described (env : CollectEnv) (f : SurveyFrame) (stale : Stale)
    (hmin : hdr3addrLen ≤ f.len)
    (hmax : f.len ≤ hdr3addrLen + maxIeSz) {reserved off n : ℕ} (hn : n = f.len - hdr3addrLen)
    (hstart : ieStart (getFrameSubType f.mem f.rxData) = (reserved, off)) :
    fillBss env f.signal stale n reserved (findIe ssidIe (frameIes f.bytes)).body
        ((findIe supportedratesIe (frameIes f.bytes)).body ++ (findIe extSupportedratesIe
        (frameIes f.bytes)).body)
        (((findIe dssetIe (frameIes f.bytes)).first.or
        (findIe htAddInfoIe (frameIes f.bytes)).first).getD env.operCh)
        ((frameMem f.bytes).le16 (hdr3addrLen + 8)) ((frameMem f.bytes).le16 (hdr3addrLen + 10))
        (macAt f.mem (f.rxData + (if
        ((frameMem f.bytes).le16 (hdr3addrLen + 10)).testBit 0 then 10 else 16 : ℕ)))
        ((f.ies stale n).read 0 maxIeSz) =
      described env.fixedSz env.operCh f.signal f.bytes ↔ stale.tmp2 = 0 ∧ stale.tmp3 = 0 := by
  subst hn
  have hmac : macAt f.mem
      (f.rxData + (if ((frameMem f.bytes).le16 (hdr3addrLen + 10)).testBit 0 then 10 else 16 : ℕ)) =
      macAt (frameMem f.bytes) (if ((frameMem f.bytes).le16 34).testBit 0 then 10 else 16) := by
    have hsame : (hdr3addrLen : ℤ) + 10 = 34 := rfl
    unfold hdr3addrLen at hmin
    rw [hsame]
    split_ifs
    · exact (macAt_bytes f (by omega)).symm
    · exact (macAt_bytes f (by omega)).symm
  have hsub := getFrameSubType_bytes f (le_trans (by decide) hmin)
  rw [read_ies f stale hmax, hmac]
  unfold fillBss described
  dsimp only
  rw [hsub, hstart, length_bytes]
  constructor
  · intro h
    have hperiod := congrArg CollectedBss.beaconPeriod h
    dsimp only at hperiod
    have hlow : (frameMem f.bytes).le16 ((hdr3addrLen : ℤ) + 8) = (frameMem f.bytes).le16 32 := rfl
    rw [hlow] at hperiod
    have h2 : stale.tmp2.toNat = 0 := by omega
    have h3 : stale.tmp3.toNat = 0 := by omega
    exact ⟨UInt8.toNat_inj.mp h2, UInt8.toNat_inj.mp h3⟩
  · rintro ⟨h2, h3⟩
    rw [h2, h3]
    rfl

/-- The part behind the rates. -/
theorem within_finishBssInfo (env : CollectEnv) (f : SurveyFrame) (stale : Stale)
    (hmin : hdr3addrLen ≤ f.len)
    (hmax : f.len ≤ hdr3addrLen + maxIeSz) {reserved off : ℕ} (hoff : off ≤ 12)
    (hstart : ieStart (getFrameSubType f.mem f.rxData) = (reserved, off)) :
    (finishBssInfo env f stale (f.len - hdr3addrLen) reserved off
    (f.ies stale (f.len - hdr3addrLen))
      (findIe ssidIe (frameIes f.bytes)).body ((findIe supportedratesIe (frameIes f.bytes)).body ++
        (findIe extSupportedratesIe (frameIes f.bytes)).body)).Within f.Inside
      (fun r => r.1 = described env.fixedSz env.operCh f.signal f.bytes) ↔
        f.len < hdr3addrLen + 12 ∨ TailReadable env (frameIes f.bytes) stale := by
  have hcopied := copied_ies f stale hmin hmax
  have hbody := length_body f
  have hies : frameIes f.bytes = (f.bytes.drop hdr3addrLen).drop off := by
    rw [frameIes, getFrameSubType_bytes f (le_trans (by decide) hmin), hstart]
  unfold finishBssInfo
  dsimp only
  rw [Logged.within_check, imp_iff_not_or]
  by_cases h12 : 12 ≤ f.len - hdr3addrLen
  swap
  · exact iff_of_true (Or.inl h12) (Or.inl (by omega))
  rw [or_iff_right (not_not.mpr h12), or_iff_right (by omega)]
  rw [← hbody] at hcopied ⊢
  rw [Logged.within_bind, within_dsConfigOf hcopied hoff, ← hies]
  rw [Logged.within_bind, within_fixed hcopied (by decide) (by omega), Logged.within_bind,
    within_fixed hcopied (by decide) (by omega)]
  rw [le16Of_ies f stale hbody (by decide) (by omega),
    le16Of_ies f stale hbody (by decide) (by omega),
    Logged.within_bind, within_readFrame (by unfold hdr3addrLen at *; split_ifs <;> omega),
    Logged.within_bind]
  simp only [Logged.within_pure]
  rw [within_coexistence hcopied hoff env, ← hies,
    fillBss_eq_described env f stale hmin hmax hbody hstart,
    TailReadable]
  tauto

/-- `collect_bss_info` is right exactly if what it needs of the elements is in the frame, and the
upper half of `le32_tmp` is zero. -/
theorem collectsRight_iff (env : CollectEnv) (f : SurveyFrame) (stale : Stale) :
    CollectsRight env f stale ↔ Readable env f.bytes stale := by
  have hlt := f.len_lt
  by_cases hrange : f.len < hdr3addrLen ∨ hdr3addrLen + maxIeSz < f.len
  · have hbig : ¬(toU32 (f.len - hdr3addrLen)).toNat ≤ maxIeSz := by
      unfold toU32
      unfold hdr3addrLen maxIeSz at *
      omega
    refine iff_of_true ?_ ?_
    · unfold CollectsRight collectBssInfo
      dsimp only
      exact Logged.within_check.mpr fun hle => absurd hle hbig
    · unfold Readable
      rw [length_bytes]
      rcases hrange with hshort | hlong
      · exact Or.inl hshort
      · exact Or.inr (Or.inl hlong)
  rw [not_or, not_lt, not_lt] at hrange
  obtain ⟨hmin, hmax⟩ := hrange
  have hcopied := copied_ies f stale hmin hmax
  have hlen : (toU32 (f.len - hdr3addrLen)).toNat = f.len - hdr3addrLen := by
    unfold toU32
    unfold hdr3addrLen maxIeSz at *
    omega
  have hbody := length_body f
  obtain ⟨reserved, off, hstart, hoff⟩ : ∃ reserved off, ieStart (getFrameSubType f.mem f.rxData) =
    (reserved, off) ∧
      off ≤ 12 := by
    unfold ieStart
    split_ifs
    all_goals exact ⟨_, _, rfl, by decide⟩
  have hies : frameIes f.bytes = (f.bytes.drop hdr3addrLen).drop off := by
    rw [frameIes, getFrameSubType_bytes f (le_trans (by decide) hmin), hstart]
  have hfinish := within_finishBssInfo env f stale hmin hmax hoff hstart
  unfold CollectsRight collectBssInfo Readable
  dsimp only
  rw [length_bytes, or_iff_right (by omega), or_iff_right (by omega), ← hfinish, hlen,
    Logged.within_check,
    imp_iff_right (by omega), Logged.within_bind]
  rw [within_readFrame (show 0 + 2 ≤ f.len from le_trans (by decide) hmin), hstart]
  dsimp only
  rw [Logged.within_bind, within_readFrame (by omega), hies]
  rw [← hbody] at hcopied ⊢
  rw [Logged.within_bind, within_getIe hcopied hoff]
  cases hssid : findIe ssidIe ((f.bytes.drop hdr3addrLen).drop off) with
  | absent => exact iff_of_true Logged.within_fail trivial
  | short => exact Iff.rfl
  | found len after =>
    dsimp only
    rw [Logged.within_bind, within_copySsid hcopied hssid]
    refine or_congr_right (and_congr_right fun _ => ?_)
    rw [Logged.within_bind, within_rates hcopied hoff, Logged.within_bind,
      within_rates hcopied hoff]
    rfl

/-- Two runs on the same frame that are right fill the same descriptor, whatever is in the memory
around it. -/
theorem same_of_right {env : CollectEnv} {f g : SurveyFrame} {stale stale' : Stale}
    (hf : CollectsRight env f stale)
    (hg : CollectsRight env g stale') (hbytes : f.bytes = g.bytes) (hsignal : f.signal = g.signal)
    {r r' : CollectedBss × HtCounts} (hr : (collectBssInfo env f stale).result = some r)
    (hr' : (collectBssInfo env g stale').result = some r') : r.1 = r'.1 := by
  rw [hf.2 r hr, hg.2 r' hr', hbytes, hsignal]

/-- A beacon of a hidden network. -/
def sampleSurveyFrame : SurveyFrame where
  mem := Mem.write (fun _ => 0) 0 [0x80]
  rxData := 0
  len := 38
  signal := ⟨0, 0, 0, 0⟩
  len_lt := by decide

/-- The beacon period has what is on the stack. -/
theorem not_right_sampleSurveyFrame : ¬∀ (env : CollectEnv) (f : SurveyFrame) (stale : Stale),
    CollectsRight env f stale := by
  intro hall
  let period (tmp2 : UInt8) : Option ℕ :=
    (collectBssInfo ⟨1, 0, false, false, 0, 0⟩ sampleSurveyFrame
    ⟨tmp2, 0, fun _ => 0⟩).result.map fun r => r.1.beaconPeriod
  have hperiods : period 0 = some 0 ∧ period 1 = some 65536 := by decide +kernel
  obtain ⟨r, hr, hzero⟩ := Option.map_eq_some_iff.mp hperiods.1
  obtain ⟨r', hr', hone⟩ := Option.map_eq_some_iff.mp hperiods.2
  rw [same_of_right (hall _ _ _) (hall _ _ _) rfl rfl hr hr', hone] at hzero
  exact absurd hzero (by decide)

end Rtl8188eu
