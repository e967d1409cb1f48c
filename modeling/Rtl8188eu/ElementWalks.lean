import Rtl8188eu.IeSearchLimits
import Rtl8188eu.MgntXmit

/-!
# Walks over the elements of a frame

`update_beacon_info`, `check_assoc_AP`, `OnAssocRsp` and `join_cmd_hdl` go from element to element
by the length byte. They look at the place of an element before they read it, but not at the place
of the bytes that they look at in its body. A walk is what is done with one element (`Walk.visit`),
with the offsets that are read of it.

`ElementWalk.right_iff_fits` : a walk ends and reads the frame only exactly if it comes to no
element whose body is too short at the end of the frame, and, for a beacon, the frame has its fixed
fields.
-/

namespace Rtl8188eu

open Tlv

/-! ## Walks -/

/-- What is done with an element : the offsets that are read of it, and the state behind it or the
result that the function returns with. -/
structure Visit (ρ σ : Type) where
  reads : List ℕ
  next : Except ρ σ

/-- A round reads the id, and the length byte to go on. -/
def Visit.all {ρ σ : Type} (v : Visit ρ σ) : List ℕ :=
  0 :: v.reads ++ match v.next with
    | .error _ => []
    | .ok _ => [1]

/-- A walk : what is done with an element, by the bytes from its id on, and how many of these it
needs. -/
structure Walk (ρ σ : Type) where
  visit : σ → Stream' UInt8 → Visit ρ σ
  need : σ → Stream' UInt8 → ℕ
  needs : ∀ s b n, (∀ d ∈ (visit s b).all, d < n) ↔ need s b ≤ n

/-- How a walk ends, and the addresses that it reads. -/
structure Walked (ρ σ : Type) where
  result : Except ρ σ
  reads : List ℤ

namespace Walk

variable {ρ σ : Type}

/-- The loop `for (i = ..; i < limit;)`, for the elements at `p + i`. -/
def run (w : Walk ρ σ) (m : Mem) (p : ℤ) (limit : ℕ) : ℕ → ℕ → σ → Option (Walked ρ σ)
  | 0, _, _ => none
  | fuel + 1, i, s =>
    if i < limit then
      let v := w.visit s (bytesAt m (p + i))
      let reads := v.all.map fun d => p + i + (d : ℕ)
      match v.next with
      | .error r => some ⟨.error r, reads⟩
      | .ok s => (w.run m p limit fuel (u32 (i + ((m (p + i + 1)).toNat + 2))) s).map fun r =>
          ⟨r.result, reads ++ r.reads⟩
    else some ⟨.ok s, []⟩

/-- The elements from `q` on, with the beginning of another one behind them. Each of them that the
walk comes to has the bytes that it needs. -/
def Clean (w : Walk ρ σ) (m : Mem) : List Elem → List UInt8 → ℤ → σ → Prop
  | [], rest, q, s => rest = [] ∨ w.need s (bytesAt m q) ≤ rest.length
  | e :: es, rest, q, s => w.need s (bytesAt m q) ≤ (encode (e :: es) ++ rest).length ∧
      match (w.visit s (bytesAt m q)).next with
      | .error _ => True
      | .ok s => w.Clean m es rest (q + (e.body.length + 2 : ℕ)) s

/-- The `n` bytes from `q` on are clean for the walk. -/
def CleanArea (w : Walk ρ σ) (m : Mem) (q : ℤ) (n : ℕ) (s : σ) : Prop :=
  ∃ es rest, m.read q n = encode es ++ rest ∧ Cut rest ∧ w.Clean m es rest q s

end Walk

/-! ## The functions of the source -/

/-- `_HT_EXTRA_INFO_IE_`. -/
def htExtraInfoIe : UInt8 := 61
/-- `sizeof (struct HT_info_element)`. -/
def htInfoElementSz : ℕ := 22
/-- `sizeof (struct WMM_para_element)`. -/
def wmmParaElementSz : ℕ := 18
/-- `WMM_PARA_OUI`. -/
def wmmParaOui : List UInt8 := [0x00, 0x50, 0xf2, 0x02, 0x01, 0x01]
/-- `WMM_OUI`. -/
def wmmOui : List UInt8 := [0x00, 0x50, 0xf2, 0x02]

/-- `HAL_PRIME_CHNL_OFFSET_*`. -/
inductive PrimeChnlOffset where
  | dontCare
  | lower
  | upper
deriving DecidableEq

/-- `cur_bwmode`, which is `HT_CHANNEL_WIDTH_40` or not, and `cur_ch_offset`. -/
structure BwMode where
  width40 : Bool
  chOffset : PrimeChnlOffset
deriving DecidableEq

/-- What `infos[0]` says about the channel offset. -/
def chOffsetOf (info : UInt8) : PrimeChnlOffset :=
  if info &&& 0x3 = 1 then .lower else if info &&& 0x3 = 3 then .upper else .dontCare

/-- What `join_cmd_hdl` sets. -/
structure JoinState where
  wmmEnable : Bool
  htCapsEnable : Bool
  htInfoEnable : Bool
  bwmode : BwMode

/-- What the walks read of the device. -/
structure WalkEnv where
  /-- `qospriv.qos_option`. -/
  qosOption : Bool
  /-- `htpriv.ht_option`. -/
  htOption : Bool
  /-- `registrypriv.cbw40_enable`. -/
  cbw40Enable : Bool

namespace WalkEnv

variable (env : WalkEnv)

/-- The offsets of the first `n` bytes of a body. -/
def bodyOffsets (n : ℕ) : List ℕ := (List.range n).map (2 + ·)

/-- `HT_info_handler`. -/
def htInfoReads (b : Stream' UInt8) : List ℕ :=
  if !env.htOption then []
  else if htInfoElementSz < (b.get 1).toNat then [1] else 1 :: bodyOffsets (b.get 1).toNat

/-- `ERP_IE_handler`. -/
def erpIeReads (b : Stream' UInt8) : List ℕ :=
  if 1 < (b.get 1).toNat then [1] else 1 :: bodyOffsets (b.get 1).toNat

/-- `HT_caps_handler`. -/
def htCapsReads (b : Stream' UInt8) : List ℕ :=
  if !env.htOption then [] else 1 :: bodyOffsets (b.get 1).toNat

/-- `WMM_param_handler`. -/
def wmmParamReads : List ℕ :=
  if !env.qosOption then [] else (List.range wmmParaElementSz).map (2 + 6 + ·)

/-- `new_bwmode` and `new_ch_offset`. -/
def newBwMode (b : Stream' UInt8) : BwMode :=
  if b.get 3 &&& 0x4 ≠ 0 ∧ env.cbw40Enable then ⟨true, chOffsetOf (b.get 3)⟩ else ⟨false, .dontCare⟩

/-- `bwmode_update_check`. -/
def bwmodeUpdateCheck (s : BwMode) (b : Stream' UInt8) : Visit Empty BwMode :=
  if htInfoElementSz < (b.get 1).toNat then ⟨[1], .ok s⟩
  else if env.newBwMode b ≠ s then ⟨[1, 3] ++ env.htInfoReads b, .ok (env.newBwMode b)⟩
  else ⟨[1, 3], .ok s⟩

/-- The `switch` of `update_beacon_info`. `VCS_update` does not read the frame. -/
def beaconVisit (s : BwMode) (b : Stream' UInt8) : Visit Empty BwMode :=
  if b.get 0 = htExtraInfoIe then env.bwmodeUpdateCheck s b
  else if b.get 0 = erpinfoIe then ⟨erpIeReads b, .ok s⟩
  else ⟨[], .ok s⟩

/-- The `switch` of `OnAssocRsp`. -/
def assocRspVisit (b : Stream' UInt8) : Visit Empty Unit :=
  if b.get 0 = vendorSpecificIe then
    ⟨bodyOffsets 6 ++ if (b.drop 2).take 6 = wmmParaOui then env.wmmParamReads else [], .ok ()⟩
  else if b.get 0 = htCapabilityIe then ⟨env.htCapsReads b, .ok ()⟩
  else if b.get 0 = htExtraInfoIe then ⟨env.htInfoReads b, .ok ()⟩
  else if b.get 0 = erpinfoIe then ⟨erpIeReads b, .ok ()⟩
  else ⟨[], .ok ()⟩

/-- The `switch` of `join_cmd_hdl`. -/
def joinVisit (s : JoinState) (b : Stream' UInt8) : Visit Empty JoinState :=
  if b.get 0 = vendorSpecificIe then
    ⟨bodyOffsets 4, .ok (if (b.drop 2).take 4 = wmmOui then { s with wmmEnable := true } else s)⟩
  else if b.get 0 = htCapabilityIe then ⟨[], .ok { s with htCapsEnable := true }⟩
  else if b.get 0 = htExtraInfoIe then
    let s := { s with htInfoEnable := true }
    if env.cbw40Enable then
      ⟨[3], .ok (if b.get 3 &&& 0x4 ≠ 0 then { s with bwmode := ⟨true, chOffsetOf (b.get 3)⟩ } else s)⟩
    else ⟨[], .ok s⟩
  else ⟨[], .ok s⟩

end WalkEnv

/-- `enum HT_IOT_PEER`, as far as `check_assoc_AP` returns it. -/
inductive HtIotPeer where
  | unknown
  | realtek
  | broadcom
  | ralink
  | atheros
  | cisco
  | marvell
  | airgo
  | tenda
deriving DecidableEq

/-- `epigram_vendor_flag` and `ralink_vendor_flag`. -/
structure VendorFlags where
  epigram : Bool
  ralink : Bool

/-- The vendor of an access point that one element tells, or the flags behind it. -/
def vendorOf (s : VendorFlags) (oui : List UInt8) : Except HtIotPeer VendorFlags :=
  if oui = [0x00, 0x03, 0x7f] ∨ oui = [0x00, 0x13, 0x74] then .error .atheros
  else if oui = [0x00, 0x10, 0x18] ∨ oui = [0x00, 0x0a, 0xf7] then .error .broadcom
  else if oui = [0x00, 0x50, 0x43] then .error .marvell
  else if oui = [0x00, 0x0c, 0x43] then
    if !s.ralink then .ok { s with ralink := true } else .error .ralink
  else if oui = [0x00, 0x40, 0x96] then .error .cisco
  else if oui = [0x00, 0xe0, 0x4c] then .error .realtek
  else if oui = [0x00, 0x0a, 0xf5] then .error .airgo
  else if oui = [0x00, 0x90, 0x4c] then
    if s.ralink then .error .tenda else .ok { s with epigram := true }
  else .ok s

/-- The `switch` of `check_assoc_AP`. -/
def assocAPVisit (s : VendorFlags) (b : Stream' UInt8) : Visit HtIotPeer VendorFlags :=
  if b.get 0 = vendorSpecificIe then ⟨WalkEnv.bodyOffsets 3, vendorOf s ((b.drop 2).take 3)⟩
  else ⟨[], .ok s⟩

/-! ## Where a walk stays inside -/

namespace Walk

variable {ρ σ : Type} {w : Walk ρ σ} {m : Mem} {p : ℤ} {limit i : ℕ} {s : σ}

theorem run_of_le (h : limit ≤ i) (fuel : ℕ) :
    w.run m p limit (fuel + 1) i s = some ⟨.ok s, []⟩ := by
  rw [run, if_neg (Nat.not_lt.mpr h)]

/-- What a round reads. -/
def readsAt (w : Walk ρ σ) (m : Mem) (p : ℤ) (i : ℕ) (s : σ) : List ℤ :=
  (w.visit s (bytesAt m (p + i))).all.map fun d => p + i + (d : ℕ)

/-- The walk ends with an element. -/
theorem run_error {r : ρ} (hlt : i < limit)
    (hnext : (w.visit s (bytesAt m (p + i))).next = .error r) (fuel : ℕ) :
    w.run m p limit (fuel + 1) i s = some ⟨.error r, w.readsAt m p i s⟩ := by
  unfold run readsAt
  rw [if_pos hlt]
  dsimp only
  split
  · rename_i r' hr'
    rw [hnext] at hr'
    cases hr'
    rfl
  · rename_i s' hs'
    rw [hnext] at hs'
    cases hs'

/-- The walk goes on behind an element. -/
theorem run_ok {s' : σ} {len : ℕ} (hlt : i < limit)
    (hnext : (w.visit s (bytesAt m (p + i))).next = .ok s')
    (hlen : (m (p + i + 1)).toNat = len) (hno : i + (len + 2) < 2 ^ 32) (fuel : ℕ) :
    w.run m p limit (fuel + 1) i s = (w.run m p limit fuel (i + (len + 2)) s').map fun r =>
      ⟨r.result, w.readsAt m p i s ++ r.reads⟩ := by
  have hu32 : u32 (i + ((m (p + i + 1)).toNat + 2)) = i + (len + 2) := by
    unfold u32
    omega
  unfold readsAt
  rw [run, if_pos hlt]
  dsimp only
  split
  · rename_i r' hr'
    rw [hnext] at hr'
    cases hr'
  · rename_i s'' hs''
    rw [hnext] at hs''
    cases hs''
    rw [hu32]

/-- More fuel does not change how a walk ends. -/
theorem run_mono : ∀ {fuel fuel' i : ℕ} {s : σ} {r : Walked ρ σ},
    w.run m p limit fuel i s = some r → fuel ≤ fuel' → w.run m p limit fuel' i s = some r
  | fuel + 1, fuel', i, s, r, h, hle => by
    obtain ⟨fuel', rfl⟩ : ∃ f, fuel' = f + 1 := ⟨fuel' - 1, by omega⟩
    unfold run at h ⊢
    split_ifs at h ⊢ with hlt
    · dsimp only at h ⊢
      split at h
      · exact h
      · obtain ⟨r', hr', rfl⟩ := Option.map_eq_some_iff.mp h
        rw [run_mono hr' (by omega)]
        rfl
    · exact h

/-- The offsets that are read of one element are inside up to the end, if the element has what it
needs. -/
theorem inside_visit {n : ℕ} (hlimit : limit = i + n) :
    (∀ a ∈ w.readsAt m p i s, p ≤ a ∧ a < p + limit) ↔ w.need s (bytesAt m (p + i)) ≤ n := by
  unfold readsAt
  rw [← w.needs, List.forall_mem_map]
  refine forall₂_congr fun d _ => ?_
  omega

/-- A walk through whole elements and the beginning of another one. -/
theorem inside_walk : ∀ {es : List Elem} {rest : List UInt8} {t : Stream' UInt8} {i : ℕ} {s : σ},
    bytesAt m (p + i) = (encode es ++ rest) ++ₛ t → limit = i + (encode es ++ rest).length →
      limit < 2 ^ 31 →
      Cut rest → ∃ r, (∀ fuel, limit < i + fuel → w.run m p limit fuel i s = some r) ∧
        ((∀ a ∈ r.reads, p ≤ a ∧ a < p + limit) ↔ w.Clean m es rest (p + i) s)
  | [], [], t, i, s, _, hlimit, _, _ => by
    refine ⟨⟨.ok s, []⟩, fun fuel hfuel => ?_, iff_of_true (fun a ha => nomatch ha) (Or.inl rfl)⟩
    have hle : limit = i := hlimit
    obtain ⟨fuel, rfl⟩ : ∃ f, fuel = f + 1 := ⟨fuel - 1, by omega⟩
    exact run_of_le hle.le fuel
  | [], x :: rest, t, i, s, hb, hlimit, hsmall, hcut => by
    rw [encode_nil, List.nil_append] at hb hlimit
    have hlt : i < limit := by
      rw [List.length_cons] at hlimit
      omega
    have hclean : w.Clean m [] (x :: rest) (p + i) s ↔
      w.need s (bytesAt m (p + i)) ≤ (x :: rest).length :=
      or_iff_right (List.cons_ne_nil x rest)
    rw [hclean, ← inside_visit hlimit]
    -- the element is cut, so the next place is not inside
    have hpast : limit ≤ i + ((m (p + i + 1)).toNat + 2) := by
      cases rest with
      | nil =>
        rw [List.length_singleton] at hlimit
        omega
      | cons len rest =>
        have hlen : m (p + i + 1) = len := by
          have hget := congrArg (Stream'.get · 1) hb
          rwa [get_bytesAt] at hget
        have hshort := cut_cons_cons.mp hcut
        rw [List.length_cons, List.length_cons] at hlimit
        rw [hlen]
        omega
    have hbyte := (m (p + i + 1)).toNat_lt
    cases hnext : (w.visit s (bytesAt m (p + i))).next with
    | error r =>
      refine ⟨⟨.error r, w.readsAt m p i s⟩, fun fuel hfuel => ?_, Iff.rfl⟩
      obtain ⟨fuel, rfl⟩ : ∃ f, fuel = f + 1 := ⟨fuel - 1, by omega⟩
      exact run_error hlt hnext fuel
    | ok s' =>
      refine ⟨⟨.ok s', w.readsAt m p i s ++ []⟩, fun fuel hfuel => ?_, by rw [List.append_nil]⟩
      obtain ⟨fuel, rfl⟩ : ∃ f, fuel = f + 1 + 1 := ⟨fuel - 2, by omega⟩
      rw [run_ok hlt hnext rfl (by omega), run_of_le hpast]
      rfl
  | e :: es, rest, t, i, s, hb, hlimit, hsmall, hcut => by
    have hlen : (encode (e :: es) ++ rest).length =
      e.body.length + 2 + (encode es ++ rest).length := by
      rw [encode_cons, List.append_assoc, List.length_append, Elem.length_bytes]
    have hlt : i < limit := by omega
    have hb' : bytesAt m (p + i) = encode (e :: es) ++ₛ (rest ++ₛ t) := by
      rw [hb, Stream'.append_append_stream]
    have hbody := len_of_bytesAt hb'
    have hnextb : bytesAt m (p + (i + (e.body.length + 2) : ℕ)) = (encode es ++ rest) ++ₛ t := by
      rw [Nat.cast_add, ← add_assoc, next_of_bytesAt hb', Stream'.append_append_stream]
    have hle := e.length_le
    unfold Clean
    rw [← inside_visit hlimit]
    cases hnext : (w.visit s (bytesAt m (p + i))).next with
    | error r =>
      refine ⟨⟨.error r, w.readsAt m p i s⟩, fun fuel hfuel => ?_, (and_iff_left trivial).symm⟩
      obtain ⟨fuel, rfl⟩ : ∃ f, fuel = f + 1 := ⟨fuel - 1, by omega⟩
      exact run_error hlt hnext fuel
    | ok s' =>
      obtain ⟨r, hrun, hiff⟩ := inside_walk (s := s') hnextb (by omega) hsmall hcut
      refine ⟨⟨r.result, w.readsAt m p i s ++ r.reads⟩, fun fuel hfuel => ?_, ?_⟩
      · obtain ⟨fuel, rfl⟩ : ∃ f, fuel = f + 1 := ⟨fuel - 1, by omega⟩
        rw [run_ok hlt hnext hbody (by omega), hrun fuel (by omega)]
        rfl
      · rw [List.forall_mem_append, hiff, Nat.cast_add i, ← add_assoc]

/-- Nothing before the start is read. -/
theorem le_of_mem_reads :
    ∀ {fuel i : ℕ} {s : σ} {r : Walked ρ σ}, w.run m p limit fuel i s = some r →
    ∀ a ∈ r.reads, p ≤ a
  | fuel + 1, i, s, r, h, a, ha => by
    have hround : ∀ d : ℕ, p ≤ p + i + (d : ℕ) := fun d => by omega
    unfold run at h
    split at h
    · dsimp only at h
      split at h
      · cases h
        obtain ⟨d, -, rfl⟩ := List.mem_map.mp ha
        exact hround d
      · obtain ⟨r', hr', rfl⟩ := Option.map_eq_some_iff.mp h
        rcases List.mem_append.mp ha with ha | ha
        · obtain ⟨d, -, rfl⟩ := List.mem_map.mp ha
          exact hround d
        · exact le_of_mem_reads hr' a ha
    · cases h
      exact absurd ha List.not_mem_nil

/-- The first round reads what it does. -/
theorem mem_reads_first {r : Walked ρ σ} {a : ℤ} : ∀ {fuel : ℕ}, w.run m p limit fuel i s = some r →
    i < limit →
    a ∈ w.readsAt m p i s → a ∈ r.reads
  | fuel + 1, h, hlt, ha => by
    unfold run at h
    rw [if_pos hlt] at h
    dsimp only at h
    split at h
    · cases h
      exact ha
    · obtain ⟨r', -, rfl⟩ := Option.map_eq_some_iff.mp h
      exact List.mem_append_left _ ha

/-- The loop over the `len` bytes from `q` on, for the elements from `q + base + first` on : it ends
and reads these bytes only. -/
def StaysInside (w : Walk ρ σ) (m : Mem) (q : ℤ) (len base first : ℕ) (s : σ) : Prop :=
  ∃ fuel r, w.run m (q + base) (u32 (len - base)) fuel first s = some r ∧ ∀ a ∈ r.reads, q ≤ a ∧ a < q + len

/-- The bytes in front of the elements are there, and the elements are clean for the walk. -/
def Fits (w : Walk ρ σ) (m : Mem) (q : ℤ) (len base first : ℕ) (s : σ) : Prop :=
  base ≤ len ∧ w.CleanArea m (q + base + first) (len - base - first) s

/-- The walk from `first` on up to a limit behind it. -/
theorem exists_run (w : Walk ρ σ) (m : Mem) (p : ℤ) (s : σ) (hi : i ≤ limit)
    (hlimit : limit < 2 ^ 31) :
    ∃ r, (∀ fuel, limit < i + fuel → w.run m p limit fuel i s = some r) ∧
      ((∀ a ∈ r.reads, p ≤ a ∧ a < p + limit) ↔ w.CleanArea m (p + i) (limit - i) s) := by
  have hbuf : bytesAt m (p + i) = m.read (p + i) (limit - i) ++ₛ bytesAt m
    (p + i + (limit - i : ℕ)) := by
    rw [read_eq_take, ← drop_bytesAt m (p + i), Stream'.append_take_drop]
  have hlen : (m.read (p + i) (limit - i)).length = limit - i := Mem.length_read ..
  have hwalk : ∀ es rest, m.read (p + i) (limit - i) = encode es ++ rest → Cut rest →
      ∃ r, (∀ fuel, limit < i + fuel → w.run m p limit fuel i s = some r) ∧
        ((∀ a ∈ r.reads, p ≤ a ∧ a < p + limit) ↔ w.Clean m es rest (p + i) s) := by
    intro es rest hread hcut
    rw [hread] at hbuf hlen
    exact inside_walk hbuf (by omega) hlimit hcut
  obtain ⟨es, rest, hread, hcut⟩ := exists_encode_append_cut (m.read (p + i) (limit - i))
  obtain ⟨r, hr, hiff⟩ := hwalk es rest hread hcut
  refine ⟨r, hr, fun hin => ⟨es, rest, hread, hcut, hiff.mp hin⟩, ?_⟩
  rintro ⟨es', rest', hread', hcut', hclean⟩
  obtain ⟨r', hr', hiff'⟩ := hwalk es' rest' hread' hcut'
  have hsame := (hr (limit + 1) (by omega)).symm.trans (hr' (limit + 1) (by omega))
  cases hsame
  exact hiff'.mpr hclean

/-- The walk that begins behind the limit reads nothing. -/
theorem cleanArea_zero (w : Walk ρ σ) (m : Mem) (q : ℤ) (s : σ) : w.CleanArea m q 0 s :=
  ⟨[], [], rfl, cut_of_length_le_one (Nat.zero_le 1), Or.inl rfl⟩

/-- A loop is right exactly on what fits. -/
theorem walkInside_iff (w : Walk ρ σ) (m : Mem) (q : ℤ) {len base first : ℕ} (s : σ)
    (hlen : len < 2 ^ 31)
    (hfirst : base + first < 2 ^ 31) : w.StaysInside m q len base first s ↔
    w.Fits m q len base first s := by
  rcases Nat.lt_or_ge len base with hbase | hbase
  · -- the difference is taken as an unsigned one
    refine iff_of_false ?_ fun h => absurd h.1 (Nat.not_le.mpr hbase)
    rintro ⟨fuel, r, hrun, hin⟩
    have hlt : first < u32 (len - base) := by
      unfold u32
      omega
    have hread : q + base + first ∈ w.readsAt m (q + base) first s :=
      List.mem_map.mpr ⟨0, List.mem_cons_self, by rw [Nat.cast_zero, add_zero]⟩
    have hlast := (hin _ (mem_reads_first hrun hlt hread)).2
    omega
  · have hlimit : u32 (len - base) = len - base := by
      unfold u32
      omega
    have hmap : ∀ {fuel : ℕ} {r : Walked ρ σ}, w.run m (q + base)
      (len - base) fuel first s = some r →
        ((∀ a ∈ r.reads, q ≤ a ∧ a < q + len) ↔
          ∀ a ∈ r.reads, q + base ≤ a ∧ a < q + base + (len - base : ℕ)) := by
      intro fuel r hrun
      refine forall₂_congr fun a ha => ?_
      have hge := le_of_mem_reads hrun a ha
      omega
    unfold StaysInside Fits
    rw [hlimit, and_iff_right hbase]
    rcases Nat.lt_or_ge (len - base) first with hbehind | hbehind
    · rw [Nat.sub_eq_zero_of_le hbehind.le]
      exact iff_of_true ⟨1, _, run_of_le hbehind.le 0, fun a ha => nomatch ha⟩ (cleanArea_zero ..)
    · obtain ⟨r, hr, hiff⟩ := w.exists_run m (q + base) s hbehind (by omega)
      have hrun := hr (len - base + 1) (by omega)
      rw [← hiff]
      constructor
      · rintro ⟨fuel, r', hr', hin⟩
        have hsame : r' = r := Option.some.inj ((run_mono hr' (le_max_left _ _)).symm.trans
          (hr (max fuel (len - base + 1)) (by omega)))
        rw [hsame] at hr' hin
        exact (hmap hr').mp hin
      · exact fun hin => ⟨_, r, hrun, (hmap hrun).mpr hin⟩

end Walk

/-! ## What the elements need -/

section Needs

variable {ρ σ : Type} {reads : List ℕ} {s : σ} {k n : ℕ}

theorem forall_all_ok : (∀ d ∈ (⟨reads, .ok s⟩ : Visit ρ σ).all, d < n) ↔
    2 ≤ n ∧ ∀ d ∈ reads, d < n := by
  unfold Visit.all
  rw [List.forall_mem_append, List.forall_mem_cons, List.forall_mem_singleton]
  constructor
  · rintro ⟨⟨-, hreads⟩, hlen⟩
    exact ⟨hlen, hreads⟩
  · rintro ⟨hlen, hreads⟩
    exact ⟨⟨by omega, hreads⟩, hlen⟩

theorem forall_bodyOffsets : (∀ d ∈ WalkEnv.bodyOffsets k, d < n) ↔ k = 0 ∨ 2 + k ≤ n := by
  unfold WalkEnv.bodyOffsets
  rw [List.forall_mem_map]
  constructor
  · intro h
    rcases Nat.eq_zero_or_pos k with hk | hk
    · exact Or.inl hk
    · have hlast := h (k - 1) (List.mem_range.mpr (by omega))
      omega
  · intro h i hi
    have hlt := List.mem_range.mp hi
    omega

end Needs

namespace WalkEnv

variable (env : WalkEnv) (b : Stream' UInt8)

/-- The bytes that `HT_info_handler` needs. -/
def htInfoNeed : ℕ := if env.htOption ∧ (b.get 1).toNat ≤ htInfoElementSz then 2 + (b.get 1).toNat else 2

/-- The bytes that `ERP_IE_handler` needs. -/
def erpIeNeed : ℕ := if (b.get 1).toNat ≤ 1 then 2 + (b.get 1).toNat else 2

/-- The bytes that `HT_caps_handler` needs. -/
def htCapsNeed : ℕ := if env.htOption then 2 + (b.get 1).toNat else 2

variable {n : ℕ}

theorem htInfoNeed_le : env.htInfoNeed b ≤ n ↔ 2 ≤ n ∧ ∀ d ∈ env.htInfoReads b, d < n := by
  unfold htInfoNeed htInfoReads
  cases env.htOption with
  | false => simp
  | true =>
    simp only [Bool.not_true, Bool.false_eq_true, if_false, true_and]
    split_ifs with h h' h'
    · omega
    · rw [List.forall_mem_cons, forall_bodyOffsets]
      omega
    · rw [List.forall_mem_singleton]
      omega
    · omega

theorem erpIeNeed_le : erpIeNeed b ≤ n ↔ 2 ≤ n ∧ ∀ d ∈ erpIeReads b, d < n := by
  unfold erpIeNeed erpIeReads
  split_ifs with h h' h'
  · omega
  · rw [List.forall_mem_cons, forall_bodyOffsets]
    omega
  · rw [List.forall_mem_singleton]
    omega
  · omega

theorem htCapsNeed_le : env.htCapsNeed b ≤ n ↔ 2 ≤ n ∧ ∀ d ∈ env.htCapsReads b, d < n := by
  unfold htCapsNeed htCapsReads
  cases env.htOption with
  | false => simp
  | true =>
    simp only [Bool.not_true, Bool.false_eq_true, if_false, if_true]
    rw [List.forall_mem_cons, forall_bodyOffsets]
    omega

/-- `update_beacon_info` needs the first of the HT information bytes, and the element if the channel
changes. -/
def beaconNeed (s : BwMode) : ℕ :=
  if b.get 0 = htExtraInfoIe then
    if htInfoElementSz < (b.get 1).toNat then 2
    else if env.newBwMode b ≠ s then max 4 (env.htInfoNeed b)
    else 4
  else if b.get 0 = erpinfoIe then erpIeNeed b
  else 2

/-- The bytes that `WMM_param_handler` needs. -/
def wmmParamNeed : ℕ := if env.qosOption then 26 else 8

/-- `OnAssocRsp` needs six bytes of a vendor element and the parameters behind them if it is the WMM
one. -/
def assocRspNeed : ℕ :=
  if b.get 0 = vendorSpecificIe then if (b.drop 2).take 6 = wmmParaOui then env.wmmParamNeed else 8
  else if b.get 0 = htCapabilityIe then env.htCapsNeed b
  else if b.get 0 = htExtraInfoIe then env.htInfoNeed b
  else if b.get 0 = erpinfoIe then erpIeNeed b
  else 2

/-- `join_cmd_hdl` needs four bytes of a vendor element, and the first of the HT information
bytes. -/
def joinNeed : ℕ :=
  if b.get 0 = vendorSpecificIe then 6
  else if b.get 0 = htCapabilityIe then 2
  else if b.get 0 = htExtraInfoIe then if env.cbw40Enable then 4 else 2
  else 2

theorem wmmParamNeed_le : env.wmmParamNeed ≤ n ↔ 8 ≤ n ∧ ∀ d ∈ env.wmmParamReads, d < n := by
  unfold wmmParamNeed wmmParamReads wmmParaElementSz
  cases env.qosOption with
  | false => simp
  | true =>
    simp only [Bool.not_true, Bool.false_eq_true, if_false, if_true]
    rw [List.forall_mem_map]
    constructor
    · intro hn
      refine ⟨by omega, fun i hi => ?_⟩
      have hlt := List.mem_range.mp hi
      omega
    · rintro ⟨-, hparam⟩
      have hlast := hparam 17 (List.mem_range.mpr (by omega))
      omega

theorem beaconNeed_le (s : BwMode) : (∀ d ∈ (env.beaconVisit s b).all, d < n) ↔
    env.beaconNeed b s ≤ n := by
  unfold beaconVisit beaconNeed bwmodeUpdateCheck
  split_ifs with hinfo hlong hnew herp
  · rw [forall_all_ok, List.forall_mem_singleton]
    omega
  · rw [forall_all_ok, List.forall_mem_append, max_le_iff, htInfoNeed_le, List.forall_mem_cons,
      List.forall_mem_singleton]
    constructor
    · rintro ⟨hlen, ⟨-, hfirst⟩, hreads⟩
      exact ⟨hfirst, hlen, hreads⟩
    · rintro ⟨hfirst, hlen, hreads⟩
      exact ⟨hlen, ⟨by omega, hfirst⟩, hreads⟩
  · rw [forall_all_ok, List.forall_mem_cons, List.forall_mem_singleton]
    omega
  · rw [forall_all_ok, erpIeNeed_le]
  · rw [forall_all_ok, and_iff_left (List.forall_mem_nil _)]

theorem assocRspNeed_le : (∀ d ∈ (env.assocRspVisit b).all, d < n) ↔ env.assocRspNeed b ≤ n := by
  unfold assocRspVisit assocRspNeed
  split_ifs with hvendor hwmm hcaps hinfo herp
  · rw [forall_all_ok, List.forall_mem_append, forall_bodyOffsets, wmmParamNeed_le]
    constructor
    · rintro ⟨-, hoff, hparam⟩
      exact ⟨by omega, hparam⟩
    · rintro ⟨hlen, hparam⟩
      exact ⟨by omega, Or.inr hlen, hparam⟩
  · rw [forall_all_ok, List.append_nil, forall_bodyOffsets]
    omega
  · rw [forall_all_ok, htCapsNeed_le]
  · rw [forall_all_ok, htInfoNeed_le]
  · rw [forall_all_ok, erpIeNeed_le]
  · rw [forall_all_ok, and_iff_left (List.forall_mem_nil _)]

theorem joinNeed_le (s : JoinState) : (∀ d ∈ (env.joinVisit s b).all, d < n) ↔
    env.joinNeed b ≤ n := by
  unfold joinVisit joinNeed
  by_cases hvendor : b.get 0 = vendorSpecificIe
  · rw [if_pos hvendor, if_pos hvendor, forall_all_ok, forall_bodyOffsets]
    omega
  rw [if_neg hvendor, if_neg hvendor]
  by_cases hcaps : b.get 0 = htCapabilityIe
  · rw [if_pos hcaps, if_pos hcaps, forall_all_ok, and_iff_left (List.forall_mem_nil _)]
  rw [if_neg hcaps, if_neg hcaps]
  by_cases hinfo : b.get 0 = htExtraInfoIe
  · rw [if_pos hinfo, if_pos hinfo]
    dsimp only
    by_cases hcbw : env.cbw40Enable = true
    · rw [if_pos hcbw, if_pos hcbw, forall_all_ok, List.forall_mem_singleton]
      omega
    · rw [if_neg hcbw, if_neg hcbw, forall_all_ok, and_iff_left (List.forall_mem_nil _)]
  · rw [if_neg hinfo, if_neg hinfo, forall_all_ok, and_iff_left (List.forall_mem_nil _)]

end WalkEnv

/-- `check_assoc_AP` needs three bytes of a vendor element, and its length byte to go on. -/
def assocAPNeed (b : Stream' UInt8) : ℕ := if b.get 0 = vendorSpecificIe then 5 else 2

theorem assocAPNeed_le {n : ℕ} (s : VendorFlags) (b : Stream' UInt8) :
    (∀ d ∈ (assocAPVisit s b).all, d < n) ↔ assocAPNeed b ≤ n := by
  unfold assocAPVisit assocAPNeed
  split_ifs with hvendor
  · unfold Visit.all
    rw [List.forall_mem_append, List.forall_mem_cons, forall_bodyOffsets]
    split
    · rw [and_iff_left (List.forall_mem_nil _)]
      omega
    · rw [List.forall_mem_singleton]
      omega
  · rw [forall_all_ok, and_iff_left (List.forall_mem_nil _)]

/-! ## The loops -/

section Loops

variable (env : WalkEnv) (m : Mem)

/-- The walk of `update_beacon_info`. -/
def beaconWalk : Walk Empty BwMode where
  visit := env.beaconVisit
  need := fun s b => env.beaconNeed b s
  needs := fun s b _ => env.beaconNeed_le b s

/-- The walk of `check_assoc_AP`. -/
def assocAPWalk : Walk HtIotPeer VendorFlags where
  visit := assocAPVisit
  need := fun _ b => assocAPNeed b
  needs := fun s b _ => assocAPNeed_le s b

/-- The walk of `OnAssocRsp`. -/
def assocRspWalk : Walk Empty Unit where
  visit := fun _ b => env.assocRspVisit b
  need := fun _ b => env.assocRspNeed b
  needs := fun _ b _ => env.assocRspNeed_le b

/-- The walk of `join_cmd_hdl`. -/
def joinWalk : Walk Empty JoinState where
  visit := env.joinVisit
  need := fun _ b => env.joinNeed b
  needs := fun s b _ => env.joinNeed_le b s

end Loops

/-- `sizeof (struct ndis_802_11_fixed_ie)`. -/
def fixedIeSz : ℕ := 12

/-- A frame or an element area. -/
structure WalkArea where
  mem : Mem
  start : ℤ
  len : ℕ
  /-- A length is a length of an object in memory. -/
  len_lt : len < 2 ^ 31

/-- The calls, with the state of the device that the loop starts from. -/
inductive ElementWalk where
  /-- `update_beacon_info`, for a beacon. -/
  | updateBeaconInfo (env : WalkEnv) (s : BwMode)
  /-- `check_assoc_AP`, which `OnBeacon` calls for the body of a beacon. -/
  | onBeacon
  /-- `check_assoc_AP`, which `rtw_joinbss_cmd` calls for the elements of the network. -/
  | joinbssCmd
  /-- `OnAssocRsp`, for an association response. -/
  | onAssocRsp (env : WalkEnv)
  /-- `join_cmd_hdl`, for the elements of the network, which it refuses if there are too many. -/
  | joinCmdHdl (env : WalkEnv) (s : JoinState)

namespace ElementWalk

/-- The loop of a call ends and reads the area only. -/
def Right (f : WalkArea) : ElementWalk → Prop
  | .updateBeaconInfo env s => (beaconWalk env).StaysInside f.mem f.start f.len (beaconIeOffset + wlanHdrA3Len) 0 s
  | .onBeacon => assocAPWalk.StaysInside f.mem f.start f.len wlanHdrA3Len fixedIeSz ⟨false, false⟩
  | .joinbssCmd => assocAPWalk.StaysInside f.mem f.start f.len 0 fixedIeSz ⟨false, false⟩
  | .onAssocRsp env => (assocRspWalk env).StaysInside f.mem f.start f.len 0 (6 + wlanHdrA3Len) ()
  | .joinCmdHdl env s => maxIeSz < f.len ∨ (joinWalk env).StaysInside f.mem f.start f.len 0 fixedIeSz s

/-- The area has the bytes in front of its elements, and each element that the loop comes to has the
bytes that are looked at. -/
def Fits (f : WalkArea) : ElementWalk → Prop
  | .updateBeaconInfo env s => (beaconWalk env).Fits f.mem f.start f.len (beaconIeOffset + wlanHdrA3Len) 0 s
  | .onBeacon => assocAPWalk.Fits f.mem f.start f.len wlanHdrA3Len fixedIeSz ⟨false, false⟩
  | .joinbssCmd => assocAPWalk.Fits f.mem f.start f.len 0 fixedIeSz ⟨false, false⟩
  | .onAssocRsp env => (assocRspWalk env).Fits f.mem f.start f.len 0 (6 + wlanHdrA3Len) ()
  | .joinCmdHdl env s => maxIeSz < f.len ∨ (joinWalk env).Fits f.mem f.start f.len 0 fixedIeSz s

/-- A loop ends and reads the area only exactly if what it looks at is there. -/
theorem right_iff_fits (k : ElementWalk) (f : WalkArea) : k.Right f ↔ k.Fits f := by
  cases k with
  | updateBeaconInfo env s => exact (beaconWalk env).walkInside_iff _ _ s f.len_lt (by decide)
  | onBeacon => exact assocAPWalk.walkInside_iff _ _ _ f.len_lt (by decide)
  | joinbssCmd => exact assocAPWalk.walkInside_iff _ _ _ f.len_lt (by decide)
  | onAssocRsp env => exact (assocRspWalk env).walkInside_iff _ _ _ f.len_lt (by decide)
  | joinCmdHdl env s => exact or_congr_right ((joinWalk env).walkInside_iff _ _ s f.len_lt
    (by decide))

/-- An association response that ends with a vendor element without a body. -/
def assocRspEmptyVendor : WalkArea := ⟨fun a => if a = 30 then 221 else 0, 0, 32, by decide⟩

/-- A beacon that ends behind its timestamp. -/
def beaconTimestamp : WalkArea := ⟨fun _ => 0, 0, 32, by decide⟩

/-- `OnAssocRsp` compares six bytes behind the end of the one, and `update_beacon_info` begins
behind the end of the other. -/
theorem not_right_samples : ¬(onAssocRsp ⟨true, true, true⟩).Right assocRspEmptyVendor ∧
    ¬(updateBeaconInfo ⟨true, true, true⟩ ⟨false, .dontCare⟩).Right beaconTimestamp := by
  constructor
  · rintro ⟨fuel, r, hrun, hin⟩
    have hread : (37 : ℤ) ∈ (assocRspWalk ⟨true, true, true⟩).readsAt assocRspEmptyVendor.mem
        (assocRspEmptyVendor.start + (0 : ℕ)) 30 () := by decide
    have hlast := (hin 37 (Walk.mem_reads_first hrun (by decide) hread)).2
    revert hlast
    decide
  · rintro ⟨fuel, r, hrun, hin⟩
    have hread : (36 : ℤ) ∈ (beaconWalk ⟨true, true, true⟩).readsAt beaconTimestamp.mem
        (beaconTimestamp.start + (36 : ℕ)) 0 ⟨false, .dontCare⟩ := by decide
    have hlast := (hin 36 (Walk.mem_reads_first hrun (by decide) hread)).2
    revert hlast
    decide

end ElementWalk

end Rtl8188eu
