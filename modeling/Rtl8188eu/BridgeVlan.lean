import Rtl8188eu.BridgeShortcut
import Rtl8188eu.PppoeRelay

/-!
# VLAN tags of bridged hosts

`rtw_br_client_tx` takes the VLAN tag out of a frame before `nat25_db_handle` looks at it, by moving
the two addresses over it, and moves them back when it is done. It also puts the tag back for the
copy of a frame.

When `nat25_db_handle` refuses a frame, `rtw_br_client_tx` returns in the middle : the tag is not
put back, and the source address stays the one of the host, which is checked on the other paths.
`txKeepsFrame_iff` says which frames go on as they should.
-/

namespace Rtl8188eu

/-! ## The functions of the source -/

namespace SkbBuf

/-- The tag of a frame that has one. -/
def vlanTag (skb : SkbBuf) : Option (List UInt8) :=
  if skb.protocol = ethP8021q then some (skb.mem.read (skb.data + 14) 2) else none

/-- The VLAN tag is taken out, if there is one. -/
def untagged (skb : SkbBuf) : SkbBuf := { skb with toSkb := skb.toSkb.untagged }

/-- The VLAN tag is put back, if there was one. -/
def retag (vlan : Option (List UInt8)) (skb : SkbBuf) : SkbBuf :=
  match vlan with
  | some hdr => { skb with toSkb := skb.toSkb.vlanPush hdr }
  | none => skb

/-- The tag is put back, the frame is copied, and the tag is taken out again. -/
def copyTagged (vlan : Option (List UInt8)) (skb : SkbBuf) : SkbBuf :=
  match vlan with
  | some hdr => { skb with toSkb := (skb.toSkb.vlanPush hdr).vlanPull }
  | none => skb

end SkbBuf

namespace RelayBridge

/-- The last comparison of `rtw_br_client_tx`. -/
def checkSource (s : RelayBridge) (skb : SkbBuf) : ℤ × SkbBuf × RelayBridge :=
  (if skb.src ≠ s.macAddr then -1 else 0, skb, s)

/-- The end of `rtw_br_client_tx` for a frame that `nat25_db_handle` does not refuse. -/
def finishTx (s : RelayBridge) (vlan : Option (List UInt8)) (skb : SkbBuf) : ℤ × SkbBuf × RelayBridge :=
  let skb := { skb with toSkb := (skb.toSkb.setSrc s.macAddr).dhcpFlagBcast s.dhcpBcstDisable }
  s.checkSource (skb.retag vlan)

/-- The part of `rtw_br_client_tx` about a frame that goes to `nat25_db_handle`. -/
def clientTxNat25 (s : RelayBridge) (w : RelayEnv) (vlan : Option (List UInt8)) (skb : SkbBuf) :
    Option (ℤ × SkbBuf × RelayBridge) :=
  (s.nat25DbHandle w skb .check).bind fun (check, skb, s) =>
    if check = 0 ∧ !w.copyOk then some (-1, skb.retag vlan, s)
    else
      let skb := if check = 0 then skb.copyTagged vlan else skb
      if !w.linearizeOk then some (-1, skb, s)
      else
        (s.nat25DbHandle w skb .insert).map fun (res, skb, s) =>
          if res < 0 then (if res = -2 then -1 else 0, skb, s) else s.finishTx vlan skb

/-- A frame of the host of the shortcut, which is not looked at any further. -/
def TakesShortcut (s : RelayBridge) (skb : SkbBuf) : Prop :=
  isMcast skb.dst = false ∧ s.brPort = true ∧ skb.src ≠ s.brMac ∧ skb.protocol = ethPIp ∧ s.scdbMac = skb.src ∧
    s.scdbEntry.isSome = true

instance (s : RelayBridge) (skb : SkbBuf) : Decidable (s.TakesShortcut skb) :=
  inferInstanceAs (Decidable (_ ∧ _ ∧ _ ∧ _ ∧ _ ∧ _))

/-- The bridge learns its own IP address from the frames of its device. -/
def learnBrIp (s : RelayBridge) (skb : SkbBuf) : RelayBridge :=
  if skb.src = s.brMac ∧ skb.protocol = ethPIp then { s with brIp := skb.saddr } else s

/-- Whether a frame goes to `nat25_db_handle`, and the shortcut after it. -/
def doNat25 (s : RelayBridge) (skb : SkbBuf) : Option (Bool × Nat25) :=
  if skb.protocol = ethPIp then s.scdbTx skb.src skb.saddr else some (true, s.toNat25)

/-- `rtw_br_client_tx`. -/
def rtwBrClientTx (s : RelayBridge) (w : RelayEnv) (skb : SkbBuf) : Option (ℤ × SkbBuf × RelayBridge) :=
  if s.TakesShortcut skb then
    (s.scdbTx skb.src skb.saddr).map fun (_, db) =>
      { s with toNat25 := db }.checkSource { skb with toSkb := skb.toSkb.setSrc s.macAddr }
  else
    let vlan := skb.vlanTag
    let skb := skb.untagged
    let s := s.learnBrIp skb
    (s.doNat25 skb).bind fun (nat25, db) =>
      let s := { s with toNat25 := db }
      if nat25 then s.clientTxNat25 w vlan skb else some (s.finishTx vlan skb)

/-! ## What should hold -/

end RelayBridge

/-- `dhcp_flag_bcast` sets the flag of the frame : it is a DHCP request without it, and
`dhcp_bcst_disable` is not set. -/
def Skb.GetsBcastFlag (bcstDisable : Bool) (skb : Skb) : Prop :=
  bcstDisable = false ∧ skb.protocol = ethPIp ∧ skb.mem (skb.data + 14 + 9) = 17 ∧
    skb.mem.be16 skb.udph = 68 ∧ skb.mem.be16 (skb.udph + 2) = 67 ∧
    skb.mem.read (skb.udph + 8 + 236) 4 = Skb.dhcpMagic ∧ ¬skb.dhcpFlags.testBit 15

namespace SkbBuf

/-- Where the bytes behind the addresses and the tag start. -/
def bodyAt (skb : SkbBuf) : ℤ := if skb.protocol = ethP8021q then skb.data + 16 else skb.data + 12

/-- How many bytes there are behind the addresses and the tag. -/
def bodyLen (skb : SkbBuf) : ℕ := if skb.protocol = ethP8021q then skb.len - 16 else skb.len - 12

/-- NAT2.5 writes the byte at `a` of a frame without a tag : the sender of an ARP frame about IP
addresses, the address and the checksum of a neighbour-discovery message that has one, the flags and
the checksum of a DHCP request. -/
def Rewritten (skb : SkbBuf) (bcstDisable : Bool) (a : ℤ) : Prop :=
  (skb.protocol = ethPArp ∧ skb.mem.be16 (skb.data + 14 + 2) = ethPIp ∧
    skb.data + 22 ≤ a ∧ a < skb.data + 28) ∨
  (skb.protocol = ethPIpv6 ∧ skb.mem.read (skb.data + 14 + 8) 16 ≠ List.replicate 16 0 ∧
    skb.mem (skb.data + 14 + 6) = 58 ∧ 14 + 40 + 4 < skb.len ∧
    ∃ q, ndAddrAt skb.mem skb.icmp6h (skb.len - 14 - 40) = some (some q) ∧
      (a = skb.icmp6h + 2 ∨ a = skb.icmp6h + 3 ∨ (q ≤ a ∧ a < q + 6))) ∨
  (skb.GetsBcastFlag bcstDisable ∧ (a = skb.udph + 18 ∨ a = skb.udph + 6 ∨ a = skb.udph + 7))

end SkbBuf

namespace RelayBridge

/-- The frame gets a relay tag. -/
def AddsRelay (s : RelayBridge) (skb : SkbBuf) : Prop :=
  (skb.protocol = ethPPppDisc ∨ skb.protocol = ethPPppSes) ∧ skb.pppoeSid = 0 ∧
    (skb.pppoeCode = padiCode ∨ skb.pppoeCode = padrCode) ∧ s.addPPPoETag = true

/-- The frame `out` is `skb` from the address of the station, with the same tag, and the same bytes
behind it but for what NAT2.5 writes. A frame of PPPoE discovery has its new relay tag. -/
structure KeepsFrame (s : RelayBridge) (w : RelayEnv) (skb out : SkbBuf) : Prop where
  tag : out.vlanTag = skb.vlanTag
  src : out.src = s.macAddr
  body : ¬s.AddsRelay skb.untagged → out.len = skb.len ∧ ∀ i : ℕ,
    i < skb.bodyLen → ¬skb.untagged.Rewritten s.dhcpBcstDisable (skb.untagged.data + 12 + i) →
      out.mem (out.bodyAt + i) = skb.mem (skb.bodyAt + i)
  relayed : s.AddsRelay skb.untagged →
    out.bodyLen = (skb.untagged.insertRelayTag w.order w.stack).2.len - 12 ∧ ∀ i : ℕ, i < out.bodyLen →
      out.mem (out.bodyAt + i) = (skb.untagged.insertRelayTag w.order w.stack).2.mem (skb.untagged.data + 12 + i)

end RelayBridge

/-! ## Tags taken out and put back -/

/-- A block that is moved. -/
theorem write_read_apply (m' m : Mem) (p q : ℤ) {n i : ℕ} (hi : i < n) :
    m'.write q (m.read p n) (q + i) = m (p + i) := by
  have hblock := Mem.read_write_of_length m' q (m.length_read n p)
  have hi' : i < ((m'.write q (m.read p n)).read q n).length := by rwa [Mem.length_read]
  refine (Mem.getElem_read _ n q i hi').symm.trans ?_
  simp only [hblock]
  exact Mem.getElem_read m n p i (by rwa [Mem.length_read])

namespace Skb

variable (skb : Skb)

theorem vlanPull_body {a : ℤ} (ha : skb.data + 16 ≤ a) : skb.vlanPull.mem a = skb.mem a :=
  Mem.write_of_disjoint _ (Or.inr (by rw [Mem.length_read]; omega))

theorem src_vlanPull : skb.vlanPull.src = skb.src := by
  unfold src macAt
  congr 1
  funext i
  have h := write_read_apply skb.mem skb.mem skb.data (skb.data + 4)
    (show 6 + (i : ℕ) < 12 by omega)
  push_cast at h
  rw [← add_assoc, ← add_assoc] at h
  exact h

/-- The type of a tagged frame, and its tag. -/
theorem read_tag (h : skb.protocol = ethP8021q) :
    skb.mem.read (skb.data + 12) 4 = [0x81, 0x00] ++ skb.mem.read (skb.data + 14) 2 := by
  have hlo := (skb.mem (skb.data + 12 + 1)).toNat_lt
  have hsum : 256 * (skb.mem (skb.data + 12)).toNat + (skb.mem (skb.data + 12 + 1)).toNat =
    0x8100 := h
  have h0 : skb.mem (skb.data + 12) = 0x81 := UInt8.toNat_inj.mp (by change _ = 0x81; omega)
  have h1 : skb.mem (skb.data + 12 + 1) = 0x00 := UInt8.toNat_inj.mp (by change _ = 0; omega)
  rw [show (4 : ℕ) = 2 + 2 from rfl, Mem.read_add, Mem.read, Mem.read, Mem.read, h0, h1]
  norm_num [add_assoc]

/-- A tag that is taken out and put back. -/
theorem vlanPush_vlanPull (h : skb.protocol = ethP8021q) (hlen : 4 ≤ skb.len) :
    skb.vlanPull.vlanPush (skb.mem.read (skb.data + 14) 2) = skb := by
  have hmem : (skb.vlanPull.vlanPush (skb.mem.read (skb.data + 14) 2)).mem = skb.mem := by
    funext a
    have hdata : skb.vlanPull.data = skb.data + 4 := rfl
    unfold vlanPush
    dsimp only
    rw [← skb.read_tag h, hdata]
    by_cases htag : skb.data + 12 ≤ a ∧ a < skb.data + 16
    · obtain ⟨i, rfl⟩ : ∃ i : ℕ, a = skb.data + 4 - 4 + 12 + i :=
        ⟨(a - (skb.data + 12)).toNat, by omega⟩
      rw [write_read_apply _ _ _ _ (by omega)]
      congr 1
      omega
    rw [Mem.write_of_disjoint _ (by rw [Mem.length_read]; omega)]
    by_cases haddr : skb.data ≤ a ∧ a < skb.data + 12
    · obtain ⟨i, rfl⟩ : ∃ i : ℕ, a = skb.data + 4 - 4 + i := ⟨(a - skb.data).toNat, by omega⟩
      have hpull : skb.vlanPull.mem (skb.data + 4 + i) = skb.mem (skb.data + i) :=
        write_read_apply _ _ _ _ (by omega)
      rw [write_read_apply _ _ _ _ (by omega), hpull]
      congr 1
      omega
    · rw [Mem.write_of_disjoint _ (by rw [Mem.length_read]; omega)]
      exact Mem.write_of_disjoint _ (by rw [Mem.length_read]; omega)
  have hdata : skb.data + 4 - 4 = skb.data := by ring
  have hlen' : skb.len - 4 + 4 = skb.len := by omega
  calc skb.vlanPull.vlanPush (skb.mem.read (skb.data + 14) 2)
      = ⟨(skb.vlanPull.vlanPush (skb.mem.read (skb.data + 14) 2)).mem, skb.data + 4 - 4,
        skb.len - 4 + 4⟩ := rfl
    _ = skb := by rw [hmem, hdata, hlen']

variable (hdr : List UInt8)

theorem src_vlanPush : (skb.vlanPush hdr).src = skb.src := by
  unfold src macAt
  congr 1
  funext i
  have h := write_read_apply skb.mem skb.mem skb.data (skb.data - 4)
    (show 6 + (i : ℕ) < 12 by omega)
  push_cast at h
  rw [← add_assoc, ← add_assoc] at h
  refine (Mem.write_of_disjoint _ (Or.inl ?_)).trans h
  change skb.data - 4 + 6 + (i : ℕ) < skb.data - 4 + 12
  omega

theorem protocol_vlanPush : (skb.vlanPush hdr).protocol = ethP8021q :=
  @Mem.be16_of_holds _ _ ethP8021q hdr (by decide) (Mem.read_write_self _ _ _)

variable {hdr} (hlen : hdr.length = 2)

include hlen

theorem vlanPush_body {a : ℤ} (ha : skb.data + 12 ≤ a) : (skb.vlanPush hdr).mem a = skb.mem a := by
  refine (Mem.write_of_disjoint _ (Or.inr ?_)).trans (Mem.write_of_disjoint _ (Or.inr ?_))
  · rw [List.length_append, hlen]
    simp only [List.length_cons, List.length_nil]
    omega
  · rw [Mem.length_read]
    omega

theorem read_vlanPush : (skb.vlanPush hdr).mem.read ((skb.vlanPush hdr).data + 14) 2 = hdr := by
  have hpush : (skb.vlanPush hdr).mem.Holds (skb.data - 4 + 12) ([0x81, 0x00] ++ hdr) :=
    Mem.read_write_self _ _ _
  have h := (Mem.holds_append.mp hpush).2
  have hp : skb.data - 4 + 12 + (([0x81, 0x00] : List UInt8).length : ℤ) = skb.data - 4 + 14 := by
    simp only [List.length_cons, List.length_nil]
    omega
  rw [hp, Mem.Holds, hlen] at h
  exact h

end Skb

namespace SkbBuf

variable (skb : SkbBuf)

theorem length_of_vlanTag {hdr : List UInt8} (h : skb.vlanTag = some hdr) : hdr.length = 2 := by
  unfold vlanTag at h
  split at h
  · cases h
    exact Mem.length_read _ _ _
  · cases h

theorem vlanTag_eq_none : skb.vlanTag = none ↔ skb.protocol ≠ ethP8021q := by
  unfold vlanTag
  split
  · rename_i h
    simp [h]
  · rename_i h
    simp [h]

theorem untagged_of_none (h : skb.vlanTag = none) : skb.untagged = skb := by
  unfold untagged Skb.untagged
  rw [if_neg (skb.vlanTag_eq_none.mp h)]

theorem untagged_of_some {hdr : List UInt8} (h : skb.vlanTag = some hdr) :
    skb.protocol = ethP8021q ∧ skb.untagged = { skb with toSkb := skb.vlanPull } := by
  have hp : skb.protocol = ethP8021q := by
    by_contra hp
    rw [skb.vlanTag_eq_none.mpr hp] at h
    cases h
  refine ⟨hp, ?_⟩
  unfold untagged Skb.untagged
  rw [if_pos hp]

/-- The copy of a tagged frame has the tag taken out again. -/
theorem copyTagged_untagged (hlen : 14 ≤ skb.len) :
    skb.untagged.copyTagged skb.vlanTag = skb.untagged := by
  cases h : skb.vlanTag with
  | none => rfl
  | some hdr =>
    obtain ⟨hp, heq⟩ := skb.untagged_of_some h
    have hhdr : hdr = skb.mem.read (skb.data + 14) 2 := by
      unfold vlanTag at h
      rw [if_pos hp] at h
      exact (Option.some.inj h).symm
    rw [heq]
    change { skb with toSkb := (skb.vlanPull.vlanPush hdr).vlanPull } = _
    rw [hhdr, skb.vlanPush_vlanPull hp (by omega)]

theorem src_untagged : skb.untagged.src = skb.src := by
  cases h : skb.vlanTag with
  | none => rw [skb.untagged_of_none h]
  | some hdr =>
    rw [(skb.untagged_of_some h).2]
    exact skb.toSkb.src_vlanPull

/-- What is behind the addresses and the tag is not touched when the tag is taken out. -/
theorem body_untagged :
    skb.untagged.data + 12 = skb.bodyAt ∧ skb.untagged.len - 12 = skb.bodyLen ∧
      ∀ a, skb.bodyAt ≤ a → skb.untagged.mem a = skb.mem a := by
  unfold bodyAt bodyLen
  cases h : skb.vlanTag with
  | none =>
    have hp := skb.vlanTag_eq_none.mp h
    rw [skb.untagged_of_none h, if_neg hp, if_neg hp]
    exact ⟨rfl, rfl, fun _ _ => rfl⟩
  | some hdr =>
    obtain ⟨hp, heq⟩ := skb.untagged_of_some h
    rw [heq, if_pos hp, if_pos hp]
    refine ⟨?_, ?_, fun a ha => skb.toSkb.vlanPull_body ha⟩
    · change skb.data + 4 + 12 = _
      ring
    · change skb.len - 4 - 12 = _
      omega

/-- The length of a frame that gets its tag back. -/
theorem len_retag (hlen : 14 ≤ skb.len) {frame : SkbBuf} (h : frame.len = skb.untagged.len) :
    (frame.retag skb.vlanTag).len = skb.len := by
  cases htag : skb.vlanTag with
  | none =>
    rw [skb.untagged_of_none htag] at h
    exact h
  | some hdr =>
    rw [(skb.untagged_of_some htag).2] at h
    change frame.len + 4 = skb.len
    change frame.len = skb.len - 4 at h
    omega

/-- A frame that gets its tag back. -/
theorem retag_spec {vlan : Option (List UInt8)} {skb : SkbBuf}
    (hnone : vlan = none → skb.protocol ≠ ethP8021q)
    (hsome : ∀ hdr, vlan = some hdr → hdr.length = 2) :
    (skb.retag vlan).vlanTag = vlan ∧ (skb.retag vlan).bodyAt = skb.data + 12 ∧
      (skb.retag vlan).bodyLen = skb.len - 12 ∧ (skb.retag vlan).src = skb.src ∧
      ∀ a, skb.data + 12 ≤ a → (skb.retag vlan).mem a = skb.mem a := by
  cases vlan with
  | none =>
    have hp := hnone rfl
    refine ⟨skb.vlanTag_eq_none.mpr hp, if_neg hp, if_neg hp, rfl, fun _ _ => rfl⟩
  | some hdr =>
    have hlen := hsome hdr rfl
    have hp := skb.toSkb.protocol_vlanPush hdr
    refine ⟨?_, (if_pos hp).trans ?_, (if_pos hp).trans ?_, skb.toSkb.src_vlanPush hdr,
      fun a ha => skb.toSkb.vlanPush_body hlen ha⟩
    · exact (if_pos hp).trans (congrArg some (skb.toSkb.read_vlanPush hlen))
    · change skb.data - 4 + 16 = _
      ring
    · change skb.len + 4 - 16 = _
      omega

end SkbBuf

/-! ## Refused frames -/

theorem le_findTagLoop {m : Mem} {type : ℕ} : ∀ {fuel : ℕ} {cur len p : ℤ},
    findTagLoop m type fuel cur len = some p → cur ≤ p
  | 0, _, _, _, h => by cases h
  | fuel + 1, cur, len, p, h => by
    rw [findTagLoop] at h
    split at h
    · split at h
      · cases h
        exact le_rfl
      · have hle := le_findTagLoop h
        omega
    · cases h

namespace SkbBuf

/-- The relay tag of a frame that has one is too long or does not end inside of the frame, or there
is no room for the new one. -/
def RelayRefused (skb : SkbBuf) (order : ByteOrder) : Prop :=
  match skb.findPppoeTag pttRelaySid with
  | none => skb.tailroom < order.addedLen 0
  | some old =>
    let oldTagLen := skb.mem.be16 (old + 2)
    28 < oldTagLen ∨ skb.data + skb.len < old + (4 + oldTagLen) ∨ skb.len < 4 + oldTagLen ∨
      skb.tailroom + (4 + oldTagLen) < order.addedLen oldTagLen

theorem ne_ip_of_ppp {skb : SkbBuf} (h : skb.protocol = ethPPppDisc ∨ skb.protocol = ethPPppSes) :
    skb.protocol ≠ ethPIp := by
  rcases h with h | h <;> rw [h] <;> decide

/-- The two frames have the same bytes up to the length field of PPPoE. -/
def SameHead (skb skb' : SkbBuf) : Prop := skb'.data = skb.data ∧ ∀ a < skb.data + 18, skb'.mem a = skb.mem a

theorem SameHead.trans {skb skb' skb'' : SkbBuf} (h : SameHead skb skb')
    (h' : SameHead skb' skb'') :
    SameHead skb skb'' :=
  ⟨h'.1.trans h.1, fun a ha => (h'.2 a (by rw [h.1]; exact ha)).trans (h.2 a ha)⟩

theorem sameHead_setPppoeLength (skb : SkbBuf) (n : ℤ) : SameHead skb (skb.setPppoeLength n) :=
  ⟨rfl, fun a ha => Mem.write_of_disjoint _ (Or.inl (by omega))⟩

theorem sameHead_write (skb : SkbBuf) {p : ℤ} (hp : skb.data + 18 ≤ p) (bs : List UInt8)
    (len tailroom : ℕ) :
    SameHead skb { skb with mem := skb.mem.write p bs, len := len, tailroom := tailroom } :=
  ⟨rfl, fun a ha => Mem.write_of_disjoint _ (Or.inl (by omega))⟩

/-- The relay tag of the frame is refused, or it is taken out. -/
theorem takeRelayTag_cases (skb : SkbBuf) :
    (skb.takeRelayTag = none ∧ ∀ order, skb.RelayRefused order) ∨
    ∃ old merged, skb.takeRelayTag = some (old, merged) ∧ old.length ≤ 28 ∧ SameHead skb merged ∧
      ∀ order, skb.RelayRefused order ↔ merged.tailroom < order.addedLen old.length := by
  unfold takeRelayTag RelayRefused
  cases hfind : skb.findPppoeTag pttRelaySid with
  | none => exact Or.inr ⟨[], skb, rfl, Nat.zero_le _, ⟨rfl, fun _ _ => rfl⟩, fun _ => Iff.rfl⟩
  | some old =>
    have hge : skb.pppoeTag ≤ old := le_findTagLoop hfind
    have htag := skb.pppoeTag_eq
    dsimp only
    have hlong : skb.mem.be16 (old + 2) + tagHdrLen + magicCodeLen + rtlRelayTagLen > tagBufSize ↔
        28 < skb.mem.be16 (old + 2) := by
      unfold tagHdrLen magicCodeLen rtlRelayTagLen tagBufSize
      omega
    rw [if_congr hlong rfl rfl]
    by_cases hl : 28 < skb.mem.be16 (old + 2)
    · rw [if_pos hl]
      exact Or.inl ⟨rfl, fun _ => Or.inl hl⟩
    rw [if_neg hl]
    unfold pullAndMerge
    have hend : (tagHdrLen : ℕ) = 4 := rfl
    rw [hend]
    by_cases hout : skb.data + skb.len < old + (4 + skb.mem.be16 (old + 2) : ℕ) ∨
        skb.len < 4 + skb.mem.be16 (old + 2)
    · rw [if_pos hout]
      refine Or.inl ⟨rfl, fun _ => ?_⟩
      push_cast at hout
      rcases hout with h | h
      · exact Or.inr (Or.inl h)
      · exact Or.inr (Or.inr (Or.inl h))
    · rw [if_neg hout]
      refine Or.inr ⟨_, _, rfl, ?_, ?_, fun order => ?_⟩
      · rw [Mem.length_read]
        omega
      · exact (skb.sameHead_write (by omega) _ _ _).trans (sameHead_setPppoeLength _ _)
      · rw [Mem.length_read]
        change _ ↔ skb.tailroom + (4 + skb.mem.be16 (old + 2)) < _
        omega

theorem addPppoeTag_cases (skb : SkbBuf) (order : ByteOrder) (tag : Mem) :
    (skb.tailroom < order.load16 tag 2 + tagHdrLen ∧ skb.addPppoeTag order tag = none) ∨
    (¬skb.tailroom < order.load16 tag 2 + tagHdrLen ∧
    ∃ sent, skb.addPppoeTag order tag = some sent ∧
      SameHead skb sent) := by
  have htag := skb.pppoeTag_eq
  unfold addPppoeTag
  dsimp only
  split
  · rename_i h
    exact Or.inl ⟨h, rfl⟩
  · rename_i h
    refine Or.inr ⟨h, _, rfl, ?_⟩
    refine ((skb.sameHead_write ?_ _ _ _).trans (sameHead_setPppoeLength _ _)).trans
      (sameHead_write _ ?_ _ _ _)
    · omega
    · change skb.data + 18 ≤ skb.data + 14 + 6
      omega

/-- Which frames get no relay tag. -/
theorem insertRelayTag_cases (skb : SkbBuf) (order : ByteOrder) (stack : Mem) :
    SameHead skb (skb.insertRelayTag order stack).2 ∧
      ((skb.RelayRefused order ∧ (skb.insertRelayTag order stack).1 = -1) ∨
        (¬skb.RelayRefused order ∧ (skb.insertRelayTag order stack).1 = 0)) := by
  unfold insertRelayTag
  rcases skb.takeRelayTag_cases with ⟨htake, href⟩ | ⟨old, merged, htake, hold, hhead, href⟩
  · rw [htake]
    exact ⟨⟨rfl, fun _ _ => rfl⟩, Or.inl ⟨href order, rfl⟩⟩
  · rw [htake]
    dsimp only
    have hload := load16_relayTagBuf order stack merged.src hold
    rcases merged.addPppoeTag_cases order (relayTagBuf stack merged.src old) with
      ⟨hno, hadd⟩ | ⟨hroom, sent, hadd, hsent⟩
    · rw [hadd]
      rw [hload] at hno
      exact ⟨hhead, Or.inl ⟨(href order).mpr hno, rfl⟩⟩
    · rw [hadd]
      rw [hload] at hroom
      exact ⟨hhead.trans hsent, Or.inr ⟨fun hr => hroom ((href order).mp hr), rfl⟩⟩

end SkbBuf

namespace RelayBridge

/-- `nat25_db_handle` returns -1 for a frame that is sent : the protocol is not supported, or the
frame is malformed. -/
def Refused (s : RelayBridge) (w : RelayEnv) (skb : SkbBuf) : Prop :=
  if skb.protocol = ethPIp then skb.malformed = true
  else if skb.protocol = ethPArp then skb.mem.be16 (skb.data + 14 + 2) ≠ ethPIp
  else if skb.protocol = ethPPppDisc ∨ skb.protocol = ethPPppSes then
    skb.pppoeSid = 0 ∧
      (¬(skb.pppoeCode = padiCode ∨ skb.pppoeCode = padrCode) ∨ (s.addPPPoETag = true ∧ skb.RelayRefused w.order))
  else if skb.protocol = 0x888e ∨ skb.protocol = 0xe2ae ∨ skb.protocol = 0xe2af then False
  else if skb.protocol = ethPIpv6 then (skb.len : ℤ) - 14 ≤ 40
  else True

/-- What `nat25_db_handle` makes of a frame that is sent. -/
structure Inserted (s : RelayBridge) (w : RelayEnv) (skb : SkbBuf) (r : ℤ × SkbBuf × RelayBridge) : Prop where
  ret : (s.Refused w skb ∧ r.1 = -1) ∨ (¬s.Refused w skb ∧ (r.1 = 0 ∨ r.1 = -2))
  data : r.2.1.data = skb.data
  head : ∀ a < skb.data + 14, r.2.1.mem a = skb.mem a
  body : ¬s.AddsRelay skb → r.2.1.len = skb.len ∧
    ∀ a, ¬skb.Rewritten s.dhcpBcstDisable a → r.2.1.mem a = skb.mem a
  relayed : s.AddsRelay skb → r.2.1 = (skb.insertRelayTag w.order w.stack).2
  ip : skb.protocol = ethPIp → r.2.1 = skb
  macAddr : r.2.2.macAddr = s.macAddr
  dhcp : r.2.2.dhcpBcstDisable = s.dhcpBcstDisable

variable {s : RelayBridge} {w : RelayEnv} {skb : SkbBuf}

theorem inserted_same {ret : ℤ} {t : RelayBridge}
    (hret : (s.Refused w skb ∧ ret = -1) ∨ (¬s.Refused w skb ∧ (ret = 0 ∨ ret = -2)))
    (hadd : ¬s.AddsRelay skb)
    (hmac : t.macAddr = s.macAddr) (hdhcp : t.dhcpBcstDisable = s.dhcpBcstDisable) :
    s.Inserted w skb (ret, skb, t) :=
  ⟨hret, rfl, fun _ _ => rfl, fun _ => ⟨rfl, fun _ _ => rfl⟩, fun h => absurd h hadd, fun _ => rfl,
    hmac, hdhcp⟩

/-- The frames of PPPoE. -/
theorem inserted_pppoe (hp : skb.protocol = ethPPppDisc ∨ skb.protocol = ethPPppSes)
    {r : ℤ × SkbBuf × RelayBridge}
    (h : s.handlePppoe w skb .insert = some r) : s.Inserted w skb r := by
  have hnip := SkbBuf.ne_ip_of_ppp hp
  have hnarp : skb.protocol ≠ ethPArp := by
    rcases hp with hp | hp <;> rw [hp] <;> decide
  have href : s.Refused w skb ↔ skb.pppoeSid = 0 ∧
      (¬(skb.pppoeCode = padiCode ∨ skb.pppoeCode = padrCode) ∨
        (s.addPPPoETag = true ∧ skb.RelayRefused w.order)) := by
    unfold Refused
    rw [if_neg hnip, if_neg hnarp, if_pos hp]
  unfold handlePppoe at h
  by_cases hsid : skb.pppoeSid = 0
  · rw [if_pos ⟨rfl, hsid⟩] at h
    cases h
    unfold insertDiscovery
    by_cases hcode : skb.pppoeCode = padiCode ∨ skb.pppoeCode = padrCode
    · rw [if_pos hcode]
      by_cases hadd : s.addPPPoETag = true
      · rw [if_pos hadd]
        obtain ⟨⟨hdata, hhead⟩, hcases⟩ := skb.insertRelayTag_cases w.order w.stack
        refine ⟨?_, hdata, fun a ha => hhead a (by omega), fun hno => absurd ⟨hp, hsid, hcode,
          hadd⟩ hno,
          fun _ => rfl, fun hip => absurd hip hnip, rfl, rfl⟩
        rw [href]
        rcases hcases with ⟨hr, hret⟩ | ⟨hr, hret⟩
        · exact Or.inl ⟨⟨hsid, Or.inr ⟨hadd, hr⟩⟩, hret⟩
        · refine Or.inr ⟨?_, Or.inl hret⟩
          rintro ⟨-, hc | ⟨-, hr'⟩⟩
          · exact hc hcode
          · exact hr hr'
      · have hnref : ¬s.Refused w skb := by
          rw [href]
          rintro ⟨-, hc | ⟨ha, -⟩⟩
          · exact hc hcode
          · exact hadd ha
        rw [if_neg hadd]
        split
        · exact inserted_same (Or.inr ⟨hnref, Or.inr rfl⟩) (fun ha => hadd ha.2.2.2) rfl rfl
        · refine inserted_same (Or.inr ⟨hnref, Or.inl rfl⟩) (fun ha => hadd ha.2.2.2) ?_ ?_
          · dsimp only
            split <;> rfl
          · dsimp only
            split <;> rfl
    · rw [if_neg hcode]
      exact inserted_same (Or.inl ⟨href.mpr ⟨hsid, Or.inl hcode⟩, rfl⟩)
        (fun ha => hcode ha.2.2.1) rfl rfl
  · rw [if_neg fun hc => hsid hc.2, if_neg fun hc => nomatch hc.1] at h
    obtain ⟨⟨ret, frame, b⟩, hb, rfl⟩ := Option.map_eq_some_iff.mp h
    unfold Bridge.handlePppoe at hb
    dsimp only at hb
    have hsid' : ¬skb.mem.be16 (skb.data + 14 + 2) = 0 := hsid
    rw [if_neg hsid'] at hb
    obtain ⟨b', hins, heq⟩ := Option.map_eq_some_iff.mp hb
    obtain ⟨db, -, rfl⟩ := Option.map_eq_some_iff.mp hins
    obtain ⟨rfl, rfl, rfl⟩ : ret = 0 ∧ frame = skb.toSkb ∧
      b = { s.toBridge with toNat25 := db } := by
      cases heq
      exact ⟨rfl, rfl, rfl⟩
    refine inserted_same (Or.inr ⟨fun hr => hsid (href.mp hr).1, Or.inl rfl⟩)
      (fun ha => hsid ha.2.1) ?_ ?_
    · dsimp only
      split <;> rfl
    · dsimp only
      split <;> rfl

/-- A record is written, and nothing else. -/
theorem of_insertDb {b b' : Bridge} {env : BridgeEnv} {frame : Skb} {key : NetAddr}
    (h : b.insertDb env frame key = some b') : ∃ db, b' = { b with toNat25 := db } := by
  obtain ⟨db, -, rfl⟩ := Option.map_eq_some_iff.mp h
  exact ⟨db, rfl⟩

/-- What `handleIp` makes of a frame. -/
theorem handleIp_insert {b b' : Bridge} {env : BridgeEnv} {frame frame' : Skb} {ret : ℤ}
    (h : b.handleIp env frame .insert = some (ret, frame', b')) :
    frame' = frame ∧ (∃ db, b' = { b with toNat25 := db }) ∧
      ((frame.malformed = true ∧ ret = -1) ∨ (¬frame.malformed = true ∧ ret = 0)) := by
  unfold Bridge.handleIp at h
  dsimp only at h
  split_ifs at h with h1 h2
  · cases h
    exact ⟨rfl, ⟨_, rfl⟩, Or.inl ⟨h1, rfl⟩⟩
  · cases h
    exact ⟨rfl, ⟨_, rfl⟩, Or.inr ⟨h1, rfl⟩⟩
  · obtain ⟨b'', hins, heq⟩ := Option.map_eq_some_iff.mp h
    cases heq
    exact ⟨rfl, of_insertDb hins, Or.inr ⟨h1, rfl⟩⟩

/-- What `handleArp` makes of a frame. -/
theorem handleArp_insert {b b' : Bridge} {env : BridgeEnv} {frame frame' : Skb} {ret : ℤ}
    (h : b.handleArp env frame .insert = some (ret, frame', b')) :
    (∃ db, b' = { b with toNat25 := db }) ∧
      ((frame.mem.be16 (frame.data + 14 + 2) ≠ ethPIp ∧ ret = -1 ∧ frame' = frame) ∨
        (¬frame.mem.be16 (frame.data + 14 + 2) ≠ ethPIp ∧ ret = 0 ∧
        frame' = frame.write (14 + 8) b.macAddr.toList)) := by
  unfold Bridge.handleArp at h
  dsimp only at h
  split_ifs at h with h1
  · cases h
    exact ⟨⟨_, rfl⟩, Or.inl ⟨h1, rfl, rfl⟩⟩
  · obtain ⟨b'', hins, heq⟩ := Option.map_eq_some_iff.mp h
    cases heq
    exact ⟨of_insertDb hins, Or.inr ⟨h1, rfl, rfl⟩⟩

/-- What `handleIpv6` makes of a frame. -/
theorem handleIpv6_insert {b b' : Bridge} {env : BridgeEnv} {frame frame' : Skb} {ret : ℤ}
    (h : b.handleIpv6 env frame .insert = some (ret, frame', b')) :
    frame' = frame ∧ (∃ db, b' = { b with toNat25 := db }) ∧
      (((frame.len : ℤ) - 14 ≤ 40 ∧ ret = -1) ∨ (¬(frame.len : ℤ) - 14 ≤ 40 ∧ ret = 0)) := by
  unfold Bridge.handleIpv6 at h
  dsimp only at h
  split_ifs at h with h1 h2
  · cases h
    exact ⟨rfl, ⟨_, rfl⟩, Or.inl ⟨h1, rfl⟩⟩
  · cases h
    exact ⟨rfl, ⟨_, rfl⟩, Or.inr ⟨h1, rfl⟩⟩
  · obtain ⟨b'', hins, heq⟩ := Option.map_eq_some_iff.mp h
    cases heq
    exact ⟨rfl, of_insertDb hins, Or.inr ⟨h1, rfl⟩⟩

/-- `scan_tlv` finds nothing before its start, and the neighbour-discovery part of `nat25_db_handle`
writes the address it finds and the checksum. -/
theorem ndRewrite_cases {frame frame' : Skb} {mac : MacAddr}
    (h : frame.ndRewrite mac = some frame') :
    frame'.data = frame.data ∧ frame'.len = frame.len ∧
      (∀ a < frame.data + 14, frame'.mem a = frame.mem a) ∧
      ∀ a, ¬(frame.mem (frame.data + 14 + 6) = 58 ∧ 14 + 40 + 4 < frame.len ∧
        ∃ q, ndAddrAt frame.mem frame.icmp6h (frame.len - 14 - 40) = some (some q) ∧
          (a = frame.icmp6h + 2 ∨ a = frame.icmp6h + 3 ∨ (q ≤ a ∧ a < q + 6))) →
        frame'.mem a = frame.mem a := by
  unfold Skb.ndRewrite at h
  split_ifs at h with hicmp6
  · obtain ⟨⟨replaced, mem⟩, hupd, rfl⟩ := Option.map_eq_some_iff.mp h
    unfold updateNdLinkLayerAddr at hupd
    obtain ⟨found, hfound, hmem⟩ := Option.map_eq_some_iff.mp hupd
    cases found with
    | none =>
      cases hmem
      exact ⟨rfl, rfl, fun _ _ => rfl, fun _ _ => rfl⟩
    | some q =>
      cases hmem
      have hq := le_ndAddrAt hfound
      have hicmp : frame.icmp6h = frame.data + 14 + 40 := rfl
      have hout : ∀ (a : ℤ) (bs : List UInt8), bs.length = 2 →
        ¬(a = frame.icmp6h + 2 ∨ a = frame.icmp6h + 3) →
          ¬(q ≤ a ∧ a < q + 6) →
          (((frame.mem.write q mac.toList).write (frame.icmp6h + 2) [0, 0]).write
            (frame.icmp6h + 2) bs) a =
            frame.mem a := by
        intro a bs hbs h1 h2
        rw [Mem.write_of_disjoint _ (by rw [hbs]; push_cast; omega),
          Mem.write_of_disjoint _ (by simp only [List.length_cons, List.length_nil]; omega),
          Mem.write_of_disjoint _ (by rw [Vector.length_toList]; push_cast; omega)]
      refine ⟨rfl, rfl, fun a ha => hout a _ rfl (by omega) (by omega),
        fun a hno => hout a _ rfl ?_ ?_⟩
      · rintro (ha | ha)
        · exact hno ⟨hicmp6.1, hicmp6.2, q, hfound, Or.inl ha⟩
        · exact hno ⟨hicmp6.1, hicmp6.2, q, hfound, Or.inr (Or.inl ha)⟩
      · exact fun ha => hno ⟨hicmp6.1, hicmp6.2, q, hfound, Or.inr (Or.inr ha)⟩
  · cases h
    exact ⟨rfl, rfl, fun _ _ => rfl, fun _ _ => rfl⟩

/-- What `nat25_db_handle` makes of any frame. -/
theorem inserted {r : ℤ × SkbBuf × RelayBridge} (h : s.nat25DbHandle w skb .insert = some r) :
    s.Inserted w skb r := by
  unfold nat25DbHandle at h
  by_cases hppp : skb.protocol = ethPPppDisc ∨ skb.protocol = ethPPppSes
  · rw [if_pos hppp] at h
    exact inserted_pppoe hppp h
  rw [if_neg hppp] at h
  have hadd : ¬s.AddsRelay skb := fun ha => hppp ha.1
  obtain ⟨⟨ret, frame, b⟩, hb, hr⟩ := Option.bind_eq_some_iff.mp h
  dsimp only at hr
  unfold Bridge.nat25DbHandle at hb
  by_cases hip : skb.protocol = ethPIp
  · rw [if_pos hip] at hb
    obtain ⟨rfl, ⟨db, rfl⟩, hret⟩ := handleIp_insert hb
    rw [if_neg (fun hc => absurd (hip.symm.trans hc.1) (by decide))] at hr
    cases hr
    refine inserted_same ?_ hadd rfl rfl
    unfold Refused
    rw [if_pos hip]
    exact hret.imp_right fun hn => ⟨hn.1, Or.inl hn.2⟩
  rw [if_neg hip] at hb
  by_cases harp : skb.protocol = ethPArp
  · rw [if_pos harp] at hb
    obtain ⟨⟨db, rfl⟩, hcases⟩ := handleArp_insert hb
    rw [if_neg (fun hc => absurd (harp.symm.trans hc.1) (by decide))] at hr
    cases hr
    have href : s.Refused w skb ↔ skb.mem.be16 (skb.data + 14 + 2) ≠ ethPIp := by
      unfold Refused
      rw [if_neg hip, if_pos harp]
    rcases hcases with ⟨hne, rfl, rfl⟩ | ⟨heq, rfl, rfl⟩
    · exact inserted_same (Or.inl ⟨href.mpr hne, rfl⟩) hadd rfl rfl
    · have hout : ∀ a, ¬(skb.data + 22 ≤ a ∧ a < skb.data + 28) →
          (skb.toSkb.write (14 + 8) s.toBridge.macAddr.toList).mem a = skb.mem a := fun a ha => by
        refine Mem.write_of_disjoint _ ?_
        rw [Vector.length_toList]
        push_cast
        omega
      exact ⟨Or.inr ⟨fun hr => heq (href.mp hr), Or.inl rfl⟩, rfl, fun a ha => hout a (by omega),
        fun _ => ⟨rfl, fun a ha => hout a fun hin =>
          ha (Or.inl ⟨harp, not_not.mp heq, hin.1, hin.2⟩)⟩,
        fun ha => absurd ha hadd, fun h => absurd h hip, rfl, rfl⟩
  rw [if_neg harp] at hb
  by_cases hlen : skb.protocol = ethPIpx ∨ skb.protocol ≤ ethFrameLen
  · rw [if_pos hlen] at hb
    cases hb
    have hnot : ∀ n, n ≠ ethPIpx → ethFrameLen < n → skb.protocol ≠ n := by
      rintro n h1 h2 rfl
      rcases hlen with h | h
      · exact h1 h
      · omega
    rw [if_neg (fun hc => hnot ethPIpv6 (by decide) (by decide) hc.1)] at hr
    cases hr
    refine inserted_same (Or.inl ⟨?_, rfl⟩) hadd rfl rfl
    unfold Refused
    have heap : ¬(skb.protocol = 0x888e ∨ skb.protocol = 0xe2ae ∨ skb.protocol = 0xe2af) := by
      rintro (h | h | h)
      · exact hnot _ (by decide) (by decide) h
      · exact hnot _ (by decide) (by decide) h
      · exact hnot _ (by decide) (by decide) h
    rw [if_neg hip, if_neg harp, if_neg hppp, if_neg heap,
      if_neg (hnot ethPIpv6 (by decide) (by decide))]
    trivial
  rw [if_neg hlen, if_neg hppp] at hb
  have hrefused : s.Refused w skb ↔
      if skb.protocol = 0x888e ∨ skb.protocol = 0xe2ae ∨ skb.protocol = 0xe2af then False
      else if skb.protocol = ethPIpv6 then (skb.len : ℤ) - 14 ≤ 40
      else True := by
    unfold Refused
    rw [if_neg hip, if_neg harp, if_neg hppp]
  by_cases heap : skb.protocol = 0x888e ∨ skb.protocol = 0xe2ae ∨ skb.protocol = 0xe2af
  · rw [if_pos heap] at hb hrefused
    cases hb
    rw [if_neg fun hc => by rw [hc.1] at heap; revert heap; decide] at hr
    cases hr
    exact inserted_same (Or.inr ⟨hrefused.mp, Or.inl rfl⟩) hadd rfl rfl
  rw [if_neg heap] at hb hrefused
  by_cases hv6 : skb.protocol = ethPIpv6
  · rw [if_pos hv6] at hb hrefused
    obtain ⟨rfl, ⟨db, rfl⟩, hret⟩ := handleIpv6_insert hb
    rw [← hrefused] at hret
    have hret' := hret.imp_right fun hn => (⟨hn.1, Or.inl hn.2⟩ : ¬s.Refused w skb ∧
      (ret = 0 ∨ ret = -2))
    split at hr
    · rename_i hsaddr
      obtain ⟨frame', hnd, rfl⟩ := Option.map_eq_some_iff.mp hr
      obtain ⟨hdata, hlen', hhead, hbody⟩ := ndRewrite_cases hnd
      exact ⟨hret', hdata, hhead,
        fun _ => ⟨hlen', fun a ha => hbody a fun hq =>
          ha (Or.inr (Or.inl ⟨hv6, hsaddr.2.2.2, hq⟩))⟩,
        fun ha => absurd ha hadd, fun h => absurd h hip, rfl, rfl⟩
    · cases hr
      exact inserted_same hret' hadd rfl rfl
  · rw [if_neg hv6] at hb hrefused
    cases hb
    rw [if_neg fun hc => hv6 hc.1] at hr
    cases hr
    exact inserted_same (Or.inl ⟨hrefused.mpr trivial, rfl⟩) hadd rfl rfl

/-- `nat25_db_handle` comes back from a frame that it refuses. -/
theorem exists_of_refused (h : s.Refused w skb) : ∃ r, s.nat25DbHandle w skb .insert = some r := by
  unfold Refused at h
  unfold nat25DbHandle
  by_cases hip : skb.protocol = ethPIp
  · rw [if_pos hip] at h
    rw [if_neg (by rw [hip]; decide)]
    unfold Bridge.nat25DbHandle Bridge.handleIp
    dsimp only
    rw [if_pos hip, if_pos h, Option.bind_some]
    dsimp only
    rw [if_neg (fun hc => absurd (hip.symm.trans hc.1) (by decide))]
    exact ⟨_, rfl⟩
  rw [if_neg hip] at h
  by_cases harp : skb.protocol = ethPArp
  · rw [if_pos harp] at h
    rw [if_neg (by rw [harp]; decide)]
    unfold Bridge.nat25DbHandle Bridge.handleArp
    dsimp only
    rw [if_neg hip, if_pos harp, if_pos h, Option.bind_some]
    dsimp only
    rw [if_neg (fun hc => absurd (harp.symm.trans hc.1) (by decide))]
    exact ⟨_, rfl⟩
  rw [if_neg harp] at h
  by_cases hppp : skb.protocol = ethPPppDisc ∨ skb.protocol = ethPPppSes
  · rw [if_pos hppp] at h
    unfold handlePppoe
    rw [if_pos hppp, if_pos ⟨rfl, h.1⟩]
    exact ⟨_, rfl⟩
  rw [if_neg hppp] at h ⊢
  unfold Bridge.nat25DbHandle
  rw [if_neg hip, if_neg harp]
  by_cases hlen : skb.protocol = ethPIpx ∨ skb.protocol ≤ ethFrameLen
  · rw [if_pos hlen, Option.bind_some]
    dsimp only
    rw [if_neg]
    · exact ⟨_, rfl⟩
    · rintro ⟨hc, -⟩
      rw [hc] at hlen
      revert hlen
      decide
  rw [if_neg hlen, if_neg hppp]
  by_cases heap : skb.protocol = 0x888e ∨ skb.protocol = 0xe2ae ∨ skb.protocol = 0xe2af
  · rw [if_pos heap] at h
    exact h.elim
  rw [if_neg heap] at h ⊢
  by_cases hv6 : skb.protocol = ethPIpv6
  · rw [if_pos hv6] at h
    unfold Bridge.handleIpv6
    dsimp only
    rw [if_pos hv6, if_pos h, Option.bind_some]
    dsimp only
    rw [if_neg fun hc => by omega]
    exact ⟨_, rfl⟩
  · rw [if_neg hv6, Option.bind_some]
    dsimp only
    rw [if_neg fun hc => hv6 hc.1]
    exact ⟨_, rfl⟩

/-- `NAT25_CHECK` says that the frame is going to be changed. -/
def Checked (skb : SkbBuf) : Prop :=
  if skb.protocol = ethPIp then False
  else if skb.protocol = ethPArp then skb.mem.be16 (skb.data + 14 + 2) = ethPIp
  else if skb.protocol = ethPPppDisc ∨ skb.protocol = ethPPppSes then skb.pppoeSid = 0
  else skb.protocol = ethPIpv6 ∧ ¬(skb.len : ℤ) - 14 ≤ 40 ∧ isMcast skb.dst = true

instance : DecidablePred Checked := fun skb => by
  unfold Checked
  infer_instance

theorem check_spec (s : RelayBridge) (w : RelayEnv) (skb : SkbBuf) :
    ∃ ret, s.nat25DbHandle w skb .check = some (ret, skb, s) ∧ (ret = 0 ↔ Checked skb) := by
  unfold nat25DbHandle Checked
  by_cases hppp : skb.protocol = ethPPppDisc ∨ skb.protocol = ethPPppSes
  · have hnip := SkbBuf.ne_ip_of_ppp hppp
    have hnarp : skb.protocol ≠ ethPArp := by
      rcases hppp with hp | hp <;> rw [hp] <;> decide
    rw [if_neg hnip, if_neg hnarp, if_pos hppp, if_pos hppp]
    unfold handlePppoe
    rw [if_neg (fun hc => nomatch hc.1), if_neg (fun hc => nomatch hc.1)]
    have hcheck : s.toBridge.handlePppoe w.toBridgeEnv skb.toSkb .check =
        some (if skb.pppoeSid = 0 then 0 else 1, skb.toSkb, s.toBridge) := rfl
    rw [hcheck, Option.map_some]
    refine ⟨if skb.pppoeSid = 0 then 0 else 1, rfl, ?_⟩
    split
    · rename_i h0
      exact iff_of_true rfl h0
    · rename_i h0
      exact iff_of_false (by decide) h0
  rw [if_neg hppp]
  have hback : ∀ ret : ℤ, (some (ret, skb.toSkb, s.toBridge)).bind (fun r : ℤ × Skb × Bridge =>
      let s := { s with toBridge := r.2.2 }
      if skb.protocol = ethPIpv6 ∧ Nat25Method.check = .insert ∧ 14 + 40 < skb.len ∧
          skb.mem.read (skb.data + 14 + 8) 16 ≠ List.replicate 16 0 then
        (r.2.1.ndRewrite s.macAddr).map fun frame => (r.1, { skb with toSkb := frame }, s)
      else some (r.1, { skb with toSkb := r.2.1 }, s)) = some (ret, skb, s) := by
    intro ret
    rw [Option.bind_some]
    dsimp only
    rw [if_neg fun hc => nomatch hc.2.1]
  unfold Bridge.nat25DbHandle
  by_cases hip : skb.protocol = ethPIp
  · rw [if_pos hip, if_pos hip]
    exact ⟨_, hback (-1), by decide⟩
  rw [if_neg hip, if_neg hip]
  by_cases harp : skb.protocol = ethPArp
  · rw [if_pos harp, if_pos harp]
    unfold Bridge.handleArp
    by_cases h : skb.mem.be16 (skb.data + 14 + 2) ≠ ethPIp
    · rw [if_pos h]
      exact ⟨_, hback (-1), iff_of_false (by decide) h⟩
    · rw [if_neg h]
      exact ⟨_, hback 0, iff_of_true rfl (not_not.mp h)⟩
  rw [if_neg harp, if_neg harp, if_neg hppp, if_neg hppp]
  by_cases hlen : skb.protocol = ethPIpx ∨ skb.protocol ≤ ethFrameLen
  · rw [if_pos hlen]
    refine ⟨_, hback (-1), iff_of_false (by decide) ?_⟩
    rintro ⟨hc, -⟩
    rw [hc] at hlen
    revert hlen
    decide
  rw [if_neg hlen]
  by_cases heap : skb.protocol = 0x888e ∨ skb.protocol = 0xe2ae ∨ skb.protocol = 0xe2af
  · rw [if_pos heap]
    refine ⟨_, hback (-1), iff_of_false (by decide) ?_⟩
    rintro ⟨hc, -⟩
    rw [hc] at heap
    revert heap
    decide
  rw [if_neg heap]
  by_cases hv6 : skb.protocol = ethPIpv6
  · rw [if_pos hv6]
    unfold Bridge.handleIpv6
    by_cases hshort : (skb.len : ℤ) - 14 ≤ 40
    · rw [if_pos hshort]
      exact ⟨_, hback (-1), iff_of_false (by decide) fun hc => hc.2.1 hshort⟩
    · rw [if_neg hshort]
      refine ⟨_, hback _, ?_⟩
      split
      · rename_i hm
        exact iff_of_true rfl ⟨hv6, hshort, hm⟩
      · rename_i hm
        exact iff_of_false (by decide) fun hc => hm hc.2.2
  · rw [if_neg hv6]
    exact ⟨_, hback (-1), iff_of_false (by decide) fun hc => hv6 hc.1⟩

end RelayBridge

/-! ## Frames that go on -/

namespace Skb

theorem src_setSrc (skb : Skb) (mac : MacAddr) : (skb.setSrc mac).src = mac :=
  macAt_of_holds (Mem.read_write_self skb.mem (skb.data + 6) mac.toList)

theorem setSrc_outside (skb : Skb) (mac : MacAddr) {a : ℤ} (ha : skb.data + 12 ≤ a) :
    (skb.setSrc mac).mem a = skb.mem a := by
  refine Mem.write_of_disjoint _ (Or.inr ?_)
  rw [Vector.length_toList]
  push_cast
  omega

/-- What `dhcp_flag_bcast` leaves as it is. -/
theorem dhcpFlagBcast_outside (bcstDisable : Bool) (skb : Skb) :
    (skb.dhcpFlagBcast bcstDisable).data = skb.data ∧
    (skb.dhcpFlagBcast bcstDisable).len = skb.len ∧
      ∀ a, ¬(skb.GetsBcastFlag bcstDisable ∧
          (a = skb.udph + 18 ∨ a = skb.udph + 6 ∨ a = skb.udph + 7)) →
        (skb.dhcpFlagBcast bcstDisable).mem a = skb.mem a := by
  unfold dhcpFlagBcast
  split
  · rename_i hc
    refine ⟨rfl, rfl, fun a ha => ?_⟩
    have hno : ¬(a = skb.udph + 18 ∨ a = skb.udph + 6 ∨ a = skb.udph + 7) :=
      fun h => ha ⟨⟨by simpa using hc.1, hc.2⟩, h⟩
    dsimp only
    rw [Mem.write_of_disjoint
      _ (by simp only [le16Bytes, List.length_cons, List.length_nil]; omega)]
    by_cases hflag : a = skb.udph + 8 + 11
    · -- the low byte of the flags is written with the value that it has
      subst hflag
      have hpair := Mem.read_write_self skb.mem (skb.udph + 8 + 10)
        [skb.mem (skb.udph + 8 + 10) ||| 0x80, skb.mem (skb.udph + 8 + 11)]
      have hsecond := (List.cons_eq_cons.mp (List.cons_eq_cons.mp hpair).2).1
      rwa [show skb.udph + 8 + 10 + 1 = skb.udph + 8 + 11 by ring] at hsecond
    · exact Mem.write_of_disjoint _ (by simp only [List.length_cons, List.length_nil]; omega)
  · exact ⟨rfl, rfl, fun _ _ => rfl⟩

/-- The tests of `dhcp_flag_bcast` do not look at the addresses. -/
theorem getsBcastFlag_of_setSrc {bcstDisable : Bool} {skb : Skb} {mac : MacAddr}
    (h : (skb.setSrc mac).GetsBcastFlag bcstDisable) : skb.GetsBcastFlag bcstDisable := by
  obtain ⟨hdis, hprot, hproto, hclient, hserver, hmagic, hflags⟩ := h
  have hout : ∀ a, skb.data + 12 ≤ a → (skb.setSrc mac).mem a = skb.mem a :=
    fun a ha => skb.setSrc_outside mac ha
  have hdata : (skb.setSrc mac).data = skb.data := rfl
  have hge : skb.data + 14 ≤ skb.udph := by
    rw [udph]
    omega
  have hudph : (skb.setSrc mac).udph = skb.udph := by
    unfold udph
    rw [hdata, hout _ (by omega)]
  have hpair : ∀ a, skb.data + 12 ≤ a → (skb.setSrc mac).mem.be16 a = skb.mem.be16 a :=
    fun a ha => be16_congr (hout _ ha) (hout _ (by omega))
  rw [hudph, hpair _ (by omega)] at hclient hserver
  rw [hudph, Mem.read_congr fun i hi => hout _ (by omega)] at hmagic
  rw [dhcpFlags, hudph, hpair _ (by omega)] at hflags
  rw [hdata, hout _ (by omega)] at hproto
  exact ⟨hdis, (hpair _ (by omega)).symm.trans hprot, hproto, hclient, hserver, hmagic, hflags⟩

end Skb

namespace RelayBridge

variable {s : RelayBridge} {w : RelayEnv} {skb : SkbBuf} {r : ℤ × SkbBuf × RelayBridge}

theorem keepsFrame_congr {s' : RelayBridge} {out : SkbBuf} (hmac : s'.macAddr = s.macAddr)
    (hadd : s'.addPPPoETag = s.addPPPoETag) (hdhcp : s'.dhcpBcstDisable = s.dhcpBcstDisable)
    (h : s'.KeepsFrame w skb out) : s.KeepsFrame w skb out := by
  have hiff : s.AddsRelay skb.untagged ↔ s'.AddsRelay skb.untagged := by
    unfold AddsRelay
    rw [hadd]
  refine ⟨h.tag, h.src.trans hmac, fun hno => ?_, fun ha => h.relayed (hiff.mp ha)⟩
  have hbody := h.body (mt hiff.mpr hno)
  rwa [hdhcp] at hbody

theorem refused_congr {s' : RelayBridge} {f : SkbBuf} (hadd : s'.addPPPoETag = s.addPPPoETag) :
    s'.Refused w f ↔ s.Refused w f := by
  unfold Refused
  rw [hadd]

/-- A frame that is not refused goes on as it should. -/
theorem finishTx_spec (hlen : 14 ≤ skb.len) (h : s.Inserted w skb.untagged r) :
    ∃ out, r.2.2.finishTx skb.vlanTag r.2.1 = (0, out, r.2.2) ∧ s.KeepsFrame w skb out := by
  obtain ⟨ret, g, t⟩ := r
  obtain ⟨-, hdata, hhead, hbody, hrelayed, hip, hmac, hdhcp⟩ := h
  dsimp only at hdata hhead hbody hrelayed hip hmac hdhcp ⊢
  obtain ⟨hat, hbodyLen, hsame⟩ := skb.body_untagged
  -- the frame with its new addresses and flags
  let named : Skb := g.toSkb.setSrc t.macAddr
  let sent : SkbBuf := { g with toSkb := named.dhcpFlagBcast t.dhcpBcstDisable }
  obtain ⟨hsdata, hslen, hsout⟩ := named.dhcpFlagBcast_outside t.dhcpBcstDisable
  have hsdata' : sent.data = g.data := hsdata
  have hslen' : sent.len = g.len := hslen
  have hprot : named.protocol = skb.untagged.protocol := by
    change named.mem.be16 (g.data + 12) = skb.untagged.mem.be16 (skb.untagged.data + 12)
    rw [← hdata]
    refine be16_congr ?_ ?_
    · exact (g.toSkb.setSrc_outside _ le_rfl).trans (hhead _ (by omega))
    · exact (g.toSkb.setSrc_outside _ (by omega)).trans (hhead _ (by omega))
  have hudp : named.data + 14 ≤ named.udph := by
    rw [Skb.udph]
    omega
  have hndata : named.data = g.data := rfl
  have hsprot : sent.protocol = skb.untagged.protocol := by
    rw [← hprot]
    change sent.mem.be16 (sent.data + 12) = named.mem.be16 (named.data + 12)
    rw [hsdata', hndata]
    exact be16_congr (hsout _ (by omega)) (hsout _ (by omega))
  have hssrc : sent.src = t.macAddr := by
    refine Eq.trans ?_ (g.toSkb.src_setSrc t.macAddr)
    refine Eq.trans (congrArg (macAt _) (congrArg (· + 6) hsdata))
      (macAt_congr fun i hi => hsout _ ?_)
    rintro ⟨-, h⟩
    omega
  have hnone : skb.vlanTag = none → sent.protocol ≠ ethP8021q := by
    intro hno
    rw [hsprot, skb.untagged_of_none hno]
    exact skb.vlanTag_eq_none.mp hno
  obtain ⟨htag, houtat, houtlen, houtsrc, houtmem⟩ :=
    SkbBuf.retag_spec hnone fun hdr hh => skb.length_of_vlanTag hh
  refine ⟨sent.retag skb.vlanTag, ?_, htag, ?_, fun hno => ?_, fun ha => ?_⟩
  · change t.checkSource (sent.retag skb.vlanTag) = _
    unfold checkSource
    rw [if_neg (not_not_intro (houtsrc.trans hssrc))]
  · rw [houtsrc, hssrc, hmac]
  · obtain ⟨hglen, hgmem⟩ := hbody hno
    refine ⟨skb.len_retag hlen (hslen'.trans hglen), fun i hi hrew => ?_⟩
    rw [houtat, houtmem _ (by omega), hsdata', hdata, ← hsame _ (by omega), ← hat, ← hgmem _ hrew]
    refine (hsout _ ?_).trans (g.toSkb.setSrc_outside _ (by omega))
    rintro ⟨hflag, ha⟩
    have hg := hip (hprot.symm.trans hflag.2.1)
    have hudph : named.udph = skb.untagged.udph := by
      unfold Skb.udph
      rw [g.toSkb.setSrc_outside _ (by omega), hndata, hg]
    rw [hudph] at ha
    have hflag' := Skb.getsBcastFlag_of_setSrc hflag
    rw [hg, hdhcp] at hflag'
    exact hrew (Or.inr (Or.inr ⟨hflag', ha⟩))
  · have hg := hrelayed ha
    refine ⟨by rw [houtlen, hslen', hg], fun i hi => ?_⟩
    rw [houtat, houtmem _ (by omega), hsdata', hdata, ← hg]
    refine (hsout _ ?_).trans (g.toSkb.setSrc_outside _ (by omega))
    rintro ⟨hflag, -⟩
    have hp := hprot.symm.trans hflag.2.1
    rcases ha.1 with h | h <;> rw [h] at hp <;> revert hp <;> decide

/-- A frame of the host of the shortcut keeps everything but its source. -/
theorem keepsFrame_shortcut (h : s.TakesShortcut skb) :
    s.KeepsFrame w skb { skb with toSkb := skb.toSkb.setSrc s.macAddr } := by
  have hp : skb.protocol = ethPIp := h.2.2.2.1
  have hno : skb.protocol ≠ ethP8021q := by
    rw [hp]
    decide
  have hdata : (skb.toSkb.setSrc s.macAddr).data = skb.data := rfl
  have hprot : (skb.toSkb.setSrc s.macAddr).protocol = skb.protocol := by
    unfold Skb.protocol
    rw [hdata]
    exact be16_congr (skb.toSkb.setSrc_outside _ le_rfl) (skb.toSkb.setSrc_outside _ (by omega))
  have hno' : (skb.toSkb.setSrc s.macAddr).protocol ≠ ethP8021q := by rwa [hprot]
  have hnone := skb.vlanTag_eq_none.mpr hno
  refine ⟨?_, skb.toSkb.src_setSrc _, fun _ => ?_, fun ha => ?_⟩
  · rw [hnone]
    exact if_neg hno'
  · unfold SkbBuf.bodyLen SkbBuf.bodyAt
    rw [if_neg hno, if_neg hno, if_neg hno']
    refine ⟨rfl, fun i _ _ => skb.toSkb.setSrc_outside _ ?_⟩
    change skb.data + 12 ≤ skb.data + 12 + i
    omega
  · rw [skb.untagged_of_none hnone] at ha
    exact absurd hp (SkbBuf.ne_ip_of_ppp ha.1)

/-- The part about NAT2.5, for a frame whose tag is taken out. -/
theorem clientTxNat25_eq (hlen : 14 ≤ skb.len) (s : RelayBridge) :
    s.clientTxNat25 w skb.vlanTag skb.untagged =
      if Checked skb.untagged ∧ !w.copyOk then some (-1, skb.untagged.retag skb.vlanTag, s)
      else if !w.linearizeOk then some (-1, skb.untagged, s)
      else (s.nat25DbHandle w skb.untagged .insert).map fun (res, skb', s) =>
        if res < 0 then (if res = -2 then -1 else 0, skb', s) else s.finishTx skb.vlanTag skb' := by
  obtain ⟨ret, hret, hzero⟩ := check_spec s w skb.untagged
  unfold clientTxNat25
  rw [hret, Option.bind_some]
  dsimp only
  rw [skb.copyTagged_untagged hlen, ite_self, if_congr (and_congr_left' hzero) rfl rfl]

/-- Every packet that goes on is the frame as it should be. -/
def TxKeepsFrame (s : RelayBridge) (w : RelayEnv) (skb : SkbBuf) : Prop :=
  ∀ out t, s.rtwBrClientTx w skb = some (0, out, t) → s.KeepsFrame w skb out

/-- `nat25_db_handle` gets the frame and refuses it. -/
def Unrestored (s : RelayBridge) (w : RelayEnv) (skb : SkbBuf) : Prop :=
  ¬s.TakesShortcut skb ∧ (∃ db, (s.learnBrIp skb.untagged).doNat25 skb.untagged = some (true, db)) ∧
    (Checked skb.untagged → w.copyOk = true) ∧ w.linearizeOk = true ∧ s.Refused w skb.untagged

theorem learnBrIp_same (s : RelayBridge) (f : SkbBuf) (db : Nat25) :
    ({ s.learnBrIp f with toNat25 := db } : RelayBridge).macAddr = s.macAddr ∧
      ({ s.learnBrIp f with toNat25 := db } : RelayBridge).addPPPoETag = s.addPPPoETag ∧
      ({ s.learnBrIp f with toNat25 := db } : RelayBridge).dhcpBcstDisable = s.dhcpBcstDisable := by
  unfold learnBrIp
  split <;> exact ⟨rfl, rfl, rfl⟩

/-- Only a frame of IP does not get to `nat25_db_handle`. -/
theorem ip_of_doNat25 {f : SkbBuf} {db : Nat25} (h : s.doNat25 f = some (false, db)) :
    f.protocol = ethPIp := by
  unfold doNat25 at h
  split at h
  · assumption
  · cases h

/-- A frame that `nat25_db_handle` does not get. -/
theorem inserted_passed {f : SkbBuf} (hip : f.protocol = ethPIp) :
    ∃ ret, s.Inserted w f (ret, f, s) := by
  have hadd : ¬s.AddsRelay f := fun ha => SkbBuf.ne_ip_of_ppp ha.1 hip
  by_cases href : s.Refused w f
  · exact ⟨-1, inserted_same (Or.inl ⟨href, rfl⟩) hadd rfl rfl⟩
  · exact ⟨0, inserted_same (Or.inr ⟨href, Or.inl rfl⟩) hadd rfl rfl⟩

/-- The part about NAT2.5. A refused frame goes on as it came out of `nat25_db_handle`. -/
theorem clientTxNat25_spec (hlen : 14 ≤ skb.len) {out : SkbBuf} {t : RelayBridge}
    (h : s.clientTxNat25 w skb.vlanTag skb.untagged = some (0, out, t)) :
    (Checked skb.untagged → w.copyOk = true) ∧ w.linearizeOk = true ∧
      ((s.Refused w skb.untagged ∧ s.Inserted w skb.untagged (-1, out, t)) ∨
        (¬s.Refused w skb.untagged ∧ s.KeepsFrame w skb out)) := by
  rw [clientTxNat25_eq hlen] at h
  by_cases hcopy : Checked skb.untagged ∧ !w.copyOk
  · rw [if_pos hcopy] at h
    cases h
  rw [if_neg hcopy] at h
  by_cases hlin : !w.linearizeOk
  · rw [if_pos hlin] at h
    cases h
  rw [if_neg hlin] at h
  refine ⟨fun hc => ?_, by simpa using hlin, ?_⟩
  · by_contra hno
    exact hcopy ⟨hc, by simpa using hno⟩
  obtain ⟨⟨res, g, t'⟩, hr, hback⟩ := Option.map_eq_some_iff.mp h
  have hins := inserted hr
  dsimp only at hback
  rcases hins.ret with ⟨href, hres⟩ | ⟨href, hres⟩
  · obtain rfl : res = -1 := hres
    obtain ⟨rfl, rfl⟩ : g = out ∧ t' = t := by
      rw [if_pos (by decide)] at hback
      simpa using hback
    exact Or.inl ⟨href, hins⟩
  · refine Or.inr ⟨href, ?_⟩
    obtain ⟨out', hfin, hkeep⟩ := finishTx_spec hlen hins
    rcases hres with hres | hres
    · obtain rfl : res = 0 := hres
      rw [if_neg (by decide), hfin] at hback
      cases hback
      exact hkeep
    · obtain rfl : res = -2 := hres
      rw [if_pos (by decide), if_pos rfl] at hback
      cases hback

/-- A refused frame is as it should be if it has no tag and comes from the station. -/
theorem keepsFrame_iff_of_inserted (hlen : 14 ≤ skb.len) {out : SkbBuf} {t : RelayBridge} {ret : ℤ}
    (h : s.Inserted w skb.untagged (ret, out, t)) :
    s.KeepsFrame w skb out ↔ skb.vlanTag = none ∧ skb.src = s.macAddr := by
  obtain ⟨-, hdata, hhead, hbody, hrelayed, -, -, -⟩ := h
  dsimp only at hdata hhead hbody hrelayed
  have hsrc : out.src = skb.src := by
    rw [← skb.src_untagged]
    change macAt out.mem (out.data + 6) = macAt skb.untagged.mem (skb.untagged.data + 6)
    rw [hdata]
    exact macAt_congr fun i hi => hhead _ (by omega)
  have hprot : out.protocol = skb.untagged.protocol := by
    change out.mem.be16 (out.data + 12) = skb.untagged.mem.be16 (skb.untagged.data + 12)
    rw [hdata]
    exact be16_congr (hhead _ (by omega)) (hhead _ (by omega))
  constructor
  · intro hkeep
    refine ⟨?_, hsrc.symm.trans hkeep.src⟩
    by_contra hne
    obtain ⟨hdr, htag⟩ := Option.ne_none_iff_exists'.mp hne
    obtain ⟨-, heq⟩ := skb.untagged_of_some htag
    by_cases hinner : skb.untagged.protocol = ethP8021q
    · -- a frame with two tags is four bytes short
      have hadd : ¬s.AddsRelay skb.untagged := by
        rintro ⟨h | h, -⟩ <;> rw [h] at hinner <;> revert hinner <;> decide
      have hlen' := (hkeep.body hadd).1.symm.trans (hbody hadd).1
      rw [heq] at hlen'
      change skb.len = skb.len - 4 at hlen'
      omega
    · have hnone := out.vlanTag_eq_none.mpr (by rwa [hprot])
      rw [hkeep.tag, htag] at hnone
      cases hnone
  · rintro ⟨hnone, hmac⟩
    have hp := skb.vlanTag_eq_none.mp hnone
    have hsame := skb.untagged_of_none hnone
    have hp' : out.protocol ≠ ethP8021q := by rwa [hprot, hsame]
    refine ⟨(out.vlanTag_eq_none.mpr hp').trans hnone.symm, hsrc.trans hmac,
      fun hno => ?_, fun ha => ?_⟩
    · obtain ⟨hl, hm⟩ := hbody hno
      refine ⟨hl.trans (by rw [hsame]), fun i _ hrew => ?_⟩
      unfold SkbBuf.bodyAt
      rw [if_neg hp, if_neg hp', hdata, hm _ hrew, hsame]
    · unfold SkbBuf.bodyAt SkbBuf.bodyLen
      rw [if_neg hp', if_neg hp', hrelayed ha]
      refine ⟨rfl, fun i _ => ?_⟩
      rw [← hrelayed ha, hdata]

/-- The packets that go on are as they should be if and only if `nat25_db_handle` does not refuse
the frame, or the frame has no tag and comes from the station. -/
theorem txKeepsFrame_iff (s : RelayBridge) (w : RelayEnv) (skb : SkbBuf) (hlen : 14 ≤ skb.len) :
    s.TxKeepsFrame w skb ↔ (s.Unrestored w skb → skb.vlanTag = none ∧ skb.src = s.macAddr) := by
  unfold TxKeepsFrame rtwBrClientTx
  by_cases hsc : s.TakesShortcut skb
  · rw [if_pos hsc]
    refine iff_of_true (fun out t h => ?_) fun hun => absurd hsc hun.1
    obtain ⟨⟨b, db⟩, -, hout⟩ := Option.map_eq_some_iff.mp h
    obtain rfl : { skb with toSkb := skb.toSkb.setSrc s.macAddr } = out := congrArg (·.2.1) hout
    exact keepsFrame_shortcut hsc
  rw [if_neg hsc]
  dsimp only
  cases hnat : (s.learnBrIp skb.untagged).doNat25 skb.untagged with
  | none =>
    refine iff_of_true (fun out t h => nomatch h) fun hun => ?_
    obtain ⟨-, ⟨db, hdb⟩, -⟩ := hun
    rw [hnat] at hdb
    cases hdb
  | some found =>
    obtain ⟨nat25, db⟩ := found
    obtain ⟨hmac, hadd, hdhcp⟩ := s.learnBrIp_same skb.untagged db
    rw [Option.bind_some]
    generalize ({ s.learnBrIp skb.untagged with toNat25 := db } : RelayBridge) = b
      at hmac hadd hdhcp ⊢
    cases nat25 with
    | false =>
      refine iff_of_true (fun out t h => ?_) fun hun => ?_
      · obtain ⟨ret, hins⟩ := @inserted_passed b w skb.untagged (ip_of_doNat25 hnat)
        obtain ⟨out', hfin, hkeep⟩ := finishTx_spec hlen hins
        obtain rfl : out' = out := by
          have hout : some (b.finishTx skb.vlanTag skb.untagged) = some (0, out, t) := h
          rw [hfin] at hout
          exact congrArg (·.2.1) (Option.some.inj hout)
        exact keepsFrame_congr hmac hadd hdhcp hkeep
      · obtain ⟨-, ⟨db', hdb⟩, -⟩ := hun
        rw [hnat] at hdb
        cases hdb
    | true =>
      change (∀ out t, b.clientTxNat25 w skb.vlanTag skb.untagged = some (0, out, t) → _) ↔ _
      constructor
      · rintro hkeep ⟨-, -, hcopy, hlin, href⟩
        have href' := (refused_congr hadd).mpr href
        obtain ⟨⟨ret, out, t⟩, hr⟩ := exists_of_refused href'
        have hins := inserted hr
        obtain rfl : ret = -1 := (hins.ret.resolve_right fun hno => hno.1 href').2
        have hrun : b.clientTxNat25 w skb.vlanTag skb.untagged = some (0, out, t) := by
          rw [clientTxNat25_eq hlen, if_neg (fun hc => by simp [hcopy hc.1] at hc),
            if_neg (by simp [hlin]), hr]
          rfl
        have hiff := keepsFrame_iff_of_inserted hlen hins
        rw [hmac] at hiff
        exact hiff.mp (keepsFrame_congr hmac.symm hadd.symm hdhcp.symm (hkeep out t hrun))
      · intro hcond out t h
        obtain ⟨hcopy, hlin, hcases⟩ := clientTxNat25_spec hlen h
        rcases hcases with ⟨href, hins⟩ | ⟨-, hkeep⟩
        · have hno := hcond ⟨hsc, ⟨db, hnat⟩, hcopy, hlin, (refused_congr hadd).mp href⟩
          rw [← hmac] at hno
          exact keepsFrame_congr hmac hadd hdhcp ((keepsFrame_iff_of_inserted hlen hins).mpr hno)
        · exact keepsFrame_congr hmac hadd hdhcp hkeep

end RelayBridge

/-- A frame of LLDP with a tag, from a host behind the station. -/
def taggedLldp : SkbBuf where
  mem := Mem.write (fun _ => 0) 0
    [0x01, 0x80, 0xc2, 0, 0, 0x0e, 0x02, 0, 0, 0, 0, 0x51, 0x81, 0x00, 0x00, 0x05, 0x88, 0xcc]
  data := 0
  len := 64
  tailroom := 0

theorem txKeepsFrame_iff_taggedLldp :
    sampleRelayBridge.TxKeepsFrame (sampleRelayEnv .little) taggedLldp ↔
      (sampleRelayBridge.Unrestored (sampleRelayEnv .little) taggedLldp →
        taggedLldp.vlanTag = none ∧ taggedLldp.src = sampleRelayBridge.macAddr) :=
  sampleRelayBridge.txKeepsFrame_iff (sampleRelayEnv .little) taggedLldp (by decide)

theorem not_txKeepsFrame_taggedLldp :
    ¬∀ (s : RelayBridge) (w : RelayEnv) (skb : SkbBuf), 14 ≤ skb.len → s.TxKeepsFrame w skb := fun h => by
  have hkeep := h sampleRelayBridge (sampleRelayEnv .little) taggedLldp
    (by decide) taggedLldp.untagged
    sampleRelayBridge rfl
  have htag := hkeep.tag
  revert htag
  decide

end Rtl8188eu
