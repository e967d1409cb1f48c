import Rtl8188eu.BridgeVlan

/-!
# Received frames of bridged hosts

`nat25_handle_frame` takes the VLAN tag out of a received frame, lets `nat25_db_handle` write the
address of the host into it, and puts the tag back. The tag is put back on every path, also where
`nat25_db_handle` fails.

The address of the host also goes into the hardware address that an ARP frame has behind its header, and kernels before
5.15 write it into IPX and AARP frames. The relay tag of a PADO or PADS frame is taken out (`keepsReceived`).
-/

namespace Rtl8188eu

/-! ## IPX and AppleTalk -/

/-- `__nat25_generate_ipx_network_addr_with_node`. -/
def nat25GenerateIpxNetworkAddrWithNode (m : Mem) (net node : ℤ) : NetAddr :=
  Vector.ofFn fun i =>
    if i.val = 0 then nat25Ipx
    else if i.val < 5 then m (net + i.val - 1)
    else if i.val < 11 then m (node + i.val - 5)
    else 0

/-- `__nat25_generate_ipx_network_addr_with_socket`. -/
def nat25GenerateIpxNetworkAddrWithSocket (m : Mem) (net sock : ℤ) : NetAddr :=
  Vector.ofFn fun i =>
    if i.val = 0 then nat25Ipx
    else if i.val < 5 then m (net + i.val - 1)
    else if i.val < 7 then m (sock + i.val - 5)
    else 0

/-- `__nat25_generate_apple_network_addr`. -/
def nat25GenerateAppleNetworkAddr (m : Mem) (network node : ℤ) : NetAddr :=
  Vector.ofFn fun i =>
    if i.val = 0 then nat25Apple
    else if i.val < 3 then m (network + i.val - 1)
    else if i.val = 3 then m node
    else 0

/-- A header of IPX, AARP or DDP, and where it is. -/
inductive IpxHeader where
  | ipx (p : ℤ)
  | aarp (p : ℤ)
  | ddp (p : ℤ)

namespace Skb

/-- A frame of IPX or AppleTalk, or of a length. -/
def IsIpx (skb : Skb) : Prop := skb.protocol = ethPIpx ∨ skb.protocol ≤ ethFrameLen

instance (skb : Skb) : Decidable skb.IsIpx := inferInstanceAs (Decidable (_ ∨ _))

/-- The header that `nat25_db_handle` finds in a frame of IPX or AppleTalk. -/
def ipxHeader (skb : Skb) : Option IpxHeader :=
  let p := skb.data + 14
  if skb.protocol = ethPIpx then some (.ipx p)
  else if skb.mem.read p 2 = [0xff, 0xff] then some (.ipx p)
  else if skb.mem p = 0xaa then
    if skb.mem.read (p + 3) 5 = [0x00, 0x00, 0x00, 0x81, 0x37] then some (.ipx (p + 8))
    else if skb.mem.read (p + 3) 5 = [0x00, 0x00, 0x00, 0x80, 0xf3] then some (.aarp (p + 8))
    else if skb.mem.read (p + 3) 5 = [0x08, 0x00, 0x07, 0x80, 0x9b] then some (.ddp (p + 8))
    else none
  else if skb.mem p = 0xe0 then
    if skb.mem.read (p + 3) 2 = [0xff, 0xff] then some (.ipx (p + 3)) else none
  else none

end Skb

namespace Bridge

/-- The part of `nat25_db_handle` about received frames of IPX and AppleTalk, before 5.15. -/
def lookupIpx (s : Bridge) (skb : Skb) : IpxHeader → Option (ℤ × Skb × Bridge)
  | .ipx p =>
    if macAt skb.mem (p + 10) = s.macAddr then
      (s.lookupDb skb (nat25GenerateIpxNetworkAddrWithSocket skb.mem (p + 6) (p + 16))).map
        fun (_, skb, s) =>
        (0, { skb with mem := skb.mem.write (p + 10) skb.dst.toList }, s)
    else
      (s.lookupDb skb (nat25GenerateIpxNetworkAddrWithNode skb.mem (p + 6) (p + 10))).map
        fun (_, skb, s) => (0, skb, s)
  | .aarp p =>
    if skb.mem (p + 4) ≠ 6 ∨ skb.mem (p + 5) ≠ 4 then some (-1, skb, s)
    else
      (s.lookupDb skb (nat25GenerateAppleNetworkAddr skb.mem (p + 25) (p + 27))).map
        fun (_, skb, s) =>
        (0, { skb with mem := skb.mem.write (p + 18) skb.dst.toList }, s)
  | .ddp p =>
    (s.lookupDb skb (nat25GenerateAppleNetworkAddr skb.mem (p + 4) (p + 8))).map
      fun (_, skb, s) => (0, skb, s)

end Bridge

/-! ## Received frames -/

namespace RelayBridge

/-- `nat25_db_handle` for a received frame. `ipx` is set for a kernel before 5.15. -/
def nat25DbLookup (ipx : Bool) (s : RelayBridge) (w : RelayEnv) (skb : SkbBuf) :
    Option (ℤ × SkbBuf × RelayBridge) :=
  if ipx ∧ skb.IsIpx then
    match skb.ipxHeader with
    | none => some (-1, skb, s)
    | some hdr =>
      (s.toBridge.lookupIpx skb.toSkb hdr).map fun (ret, frame, b) =>
        (ret, { skb with toSkb := frame }, { s with toBridge := b })
  else s.nat25DbHandle w skb .lookup

/-- The part of `nat25_handle_frame` about a frame without a VLAN tag. -/
def handleUntagged (ipx : Bool) (s : RelayBridge) (w : RelayEnv) (skb : SkbBuf) :
    Option (ℤ × SkbBuf × RelayBridge) :=
  if !s.nat25Disable then
    if !s.nat25scDisable ∧ skb.protocol = ethPIp ∧ s.scdbIp = skb.daddr then
      some (0, { skb with toSkb := skb.toSkb.setDst s.scdbMac }, s)
    else s.nat25DbLookup ipx w skb
  else if (skb.protocol = ethPIp ∧ s.brIp = skb.daddr) ∨
      (skb.protocol = ethPArp ∧ s.brIp = ipAt skb.mem (skb.data + 14 + 24)) then
    s.nat25DbLookup ipx w skb
  else some (0, skb, s)

/-- `nat25_handle_frame`. -/
def nat25HandleFrame (ipx : Bool) (s : RelayBridge) (w : RelayEnv) (skb : SkbBuf) :
    Option (ℤ × SkbBuf × RelayBridge) :=
  if isMcast skb.dst then some (0, skb, s)
  else
    (s.handleUntagged ipx w skb.untagged).map fun (ret, frame, s) =>
      (if ret = -1 then -1 else 0, frame.retag skb.vlanTag, s)

/-! ## What is kept -/

/-- The frame is an answer of a PPPoE server, and the device adds relay tags. -/
def TakesRelayTag (s : RelayBridge) (skb : SkbBuf) : Prop :=
  (skb.protocol = ethPPppDisc ∨ skb.protocol = ethPPppSes) ∧
    (skb.pppoeCode = padoCode ∨ skb.pppoeCode = padsCode) ∧
    s.addPPPoETag = true

/-- Where the address of the host is written a second time. -/
def HwAddrAt (ipx : Bool) (s : RelayBridge) (skb : SkbBuf) (p : ℤ) : Prop :=
  (skb.protocol = ethPArp ∧ p = skb.data + 14 + 8 + (skb.arHln + skb.arPln)) ∨
  (ipx = true ∧ skb.IsIpx ∧
    ∃ q, (skb.ipxHeader = some (.ipx q) ∧ macAt skb.mem (q + 10) = s.macAddr ∧ p = q + 10) ∨
    (skb.ipxHeader = some (.aarp q) ∧ p = q + 18))

end RelayBridge

namespace SkbBuf

/-- A byte behind the addresses and the tag. -/
def bodyByte (skb : SkbBuf) (i : ℕ) : UInt8 := skb.mem (skb.bodyAt + i)

/-- The relay tag `k` bytes behind the addresses was taken out of the frame, or only the address out
of a longer one. The length fields of the frame and of the tag are set. -/
structure RelayTaken (skb out : SkbBuf) (k cut : ℕ) : Prop where
  found : skb.untagged.findPppoeTag pttRelaySid = some (skb.untagged.data + 12 + k)
  cut_eq : cut = 12 ∨ cut = 8
  len : out.len + cut = skb.len
  before : ∀ i < k, i ≠ 6 → i ≠ 7 → out.bodyByte i = skb.bodyByte i
  type : cut = 8 → out.bodyByte k = skb.bodyByte k ∧ out.bodyByte (k + 1) = skb.bodyByte (k + 1)
  behind : ∀ i, k + (12 - cut) ≤ i → i < out.bodyLen → out.bodyByte i = skb.bodyByte (i + cut)

end SkbBuf

namespace RelayBridge

/-- The frame `out` is the frame `skb` but for the destination, the bytes of `field`, and the relay
tag of PPPoE. -/
structure KeepsReceived (s : RelayBridge) (field : ℤ → Prop) (skb out : SkbBuf) : Prop where
  tag : out.vlanTag = skb.vlanTag
  src : out.src = skb.src
  body : (out.len = skb.len ∧ ∀ i < skb.bodyLen,
      (∀ p, field p → ¬(p ≤ skb.untagged.data + 12 + i ∧ skb.untagged.data + 12 + i < p + 6)) →
        out.bodyByte i = skb.bodyByte i) ∨
    (s.TakesRelayTag skb.untagged ∧ ∃ k cut, skb.RelayTaken out k cut)

end RelayBridge

/-! ## The destination only -/

namespace Skb

/-- The frames are the same but for the destination. -/
structure OnlyDst (skb out : Skb) : Prop where
  data : out.data = skb.data
  len : out.len = skb.len
  mem : ∀ a, skb.data + 6 ≤ a → out.mem a = skb.mem a

theorem OnlyDst.refl (skb : Skb) : OnlyDst skb skb := ⟨rfl, rfl, fun _ _ => rfl⟩

theorem onlyDst_setDst (skb : Skb) (mac : MacAddr) : OnlyDst skb (skb.setDst mac) := by
  refine ⟨rfl, rfl, fun a ha => Mem.write_of_disjoint _ (Or.inr ?_)⟩
  rw [Vector.length_toList]
  push_cast
  omega

/-- Six bytes are written somewhere behind the header. -/
theorem OnlyDst.write {skb out : Skb} (h : OnlyDst skb out) (p : ℤ) (mac : MacAddr) :
    ∀ a, skb.data + 6 ≤ a → ¬(p ≤ a ∧ a < p + 6) → out.mem.write p mac.toList a = skb.mem a := by
  intro a ha hp
  refine (Mem.write_of_disjoint _ ?_).trans (h.mem a ha)
  rw [Vector.length_toList]
  omega

end Skb

namespace Bridge

variable {s t : Bridge} {env : BridgeEnv} {skb out : Skb} {ret : ℤ}

theorem onlyDst_lookupDb {key : NetAddr} {found : Bool}
    (h : s.lookupDb skb key = some (found, out, t)) :
    skb.OnlyDst out := by
  obtain ⟨⟨found', mac, db⟩, -, heq⟩ := Option.map_eq_some_iff.mp h
  cases mac with
  | none =>
    cases heq
    exact Skb.OnlyDst.refl skb
  | some mac =>
    cases heq
    exact skb.onlyDst_setDst mac

theorem onlyDst_handleIp (h : s.handleIp env skb .lookup = some (ret, out, t)) :
    skb.OnlyDst out := by
  unfold handleIp at h
  dsimp only at h
  split_ifs at h
  · cases h
    exact Skb.OnlyDst.refl skb
  obtain ⟨⟨found, frame, s'⟩, hdb, heq⟩ := Option.map_eq_some_iff.mp h
  have hframe := onlyDst_lookupDb hdb
  -- a frame whose host is not known goes to the bridge, or to all
  have hset : ∀ mac, skb.OnlyDst (frame.setDst mac) := fun mac =>
    have hmac := frame.onlyDst_setDst mac
    ⟨hmac.data.trans hframe.data, hmac.len.trans hframe.len, fun a ha =>
      (hmac.mem a (by rw [hframe.data]; exact ha)).trans (hframe.mem a ha)⟩
  cases found with
  | true =>
    cases heq
    exact hframe
  | false =>
    dsimp only at heq
    split_ifs at heq
    · cases heq
      exact hset _
    · cases heq
      exact hset _
    · cases heq
      exact hset _

theorem onlyDst_handlePppoe
    (hcode : ¬(skb.mem (skb.data + 14 + 1) = 0x07 ∨ skb.mem (skb.data + 14 + 1) = 0x65))
    (h : s.handlePppoe env skb .lookup = some (ret, out, t)) : skb.OnlyDst out := by
  unfold handlePppoe at h
  dsimp only at h
  rw [if_neg hcode] at h
  split_ifs at h
  · cases h
    exact Skb.OnlyDst.refl skb
  · obtain ⟨⟨found, frame, s'⟩, hdb, heq⟩ := Option.map_eq_some_iff.mp h
    cases heq
    exact onlyDst_lookupDb hdb

theorem onlyDst_handleIpv6 (h : s.handleIpv6 env skb .lookup = some (ret, out, t)) :
    skb.OnlyDst out := by
  unfold handleIpv6 at h
  dsimp only at h
  split_ifs at h
  · cases h
    exact Skb.OnlyDst.refl skb
  · obtain ⟨⟨found, frame, s'⟩, hdb, heq⟩ := Option.map_eq_some_iff.mp h
    cases heq
    exact onlyDst_lookupDb hdb

/-- An ARP frame gets the address a second time. -/
theorem handleArp_lookup (h : s.handleArp env skb .lookup = some (ret, out, t)) :
    out.data = skb.data ∧ out.len = skb.len ∧ ∀ a, skb.data + 6 ≤ a →
      ¬(skb.data + 14 + 8 + (skb.arHln + skb.arPln) ≤ a ∧
        a < skb.data + 14 + 8 + (skb.arHln + skb.arPln) + 6) →
        out.mem a = skb.mem a := by
  unfold handleArp at h
  dsimp only at h
  split_ifs at h
  · cases h
    exact ⟨rfl, rfl, fun _ _ _ => rfl⟩
  · obtain ⟨⟨found, frame, s'⟩, hdb, heq⟩ := Option.map_eq_some_iff.mp h
    have hframe := onlyDst_lookupDb hdb
    cases heq
    have hln : frame.arHln = skb.arHln := by
      unfold Skb.arHln
      rw [hframe.data, hframe.mem _ (by omega)]
    have hpln : frame.arPln = skb.arPln := by
      unfold Skb.arPln
      rw [hframe.data, hframe.mem _ (by omega)]
    refine ⟨hframe.data, hframe.len, fun a ha hout => ?_⟩
    refine hframe.write _ frame.dst a ha ?_
    rw [hframe.data, hln, hpln]
    omega

/-- A frame of IPX or AppleTalk gets the address a second time, unless it is about a node or about a
datagram. -/
theorem lookupIpx_spec {hdr : IpxHeader} (h : s.lookupIpx skb hdr = some (ret, out, t)) :
    out.data = skb.data ∧ out.len = skb.len ∧ ∀ a, skb.data + 6 ≤ a →
      (∀ q, hdr = .ipx q → macAt skb.mem (q + 10) = s.macAddr → ¬(q + 10 ≤ a ∧ a < q + 10 + 6)) →
      (∀ q, hdr = .aarp q → ¬(q + 18 ≤ a ∧ a < q + 18 + 6)) → out.mem a = skb.mem a := by
  cases hdr with
  | ipx p =>
    unfold lookupIpx at h
    dsimp only at h
    split_ifs at h with hnode
    · obtain ⟨⟨found, frame, s'⟩, hdb, heq⟩ := Option.map_eq_some_iff.mp h
      have hframe := onlyDst_lookupDb hdb
      cases heq
      exact ⟨hframe.data, hframe.len,
        fun a ha hp _ => hframe.write _ frame.dst a ha (hp p rfl hnode)⟩
    · obtain ⟨⟨found, frame, s'⟩, hdb, heq⟩ := Option.map_eq_some_iff.mp h
      have hframe := onlyDst_lookupDb hdb
      cases heq
      exact ⟨hframe.data, hframe.len, fun a ha _ _ => hframe.mem a ha⟩
  | aarp p =>
    unfold lookupIpx at h
    dsimp only at h
    split_ifs at h
    · cases h
      exact ⟨rfl, rfl, fun _ _ _ _ => rfl⟩
    · obtain ⟨⟨found, frame, s'⟩, hdb, heq⟩ := Option.map_eq_some_iff.mp h
      have hframe := onlyDst_lookupDb hdb
      cases heq
      exact ⟨hframe.data, hframe.len, fun a ha _ hp => hframe.write _ frame.dst a ha (hp p rfl)⟩
  | ddp p =>
    obtain ⟨⟨found, frame, s'⟩, hdb, heq⟩ := Option.map_eq_some_iff.mp h
    have hframe := onlyDst_lookupDb hdb
    cases heq
    exact ⟨hframe.data, hframe.len, fun a ha _ _ => hframe.mem a ha⟩

end Bridge

/-! ## The relay tag -/

namespace SkbBuf

variable {skb out : SkbBuf}

theorem pullAndMerge_apply {src : ℤ} {len : ℕ} (h : skb.pullAndMerge src len = some out) :
    out.data = skb.data ∧ out.len + len = skb.len ∧ src + len ≤ skb.data + skb.len ∧
      (∀ a < src, out.mem a = skb.mem a) ∧
      ∀ a, src ≤ a → a < out.data + out.len → out.mem a = skb.mem (a + len) := by
  unfold pullAndMerge at h
  split_ifs at h with hout
  obtain ⟨hsrc, hlen⟩ := not_or.mp hout
  cases h
  refine ⟨rfl, Nat.sub_add_cancel (by omega),
    by omega, fun a ha => Mem.write_of_disjoint _ (Or.inl ha), ?_⟩
  intro a hsa ha
  dsimp only at ha
  obtain ⟨i, rfl⟩ : ∃ i : ℕ, a = src + i := ⟨(a - src).toNat, by omega⟩
  dsimp only
  rw [write_read_apply _ _ _ _ (by omega)]
  congr 1
  omega

theorem setPppoeLength_apply (skb : SkbBuf) (n : ℤ) {a : ℤ}
    (h : a < skb.data + 18 ∨ skb.data + 20 ≤ a) :
    (skb.setPppoeLength n).mem a = skb.mem a := by
  refine Mem.write_of_disjoint _ ?_
  simp only [be16Bytes, List.length_cons, List.length_nil]
  push_cast
  omega

/-- What is left of a frame whose relay tag at `ptr` is taken out. -/
structure Cut (skb out : SkbBuf) (ptr : ℤ) (cut : ℕ) : Prop where
  found : skb.findPppoeTag pttRelaySid = some ptr
  ptr_ge : skb.data + 20 ≤ ptr
  cut_eq : cut = 12 ∨ cut = 8
  data : out.data = skb.data
  len : out.len + cut = skb.len
  before : ∀ a, skb.data + 6 ≤ a → a < ptr → a < skb.data + 18 ∨ skb.data + 20 ≤ a →
    out.mem a = skb.mem a
  type : cut = 8 → out.mem ptr = skb.mem ptr ∧ out.mem (ptr + 1) = skb.mem (ptr + 1)
  behind : ∀ a, ptr + (12 - cut) ≤ a → a < out.data + out.len → out.mem a = skb.mem (a + cut)

/-- A tag that keeps its header, and its length. -/
theorem cut_keepHeader {named merged : SkbBuf} {ptr : ℤ} (hdst : skb.toSkb.OnlyDst named.toSkb)
    (hfind : skb.findPppoeTag pttRelaySid = some ptr) (hge : skb.data + 20 ≤ ptr)
    (hpull : named.pullAndMerge (ptr + 4) 8 = some merged) (n : ℤ) (k : ℕ) :
    Cut skb { merged.setPppoeLength n with
      mem := (merged.setPppoeLength n).mem.write (ptr + 2) (be16Bytes k) } ptr 8 := by
  obtain ⟨hmdata, hmlen, hend, hbefore, hbehind⟩ := pullAndMerge_apply hpull
  have hdata : merged.data = skb.data := hmdata.trans hdst.data
  -- only the two length fields are written behind the move
  have hkeep : ∀ a, a < skb.data + 18 ∨ skb.data + 20 ≤ a → a < ptr + 2 ∨ ptr + 4 ≤ a →
      (merged.setPppoeLength n).mem.write (ptr + 2) (be16Bytes k) a = merged.mem a := by
    intro a hlength htag
    refine (Mem.write_of_disjoint _ ?_).trans (setPppoeLength_apply merged _ ?_)
    · simp only [be16Bytes, List.length_cons, List.length_nil]
      push_cast
      omega
    · rw [hdata]
      exact hlength
  have hfirst : ∀ a, skb.data + 6 ≤ a → a < ptr + 2 → a < skb.data + 18 ∨ skb.data + 20 ≤ a →
      (merged.setPppoeLength n).mem.write (ptr + 2) (be16Bytes k) a = skb.mem a := by
    intro a ha hlt hlength
    exact (hkeep a hlength (Or.inl hlt)).trans ((hbefore a (by omega)).trans (hdst.mem a ha))
  refine ⟨hfind, hge, Or.inr rfl, hdata, hmlen.trans hdst.len, ?_, ?_, ?_⟩
  · exact fun a ha hlt hlength => hfirst a ha (by omega) hlength
  · exact fun _ => ⟨hfirst ptr (by omega) (by omega) (Or.inr (by omega)),
      hfirst (ptr + 1) (by omega) (by omega) (Or.inr (by omega))⟩
  · intro a ha hlt
    have ha4 : ptr + 4 ≤ a := by
      push_cast at ha
      omega
    exact (hkeep a (Or.inr (by omega)) (Or.inr ha4)).trans
      ((hbehind a ha4 hlt).trans (hdst.mem _ (by omega)))

/-- A tag that goes as a whole. -/
theorem cut_wholeTag {named merged : SkbBuf} {ptr : ℤ} (hdst : skb.toSkb.OnlyDst named.toSkb)
    (hfind : skb.findPppoeTag pttRelaySid = some ptr) (hge : skb.data + 20 ≤ ptr)
    (hpull : named.pullAndMerge ptr 12 = some merged) (n : ℤ) :
    Cut skb (merged.setPppoeLength n) ptr 12 := by
  obtain ⟨hmdata, hmlen, hend, hbefore, hbehind⟩ := pullAndMerge_apply hpull
  have hdata : merged.data = skb.data := hmdata.trans hdst.data
  have hkeep : ∀ a, a < skb.data + 18 ∨ skb.data + 20 ≤ a →
      (merged.setPppoeLength n).mem a = merged.mem a := by
    intro a hlength
    refine setPppoeLength_apply merged _ ?_
    rw [hdata]
    exact hlength
  refine ⟨hfind, hge, Or.inl rfl, hdata, hmlen.trans hdst.len, ?_, nofun, ?_⟩
  · intro a ha hlt hlength
    exact (hkeep a hlength).trans ((hbefore a hlt).trans (hdst.mem a ha))
  · intro a ha hlt
    have ha0 : ptr ≤ a := by
      push_cast at ha
      omega
    exact (hkeep a (Or.inr (by omega))).trans ((hbehind a ha0 hlt).trans (hdst.mem _ (by omega)))

theorem cut_lookupRelayTag (h : skb.lookupRelayTag = (0, out)) :
    ∃ ptr cut, Cut skb out ptr cut := by
  unfold lookupRelayTag at h
  cases hfind : skb.findPppoeTag pttRelaySid with
  | none =>
    rw [hfind] at h
    exact absurd (Prod.mk.inj h).1 (by decide)
  | some ptr =>
    have hge : skb.data + 20 ≤ ptr := by
      rw [← skb.pppoeTag_eq]
      exact le_findTagLoop hfind
    rw [hfind] at h
    dsimp only at h
    by_cases hshort : skb.mem.be16 (ptr + 2) < magicCodeLen + rtlRelayTagLen
    · rw [if_pos hshort] at h
      exact absurd (Prod.mk.inj h).1 (by decide)
    rw [if_neg hshort] at h
    by_cases hmagic : skb.mem.be16 (ptr + 4) ≠ magicCode
    · rw [if_pos hmagic] at h
      exact absurd (Prod.mk.inj h).1 (by decide)
    rw [if_neg hmagic] at h
    have hdst := skb.toSkb.onlyDst_setDst (macAt skb.mem (ptr + 4 + magicCodeLen))
    by_cases hmore : skb.mem.be16 (ptr + 2) > magicCodeLen + rtlRelayTagLen
    · have hcut : tagHdrLen + magicCodeLen + rtlRelayTagLen - tagHdrLen = 8 := rfl
      have hpos : 0 < tagHdrLen := by decide
      rw [if_pos hmore, hcut] at h
      split at h
      · exact absurd (Prod.mk.inj h).1 (by decide)
      · rename_i merged hpull
        rw [if_pos hpos] at h
        obtain rfl := (Prod.mk.inj h).2
        exact ⟨ptr, 8, cut_keepHeader hdst hfind hge hpull _ _⟩
    · have hcut : tagHdrLen + magicCodeLen + rtlRelayTagLen - 0 = 12 := rfl
      rw [if_neg hmore, hcut] at h
      split at h
      · exact absurd (Prod.mk.inj h).1 (by decide)
      · rename_i merged hpull
        rw [if_neg (lt_irrefl 0)] at h
        obtain rfl := (Prod.mk.inj h).2
        rw [Nat.cast_zero, add_zero] at hpull
        exact ⟨ptr, 12, cut_wholeTag hdst hfind hge hpull _⟩

theorem lookupRelayTag_ret (skb : SkbBuf) :
    skb.lookupRelayTag.1 = -1 ∨ skb.lookupRelayTag.1 = 0 := by
  unfold lookupRelayTag
  split
  · exact Or.inl rfl
  dsimp only
  split_ifs
  · exact Or.inl rfl
  · exact Or.inl rfl
  all_goals
    split
    · exact Or.inl rfl
  · exact Or.inr rfl
  · exact Or.inr rfl
  · exact Or.inr rfl
  · exact Or.inr rfl

end SkbBuf

/-! ## A frame without a tag -/

namespace RelayBridge

variable {ipx : Bool} {s t : RelayBridge} {w : RelayEnv} {skb out : SkbBuf} {ret : ℤ}

/-- What a lookup makes of a frame. -/
structure Looked (ipx : Bool) (s : RelayBridge) (skb out : SkbBuf) : Prop where
  data : out.data = skb.data
  body : (out.len = skb.len ∧ ∀ a, skb.data + 6 ≤ a →
      (∀ p, s.HwAddrAt ipx skb p → ¬(p ≤ a ∧ a < p + 6)) → out.mem a = skb.mem a) ∨
    (s.TakesRelayTag skb ∧ ∃ ptr cut, SkbBuf.Cut skb out ptr cut)

theorem looked_of_onlyDst (h : skb.toSkb.OnlyDst out.toSkb) : s.Looked ipx skb out :=
  ⟨h.data, Or.inl ⟨h.len, fun a ha _ => h.mem a ha⟩⟩

theorem ipxHeader_ge {q : ℤ} {frame : Skb}
    (h : frame.ipxHeader = some (.ipx q) ∨ frame.ipxHeader = some (.aarp q)) :
    frame.data + 14 ≤ q := by
  unfold Skb.ipxHeader at h
  dsimp only at h
  split_ifs at h
  all_goals
    rcases h with h | h
    all_goals
      cases h
      try omega

/-- The address is not written into the header. -/
theorem hwAddrAt_ge {p : ℤ} (h : s.HwAddrAt ipx skb p) : skb.data + 22 ≤ p := by
  rcases h with ⟨-, rfl⟩ | ⟨-, -, q, ⟨hq, -, rfl⟩ | ⟨hq, rfl⟩⟩
  · omega
  · have := ipxHeader_ge (Or.inl hq)
    omega
  · have := ipxHeader_ge (Or.inr hq)
    omega

theorem Looked.head (h : s.Looked ipx skb out) {a : ℤ} (h6 : skb.data + 6 ≤ a)
    (h14 : a < skb.data + 14) :
    out.mem a = skb.mem a := by
  rcases h.body with ⟨-, hmem⟩ | ⟨-, ptr, cut, hcut⟩
  · refine hmem a h6 fun p hp => ?_
    have := hwAddrAt_ge hp
    omega
  · have := hcut.ptr_ge
    exact hcut.before a h6 (by omega) (Or.inl (by omega))

theorem looked_handlePppoe (hp : skb.protocol = ethPPppDisc ∨ skb.protocol = ethPPppSes)
    (h : s.handlePppoe w skb .lookup = some (ret, out, t))
    (hret : ret ≠ -1) : s.Looked ipx skb out := by
  unfold handlePppoe at h
  rw [if_neg fun hi => nomatch hi.1] at h
  by_cases hcode : skb.pppoeCode = padoCode ∨ skb.pppoeCode = padsCode
  · rw [if_pos ⟨rfl, hcode⟩] at h
    unfold lookupDiscovery at h
    by_cases hadd : s.addPPPoETag = true
    · rw [if_pos hadd] at h
      obtain ⟨hr, ho⟩ := Prod.mk.inj (Option.some.inj h)
      obtain ⟨ho, -⟩ := Prod.mk.inj ho
      have hzero := skb.lookupRelayTag_ret.resolve_left fun hneg => hret (hr.symm.trans hneg)
      obtain ⟨ptr, cut, hcut⟩ := SkbBuf.cut_lookupRelayTag (Prod.ext hzero ho)
      exact ⟨hcut.data, Or.inr ⟨⟨hp, hcode, hadd⟩, ptr, cut, hcut⟩⟩
    · rw [if_neg hadd] at h
      split_ifs at h
      · cases h
        exact absurd rfl hret
      · cases h
        exact looked_of_onlyDst (skb.toSkb.onlyDst_setDst _)
  · rw [if_neg fun hl => hcode hl.2] at h
    obtain ⟨⟨ret', frame, b⟩, hb, heq⟩ := Option.map_eq_some_iff.mp h
    cases heq
    exact looked_of_onlyDst (Bridge.onlyDst_handlePppoe hcode hb)

theorem looked_nat25DbHandle (h : s.nat25DbHandle w skb .lookup = some (ret, out, t))
    (hret : ret ≠ -1) :
    s.Looked ipx skb out := by
  unfold nat25DbHandle at h
  by_cases hppp : skb.protocol = ethPPppDisc ∨ skb.protocol = ethPPppSes
  · rw [if_pos hppp] at h
    exact looked_handlePppoe hppp h hret
  rw [if_neg hppp] at h
  obtain ⟨⟨ret', frame, b⟩, hb, hr⟩ := Option.bind_eq_some_iff.mp h
  dsimp only at hr
  rw [if_neg fun hc => nomatch hc.2.1] at hr
  cases hr
  unfold Bridge.nat25DbHandle at hb
  by_cases hip : skb.protocol = ethPIp
  · rw [if_pos hip] at hb
    exact looked_of_onlyDst (Bridge.onlyDst_handleIp hb)
  rw [if_neg hip] at hb
  by_cases harp : skb.protocol = ethPArp
  · rw [if_pos harp] at hb
    obtain ⟨hdata, hlen, hmem⟩ := Bridge.handleArp_lookup hb
    exact ⟨hdata, Or.inl ⟨hlen, fun a ha hno => hmem a ha (hno _ (Or.inl ⟨harp, rfl⟩))⟩⟩
  rw [if_neg harp] at hb
  split_ifs at hb
  · cases hb
    exact looked_of_onlyDst (Skb.OnlyDst.refl _)
  · cases hb
    exact looked_of_onlyDst (Skb.OnlyDst.refl _)
  · exact looked_of_onlyDst (Bridge.onlyDst_handleIpv6 hb)
  · cases hb
    exact looked_of_onlyDst (Skb.OnlyDst.refl _)

theorem looked_nat25DbLookup (h : s.nat25DbLookup ipx w skb = some (ret, out, t))
    (hret : ret ≠ -1) :
    s.Looked ipx skb out := by
  unfold nat25DbLookup at h
  by_cases hipx : ipx = true ∧ skb.IsIpx
  swap
  · rw [if_neg hipx] at h
    exact looked_nat25DbHandle h hret
  rw [if_pos hipx] at h
  cases hhdr : skb.ipxHeader with
  | none =>
    rw [hhdr] at h
    cases h
    exact looked_of_onlyDst (Skb.OnlyDst.refl _)
  | some hdr =>
    rw [hhdr] at h
    obtain ⟨⟨ret', frame, b⟩, hb, heq⟩ := Option.map_eq_some_iff.mp h
    cases heq
    obtain ⟨hdata, hlen, hmem⟩ := Bridge.lookupIpx_spec hb
    refine ⟨hdata, Or.inl ⟨hlen, fun a ha hno => hmem a ha (fun q hq hnode => ?_) (fun q hq => ?_)⟩⟩
    · exact hno (q + 10) (Or.inr ⟨hipx.1, hipx.2, q, Or.inl ⟨hq ▸ hhdr, hnode, rfl⟩⟩)
    · exact hno (q + 18) (Or.inr ⟨hipx.1, hipx.2, q, Or.inr ⟨hq ▸ hhdr, rfl⟩⟩)

theorem looked_handleUntagged (h : s.handleUntagged ipx w skb = some (ret, out, t))
    (hret : ret ≠ -1) :
    s.Looked ipx skb out := by
  unfold handleUntagged at h
  split_ifs at h
  · cases h
    exact looked_of_onlyDst (skb.toSkb.onlyDst_setDst _)
  · exact looked_nat25DbLookup h hret
  · exact looked_nat25DbLookup h hret
  · cases h
    exact looked_of_onlyDst (Skb.OnlyDst.refl _)

/-- A frame with its tag taken out, a lookup, and the tag put back. -/
theorem keepsReceived_of_looked (hlen : 14 ≤ skb.len) (h : s.Looked ipx skb.untagged out) :
    s.KeepsReceived (s.HwAddrAt ipx skb.untagged) skb (out.retag skb.vlanTag) := by
  obtain ⟨hat, hbodyLen, hsame⟩ := skb.body_untagged
  have hdata := h.data
  have hprot : out.protocol = skb.untagged.protocol := by
    change out.mem.be16 (out.data + 12) = skb.untagged.mem.be16 (skb.untagged.data + 12)
    rw [hdata]
    exact be16_congr (h.head (by omega) (by omega)) (h.head (by omega) (by omega))
  have hnone : skb.vlanTag = none → out.protocol ≠ ethP8021q := by
    intro hno
    rw [hprot, skb.untagged_of_none hno]
    exact skb.vlanTag_eq_none.mp hno
  obtain ⟨htag, houtat, houtlen, houtsrc, houtmem⟩ :=
    SkbBuf.retag_spec hnone fun hdr hh => skb.length_of_vlanTag hh
  have hout : ∀ i : ℕ, (out.retag skb.vlanTag).bodyByte i = out.mem
    (skb.untagged.data + 12 + i) := by
    intro i
    unfold SkbBuf.bodyByte
    rw [houtat, houtmem _ (by omega), hdata]
  have hin : ∀ i : ℕ, skb.bodyByte i = skb.untagged.mem (skb.untagged.data + 12 + i) := by
    intro i
    unfold SkbBuf.bodyByte
    rw [hat, hsame _ (by omega)]
  refine ⟨htag, ?_, ?_⟩
  · rw [houtsrc, ← skb.src_untagged]
    change macAt out.mem (out.data + 6) = macAt skb.untagged.mem (skb.untagged.data + 6)
    rw [hdata]
    exact macAt_congr fun i hi => h.head (by omega) (by omega)
  · rcases h.body with ⟨hl, hmem⟩ | ⟨htakes, ptr, cut, hcut⟩
    · refine Or.inl ⟨skb.len_retag hlen hl, fun i _ hno => ?_⟩
      rw [hout, hin]
      exact hmem _ (by omega) hno
    · have hge := hcut.ptr_ge
      have hcutEq := hcut.cut_eq
      obtain ⟨k, hk⟩ : ∃ k : ℕ, ptr = skb.untagged.data + 12 + k :=
        ⟨(ptr - (skb.untagged.data + 12)).toNat, by omega⟩
      refine Or.inr ⟨htakes, k, cut, hk ▸ hcut.found, hcutEq, ?_,
        fun i hi h6 h7 => ?_, fun h8 => ?_, fun i hi hlt => ?_⟩
      · -- the tag counts on both sides
        have hl := hcut.len
        cases hvlan : skb.vlanTag with
        | none =>
          rw [skb.untagged_of_none hvlan] at hl
          exact hl
        | some hdr =>
          rw [(skb.untagged_of_some hvlan).2] at hl
          change out.len + cut = skb.len - 4 at hl
          change out.len + 4 + cut = skb.len
          omega
      · rw [hout, hin]
        exact hcut.before _ (by omega) (by omega) (by omega)
      · obtain ⟨h0, h1⟩ := hcut.type h8
        rw [hout, hin, hout, hin, ← hk]
        refine ⟨h0, ?_⟩
        have hnext : skb.untagged.data + 12 + ((k + 1 : ℕ) : ℤ) = ptr + 1 := by
          push_cast
          omega
        rw [hnext]
        exact h1
      · rw [houtlen] at hlt
        rw [hout, hin, hcut.behind _ (by omega) (by omega)]
        congr 1
        push_cast
        omega

/-- A received frame that goes on has its VLAN tag, its source, its type and its payload, but for
the second address of the host and for the relay tag of PPPoE. -/
theorem keepsReceived (ipx : Bool) (s : RelayBridge) (w : RelayEnv) (skb : SkbBuf)
    (hlen : 14 ≤ skb.len) {out : SkbBuf}
    {t : RelayBridge} (h : s.nat25HandleFrame ipx w skb = some (0, out, t)) :
    s.KeepsReceived (s.HwAddrAt ipx skb.untagged) skb out := by
  unfold nat25HandleFrame at h
  by_cases hmcast : isMcast skb.dst = true
  · rw [if_pos hmcast] at h
    cases h
    exact ⟨rfl, rfl, Or.inl ⟨rfl, fun _ _ _ => rfl⟩⟩
  rw [if_neg hmcast] at h
  obtain ⟨⟨ret, frame, t'⟩, hframe, heq⟩ := Option.map_eq_some_iff.mp h
  obtain ⟨hret, hout⟩ := Prod.mk.inj heq
  cases hout
  have hne : ret ≠ -1 := by
    rintro rfl
    exact absurd hret (by decide)
  exact keepsReceived_of_looked hlen (looked_handleUntagged hframe hne)

end RelayBridge

/-- An ARP request for a host, to the address of the station, and with no target address. -/
def sampleArpRequest : SkbBuf where
  mem := Mem.write (fun _ => 0) 0
    ([0x02, 0, 0, 0, 0, 0x10, 0x02, 0, 0, 0, 0, 0x20, 0x08, 0x06] ++ [0, 1, 0x08, 0x00, 6, 4, 0, 1])
  data := 0
  len := 42
  tailroom := 0

theorem keepsReceived_sampleArpRequest : ∃ out t,
    sampleRelayBridge.nat25HandleFrame false (sampleRelayEnv .little) sampleArpRequest =
      some (0, out, t) ∧
      sampleRelayBridge.KeepsReceived (sampleRelayBridge.HwAddrAt false sampleArpRequest.untagged)
        sampleArpRequest
        out :=
  ⟨_, _, rfl, RelayBridge.keepsReceived false sampleRelayBridge (sampleRelayEnv .little)
    sampleArpRequest (by decide) rfl⟩

/-- The address of the station is written into the request. -/
theorem not_keepsReceived_sampleArpRequest :
    ¬∀ (ipx : Bool) (s : RelayBridge) (w : RelayEnv) (skb out : SkbBuf) (t : RelayBridge),
      14 ≤ skb.len →
      s.nat25HandleFrame ipx w skb = some (0, out, t) →
        s.KeepsReceived (fun _ => False) skb out := by
  intro h
  have hkeep := h false sampleRelayBridge
    (sampleRelayEnv .little) sampleArpRequest _ _ (by decide) rfl
  rcases hkeep.body with ⟨-, hbyte⟩ | ⟨⟨hp, -⟩, -⟩
  · have hfirst := hbyte 20 (by decide) fun _ hf => hf.elim
    revert hfirst
    decide
  · revert hp
    decide

end Rtl8188eu
