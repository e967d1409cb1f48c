import Rtl8188eu.BridgeExt
import Rtl8188eu.OnesComplement

/-!
# The checksums of rewritten packets

`dhcp_flag_bcast` sets the broadcast flag of a DHCP request and updates the UDP checksum.
`update_nd_link_layer_addr` writes the address of the station into an option of a
neighbour-discovery message, and `nat25_db_handle` computes the ICMPv6 checksum again.

The kernel adds up the words of a packet as the machine reads them, low byte first. The update of
the UDP checksum adds the flags in the other byte order, and the ICMPv6 checksum is computed over a
length with its bytes swapped.
-/

namespace Rtl8188eu

open OnesComplement

/-! ## Sums over memory -/

theorem wordSum_read_add (m : Mem) (p : ℤ) {a : ℕ} (ha : a % 2 = 0) (b : ℕ) :
    wordSum (m.read p (a + b)) = wordSum (m.read p a) + wordSum (m.read (p + a) b) := by
  rw [Mem.read_add, wordSum_append (by rwa [Mem.length_read])]

/-- Words are written over others. -/
theorem wordSum_write (m : Mem) (p : ℤ) (o n : ℕ) (bs : List UInt8) (ho : o % 2 = 0)
    (hbs : bs.length % 2 = 0)
    (hn : o + bs.length ≤ n) :
    wordSum ((m.write (p + o) bs).read p n) + wordSum (m.read (p + o) bs.length)
      = wordSum (m.read p n) + wordSum bs := by
  obtain ⟨rest, rfl⟩ : ∃ rest, n = o + (bs.length + rest) := ⟨n - o - bs.length, by omega⟩
  rw [wordSum_read_add _ _ ho, wordSum_read_add _ _ ho, wordSum_read_add _ _ hbs,
    wordSum_read_add _ _ hbs,
    Mem.read_write_of_disjoint m (Or.inl (by omega)), Mem.read_write_self,
    Mem.read_write_of_disjoint m (Or.inr (by omega))]
  omega

/-- A word, as the machine reads it. -/
theorem wordSum_read_two (m : Mem) (p : ℤ) : wordSum (m.read p 2) = m.le16 p := by
  simp only [Mem.read, wordSum, Mem.le16]
  omega

theorem wordSum_le16Bytes {n : ℕ} (h : n < 65536) : wordSum (le16Bytes n) = n := by
  simp only [le16Bytes, wordSum, UInt8.toNat_ofNat']
  omega

/-! ## DHCP requests -/

namespace Skb

/-- The UDP header, behind the options of the IP header. -/
def udph (skb : Skb) : ℤ := skb.data + 14 + (((skb.mem (skb.data + 14)).toNat &&& 0xf) * 4 : ℕ)

/-- The flags of a DHCP message. -/
def dhcpFlags (skb : Skb) : ℕ := skb.mem.be16 (skb.udph + 8 + 10)

/-- `DHCP_MAGIC`, as it stands in the message. -/
def dhcpMagic : List UInt8 := [0x63, 0x82, 0x53, 0x63]

/-- `dhcp_flag_bcast`, with `dhcp_bcst_disable`. The checksum is read and written as the machine
stores it. -/
def dhcpFlagBcast (bcstDisable : Bool) (skb : Skb) : Skb :=
  if !bcstDisable ∧ skb.protocol = ethPIp ∧ skb.mem (skb.data + 14 + 9) = 17 ∧ skb.mem.be16 skb.udph = 68 ∧
      skb.mem.be16 (skb.udph + 2) = 67 ∧ skb.mem.read (skb.udph + 8 + 236) 4 = dhcpMagic ∧
      ¬skb.dhcpFlags.testBit 15 then
    let m := skb.mem.write (skb.udph + 8 + 10) [skb.mem (skb.udph + 8 + 10) ||| 0x80, skb.mem (skb.udph + 8 + 11)]
    let sum := (65535 - m.le16 (skb.udph + 6)) + m.be16 (skb.udph + 8 + 10)
    { skb with mem := m.write (skb.udph + 6) (le16Bytes (65535 - foldSum sum)) }
  else skb

/-- The sum of the words that the UDP checksum is about : the pseudo header, and the datagram. -/
def udpSum (skb : Skb) : ℕ :=
  wordSum (skb.mem.read (skb.data + 14 + 12) 8 ++ [0, 17] ++ skb.mem.read (skb.udph + 4) 2) +
    wordSum (skb.mem.read skb.udph (skb.mem.be16 (skb.udph + 4)))

/-- The UDP checksum. -/
def udpCheck (skb : Skb) : ℕ := skb.mem.le16 (skb.udph + 6)

/-- A DHCP request. -/
structure IsDhcpRequest (skb : Skb) : Prop where
  ip : skb.protocol = ethPIp
  ihl : 5 ≤ (skb.mem (skb.data + 14)).toNat &&& 0xf
  udp : skb.mem (skb.data + 14 + 9) = 17
  client : skb.mem.be16 skb.udph = 68
  server : skb.mem.be16 (skb.udph + 2) = 67
  length : 8 + 240 ≤ skb.mem.be16 (skb.udph + 4)
  magic : skb.mem.read (skb.udph + 8 + 236) 4 = dhcpMagic

/-- The checksum is right behind `dhcp_flag_bcast`, and no checksum is left out. -/
def KeepsUdpCheck (bcstDisable : Bool) (skb : Skb) : Prop :=
  if skb.udpCheck = 0 then (skb.dhcpFlagBcast bcstDisable).udpCheck = 0
  else Valid (skb.dhcpFlagBcast bcstDisable).udpSum

variable {skb : Skb} {bcstDisable : Bool}

/-- The request is changed. -/
def Unflagged (bcstDisable : Bool) (skb : Skb) : Prop := bcstDisable = false ∧ skb.dhcpFlags.testBit 15 = false

theorem dhcpFlagBcast_of_not (h : ¬Unflagged bcstDisable skb) :
    skb.dhcpFlagBcast bcstDisable = skb := by
  refine if_neg fun hc => h ⟨?_, ?_⟩
  · simpa using hc.1
  · simpa using hc.2.2.2.2.2.2

/-- The high byte of the flags, without the broadcast flag. -/
theorem dhcpFlags_lt (h : skb.dhcpFlags.testBit 15 = false) :
    (skb.mem (skb.udph + 8 + 10)).toNat < 128 := by
  by_contra hge
  have hlt := (skb.mem (skb.udph + 8 + 10)).toNat_lt
  have hlt' := (skb.mem (skb.udph + 8 + 10 + 1)).toNat_lt
  have hbit : skb.dhcpFlags.testBit 15 = true := by
    rw [Nat.testBit_eq_decide_div_mod_eq, dhcpFlags, Mem.be16]
    simp only [decide_eq_true_eq]
    omega
  rw [hbit] at h
  simp at h

theorem toNat_or_flag {b : UInt8} (h : b.toNat < 128) : (b ||| 0x80).toNat = b.toNat + 128 := by
  have hor := Nat.two_pow_add_eq_or_of_lt (i := 7) h 1
  rw [UInt8.toNat_or, Nat.or_comm]
  exact hor.symm.trans (Nat.add_comm ..)

/-- What a change does to the sums : the flag adds 128 to the words, but the whole flags are added
to the checksum, with their bytes swapped. -/
theorem dhcpFlagBcast_sums (hdhcp : skb.IsDhcpRequest) (h : Unflagged bcstDisable skb) :
    ∃ F, 32768 ≤ F ∧ F ≤ 65535 ∧ F = skb.dhcpFlags + 32768 ∧
      (skb.dhcpFlagBcast bcstDisable).udpCheck = 65535 - foldSum ((65535 - skb.udpCheck) + F) ∧
      (skb.dhcpFlagBcast bcstDisable).udpSum + skb.udpCheck
        = skb.udpSum + 128 + (skb.dhcpFlagBcast bcstDisable).udpCheck := by
  obtain ⟨hip, hihl, hudp, hclient, hserver, hlength, hmagic⟩ := hdhcp
  have hb := dhcpFlags_lt h.2
  have hb1 := (skb.mem (skb.udph + 8 + 11)).toNat_lt
  have hu : skb.data + 34 ≤ skb.udph := by
    rw [udph]
    omega
  have hval := toNat_or_flag hb
  generalize hflagged : skb.mem.write (skb.udph + 8 + 10)
    [skb.mem (skb.udph + 8 + 10) ||| 0x80, skb.mem (skb.udph + 8 + 11)] = m
  generalize hsum : (65535 - m.le16 (skb.udph + 6)) + m.be16 (skb.udph + 8 + 10) = sum
  have hframe : skb.dhcpFlagBcast bcstDisable
      = { skb with mem := m.write (skb.udph + 6) (le16Bytes (65535 - foldSum sum)) } := by
    rw [← hsum, ← hflagged]
    exact if_pos ⟨by simp [h.1], hip, hudp, hclient, hserver, hmagic, by simp [h.2]⟩
  -- the flagged message
  have hend : skb.udph + 8 + 11 = skb.udph + 8 + 10 + 1 := by omega
  have hflags : m.read (skb.udph + 8 + 10) 2
      = [skb.mem (skb.udph + 8 + 10) ||| 0x80, skb.mem (skb.udph + 8 + 11)] := by
    rw [← hflagged]
    exact Mem.read_write_of_length _ _ rfl
  obtain ⟨hflag0, hflag1⟩ := List.cons_eq_cons.mp hflags
  obtain ⟨hflag1, -⟩ := List.cons_eq_cons.mp hflag1
  have hF : m.be16 (skb.udph + 8 + 10) = skb.dhcpFlags + 32768 := by
    rw [Mem.be16, hflag0, hflag1, hval, dhcpFlags, Mem.be16, hend]
    omega
  have hcheck : m.le16 (skb.udph + 6) = skb.udpCheck := by
    rw [← wordSum_read_two, ← hflagged, Mem.read_write_of_disjoint _ (Or.inl (by omega)),
      wordSum_read_two, udpCheck]
  have hle : 65535 - foldSum sum < 65536 := by omega
  have hbelow : ∀ a, a < skb.udph + 6 →
      (m.write (skb.udph + 6) (le16Bytes (65535 - foldSum sum))) a = skb.mem a := by
    intro a ha
    rw [Mem.write_of_disjoint _ (Or.inl ha), ← hflagged,
      Mem.write_of_disjoint _ (Or.inl (by omega))]
  generalize hm2 : m.write (skb.udph + 6) (le16Bytes (65535 - foldSum sum)) = m2 at hframe hbelow
  have hread : ∀ (p : ℤ) (n : ℕ), p + n ≤ skb.udph + 6 → m2.read p n = skb.mem.read p n :=
    fun p n hp => Mem.read_congr fun i hi => hbelow _ (by omega)
  have hudph : ({ skb with mem := m2 } : Skb).udph = skb.udph := by
    unfold udph
    dsimp only
    rw [hbelow (skb.data + 14) (by omega)]
  have hcheck' : ({ skb with mem := m2 } : Skb).udpCheck = 65535 - foldSum sum := by
    rw [udpCheck, hudph, ← wordSum_read_two]
    dsimp only
    rw [← hm2, Mem.read_write_of_length _ _ (n := 2) rfl, wordSum_le16Bytes hle]
  refine ⟨skb.dhcpFlags + 32768, by omega, ?_, rfl, ?_, ?_⟩
  · rw [dhcpFlags, Mem.be16, ← hend]
    omega
  · rw [hframe, hcheck', ← hsum, hcheck, hF]
  · rw [hframe, hcheck']
    have hlen : m2.be16 (skb.udph + 4) = skb.mem.be16 (skb.udph + 4) := by
      rw [Mem.be16, Mem.be16, hbelow _ (by omega), hbelow _ (by omega)]
    unfold udpSum
    rw [hudph]
    dsimp only
    rw [hlen, hread _ _ (by omega), hread _ _ (by omega)]
    generalize hn : skb.mem.be16 (skb.udph + 4) = n at hlength
    have h1 := wordSum_write skb.mem skb.udph 18 n
      [skb.mem (skb.udph + 8 + 10) ||| 0x80, skb.mem (skb.udph + 8 + 11)] rfl (by simp)
        (by simp; omega)
    have h2 := wordSum_write m skb.udph 6 n (le16Bytes (65535 - foldSum sum)) rfl
      (by simp [le16Bytes])
      (by simp [le16Bytes]; omega)
    have hat : skb.udph + ((18 : ℕ) : ℤ) = skb.udph + 8 + 10 := by omega
    have htwo : (le16Bytes (65535 - foldSum sum)).length = 2 := rfl
    rw [hat, hflagged, List.length_cons, List.length_singleton, wordSum_read_two, Mem.le16,
      ← hend] at h1
    simp only [wordSum] at h1
    rw [Nat.cast_ofNat, hm2, htwo, wordSum_read_two, hcheck, wordSum_le16Bytes hle] at h2
    omega

/-- The UDP checksum of a DHCP request is kept just in case the request is not changed, or has no
checksum, and all flags but the broadcast flag. -/
theorem keepsUdpCheck_iff (hdhcp : skb.IsDhcpRequest)
    (hcheck : skb.udpCheck = 0 ∨ Valid skb.udpSum) :
    KeepsUdpCheck bcstDisable skb ↔
      ¬Unflagged bcstDisable skb ∨ (skb.udpCheck = 0 ∧ skb.dhcpFlags = 0x7fff) := by
  by_cases h : Unflagged bcstDisable skb
  · obtain ⟨F, hge, hle, hF, hcheck', hsum⟩ := dhcpFlagBcast_sums hdhcp h
    have hfold := foldSum_eq ((65535 - skb.udpCheck) + F)
    rw [if_neg (by omega)] at hfold
    have hc : skb.udpCheck < 65536 := by
      have h0 := (skb.mem (skb.udph + 6)).toNat_lt
      have h1 := (skb.mem (skb.udph + 6 + 1)).toNat_lt
      rw [udpCheck, Mem.le16]
      omega
    unfold KeepsUdpCheck Valid
    split_ifs with hzero
    · refine ⟨fun hkeep => Or.inr ⟨hzero, ?_⟩, fun hcase => ?_⟩
      · rw [hkeep] at hcheck'
        omega
      · obtain ⟨-, hflags⟩ := hcase.resolve_left (not_not_intro h)
        rw [hcheck']
        omega
    · have hvalid : skb.udpSum % 65535 = 0 := hcheck.resolve_left hzero
      refine ⟨fun hkeep => ?_, fun hcase => absurd (hcase.resolve_left (not_not_intro h)).1 hzero⟩
      omega
  · refine ⟨fun _ => Or.inl h, fun _ => ?_⟩
    unfold KeepsUdpCheck
    rw [dhcpFlagBcast_of_not h]
    split_ifs with hzero
    · exact hzero
    · exact hcheck.resolve_left hzero

end Skb

/-! ## Neighbour discovery -/

/-- `scan_tlv`, or `none` if it is still going after `fuel` rounds. -/
def scanTlv (mem : Mem) (tag len8b : UInt8) : ℕ → ℤ → ℤ → Option (Option ℤ)
  | 0, _, _ => none
  | fuel + 1, data, len =>
    if len > 0 then
      if mem data = tag ∧ mem (data + 1) = len8b ∧ len ≥ (len8b.toNat * 8 : ℕ) then some (some (data + 2))
      else
        let step := (mem (data + 1)).toNat * 8
        scanTlv mem tag len8b fuel (data + step) (len - step)
    else some none

/-- Where the options of a neighbour-discovery message start, and the option to be rewritten, by its
type. -/
def ndOptions (icmp6Type : UInt8) : Option (ℕ × UInt8) :=
  if icmp6Type = 133 then some (8, 1)
  else if icmp6Type = 134 then some (16, 1)
  else if icmp6Type = 135 then some (24, 1)
  else if icmp6Type = 136 then some (24, 2)
  else if icmp6Type = 137 then some (40, 2)
  else none

/-- Where the address in the option of the message at `data` stands, if it has one. -/
def ndAddrAt (mem : Mem) (data len : ℤ) : Option (Option ℤ) :=
  match ndOptions (mem data) with
  | none => some none
  | some (off, tag) =>
    if len ≥ off then scanTlv mem tag 1 (len.toNat + 1) (data + off) (len - off) else some none

/-- `update_nd_link_layer_addr`. -/
def updateNdLinkLayerAddr (mem : Mem) (data len : ℤ) (replaceMac : MacAddr) : Option (Bool × Mem) :=
  (ndAddrAt mem data len).map fun
    | none => (false, mem)
    | some mac => (true, mem.write mac replaceMac.toList)

/-- The four bytes of `n`, high byte first. -/
def be32Bytes (n : ℕ) : List UInt8 := be16Bytes (n / 65536) ++ be16Bytes n

/-- `csum_ipv6_magic`. -/
def csumIpv6Magic (saddr daddr : List UInt8) (len proto sum : ℕ) : ℕ :=
  65535 - foldSum (wordSum saddr + wordSum daddr + wordSum (be32Bytes len) + wordSum (be32Bytes proto) + sum)

/-- `IPPROTO_ICMPV6`. -/
def ipprotoIcmpv6 : ℕ := 58

namespace Skb

/-- The message behind the IPv6 header. -/
def icmp6h (skb : Skb) : ℤ := skb.data + 14 + 40

/-- The length of the message. -/
def payloadLen (skb : Skb) : ℕ := skb.mem.be16 (skb.data + 14 + 4)

/-- `iph->payload_len`, as the machine reads it. -/
def rawPayloadLen (skb : Skb) : ℕ := skb.mem.le16 (skb.data + 14 + 4)

/-- The part of `nat25_db_handle` about neighbour discovery, for a frame that is sent. -/
def ndRewrite (mac : MacAddr) (skb : Skb) : Option Skb :=
  if skb.mem (skb.data + 14 + 6) = 58 ∧ skb.len > 14 + 40 + 4 then
    (updateNdLinkLayerAddr skb.mem skb.icmp6h (skb.len - 14 - 40) mac).map fun (replaced, mem) =>
      if replaced then
        let mem := mem.write (skb.icmp6h + 2) [0, 0]
        let len := mem.le16 (skb.data + 14 + 4)
        let cksum := csumIpv6Magic (mem.read (skb.data + 14 + 8) 16) (mem.read (skb.data + 14 + 24) 16) len
          ipprotoIcmpv6 (wordSum (mem.read skb.icmp6h len))
        { skb with mem := mem.write (skb.icmp6h + 2) (le16Bytes cksum) }
      else { skb with mem := mem }
  else some skb

/-- The sum of the words that the ICMPv6 checksum is about : the pseudo header, and the message. -/
def icmp6Sum (skb : Skb) : ℕ :=
  wordSum (skb.mem.read (skb.data + 14 + 8) 16) + wordSum (skb.mem.read (skb.data + 14 + 24) 16) +
    wordSum (be32Bytes skb.payloadLen) + wordSum (be32Bytes ipprotoIcmpv6) +
    wordSum (skb.mem.read skb.icmp6h skb.payloadLen)

/-- A neighbour-discovery message with a link-layer address at `q` that is replaced. -/
structure NdReplaced (skb : Skb) (q : ℤ) : Prop where
  icmp6 : skb.mem (skb.data + 14 + 6) = 58
  len : 14 + 40 + 4 < skb.len
  payload : 4 ≤ skb.payloadLen
  found : ndAddrAt skb.mem skb.icmp6h (skb.len - 14 - 40) = some (some q)

/-- The message with the address of the station at `q`, and without a checksum. -/
def withMac (skb : Skb) (q : ℤ) (mac : MacAddr) : Mem :=
  (skb.mem.write q mac.toList).write (skb.icmp6h + 2) [0, 0]

/-- The message that is sent has a right checksum. -/
def KeepsIcmp6Check (mac : MacAddr) (skb : Skb) : Prop :=
  ∃ skb', skb.ndRewrite mac = some skb' ∧ Valid skb'.icmp6Sum

end Skb

theorem le_scanTlv {mem : Mem} {tag len8b : UInt8} : ∀ {fuel : ℕ} {data len q : ℤ},
    scanTlv mem tag len8b fuel data len = some (some q) → data + 2 ≤ q
  | 0, _, _, _, h => by simp [scanTlv] at h
  | fuel + 1, data, len, q, h => by
    rw [scanTlv] at h
    split_ifs at h
    · obtain rfl := Option.some.inj (Option.some.inj h)
      exact le_rfl
    · have hle := le_scanTlv h
      omega
    · simp at h

/-- The address stands behind the first eight bytes of the message, and the head of its option. -/
theorem le_ndAddrAt {mem : Mem} {data len q : ℤ} (h : ndAddrAt mem data len = some (some q)) :
    data + 10 ≤ q := by
  unfold ndAddrAt at h
  split at h
  · simp at h
  · rename_i off tag hoff
    have h8 : 8 ≤ off := by
      unfold ndOptions at hoff
      split_ifs at hoff <;> (obtain ⟨rfl, -⟩ := Prod.mk.inj (Option.some.inj hoff); omega)
    split_ifs at h
    · have hle := le_scanTlv h
      omega
    · simp at h

theorem wordSum_be32Bytes {n : ℕ} (h : n < 65536) :
    wordSum (be32Bytes n) = n / 256 + 256 * (n % 256) := by
  simp only [be32Bytes, be16Bytes, List.cons_append, List.nil_append, wordSum, UInt8.toNat_ofNat']
  omega

namespace Skb

variable {skb : Skb} {q : ℤ} {mac : MacAddr}

/-- Nothing in front of the message is rewritten. -/
theorem withMac_below (hq : skb.icmp6h + 10 ≤ q) {a : ℤ} (ha : a < skb.icmp6h + 2) :
    skb.withMac q mac a = skb.mem a := by
  rw [withMac, Mem.write_of_disjoint _ (Or.inl ha), Mem.write_of_disjoint _ (Or.inl (by omega))]

/-- The two readings of the length have their bytes swapped. -/
theorem payloadLen_swap (skb : Skb) : skb.payloadLen < 65536 ∧ skb.rawPayloadLen < 65536 ∧
    wordSum (be32Bytes skb.payloadLen) = skb.rawPayloadLen ∧
    wordSum (be32Bytes skb.rawPayloadLen) = skb.payloadLen := by
  have h0 := (skb.mem (skb.data + 14 + 4)).toNat_lt
  have h1 := (skb.mem (skb.data + 14 + 4 + 1)).toNat_lt
  have hP : skb.payloadLen < 65536 := by
    rw [payloadLen, Mem.be16]
    omega
  have hL : skb.rawPayloadLen < 65536 := by
    rw [rawPayloadLen, Mem.le16]
    omega
  refine ⟨hP, hL, ?_, ?_⟩
  · rw [wordSum_be32Bytes hP, payloadLen, rawPayloadLen, Mem.be16, Mem.le16]
    omega
  · rw [wordSum_be32Bytes hL, payloadLen, rawPayloadLen, Mem.be16, Mem.le16]
    omega

/-- The message that is sent : the new address, and the checksum over the length with swapped
bytes. -/
theorem ndRewrite_eq (h : skb.NdReplaced q) : skb.ndRewrite mac = some { skb with
    mem := (skb.withMac q mac).write (skb.icmp6h + 2) (le16Bytes (csumIpv6Magic
      (skb.mem.read (skb.data + 14 + 8) 16) (skb.mem.read (skb.data + 14 + 24) 16) skb.rawPayloadLen
      ipprotoIcmpv6
      (wordSum ((skb.withMac q mac).read skb.icmp6h skb.rawPayloadLen)))) } := by
  have hq := le_ndAddrAt h.found
  have hbelow := fun a ha => @withMac_below skb q mac hq a ha
  have hicmp : skb.icmp6h = skb.data + 54 := by
    rw [icmp6h]
    omega
  have hread : ∀ (p : ℤ) (n : ℕ), p + n ≤ skb.data + 54 →
      (skb.withMac q mac).read p n = skb.mem.read p n :=
    fun p n hp => Mem.read_congr fun i hi => hbelow _ (by omega)
  have hlen : (skb.withMac q mac).le16 (skb.data + 14 + 4) = skb.rawPayloadLen := by
    rw [rawPayloadLen, ← wordSum_read_two, hread _ _ (by omega), wordSum_read_two]
  rw [ndRewrite, if_pos ⟨h.icmp6, h.len⟩, updateNdLinkLayerAddr, h.found]
  dsimp only [Option.map_some]
  rw [← withMac, hlen, hread _ _ (by omega), hread _ _ (by omega)]
  rfl

/-- The checksum of the message that is sent is right just in case the message has the same sum over
its length and over the length with swapped bytes. -/
theorem keepsIcmp6Check_iff (h : skb.NdReplaced q) : skb.KeepsIcmp6Check mac ↔
    (skb.rawPayloadLen + wordSum ((skb.withMac q mac).read skb.icmp6h skb.payloadLen)) % 65535
      = (skb.payloadLen + wordSum ((skb.withMac q mac).read skb.icmp6h skb.rawPayloadLen)) %
        65535 := by
  have hq := le_ndAddrAt h.found
  have hbelow := fun a ha => @withMac_below skb q mac hq a ha
  have hpayload := h.payload
  obtain ⟨-, -, hP, hL⟩ := skb.payloadLen_swap
  have hicmp : skb.icmp6h = skb.data + 54 := by
    rw [icmp6h]
    omega
  unfold KeepsIcmp6Check
  rw [ndRewrite_eq h]
  generalize hc : csumIpv6Magic (skb.mem.read (skb.data + 14 + 8) 16)
    (skb.mem.read (skb.data + 14 + 24) 16)
    skb.rawPayloadLen ipprotoIcmpv6
      (wordSum ((skb.withMac q mac).read skb.icmp6h skb.rawPayloadLen)) = c
  have hc16 : c < 65536 := by
    rw [← hc, csumIpv6Magic]
    omega
  -- the sum of the message with the checksum in it
  have hwrite := wordSum_write (skb.withMac q mac) skb.icmp6h 2 skb.payloadLen (le16Bytes c) rfl
    (by simp [le16Bytes])
    (by simp [le16Bytes]; omega)
  have hzero : (skb.withMac q mac).read (skb.icmp6h + 2) 2 = [0, 0] :=
    Mem.read_write_of_length _ _ rfl
  have htwo : (le16Bytes c).length = 2 := rfl
  rw [Nat.cast_ofNat, htwo, hzero, wordSum_le16Bytes hc16] at hwrite
  simp only [wordSum, UInt8.toNat_zero] at hwrite
  generalize hm : (skb.withMac q mac).write (skb.icmp6h + 2) (le16Bytes c) = m at hwrite
  have hsame : ∀ (p : ℤ) (n : ℕ), p + n ≤ skb.data + 54 → m.read p n = skb.mem.read p n := by
    intro p n hp
    refine Mem.read_congr fun i hi => ?_
    rw [← hm, Mem.write_of_disjoint _ (Or.inl (by omega)), hbelow _ (by omega)]
  have hlen : ({ skb with mem := m } : Skb).payloadLen = skb.payloadLen := by
    have hbytes := hsame (skb.data + 14 + 4) 2 (by omega)
    simp only [Mem.read, List.cons.injEq, and_true] at hbytes
    unfold payloadLen Mem.be16
    dsimp only
    rw [hbytes.1, hbytes.2]
  have hsum : ({ skb with mem := m } : Skb).icmp6Sum =
    (wordSum (skb.mem.read (skb.data + 14 + 8) 16) +
      wordSum (skb.mem.read (skb.data + 14 + 24) 16) + skb.rawPayloadLen + wordSum
      (be32Bytes ipprotoIcmpv6) +
        wordSum ((skb.withMac q mac).read skb.icmp6h skb.payloadLen)) + c := by
    unfold icmp6Sum
    rw [hlen, hP]
    dsimp only
    rw [hsame _ _ (by omega), hsame _ _ (by omega)]
    have hh : ({ skb with mem := m } : Skb).icmp6h = skb.icmp6h := rfl
    rw [hh]
    omega
  have hvalid : (∃ skb', some ({ skb with mem := m } : Skb) = some skb' ∧ Valid skb'.icmp6Sum) ↔
      Valid ({ skb with mem := m } : Skb).icmp6Sum := by
    constructor
    · rintro ⟨skb', hskb, hv⟩
      rwa [Option.some.inj hskb]
    · exact fun hv => ⟨_, rfl, hv⟩
  rw [hvalid, hsum, ← hc, csumIpv6Magic, hL, valid_add_complement]
  omega

end Skb

/-! ## Both checksums -/

/-- Which requests and which messages keep a right checksum. -/
theorem checksums_kept (bcstDisable : Bool) (mac : MacAddr) (skb : Skb) (q : ℤ) :
    (skb.IsDhcpRequest → (skb.udpCheck = 0 ∨ Valid skb.udpSum) →
      (skb.KeepsUdpCheck bcstDisable ↔
        ¬skb.Unflagged bcstDisable ∨ (skb.udpCheck = 0 ∧ skb.dhcpFlags = 0x7fff))) ∧
    (skb.NdReplaced q → Valid skb.icmp6Sum →
      (skb.KeepsIcmp6Check mac ↔
        (skb.rawPayloadLen + wordSum ((skb.withMac q mac).read skb.icmp6h skb.payloadLen)) % 65535
          = (skb.payloadLen + wordSum ((skb.withMac q mac).read skb.icmp6h skb.rawPayloadLen)) % 65535)) :=
  ⟨fun hdhcp hcheck => Skb.keepsUdpCheck_iff hdhcp hcheck, fun hnd _ => Skb.keepsIcmp6Check_iff hnd⟩

/-- A DHCP request without flags. -/
def sampleDhcp : Skb where
  mem := (Mem.write (fun _ => 0) 0 ([255, 255, 255, 255, 255, 255, 2, 0, 0, 0, 0, 3, 0x08, 0x00]
    ++ [0x45, 0, 1, 12, 0, 0, 0, 0, 64, 17, 0, 0, 0, 0, 0, 0, 255, 255, 255, 255]
    ++ [0, 68, 0, 67, 0, 248, 0x3f, 0x91, 1, 1, 6])).write 278 Skb.dhcpMagic
  data := 0
  len := 282

/-- A neighbour solicitation with the link-layer address of the sender. -/
def sampleNd : Skb where
  mem := Mem.write (fun _ => 0) 0 ([0x33, 0x33, 0xff, 0, 0, 1, 2, 0, 0, 0, 0, 3, 0x86, 0xdd]
    ++ [0x60, 0, 0, 0, 0, 32, 58, 255] ++ [0xfe, 0x80, 0, 0, 0, 0, 0, 0, 0, 0, 0, 0, 0, 0, 0, 1]
    ++ [0xff, 0x02, 0, 0, 0, 0, 0, 0, 0, 0, 0, 0, 0, 0, 0, 1]
    ++ [135, 0, 0x78, 0x1b, 0, 0, 0, 0] ++ List.replicate 16 0 ++ [1, 1, 2, 0, 0, 0, 0, 3])
  data := 0
  len := 86

theorem isDhcpRequest_sampleDhcp : sampleDhcp.IsDhcpRequest := by
  constructor <;> decide +kernel

theorem ndReplaced_sampleNd : sampleNd.NdReplaced 80 := by
  constructor <;> decide +kernel

theorem valid_sampleDhcp : Valid sampleDhcp.udpSum := by
  rw [Valid]
  decide +kernel

theorem valid_sampleNd : Valid sampleNd.icmp6Sum := by
  rw [Valid]
  decide +kernel

theorem checksums_kept_sample :
    (sampleDhcp.KeepsUdpCheck true ↔
      ¬sampleDhcp.Unflagged true ∨ (sampleDhcp.udpCheck = 0 ∧ sampleDhcp.dhcpFlags = 0x7fff)) ∧
    (sampleNd.KeepsIcmp6Check zeroAddr ↔
      (sampleNd.rawPayloadLen + wordSum ((sampleNd.withMac 80 zeroAddr).read sampleNd.icmp6h sampleNd.payloadLen))
          % 65535
        = (sampleNd.payloadLen + wordSum ((sampleNd.withMac 80 zeroAddr).read sampleNd.icmp6h sampleNd.rawPayloadLen))
          % 65535) :=
  ⟨(checksums_kept true zeroAddr sampleDhcp 0).1 isDhcpRequest_sampleDhcp (Or.inr valid_sampleDhcp),
    (checksums_kept true zeroAddr sampleNd 80).2 ndReplaced_sampleNd valid_sampleNd⟩

/-- Behind the message there are zeros, so the other length changes the pseudo header only. -/
theorem wordSum_sampleNd (mac : MacAddr) : wordSum ((sampleNd.withMac 80 mac).read 54 8192)
    = wordSum ((sampleNd.withMac 80 mac).read 54 32) := by
  have hsplit := wordSum_read_add (sampleNd.withMac 80 mac) 54 (a := 32) rfl 8160
  have hbehind : ∀ a : ℤ, 86 ≤ a → sampleNd.withMac 80 mac a = 0 := by
    intro a ha
    rw [Skb.withMac, Mem.write_of_disjoint _ (Or.inr ?_), Mem.write_of_disjoint _ (Or.inr ?_)]
    · unfold sampleNd
      dsimp only
      rw [Mem.write_of_disjoint _ (Or.inr (le_trans ?_ ha))]
      decide
    · rw [Vector.length_toList]
      exact ha
    · exact le_trans (by decide) ha
  have hzero : wordSum ((sampleNd.withMac 80 mac).read (54 + (32 : ℕ)) 8160) = 0 := by
    refine wordSum_zeros fun b hb => ?_
    obtain ⟨i, hi, rfl⟩ := List.mem_iff_getElem.mp hb
    rw [Mem.getElem_read]
    exact hbehind _ (by omega)
  exact hsplit.trans (by rw [hzero, Nat.add_zero])

/-- Neither of the two keeps its checksum. -/
theorem not_checksums_kept_sample :
    (sampleDhcp.IsDhcpRequest ∧ Valid sampleDhcp.udpSum ∧ ¬sampleDhcp.KeepsUdpCheck false) ∧
      sampleNd.NdReplaced 80 ∧ Valid sampleNd.icmp6Sum ∧ ¬sampleNd.KeepsIcmp6Check #v[2, 0, 0, 0, 0, 2] := by
  refine ⟨⟨isDhcpRequest_sampleDhcp, valid_sampleDhcp, fun h => ?_⟩, ndReplaced_sampleNd,
    valid_sampleNd, fun h => ?_⟩
  · rw [Skb.keepsUdpCheck_iff isDhcpRequest_sampleDhcp (Or.inr valid_sampleDhcp),
      Skb.Unflagged] at h
    revert h
    decide +kernel
  · have hlen : sampleNd.payloadLen = 32 ∧ sampleNd.rawPayloadLen = 8192 := by decide +kernel
    have hicmp : sampleNd.icmp6h = 54 := rfl
    rw [Skb.keepsIcmp6Check_iff ndReplaced_sampleNd, hlen.1, hlen.2, hicmp, wordSum_sampleNd] at h
    omega

end Rtl8188eu
