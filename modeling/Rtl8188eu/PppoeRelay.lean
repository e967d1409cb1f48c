import Rtl8188eu.BridgeChecksums
import Rtl8188eu.BridgeLearning

/-!
# The relay tag of PPPoE discovery

A bridged host that looks for a PPPoE server sends PADI and PADR frames, and `nat25_db_handle` puts
the address of the host into a Relay-Session-Id tag, before the value of such a tag that the frame
has already. The server sends the tag back in PADO and PADS frames, and `nat25_db_handle` takes the
address out of it again.

`__nat25_add_pppoe_tag` takes the length of the tag as the machine reads it, while it is stored high
byte first. On a little-endian machine a tag with a value of `n` bytes is taken for one of `256 * n`
bytes, and bytes of the stack behind the tag are sent too. `relayRoundTrip_iff` says when host and
server see the tags they should see.
-/

namespace Rtl8188eu

/-! ## The functions of the source -/

/-- The order of the bytes of a machine word. -/
inductive ByteOrder where
  | little
  | big
deriving DecidableEq

/-- The 16-bit value at `p`, as the machine reads it. -/
def ByteOrder.load16 : ByteOrder → Mem → ℤ → ℕ
  | .little, m, p => m.le16 p
  | .big, m, p => m.be16 p

/-- `TAG_HDR_LEN`. -/
def tagHdrLen : ℕ := 4
/-- `MAGIC_CODE_LEN`. -/
def magicCodeLen : ℕ := 2
/-- `RTL_RELAY_TAG_LEN`. -/
def rtlRelayTagLen : ℕ := 6
/-- `MAGIC_CODE`. -/
def magicCode : ℕ := 0x8186
/-- `PTT_RELAY_SID`, in the order of the host. -/
def pttRelaySid : ℕ := 0x0110
/-- `WAIT_TIME_PPPOE`. -/
def waitTimePppoe : ℕ := 5
/-- The size of `tag_buf`. -/
def tagBufSize : ℕ := 40

/-- `PADI_CODE`. -/
def padiCode : UInt8 := 0x09
/-- `PADO_CODE`. -/
def padoCode : UInt8 := 0x07
/-- `PADR_CODE`. -/
def padrCode : UInt8 := 0x19
/-- `PADS_CODE`. -/
def padsCode : UInt8 := 0x65

/-- The loop of `__nat25_find_pppoe_tag` with `len` bytes of tags from `cur` on. A round takes four
bytes at least, so there are at most `len` of them. -/
def findTagLoop (m : Mem) (type : ℕ) : ℕ → ℤ → ℤ → Option ℤ
  | 0, _, _ => none
  | fuel + 1, cur, len =>
    if 0 < len then
      if m.be16 cur = type then some cur
      else
        let step := tagHdrLen + m.be16 (cur + 2)
        findTagLoop m type fuel (cur + step) (len - step)
    else none

/-- A frame of the network stack with the room behind it. -/
structure SkbBuf extends Skb where
  tailroom : ℕ

namespace SkbBuf

/-- `ph->code`. -/
def pppoeCode (skb : SkbBuf) : UInt8 := skb.mem (skb.data + 14 + 1)
/-- `ph->sid`. -/
def pppoeSid (skb : SkbBuf) : ℕ := skb.mem.be16 (skb.data + 14 + 2)
/-- `ph->length`, in the order of the host. -/
def pppoeLength (skb : SkbBuf) : ℕ := skb.mem.be16 (skb.data + 14 + 4)
/-- `ph->tag`. -/
def pppoeTag (skb : SkbBuf) : ℤ := skb.data + 14 + 6

/-- `ph->length = htons(n)`. -/
def setPppoeLength (skb : SkbBuf) (n : ℤ) : SkbBuf :=
  { skb with mem := skb.mem.write (skb.data + 14 + 4) (be16Bytes (n % 65536).toNat) }

/-- `__nat25_find_pppoe_tag`. -/
def findPppoeTag (skb : SkbBuf) (type : ℕ) : Option ℤ :=
  findTagLoop skb.mem type skb.pppoeLength skb.pppoeTag skb.pppoeLength

/-- `skb_pull_and_merge`, if it does not return -1. -/
def pullAndMerge (skb : SkbBuf) (src : ℤ) (len : ℕ) : Option SkbBuf :=
  if skb.data + skb.len < src + len ∨ skb.len < len then none
  else
    let tailLen := (skb.data + skb.len - (src + len)).toNat
    some { skb with
      mem := skb.mem.write src (skb.mem.read (src + len) tailLen)
      len := skb.len - len
      tailroom := skb.tailroom + len }

/-- `__nat25_add_pppoe_tag`, if it does not return -1. The tag stands at 0 in its own memory. -/
def addPppoeTag (order : ByteOrder) (skb : SkbBuf) (tag : Mem) : Option SkbBuf :=
  let dataLen := order.load16 tag 2 + tagHdrLen
  if skb.tailroom < dataLen then none
  else
    let length := skb.pppoeLength
    let skb := { skb with
      mem := skb.mem.write (skb.pppoeTag + dataLen) (skb.mem.read skb.pppoeTag length)
      len := skb.len + dataLen
      tailroom := skb.tailroom - dataLen }
    let skb := skb.setPppoeLength (skb.pppoeLength + dataLen)
    some { skb with mem := skb.mem.write skb.pppoeTag (tag.read 0 dataLen) }

/-- The value of a relay tag of the frame is copied, and the tag is deleted. There is no result
where `nat25_db_handle` returns -1. -/
def takeRelayTag (skb : SkbBuf) : Option (List UInt8 × SkbBuf) :=
  match skb.findPppoeTag pttRelaySid with
  | none => some ([], skb)
  | some old =>
    let oldTagLen := skb.mem.be16 (old + 2)
    if oldTagLen + tagHdrLen + magicCodeLen + rtlRelayTagLen > tagBufSize then none
    else
      (skb.pullAndMerge old (tagHdrLen + oldTagLen)).map fun merged =>
        (skb.mem.read (old + 4) oldTagLen,
          merged.setPppoeLength ((merged.pppoeLength : ℤ) - tagHdrLen - oldTagLen))

/-- `tag_buf` with the new tag, and what is on the stack behind it. -/
def relayTagBuf (stack : Mem) (mac : MacAddr) (old : List UInt8) : Mem :=
  stack.write 0 (be16Bytes pttRelaySid ++ be16Bytes (magicCodeLen + rtlRelayTagLen + old.length) ++
    be16Bytes magicCode ++ mac.toList ++ old)

/-- The relay tag goes into a frame of a host. -/
def insertRelayTag (order : ByteOrder) (stack : Mem) (skb : SkbBuf) : ℤ × SkbBuf :=
  match skb.takeRelayTag with
  | none => (-1, skb)
  | some (old, merged) =>
    match merged.addPppoeTag order (relayTagBuf stack merged.src old) with
    | none => (-1, merged)
    | some sent => (0, sent)

/-- The relay tag comes out of a frame of the server. -/
def lookupRelayTag (skb : SkbBuf) : ℤ × SkbBuf :=
  match skb.findPppoeTag pttRelaySid with
  | none => (-1, skb)
  | some ptr =>
    let tagLen := skb.mem.be16 (ptr + 2)
    if tagLen < magicCodeLen + rtlRelayTagLen then (-1, skb)
    else if skb.mem.be16 (ptr + 4) ≠ magicCode then (-1, skb)
    else
      let skb := { skb with toSkb := skb.toSkb.setDst (macAt skb.mem (ptr + 4 + magicCodeLen)) }
      let offset := if tagLen > magicCodeLen + rtlRelayTagLen then tagHdrLen else 0
      let cut := tagHdrLen + magicCodeLen + rtlRelayTagLen - offset
      match skb.pullAndMerge (ptr + offset) cut with
      | none => (-1, skb)
      | some skb =>
        let skb := skb.setPppoeLength ((skb.pppoeLength : ℤ) - cut)
        if 0 < offset then
          (0, { skb with
            mem := skb.mem.write (ptr + 2) (be16Bytes (tagLen - magicCodeLen - rtlRelayTagLen)) })
        else (0, skb)

end SkbBuf

/-- The adapter, with what it keeps about PPPoE connections and DHCP. -/
structure RelayBridge extends Bridge where
  /-- `ethBrExtInfo.addPPPoETag`. -/
  addPPPoETag : Bool
  /-- `pppoe_connection_in_progress`, in seconds. -/
  pppoeConnectionInProgress : ℕ
  pppoeAddr : MacAddr
  /-- `ethBrExtInfo.dhcp_bcst_disable`. -/
  dhcpBcstDisable : Bool

/-- What the machine and the rest of the system do while a frame is handled. -/
structure RelayEnv extends BridgeEnv where
  order : ByteOrder
  /-- What is on the stack at `tag_buf`. -/
  stack : Mem

namespace RelayBridge

/-- The part of `nat25_db_handle` about PPPoE frames of the discovery phase that hosts send. -/
def insertDiscovery (s : RelayBridge) (w : RelayEnv) (skb : SkbBuf) : ℤ × SkbBuf × RelayBridge :=
  if skb.pppoeCode = padiCode ∨ skb.pppoeCode = padrCode then
    if s.addPPPoETag then
      let (ret, skb) := skb.insertRelayTag w.order w.stack
      (ret, skb, s)
    else if s.pppoeConnectionInProgress ≠ 0 ∧ skb.src ≠ s.pppoeAddr then (-2, skb, s)
    else
      let s := if s.pppoeConnectionInProgress = 0 then { s with pppoeAddr := skb.src } else s
      (0, skb, { s with pppoeConnectionInProgress := waitTimePppoe })
  else (-1, skb, s)

/-- The part of `nat25_db_handle` about PADO and PADS frames of the server. -/
def lookupDiscovery (s : RelayBridge) (skb : SkbBuf) : ℤ × SkbBuf × RelayBridge :=
  if s.addPPPoETag then
    let (ret, skb) := skb.lookupRelayTag
    (ret, skb, s)
  else if s.pppoeConnectionInProgress = 0 then (-1, skb, s)
  else
    (0, { skb with toSkb := skb.toSkb.setDst s.pppoeAddr },
      { s with pppoeConnectionInProgress := waitTimePppoe })

/-- The part of `nat25_db_handle` about PPPoE frames. The session phase uses the database. -/
def handlePppoe (s : RelayBridge) (w : RelayEnv) (skb : SkbBuf) (method : Nat25Method) :
    Option (ℤ × SkbBuf × RelayBridge) :=
  if method = .insert ∧ skb.pppoeSid = 0 then some (s.insertDiscovery w skb)
  else if method = .lookup ∧ (skb.pppoeCode = padoCode ∨ skb.pppoeCode = padsCode) then
    some (s.lookupDiscovery skb)
  else
    (s.toBridge.handlePppoe w.toBridgeEnv skb.toSkb method).map fun (ret, frame, b) =>
      -- the connection of a host that comes to its session phase is no longer in progress
      let s' := { s with toBridge := b }
      let s' :=
        if method = .insert ∧ !s.addPPPoETag ∧ s.pppoeConnectionInProgress ≠ 0 ∧ skb.src = s.pppoeAddr then
          { s' with pppoeConnectionInProgress := 0 }
        else s'
      (ret, { skb with toSkb := frame }, s')

/-- `nat25_db_handle`, with the discovery phase of PPPoE and with neighbour discovery. -/
def nat25DbHandle (s : RelayBridge) (w : RelayEnv) (skb : SkbBuf) (method : Nat25Method) :
    Option (ℤ × SkbBuf × RelayBridge) :=
  if skb.protocol = ethPPppDisc ∨ skb.protocol = ethPPppSes then s.handlePppoe w skb method
  else
    (s.toBridge.nat25DbHandle w.toBridgeEnv skb.toSkb method).bind fun (ret, frame, b) =>
      let s := { s with toBridge := b }
      if skb.protocol = ethPIpv6 ∧ method = .insert ∧ 14 + 40 < skb.len ∧
          skb.mem.read (skb.data + 14 + 8) 16 ≠ List.replicate 16 0 then
        (frame.ndRewrite s.macAddr).map fun frame => (ret, { skb with toSkb := frame }, s)
      else some (ret, { skb with toSkb := frame }, s)

end RelayBridge

/-! ## Lists of tags -/

/-- A tag of a PPPoE frame. Type and length have two bytes. -/
structure PppoeTag where
  type : ℕ
  value : List UInt8
  type_lt : type < 65536
  length_lt : value.length < 65536

namespace PppoeTag

def bytes (t : PppoeTag) : List UInt8 := be16Bytes t.type ++ be16Bytes t.value.length ++ t.value

@[simp] theorem length_bytes (t : PppoeTag) : t.bytes.length = 4 + t.value.length := by
  simp [bytes, be16Bytes]
  omega

/-- The tag is a Relay-Session-Id. -/
def isRelay (t : PppoeTag) : Bool := t.type = pttRelaySid

end PppoeTag

/-- The tags, one after another. -/
def tagBytes (tags : List PppoeTag) : List UInt8 := tags.flatMap PppoeTag.bytes

@[simp] theorem tagBytes_nil : tagBytes [] = [] := rfl

@[simp] theorem tagBytes_cons (t : PppoeTag) (ts : List PppoeTag) :
    tagBytes (t :: ts) = t.bytes ++ tagBytes ts := List.flatMap_cons

@[simp] theorem tagBytes_append (as bs : List PppoeTag) :
    tagBytes (as ++ bs) = tagBytes as ++ tagBytes bs := List.flatMap_append

/-- What a memory that holds a tag says about it. -/
theorem PppoeTag.fields_of_holds {t : PppoeTag} {m : Mem} {p : ℤ} {rest : List UInt8}
    (h : m.Holds p (t.bytes ++ rest)) :
    m.be16 p = t.type ∧ m.be16 (p + 2) = t.value.length ∧ m.Holds (p + 4) t.value ∧
      m.Holds (p + (4 + t.value.length : ℕ)) rest := by
  have hrest := (Mem.holds_append.mp h).2
  rw [t.length_bytes] at hrest
  rw [bytes, List.append_assoc, List.append_assoc] at h
  have htype := Mem.be16_of_holds t.type_lt h
  have hlen := (Mem.holds_append.mp h).2
  have hvalue := (Mem.holds_append.mp (Mem.holds_append.mp hlen).2).1
  refine ⟨htype, Mem.be16_of_holds t.length_lt hlen, ?_, hrest⟩
  have hp : p + ((be16Bytes t.type).length : ℤ) + ((be16Bytes t.value.length).length : ℤ) =
    p + 4 := by
    simp only [be16Bytes, List.length_cons, List.length_nil]
    omega
  rw [hp] at hvalue
  exact hvalue

/-- The loop passes the tags of other types. -/
theorem findTagLoop_none {m : Mem} {type : ℕ} : ∀ {tags : List PppoeTag} {p : ℤ} {fuel : ℕ},
    m.Holds p (tagBytes tags) → (∀ t ∈ tags, t.type ≠ type) →
      findTagLoop m type fuel p (tagBytes tags).length = none
  | tags, p, 0, _, _ => rfl
  | [], p, fuel + 1, _, _ => if_neg (by simp)
  | t :: ts, p, fuel + 1, h, hno => by
    rw [tagBytes_cons] at h
    obtain ⟨htype, hlen, -, hrest⟩ := PppoeTag.fields_of_holds h
    rw [findTagLoop, tagBytes_cons, List.length_append, t.length_bytes, if_pos (by omega), htype,
      if_neg (hno t List.mem_cons_self)]
    dsimp only
    rw [hlen]
    have hstep : ((4 + t.value.length + (tagBytes ts).length : ℕ) : ℤ)
      - ((tagHdrLen + t.value.length : ℕ) : ℤ)
        = ((tagBytes ts).length : ℤ) := by
      unfold tagHdrLen
      omega
    rw [hstep]
    exact findTagLoop_none hrest fun t' ht' => hno t' (List.mem_cons_of_mem _ ht')

/-- The loop finds the first tag of its type. -/
theorem findTagLoop_some {m : Mem} {type : ℕ} {t : PppoeTag} {post : List PppoeTag}
    (ht : t.type = type) :
    ∀ {pre : List PppoeTag} {p : ℤ} {fuel : ℕ}, m.Holds p (tagBytes (pre ++ t :: post)) →
      (∀ u ∈ pre, u.type ≠ type) → (tagBytes (pre ++ t :: post)).length ≤ fuel →
      findTagLoop m type fuel p (tagBytes (pre ++ t :: post)).length =
        some (p + (tagBytes pre).length)
  | pre, p, 0, _, _, hfuel => by
    rw [tagBytes_append, tagBytes_cons, List.length_append, List.length_append,
      t.length_bytes] at hfuel
    omega
  | [], p, fuel + 1, h, _, _ => by
    rw [List.nil_append, tagBytes_cons] at h
    obtain ⟨htype, -, -, -⟩ := PppoeTag.fields_of_holds h
    rw [findTagLoop, List.nil_append, tagBytes_cons, List.length_append, t.length_bytes,
      if_pos (by omega),
      htype, if_pos ht]
    simp
  | u :: us, p, fuel + 1, h, hno, hfuel => by
    rw [List.cons_append, tagBytes_cons] at h hfuel
    obtain ⟨htype, hlen, -, hrest⟩ := PppoeTag.fields_of_holds h
    rw [List.length_append, u.length_bytes] at hfuel
    rw [findTagLoop, List.cons_append, tagBytes_cons, List.length_append, u.length_bytes,
      if_pos (by omega), htype,
      if_neg (hno u List.mem_cons_self)]
    dsimp only
    rw [hlen]
    have hstep : ((4 + u.value.length + (tagBytes (us ++ t :: post)).length : ℕ) : ℤ)
        - ((tagHdrLen + u.value.length : ℕ) : ℤ) = ((tagBytes (us ++ t :: post)).length : ℤ) := by
      unfold tagHdrLen
      omega
    have hrest : m.Holds (p + (tagHdrLen + u.value.length : ℕ)) (tagBytes (us ++ t :: post)) :=
      hrest
    rw [hstep, findTagLoop_some ht hrest (fun t' ht' => hno t' (List.mem_cons_of_mem _ ht'))
      (by omega)]
    rw [tagBytes_cons, List.length_append, u.length_bytes]
    unfold tagHdrLen
    congr 1
    omega

namespace SkbBuf

/-- The frame has these tags, and its length field counts their bytes. -/
structure Carries (skb : SkbBuf) (tags : List PppoeTag) : Prop where
  length : skb.pppoeLength = (tagBytes tags).length
  holds : skb.mem.Holds skb.pppoeTag (tagBytes tags)
  inside : 20 + (tagBytes tags).length ≤ skb.len

theorem Carries.find_none {skb : SkbBuf} {tags : List PppoeTag} (h : skb.Carries tags)
    (hno : ∀ t ∈ tags, t.isRelay = false) : skb.findPppoeTag pttRelaySid = none := by
  unfold findPppoeTag
  rw [h.length]
  exact findTagLoop_none h.holds fun t ht => of_decide_eq_false (hno t ht)

theorem Carries.find_some {skb : SkbBuf} {pre post : List PppoeTag} {t : PppoeTag}
    (h : skb.Carries (pre ++ t :: post)) (ht : t.isRelay = true)
    (hno : ∀ u ∈ pre, u.isRelay = false) :
    skb.findPppoeTag pttRelaySid = some (skb.pppoeTag + (tagBytes pre).length) := by
  unfold findPppoeTag
  rw [h.length]
  exact findTagLoop_some (of_decide_eq_true ht) h.holds
    (fun u hu => of_decide_eq_false (hno u hu)) le_rfl

end SkbBuf

/-! ## Bytes cut out and put in -/

theorem be16_congr {m m' : Mem} {p : ℤ} (h : m p = m' p) (h' : m (p + 1) = m' (p + 1)) :
    m.be16 p = m'.be16 p := by
  rw [Mem.be16, Mem.be16, h, h']

theorem be16_write_of_disjoint (m : Mem) {p q : ℤ} {bs : List UInt8}
    (h : q + 2 ≤ p ∨ p + bs.length ≤ q) :
    (m.write p bs).be16 q = m.be16 q :=
  be16_congr (Mem.write_of_disjoint m (by omega)) (Mem.write_of_disjoint m (by omega))

theorem be16_write_be16Bytes (m : Mem) (p : ℤ) (n : ℕ) :
    (m.write p (be16Bytes n)).be16 p = n % 65536 := by
  have h := Mem.read_write_self m p (be16Bytes n)
  have hh : (m.write p (be16Bytes n)).Holds p (be16Bytes n) := h
  rw [be16Bytes, Mem.holds_cons, Mem.holds_cons] at hh
  rw [Mem.be16, be16Bytes, hh.1, hh.2.1, UInt8.toNat_ofNat', UInt8.toNat_ofNat']
  omega

theorem macAt_congr {m m' : Mem} {p : ℤ} (h : ∀ i : ℕ, i < 6 → m (p + i) = m' (p + i)) :
    macAt m p = macAt m' p := by
  unfold macAt
  congr 1
  funext i
  exact h i i.isLt

theorem macAt_write_of_disjoint (m : Mem) {p q : ℤ} {bs : List UInt8}
    (h : q + 6 ≤ p ∨ p + bs.length ≤ q) :
    macAt (m.write p bs) q = macAt m q :=
  macAt_congr fun _ _ => Mem.write_of_disjoint m (by omega)

/-- The bytes `bs` are cut out of a string that is followed by others. -/
theorem holds_cut {m : Mem} {p : ℤ} {as bs cs : List UInt8} {n : ℕ}
    (h : m.Holds p (as ++ (bs ++ cs)))
    (hn : cs.length ≤ n) :
    (m.write (p + as.length) (m.read (p + as.length + bs.length) n)).Holds p (as ++ cs) := by
  obtain ⟨ha, hbc⟩ := Mem.holds_append.mp h
  obtain ⟨-, hc⟩ := Mem.holds_append.mp hbc
  refine Mem.holds_append.mpr ⟨?_, ?_⟩
  · refine (Mem.read_write_of_disjoint m (Or.inl le_rfl)).trans ha
  · obtain ⟨k, rfl⟩ := Nat.exists_eq_add_of_le hn
    have hself := Mem.read_write_of_length m (p + as.length)
      (m.length_read (cs.length + k) (p + as.length + bs.length))
    rw [Mem.read_add, Mem.read_add] at hself
    have hleft := (List.append_inj_left hself (by simp)).trans hc
    rw [← Mem.read_add] at hleft
    exact hleft

/-- Bytes in the middle of a string are written over. -/
theorem holds_overwrite {m : Mem} {p q : ℤ} {as bs bs' cs : List UInt8}
    (h : m.Holds p (as ++ (bs ++ cs)))
    (hlen : bs'.length = bs.length) (hq : q = p + as.length) : (m.write q bs').Holds p
    (as ++ (bs' ++ cs)) := by
  subst hq
  obtain ⟨ha, hbc⟩ := Mem.holds_append.mp h
  obtain ⟨-, hc⟩ := Mem.holds_append.mp hbc
  refine Mem.holds_append.mpr ⟨?_, Mem.holds_append.mpr ⟨Mem.read_write_self _ _ _, ?_⟩⟩
  · exact (Mem.read_write_of_disjoint m (Or.inl le_rfl)).trans ha
  · rw [← hlen] at hc
    exact (Mem.read_write_of_disjoint m (Or.inr le_rfl)).trans hc

namespace SkbBuf

theorem pppoeLength_lt (skb : SkbBuf) : skb.pppoeLength < 65536 := by
  have h1 := (skb.mem (skb.data + 14 + 4)).toNat_lt
  have h2 := (skb.mem (skb.data + 14 + 4 + 1)).toNat_lt
  unfold pppoeLength Mem.be16
  omega

theorem pppoeTag_eq (skb : SkbBuf) : skb.pppoeTag = skb.data + 20 := by
  unfold pppoeTag
  ring

/-- `skb_pull_and_merge` inside of the tags, and the change of the length field after it. -/
theorem pullAndMerge_spec {skb : SkbBuf} {as bs cs : List UInt8} {src : ℤ} {n : ℕ}
    (h : skb.mem.Holds skb.pppoeTag (as ++ (bs ++ cs)))
    (hlength : skb.pppoeLength = as.length + (bs.length + cs.length))
    (hin : 20 + (as.length + (bs.length + cs.length)) ≤ skb.len)
    (hsrc : src = skb.pppoeTag + as.length) (hn : n = bs.length) :
    ∃ merged, skb.pullAndMerge src n = some merged ∧
      ∃ out, merged.setPppoeLength ((merged.pppoeLength : ℤ) - n) = out ∧ out.data = skb.data ∧
        out.len = skb.len - n ∧ out.tailroom = skb.tailroom + n ∧
          out.pppoeLength = as.length + cs.length ∧
        out.mem.Holds out.pppoeTag (as ++ cs) ∧ ∀ a < skb.data + 18, out.mem a = skb.mem a := by
  have htag := skb.pppoeTag_eq
  have hlt := skb.pppoeLength_lt
  have hok : ¬(skb.data + skb.len < src + n ∨ skb.len < n) := by omega
  have hbelow : ∀ a < skb.pppoeTag,
      skb.mem.write src (skb.mem.read (src + n) (skb.data + skb.len - (src + n)).toNat) a =
        skb.mem a :=
    fun a ha => Mem.write_of_disjoint _ (Or.inl (by omega))
  refine ⟨_, if_neg hok, _, rfl, rfl, rfl, rfl, ?_, ?_, ?_⟩
  · refine (be16_write_be16Bytes _ _ _).trans ?_
    have hsame : pppoeLength { skb with
        mem := skb.mem.write src (skb.mem.read (src + n) (skb.data + skb.len - (src + n)).toNat)
        len := skb.len - n
        tailroom := skb.tailroom + n } = skb.pppoeLength :=
      be16_congr (hbelow (skb.data + 14 + 4) (by omega)) (hbelow (skb.data + 14 + 4 + 1) (by omega))
    rw [hsame]
    omega
  · refine (Mem.read_write_of_disjoint _ (Or.inr ?_)).trans ?_
    · change skb.data + 14 + 4 + 2 ≤ skb.pppoeTag
      omega
    · subst hsrc hn
      exact holds_cut h (by omega)
  · intro a ha
    refine (Mem.write_of_disjoint _ (Or.inl ?_)).trans (hbelow a (by omega))
    change a < skb.data + 14 + 4
    omega

end SkbBuf

/-! ## The tag goes in -/

/-- The value of the relay tag that the frame has already. -/
def oldValue (tags : List PppoeTag) : List UInt8 := (tags.find? PppoeTag.isRelay).elim [] PppoeTag.value

/-- The bytes that its relay tag takes. -/
def oldBytes (tags : List PppoeTag) : ℕ := (tags.find? PppoeTag.isRelay).elim 0 fun t => 4 + t.value.length

/-- There is no relay tag, or a first one. -/
theorem relay_cases (tags : List PppoeTag) :
    (tags.find? PppoeTag.isRelay = none ∧ (∀ t ∈ tags, t.isRelay = false) ∧
      tags.eraseP PppoeTag.isRelay = tags) ∨
    ∃ pre t post, tags = pre ++ t :: post ∧ t.isRelay = true ∧ (∀ u ∈ pre, u.isRelay = false) ∧
      tags.find? PppoeTag.isRelay = some t ∧ tags.eraseP PppoeTag.isRelay = pre ++ post := by
  cases hf : tags.find? PppoeTag.isRelay with
  | none =>
    have hno : ∀ t ∈ tags, t.isRelay = false := by simpa using List.find?_eq_none.mp hf
    exact Or.inl ⟨rfl, hno, List.eraseP_of_forall_not (by simpa using hno)⟩
  | some t =>
    obtain ⟨ht, pre, post, rfl, hno⟩ := List.find?_eq_some_iff_append.mp hf
    have hno : ∀ u ∈ pre, u.isRelay = false := by simpa using hno
    refine Or.inr ⟨pre, t, post, rfl, ht, hno, rfl, ?_⟩
    rw [List.eraseP_append_right _ (by simpa using hno), List.eraseP_cons_of_pos ht]

namespace SkbBuf

/-- A relay tag of more than 28 bytes is refused. Any other one is copied and deleted. -/
theorem takeRelayTag_spec {skb : SkbBuf} {tags : List PppoeTag} (h : skb.Carries tags) :
    (28 < (oldValue tags).length ∧ skb.takeRelayTag = none) ∨
    ((oldValue tags).length ≤ 28 ∧ ∃ merged, skb.takeRelayTag = some (oldValue tags, merged) ∧
      merged.Carries (tags.eraseP PppoeTag.isRelay) ∧ merged.data = skb.data ∧
        merged.src = skb.src ∧
      merged.len ≤ skb.len ∧ merged.tailroom = skb.tailroom + oldBytes tags) := by
  unfold oldValue oldBytes
  rcases relay_cases tags with ⟨hf, hno, herase⟩ | ⟨pre, t, post, rfl, ht, hno, hf, herase⟩
  · right
    rw [hf, herase]
    refine ⟨Nat.zero_le _, skb, ?_, h, rfl, rfl, le_rfl, rfl⟩
    unfold takeRelayTag
    rw [h.find_none hno]
    rfl
  · rw [hf, herase]
    dsimp only [Option.elim_some]
    have hfind := h.find_some ht hno
    have hmem := h.holds
    rw [tagBytes_append, tagBytes_cons] at hmem
    obtain ⟨-, hlen, hvalue, -⟩ := PppoeTag.fields_of_holds (Mem.holds_append.mp hmem).2
    have hin := h.inside
    have hlength := h.length
    rw [tagBytes_append, tagBytes_cons, List.length_append, List.length_append,
      t.length_bytes] at hin hlength
    rcases Nat.lt_or_ge 28 t.value.length with hlong | hshort
    · refine Or.inl ⟨hlong, ?_⟩
      unfold takeRelayTag
      rw [hfind]
      dsimp only
      rw [hlen, if_pos (by unfold tagHdrLen magicCodeLen rtlRelayTagLen tagBufSize; omega)]
    · refine Or.inr ⟨hshort, ?_⟩
      obtain ⟨merged, hpull, out, hout, hdata, hlen', hroom, hcount, hholds, hbelow⟩ :=
        pullAndMerge_spec hmem (by rw [t.length_bytes]; exact hlength)
          (by rw [t.length_bytes]; exact hin) rfl
          (show tagHdrLen + t.value.length = t.bytes.length from t.length_bytes.symm)
      have hsub : (merged.pppoeLength : ℤ) - tagHdrLen - t.value.length =
          (merged.pppoeLength : ℤ) - (tagHdrLen + t.value.length : ℕ) := by
        push_cast
        ring
      have hread : skb.mem.read (skb.pppoeTag + (tagBytes pre).length + 4) t.value.length =
        t.value := hvalue
      have hbytes : (tagBytes (pre ++ post)).length =
        (tagBytes pre).length + (tagBytes post).length := by
        rw [tagBytes_append, List.length_append]
      rw [← tagBytes_append] at hholds
      refine ⟨out, ?_, ⟨hcount.trans hbytes.symm, hholds, ?_⟩, hdata, ?_, ?_, hroom⟩
      · unfold takeRelayTag
        rw [hfind]
        dsimp only
        rw [hlen, if_neg (by unfold tagHdrLen magicCodeLen rtlRelayTagLen tagBufSize; omega), hpull,
          Option.map_some, hread, hsub, hout]
      · rw [hlen', hbytes]
        unfold tagHdrLen
        omega
      · unfold Skb.src
        rw [hdata]
        exact macAt_congr fun i hi => hbelow _ (by omega)
      · exact hlen'.trans_le (Nat.sub_le _ _)

/-- A tag is added in front of the others if there is room for what the machine takes for its
length. -/
theorem addPppoeTag_spec {skb : SkbBuf} {tags : List PppoeTag} (h : skb.Carries tags)
    (order : ByteOrder)
    (tag : Mem) {d : ℕ} (hd : order.load16 tag 2 + tagHdrLen = d) :
    (skb.tailroom < d ∧ skb.addPppoeTag order tag = none) ∨
    (d ≤ skb.tailroom ∧ ∃ sent, skb.addPppoeTag order tag = some sent ∧ sent.data = skb.data ∧
      sent.len = skb.len + d ∧ sent.pppoeLength = ((tagBytes tags).length + d) % 65536 ∧
      sent.mem.Holds sent.pppoeTag (tag.read 0 d ++ tagBytes tags)) := by
  rcases Nat.lt_or_ge skb.tailroom d with hno | hroom
  · refine Or.inl ⟨hno, ?_⟩
    unfold addPppoeTag
    dsimp only
    rw [hd, if_pos hno]
  refine Or.inr ⟨hroom, ?_⟩
  have htag := skb.pppoeTag_eq
  unfold addPppoeTag
  dsimp only
  rw [hd, if_neg (by omega)]
  refine ⟨_, rfl, rfl, rfl, ?_, ?_⟩
  · -- the length field stands before the tags
    refine (be16_write_of_disjoint _ (Or.inl ?_)).trans ((be16_write_be16Bytes _ _ _).trans ?_)
    · change skb.data + 14 + 4 + 2 ≤ skb.data + 14 + 6
      omega
    · have hmoved : pppoeLength { skb with
          mem := skb.mem.write (skb.pppoeTag + d) (skb.mem.read skb.pppoeTag skb.pppoeLength)
          len := skb.len + d
          tailroom := skb.tailroom - d } = skb.pppoeLength :=
        be16_write_of_disjoint
          _ (Or.inl (by change skb.data + 14 + 4 + 2 ≤ skb.data + 14 + 6 + d; omega))
      rw [hmoved, h.length]
      omega
  · refine Mem.holds_append.mpr ⟨Mem.read_write_self _ _ _, ?_⟩
    rw [Mem.length_read]
    refine (Mem.read_write_of_disjoint _ (Or.inr ?_)).trans
      ((Mem.read_write_of_disjoint _ (Or.inr ?_)).trans ?_)
    · rw [Mem.length_read]
      exact le_rfl
    · change skb.data + 14 + 4 + 2 ≤ skb.data + 14 + 6 + d
      omega
    · rw [h.length]
      exact (Mem.read_write_of_length _ _ (Mem.length_read _ _ _)).trans h.holds

end SkbBuf

/-- How many bytes `__nat25_add_pppoe_tag` adds for a relay tag with an old value of `n` bytes. -/
def ByteOrder.addedLen : ByteOrder → ℕ → ℕ
  | .little, n => 256 * (8 + n) + 4
  | .big, n => 12 + n

/-- The value of the relay tag that should be sent. -/
def relayValue (mac : MacAddr) (old : List UInt8) : List UInt8 := be16Bytes magicCode ++ mac.toList ++ old

theorem length_relayValue (mac : MacAddr) (old : List UInt8) :
    (relayValue mac old).length = 8 + old.length := by
  simp [relayValue, be16Bytes]
  omega

/-- The relay tag that should be sent. -/
def relayTag (mac : MacAddr) (old : List UInt8) (h : old.length ≤ 28) : PppoeTag where
  type := pttRelaySid
  value := relayValue mac old
  type_lt := by decide
  length_lt := by
    rw [length_relayValue]
    omega

theorem holds_relayTagBuf (stack : Mem) (mac : MacAddr) {old : List UInt8} (h : old.length ≤ 28) :
    (SkbBuf.relayTagBuf stack mac old).Holds 0 (relayTag mac old h).bytes := by
  have hbytes : (relayTag mac old h).bytes = be16Bytes pttRelaySid ++
      be16Bytes (magicCodeLen + rtlRelayTagLen + old.length) ++ be16Bytes magicCode ++
        mac.toList ++ old := by
    unfold PppoeTag.bytes relayTag
    dsimp only
    rw [length_relayValue, relayValue]
    simp only [List.append_assoc]
    rfl
  unfold SkbBuf.relayTagBuf
  rw [← hbytes]
  exact Mem.read_write_self _ _ _

theorem load16_relayTagBuf (order : ByteOrder) (stack : Mem) (mac : MacAddr) {old : List UInt8}
    (h : old.length ≤ 28) :
    order.load16 (SkbBuf.relayTagBuf stack mac old) 2 + tagHdrLen = order.addedLen old.length := by
  have hholds := holds_relayTagBuf stack mac h
  rw [← List.append_nil (relayTag mac old h).bytes] at hholds
  obtain ⟨-, hbe, -, -⟩ := PppoeTag.fields_of_holds hholds
  change Mem.be16 _ 2 = (relayValue mac old).length at hbe
  rw [length_relayValue] at hbe
  have hlo := (SkbBuf.relayTagBuf stack mac old 2).toNat_lt
  have hhi := (SkbBuf.relayTagBuf stack mac old (2 + 1)).toNat_lt
  unfold Mem.be16 at hbe
  cases order with
  | little =>
    change Mem.le16 _ 2 + 4 = 256 * (8 + old.length) + 4
    unfold Mem.le16
    omega
  | big =>
    change Mem.be16 _ 2 + 4 = 12 + old.length
    unfold Mem.be16
    omega

namespace SkbBuf

/-- The frame is refused, or it goes on with the tag and with as many bytes more as the machine
takes for the length of the tag. -/
theorem insertRelayTag_spec {skb : SkbBuf} {tags : List PppoeTag} (h : skb.Carries tags)
    (order : ByteOrder)
    (stack : Mem) :
    (¬((oldValue tags).length ≤ 28 ∧ order.addedLen
    (oldValue tags).length ≤ skb.tailroom + oldBytes tags) ∧
      (skb.insertRelayTag order stack).1 = -1) ∨
    (∃ hold : (oldValue tags).length ≤ 28,
      order.addedLen (oldValue tags).length ≤ skb.tailroom + oldBytes tags ∧
      ∃ sent, skb.insertRelayTag order stack = (0, sent) ∧
        sent.pppoeLength =
          ((tagBytes (tags.eraseP PppoeTag.isRelay)).length + order.addedLen
          (oldValue tags).length) % 65536 ∧
        20 + (tagBytes (tags.eraseP PppoeTag.isRelay)).length + order.addedLen
          (oldValue tags).length ≤ sent.len ∧
        (order = .big → sent.mem.Holds sent.pppoeTag
          (tagBytes (relayTag skb.src (oldValue tags) hold :: tags.eraseP PppoeTag.isRelay)))) := by
  rcases takeRelayTag_spec h with ⟨hlong, hnone⟩ | ⟨hold, merged, htake, hcarries, -, hsrc,
    hlen, hroom⟩
  · refine Or.inl ⟨fun hacc => by omega, ?_⟩
    unfold insertRelayTag
    rw [hnone]
  have hload := load16_relayTagBuf order stack merged.src hold
  rcases addPppoeTag_spec hcarries order _ hload with ⟨hno, hadd⟩ | ⟨hok, sent, hadd, -, hslen,
    hlength, hholds⟩
  · refine Or.inl ⟨fun hacc => by omega, ?_⟩
    unfold insertRelayTag
    rw [htake]
    dsimp only
    rw [hadd]
  · refine Or.inr ⟨hold, by omega, sent, ?_, hlength, ?_, fun hbig => ?_⟩
    · unfold insertRelayTag
      rw [htake]
      dsimp only
      rw [hadd]
    · have := hcarries.inside
      omega
    · subst hbig
      have hbytes := holds_relayTagBuf stack merged.src hold
      have hadded : ByteOrder.big.addedLen (oldValue tags).length =
          (relayTag merged.src (oldValue tags) hold).bytes.length := by
        rw [PppoeTag.length_bytes]
        change 12 + _ = 4 + (relayValue _ _).length
        rw [length_relayValue]
        omega
      rw [hadded, hbytes, hsrc] at hholds
      exact hholds

end SkbBuf

/-! ## The tag comes out -/

/-- The tag that is left when the address is taken out of a relay tag : none, if there was only the
address. -/
def leftTag (old : List UInt8) (h : old.length ≤ 28) : List PppoeTag :=
  if old = [] then [] else [⟨pttRelaySid, old, by decide, by omega⟩]

namespace SkbBuf

theorem macAt_of_same {skb skb' : SkbBuf} (hdata : skb'.data = skb.data)
    (h : ∀ a < skb.data + 18, skb'.mem a = skb.mem a) : skb'.dst = skb.dst := by
  unfold Skb.dst
  rw [hdata]
  exact macAt_congr fun i hi => h _ (by omega)

/-- A relay tag with the address of a host comes in a frame of the server. -/
theorem lookupRelayTag_spec {skb : SkbBuf} {pre post : List PppoeTag} {mac : MacAddr}
    {old : List UInt8}
    (hold : old.length ≤ 28) (h : skb.Carries (pre ++ relayTag mac old hold :: post))
    (hno : ∀ u ∈ pre, u.isRelay = false) :
    ∃ out, skb.lookupRelayTag = (0, out) ∧ out.dst = mac ∧
      out.Carries (pre ++ leftTag old hold ++ post) := by
  have htag := skb.pppoeTag_eq
  have hfind := h.find_some (by rfl) hno
  have hmem := h.holds
  have hin := h.inside
  have hlength := h.length
  have hlt := skb.pppoeLength_lt
  rw [tagBytes_append, tagBytes_cons] at hmem
  rw [tagBytes_append, tagBytes_cons, List.length_append, List.length_append,
    PppoeTag.length_bytes] at hin hlength
  obtain ⟨-, hlen, hvalue, -⟩ := PppoeTag.fields_of_holds (Mem.holds_append.mp hmem).2
  change Mem.be16 _ _ = (relayValue mac old).length at hlen
  change Mem.Holds _ _ (relayValue mac old) at hvalue
  change 20 + (_ + (4 + (relayValue mac old).length + _)) ≤ _ at hin
  change _ = _ + (4 + (relayValue mac old).length + _) at hlength
  rw [length_relayValue] at hlen hin hlength
  unfold relayValue at hvalue
  rw [List.append_assoc] at hvalue
  have hmagic := Mem.be16_of_holds (by decide) hvalue
  have hmac : macAt skb.mem (skb.pppoeTag + (tagBytes pre).length + 4 + 2) = mac :=
    macAt_of_holds (Mem.holds_append.mp (Mem.holds_append.mp hvalue).2).1
  -- the destination stands before the tags
  let named : SkbBuf := { skb with toSkb := skb.toSkb.setDst mac }
  have hnamed : ∀ a : ℤ, skb.data + 6 ≤ a → named.mem a = skb.mem a := by
    intro a ha
    refine Mem.write_of_disjoint _ (Or.inr ?_)
    rw [Vector.length_toList]
    change skb.data + 0 + 6 ≤ a
    omega
  have hdst : macAt named.mem named.data = mac := by
    refine macAt_of_holds ?_
    have hw : named.mem = skb.mem.write skb.data mac.toList := by
      change skb.mem.write (skb.data + 0) mac.toList = _
      rw [add_zero]
    rw [hw]
    exact Mem.read_write_self _ _ _
  have hmem' : named.mem.Holds skb.pppoeTag
      (tagBytes pre ++ ((relayTag mac old hold).bytes ++ tagBytes post)) := by
    refine Eq.trans (Mem.read_congr fun i _ => hnamed _ (by omega)) hmem
  have hlength' : named.pppoeLength = skb.pppoeLength :=
    be16_congr (hnamed (skb.data + 14 + 4) (by omega)) (hnamed (skb.data + 14 + 4 + 1) (by omega))
  have hhead : (relayTag mac old hold).bytes =
      be16Bytes pttRelaySid ++ be16Bytes
        (8 + old.length) ++ (be16Bytes magicCode ++ mac.toList ++ old) := by
    have hvalue : (relayTag mac old hold).value = relayValue mac old := rfl
    rw [PppoeTag.bytes, hvalue, length_relayValue]
    rfl
  unfold lookupRelayTag
  rw [hfind]
  dsimp only
  rw [hlen, if_neg (by unfold magicCodeLen rtlRelayTagLen; omega), hmagic, if_neg (not_not.mpr rfl)]
  have hmac' : macAt skb.mem (skb.pppoeTag + (tagBytes pre).length + 4 + magicCodeLen) = mac := hmac
  rw [hmac']
  have htagLen : (relayTag mac old hold).bytes.length = 12 + old.length := by
    rw [hhead]
    simp [be16Bytes]
    omega
  have hcutAll : tagHdrLen + magicCodeLen + rtlRelayTagLen = 12 := rfl
  have hinner : magicCodeLen + rtlRelayTagLen = 8 := rfl
  rw [hcutAll, hinner]
  by_cases hempty : old = []
  · -- the whole tag goes
    subst hempty
    obtain ⟨merged, hpull, out, hout, hdata, hlen', -, hcount, hholds, hbelow⟩ :=
      pullAndMerge_spec hmem' (by rw [hlength', htagLen, hlength]; rfl)
        (by rw [htagLen]; exact hin) rfl
        (show 12 = (relayTag mac [] hold).bytes.length from htagLen.symm)
    rw [← tagBytes_append] at hholds
    rw [if_neg (by simp)]
    change pullAndMerge named (skb.pppoeTag + (tagBytes pre).length) 12 = some merged at hpull
    rw [Nat.cast_zero, add_zero, Nat.sub_zero, hpull]
    dsimp only
    rw [if_neg (by simp), hout]
    refine ⟨out, rfl, (macAt_of_same hdata hbelow).trans hdst, ?_, ?_, ?_⟩
    · rw [hcount, leftTag, if_pos rfl, List.append_nil, tagBytes_append, List.length_append]
    · rw [leftTag, if_pos rfl, List.append_nil]
      exact hholds
    · rw [hlen', leftTag, if_pos rfl, List.append_nil, tagBytes_append, List.length_append]
      change _ ≤ skb.len - 12
      omega
  · -- the header of the tag stays, and gets the length of the old value
    have hpos : 0 < old.length := List.length_pos_iff.mpr hempty
    have hsplit : tagBytes pre ++ ((relayTag mac old hold).bytes ++ tagBytes post) =
        (tagBytes pre ++ (be16Bytes pttRelaySid ++ be16Bytes (8 + old.length))) ++
          ((be16Bytes magicCode ++ mac.toList) ++ (old ++ tagBytes post)) := by
      rw [hhead]
      simp only [List.append_assoc]
    have hl4 : (tagBytes pre ++ (be16Bytes pttRelaySid ++ be16Bytes (8 + old.length))).length =
        (tagBytes pre).length + 4 := by simp [be16Bytes]
    have hl8 : (be16Bytes magicCode ++ mac.toList).length = 8 := by simp [be16Bytes]
    have hlrest : (old ++ tagBytes post).length = old.length + (tagBytes post).length :=
      List.length_append
    rw [hsplit] at hmem'
    obtain ⟨merged, hpull, out, hout, hdata, hlen', -, hcount, hholds, hbelow⟩ :=
      pullAndMerge_spec hmem' (by rw [hlength', hl4, hl8, hlrest, hlength]; omega)
        (by rw [hl4, hl8, hlrest]; change _ ≤ skb.len; omega) rfl hl8.symm
    have hsrc : named.pppoeTag +
      (tagBytes pre ++ (be16Bytes pttRelaySid ++ be16Bytes (8 + old.length))).length =
        skb.pppoeTag + (tagBytes pre).length + (tagHdrLen : ℕ) := by
      rw [hl4]
      change skb.pppoeTag + _ = _ + ((4 : ℕ) : ℤ)
      omega
    rw [hsrc] at hpull
    have hcut : 12 - tagHdrLen = 8 := rfl
    rw [if_pos (by omega), hcut]
    change pullAndMerge named _ 8 = some merged at hpull
    rw [hpull]
    dsimp only
    rw [if_pos (by decide), hout]
    have hdata' : out.data = skb.data := hdata
    have hot := out.pppoeTag_eq
    have hleft : tagBytes (pre ++ leftTag old hold ++ post) =
      tagBytes pre ++ be16Bytes pttRelaySid ++
        (be16Bytes old.length ++ (old ++ tagBytes post)) := by
      rw [leftTag, if_neg hempty, tagBytes_append, tagBytes_append, tagBytes_cons, tagBytes_nil,
        List.append_nil]
      simp only [PppoeTag.bytes, List.append_assoc]
    have hl2 : (tagBytes pre ++ be16Bytes pttRelaySid).length = (tagBytes pre).length + 2 := by
      simp [be16Bytes]
    have hsize : (tagBytes (pre ++ leftTag old hold ++ post)).length =
        (tagBytes pre).length + 4 + (old.length + (tagBytes post).length) := by
      rw [hleft, List.length_append, hl2, List.length_append, hlrest]
      simp [be16Bytes]
      omega
    have hsub : 8 + old.length - magicCodeLen - rtlRelayTagLen = old.length := by
      unfold magicCodeLen rtlRelayTagLen
      omega
    rw [hsub]
    refine ⟨_, rfl, ?_, ?_, ?_, ?_⟩
    · refine (macAt_write_of_disjoint _ (Or.inl ?_)).trans ((macAt_of_same hdata hbelow).trans hdst)
      rw [hdata']
      omega
    · refine (be16_write_of_disjoint _ (Or.inl ?_)).trans (hcount.trans ?_)
      · rw [hdata']
        omega
      · rw [hl4, hlrest, hsize]
    · rw [hleft]
      rw [List.append_assoc, List.append_assoc, ← List.append_assoc] at hholds
      refine holds_overwrite hholds (by simp [be16Bytes]) ?_
      rw [hl2]
      change _ = out.pppoeTag + _
      omega
    · rw [hsize]
      change _ ≤ out.len
      rw [hlen']
      change _ ≤ skb.len - 8
      omega

end SkbBuf

/-! ## The round trip -/

namespace SkbBuf

/-- A PADI or PADR frame with these tags, as a host sends it. -/
structure IsDiscovery (skb : SkbBuf) (tags : List PppoeTag) : Prop where
  protocol : skb.protocol = ethPPppDisc
  code : skb.pppoeCode = padiCode ∨ skb.pppoeCode = padrCode
  sid : skb.pppoeSid = 0
  carries : skb.Carries tags
  len : skb.len ≤ ethFrameLen

/-- A PADO or PADS frame with these tags. -/
structure IsAnswer (skb : SkbBuf) (tags : List PppoeTag) : Prop where
  protocol : skb.protocol = ethPPppDisc
  code : skb.pppoeCode = padoCode ∨ skb.pppoeCode = padsCode
  carries : skb.Carries tags

/-- There is room for what the machine takes for the length of the relay tag, and the old value fits
in. -/
def RelayFits (skb : SkbBuf) (order : ByteOrder) (tags : List PppoeTag) : Prop :=
  (oldValue tags).length ≤ 28 ∧ order.addedLen (oldValue tags).length ≤ skb.tailroom + oldBytes tags

end SkbBuf

/-- The tags of the frame that goes on : the address of the host before the value of its relay tag,
and the other tags. -/
def IsRelayed (mac : MacAddr) (tags sent : List PppoeTag) : Prop :=
  ∃ t, t.type = pttRelaySid ∧ t.value = relayValue mac (oldValue tags) ∧
    sent = t :: tags.eraseP PppoeTag.isRelay

namespace RelayBridge

/-- A frame of a host that is taken goes on with well-formed tags, and when its relay tag comes back
in a frame of the server, that frame goes to the host, with the relay tag that the host had sent. -/
def RelayRoundTrip (s : RelayBridge) (w : RelayEnv) (skb : SkbBuf) (tags : List PppoeTag) : Prop :=
  ∀ skb₁ s₁, s.nat25DbHandle w skb .insert = some (0, skb₁, s₁) →
    ∃ sent, (if s.addPPPoETag then IsRelayed skb.src tags sent else sent = tags) ∧ skb₁.Carries sent ∧
      ∀ (w' : RelayEnv) (answer : SkbBuf) (pre post : List PppoeTag), (∀ u ∈ pre, u.isRelay = false) →
        answer.IsAnswer (pre ++ (sent.find? PppoeTag.isRelay).toList ++ post) →
        ∃ out s₂, s₁.nat25DbHandle w' answer .lookup = some (0, out, s₂) ∧ out.dst = skb.src ∧
          out.Carries (pre ++ (tags.find? PppoeTag.isRelay).toList ++ post)

variable {s : RelayBridge} {w : RelayEnv} {skb : SkbBuf} {tags : List PppoeTag}

theorem nat25DbHandle_insert (h : skb.IsDiscovery tags) :
    s.nat25DbHandle w skb .insert = some (s.insertDiscovery w skb) := by
  unfold nat25DbHandle handlePppoe
  rw [if_pos (Or.inl h.protocol), if_pos ⟨rfl, h.sid⟩]

theorem nat25DbHandle_lookup (h : skb.IsAnswer tags) :
    s.nat25DbHandle w skb .lookup = some (s.lookupDiscovery skb) := by
  unfold nat25DbHandle handlePppoe
  rw [if_pos (Or.inl h.protocol), if_neg (fun hi => nomatch hi.1), if_pos ⟨rfl, h.code⟩]

theorem length_tagBytes_eraseP (tags : List PppoeTag) :
    (tagBytes (tags.eraseP PppoeTag.isRelay)).length + oldBytes tags = (tagBytes tags).length := by
  unfold oldBytes
  rcases relay_cases tags with ⟨hf, -, herase⟩ | ⟨pre, t, post, rfl, -, -, hf, herase⟩
  · rw [hf, herase]
    rfl
  · rw [hf, herase]
    simp only [Option.elim_some, tagBytes_append, tagBytes_cons, List.length_append,
      PppoeTag.length_bytes]
    omega

/-- The relay tag of the host, when its value is not empty, is what is left. -/
theorem leftTag_oldValue (hold : (oldValue tags).length ≤ 28)
    (h : ∀ t, tags.find? PppoeTag.isRelay = some t → t.value ≠ []) :
    leftTag (oldValue tags) hold = (tags.find? PppoeTag.isRelay).toList := by
  revert hold
  unfold oldValue
  cases hf : tags.find? PppoeTag.isRelay with
  | none => exact fun _ => rfl
  | some t =>
    intro hold
    have ht : t.isRelay = true := List.find?_some hf
    have htype : pttRelaySid = t.type := (of_decide_eq_true ht).symm
    obtain ⟨type, value, _, _⟩ := t
    obtain rfl := htype
    exact if_neg (h _ hf)

/-- Without the relay tag, the device remembers the host. -/
theorem relayRoundTrip_of_not_add (h : skb.IsDiscovery tags) (hadd : s.addPPPoETag = false) :
    s.RelayRoundTrip w skb tags := by
  intro skb₁ s₁ hins
  rw [nat25DbHandle_insert h, insertDiscovery, if_pos h.code, if_neg (by rw [hadd]; decide)] at hins
  split at hins
  · cases hins
  rename_i hfree
  have hres := Option.some.inj hins
  have hskb : skb = skb₁ := congrArg (fun r => r.2.1) hres
  have hs₁ := congrArg (fun r => r.2.2) hres
  dsimp only at hs₁
  have haddr : s₁.pppoeAddr = skb.src := by
    rw [← hs₁]
    by_cases h0 : s.pppoeConnectionInProgress = 0
    · rw [if_pos h0]
    · rw [if_neg h0]
      exact (not_not.mp fun hne => hfree ⟨h0, hne⟩).symm
  have hadd₁ : s₁.addPPPoETag = false := by
    rw [← hs₁]
    split <;> exact hadd
  have hprog : s₁.pppoeConnectionInProgress ≠ 0 := by
    rw [← hs₁]
    exact Nat.succ_ne_zero 4
  refine ⟨tags, ?_, hskb ▸ h.carries, fun w' answer pre post _ ha => ?_⟩
  · rw [hadd]
    rfl
  rw [nat25DbHandle_lookup ha, lookupDiscovery, if_neg (by rw [hadd₁]; decide), if_neg hprog, haddr]
  refine ⟨_, _, rfl, ?_, ?_, ?_, ha.carries.inside⟩
  · refine macAt_of_holds ?_
    change Mem.Holds (answer.mem.write (answer.data + 0) _) answer.data _
    rw [add_zero]
    exact Mem.read_write_self _ _ _
  · refine (be16_write_of_disjoint _ (Or.inr ?_)).trans ha.carries.length
    rw [Vector.length_toList]
    change answer.data + 0 + 6 ≤ answer.data + 14 + 4
    omega
  · refine (Mem.read_write_of_disjoint _ (Or.inr ?_)).trans ha.carries.holds
    rw [Vector.length_toList]
    change answer.data + 0 + 6 ≤ answer.data + 14 + 6
    omega

/-- With the relay tag, on a big-endian machine. -/
theorem relayRoundTrip_of_big (h : skb.IsDiscovery tags) (hadd : s.addPPPoETag = true)
    (hfit : skb.RelayFits w.order tags →
    w.order = .big ∧ ∀ t, tags.find? PppoeTag.isRelay = some t → t.value ≠ []) :
    s.RelayRoundTrip w skb tags := by
  intro skb₁ s₁ hins
  rw [nat25DbHandle_insert h, insertDiscovery, if_pos h.code, if_pos hadd] at hins
  have hres := Option.some.inj hins
  dsimp only at hres
  rcases SkbBuf.insertRelayTag_spec h.carries w.order w.stack with
    ⟨-, hret⟩ | ⟨hold, hroom, sent, hsent, hlength, hlen, hholds⟩
  · rw [hret] at hres
    cases hres
  obtain ⟨hbig, hne⟩ := hfit ⟨hold, hroom⟩
  rw [hsent] at hres
  have hskb : sent = skb₁ := congrArg (fun r => r.2.1) hres
  have hs₁ : s = s₁ := congrArg (fun r => r.2.2) hres
  have hcount := length_tagBytes_eraseP tags
  have hin := h.carries.inside
  have hmtu : skb.len ≤ 1514 := h.len
  have hadded : w.order.addedLen (oldValue tags).length = 12 + (oldValue tags).length := by
    rw [hbig]
    rfl
  have hbytes : (tagBytes
    (relayTag skb.src (oldValue tags) hold :: tags.eraseP PppoeTag.isRelay)).length =
      12 + (oldValue tags).length + (tagBytes (tags.eraseP PppoeTag.isRelay)).length := by
    rw [tagBytes_cons, List.length_append, PppoeTag.length_bytes]
    change 4 + (relayValue _ _).length + _ = _
    rw [length_relayValue]
    omega
  rw [hadded] at hlength hlen
  refine ⟨relayTag skb.src (oldValue tags) hold :: tags.eraseP PppoeTag.isRelay, ?_, ?_, ?_⟩
  · rw [if_pos hadd]
    exact ⟨_, rfl, rfl, rfl⟩
  · rw [← hskb]
    refine ⟨hlength.trans ?_, hholds hbig, ?_⟩
    · omega
    · omega
  · intro w' answer pre post hno ha
    have hfind : (relayTag skb.src (oldValue tags) hold :: tags.eraseP PppoeTag.isRelay).find?
      PppoeTag.isRelay =
        some (relayTag skb.src (oldValue tags) hold) := List.find?_cons_of_pos (by rfl)
    rw [hfind, Option.toList_some] at ha
    have hcarries := ha.carries
    rw [List.append_assoc, List.singleton_append] at hcarries
    obtain ⟨out, hout, hdst, hcarries'⟩ := SkbBuf.lookupRelayTag_spec hold hcarries hno
    rw [nat25DbHandle_lookup ha, lookupDiscovery, ← hs₁, if_pos hadd, hout]
    rw [leftTag_oldValue hold hne] at hcarries'
    exact ⟨out, s, rfl, hdst, hcarries'⟩

end RelayBridge

/-- A frame of the discovery phase with these tags. -/
def pppoeFrame (code : UInt8) (tags : List PppoeTag) (tailroom : ℕ) : SkbBuf where
  mem := ((Mem.write (fun _ => 0) 12 [0x88, 0x63, 0x11, code, 0, 0]).write 18
    (be16Bytes (tagBytes tags).length)).write 20 (tagBytes tags)
  data := 0
  len := 20 + (tagBytes tags).length
  tailroom := tailroom

section PppoeFrame

variable {code : UInt8} {tags : List PppoeTag} {tailroom : ℕ}

theorem mem_pppoeFrame {a : ℤ} (h : a < 18) :
    (pppoeFrame code tags tailroom).mem a = Mem.write (fun _ => 0) 12
    [0x88, 0x63, 0x11, code, 0, 0] a :=
  (Mem.write_of_disjoint _ (Or.inl (by omega))).trans (Mem.write_of_disjoint _ (Or.inl h))

theorem protocol_pppoeFrame : (pppoeFrame code tags tailroom).protocol = ethPPppDisc :=
  be16_congr (mem_pppoeFrame (a := 0 + 12) (by norm_num))
    (mem_pppoeFrame (a := 0 + 12 + 1) (by norm_num))

theorem carries_pppoeFrame (h : (tagBytes tags).length < 65536) :
    (pppoeFrame code tags tailroom).Carries tags := by
  refine ⟨?_, Mem.read_write_self _ _ _, le_rfl⟩
  refine (be16_write_of_disjoint _ (Or.inl (by norm_num [pppoeFrame]))).trans ?_
  refine (be16_write_be16Bytes _ _ _).trans ?_
  omega

theorem isAnswer_pppoeFrame (hcode : code = padoCode ∨ code = padsCode)
    (h : (tagBytes tags).length < 65536) :
    (pppoeFrame code tags tailroom).IsAnswer tags := by
  have hc : (pppoeFrame code tags tailroom).pppoeCode = code :=
    mem_pppoeFrame (a := 0 + 14 + 1) (by norm_num)
  exact ⟨protocol_pppoeFrame, by rwa [hc], carries_pppoeFrame h⟩

theorem isDiscovery_pppoeFrame (hcode : code = padiCode ∨ code = padrCode)
    (h : (tagBytes tags).length ≤ 1494) :
    (pppoeFrame code tags tailroom).IsDiscovery tags := by
  have hc : (pppoeFrame code tags tailroom).pppoeCode = code :=
    mem_pppoeFrame (a := 0 + 14 + 1) (by norm_num)
  refine ⟨protocol_pppoeFrame, by rwa [hc], ?_, carries_pppoeFrame (by omega), ?_⟩
  · exact be16_congr (mem_pppoeFrame (a := 0 + 14 + 2) (by norm_num))
      (mem_pppoeFrame (a := 0 + 14 + 2 + 1) (by norm_num))
  · change 20 + _ ≤ 1514
    omega

end PppoeFrame

namespace RelayBridge

variable {s : RelayBridge} {w : RelayEnv} {skb : SkbBuf} {tags : List PppoeTag}

/-- On a little-endian machine the length field counts more bytes than the tags have. -/
theorem not_relayRoundTrip_of_little (h : skb.IsDiscovery tags) (hadd : s.addPPPoETag = true)
    (hfit : skb.RelayFits w.order tags)
    (hlittle : w.order = .little) : ¬ s.RelayRoundTrip w skb tags := by
  intro hrt
  rcases SkbBuf.insertRelayTag_spec h.carries w.order w.stack with
    ⟨hno, -⟩ | ⟨hold, -, sent, hsent, hlength, -, -⟩
  · exact hno hfit
  have hins : s.nat25DbHandle w skb .insert = some (0, sent, s) := by
    rw [nat25DbHandle_insert h, insertDiscovery, if_pos h.code, if_pos hadd, hsent]
  obtain ⟨tags', htags', hcarries, -⟩ := hrt sent s hins
  rw [if_pos hadd] at htags'
  obtain ⟨t, -, hvalue, rfl⟩ := htags'
  have hcount := length_tagBytes_eraseP tags
  have hin := h.carries.inside
  have hmtu : skb.len ≤ 1514 := h.len
  have hadded : w.order.addedLen (oldValue tags).length =
    256 * (8 + (oldValue tags).length) + 4 := by
    rw [hlittle]
    rfl
  have hlen := hcarries.length
  rw [tagBytes_cons, List.length_append, PppoeTag.length_bytes, hvalue, length_relayValue, hlength,
    hadded] at hlen
  omega

/-- A relay tag with no value does not come back. -/
theorem not_relayRoundTrip_of_empty (h : skb.IsDiscovery tags) (hadd : s.addPPPoETag = true)
    (hfit : skb.RelayFits w.order tags) {t : PppoeTag} (ht : tags.find? PppoeTag.isRelay = some t)
    (hempty : t.value = []) : ¬ s.RelayRoundTrip w skb tags := by
  intro hrt
  rcases SkbBuf.insertRelayTag_spec h.carries w.order w.stack with
    ⟨hno, -⟩ | ⟨hold, -, sent, hsent, -, -, -⟩
  · exact hno hfit
  have hins : s.nat25DbHandle w skb .insert = some (0, sent, s) := by
    rw [nat25DbHandle_insert h, insertDiscovery, if_pos h.code, if_pos hadd, hsent]
  obtain ⟨tags', htags', -, hback⟩ := hrt sent s hins
  rw [if_pos hadd] at htags'
  obtain ⟨u, htype, hvalue, rfl⟩ := htags'
  have hold' : oldValue tags = [] := by
    unfold oldValue
    rw [ht]
    exact hempty
  have hu : u = relayTag skb.src [] (Nat.zero_le _) := by
    obtain ⟨type, value, _, _⟩ := u
    obtain rfl : type = pttRelaySid := htype
    obtain rfl : value = relayValue skb.src [] := by rw [← hold']; exact hvalue
    rfl
  subst hu
  have hfind : (relayTag skb.src [] (Nat.zero_le _) :: tags.eraseP PppoeTag.isRelay).find?
    PppoeTag.isRelay =
      some (relayTag skb.src [] (Nat.zero_le _)) := List.find?_cons_of_pos (decide_eq_true htype)
  have hanswer : (pppoeFrame padoCode [relayTag skb.src [] (Nat.zero_le _)] 0).IsAnswer
      [relayTag skb.src [] (Nat.zero_le _)] := by
    refine isAnswer_pppoeFrame (Or.inl rfl) ?_
    rw [tagBytes_cons, tagBytes_nil, List.append_nil, PppoeTag.length_bytes]
    change 4 + (relayValue _ _).length < _
    rw [length_relayValue]
    decide
  have hback := hback w (pppoeFrame padoCode [relayTag skb.src [] (Nat.zero_le _)] 0) [] []
    (fun _ hu => nomatch hu)
  rw [hfind] at hback
  obtain ⟨out, s₂, hout, -, hcarries⟩ := hback hanswer
  -- the server's frame comes through with no tag
  obtain ⟨out', hout', -, hcarries'⟩ :=
    @SkbBuf.lookupRelayTag_spec _ [] [] skb.src [] (Nat.zero_le _) hanswer.carries
      (fun _ hu => nomatch hu)
  rw [nat25DbHandle_lookup hanswer, lookupDiscovery, if_pos hadd, hout'] at hout
  have hsame : out' = out := congrArg (fun r => r.2.1) (Option.some.inj hout)
  have h1 := hcarries.length
  have h2 := hcarries'.length
  rw [hsame, h1, ht] at h2
  simp [leftTag, PppoeTag.length_bytes] at h2

/-- Host and server see the tags they should see unless a relay tag is added by a little-endian
machine, or the host's own relay tag is empty. -/
theorem relayRoundTrip_iff (h : skb.IsDiscovery tags) :
    s.RelayRoundTrip w skb tags ↔
      (s.addPPPoETag = true → skb.RelayFits w.order tags →
        w.order = .big ∧ ∀ t, tags.find? PppoeTag.isRelay = some t → t.value ≠ []) := by
  constructor
  · intro hrt hadd hfit
    refine ⟨?_, fun t ht hempty => not_relayRoundTrip_of_empty h hadd hfit ht hempty hrt⟩
    cases horder : w.order with
    | little => exact absurd hrt (not_relayRoundTrip_of_little h hadd hfit horder)
    | big => rfl
  · intro hcond
    cases hadd : s.addPPPoETag with
    | false => exact relayRoundTrip_of_not_add h hadd
    | true => exact relayRoundTrip_of_big h hadd (hcond hadd)

end RelayBridge

/-! ## A PADI frame -/

/-- A Service-Name tag for any service, and a relay tag of another bridge. -/
def sampleTags : List PppoeTag :=
  [⟨0x0101, [], by decide, by decide⟩, ⟨0x0110, [1, 2, 3], by decide, by decide⟩]

/-- The device adds relay tags, as it does by default. -/
def sampleRelayBridge : RelayBridge := ⟨sampleBridge, true, 0, zeroAddr, false⟩

def sampleRelayEnv (order : ByteOrder) : RelayEnv := ⟨sampleEnv, order, fun _ => 0⟩

theorem relayRoundTrip_samplePadi :
    sampleRelayBridge.RelayRoundTrip (sampleRelayEnv .big) (pppoeFrame padiCode sampleTags 100) sampleTags :=
  (RelayBridge.relayRoundTrip_iff (isDiscovery_pppoeFrame (Or.inl rfl) (by decide))).mpr fun _ _ =>
    ⟨rfl, fun t ht hempty => by
      have hfind : sampleTags.find? PppoeTag.isRelay =
      some ⟨0x0110, [1, 2, 3], by decide, by decide⟩ := rfl
      rw [hfind] at ht
      cases ht
      cases hempty⟩

/-- With room for four thousand bytes, a little-endian machine sends a frame of more than two
thousand. -/
theorem not_relayRoundTrip_samplePadi :
    ¬ ∀ (s : RelayBridge) (w : RelayEnv) (skb : SkbBuf) (tags : List PppoeTag), skb.IsDiscovery tags →
      (oldValue tags).length ≤ 24 → s.RelayRoundTrip w skb tags := by
  intro h
  refine RelayBridge.not_relayRoundTrip_of_little (isDiscovery_pppoeFrame (Or.inl rfl) (by decide))
    rfl ?_ rfl
    (h sampleRelayBridge (sampleRelayEnv .little) (pppoeFrame padiCode sampleTags 4000) sampleTags
      (isDiscovery_pppoeFrame (Or.inl rfl) (by decide)) (by decide))
  exact ⟨by decide, by decide⟩

end Rtl8188eu
