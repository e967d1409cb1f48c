import Rtl8188eu.JoinEvent
import Rtl8188eu.MgntXmit
import Rtl8188eu.PagedLayout

/-!
# The reserved pages

`SetFwRsvdPagePkt` puts five packets into a buffer of 1000 bytes, each with a descriptor in front
of it, and tells the firmware at which pages they start. A page has 128 bytes, and the first one
begins with the descriptor of the beacon.

The sum of the lengths is not compared with the size of the buffer, and `ConstructBeacon` copies
36 bytes more than the elements of an access point (`laidRight_iff`).
-/

namespace Rtl8188eu

open PagedLayout

/-! ## The functions of the source -/

/-- `TXDESC_OFFSET`. -/
def txdescOffset : ℕ := txdescSize + packetOffsetSz

/-- The size of `ReservedPagePacket`. -/
def reservedPagePacketSize : ℕ := 1000

/-- `Ndis802_11APMode`. -/
def ndis80211APMode : ℕ := 4

/-- `WIFI_FW_ADHOC_STATE`. -/
def wifiFwAdhoc : ℕ := 0x01

/-- `pmlmeinfo->network`. `ies` is the memory from `IEs` on, the last field of the network. -/
structure RsvdNetwork where
  macAddress : MacAddr
  ssidLength : ℕ
  ssid : Vector UInt8 32
  dsConfig : ℕ
  supportedRates : Vector UInt8 16
  ieLength : ℕ
  ies : ℕ → UInt8
  ssidLength_le : ssidLength ≤ 32
  ieLength_le : ieLength ≤ maxIeSz

/-- What `SetFwRsvdPagePkt` reads of the adapter. `btQosNull` is what is on the stack for the
location that it does not set. -/
structure RsvdEnv where
  network : RsvdNetwork
  /-- `pmlmeinfo->state`. -/
  state : ℕ
  aid : ℕ
  myid : MacAddr
  /-- `InfrastructureMode` of `mlmepriv.cur_network`. -/
  infrastructureMode : ℕ
  btQosNull : ℕ

/-- The fields of the network that are read. -/
inductive BssField
  | macAddress | ssid | dsConfig | supportedRates | ies
  deriving DecidableEq

/-- The number of bytes of a field. -/
def BssField.size : BssField → ℕ
  | .macAddress => 6
  | .ssid => 32
  | .dsConfig => 4
  | .supportedRates => 16
  | .ies => maxIeSz

/-- Bytes of the network that are read. -/
structure BssRead where
  field : BssField
  offset : ℕ
  length : ℕ
  deriving DecidableEq

/-- The bytes are in the field. -/
def BssRead.Inside (r : BssRead) : Prop := r.offset + r.length ≤ r.field.size

/-- `ReservedPagePacket`, with what was written to it, and what was read of the network. -/
structure RsvdBuf where
  mem : Mem
  writes : List Span
  reads : List BssRead

namespace RsvdBuf

variable (b : RsvdBuf)

/-- Bytes are written. -/
def put (p : ℕ) (bs : List UInt8) : RsvdBuf :=
  { b with mem := b.mem.write p bs, writes := b.writes ++ [⟨p, bs.length⟩] }

/-- Bytes of the network are read. -/
def look (field : BssField) (offset length : ℕ) : RsvdBuf :=
  { b with reads := b.reads ++ [⟨field, offset, length⟩] }

/-- A `|=` of the two bytes at `p`. -/
def setBits (p : ℕ) (lo hi : UInt8) : RsvdBuf := b.put p [b.mem p ||| lo, b.mem (p + 1) ||| hi]

/-- `SetFrameSubType`. -/
def setFrameSubType (pframe : ℕ) (type : UInt8) : RsvdBuf :=
  b.put pframe [(b.mem pframe &&& 0x03) ||| type, b.mem (pframe + 1)]

/-- `SetSeqNum` with 0. -/
def setSeqNum (pframe : ℕ) : RsvdBuf := b.put (pframe + 22) [b.mem (pframe + 22) &&& 0x0f, 0]

/-- A copy of `get_my_bssid`. -/
def putBssid (net : RsvdNetwork) (p : ℕ) : RsvdBuf :=
  (b.look .macAddress 0 6).put p net.macAddress.toList

/-- A copy of `length` bytes of `IEs` from `offset` on. -/
def putIes (net : RsvdNetwork) (p offset length : ℕ) : RsvdBuf :=
  (b.look .ies offset length).put p ((List.range length).map fun i => net.ies (offset + i))

end RsvdBuf

/-- `rtw_set_ie` with `source` : the end of the element, the length of the frame, and the buffer. -/
def rsvdSetIe (index : UInt8) (source : List UInt8) (r : ℕ × ℕ × RsvdBuf) : ℕ × ℕ × RsvdBuf :=
  (r.1 + source.length + 2, r.2.1 + (source.length + 2),
    r.2.2.put r.1 (index :: UInt8.ofNat source.length :: source))

/-- The header of the beacon and of the probe response. -/
def rsvdMgntHdr (e : RsvdEnv) (addr1 : RsvdBuf → RsvdBuf) (type : UInt8) (pframe : ℕ)
    (b : RsvdBuf) : RsvdBuf :=
  let b := addr1 (b.put pframe [0, 0])
  let b := b.put (pframe + 10) e.myid.toList
  let b := b.putBssid e.network (pframe + 16)
  (b.setSeqNum pframe).setFrameSubType pframe type

/-- The elements of `ConstructBeacon` behind the fixed fields, "below for ad-hoc mode". -/
def rsvdAdhocElements (e : RsvdEnv) (r : ℕ × ℕ × RsvdBuf) : ℕ × ℕ × RsvdBuf :=
  let net := e.network
  let ssid := (List.range net.ssidLength).map fun i => net.ssid.toList.getD i 0
  let r := rsvdSetIe ssidIe ssid (r.1, r.2.1, r.2.2.look .ssid 0 net.ssidLength)
  let rateset := fun i => net.supportedRates.toList.getD i 0
  let rateLen := rtwGetRatesetLen rateset
  let rates := (List.range rateLen).map rateset
  let r := (r.1, r.2.1, r.2.2.look .supportedRates 0 (rateLen + 1))
  let r := rsvdSetIe supportedratesIe (rates.take 8)
    (r.1, r.2.1, r.2.2.look .supportedRates 0 (min rateLen 8))
  let r := rsvdSetIe dssetIe [UInt8.ofNat net.dsConfig] (r.1, r.2.1, r.2.2.look .dsConfig 0 1)
  let r := if e.state &&& 0x03 = wifiFwAdhoc then rsvdSetIe ibssParaIe [0, 0] r else r
  if 8 < rateLen then
    rsvdSetIe extSupportedratesIe (rates.drop 8)
      (r.1, r.2.1, r.2.2.look .supportedRates 8 (rateLen - 8))
  else r

/-- `ConstructBeacon` : `*pLength`, which is `length` before, and the buffer. -/
def constructBeacon (e : RsvdEnv) (length pframe : ℕ) (b : RsvdBuf) : ℕ × RsvdBuf :=
  let net := e.network
  let b := rsvdMgntHdr e (fun b => b.put (pframe + 4) (List.replicate 6 0xff)) 0x80 pframe b
  let pframe := pframe + hdr3addrLen
  let pktlen := hdr3addrLen
  -- the timestamp is inserted by the hardware
  let pframe := pframe + 8
  let pktlen := pktlen + 8
  let b := b.putIes net pframe 8 2
  let pframe := pframe + 2
  let pktlen := pktlen + 2
  let b := b.putIes net pframe 10 2
  let pframe := pframe + 2
  let pktlen := pktlen + 2
  let (pktlen, b) :=
    if e.state &&& 0x03 = wifiFwApState then
      let pktlen := (pktlen + (net.ieLength + 2 ^ 32 - 12)) % 2 ^ 32
      (pktlen, b.putIes net pframe 12 pktlen)
    else
      let r := rsvdAdhocElements e (pframe, pktlen, b)
      (r.2.1, r.2.2)
  -- beacon frame too large
  if 512 < pktlen + txdescSize then (length, b) else (pktlen, b)

/-- `ConstructPSPoll`. -/
def constructPSPoll (e : RsvdEnv) (pframe : ℕ) (b : RsvdBuf) : ℕ × RsvdBuf :=
  let b := ((b.put pframe [0, 0]).setBits pframe 0x00 0x10).setFrameSubType pframe 0xa4
  let b := b.put (pframe + 2) (le16Bytes (e.aid ||| 0xc000))
  let b := b.putBssid e.network (pframe + 4)
  (16, b.put (pframe + 10) e.myid.toList)

/-- `ConstructNullFunctionData`. `StaAddr` is `get_my_bssid` in all calls. -/
def constructNullFunctionData (e : RsvdEnv) (bQoS : Bool) (ac bEosp : UInt8)
    (bForcePowerSave : Bool) (pframe : ℕ) (b : RsvdBuf) : ℕ × RsvdBuf :=
  let b := b.put pframe [0, 0]
  let b := if bForcePowerSave then b.setBits pframe 0x00 0x10 else b
  let b :=
    if e.infrastructureMode = ndis80211Infrastructure then
      let b := (b.setBits pframe 0x00 0x01).putBssid e.network (pframe + 4)
      (b.put (pframe + 10) e.myid.toList).putBssid e.network (pframe + 16)
    else if e.infrastructureMode = ndis80211APMode then
      let b := (b.setBits pframe 0x00 0x02).putBssid e.network (pframe + 4)
      (b.putBssid e.network (pframe + 10)).put (pframe + 16) e.myid.toList
    else
      let b := b.putBssid e.network (pframe + 4)
      (b.put (pframe + 10) e.myid.toList).putBssid e.network (pframe + 16)
  let b := b.setSeqNum pframe
  if bQoS then
    let b := b.setFrameSubType pframe 0xc8
    (26, (b.setBits (pframe + 24) (ac &&& 0xf) 0).setBits (pframe + 24) ((bEosp &&& 1) <<< 4) 0)
  else (hdr3addrLen, b.setFrameSubType pframe 0x48)

/-- `ConstructProbeRsp` : `*pLength`, which is `length` before, and the buffer. -/
def constructProbeRsp (e : RsvdEnv) (length pframe : ℕ) (b : RsvdBuf) : ℕ × RsvdBuf :=
  let net := e.network
  let b := rsvdMgntHdr e (fun b => b.putBssid net (pframe + 4)) 0x50 pframe b
  if maxIeSz < net.ieLength then (length, b)
  else (hdr3addrLen + net.ieLength, b.putIes net (pframe + hdr3addrLen) 0 net.ieLength)

/-- `rtl8188e_fill_fake_txdesc` : the words of the descriptor, with `rtl8188eu_cal_txdesc_chksum`
in the last one. -/
def fakeTxdesc (bufferLen : ℕ) (ispspoll isBtqosnull : Bool) : List ℕ :=
  let txdw0 := 2 ^ 31 ||| 2 ^ 27 ||| 2 ^ 26 ||| txdescSize <<< 16 ||| bufferLen &&& 0xffff
  let txdw1 := 0x12 <<< 8 ||| if ispspoll then 2 ^ 20 else 0
  let txdw2 := if isBtqosnull then 2 ^ 23 else 0
  let txdw3 := if ispspoll then 0 else 8 <<< 28
  let txdw4 := (if ispspoll then 0 else 2 ^ 7) ||| 2 ^ 8
  let words := [txdw0, txdw1, txdw2, txdw3, txdw4, 0, 0]
  words ++ [words.foldl (fun chksum txdw => chksum ^^^ (txdw &&& 0xffff) ^^^ (txdw >>> 16)) 0]

/-- The bytes of the descriptor. -/
def fakeTxdescBytes (bufferLen : ℕ) (ispspoll isBtqosnull : Bool) : List UInt8 :=
  (fakeTxdesc bufferLen ispspoll isBtqosnull).flatMap fun txdw =>
    le16Bytes txdw ++ le16Bytes (txdw / 2 ^ 16)

/-- `PageNum_128`. -/
def pageNum128 (len : ℕ) : ℕ := len / 2 ^ 7 + if len % 2 ^ 7 ≠ 0 then 1 else 0

/-- A packet of the image : the page that is counted for it, the place of its descriptor, and what
is written for it. -/
structure RsvdPacket where
  page : ℕ
  desc : ℕ
  spans : List Span

/-- `PageNum`, `BufIndex` and the buffer. -/
structure RsvdCursor where
  pageNum : ℕ
  bufIndex : ℕ
  buf : RsvdBuf

/-- A packet behind the beacon : it is built, its descriptor is filled, and its pages are counted.
The length of the packet comes with it. -/
def RsvdCursor.packet (c : RsvdCursor) (build : ℕ → RsvdBuf → ℕ × RsvdBuf) (ispspoll : Bool) :
    RsvdPacket × ℕ × RsvdCursor :=
  let r := build c.bufIndex { c.buf with writes := [] }
  let desc := c.bufIndex - txdescSize
  let buf := r.2.put desc (fakeTxdescBytes r.1 ispspoll false)
  let pageNeed := pageNum128 (txdescSize + r.1) % 2 ^ 8
  (⟨c.pageNum, desc, buf.writes⟩, r.1,
    ⟨(c.pageNum + pageNeed) % 2 ^ 8, (c.bufIndex + pageNeed * 128) % 2 ^ 16, buf⟩)

/-- `struct rsvdpage_loc`. -/
structure RsvdpageLoc where
  locProbeRsp : ℕ
  locPsPoll : ℕ
  locNullData : ℕ
  locQosNull : ℕ
  locBTQosNull : ℕ

/-- What `SetFwRsvdPagePkt` makes : the packets, the page that `FwRsvdPageStartOffset` is set to,
the number of bytes that are copied to the frame, the buffer, and the locations that are sent. -/
structure RsvdImage where
  beacon : RsvdPacket
  psPoll : RsvdPacket
  nullData : RsvdPacket
  probeRsp : RsvdPacket
  qosNull : RsvdPacket
  fwRsvdPageStartOffset : ℕ
  totalPacketLen : ℕ
  buf : RsvdBuf
  sent : Option RsvdpageLoc

/-- The cursor behind the beacon, and the beacon. Its descriptor is filled later, in the frame. -/
def rsvdBeacon (e : RsvdEnv) : RsvdPacket × RsvdCursor :=
  let r := constructBeacon e 0 txdescOffset ⟨fun _ => 0, [], []⟩
  let pageNeed := pageNum128 (txdescSize + r.1) % 2 ^ 8
  let pageNeed := if pageNeed = 1 then (pageNeed + 1) % 2 ^ 8 else pageNeed
  (⟨0, txdescOffset - txdescSize, ⟨txdescOffset - txdescSize, txdescSize⟩ :: r.2.writes⟩,
    ⟨pageNeed, (txdescOffset + pageNeed * 128) % 2 ^ 16, r.2⟩)

/-- `SetFwRsvdPagePkt`, when there is memory for the buffer. `frame` says whether
`alloc_mgtxmitframe` has a frame. -/
def setFwRsvdPagePkt (e : RsvdEnv) (frame : Bool) : RsvdImage :=
  let (beacon, c) := rsvdBeacon e
  let start := c.pageNum
  let (psPoll, _, c) := c.packet (constructPSPoll e) true
  let (nullData, _, c) := c.packet (constructNullFunctionData e false 0 0 false) false
  let (probeRsp, _, c) := c.packet (constructProbeRsp e 0) false
  let bufIndex := c.bufIndex
  let (qosNull, qosNullLength, c) := c.packet (constructNullFunctionData e true 0 0 false) false
  let loc := ⟨probeRsp.page, psPoll.page, nullData.page, qosNull.page, e.btQosNull⟩
  ⟨beacon, psPoll, nullData, probeRsp, qosNull, start, bufIndex + qosNullLength, c.buf,
    if frame then some loc else none⟩

/-! ## What is claimed -/

/-- The start of page 0 in the buffer. -/
def rsvdPageBase : ℕ := txdescOffset - txdescSize

namespace RsvdImage

/-- The packets in their order. -/
def packets (r : RsvdImage) : List RsvdPacket :=
  [r.beacon, r.psPoll, r.nullData, r.probeRsp, r.qosNull]

/-- What is claimed of an image : all writes are in the buffer, and so is what is copied to the
frame, all reads are in the network, the packets with their descriptors have no page in common, and
each location is the page where the descriptor starts. -/
structure LaidRight (r : RsvdImage) : Prop where
  writes : ∀ p ∈ r.packets, ∀ s ∈ p.spans, s.start + s.length ≤ reservedPagePacketSize
  copied : r.sent.isSome → r.totalPacketLen ≤ reservedPagePacketSize
  reads : ∀ x ∈ r.buf.reads, x.Inside
  apart : (r.packets.map RsvdPacket.spans).Pairwise (Apart rsvdPageBase 128)
  located : ∀ loc ∈ r.sent, r.psPoll.desc = rsvdPageBase + 128 * loc.locPsPoll ∧
    r.nullData.desc = rsvdPageBase + 128 * loc.locNullData ∧
    r.probeRsp.desc = rsvdPageBase + 128 * loc.locProbeRsp ∧
    r.qosNull.desc = rsvdPageBase + 128 * loc.locQosNull

end RsvdImage

/-! ## What the builders write and read -/

namespace RsvdBuf

/-- A buffer goes on with writes from `lo` up to `hi` and reads inside the fields. -/
structure GoesOn (lo hi : ℕ) (b b' : RsvdBuf) : Prop where
  writes : ∃ spans, b'.writes = b.writes ++ spans ∧
    ∀ s ∈ spans, lo ≤ s.start ∧ s.start + s.length ≤ hi
  reads : ∃ rs, b'.reads = b.reads ++ rs ∧ ∀ r ∈ rs, r.Inside

variable {lo hi : ℕ} {b b' b'' : RsvdBuf}

theorem GoesOn.refl (lo hi : ℕ) (b : RsvdBuf) : GoesOn lo hi b b :=
  ⟨⟨[], (List.append_nil _).symm, nofun⟩, ⟨[], (List.append_nil _).symm, nofun⟩⟩

theorem GoesOn.trans (h : GoesOn lo hi b b') (h' : GoesOn lo hi b' b'') : GoesOn lo hi b b'' := by
  obtain ⟨⟨ws, hws, hin⟩, rs, hrs, hr⟩ := h
  obtain ⟨⟨ws', hws', hin'⟩, rs', hrs', hr'⟩ := h'
  refine ⟨⟨ws ++ ws', ?_, ?_⟩, rs ++ rs', ?_, ?_⟩
  · rw [hws', hws, List.append_assoc]
  · exact fun s hs => (List.mem_append.mp hs).elim (hin s) (hin' s)
  · rw [hrs', hrs, List.append_assoc]
  · exact fun r hmem => (List.mem_append.mp hmem).elim (hr r) (hr' r)

theorem GoesOn.mono (h : GoesOn lo hi b b') {hi' : ℕ} (hle : hi ≤ hi') : GoesOn lo hi' b b' := by
  obtain ⟨⟨ws, hws, hin⟩, hreads⟩ := h
  exact ⟨⟨ws, hws, fun s hs => ⟨(hin s hs).1, (hin s hs).2.trans hle⟩⟩, hreads⟩

theorem GoesOn.put (h : GoesOn lo hi b b') {p : ℕ} {bs : List UInt8} (hlo : lo ≤ p)
    (hhi : p + bs.length ≤ hi) : GoesOn lo hi b (b'.put p bs) := by
  refine h.trans ⟨⟨[⟨p, bs.length⟩], rfl, ?_⟩, [], (List.append_nil _).symm, nofun⟩
  intro s hs
  rw [List.mem_singleton.mp hs]
  exact ⟨hlo, hhi⟩

theorem GoesOn.look (h : GoesOn lo hi b b') {field : BssField} {offset length : ℕ}
    (hin : offset + length ≤ field.size) : GoesOn lo hi b (b'.look field offset length) := by
  refine h.trans ⟨⟨[], (List.append_nil _).symm, nofun⟩, [⟨field, offset, length⟩], rfl, ?_⟩
  intro r hr
  rw [List.mem_singleton.mp hr]
  exact hin

theorem GoesOn.putBssid (h : GoesOn lo hi b b') (net : RsvdNetwork) {p : ℕ} (hlo : lo ≤ p)
    (hhi : p + 6 ≤ hi) : GoesOn lo hi b (b'.putBssid net p) := by
  have hlook : GoesOn lo hi b (b'.look .macAddress 0 6) := h.look le_rfl
  exact hlook.put hlo (by simpa using hhi)

theorem GoesOn.putIes (h : GoesOn lo hi b b') (net : RsvdNetwork) {p offset length : ℕ}
    (hlo : lo ≤ p) (hhi : p + length ≤ hi) (hin : offset + length ≤ maxIeSz) :
    GoesOn lo hi b (b'.putIes net p offset length) := by
  have hlook : GoesOn lo hi b (b'.look .ies offset length) := h.look hin
  exact hlook.put hlo (by simpa using hhi)

theorem GoesOn.setBits (h : GoesOn lo hi b b') {p : ℕ} {x y : UInt8} (hlo : lo ≤ p)
    (hhi : p + 2 ≤ hi) : GoesOn lo hi b (b'.setBits p x y) := h.put hlo hhi

theorem GoesOn.setFrameSubType (h : GoesOn lo hi b b') {p : ℕ} {type : UInt8} (hlo : lo ≤ p)
    (hhi : p + 2 ≤ hi) : GoesOn lo hi b (b'.setFrameSubType p type) := h.put hlo hhi

theorem GoesOn.setSeqNum (h : GoesOn lo hi b b') {p : ℕ} (hlo : lo ≤ p) (hhi : p + 24 ≤ hi) :
    GoesOn lo hi b (b'.setSeqNum p) := h.put (hlo.trans (Nat.le_add_right ..)) hhi

/-- The frame control is cleared first. -/
theorem goesOn_clear (b : RsvdBuf) {p hi : ℕ} (hhi : p + 2 ≤ hi) : GoesOn p hi b (b.put p [0, 0]) :=
  (GoesOn.refl p hi b).put le_rfl hhi

theorem GoesOn.putAddr (h : GoesOn lo hi b b') (addr : MacAddr) {p : ℕ} (hlo : lo ≤ p)
    (hhi : p + 6 ≤ hi) : GoesOn lo hi b (b'.put p addr.toList) := by
  refine h.put hlo ?_
  rw [Vector.length_toList]
  exact hhi

end RsvdBuf

open RsvdBuf

theorem goesOn_rsvdMgntHdr (e : RsvdEnv) {addr1 : RsvdBuf → RsvdBuf} {type : UInt8} {pframe : ℕ}
    {b : RsvdBuf} (haddr1 : ∀ b', GoesOn pframe (pframe + 24) b b' →
      GoesOn pframe (pframe + 24) b (addr1 b')) :
    GoesOn pframe (pframe + 24) b (rsvdMgntHdr e addr1 type pframe b) := by
  have hfirst := haddr1 _ (goesOn_clear b (by omega))
  have haddrs := (hfirst.putAddr e.myid (p := pframe + 10) (by omega) (by omega)).putBssid
    e.network (p := pframe + 16) (by omega) (by omega)
  exact (haddrs.setSeqNum le_rfl le_rfl).setFrameSubType le_rfl (by omega)

theorem goesOn_constructPSPoll (e : RsvdEnv) (pframe : ℕ) (b : RsvdBuf) :
    GoesOn pframe (pframe + 16) b (constructPSPoll e pframe b).2 := by
  have hctl : GoesOn pframe (pframe + 16) b
      (((b.put pframe [0, 0]).setBits pframe 0x00 0x10).setFrameSubType pframe 0xa4) :=
    ((goesOn_clear b (by omega)).setBits le_rfl (by omega)).setFrameSubType le_rfl (by omega)
  have hdur : GoesOn pframe (pframe + 16) b
      (RsvdBuf.put _ (pframe + 2) (le16Bytes (e.aid ||| 0xc000))) :=
    hctl.put (by omega) (by simp [le16Bytes])
  exact (hdur.putBssid e.network (by omega) (by omega)).putAddr e.myid (by omega) (by omega)

theorem length_constructPSPoll (e : RsvdEnv) (pframe : ℕ) (b : RsvdBuf) :
    (constructPSPoll e pframe b).1 = 16 := rfl

/-- The length of a null frame. -/
def nullLen (bQoS : Bool) : ℕ := if bQoS then 26 else 24

theorem goesOn_constructNullFunctionData (e : RsvdEnv) (bQoS : Bool) (ac bEosp : UInt8)
    (bForcePowerSave : Bool) (pframe : ℕ) (b : RsvdBuf) :
    GoesOn pframe (pframe + nullLen bQoS) b
      (constructNullFunctionData e bQoS ac bEosp bForcePowerSave pframe b).2 := by
  have hlen : 24 ≤ nullLen bQoS := by cases bQoS <;> decide
  have hpwr : ∀ b', GoesOn pframe (pframe + nullLen bQoS) b b' →
      GoesOn pframe (pframe + nullLen bQoS) b
        (if bForcePowerSave then b'.setBits pframe 0x00 0x10 else b') := by
    intro b' h
    split_ifs
    · exact h.setBits le_rfl (by omega)
    · exact h
  have hctl := hpwr _ (goesOn_clear b (by omega))
  unfold constructNullFunctionData
  dsimp only
  generalize (if bForcePowerSave then (b.put pframe [0, 0]).setBits pframe 0x00 0x10
    else b.put pframe [0, 0]) = b' at hctl ⊢
  have haddrs : GoesOn pframe (pframe + nullLen bQoS) b
      (if e.infrastructureMode = ndis80211Infrastructure then
        (((b'.setBits pframe 0x00 0x01).putBssid e.network (pframe + 4)).put (pframe + 10)
          e.myid.toList).putBssid e.network (pframe + 16)
      else if e.infrastructureMode = ndis80211APMode then
        (((b'.setBits pframe 0x00 0x02).putBssid e.network (pframe + 4)).putBssid e.network
          (pframe + 10)).put (pframe + 16) e.myid.toList
      else
        ((b'.putBssid e.network (pframe + 4)).put (pframe + 10) e.myid.toList).putBssid
          e.network (pframe + 16)) := by
    split_ifs
    · exact (((hctl.setBits le_rfl (by omega)).putBssid _ (by omega) (by omega)).putAddr _
        (by omega) (by omega)).putBssid _ (by omega) (by omega)
    · exact (((hctl.setBits le_rfl (by omega)).putBssid _ (by omega) (by omega)).putBssid _
        (by omega) (by omega)).putAddr _ (by omega) (by omega)
    · exact ((hctl.putBssid _ (by omega) (by omega)).putAddr _ (by omega) (by omega)).putBssid _
        (by omega) (by omega)
  have hseq := haddrs.setSeqNum le_rfl (by omega)
  cases bQoS with
  | true =>
    exact ((hseq.setFrameSubType le_rfl (by omega)).setBits (by omega)
      (by rw [nullLen]; simp)).setBits (by omega) (by rw [nullLen]; simp)
  | false => exact hseq.setFrameSubType le_rfl (by omega)

theorem length_constructNullFunctionData (e : RsvdEnv) (bQoS : Bool) (ac bEosp : UInt8)
    (bForcePowerSave : Bool) (pframe : ℕ) (b : RsvdBuf) :
    (constructNullFunctionData e bQoS ac bEosp bForcePowerSave pframe b).1 = nullLen bQoS := by
  unfold constructNullFunctionData nullLen
  cases bQoS <;> rfl

theorem length_constructProbeRsp (e : RsvdEnv) (length pframe : ℕ) (b : RsvdBuf) :
    (constructProbeRsp e length pframe b).1 = 24 + e.network.ieLength := by
  unfold constructProbeRsp
  dsimp only
  rw [if_neg (Nat.not_lt.mpr e.network.ieLength_le)]
  rfl

theorem goesOn_constructProbeRsp (e : RsvdEnv) (length pframe : ℕ) (b : RsvdBuf) :
    GoesOn pframe (pframe + (24 + e.network.ieLength)) b
      (constructProbeRsp e length pframe b).2 := by
  unfold constructProbeRsp
  dsimp only
  rw [if_neg (Nat.not_lt.mpr e.network.ieLength_le)]
  have hhdr : GoesOn pframe (pframe + 24) b
      (rsvdMgntHdr e (fun b => b.putBssid e.network (pframe + 4)) 0x50 pframe b) :=
    goesOn_rsvdMgntHdr e fun b' h => h.putBssid e.network (by omega) (by omega)
  refine (hhdr.mono (by omega)).putIes e.network (by omega) ?_ ?_
  · rw [hdr3addrLen, Nat.add_assoc]
  · rw [Nat.zero_add]
    exact e.network.ieLength_le

/-! ## The beacon -/

/-- The header and the fixed fields of the beacon. -/
def beaconHead (e : RsvdEnv) (pframe : ℕ) (b : RsvdBuf) : RsvdBuf :=
  ((rsvdMgntHdr e (fun b => b.put (pframe + 4) (List.replicate 6 0xff)) 0x80 pframe b).putIes
    e.network (pframe + 32) 8 2).putIes e.network (pframe + 34) 10 2

theorem goesOn_beaconHead (e : RsvdEnv) (pframe : ℕ) (b : RsvdBuf) :
    GoesOn pframe (pframe + 36) b (beaconHead e pframe b) := by
  have hhdr : GoesOn pframe (pframe + 24) b
      (rsvdMgntHdr e (fun b => b.put (pframe + 4) (List.replicate 6 0xff)) 0x80 pframe b) :=
    goesOn_rsvdMgntHdr e fun b' h => h.put (by omega) (by simp)
  exact ((hhdr.mono (by omega)).putIes _ (by omega) (by omega) (by decide)).putIes _ (by omega)
    (by omega) (by decide)

/-- The beacon of an access point : the elements are copied with the length of the whole frame. -/
theorem constructBeacon_ap {e : RsvdEnv} (h : e.state &&& 0x03 = wifiFwApState)
    (length pframe : ℕ) (b : RsvdBuf) : constructBeacon e length pframe b =
      (if 456 < e.network.ieLength then length else e.network.ieLength + 24,
        (beaconHead e pframe b).putIes e.network (pframe + 36) 12 (e.network.ieLength + 24)) := by
  have hle : e.network.ieLength ≤ 768 := e.network.ieLength_le
  have hlen : (hdr3addrLen + 8 + 2 + 2 + (e.network.ieLength + 2 ^ 32 - 12)) % 2 ^ 32 =
      e.network.ieLength + 24 := by
    rw [hdr3addrLen]
    omega
  unfold constructBeacon
  dsimp only
  rw [if_pos h]
  dsimp only
  rw [hlen, txdescSize]
  by_cases hbig : 456 < e.network.ieLength
  · rw [if_pos (by omega), if_pos hbig]
    rfl
  · rw [if_neg (by omega), if_neg hbig]
    rfl

/-- A frame at `p` with `pktlen` bytes, of at most `n`. -/
structure Grown (p n : ℕ) (b : RsvdBuf) (r : ℕ × ℕ × RsvdBuf) : Prop where
  pos : r.1 = p + r.2.1
  len : r.2.1 ≤ n
  goes : GoesOn p (p + n) b r.2.2

namespace Grown

variable {p n : ℕ} {b : RsvdBuf} {r : ℕ × ℕ × RsvdBuf}

theorem setIe (h : Grown p n b r) (index : UInt8) {source : List UInt8} {k : ℕ}
    (hk : source.length + 2 ≤ k) : Grown p (n + k) b (rsvdSetIe index source r) := by
  have hpos := h.pos
  have hlen := h.len
  refine ⟨?_, ?_, (h.goes.mono (by omega)).put ?_ ?_⟩
  · simp only [rsvdSetIe]
    omega
  · simp only [rsvdSetIe]
    omega
  · omega
  · simp only [List.length_cons]
    omega

theorem look (h : Grown p n b r) {field : BssField} {offset length : ℕ}
    (hin : offset + length ≤ field.size) :
    Grown p n b (r.1, r.2.1, r.2.2.look field offset length) :=
  ⟨h.pos, h.len, h.goes.look hin⟩

theorem mono (h : Grown p n b r) {n' : ℕ} (hle : n ≤ n') : Grown p n' b r :=
  ⟨h.pos, h.len.trans hle, h.goes.mono (by omega)⟩

end Grown

theorem rtwGetRatesetLenLoop_le (rateset : ℕ → UInt8) :
    ∀ fuel i : ℕ, i + fuel ≤ 14 → i ≤ 13 → rtwGetRatesetLenLoop rateset fuel i ≤ 13
  | 0, i, _, hi => hi
  | fuel + 1, i, h, hi => by
    rw [rtwGetRatesetLenLoop]
    split_ifs
    · exact hi
    · exact hi
    · exact rtwGetRatesetLenLoop_le rateset fuel (i + 1) (by omega) (by omega)

theorem rtwGetRatesetLen_le (rateset : ℕ → UInt8) : rtwGetRatesetLen rateset ≤ 13 :=
  rtwGetRatesetLenLoop_le rateset 14 0 le_rfl (by omega)

theorem grown_rsvdAdhocElements (e : RsvdEnv) {p : ℕ} {b : RsvdBuf} {r : ℕ × ℕ × RsvdBuf}
    (h : Grown p 36 b r) : Grown p 94 b (rsvdAdhocElements e r) := by
  unfold rsvdAdhocElements
  extract_lets net ssid r1 rateset rateLen rates r2 r3 r4 r5
  have hrates : rateLen ≤ 13 := rtwGetRatesetLen_le rateset
  have hlen : rates.length = rateLen := by simp [rates]
  have h1 : Grown p (36 + 34) b r1 := by
    refine Grown.setIe (h.look ?_) ssidIe ?_
    · rw [Nat.zero_add]
      exact net.ssidLength_le
    · rw [List.length_map, List.length_range]
      exact Nat.add_le_add_right net.ssidLength_le 2
  have h2 : Grown p (36 + 34) b r2 := h1.look (by rw [BssField.size]; omega)
  have h3 : Grown p (36 + 34 + 10) b r3 := by
    refine Grown.setIe (h2.look (by rw [BssField.size]; omega)) supportedratesIe ?_
    rw [List.length_take]
    omega
  have h4 : Grown p (36 + 34 + 10 + 3) b r4 :=
    Grown.setIe (h3.look (by decide)) dssetIe (by simp)
  have h5 : Grown p (36 + 34 + 10 + 3 + 4) b r5 := by
    by_cases hadhoc : e.state &&& 0x03 = wifiFwAdhoc
    · rw [show r5 = _ from if_pos hadhoc]
      exact h4.setIe ibssParaIe (by simp)
    · rw [show r5 = _ from if_neg hadhoc]
      exact h4.mono (by omega)
  split_ifs with hext
  · have hlook : Grown p (36 + 34 + 10 + 3 + 4) b
        (r5.1, r5.2.1, r5.2.2.look .supportedRates 8 (rateLen - 8)) :=
      h5.look (by rw [BssField.size]; omega)
    have hle : (rates.drop 8).length + 2 ≤ 7 := by
      rw [List.length_drop]
      omega
    exact hlook.setIe extSupportedratesIe hle
  · exact h5.mono (by omega)

/-- The beacon of a station has 94 bytes at most. -/
theorem constructBeacon_station {e : RsvdEnv} (h : e.state &&& 0x03 ≠ wifiFwApState)
    (length pframe : ℕ) (b : RsvdBuf) : (constructBeacon e length pframe b).1 ≤ 94 ∧
      GoesOn pframe (pframe + 94) b (constructBeacon e length pframe b).2 := by
  have hhead : Grown pframe 36 b (pframe + 36, 36, beaconHead e pframe b) :=
    ⟨rfl, le_rfl, goesOn_beaconHead e pframe b⟩
  have helems := grown_rsvdAdhocElements e hhead
  have hlen := helems.len
  have heq : constructBeacon e length pframe b =
      ((rsvdAdhocElements e (pframe + 36, 36, beaconHead e pframe b)).2.1,
        (rsvdAdhocElements e (pframe + 36, 36, beaconHead e pframe b)).2.2) := by
    unfold constructBeacon
    dsimp only
    rw [if_neg h]
    exact if_neg (Nat.not_lt.mpr ((Nat.add_le_add_right hlen txdescSize).trans (by decide)))
  rw [heq]
  exact ⟨hlen, helems.goes⟩

/-! ## The places of the packets -/

theorem le_pageNum128 (len : ℕ) : len ≤ 128 * pageNum128 len := by
  rw [pageNum128]
  split_ifs <;> omega

theorem length_fakeTxdescBytes (bufferLen : ℕ) (ispspoll isBtqosnull : Bool) :
    (fakeTxdescBytes bufferLen ispspoll isBtqosnull).length = txdescSize := by
  simp [fakeTxdescBytes, fakeTxdesc, le16Bytes, txdescSize]

/-- A packet of `length` bytes whose descriptor starts page `n`. -/
structure Placed (n length : ℕ) (p : RsvdPacket) : Prop where
  page : p.page = n
  desc : p.desc = rsvdPageBase + 128 * n
  mem : ⟨rsvdPageBase + 128 * n, txdescSize⟩ ∈ p.spans
  spans : ∀ s ∈ p.spans, rsvdPageBase + 128 * n ≤ s.start ∧
    s.start + s.length ≤ txdescOffset + 128 * n + length

/-- The pages that are counted for a packet hold it. -/
theorem Placed.within {n length : ℕ} {p : RsvdPacket} (h : Placed n length p) :
    Within rsvdPageBase 128 n (pageNum128 (txdescSize + length)) p.spans := by
  intro s hs
  obtain ⟨hstart, hend⟩ := h.spans s hs
  have hle := le_pageNum128 (txdescSize + length)
  refine ⟨hstart, hend.trans ?_⟩
  change 32 + length ≤ _ at hle
  change 40 + 128 * n + length ≤ 8 + 128 * (n + pageNum128 (32 + length))
  change _ ≤ 128 * pageNum128 (32 + length) at hle
  omega

namespace RsvdCursor

variable {c : RsvdCursor} {n length : ℕ} {build : ℕ → RsvdBuf → ℕ × RsvdBuf}

/-- The cursor is at the start of a page. -/
def At (n : ℕ) (c : RsvdCursor) : Prop := c.pageNum = n ∧ c.bufIndex = txdescOffset + 128 * n

/-- What is read is in the network. -/
def ReadsInside (c : RsvdCursor) : Prop := ∀ r ∈ c.buf.reads, r.Inside

/-- A packet whose pages are few enough for the counters. -/
theorem packet_spec (hat : c.At n) (ispspoll : Bool)
    (hlen : (build c.bufIndex { c.buf with writes := [] }).1 = length)
    (hsmall : n + pageNum128 (txdescSize + length) < 256)
    (hgoes : GoesOn c.bufIndex (c.bufIndex + length) { c.buf with writes := [] }
      (build c.bufIndex { c.buf with writes := [] }).2) :
    Placed n length (c.packet build ispspoll).1 ∧ (c.packet build ispspoll).2.1 = length ∧
      (c.packet build ispspoll).2.2.At (n + pageNum128 (txdescSize + length)) ∧
      (c.ReadsInside → (c.packet build ispspoll).2.2.ReadsInside) := by
  obtain ⟨hpage, hindex⟩ := hat
  obtain ⟨⟨ws, hws, hin⟩, rs, hrs, hr⟩ := hgoes
  have hdesc : c.bufIndex - txdescSize = rsvdPageBase + 128 * n := by
    rw [hindex]
    exact Nat.sub_add_comm (by decide)
  have hspans : (c.packet build ispspoll).1.spans =
      ws ++ [⟨rsvdPageBase + 128 * n, txdescSize⟩] := by
    rw [← hdesc]
    simp only [packet, RsvdBuf.put, hws, length_fakeTxdescBytes]
    rfl
  refine ⟨⟨hpage, hdesc, ?_, ?_⟩, hlen, ⟨?_, ?_⟩, ?_⟩
  · rw [hspans]
    exact List.mem_append_right _ (List.mem_singleton_self _)
  · rw [hspans]
    intro s hs
    rcases List.mem_append.mp hs with hs | hs
    · have hbounds := hin s hs
      rw [hindex] at hbounds
      exact ⟨(Nat.add_le_add_right (by decide) _).trans hbounds.1, hbounds.2⟩
    · rw [List.mem_singleton.mp hs]
      refine ⟨le_rfl, ?_⟩
      change 8 + 128 * n + 32 ≤ 40 + 128 * n + length
      omega
  · simp only [packet, hpage, hlen]
    omega
  · simp only [packet]
    rw [hlen, hindex, show txdescOffset = 40 from rfl]
    omega
  · intro hreads r hmem
    have hmem' : r ∈ c.buf.reads ++ rs := by
      rw [← hrs]
      exact hmem
    exact (List.mem_append.mp hmem').elim (hreads r) (hr r)

end RsvdCursor

/-- The beacon in an empty buffer. -/
def firstBeacon (e : RsvdEnv) : ℕ × RsvdBuf := constructBeacon e 0 txdescOffset ⟨fun _ => 0, [], []⟩

/-- The beacon has two pages at least. -/
def beaconPages (length : ℕ) : ℕ := max 2 (pageNum128 (txdescSize + length))

theorem beaconPages_le {length : ℕ} (h : length ≤ 480) : beaconPages length ≤ 4 := by
  rw [beaconPages, txdescSize, pageNum128]
  split_ifs <;> omega

theorem beaconPages_eq_two {length : ℕ} (h : length ≤ 224) : beaconPages length = 2 := by
  rw [beaconPages, txdescSize, pageNum128]
  split_ifs <;> omega

theorem rsvdBeacon_at {e : RsvdEnv} {length : ℕ} (hlen : (firstBeacon e).1 = length)
    (h : length ≤ 480) : (rsvdBeacon e).2.At (beaconPages length) := by
  have hneed : (if pageNum128 (txdescSize + length) % 2 ^ 8 = 1 then
      (pageNum128 (txdescSize + length) % 2 ^ 8 + 1) % 2 ^ 8
      else pageNum128 (txdescSize + length) % 2 ^ 8) = beaconPages length := by
    rw [beaconPages, txdescSize, pageNum128]
    split_ifs <;> omega
  have hpages := beaconPages_le h
  have hcursor : (rsvdBeacon e).2 = ⟨beaconPages length,
      (txdescOffset + beaconPages length * 128) % 2 ^ 16, (firstBeacon e).2⟩ := by
    rw [← hneed, ← hlen]
    rfl
  rw [hcursor]
  refine ⟨rfl, ?_⟩
  change (40 + beaconPages length * 128) % 2 ^ 16 = 40 + 128 * beaconPages length
  omega

/-- The image behind a beacon of `n` pages. -/
theorem image_spec (e : RsvdEnv) (frame : Bool) {n : ℕ} (hn : n ≤ 4)
    (hat : (rsvdBeacon e).2.At n) {k : ℕ}
    (hk : k = pageNum128 (txdescSize + (24 + e.network.ieLength))) :
    Placed n 16 (setFwRsvdPagePkt e frame).psPoll ∧
      Placed (n + 1) 24 (setFwRsvdPagePkt e frame).nullData ∧
      Placed (n + 2) (24 + e.network.ieLength) (setFwRsvdPagePkt e frame).probeRsp ∧
      Placed (n + 2 + k) 26 (setFwRsvdPagePkt e frame).qosNull ∧
      (setFwRsvdPagePkt e frame).totalPacketLen = txdescOffset + 128 * (n + 2 + k) + 26 ∧
      ((rsvdBeacon e).2.ReadsInside → ∀ r ∈ (setFwRsvdPagePkt e frame).buf.reads, r.Inside) := by
  have hle : e.network.ieLength ≤ 768 := e.network.ieLength_le
  have hk7 : k ≤ 7 := by
    rw [hk, txdescSize, pageNum128]
    split_ifs <;> omega
  obtain ⟨hps, -, hat1, hreads1⟩ := RsvdCursor.packet_spec hat true
    (length_constructPSPoll e _ _) (by change n + 1 < 256; omega) (goesOn_constructPSPoll e _ _)
  obtain ⟨hnull, -, hat2, hreads2⟩ := RsvdCursor.packet_spec hat1 false
    (length_constructNullFunctionData e false 0 0 false _ _) (by change n + 1 + 1 < 256; omega)
    (goesOn_constructNullFunctionData e false 0 0 false _ _)
  obtain ⟨hprobe, -, hat3, hreads3⟩ := RsvdCursor.packet_spec hat2 false
    (length_constructProbeRsp e 0 _ _) (by rw [← hk]; change n + 1 + 1 + k < 256; omega)
    (goesOn_constructProbeRsp e 0 _ _)
  rw [← hk] at hat3
  obtain ⟨hqos, hlen, -, hreads4⟩ := RsvdCursor.packet_spec hat3 false
    (length_constructNullFunctionData e true 0 0 false _ _)
    (by change n + 1 + 1 + k + 1 < 256; omega)
    (goesOn_constructNullFunctionData e true 0 0 false _ _)
  refine ⟨hps, hnull, hprobe, hqos, ?_, fun h => hreads4 (hreads3 (hreads2 (hreads1 h)))⟩
  exact congrArg₂ (· + ·) hat3.2 hlen

/-! ## The image -/

variable {e : RsvdEnv} {frame : Bool}

theorem mem_sent {loc : RsvdpageLoc} (h : loc ∈ (setFwRsvdPagePkt e frame).sent) :
    loc = ⟨(setFwRsvdPagePkt e frame).probeRsp.page, (setFwRsvdPagePkt e frame).psPoll.page,
      (setFwRsvdPagePkt e frame).nullData.page, (setFwRsvdPagePkt e frame).qosNull.page,
      e.btQosNull⟩ := by
  cases frame with
  | true => exact (Option.some.inj h).symm
  | false => cases h

/-- Each location is the page of the descriptor. -/
theorem located_of_spec {n k length : ℕ} (hps : Placed n 16 (setFwRsvdPagePkt e frame).psPoll)
    (hnull : Placed (n + 1) 24 (setFwRsvdPagePkt e frame).nullData)
    (hprobe : Placed (n + 2) length (setFwRsvdPagePkt e frame).probeRsp)
    (hqos : Placed (n + 2 + k) 26 (setFwRsvdPagePkt e frame).qosNull) {loc : RsvdpageLoc}
    (h : loc ∈ (setFwRsvdPagePkt e frame).sent) :
    (setFwRsvdPagePkt e frame).psPoll.desc = rsvdPageBase + 128 * loc.locPsPoll ∧
      (setFwRsvdPagePkt e frame).nullData.desc = rsvdPageBase + 128 * loc.locNullData ∧
      (setFwRsvdPagePkt e frame).probeRsp.desc = rsvdPageBase + 128 * loc.locProbeRsp ∧
      (setFwRsvdPagePkt e frame).qosNull.desc = rsvdPageBase + 128 * loc.locQosNull := by
  rw [mem_sent h]
  refine ⟨?_, ?_, ?_, ?_⟩
  · rw [hps.desc, hps.page]
  · rw [hnull.desc, hnull.page]
  · rw [hprobe.desc, hprobe.page]
  · rw [hqos.desc, hqos.page]

/-- The packets behind a beacon of two pages, with their pages. -/
def placements (k : ℕ) (r : RsvdImage) : List Placement :=
  [⟨0, 2, r.beacon.spans⟩, ⟨2, 1, r.psPoll.spans⟩, ⟨3, 1, r.nullData.spans⟩,
    ⟨4, k, r.probeRsp.spans⟩, ⟨4 + k, 1, r.qosNull.spans⟩]

theorem isChain_placements (k : ℕ) (r : RsvdImage) :
    (placements k r).IsChain Placement.Before := by
  simp [placements, Placement.Before]

/-- Behind a beacon that is in two pages, there is room for the elements up to 328 bytes. -/
theorem laidRight_of (hat : (rsvdBeacon e).2.At 2)
    (hbeacon : Within rsvdPageBase 128 0 2 (rsvdBeacon e).1.spans)
    (hreads : (rsvdBeacon e).2.ReadsInside) (hie : e.network.ieLength ≤ 328) :
    (setFwRsvdPagePkt e frame).LaidRight := by
  obtain ⟨k, hk⟩ : ∃ k, k = pageNum128 (txdescSize + (24 + e.network.ieLength)) := ⟨_, rfl⟩
  obtain ⟨hps, hnull, hprobe, hqos, htotal, hall⟩ := image_spec e frame (by omega) hat hk
  have hk3 : k ≤ 3 := by
    rw [hk, txdescSize, pageNum128]
    split_ifs <;> omega
  have hprobeWithin := hprobe.within
  rw [← hk] at hprobeWithin
  refine ⟨?_, fun _ => ?_, hall hreads, ?_, fun loc h => located_of_spec hps hnull hprobe hqos h⟩
  · intro p hp s hs
    simp only [RsvdImage.packets, List.mem_cons, List.not_mem_nil, or_false] at hp
    rcases hp with rfl | rfl | rfl | rfl | rfl
    · exact (hbeacon s hs).2.trans (by decide)
    · exact (hps.spans s hs).2.trans (by decide)
    · exact (hnull.spans s hs).2.trans (by decide)
    · refine (hprobe.spans s hs).2.trans ?_
      change 40 + 128 * (2 + 2) + (24 + e.network.ieLength) ≤ 1000
      omega
    · refine (hqos.spans s hs).2.trans ?_
      change 40 + 128 * (2 + 2 + k) + 26 ≤ 1000
      omega
  · rw [htotal]
    change 40 + 128 * (2 + 2 + k) + 26 ≤ 1000
    omega
  · refine pairwise_apart (isChain_placements k (setFwRsvdPagePkt e frame)) ?_
    intro a ha
    simp only [placements, List.mem_cons, List.not_mem_nil, or_false] at ha
    rcases ha with rfl | rfl | rfl | rfl | rfl
    · exact hbeacon
    · exact hps.within
    · exact hnull.within
    · exact hprobeWithin
    · exact hqos.within

/-- The descriptor of the last packet is behind the buffer from page 8 on. -/
theorem not_laidRight_of_late {n k : ℕ}
    (hqos : Placed (n + 2 + k) 26 (setFwRsvdPagePkt e frame).qosNull) (hlate : 8 ≤ n + 2 + k) :
    ¬ (setFwRsvdPagePkt e frame).LaidRight := by
  intro h
  have hend := h.writes _ (by simp [RsvdImage.packets]) _ hqos.mem
  change 8 + 128 * (n + 2 + k) + 32 ≤ 1000 at hend
  omega

theorem le_of_laidRight {n k : ℕ} (hn : n ≤ 4) (hat : (rsvdBeacon e).2.At n)
    (hk : k = pageNum128 (txdescSize + (24 + e.network.ieLength)))
    (h : (setFwRsvdPagePkt e frame).LaidRight) : n + 2 + k < 8 := by
  obtain ⟨-, -, -, hqos, -⟩ := image_spec e frame hn hat hk
  exact Nat.not_le.mp fun hlate => not_laidRight_of_late hqos hlate h

/-- A beacon that is written in two pages, with its reads in the network. -/
theorem beacon_within {hi : ℕ}
    (h : GoesOn txdescOffset hi ⟨fun _ => 0, [], []⟩ (firstBeacon e).2) (hhi : hi ≤ 264) :
    Within rsvdPageBase 128 0 2 (rsvdBeacon e).1.spans ∧ (rsvdBeacon e).2.ReadsInside := by
  obtain ⟨⟨ws, hws, hin⟩, rs, hrs, hr⟩ := h
  have hspans : (rsvdBeacon e).1.spans = ⟨rsvdPageBase, txdescSize⟩ :: ws :=
    congrArg (List.cons _) hws
  refine ⟨?_, fun r hmem => hr r ?_⟩
  · rw [hspans]
    intro s hs
    rcases List.mem_cons.mp hs with rfl | hs
    · exact ⟨le_rfl, by decide⟩
    · obtain ⟨hstart, hend⟩ := hin s hs
      exact ⟨(show rsvdPageBase + 128 * 0 ≤ txdescOffset by decide).trans hstart,
        (hend.trans hhi).trans (by decide)⟩
  · rw [List.nil_append] at hrs
    rw [← hrs]
    exact hmem

theorem laidRight_station (h : e.state &&& 0x03 ≠ wifiFwApState) :
    (setFwRsvdPagePkt e frame).LaidRight ↔ e.network.ieLength ≤ 328 := by
  obtain ⟨hlen, hgoes⟩ := constructBeacon_station h 0 txdescOffset ⟨fun _ => 0, [], []⟩
  have hat : (rsvdBeacon e).2.At 2 := by
    have hpages : beaconPages (firstBeacon e).1 = 2 := beaconPages_eq_two (hlen.trans (by omega))
    have hspec := rsvdBeacon_at (e := e) rfl (hlen.trans (by omega))
    rwa [hpages] at hspec
  constructor
  · intro hright
    have hlt := le_of_laidRight (by omega) hat rfl hright
    have hle := le_pageNum128 (txdescSize + (24 + e.network.ieLength))
    rw [txdescSize] at hle hlt
    omega
  · intro hie
    obtain ⟨hwithin, hreads⟩ := beacon_within hgoes (by decide)
    exact laidRight_of hat hwithin hreads hie

theorem mem_beacon_spans (h : e.state &&& 0x03 = wifiFwApState) :
    ⟨txdescOffset + 36, e.network.ieLength + 24⟩ ∈ (setFwRsvdPagePkt e frame).beacon.spans := by
  have hbeacon := congrArg Prod.snd (constructBeacon_ap h 0 txdescOffset ⟨fun _ => 0, [], []⟩)
  refine List.mem_cons_of_mem _ ?_
  rw [hbeacon]
  simp [RsvdBuf.putIes, RsvdBuf.put]

theorem laidRight_ap (h : e.state &&& 0x03 = wifiFwApState) :
    (setFwRsvdPagePkt e frame).LaidRight ↔ e.network.ieLength ≤ 164 := by
  have hbeacon := constructBeacon_ap h 0 txdescOffset ⟨fun _ => 0, [], []⟩
  have hlen : (firstBeacon e).1 =
      if 456 < e.network.ieLength then 0 else e.network.ieLength + 24 :=
    congrArg Prod.fst hbeacon
  have h480 : (firstBeacon e).1 ≤ 480 := by
    rw [hlen]
    split_ifs <;> omega
  have hat := rsvdBeacon_at rfl h480
  constructor
  · intro hright
    have hlt := le_of_laidRight (beaconPages_le h480) hat rfl hright
    have hle : e.network.ieLength ≤ 200 := by
      rw [hlen, beaconPages, txdescSize, pageNum128, pageNum128] at hlt
      split_ifs at hlt <;> omega
    have hpages : beaconPages (firstBeacon e).1 = 2 :=
      beaconPages_eq_two (by rw [hlen, if_neg (by omega)]; omega)
    rw [hpages] at hat
    obtain ⟨hps, -⟩ := image_spec e frame (by omega) hat rfl
    by_contra hbig
    have hapart : Apart rsvdPageBase 128 (setFwRsvdPagePkt e frame).beacon.spans
        (setFwRsvdPagePkt e frame).psPoll.spans :=
      (List.pairwise_cons.mp hright.apart).1 _ List.mem_cons_self
    -- the copy of the elements reaches byte 264, where page 2 begins
    refine hapart 2 ⟨⟨_, mem_beacon_spans h, 264, ?_⟩, ⟨_, hps.mem, 264, ?_⟩⟩
    · change 40 + 36 ≤ 264 ∧ 264 < 40 + 36 + (e.network.ieLength + 24) ∧ 8 + 128 * 2 ≤ 264 ∧
        264 < 8 + 128 * (2 + 1)
      omega
    · decide
  · intro hie
    have hpages : beaconPages (firstBeacon e).1 = 2 :=
      beaconPages_eq_two (by rw [hlen, if_neg (by omega)]; omega)
    have hgoes : GoesOn txdescOffset 264 ⟨fun _ => 0, [], []⟩ (firstBeacon e).2 := by
      rw [show (firstBeacon e).2 = _ from congrArg Prod.snd hbeacon]
      refine ((goesOn_beaconHead e _ _).mono (by decide)).putIes _ (Nat.le_add_right _ _) ?_ ?_
      · change 40 + 36 + (e.network.ieLength + 24) ≤ 264
        omega
      · change 12 + (e.network.ieLength + 24) ≤ 768
        omega
    obtain ⟨hwithin, hreads⟩ := beacon_within hgoes le_rfl
    rw [hpages] at hat
    exact laidRight_of hat hwithin hreads (by omega)

/-- The image is right exactly if the elements have 328 bytes at most, and 164 if the station is an
access point. -/
theorem laidRight_iff (e : RsvdEnv) (frame : Bool) : (setFwRsvdPagePkt e frame).LaidRight ↔
    e.network.ieLength ≤ if e.state &&& 0x03 = wifiFwApState then 164 else 328 := by
  split_ifs with h
  · exact laidRight_ap h
  · exact laidRight_station h

/-- A station in a network with 400 bytes of elements. -/
def sampleRsvdEnv : RsvdEnv where
  network :=
    { macAddress := Vector.replicate 6 0x02
      ssidLength := 4
      ssid := Vector.replicate 32 0x61
      dsConfig := 6
      supportedRates := Vector.replicate 16 0x82
      ieLength := 400
      ies := fun _ => 0
      ssidLength_le := by decide
      ieLength_le := by decide }
  state := 0x02
  aid := 1
  myid := Vector.replicate 6 0x04
  infrastructureMode := ndis80211Infrastructure
  btQosNull := 0

/-- The last descriptor is written at byte 1032 of the 1000 bytes. -/
theorem not_laidRight_sampleRsvdEnv : ¬ (setFwRsvdPagePkt sampleRsvdEnv true).LaidRight := by
  rw [laidRight_station (by decide)]
  decide

end Rtl8188eu
