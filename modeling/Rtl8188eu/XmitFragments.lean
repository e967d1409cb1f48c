import Rtl8188eu.PacketNumbers

/-!
# Fragments that are transmitted

`rtw_xmitframe_coalesce` writes the fragments of a packet into one buffer, one behind the other,
each with room for a TX descriptor before it. Then `xmitframe_addmic`, the loops of
`rtw_wep_encrypt`, `rtw_tkip_encrypt` and `rtw_aes_encrypt`, and `rtw_dump_xframe` go over the
fragments, and each of them computes again where the fragments are and how long they are.

`IsLayout` says where the fragments were written. The encryption counts four bytes more for each
fragment and does not step over the descriptors, so it misses every fragment but the first, and
`rtw_dump_xframe` finds them under the conditions of `layoutAgrees_iff`.
-/

namespace Rtl8188eu

/-- `RND4`. -/
def rnd4 (x : ℤ) : ℤ := (x / 4 + if x % 4 = 0 then 0 else 1) * 4

/-- `TXDESC_SIZE`. -/
def txdescSize : ℕ := 32
/-- `PACKET_OFFSET_SZ`. -/
def packetOffsetSz : ℕ := 8

/-- The part of `struct pkt_attrib` that `rtw_xmitframe_coalesce` uses. -/
structure TxAttrib where
  ra : MacAddr
  etherType : ℕ
  hdrlen : ℕ
  hdrlen_lt : hdrlen < 2 ^ 16
  encrypt : PrivacyAlgrthm
  bswenc : Bool
  keyIdx : ℕ
  icv : List UInt8
  pktlen : ℕ

namespace TxAttrib

/-- `iv_len`, as `update_attrib` sets it. -/
def ivLen (a : TxAttrib) : ℕ :=
  match a.encrypt with
  | .wep40 | .wep104 => 4
  | .tkip | .aes => 8
  | _ => 0

/-- `icv_len`, as `update_attrib` sets it. -/
def icvLen (a : TxAttrib) : ℕ :=
  match a.encrypt with
  | .wep40 | .wep104 | .tkip => 4
  | .aes => 8
  | _ => 0

/-- The length of the ICV that the software writes. -/
def swIcvLen (a : TxAttrib) : ℕ := if a.bswenc then a.icvLen else 0

end TxAttrib

/-- The part of `struct xmit_frame` that is used here, and the packet behind its Ethernet header. -/
structure XmitFrameBuf where
  bufAddr : ℤ
  pktOffset : ℕ
  attrib : TxAttrib
  pkt : List UInt8
  pkt_lt : pkt.length < 2 ^ 31

namespace XmitFrameBuf

/-- `hw_hdr_offset`. The packet offset is zero or one. -/
def hwHdrOffset (x : XmitFrameBuf) : ℕ := txdescSize + x.pktOffset * packetOffsetSz

end XmitFrameBuf

/-- A fragment : where its header is, how long the header is, and how long the payload between the
IV and the ICV is. -/
@[ext]
structure Frag where
  start : ℤ
  hdrlen : ℕ
  len : ℤ
deriving DecidableEq

/-! ## `rtw_xmitframe_coalesce` -/

/-- `SetMFrag`. -/
def setMFrag (m : Mem) (p : ℤ) : Mem := m.write (p + 1) [m (p + 1) ||| 0x04]

/-- `ClearMFrag`. -/
def clearMFrag (m : Mem) (p : ℤ) : Mem := m.write (p + 1) [m (p + 1) &&& 0xfb]

/-- `rtw_put_snap`. -/
def rtwPutSnap (hProto : ℕ) : List UInt8 :=
  [0xaa, 0xaa, 0x03] ++ (if hProto = 0x8137 ∨ hProto = 0x80f3 then [0x00, 0x00, 0xf8] else [0x00, 0x00, 0x00]) ++
    [UInt8.ofNat (hProto / 256), UInt8.ofNat hProto]

/-- The variables of the loop. -/
structure Coalesce where
  mem : Mem
  /-- `psta->dot11txpn`. -/
  pn : BitVec 64
  memStart : ℤ
  /-- What is not yet read from `pktfile`. -/
  rest : List UInt8

/-- What the loop leaves behind. -/
structure Coalesced where
  mem : Mem
  pn : BitVec 64
  /-- The fragments as they were written. -/
  frags : List Frag
  /-- `last_txcmdsz`. -/
  lastTxcmdsz : ℤ

/-- `nr_frags`, which has one byte. -/
def Coalesced.nrFrags (r : Coalesced) : ℕ := r.frags.length % 256

namespace XmitFrameBuf

/-- The number of bytes of the packet that go into a fragment. -/
def mpduLen (x : XmitFrameBuf) (fragLen : ℕ) (llc : List UInt8) : ℤ :=
  (fragLen : ℤ) - 4 - x.attrib.hdrlen - x.attrib.ivLen - llc.length - x.attrib.swIcvLen

/-- The body of the loop : one fragment is written at `memStart`, and `pframe` is its end. -/
def coalesceFrag (x : XmitFrameBuf) (fragLen : ℕ) (first : Bool) (c : Coalesce) : Coalesce × Frag × ℤ :=
  let a := x.attrib
  let mem := setMFrag c.mem c.memStart
  let pframe := c.memStart + a.hdrlen
  let (iv, pn) := fragIv a.encrypt (isMcast a.ra) a.keyIdx c.pn
  let mem := mem.write pframe iv
  let pframe := pframe + a.ivLen
  let llc := if first then rtwPutSnap a.etherType else []
  let mem := mem.write pframe llc
  let pframe := pframe + llc.length
  let data := c.rest.take (if isMcast a.ra then a.pktlen else u32 (x.mpduLen fragLen llc))
  let mem := mem.write pframe data
  let pframe := pframe + data.length
  let mem := if a.bswenc then mem.write pframe (a.icv.take a.icvLen) else mem
  let pframe := pframe + a.swIcvLen
  (⟨mem, pn, c.memStart, c.rest.drop data.length⟩, ⟨c.memStart, a.hdrlen, llc.length + data.length⟩, pframe)

/-- The loop. It does not end if a fragment has no room for bytes of the packet. -/
def coalesceLoop (x : XmitFrameBuf) (fragLen : ℕ) : ℕ → Bool → Coalesce → Option Coalesced
  | 0, _, _ => none
  | fuel + 1, first, c =>
    let (c, f, pframe) := x.coalesceFrag fragLen first c
    if isMcast x.attrib.ra ∨ c.rest = [] then
      some ⟨clearMFrag c.mem c.memStart, c.pn, [f], x.attrib.hdrlen + x.attrib.ivLen + x.attrib.swIcvLen + f.len⟩
    else
      let memStart := rnd4 pframe + x.hwHdrOffset
      let hdr := c.mem.read (x.bufAddr + x.hwHdrOffset) x.attrib.hdrlen
      (x.coalesceLoop fragLen fuel false { c with mem := c.mem.write memStart hdr, memStart := memStart }).map
        fun r => { r with frags := f :: r.frags }

/-- The loop of `rtw_xmitframe_coalesce`, behind `rtw_make_wlanhdr`, which has written the header of
the first fragment to `mem`. -/
def coalesce (x : XmitFrameBuf) (fragLen : ℕ) (mem : Mem) (pn : BitVec 64) : Option Coalesced :=
  x.coalesceLoop fragLen (x.pkt.length + 2) true ⟨mem, pn, x.bufAddr + x.hwHdrOffset, x.pkt⟩

end XmitFrameBuf

/-! ## The other loops -/

/-- The loop of `xmitframe_addmic` : the fragments that the MIC is computed of. -/
def TxAttrib.addmicFrags (a : TxAttrib) (fragLen : ℕ) (lastTxcmdsz : ℤ) : ℕ → ℤ → List Frag
  | 0, _ => []
  | n + 1, payload =>
    let start := rnd4 payload
    let payload := start + a.hdrlen + a.ivLen
    if n = 0 then [⟨start, a.hdrlen, lastTxcmdsz - a.hdrlen - a.ivLen - a.swIcvLen⟩]
    else
      let length : ℤ := fragLen - a.hdrlen - a.ivLen - a.swIcvLen
      ⟨start, a.hdrlen, length⟩ :: a.addmicFrags fragLen lastTxcmdsz n (payload + length + a.icvLen)

/-- The loop of `rtw_wep_encrypt`, of `rtw_tkip_encrypt` and of `rtw_aes_encrypt` : the fragments
that are encrypted. -/
def TxAttrib.cipherFrags (a : TxAttrib) (fragLen : ℕ) (lastTxcmdsz : ℤ) : ℕ → ℤ → List Frag
  | 0, _ => []
  | n + 1, pframe =>
    if n = 0 then [⟨pframe, a.hdrlen, lastTxcmdsz - a.hdrlen - a.ivLen - a.icvLen⟩]
    else
      ⟨pframe, a.hdrlen, fragLen - a.hdrlen - a.ivLen - a.icvLen⟩ ::
        a.cipherFrags fragLen lastTxcmdsz n (rnd4 (pframe + fragLen))

/-- What `rtw_dump_xframe` reads of the adapter. -/
structure DumpCfg where
  fragLen : ℕ
  /-- `securitypriv.sw_encrypt`. -/
  swEncrypt : Bool
  /-- `registrypriv.mp_mode`. -/
  mpMode : Bool
  /-- `UsbBulkOutSize`. -/
  usbBulkOutSize : ℕ

/-- What is given to `rtw_write_port` : the address and the size, the size of the frame, and the
packet offset in the descriptor. -/
structure PortWrite where
  bufAddr : ℤ
  wSz : ℤ
  sz : ℤ
  pktOffset : ℕ

namespace DumpCfg

/-- The descriptor is put behind the packet offset, by `update_txdesc` with
`urb_zero_packet_chk`. -/
def pull (d : DumpCfg) (sz : ℤ) : Bool := !d.mpMode && (sz + txdescSize) % d.usbBulkOutSize ≠ 0

/-- The size of a fragment with `n` others behind it. -/
def fragSz (d : DumpCfg) (a : TxAttrib) (lastTxcmdsz : ℤ) (n : ℕ) : ℤ :=
  if n ≠ 0 then d.fragLen - 4 - (if d.swEncrypt then 0 else a.icvLen) else lastTxcmdsz

/-- The loop of `rtw_dump_xframe`. `usb_write_port` takes the address from `buf_addr`. -/
def dumpLoop (d : DumpCfg) (a : TxAttrib) (lastTxcmdsz : ℤ) : ℕ → ℤ → ℤ → ℕ → List PortWrite
  | 0, _, _, _ => []
  | n + 1, memAddr, bufAddr, pktOffset =>
    let sz := d.fragSz a lastTxcmdsz n
    if d.pull sz then
      let memAddr := memAddr + packetOffsetSz
      let wSz := sz + txdescSize
      ⟨memAddr, wSz, sz, pktOffset - 1⟩ :: d.dumpLoop a lastTxcmdsz n (rnd4 (memAddr + wSz)) memAddr (pktOffset - 1)
    else
      let wSz := sz + txdescSize + packetOffsetSz
      ⟨bufAddr, wSz, sz, pktOffset⟩ :: d.dumpLoop a lastTxcmdsz n (rnd4 (memAddr + wSz)) bufAddr pktOffset

end DumpCfg

/-- The fragment that the hardware finds behind the descriptor. -/
def PortWrite.frag (a : TxAttrib) (w : PortWrite) : Frag :=
  ⟨w.bufAddr + txdescSize + w.pktOffset * packetOffsetSz, a.hdrlen, w.sz - a.hdrlen - a.ivLen - a.swIcvLen⟩

/-! ## Where the fragments are -/

/-- The fragments of `total` bytes, at most `cap` in each, from `start` on : behind a fragment of
`size` bytes the next one starts at the next multiple of four and behind the room for its
descriptor. -/
inductive IsLayout (hdrlen : ℕ) (size hw : ℤ) (cap : ℕ) : ℤ → ℕ → List Frag → Prop
  | last {start : ℤ} {total : ℕ} (h : total ≤ cap) : IsLayout hdrlen size hw cap start total [⟨start, hdrlen, total⟩]
  | more {start : ℤ} {total : ℕ} {fs : List Frag} (h : cap < total)
      (hfs : IsLayout hdrlen size hw cap (rnd4 (start + size) + hw) (total - cap) fs) :
      IsLayout hdrlen size hw cap start total (⟨start, hdrlen, cap⟩ :: fs)

theorem length_rtwPutSnap (hProto : ℕ) : (rtwPutSnap hProto).length = 8 := by
  unfold rtwPutSnap
  split_ifs
  · rfl
  · rfl

theorem u32_of_nonneg {z : ℤ} (h0 : 0 ≤ z) (h1 : z < 2 ^ 32) : u32 z = z.toNat := by
  rw [u32, Int.emod_eq_of_lt h0 (by omega)]

/-- A negative length is larger than every packet. -/
theorem le_u32_of_neg {z : ℤ} (h0 : z < 0) (h1 : -2 ^ 31 ≤ z) : 2 ^ 31 ≤ u32 z := by
  unfold u32
  omega

namespace XmitFrameBuf

variable {x : XmitFrameBuf} {fragLen : ℕ} {mem : Mem} {pn : BitVec 64} {r : Coalesced}

/-- The bytes of a fragment between the IV and the ICV. -/
def cap (x : XmitFrameBuf) (fragLen : ℕ) : ℕ :=
  fragLen - 4 - x.attrib.hdrlen - x.attrib.ivLen - x.attrib.swIcvLen

/-- What one iteration of the loop writes and leaves unread. -/
theorem coalesceFrag_spec (hra : isMcast x.attrib.ra = false) (hfrag : fragLen < 2 ^ 16)
    (hcap : 8 + 4 + x.attrib.hdrlen + x.attrib.ivLen + x.attrib.swIcvLen ≤ fragLen) (first : Bool)
    (c : Coalesce) :
    (x.coalesceFrag fragLen first c).1.rest = c.rest.drop (x.cap fragLen - if first then 8 else 0) ∧
    (x.coalesceFrag fragLen first c).1.memStart = c.memStart ∧
    (x.coalesceFrag fragLen first c).2.1 = ⟨c.memStart, x.attrib.hdrlen,
      ((if first then 8 else 0) + min (x.cap fragLen - if first then 8 else 0) c.rest.length : ℕ)⟩ ∧
    (x.coalesceFrag fragLen first c).2.2 = c.memStart + x.attrib.hdrlen + x.attrib.ivLen +
      ((if first then 8 else 0) + min (x.cap fragLen - if first then 8 else 0) c.rest.length : ℕ) +
      x.attrib.swIcvLen := by
  have hllc : (if first then rtwPutSnap x.attrib.etherType else []).length =
    if first then 8 else 0 := by
    split_ifs
    · exact length_rtwPutSnap _
    · rfl
  generalize hl : (if first then rtwPutSnap x.attrib.etherType else []) = llc at hllc
  have hle : llc.length ≤ 8 := by
    rw [hllc]
    split_ifs
    · exact le_rfl
    · omega
  have hmpdu : u32 (x.mpduLen fragLen llc) = x.cap fragLen - llc.length := by
    rw [u32_of_nonneg]
    · unfold mpduLen cap
      omega
    · unfold mpduLen
      omega
    · unfold mpduLen
      omega
  unfold coalesceFrag
  simp only [hl, hra, hmpdu, Bool.false_eq_true, if_false, List.length_take, ← hllc]
  refine ⟨?_, trivial, by push_cast; rfl, by push_cast; ring⟩
  rcases le_total (x.cap fragLen - llc.length) c.rest.length with h | h
  · rw [min_eq_left h]
  · rw [min_eq_right h, List.drop_length, List.drop_eq_nil_of_le h]

/-- The loop writes the fragments one behind the other, if they have room for the LLC header. -/
theorem isLayout_coalesceLoop (hra : isMcast x.attrib.ra = false) (hfrag : fragLen < 2 ^ 16)
    (hcap : 8 + 4 + x.attrib.hdrlen + x.attrib.ivLen + x.attrib.swIcvLen ≤ fragLen) :
    ∀ {fuel : ℕ} {first : Bool} {c : Coalesce} {r : Coalesced}, x.coalesceLoop fragLen fuel first
      c = some r →
      IsLayout x.attrib.hdrlen (fragLen - 4) x.hwHdrOffset (x.cap fragLen) c.memStart
        ((if first then 8 else 0) + c.rest.length) r.frags ∧
      ∃ f, r.frags.getLast? = some f ∧
        r.lastTxcmdsz = x.attrib.hdrlen + x.attrib.ivLen + x.attrib.swIcvLen + f.len
  | 0, _, _, _, hr => nomatch hr
  | fuel + 1, first, c, r, hr => by
    obtain ⟨hrest, hstart, hf, hend⟩ := coalesceFrag_spec hra hfrag hcap first c
    have hle : (if first then 8 else 0) ≤ x.cap fragLen := by
      unfold cap
      split_ifs
      · omega
      · omega
    rw [coalesceLoop] at hr
    generalize x.coalesceFrag fragLen first c = q at hr hrest hstart hf hend
    obtain ⟨c', f, pframe⟩ := q
    dsimp only at hr hrest hstart hf hend
    generalize hl : (if first then 8 else 0) = l at *
    rw [hra] at hr
    simp only [Bool.false_eq_true, false_or] at hr
    split_ifs at hr with hnil
    · cases hr
      have hlen : c.rest.length ≤ x.cap fragLen - l := by
        rw [hrest] at hnil
        simpa using hnil
      rw [min_eq_right hlen] at hf
      refine ⟨?_, f, rfl, rfl⟩
      rw [hf]
      exact IsLayout.last (by omega)
    · obtain ⟨r', hr', rfl⟩ := Option.map_eq_some_iff.mp hr
      have hlen : x.cap fragLen - l < c.rest.length := by
        rw [hrest] at hnil
        simpa using hnil
      obtain ⟨hlay, g, hg, hlast⟩ := isLayout_coalesceLoop hra hfrag hcap hr'
      have hcapl : l + (x.cap fragLen - l) = x.cap fragLen := by omega
      have hsize : pframe = c.memStart + (fragLen - 4 : ℤ) := by
        rw [hend, min_eq_left hlen.le, hcapl]
        unfold cap
        omega
      rw [min_eq_left hlen.le, hcapl] at hf
      refine ⟨?_, g, ?_, hlast⟩
      · rw [hf]
        refine IsLayout.more (by omega) ?_
        have htotal : l + c.rest.length - x.cap fragLen =
          (if false = true then 8 else 0) + c'.rest.length := by
          rw [hrest, List.length_drop]
          simp only [Bool.false_eq_true, if_false]
          omega
        rw [htotal, ← hsize]
        exact hlay
      · rw [List.getLast?_cons, hg]
        rfl

/-- Only fragments with room for the LLC header are followed by others. -/
theorem cap_of_two_le (hfrag : fragLen < 2 ^ 16) (hr : x.coalesce fragLen mem pn = some r)
    (hn : 2 ≤ r.frags.length) : isMcast x.attrib.ra = false ∧
      8 + 4 + x.attrib.hdrlen + x.attrib.ivLen + x.attrib.swIcvLen ≤ fragLen := by
  have hrest : isMcast x.attrib.ra = false ∧
      (x.coalesceFrag fragLen true ⟨mem, pn, x.bufAddr + x.hwHdrOffset, x.pkt⟩).1.rest ≠ [] := by
    rw [coalesce, coalesceLoop] at hr
    dsimp only at hr
    split_ifs at hr with hend
    · cases hr
      simp at hn
    · exact ⟨by simpa using (not_or.mp hend).1, (not_or.mp hend).2⟩
  refine ⟨hrest.1, ?_⟩
  by_contra hlt
  have hhdr := x.attrib.hdrlen_lt
  have hiv : x.attrib.ivLen ≤ 8 := by
    unfold TxAttrib.ivLen
    split <;> omega
  have hicv : x.attrib.swIcvLen ≤ 8 := by
    unfold TxAttrib.swIcvLen TxAttrib.icvLen
    split
    · split <;> omega
    · omega
  have hmpdu : 2 ^ 31 ≤ u32 (x.mpduLen fragLen (rtwPutSnap x.attrib.etherType)) := by
    refine le_u32_of_neg ?_ ?_
    · rw [mpduLen, length_rtwPutSnap]
      omega
    · rw [mpduLen, length_rtwPutSnap]
      omega
  have hlt := x.pkt_lt
  refine hrest.2 ?_
  unfold coalesceFrag
  simp only [hrest.1, Bool.false_eq_true, if_false, if_true, List.length_take]
  rw [min_eq_right (by omega), List.drop_length]

end XmitFrameBuf

/-! ## Arithmetic of the layout -/

theorem le_rnd4 (x : ℤ) : x ≤ rnd4 x := by
  unfold rnd4
  split_ifs
  · omega
  · omega

theorem rnd4_add_four_mul (x k : ℤ) : rnd4 (x + 4 * k) = rnd4 x + 4 * k := by
  unfold rnd4
  have hmod : (x + 4 * k) % 4 = x % 4 := by omega
  have hdiv : (x + 4 * k) / 4 = x / 4 + k := by omega
  rw [hmod, hdiv]
  ring

theorem sub_one_mod_sub {total cap : ℕ} (h : cap < total) :
    (total - 1) % cap = (total - cap - 1) % cap := by
  rw [← Nat.add_mod_right (total - cap - 1) cap]
  congr 1
  omega

namespace IsLayout

variable {hdrlen cap total : ℕ} {size hw start : ℤ} {fs : List Frag}

theorem length_eq (h : IsLayout hdrlen size hw cap start total fs) (hcap : 0 < cap)
    (ht : 0 < total) :
    fs.length = (total - 1) / cap + 1 := by
  induction h with
  | last h => rw [Nat.div_eq_of_lt (by omega)]; rfl
  | @more start total fs h hfs ih =>
    rw [List.length_cons, ih (by omega)]
    have hdiv : (total - 1) / cap = (total - cap - 1) / cap + 1 := by
      rw [← Nat.add_div_right _ hcap]
      congr 1
      omega
    omega

/-- The first fragment is at the start. -/
theorem head_eq (h : IsLayout hdrlen size hw cap start total fs) :
    ∃ len gs, fs = ⟨start, hdrlen, len⟩ :: gs := by
  cases h with
  | last => exact ⟨_, _, rfl⟩
  | more => exact ⟨_, _, rfl⟩

theorem fragSz_front {d : DumpCfg} {a : TxAttrib} {last : ℤ} (hicv : a.icvLen = 0)
    (h : IsLayout hdrlen size hw cap start total fs) :
    d.fragSz a last fs.length = d.fragLen - 4 := by
  obtain ⟨len, gs, rfl⟩ := h.head_eq
  rw [DumpCfg.fragSz, if_pos (by simp), hicv]
  simp

theorem getLast_len (h : IsLayout hdrlen size hw cap start total fs) (ht : 0 < total) {f : Frag}
    (hf : fs.getLast? = some f) : f.len = ((total - 1) % cap + 1 : ℕ) := by
  induction h with
  | last h =>
    rw [List.getLast?_singleton] at hf
    cases hf
    rw [Nat.mod_eq_of_lt (by omega), Nat.sub_add_cancel ht]
  | @more start total fs h hfs ih =>
    have hne : fs ≠ [] := by
      obtain ⟨len, gs, rfl⟩ := hfs.head_eq
      simp
    rw [List.getLast?_cons_of_ne_nil hne] at hf
    rw [ih (by omega) hf, sub_one_mod_sub h]

end IsLayout

/-! ## The agreement -/

/-- The ciphers that `xmitframe_swencrypt` has a loop for. -/
def TxAttrib.hasCipher (a : TxAttrib) : Bool :=
  a.encrypt = .wep40 || a.encrypt = .wep104 || a.encrypt = .tkip || a.encrypt = .aes

/-- The MIC of TKIP is behind the payload of the last fragment. -/
def addMicLen : List Frag → List Frag
  | [] => []
  | [f] => [{ f with len := f.len + 8 }]
  | f :: g :: fs => f :: addMicLen (g :: fs)

/-- The length of the MIC in `last_txcmdsz`. -/
def TxAttrib.micLen (a : TxAttrib) : ℕ := if a.encrypt = .tkip then 8 else 0

/-- The fragments with the MIC. -/
def Coalesced.sent (r : Coalesced) (a : TxAttrib) : List Frag :=
  if a.encrypt = .tkip then addMicLen r.frags else r.frags

/-- All loops go over the fragments that `rtw_xmitframe_coalesce` has written. -/
structure LayoutAgrees (x : XmitFrameBuf) (d : DumpCfg) (r : Coalesced) : Prop where
  addmic : x.attrib.encrypt = .tkip →
    x.attrib.addmicFrags d.fragLen r.lastTxcmdsz r.nrFrags (x.bufAddr + x.hwHdrOffset) = r.frags
  cipher : x.attrib.bswenc → x.attrib.hasCipher → x.attrib.cipherFrags d.fragLen
    (r.lastTxcmdsz + x.attrib.micLen) r.nrFrags (x.bufAddr + x.hwHdrOffset) = r.sent x.attrib
  dump : (d.dumpLoop x.attrib (r.lastTxcmdsz + x.attrib.micLen) r.nrFrags x.bufAddr x.bufAddr x.pktOffset).map
    (PortWrite.frag x.attrib) = r.sent x.attrib

theorem map_start_addMicLen : ∀ fs : List Frag, (addMicLen fs).map Frag.start = fs.map Frag.start
  | [] => rfl
  | [_] => rfl
  | f :: g :: fs => by
    rw [addMicLen, List.map_cons, map_start_addMicLen (g :: fs), ← List.map_cons]

theorem Coalesced.map_start_sent (r : Coalesced) (a : TxAttrib) :
    (r.sent a).map Frag.start = r.frags.map Frag.start := by
  unfold sent
  split_ifs
  · exact map_start_addMicLen _
  · rfl

variable {x : XmitFrameBuf} {d : DumpCfg} {r : Coalesced}

theorem cipherFrags_head (a : TxAttrib) (fragLen : ℕ) (last : ℤ) (n : ℕ) (p : ℤ) :
    ∃ len gs, a.cipherFrags fragLen last (n + 1) p = ⟨p, a.hdrlen, len⟩ :: gs := by
  rw [TxAttrib.cipherFrags]
  split_ifs
  · exact ⟨_, _, rfl⟩
  · exact ⟨_, _, rfl⟩

/-- The encryption does not step over the descriptor of the second fragment. -/
theorem not_cipherFrags {a : TxAttrib} {cap total fragLen : ℕ} {hw start last : ℤ}
    {fs : List Frag} {n : ℕ}
    (h : IsLayout a.hdrlen (fragLen - 4) hw cap start total fs) (hn : 2 ≤ fs.length)
    (hhw : 4 < hw) :
    (a.cipherFrags fragLen last n start).map Frag.start ≠ fs.map Frag.start := by
  intro heq
  have hlen := congrArg List.length heq
  rw [List.length_map, List.length_map] at hlen
  obtain _ | _ | n := n
  · rw [TxAttrib.cipherFrags, List.length_nil] at hlen
    omega
  · rw [TxAttrib.cipherFrags, if_pos rfl, List.length_singleton] at hlen
    omega
  cases h with
  | last => simp at hn
  | more hlt hfs =>
    obtain ⟨len, gs, rfl⟩ := hfs.head_eq
    rw [TxAttrib.cipherFrags, if_neg (by omega)] at heq
    obtain ⟨len', gs', hgs'⟩ := cipherFrags_head a fragLen last n (rnd4 (start + fragLen))
    rw [hgs'] at heq
    simp only [List.map_cons, List.cons.injEq] at heq
    have hstep : rnd4 (start + fragLen) = rnd4 (start + (fragLen - 4)) + 4 * 1 := by
      rw [← rnd4_add_four_mul]
      congr 1
      ring
    omega

/-! ## The descriptors -/

theorem length_dumpLoop (a : TxAttrib) (last : ℤ) :
    ∀ (n : ℕ) (memAddr bufAddr : ℤ) (po : ℕ), (d.dumpLoop a last n memAddr bufAddr po).length = n
  | 0, _, _, _ => rfl
  | n + 1, memAddr, bufAddr, po => by
    rw [DumpCfg.dumpLoop]
    split_ifs
    · rw [List.length_cons, length_dumpLoop a last n]
    · rw [List.length_cons, length_dumpLoop a last n]

/-- The fragment that a descriptor behind the packet offset is for. -/
theorem map_dumpLoop_pull {a : TxAttrib} {last : ℤ} {n : ℕ} {memAddr bufAddr : ℤ} {po : ℕ}
    (h : d.pull (d.fragSz a last n) = true) :
    (d.dumpLoop a last (n + 1) memAddr bufAddr po).map (PortWrite.frag a) =
      ⟨memAddr + 40 + (po - 1 : ℕ) * 8, a.hdrlen,
        d.fragSz a last n - a.hdrlen - a.ivLen - a.swIcvLen⟩ ::
        (d.dumpLoop a last n (rnd4 (memAddr + 40 + d.fragSz a last n)) (memAddr + 8) (po - 1)).map
          (PortWrite.frag a) := by
  rw [DumpCfg.dumpLoop]
  dsimp only
  rw [if_pos h, List.map_cons]
  congr 1
  · rw [PortWrite.frag]
    simp only [txdescSize, packetOffsetSz]
    push_cast
    congr 1
    ring
  · simp only [txdescSize, packetOffsetSz]
    push_cast
    congr 3
    ring

/-- The fragment that a descriptor before the packet offset is for. -/
theorem map_dumpLoop_not_pull {a : TxAttrib} {last : ℤ} {n : ℕ} {memAddr bufAddr : ℤ} {po : ℕ}
    (h : d.pull (d.fragSz a last n) = false) :
    (d.dumpLoop a last (n + 1) memAddr bufAddr po).map (PortWrite.frag a) =
      ⟨bufAddr + 32 + po * 8, a.hdrlen, d.fragSz a last n - a.hdrlen - a.ivLen - a.swIcvLen⟩ ::
        (d.dumpLoop a last n (rnd4 (memAddr + 40 + d.fragSz a last n)) bufAddr po).map
        (PortWrite.frag a) := by
  rw [DumpCfg.dumpLoop]
  dsimp only
  rw [if_neg (by rw [h]; exact Bool.false_ne_true), List.map_cons]
  congr 1
  simp only [txdescSize, packetOffsetSz]
  push_cast
  congr 3
  ring

theorem icvLen_of_not_hasCipher {a : TxAttrib} (hc : a.hasCipher = false) :
    a.ivLen = 0 ∧ a.icvLen = 0 ∧ a.swIcvLen = 0 ∧ a.encrypt ≠ .tkip := by
  unfold TxAttrib.hasCipher at hc
  unfold TxAttrib.swIcvLen TxAttrib.icvLen TxAttrib.ivLen
  cases he : a.encrypt <;> simp_all

/-- The descriptors of the fragments behind the first one are right if each of them is put behind
the packet offset, since `buf_addr` is not changed otherwise. -/
theorem dumpLoop_tail_iff {a : TxAttrib} (hc : a.hasCipher = false) {cap : ℕ}
    (hsize : (d.fragLen : ℤ) - 4 = a.hdrlen + cap) {last : ℤ} {fs : List Frag} {start : ℤ}
    {total : ℕ}
    (h : IsLayout a.hdrlen (d.fragLen - 4) 40 cap start total fs) (ht : 0 < total)
    (hlast : last = a.hdrlen + ((total - 1) % cap + 1 : ℕ)) {bufAddr : ℤ} {po : ℕ} (hpo : po ≤ 1)
    (hbuf : bufAddr + 40 < start) :
    (d.dumpLoop a last fs.length (start - 40) bufAddr po).map (PortWrite.frag a) = fs ↔
      (cap < total → d.pull (d.fragLen - 4) = true) ∧ d.pull last = true := by
  obtain ⟨hiv, hicv, hsw, -⟩ := icvLen_of_not_hasCipher hc
  induction h generalizing bufAddr po with
  | @last start total hle =>
    have hsz : d.fragSz a last 0 = last := if_neg (by simp)
    have hlen : last - a.hdrlen - (0 : ℕ) - (0 : ℕ) = total := by
      rw [hlast, Nat.mod_eq_of_lt (by omega), Nat.sub_add_cancel ht]
      push_cast
      ring
    rw [List.length_singleton]
    cases hp : d.pull last with
    | true =>
      rw [map_dumpLoop_pull (by rw [hsz, hp]), hsz, hiv, hsw, hlen]
      have hp0 : po - 1 = 0 := by omega
      simp [hp0, DumpCfg.dumpLoop]
      omega
    | false =>
      rw [map_dumpLoop_not_pull (by rw [hsz, hp])]
      simp only [List.cons.injEq, Frag.mk.injEq, Bool.false_eq_true, and_false, iff_false]
      rintro ⟨⟨hstart, -⟩, -⟩
      omega
  | @more start total fs hlt hfs ih =>
    have hsz : d.fragSz a last fs.length = d.fragLen - 4 := hfs.fragSz_front hicv
    have hlen : (d.fragLen : ℤ) - 4 - a.hdrlen - (0 : ℕ) - (0 : ℕ) = cap := by
      rw [hsize]
      push_cast
      ring
    have hmod := sub_one_mod_sub hlt
    rw [List.length_cons]
    cases hp : d.pull (d.fragLen - 4) with
    | true =>
      have hnext : rnd4 (start - 40 + 40 + ((d.fragLen : ℤ) - 4)) =
          rnd4 (start + ((d.fragLen : ℤ) - 4)) + 40 - 40 := by
        rw [sub_add_cancel, add_sub_cancel_right]
      have hle := le_rnd4 (start + ((d.fragLen : ℤ) - 4))
      rw [map_dumpLoop_pull (by rw [hsz, hp]), hsz, hiv, hsw, hlen, hnext, List.cons.injEq,
        ih (by omega) (by rw [hlast, hmod]) (by omega) (by omega), hp]
      have hp0 : po - 1 = 0 := by omega
      simp [hp0]
    | false =>
      rw [map_dumpLoop_not_pull (by rw [hsz, hp])]
      simp only [List.cons.injEq, Frag.mk.injEq, hlt, Bool.false_eq_true, imp_false,
        not_true_eq_false, false_and,
        iff_false]
      rintro ⟨⟨hstart, -⟩, -⟩
      omega

/-- The first descriptor is for one of two places. -/
theorem dumpLoop_head (a : TxAttrib) (last : ℤ) (n : ℕ) (memAddr bufAddr : ℤ) (po : ℕ) :
    ∃ start len bufAddr' po', (d.dumpLoop a last (n + 1) memAddr bufAddr po).map
      (PortWrite.frag a) =
        ⟨start, a.hdrlen, len⟩ ::
          (d.dumpLoop a last n (rnd4 (memAddr + 40 + d.fragSz a last n)) bufAddr' po').map
          (PortWrite.frag a) ∧
      ((start = memAddr + 40 + (po - 1 : ℕ) * 8 ∧ bufAddr' = memAddr + 8 ∧ po' = po - 1) ∨
        (start = bufAddr + 32 + po * 8 ∧ bufAddr' = bufAddr ∧ po' = po)) := by
  cases hp : d.pull (d.fragSz a last n) with
  | true => exact ⟨_, _, _, _, map_dumpLoop_pull hp, Or.inl ⟨rfl, rfl, rfl⟩⟩
  | false => exact ⟨_, _, _, _, map_dumpLoop_not_pull hp, Or.inr ⟨rfl, rfl, rfl⟩⟩

/-- With a packet offset that is not one, the second fragment is not found. -/
theorem dumpLoop_offset {a : TxAttrib} (hc : a.hasCipher = false) {cap total : ℕ}
    (hsize : (d.fragLen : ℤ) - 4 = a.hdrlen + cap) {last start : ℤ} {fs : List Frag} {po : ℕ}
    {memAddr : ℤ}
    (hstart : start = memAddr + 32 + po * 8)
    (h : IsLayout a.hdrlen (d.fragLen - 4) (32 + po * 8) cap start total fs) (hn : 2 ≤ fs.length)
    (heq : (d.dumpLoop a last fs.length memAddr memAddr po).map (PortWrite.frag a) = fs) : po =
    1 := by
  obtain ⟨-, hicv, -, -⟩ := icvLen_of_not_hasCipher hc
  cases h with
  | last => simp at hn
  | more hlt hfs =>
    obtain ⟨len, gs, rfl⟩ := hfs.head_eq
    rw [List.length_cons, List.length_cons] at heq
    have hsz : d.fragSz a last (gs.length + 1) = d.fragLen - 4 := by
      rw [DumpCfg.fragSz, if_pos (by omega), hicv]
      simp
    obtain ⟨s₁, l₁, b₁, p₁, h₁, hcase₁⟩ :=
      dumpLoop_head (d := d) a last (gs.length + 1) memAddr memAddr po
    obtain ⟨s₂, l₂, b₂, p₂, h₂, hcase₂⟩ := dumpLoop_head (d := d) a last gs.length
      (rnd4 (memAddr + 40 + d.fragSz a last (gs.length + 1))) b₁ p₁
    rw [h₁, h₂, hsz] at heq
    simp only [List.cons.injEq, Frag.mk.injEq] at heq
    obtain ⟨⟨heq₁, -⟩, ⟨heq₂, -⟩, -⟩ := heq
    -- the two sides count the descriptor of the second fragment from different ends
    have hnext : rnd4 (start + (d.fragLen - 4)) = rnd4
      (memAddr + 40 + (d.fragLen - 4)) + 4 * (2 * (po - 1)) := by
      rw [← rnd4_add_four_mul, hstart]
      congr 1
      ring
    have hle := le_rnd4 (memAddr + 40 + (d.fragLen - 4))
    rw [hsz] at hcase₂
    rw [hnext] at heq₂
    rcases hcase₁ with ⟨rfl, rfl, rfl⟩ | ⟨rfl, rfl, rfl⟩
    · rcases hcase₂ with ⟨rfl, -, -⟩ | ⟨rfl, -, -⟩
      · omega
      · omega
    · rcases hcase₂ with ⟨rfl, -, -⟩ | ⟨rfl, -, -⟩
      · omega
      · omega

/-- With the packet offset one, it is enough that the descriptors behind the first one are right. -/
theorem dumpLoop_iff {a : TxAttrib} (hc : a.hasCipher = false) {cap total : ℕ}
    (hsize : (d.fragLen : ℤ) - 4 = a.hdrlen + cap) {last memAddr : ℤ} {fs : List Frag}
    (h : IsLayout a.hdrlen (d.fragLen - 4) 40 cap (memAddr + 40) total fs) (hn : 2 ≤ fs.length)
    (hlast : last = a.hdrlen + ((total - 1) % cap + 1 : ℕ)) :
    (d.dumpLoop a last fs.length memAddr memAddr 1).map (PortWrite.frag a) = fs ↔
      (2 * cap < total → d.pull (d.fragLen - 4) = true) ∧ d.pull last = true := by
  obtain ⟨hiv, hicv, hsw, -⟩ := icvLen_of_not_hasCipher hc
  cases h with
  | last => simp at hn
  | @more _ _ fs hlt hfs =>
    have hsz : d.fragSz a last fs.length = d.fragLen - 4 := hfs.fragSz_front hicv
    have hlen : (d.fragLen : ℤ) - 4 - a.hdrlen - (0 : ℕ) - (0 : ℕ) = cap := by
      rw [hsize]
      push_cast
      ring
    have hmod := sub_one_mod_sub hlt
    have hle := le_rnd4 (memAddr + 40 + ((d.fragLen : ℤ) - 4))
    have hiff : (2 * cap < total) = (cap < total - cap) := by
      rw [eq_iff_iff]
      omega
    have htail : ∀ {bufAddr : ℤ} {po : ℕ}, bufAddr ≤ memAddr + 8 → po ≤ 1 →
        ((d.dumpLoop a last fs.length (rnd4 (memAddr + 40 + (d.fragLen - 4))) bufAddr po).map
          (PortWrite.frag a) =
          fs ↔ (cap < total - cap → d.pull (d.fragLen - 4) = true) ∧ d.pull last = true) := by
      intro bufAddr po hbuf hpo
      have hlast' : last = a.hdrlen + ((total - cap - 1) % cap + 1 : ℕ) := by rw [hlast, hmod]
      have hbuf' : bufAddr + 40 < rnd4 (memAddr + 40 + (d.fragLen - 4)) + 40 := by omega
      have htail := dumpLoop_tail_iff hc hsize hfs (by omega) hlast' hpo hbuf'
      rwa [add_sub_cancel_right] at htail
    rw [List.length_cons, hiff]
    cases hp : d.pull (d.fragLen - 4) with
    | true =>
      rw [map_dumpLoop_pull (by rw [hsz, hp]), hsz, hiv, hsw, hlen, List.cons.injEq,
        htail (by omega) (by omega), hp]
      simp
    | false =>
      rw [map_dumpLoop_not_pull (by rw [hsz, hp]), hsz, hiv, hsw, hlen, List.cons.injEq,
        htail (by omega) (by omega),
        hp]
      simp
      omega

/-! ## When the loops agree -/

/-- The packet goes out as it was written : without a cipher, with the packet offset, in at most 255
fragments, and each fragment behind the first one has its descriptor behind the packet offset. -/
structure Layoutable (x : XmitFrameBuf) (d : DumpCfg) : Prop where
  noCipher : x.attrib.hasCipher = false
  pktOffset : x.pktOffset = 1
  count : x.pkt.length + 8 ≤ 255 * (d.fragLen - 4 - x.attrib.hdrlen)
  pull : 2 * (d.fragLen - 4 - x.attrib.hdrlen) < x.pkt.length + 8 → d.pull (d.fragLen - 4) = true
  pullLast : d.pull (x.attrib.hdrlen + ((x.pkt.length + 7) % (d.fragLen - 4 - x.attrib.hdrlen) + 1 : ℕ)) = true

/-- Of a packet with more than one fragment, all loops find the fragments as they were written
exactly when the packet is sent without a cipher, and the descriptors come out right. -/
theorem layoutAgrees_iff {x : XmitFrameBuf} {d : DumpCfg} (hfrag : d.fragLen < 2 ^ 16) (hsw : x.attrib.bswenc = true)
    {mem : Mem} {pn : BitVec 64} {r : Coalesced} (hr : x.coalesce d.fragLen mem pn = some r)
    (hn : 2 ≤ r.frags.length) : LayoutAgrees x d r ↔ Layoutable x d := by
  obtain ⟨hra, hcap⟩ := XmitFrameBuf.cap_of_two_le hfrag hr hn
  obtain ⟨hlay, f, hf, hlast⟩ := XmitFrameBuf.isLayout_coalesceLoop hra hfrag hcap hr
  dsimp only at hlay
  rw [if_pos rfl] at hlay
  have hcap8 : 8 ≤ x.cap d.fragLen := by
    unfold XmitFrameBuf.cap
    omega
  have hhw : (x.hwHdrOffset : ℤ) = 32 + x.pktOffset * 8 := by
    unfold XmitFrameBuf.hwHdrOffset txdescSize packetOffsetSz
    push_cast
    ring
  cases hc : x.attrib.hasCipher with
  | true =>
    -- the second fragment is not where the encryption looks for it
    constructor
    · intro h
      have hstarts := congrArg (List.map Frag.start) (h.cipher hsw hc)
      rw [Coalesced.map_start_sent] at hstarts
      exact absurd hstarts (not_cipherFrags hlay hn (by omega))
    · intro h
      rw [h.noCipher] at hc
      cases hc
  | false =>
    obtain ⟨hiv, -, hsw0, htkip⟩ := icvLen_of_not_hasCipher hc
    have hcapEq : x.cap d.fragLen = d.fragLen - 4 - x.attrib.hdrlen := by
      rw [XmitFrameBuf.cap, hiv, hsw0]
      rfl
    have hsize : (d.fragLen : ℤ) - 4 = x.attrib.hdrlen + x.cap d.fragLen := by
      rw [hcapEq]
      omega
    have hsent : r.sent x.attrib = r.frags := if_neg htkip
    have hmic : x.attrib.micLen = 0 := if_neg htkip
    have hlen := hlay.length_eq (by omega) (by omega)
    have hlastEq : r.lastTxcmdsz = x.attrib.hdrlen +
        ((8 + x.pkt.length - 1) % x.cap d.fragLen + 1 : ℕ) := by
      rw [hlast, hlay.getLast_len (by omega) hf, hiv, hsw0]
      push_cast
      ring
    have hcount : r.frags.length < 256 ↔ x.pkt.length + 8 ≤ 255 * x.cap d.fragLen := by
      rw [hlen]
      have hdiv := Nat.div_lt_iff_lt_mul (k := x.cap d.fragLen) (x := 8 + x.pkt.length - 1)
        (y := 255) (by omega)
      omega
    have hseven : 8 + x.pkt.length - 1 = x.pkt.length + 7 := by omega
    -- the descriptors are right under the conditions on the sizes
    have hdump : x.pktOffset = 1 → r.frags.length < 256 →
      ((d.dumpLoop x.attrib (r.lastTxcmdsz + x.attrib.micLen)
        r.nrFrags x.bufAddr x.bufAddr x.pktOffset).map (PortWrite.frag x.attrib) = r.sent x.attrib ↔
        (2 * x.cap d.fragLen < 8 + x.pkt.length → d.pull (d.fragLen - 4) = true) ∧
        d.pull r.lastTxcmdsz = true) := by
      intro hpo hlt
      rw [hhw, hpo] at hlay
      rw [hsent, hmic, hpo, Coalesced.nrFrags, Nat.mod_eq_of_lt hlt, Nat.cast_zero, add_zero]
      exact dumpLoop_iff hc hsize hlay hn hlastEq
    rw [hseven, hcapEq] at hlastEq
    rw [hcapEq] at hcount hdump
    constructor
    · intro h
      have hlt : r.frags.length < 256 := by
        have hl := congrArg List.length h.dump
        rw [List.length_map, length_dumpLoop, hsent, Coalesced.nrFrags] at hl
        omega
      have hpo : x.pktOffset = 1 := by
        have heq := h.dump
        rw [hsent, hmic, Coalesced.nrFrags, Nat.mod_eq_of_lt hlt, Nat.cast_zero, add_zero] at heq
        rw [hhw] at hlay
        exact dumpLoop_offset hc hsize (by ring) hlay hn heq
      obtain ⟨hpull, hpullLast⟩ := (hdump hpo hlt).mp h.dump
      exact ⟨hc, hpo, hcount.mp hlt, fun h2 => hpull (by omega), hlastEq ▸ hpullLast⟩
    · intro h
      have hlt := hcount.mpr h.count
      refine ⟨fun ht => absurd ht htkip, fun _ hcc => ?_, ?_⟩
      · rw [hc] at hcc
        cases hcc
      · exact (hdump h.pktOffset hlt).mpr ⟨fun h2 => h.pull (by omega), hlastEq.symm ▸ h.pullLast⟩

/-! ## A packet of two fragments -/

/-- A packet of three hundred bytes. -/
def sampleXmitFrame (encrypt : PrivacyAlgrthm) : XmitFrameBuf where
  bufAddr := 0
  pktOffset := 1
  attrib := ⟨zeroAddr, 0x0800, 24, by decide, encrypt, true, 0, List.replicate 16 0, 300⟩
  pkt := List.replicate 300 0
  pkt_lt := by rw [List.length_replicate]; norm_num

/-- The smallest fragments, and the packets of the high-speed bus. -/
def sampleDumpCfg : DumpCfg := ⟨256, true, false, 512⟩

theorem layoutAgrees_sampleXmitFrame :
    ∃ r, (sampleXmitFrame .noPrivacy).coalesce 256 (fun _ => 0) 0 = some r ∧ 2 ≤ r.frags.length ∧
      LayoutAgrees (sampleXmitFrame .noPrivacy) sampleDumpCfg r := by
  have hrun : (((sampleXmitFrame .noPrivacy).coalesce 256 (fun _ => 0) 0).any
    fun r => 2 ≤ r.frags.length) =
      true := by decide +kernel
  obtain ⟨r, hr, hn⟩ := Option.any_eq_true _ _ |>.mp hrun
  have hn : 2 ≤ r.frags.length := of_decide_eq_true hn
  refine ⟨r, hr, hn, (layoutAgrees_iff (d := sampleDumpCfg) (by decide) rfl hr hn).mpr
    ⟨rfl, rfl, ?_, ?_, ?_⟩⟩
  · decide +kernel
  · decide +kernel
  · decide +kernel

/-- With WEP the second fragment is at 332, and the encryption looks for it at 296. -/
theorem not_layoutAgrees_sampleXmitFrame :
    ∃ r, (sampleXmitFrame .wep40).coalesce 256 (fun _ => 0) 0 = some r ∧ 2 ≤ r.frags.length ∧
      ¬ LayoutAgrees (sampleXmitFrame .wep40) sampleDumpCfg r := by
  have hrun : (((sampleXmitFrame .wep40).coalesce 256 (fun _ => 0) 0).any
    fun r => 2 ≤ r.frags.length ∧
      (sampleXmitFrame .wep40).attrib.cipherFrags 256
      (r.lastTxcmdsz + (sampleXmitFrame .wep40).attrib.micLen)
        r.nrFrags ((sampleXmitFrame .wep40).bufAddr + (sampleXmitFrame .wep40).hwHdrOffset) ≠
        r.sent (sampleXmitFrame .wep40).attrib) = true := by decide +kernel
  obtain ⟨r, hr, hn⟩ := Option.any_eq_true _ _ |>.mp hrun
  obtain ⟨hn, hne⟩ := of_decide_eq_true hn
  exact ⟨r, hr, hn, fun h => hne (h.cipher rfl rfl)⟩

end Rtl8188eu
