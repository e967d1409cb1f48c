import Rtl8188eu.AlignedPacking
import Rtl8188eu.ApRun
import Rtl8188eu.PowerSave
import Rtl8188eu.XmitCoalesce

/-!
# Aggregates of data frames

`rtl8188eu_xmitframe_complete` takes the first frame of a transmit queue and puts as many of the
frames behind it into one USB transfer as it may : until the buffer is full, there are 255 of them,
or six of them begin in one packet of the bulk endpoint. When the transfer would be a multiple of
these packets, the eight spare bytes at its beginning are left out.

The loop packs the frames (`UsbTx.aggLoop_spec`), and what the transfer is follows from the lengths
of the frames of the queue (`UsbTx.complete_spec`).
-/

set_option linter.unusedSectionVars false

namespace Rtl8188eu

open AlignedPacking

/-! ## The functions of the source -/

/-- `_RND8`. -/
def rnd8 (sz : ℕ) : ℕ := (sz / 8 + if sz % 8 = 0 then 0 else 1) * 8

/-- `MAX_XMITBUF_SZ`. -/
def maxXmitbufSz : ℕ := 20480
/-- `MAX_TX_AGG_PACKET_NUMBER`. -/
def maxTxAggPacketNumber : ℕ := 0xff
/-- `UsbTxAggDescNum`. -/
def usbTxAggDescNum : ℕ := 6

/-- A TX descriptor, as `update_txdesc` writes it for a frame. -/
structure TxDesc (φ : Type) where
  frame : φ
  /-- Where it is. -/
  pmem : ℤ
  /-- `TXPKTSIZE`. -/
  size : ℕ
  pktOffset : ℕ
  aggNum : ℕ

/-- A call of `rtw_write_port`, with the descriptors in the buffer. -/
structure UsbWrite (φ : Type) where
  bufAddr : ℤ
  size : ℤ
  descs : List (TxDesc φ)

/-- What happens to frames, packets and buffers. -/
inductive TxEvent (φ : Type) where
  | coalesce (f : φ) (status : Status)
  /-- `rtw_os_pkt_complete` for the packet of the frame. -/
  | freePkt (f : φ)
  /-- `rtw_free_xmitframe`. -/
  | freeFrame (f : φ)
  /-- `rtw_free_xmitbuf`. -/
  | freeBuf
  | write (w : UsbWrite φ)

/-- What the two transmit paths read of the device. `usb_halinit` sets the size of the packets of
the bulk endpoint. -/
structure UsbCfg extends DumpCfg where
  bulk : usbBulkOutSize = 512 ∨ usbBulkOutSize = 64

/-- The driver, with its data frames. -/
structure UsbTx (ι φ : Type) where
  cfg : UsbCfg
  adapter : Adapter ι
  /-- The bytes of the transmit buffers. -/
  mem : Mem
  frame : φ → DataFrame
  /-- `sta_pending` of the `tx_servq`s. -/
  pending : StaId → AcQueue → List φ
  qcnt : StaId → AcQueue → ℤ
  /-- The `tx_servq`s that are linked in the `sta_queue` of a category. -/
  staQueue : AcQueue → List StaId
  accnt : AcQueue → ℤ
  /-- What has happened so far, the first event first. -/
  log : List (TxEvent φ)

namespace UsbTx

variable {ι φ : Type} [DecidableEq φ]

def event (s : UsbTx ι φ) (e : TxEvent φ) : UsbTx ι φ := { s with log := s.log ++ [e] }

def updateFrame (s : UsbTx ι φ) (f : φ) (g : DataFrame → DataFrame) : UsbTx ι φ :=
  { s with frame := Function.update s.frame f (g (s.frame f)) }

/-- The list of a `tx_servq` gets shorter by one frame, and the counters go down. -/
def takePending (s : UsbTx ι φ) (k : StaId) (q : AcQueue) (fs : List φ) : UsbTx ι φ :=
  { s with
    pending := Function.update s.pending k (Function.update (s.pending k) q fs)
    qcnt := Function.update s.qcnt k (Function.update (s.qcnt k) q (s.qcnt k q - 1))
    accnt := Function.update s.accnt q (s.accnt q - 1) }

/-- A `tx_servq` without frames is unlinked. -/
def unlinkEmpty (s : UsbTx ι φ) (k : StaId) (q : AcQueue) : UsbTx ι φ :=
  if s.pending k q = [] then
    { s with staQueue := Function.update s.staQueue q ((s.staQueue q).filter (· ≠ k)) }
  else s

/-- The loop of `rtw_dequeue_xframe` over the `tx_servq`s of a category. -/
def dequeueServqs (s : UsbTx ι φ) (q : AcQueue) : List StaId → Option (φ × UsbTx ι φ)
  | [] => none
  | k :: ks =>
    match s.pending k q with
    | [] => s.dequeueServqs q ks
    | f :: fs => some (f, (s.takePending k q fs).unlinkEmpty k q)

/-- `rtw_dequeue_xframe`, with the categories in the order of `inx`. -/
def rtwDequeueXframe (s : UsbTx ι φ) : List AcQueue → Option (φ × UsbTx ι φ)
  | [] => none
  | q :: qs => (s.dequeueServqs q (s.staQueue q)).or (s.rtwDequeueXframe qs)

/-- The packet of a frame is given back. -/
def completePkt (s : UsbTx ι φ) (f : φ) : UsbTx ι φ :=
  if (s.frame f).pkt.isSome then
    (s.updateFrame f fun x => { x with pkt := none, pktlen_eq := fun _ h => nomatch h }).event (.freePkt f)
  else s

/-- `rtw_os_xmit_complete`. -/
def rtwOsXmitComplete (s : UsbTx ι φ) (f : φ) : UsbTx ι φ := s.completePkt f

/-- `rtw_free_xmitframe`. -/
def rtwFreeXmitframe (s : UsbTx ι φ) (f : φ) : UsbTx ι φ := (s.event (.freeFrame f)).completePkt f

/-- `rtw_xmitframe_coalesce`, for a frame of the driver. -/
def coalesce (s : UsbTx ι φ) (f : φ) : Option (Status × UsbTx ι φ) :=
  (s.adapter.rtwXmitframeCoalesce s.cfg.fragLen s.mem (s.frame f)).map fun r =>
    let x := s.frame f
    -- the length of the packet is not changed
    let x' : DataFrame := { x with
      attrib := { r.attrib with pktlen := x.attrib.pktlen }, pktlen_eq := x.pktlen_eq }
    (r.status, ({ s with adapter := r.adapter, mem := r.mem }.updateFrame f fun _ => x').event (.coalesce f r.status))

/-- `update_txdesc` for a frame of an aggregate. -/
def updateTxdesc (s : UsbTx ι φ) (f : φ) : TxDesc φ :=
  let x := s.frame f
  ⟨f, x.bufAddr, (x.attrib.lastTxcmdsz % 65536).toNat, x.pktOffset, x.aggNum⟩

/-- `rtw_issue_addbareq_cmd`, if the frame is no EAPOL, ARP, WAPI or DHCP frame. -/
def addbareq (s : UsbTx ι φ) (busy : Bool) (f : φ) : UsbTx ι φ :=
  let a := (s.frame f).attrib
  if a.etherType ≠ 0x0806 ∧ a.etherType ≠ 0x888e ∧ a.etherType ≠ 0x88b4 ∧ !a.dhcpPkt then
    { s with adapter := (s.adapter.rtwIssueAddbareqCmd busy a.ra a.priority).2 }
  else s

end UsbTx

/-- The variables of `rtl8188eu_xmitframe_complete`. -/
structure Agg (ι φ : Type) where
  tx : UsbTx ι φ
  pbuf : ℕ
  pbufTail : ℕ
  descCnt : ℕ
  bulkptr : ℕ
  /-- `agg_num` of the first frame. -/
  aggNum : ℕ
  /-- The descriptors behind the one of the first frame. -/
  descs : List (TxDesc φ)

namespace UsbTx

variable {ι φ : Type} [DecidableEq φ]

/-- A frame is put into the buffer at `pbuf`, and is not needed any more. -/
def putFrame (s : UsbTx ι φ) (base : ℤ) (k : StaId) (q : AcQueue) (f : φ) (fs : List φ) (pbuf : ℕ) :
    Option (TxDesc φ × UsbTx ι φ) :=
  let s := (s.takePending k q fs).updateFrame f fun x => { x with aggNum := 0, pktOffset := 0, bufAddr := base + pbuf }
  (s.coalesce f).map fun (_, s) =>
    let s := s.rtwOsXmitComplete f
    (s.updateTxdesc f, s.rtwFreeXmitframe f)

/-- The loop over the other frames of the queue. -/
def aggLoop (base : ℤ) (k : StaId) (q : AcQueue) : List φ → Agg ι φ → Option (Agg ι φ)
  | [], v => some v
  | f :: fs, v =>
    let len := (v.tx.frame f).attrib.needLength + txdescSize
    if rnd8 (v.pbuf + len) > maxXmitbufSz then
      some { v with tx := v.tx.updateFrame f fun x => { x with aggNum := 1, pktOffset := 1 } }
    else
      (v.tx.putFrame base k q f fs v.pbuf).bind fun (desc, tx) =>
        let pbufTail := v.pbuf + len
        let pbuf := rnd8 pbufTail
        let v := { v with
          tx := tx, pbuf := pbuf, pbufTail := pbufTail, aggNum := v.aggNum + 1, descs := v.descs ++ [desc] }
        if v.aggNum = maxTxAggPacketNumber then some v
        else if v.pbuf < v.bulkptr then
          let v := { v with descCnt := v.descCnt + 1 }
          if v.descCnt = usbTxAggDescNum then some v else aggLoop base k q fs v
        else
          let bulksize := tx.cfg.usbBulkOutSize
          aggLoop base k q fs { v with descCnt := 0, bulkptr := (v.pbuf / bulksize + 1) * bulksize }

/-- The first frame gets its descriptor, and the buffer is written. -/
def aggWrite (base : ℤ) (first : φ) (busy : Bool) (v : Agg ι φ) : UsbTx ι φ :=
  let s := v.tx.addbareq busy first
  let pull := v.pbufTail % s.cfg.usbBulkOutSize = 0
  let size : ℤ := if pull then v.pbufTail - packetOffsetSz else v.pbufTail
  let s := s.updateFrame first fun x =>
    if pull then
      { x with bufAddr := base + packetOffsetSz, pktOffset := x.pktOffset - 1, aggNum := v.aggNum }
    else { x with aggNum := v.aggNum }
  let desc := s.updateTxdesc first
  (s.event (.write ⟨desc.pmem, size, desc :: v.descs⟩)).rtwFreeXmitframe first

/-- `rtl8188eu_xmitframe_complete`, with the address of a buffer, if there is one. -/
def rtl8188euXmitframeComplete (s : UsbTx ι φ) (inx : List AcQueue) (busy : Bool) (pxmitbuf : Option ℤ) :
    Option (Bool × UsbTx ι φ) :=
  match pxmitbuf with
  | none => some (false, s)
  | some base =>
    match s.rtwDequeueXframe inx with
    | none => some (false, s.event .freeBuf)
    | some (first, s) =>
      let s := s.updateFrame first fun x => { x with bufAddr := base, aggNum := 1, pktOffset := 1 }
      (s.coalesce first).bind fun (_, s) =>
        let s := s.rtwOsXmitComplete first
        let a := (s.frame first).attrib
        let len := a.needLength + txdescSize + packetOffsetSz
        let pbuf := rnd8 len
        let bulksize := s.cfg.usbBulkOutSize
        let (descCnt, bulkptr) := if pbuf < bulksize then (1, bulksize) else (0, (pbuf / bulksize + 1) * bulksize)
        -- the queue is found through the station of the first frame
        a.psta.bind fun k =>
          let q := rtwGetStaPending a.priority
          (aggLoop base k q (s.pending k q) ⟨s, pbuf, len, descCnt, bulkptr, 1, []⟩).map fun v =>
            (true, aggWrite base first busy { v with tx := v.tx.unlinkEmpty k q })

end UsbTx

/-! ## Packing -/

theorem rnd8_eq (sz : ℕ) : rnd8 sz = alignUp 8 sz := by
  unfold rnd8 alignUp
  split_ifs <;> omega

/-- What the frames of an aggregate have to keep to. -/
def aggLimits (bulksize : ℕ) : Limits :=
  ⟨8, by decide, maxXmitbufSz, bulksize, maxTxAggPacketNumber, usbTxAggDescNum⟩

namespace UsbTx

variable {ι φ : Type} [DecidableEq ι] [DecidableEq φ]

/-- The bytes that a frame and its descriptor take. -/
def room (s : UsbTx ι φ) (f : φ) : ℕ := (s.frame f).attrib.needLength + txdescSize

/-- The events of a frame that is put into an aggregate. -/
def putEvents (s : UsbTx ι φ) (f : φ) (status : Status) : List (TxEvent φ) :=
  .coalesce f status :: ((if (s.frame f).pkt.isSome then [.freePkt f] else []) ++ [.freeFrame f])

/-- The frame has a station, and is not fragmented. -/
structure Prepared (s : UsbTx ι φ) (f : φ) : Prop where
  unfragmented : (s.frame f).Unfragmented s.cfg.fragLen
  psta : (s.frame f).attrib.psta ≠ none

/-- The frame can be built, and is not fragmented. -/
structure Sendable (s : UsbTx ι φ) (f : φ) : Prop extends Prepared s f where
  buildable : s.adapter.Buildable (s.frame f)

variable {s s' : UsbTx ι φ} {f g : φ} {fs : List φ} {base : ℤ} {k : StaId} {q : AcQueue} {pbuf : ℕ}

@[simp] theorem frame_updateFrame (s : UsbTx ι φ) (f : φ) (u : DataFrame → DataFrame) :
    (s.updateFrame f u).frame = Function.update s.frame f (u (s.frame f)) := rfl

@[simp] theorem frame_event (s : UsbTx ι φ) (e : TxEvent φ) : (s.event e).frame = s.frame := rfl

/-- Of the frames only `f` is changed, and not in its attributes. -/
structure Touches (f : φ) (s s' : UsbTx ι φ) : Prop where
  cfg : s'.cfg = s.cfg
  keys : s.adapter.SameTxKeys s'.adapter
  others : ∀ g, g ≠ f → s'.frame g = s.frame g
  attrib : SameAttrib (s.frame f).attrib (s'.frame f).attrib

theorem Touches.trans {t : UsbTx ι φ} (h : Touches f s s') (h' : Touches f s' t) : Touches f s t :=
  ⟨h'.cfg.trans h.cfg, h.keys.trans h'.keys, fun g hg => (h'.others g hg).trans (h.others g hg),
    h.attrib.trans h'.attrib⟩

theorem touches_updateFrame (s : UsbTx ι φ) (f : φ) {u : DataFrame → DataFrame}
    (hu : (u (s.frame f)).attrib = (s.frame f).attrib) : Touches f s (s.updateFrame f u) := by
  refine ⟨rfl, Adapter.SameTxKeys.refl _, fun g hg => ?_, ?_⟩
  · rw [frame_updateFrame, Function.update_of_ne hg]
  · rw [frame_updateFrame, Function.update_self, hu]
    exact SameAttrib.refl _

/-- The packet of a frame is given back. -/
theorem completePkt_spec (s : UsbTx ι φ) (f : φ) :
    Touches f s (s.completePkt f) ∧ ((s.completePkt f).frame f).attrib = (s.frame f).attrib ∧
      ((s.completePkt f).frame f).bufAddr = (s.frame f).bufAddr ∧
      ((s.completePkt f).frame f).pktOffset = (s.frame f).pktOffset ∧
      ((s.completePkt f).frame f).pkt = none ∧
      (s.completePkt f).log = s.log ++ if (s.frame f).pkt.isSome then [.freePkt f] else [] := by
  have htouch : Touches f s
    (s.updateFrame f fun x => { x with pkt := none, pktlen_eq := fun _ h => nomatch h }) :=
    s.touches_updateFrame f rfl
  unfold completePkt
  split
  · refine ⟨⟨htouch.cfg, htouch.keys, htouch.others, htouch.attrib⟩, ?_, ?_, ?_, ?_, rfl⟩
    all_goals rw [frame_event, frame_updateFrame, Function.update_self]
  · rename_i hno
    refine ⟨⟨rfl, Adapter.SameTxKeys.refl _, fun _ _ => rfl, SameAttrib.refl _⟩, rfl, rfl, rfl, ?_,
      (List.append_nil _).symm⟩
    exact Option.not_isSome_iff_eq_none.mp hno

/-- What `rtw_xmitframe_coalesce` does to the driver. -/
theorem usbCoalesce_spec {status : Status} (h : s.coalesce f = some (status, s')) :
    Touches f s s' ∧ (s'.frame f).bufAddr = (s.frame f).bufAddr ∧
      (s'.frame f).pktOffset = (s.frame f).pktOffset ∧
      (s'.frame f).pkt = (s.frame f).pkt ∧ s'.pending = s.pending ∧
      s'.log = s.log ++ [.coalesce f status] ∧
      ((s.adapter.Buildable (s.frame f) ∧ status = .success) ∨
        (¬s.adapter.Buildable (s.frame f) ∧ status = .fail)) := by
  obtain ⟨r, hr, heq⟩ := Option.map_eq_some_iff.mp h
  obtain ⟨hkeys, hattrib, hcases⟩ := Adapter.coalesce_spec hr
  cases heq
  refine ⟨⟨rfl, hkeys, fun g hg => Function.update_of_ne hg _ _, ?_⟩, ?_, ?_, ?_, rfl, rfl, hcases⟩
  all_goals rw [frame_event, frame_updateFrame, Function.update_self]
  have hpktlen : ({ r.attrib with pktlen := (s.frame f).attrib.pktlen } : XmitAttrib) =
    r.attrib := by
    rw [← hattrib.pktlen]
  change SameAttrib _ { r.attrib with pktlen := (s.frame f).attrib.pktlen }
  rw [hpktlen]
  exact hattrib

/-- What `rtw_xmitframe_coalesce` does to a frame that can be sent. -/
theorem usbCoalesce_of_sendable (h : s.Sendable f) :
    ∃ status s', s.coalesce f = some (status, s') ∧
      (s'.frame f).attrib.lastTxcmdsz = (s.frame f).attrib.needLength := by
  obtain ⟨k, hk⟩ := Option.ne_none_iff_exists'.mp h.psta
  obtain ⟨r, hr, -, hlast⟩ :=
    @Adapter.coalesce_of_buildable ι _ s.adapter s.cfg.fragLen s.mem (s.frame f) k
    h.buildable h.unfragmented hk
  unfold coalesce
  rw [hr]
  refine ⟨_, _, rfl, ?_⟩
  rw [frame_event, frame_updateFrame, Function.update_self]
  exact hlast

theorem exists_usbCoalesce (h : s.Prepared f) : ∃ r, s.coalesce f = some r := by
  obtain ⟨k, hk⟩ := Option.ne_none_iff_exists'.mp h.psta
  obtain ⟨r, hr⟩ := @Adapter.exists_coalesce ι _ s.adapter s.cfg.fragLen s.mem (s.frame f) k
    h.unfragmented hk
  unfold coalesce
  rw [hr]
  exact ⟨_, rfl⟩

/-- Where the frame is to be built does not matter. -/
theorem Prepared.congr (h : s.Prepared f) (hcfg : s'.cfg = s.cfg)
    (hattrib : (s'.frame f).attrib = (s.frame f).attrib)
    (hpkt : (s'.frame f).pkt = (s.frame f).pkt) :
    s'.Prepared f := by
  obtain ⟨hfrag, hpsta⟩ := h
  refine ⟨?_, by rwa [hattrib]⟩
  unfold DataFrame.Unfragmented at hfrag ⊢
  rw [hattrib, hcfg, hpkt]
  refine hfrag.imp_right fun hle pkt hp => ?_
  have hmpdu : ((s'.frame f).buf pkt).mpduLen s.cfg.fragLen
    (rtwPutSnap (s.frame f).attrib.etherType) =
      ((s.frame f).buf pkt).mpduLen s.cfg.fragLen (rtwPutSnap (s.frame f).attrib.etherType) := by
    unfold XmitFrameBuf.mpduLen DataFrame.buf
    dsimp only
    rw [hattrib]
  rw [hmpdu]
  exact hle pkt hp

theorem Sendable.congr (h : s.Sendable f) (hkeys : s.adapter.SameTxKeys s'.adapter)
    (hcfg : s'.cfg = s.cfg)
    (hattrib : (s'.frame f).attrib = (s.frame f).attrib)
    (hpkt : (s'.frame f).pkt = (s.frame f).pkt) :
    s'.Sendable f :=
  ⟨h.toPrepared.congr hcfg hattrib hpkt,
    (hkeys.buildable_iff _).mpr (h.buildable.congr hattrib hpkt)⟩

/-- The frame gets its place in the buffer. -/
def placed (s : UsbTx ι φ) (base : ℤ) (k : StaId) (q : AcQueue) (f : φ) (fs : List φ) (pbuf : ℕ) : UsbTx ι φ :=
  (s.takePending k q fs).updateFrame f fun x => { x with aggNum := 0, pktOffset := 0, bufAddr := base + pbuf }

theorem frame_placed (s : UsbTx ι φ) (base : ℤ) (k : StaId) (q : AcQueue) (f : φ) (fs : List φ)
    (pbuf : ℕ) :
    (s.placed base k q f fs pbuf).frame f =
      { s.frame f with aggNum := 0, pktOffset := 0, bufAddr := base + pbuf } :=
      Function.update_self _ _ _

theorem touches_placed (s : UsbTx ι φ) (base : ℤ) (k : StaId) (q : AcQueue) (f : φ) (fs : List φ)
    (pbuf : ℕ) :
    Touches f s (s.placed base k q f fs pbuf) := by
  refine ⟨rfl, Adapter.SameTxKeys.refl _, fun g hg => Function.update_of_ne hg _ _, ?_⟩
  rw [frame_placed]
  exact SameAttrib.refl _

/-- A frame is given back with its packet, after the packet was given back. -/
theorem freed_spec (t : UsbTx ι φ) (f : φ) :
    Touches f t ((t.rtwOsXmitComplete f).rtwFreeXmitframe f) ∧
      ((t.rtwOsXmitComplete f).rtwFreeXmitframe f).log =
        t.log ++ ((if (t.frame f).pkt.isSome then [.freePkt f] else []) ++ [.freeFrame f]) := by
  obtain ⟨htouch, -, -, -, hpkt, hlog⟩ := t.completePkt_spec f
  obtain ⟨htouch', -, -, -, -, hlog'⟩ := ((t.completePkt f).event (.freeFrame f)).completePkt_spec f
  have hevent : Touches f (t.completePkt f) ((t.completePkt f).event (.freeFrame f)) :=
    ⟨rfl, Adapter.SameTxKeys.refl _, fun _ _ => rfl, SameAttrib.refl _⟩
  refine ⟨(htouch.trans hevent).trans htouch', ?_⟩
  unfold rtwFreeXmitframe rtwOsXmitComplete
  rw [hlog', frame_event, hpkt]
  change (t.completePkt f).log ++ [.freeFrame f] ++ [] = _
  rw [hlog, List.append_nil, List.append_assoc]

/-- A frame that is put into an aggregate. -/
theorem putFrame_spec {desc : TxDesc φ} (h : s.putFrame base k q f fs pbuf = some (desc, s')) :
    Touches f s s' ∧ desc.frame = f ∧ desc.pmem = base + pbuf ∧ desc.pktOffset = 0 ∧
      ∃ status, s'.log = s.log ++ s.putEvents f status ∧
        ((s.adapter.Buildable (s.frame f) ∧ status = .success) ∨
          (¬s.adapter.Buildable (s.frame f) ∧ status = .fail)) := by
  obtain ⟨⟨status, t⟩, hco, heq⟩ := Option.map_eq_some_iff.mp h
  change (s.placed base k q f fs pbuf).coalesce f = _ at hco
  obtain ⟨htouch, hbuf, hoff, hpkt, -, hlog, hcases⟩ := usbCoalesce_spec hco
  obtain ⟨-, -, hbuf', hoff', -, -⟩ := t.completePkt_spec f
  obtain ⟨hfreed, hlog'⟩ := t.freed_spec f
  rw [frame_placed] at hbuf hoff hpkt
  cases heq
  refine ⟨((s.touches_placed base k q f fs pbuf).trans htouch).trans hfreed, rfl, hbuf'.trans hbuf,
    hoff'.trans hoff,
    status, ?_, ?_⟩
  · rw [hlog', hlog, hpkt]
    exact List.append_assoc _ _ _
  · have hplaced := (s.frame_placed base k q f fs pbuf)
    refine hcases.imp (fun hb => ⟨hb.1.congr ?_ ?_, hb.2⟩)
      fun hb => ⟨fun hb' => hb.1 (hb'.congr ?_ ?_), hb.2⟩
    · rw [hplaced]
    · rw [hplaced]
    · rw [hplaced]
    · rw [hplaced]

/-- A frame that can be sent is put into an aggregate with its size. -/
theorem putFrame_of_sendable (h : s.Sendable f) :
    ∃ desc s', s.putFrame base k q f fs pbuf = some (desc, s') ∧
      desc.size = (s.frame f).attrib.needLength % 65536 := by
  have hplaced := s.frame_placed base k q f fs pbuf
  have h' : (s.placed base k q f fs pbuf).Sendable f :=
    h.congr (Adapter.SameTxKeys.refl _) rfl (by rw [hplaced]) (by rw [hplaced])
  obtain ⟨status, t, hco, hlast⟩ := usbCoalesce_of_sendable h'
  obtain ⟨-, hattrib, -⟩ := t.completePkt_spec f
  unfold putFrame
  change ∃ desc s', ((s.placed base k q f fs pbuf).coalesce f).map _ = some (desc, s') ∧ _
  rw [hco, Option.map_some]
  refine ⟨_, _, rfl, ?_⟩
  change (((t.completePkt f).frame f).attrib.lastTxcmdsz % 65536).toNat = _
  have hneed : ((s.placed base k q f fs pbuf).frame f).attrib.needLength =
    (s.frame f).attrib.needLength := by
    rw [hplaced]
  rw [hattrib, hlast, hneed]
  omega

theorem exists_putFrame (h : s.Prepared f) :
    ∃ desc s', s.putFrame base k q f fs pbuf = some (desc, s') := by
  have hplaced := s.frame_placed base k q f fs pbuf
  have h' : (s.placed base k q f fs pbuf).Prepared f :=
    h.congr rfl (by rw [hplaced]) (by rw [hplaced])
  obtain ⟨r, hr⟩ := exists_usbCoalesce h'
  unfold putFrame
  change ∃ desc s', ((s.placed base k q f fs pbuf).coalesce f).map _ = some (desc, s')
  rw [hr]
  exact ⟨_, _, rfl⟩

/-! ## The loop -/

end UsbTx

namespace Agg

variable {ι φ : Type} [DecidableEq ι] [DecidableEq φ]

/-- The variables with one more frame in the aggregate. -/
def put (v : Agg ι φ) (desc : TxDesc φ) (tx : UsbTx ι φ) (len descCnt bulkptr : ℕ) : Agg ι φ :=
  { tx := tx, pbuf := rnd8 (v.pbuf + len), pbufTail := v.pbuf + len, descCnt := descCnt, bulkptr := bulkptr,
    aggNum := v.aggNum + 1, descs := v.descs ++ [desc] }

/-- The size of the packets of the bulk endpoint. -/
def bulksize (v : Agg ι φ) : ℕ := v.tx.cfg.usbBulkOutSize

/-- `bulkptr` is the end of the packet of `pbuf`. -/
def Aligned (v : Agg ι φ) : Prop := v.bulkptr = (v.pbuf / v.bulksize + 1) * v.bulksize

end Agg

namespace UsbTx

variable {ι φ : Type} [DecidableEq ι] [DecidableEq φ]
variable {base : ℤ} {k : StaId} {q : AcQueue} {f : φ} {fs : List φ} {v : Agg ι φ}

theorem bulksize_pos (c : UsbCfg) : 0 < c.usbBulkOutSize := by
  rcases c.bulk with h | h <;> omega

/-- The loop ends before a frame that does not fit. -/
theorem aggLoop_full (h : maxXmitbufSz < alignUp 8 (v.pbuf + v.tx.room f)) :
    aggLoop base k q (f :: fs) v =
      some { v with tx := v.tx.updateFrame f fun x => { x with aggNum := 1, pktOffset := 1 } } := by
  rw [aggLoop]
  exact if_pos (by rw [rnd8_eq]; exact h)

/-- One round of the loop. -/
theorem aggLoop_step (hv : v.Aligned) (hfit : ¬maxXmitbufSz < alignUp 8 (v.pbuf + v.tx.room f))
    {desc : TxDesc φ}
    {tx : UsbTx ι φ} (hput : v.tx.putFrame base k q f fs v.pbuf = some (desc, tx))
    (hcfg : tx.cfg = v.tx.cfg) :
    ∃ cnt ptr,
      ((aggLimits v.bulksize).goOn v.pbuf
      (alignUp 8 (v.pbuf + v.tx.room f)) v.descCnt v.aggNum = none ∧
          aggLoop base k q (f :: fs) v = some (v.put desc tx (v.tx.room f) cnt ptr)) ∨
        ((aggLimits v.bulksize).goOn v.pbuf (alignUp 8 (v.pbuf + v.tx.room f)) v.descCnt v.aggNum =
        some cnt ∧
          (v.put desc tx (v.tx.room f) cnt ptr).Aligned ∧
          aggLoop base k q (f :: fs) v =
            aggLoop base k q fs (v.put desc tx (v.tx.room f) cnt ptr)) := by
  have hpos : 0 < v.bulksize := bulksize_pos _
  have hle : v.pbuf ≤ alignUp 8 (v.pbuf + v.tx.room f) :=
    (Nat.le_add_right _ _).trans (le_alignUp (by decide) _)
  have hsame : alignUp 8 (v.pbuf + v.tx.room f) < v.bulkptr ↔
      alignUp 8 (v.pbuf + v.tx.room f) / v.bulksize = v.pbuf / v.bulksize := by
    have hmono : v.pbuf / v.bulksize ≤ alignUp 8 (v.pbuf + v.tx.room f) / v.bulksize :=
      Nat.div_le_div_right hle
    rw [hv, ← Nat.div_lt_iff_lt_mul hpos]
    omega
  have hbulk : ∀ cnt ptr, (v.put desc tx (v.tx.room f) cnt ptr).bulksize = v.bulksize := fun _ _ =>
    congrArg (fun c : UsbCfg => c.usbBulkOutSize) hcfg
  have hround : aggLoop base k q (f :: fs) v =
      if v.aggNum + 1 = maxTxAggPacketNumber then
        some (v.put desc tx (v.tx.room f) v.descCnt v.bulkptr)
      else if rnd8 (v.pbuf + v.tx.room f) < v.bulkptr then
        if v.descCnt + 1 = usbTxAggDescNum then
          some (v.put desc tx (v.tx.room f) (v.descCnt + 1) v.bulkptr)
        else aggLoop base k q fs (v.put desc tx (v.tx.room f) (v.descCnt + 1) v.bulkptr)
      else aggLoop base k q fs (v.put desc tx (v.tx.room f) 0
        ((rnd8 (v.pbuf + v.tx.room f) / tx.cfg.usbBulkOutSize + 1) * tx.cfg.usbBulkOutSize)) := by
    rw [aggLoop]
    dsimp only
    have hno : ¬rnd8 (v.pbuf + ((v.tx.frame f).attrib.needLength + txdescSize)) > maxXmitbufSz := by
      rw [rnd8_eq]
      exact hfit
    rw [if_neg hno, hput, Option.bind_some]
    rfl
  rw [hround, rnd8_eq, hcfg]
  unfold Limits.goOn
  by_cases hmax : v.aggNum + 1 = maxTxAggPacketNumber
  · exact ⟨v.descCnt, v.bulkptr, Or.inl ⟨if_pos hmax, if_pos hmax⟩⟩
  rw [if_neg hmax, if_neg (show ¬v.aggNum + 1 = (aggLimits v.bulksize).blocks from hmax)]
  by_cases hin : alignUp 8 (v.pbuf + v.tx.room f) < v.bulkptr
  · rw [if_pos hin, if_pos
      (show _ / (aggLimits v.bulksize).window =
      _ / (aggLimits v.bulksize).window from hsame.mp hin)]
    by_cases hcnt : v.descCnt + 1 = usbTxAggDescNum
    · exact ⟨v.descCnt + 1, v.bulkptr, Or.inl ⟨if_pos hcnt, if_pos hcnt⟩⟩
    · refine ⟨v.descCnt + 1, v.bulkptr, Or.inr ⟨if_neg hcnt, ?_, if_neg hcnt⟩⟩
      unfold Agg.Aligned
      rw [hbulk]
      change v.bulkptr = (rnd8 (v.pbuf + v.tx.room f) / v.bulksize + 1) * v.bulksize
      rw [rnd8_eq, hsame.mp hin, hv]
  · rw [if_neg hin, if_neg
      (show ¬_ / (aggLimits v.bulksize).window = _ / (aggLimits v.bulksize).window from
      fun h => hin (hsame.mpr h))]
    refine ⟨0, (alignUp 8 (v.pbuf + v.tx.room f) / v.bulksize + 1) * v.bulksize,
      Or.inr ⟨rfl, ?_, rfl⟩⟩
    unfold Agg.Aligned
    rw [hbulk, ← rnd8_eq]
    rfl

end UsbTx

/-- The bytes behind a descriptor, and the descriptor. -/
def TxDesc.slot {φ : Type} (base : ℤ) (d : TxDesc φ) : Slot :=
  ⟨(d.pmem - base).toNat, txdescSize + d.pktOffset * packetOffsetSz + d.size⟩

open Classical in
/-- What `rtw_xmitframe_coalesce` says about a frame. -/
noncomputable def UsbTx.builtStatus {ι φ : Type} (s : UsbTx ι φ) (f : φ) : Status :=
  if s.adapter.Buildable (s.frame f) then .success else .fail

namespace Agg

variable {ι φ : Type} [DecidableEq ι] [DecidableEq φ]

/-- Where the frames of a queue go. -/
def packed (v : Agg ι φ) (fs : List φ) : List Slot :=
  (aggLimits v.bulksize).pack v.pbuf v.descCnt v.aggNum (fs.map v.tx.room)

theorem length_packed_le (v : Agg ι φ) (fs : List φ) : (v.packed fs).length ≤ fs.length := by
  have hsizes := congrArg List.length
    ((aggLimits v.bulksize).map_size_pack (fs.map v.tx.room) v.pbuf v.descCnt v.aggNum)
  rw [List.length_map, List.length_take, List.length_map] at hsizes
  unfold packed
  omega

/-- The last byte of the blocks. -/
def tailOf (v : Agg ι φ) (bs : List Slot) : ℕ := bs.getLast?.elim v.pbufTail Slot.stop

/-- What the loop does. -/
structure Looped (base : ℤ) (fs : List φ) (v v' : Agg ι φ) (ds : List (TxDesc φ)) : Prop where
  cfg : v'.tx.cfg = v.tx.cfg
  keys : v.tx.adapter.SameTxKeys v'.tx.adapter
  others : ∀ g ∉ fs, v'.tx.frame g = v.tx.frame g
  aggNum : v'.aggNum = v.aggNum + (v.packed fs).length
  pbufTail : v'.pbufTail = v.tailOf (v.packed fs)
  descs : v'.descs = v.descs ++ ds
  frames : ds.map TxDesc.frame = fs.take (v.packed fs).length
  log : v'.tx.log = v.tx.log ++
    (fs.take (v.packed fs).length).flatMap fun f => v.tx.putEvents f (v.tx.builtStatus f)
  pktOffset : ∀ d ∈ ds, d.pktOffset = 0
  slots : (∀ f ∈ fs, v.tx.Sendable f) → ds.map (TxDesc.slot base) = v.packed fs

theorem packed_full {v : Agg ι φ} {f : φ} {fs : List φ}
    (h : maxXmitbufSz < alignUp 8 (v.pbuf + v.tx.room f)) :
    v.packed (f :: fs) = [] := by
  unfold packed
  rw [List.map_cons, Limits.pack]
  exact if_pos h

theorem packed_cons {v : Agg ι φ} {f : φ} {fs : List φ}
    (h : ¬maxXmitbufSz < alignUp 8 (v.pbuf + v.tx.room f)) :
    v.packed (f :: fs) = ⟨v.pbuf, v.tx.room f⟩ ::
      match (aggLimits v.bulksize).goOn v.pbuf (alignUp 8 (v.pbuf + v.tx.room f)) v.descCnt
        v.aggNum with
      | none => []
      | some cnt => (aggLimits v.bulksize).pack (alignUp 8 (v.pbuf + v.tx.room f)) cnt
        (v.aggNum + 1)
          (fs.map v.tx.room) := by
  unfold packed
  rw [List.map_cons, Limits.pack]
  exact if_neg h

end Agg

namespace UsbTx

variable {ι φ : Type} [DecidableEq ι] [DecidableEq φ]
variable {base : ℤ} {k : StaId} {q : AcQueue} {f : φ} {fs : List φ} {v v' : Agg ι φ}

theorem builtStatus_congr {s s' : UsbTx ι φ} (hkeys : s.adapter.SameTxKeys s'.adapter)
    (hframe : s'.frame f = s.frame f) : s'.builtStatus f = s.builtStatus f := by
  unfold builtStatus
  rw [hframe, hkeys.buildable_iff]

/-- The first round of the loop, in the words of `Looped`. -/
theorem putFrame_looped {desc : TxDesc φ} {tx : UsbTx ι φ} {p : ℕ}
    (hput : v.tx.putFrame base k q f fs p = some (desc, tx)) :
    tx.cfg = v.tx.cfg ∧ v.tx.adapter.SameTxKeys tx.adapter ∧
      (∀ g, g ≠ f → tx.frame g = v.tx.frame g) ∧
      desc.frame = f ∧ desc.pktOffset = 0 ∧
        tx.log = v.tx.log ++ v.tx.putEvents f (v.tx.builtStatus f) ∧
      (v.tx.Sendable f → v.tx.room f ≤ maxXmitbufSz → desc.slot base = ⟨p, v.tx.room f⟩) := by
  obtain ⟨htouch, hframe, hpmem, hoff, status, hlog, hcases⟩ := putFrame_spec hput
  have hstatus : status = v.tx.builtStatus f := by
    unfold builtStatus
    rcases hcases with ⟨hb, hs⟩ | ⟨hb, hs⟩
    · rw [if_pos hb, hs]
    · rw [if_neg hb, hs]
  refine ⟨htouch.cfg, htouch.keys, htouch.others, hframe, hoff, hstatus ▸ hlog,
    fun hsend hroom => ?_⟩
  obtain ⟨desc', tx', hput', hsize⟩ := @putFrame_of_sendable _ _ _ _ v.tx f fs base k q p hsend
  obtain ⟨rfl, -⟩ : desc = desc' ∧ tx = tx' := by
    simpa using hput.symm.trans hput'
  unfold room at hroom
  unfold TxDesc.slot room
  have hmod : (v.tx.frame f).attrib.needLength % 65536 = (v.tx.frame f).attrib.needLength := by
    refine Nat.mod_eq_of_lt ?_
    unfold maxXmitbufSz at hroom
    omega
  rw [hpmem, hoff, hsize, hmod]
  ext
  · dsimp only
    omega
  · dsimp only
    omega

/-- A round of the loop, and what follows. -/
theorem looped_cons {desc : TxDesc φ} {tx : UsbTx ι φ} {cnt ptr : ℕ} {ds : List (TxDesc φ)}
    (hfull : ¬maxXmitbufSz < alignUp 8 (v.pbuf + v.tx.room f))
    (hgo : (aggLimits v.bulksize).goOn v.pbuf
    (alignUp 8 (v.pbuf + v.tx.room f)) v.descCnt v.aggNum = some cnt)
    (hf : f ∉ fs) (hcfg : tx.cfg = v.tx.cfg) (hkeys : v.tx.adapter.SameTxKeys tx.adapter)
    (hothers : ∀ g, g ≠ f → tx.frame g = v.tx.frame g) (hframe : desc.frame = f)
    (hoff : desc.pktOffset = 0)
    (hlog : tx.log = v.tx.log ++ v.tx.putEvents f (v.tx.builtStatus f))
    (hslot : v.tx.Sendable f → desc.slot base = ⟨v.pbuf, v.tx.room f⟩)
    (h : Agg.Looped base fs (v.put desc tx (v.tx.room f) cnt ptr) v' ds) :
    Agg.Looped base (f :: fs) v v' (desc :: ds) := by
  have hne : ∀ g ∈ fs, g ≠ f := fun g hg hgf => hf (hgf ▸ hg)
  have hrooms : fs.map v.tx.room = fs.map tx.room := by
    refine List.map_congr_left fun g hg => ?_
    unfold room
    rw [hothers g (hne g hg)]
  have hpacked : v.packed (f :: fs) =
      ⟨v.pbuf, v.tx.room f⟩ :: (v.put desc tx (v.tx.room f) cnt ptr).packed fs := by
    have hbulk : (v.put desc tx (v.tx.room f) cnt ptr).bulksize = v.bulksize :=
      congrArg (fun c : UsbCfg => c.usbBulkOutSize) hcfg
    rw [Agg.packed_cons hfull, hgo, hrooms]
    unfold Agg.packed
    rw [hbulk]
    change _ = _ :: (aggLimits v.bulksize).pack (rnd8 (v.pbuf + v.tx.room f)) cnt (v.aggNum + 1)
      (fs.map tx.room)
    rw [rnd8_eq]
  refine ⟨h.cfg.trans hcfg, hkeys.trans h.keys,
    fun g hg => ?_, ?_, ?_, ?_, ?_, ?_, ?_, fun hsend => ?_⟩
  · exact (h.others g (List.not_mem_of_not_mem_cons hg)).trans
      (hothers g (List.ne_of_not_mem_cons hg))
  · rw [h.aggNum, hpacked, List.length_cons]
    change v.aggNum + 1 + _ = _
    omega
  · rw [h.pbufTail, hpacked]
    unfold Agg.tailOf
    rw [List.getLast?_cons]
    cases ((v.put desc tx (v.tx.room f) cnt ptr).packed fs).getLast? with
    | none => rfl
    | some b => rfl
  · rw [h.descs]
    change v.descs ++ [desc] ++ ds = _
    rw [List.append_assoc]
    rfl
  · rw [hpacked, List.map_cons, hframe, h.frames]
    rfl
  · rw [h.log, hpacked]
    change tx.log ++ _ = v.tx.log ++ (f :: fs.take _).flatMap _
    rw [hlog, List.append_assoc, List.flatMap_cons]
    refine congrArg (fun l => v.tx.log ++ (v.tx.putEvents f (v.tx.builtStatus f) ++ l)) ?_
    refine List.flatMap_congr fun g hg => ?_
    have hg' := hne g (List.mem_of_mem_take hg)
    change tx.putEvents g (tx.builtStatus g) = _
    rw [builtStatus_congr hkeys (hothers g hg')]
    unfold putEvents
    rw [hothers g hg']
  · exact List.forall_mem_cons.mpr ⟨hoff, h.pktOffset⟩
  · rw [hpacked, List.map_cons, hslot (hsend f List.mem_cons_self)]
    refine congrArg (_ :: ·) (h.slots fun g hg => ?_)
    have hg' := hne g hg
    exact (hsend g (List.mem_cons_of_mem _ hg)).congr hkeys hcfg
      (congrArg DataFrame.attrib (hothers g hg'))
      (congrArg DataFrame.pkt (hothers g hg'))

/-- The loop puts the frames where they are packed. -/
theorem aggLoop_spec : ∀ {fs : List φ} {v v' : Agg ι φ}, v.Aligned → fs.Nodup →
    aggLoop base k q fs v = some v' →
    ∃ ds, Agg.Looped base fs v v' ds
  | [], v, v', _, _, h => by
    cases h
    exact ⟨[], rfl, Adapter.SameTxKeys.refl _,
      fun _ _ => rfl, rfl, rfl, (List.append_nil _).symm, rfl,
      (List.append_nil _).symm, (fun _ hd => nomatch hd), fun _ => rfl⟩
  | f :: fs, v, v', hv, hnodup, h => by
    by_cases hfull : maxXmitbufSz < alignUp 8 (v.pbuf + v.tx.room f)
    · rw [aggLoop_full hfull] at h
      cases h
      have hnil := @Agg.packed_full _ _ _ _ v f fs hfull
      refine ⟨[], rfl, Adapter.SameTxKeys.refl _,
        fun g hg => ?_, ?_, ?_, (List.append_nil _).symm, ?_, ?_,
        (fun _ hd => nomatch hd), ?_⟩
      · exact Function.update_of_ne (List.ne_of_not_mem_cons hg) _ _
      · rw [hnil]
        rfl
      · rw [hnil]
        rfl
      · rw [hnil]
        rfl
      · rw [hnil]
        exact (List.append_nil _).symm
      · rw [hnil]
        exact fun _ => rfl
    cases hput : v.tx.putFrame base k q f fs v.pbuf with
    | none =>
      rw [aggLoop] at h
      dsimp only at h
      have hno : ¬rnd8 (v.pbuf + ((v.tx.frame f).attrib.needLength + txdescSize)) >
        maxXmitbufSz := by
        rw [rnd8_eq]
        exact hfull
      rw [if_neg hno, hput] at h
      cases h
    | some r =>
      obtain ⟨desc, tx⟩ := r
      obtain ⟨hcfg, hkeys, hothers, hframe, hoff, hlog, hslot⟩ := putFrame_looped hput
      have hroom : v.tx.room f ≤ maxXmitbufSz := by
        have hup := le_alignUp (show 0 < 8 by decide) (v.pbuf + v.tx.room f)
        omega
      obtain ⟨hf, hnodup'⟩ := List.nodup_cons.mp hnodup
      obtain ⟨cnt, ptr, ⟨hgo, hstep⟩ | ⟨hgo, hv', hstep⟩⟩ := aggLoop_step hv hfull hput hcfg
      · -- the aggregate is full
        rw [hstep] at h
        cases h
        have hone : v.packed (f :: fs) = [⟨v.pbuf, v.tx.room f⟩] := by
          rw [Agg.packed_cons hfull, hgo]
        refine ⟨[desc], hcfg, hkeys,
          fun g hg => hothers g (List.ne_of_not_mem_cons hg), ?_, ?_, rfl, ?_, ?_,
          List.forall_mem_singleton.mpr hoff, ?_⟩
        · rw [hone]
          rfl
        · rw [hone]
          rfl
        · rw [hone]
          exact congrArg (fun g => [g]) hframe
        · rw [hone]
          change tx.log = _ ++ ([f].flatMap _)
          rw [hlog, List.flatMap_singleton]
        · rw [hone]
          exact fun hsend => congrArg (fun b => [b]) (hslot (hsend f List.mem_cons_self) hroom)
      · rw [hstep] at h
        obtain ⟨ds, hl⟩ := aggLoop_spec hv' hnodup' h
        exact ⟨desc :: ds, looped_cons hfull hgo hf hcfg hkeys hothers hframe hoff hlog
          (fun hsend => hslot hsend hroom) hl⟩

/-- The loop comes to an end. -/
theorem exists_aggLoop : ∀ {fs : List φ} {v : Agg ι φ}, v.Aligned → fs.Nodup →
    (∀ f ∈ fs, v.tx.Prepared f) →
    ∃ v', aggLoop base k q fs v = some v'
  | [], v, _, _, _ => ⟨v, rfl⟩
  | f :: fs, v, hv, hnodup, hprep => by
    by_cases hfull : maxXmitbufSz < alignUp 8 (v.pbuf + v.tx.room f)
    · exact ⟨_, aggLoop_full hfull⟩
    obtain ⟨hf, hnodup'⟩ := List.nodup_cons.mp hnodup
    obtain ⟨desc, tx, hput⟩ :=
      @exists_putFrame _ _ _ _ v.tx f fs base k q v.pbuf (hprep f List.mem_cons_self)
    obtain ⟨hcfg, hkeys, hothers, -⟩ := putFrame_looped hput
    obtain ⟨cnt, ptr, ⟨-, hstep⟩ | ⟨-, hv', hstep⟩⟩ := aggLoop_step hv hfull hput hcfg
    · exact ⟨_, hstep⟩
    · rw [hstep]
      refine exists_aggLoop hv' hnodup' fun g hg => ?_
      have hne : g ≠ f := fun hgf => hf (hgf ▸ hg)
      exact (hprep g (List.mem_cons_of_mem _ hg)).congr hcfg
        (congrArg DataFrame.attrib (hothers g hne))
        (congrArg DataFrame.pkt (hothers g hne))

end UsbTx

/-! ## The transfer -/

namespace UsbTx

variable {ι φ : Type} [DecidableEq ι] [DecidableEq φ]
variable {base : ℤ} {k : StaId} {q : AcQueue} {first f : φ} {rest : List φ} {s s' : UsbTx ι φ}
  {v v' : Agg ι φ}

/-- `rtw_dequeue_xframe` takes the first frame of a queue, and all frames of the queue are of its
station and its category. -/
structure NextQueue (s : UsbTx ι φ) (inx : List AcQueue) (k : StaId) (q : AcQueue) (first : φ) (rest : List φ) :
    Prop where
  dequeue : s.rtwDequeueXframe inx = some (first, (s.takePending k q rest).unlinkEmpty k q)
  pending : s.pending k q = first :: rest
  psta : (s.frame first).attrib.psta = some k
  category : rtwGetStaPending (s.frame first).attrib.priority = q
  nodup : (first :: rest).Nodup

/-- The bytes before the second frame. -/
def firstRoom (s : UsbTx ι φ) (first : φ) : ℕ := s.room first + packetOffsetSz

/-- Where the frames go, before the eight bytes are left out. -/
def aggSlots (s : UsbTx ι φ) (first : φ) (rest : List φ) : List Slot :=
  let B := s.cfg.usbBulkOutSize
  let next := alignUp 8 (s.firstRoom first)
  ⟨0, s.firstRoom first⟩ :: (aggLimits B).pack next (if next < B then 1 else 0) 1 (rest.map s.room)

/-- The frames behind the first that are put into the transfer. -/
def taken (s : UsbTx ι φ) (first : φ) (rest : List φ) : List φ := rest.take (s.aggSlots first rest).tail.length

/-- The end of the last frame. -/
def aggTail (s : UsbTx ι φ) (first : φ) (rest : List φ) : ℕ :=
  (s.aggSlots first rest).tail.getLast?.elim (s.firstRoom first) Slot.stop

theorem addbareq_same (s : UsbTx ι φ) (busy : Bool) (f : φ) :
    (s.addbareq busy f).frame = s.frame ∧ (s.addbareq busy f).cfg = s.cfg ∧
    (s.addbareq busy f).log = s.log := by
  unfold addbareq
  dsimp only
  split_ifs <;> exact ⟨rfl, rfl, rfl⟩

/-- What is written, for the variables at the end of the loop. -/
def aggTransfer (base : ℤ) (first : φ) (v : Agg ι φ) : UsbWrite φ :=
  let x := v.tx.frame first
  let size := (x.attrib.lastTxcmdsz % 65536).toNat
  if v.pbufTail % v.bulksize = 0 then
    ⟨base + packetOffsetSz, v.pbufTail - packetOffsetSz,
      ⟨first, base + packetOffsetSz, size, x.pktOffset - 1, v.aggNum⟩ :: v.descs⟩
  else ⟨x.bufAddr, v.pbufTail, ⟨first, x.bufAddr, size, x.pktOffset, v.aggNum⟩ :: v.descs⟩

theorem log_rtwFreeXmitframe (s : UsbTx ι φ) (f : φ) :
    (s.rtwFreeXmitframe f).log =
    s.log ++ .freeFrame f :: if (s.frame f).pkt.isSome then [.freePkt f] else [] := by
  obtain ⟨-, -, -, -, -, hlog⟩ := (s.event (.freeFrame f)).completePkt_spec f
  refine hlog.trans ?_
  change (s.log ++ [_]) ++ _ = _
  rw [List.append_assoc]
  rfl

/-- The end of `rtl8188eu_xmitframe_complete`. -/
theorem aggWrite_log (busy : Bool) (hpkt : (v.tx.frame first).pkt = none) :
    (aggWrite base first busy v).log =
    v.tx.log ++ [.write (aggTransfer base first v), .freeFrame first] := by
  obtain ⟨hframe, hcfg, hlog⟩ := v.tx.addbareq_same busy first
  unfold aggWrite aggTransfer updateTxdesc Agg.bulksize
  dsimp only
  rw [log_rtwFreeXmitframe, frame_event, frame_updateFrame, Function.update_self, hframe, hcfg]
  have hnone : (if v.pbufTail % v.tx.cfg.usbBulkOutSize = 0 then
      ({ v.tx.frame first with
        bufAddr := base + packetOffsetSz, pktOffset := (v.tx.frame first).pktOffset - 1, aggNum :=
        v.aggNum } : DataFrame)
      else { v.tx.frame first with aggNum := v.aggNum }).pkt = none := by
    split_ifs <;> exact hpkt
  rw [hnone]
  change ((v.tx.addbareq busy first).log ++ [_]) ++ [_] = _
  rw [hlog, List.append_assoc]
  split_ifs <;> rfl

/-- The driver when the first frame is to be built. -/
def begun (s : UsbTx ι φ) (base : ℤ) (k : StaId) (q : AcQueue) (first : φ) (rest : List φ) : UsbTx ι φ :=
  ((s.takePending k q rest).unlinkEmpty k q).updateFrame first fun x =>
    { x with bufAddr := base, aggNum := 1, pktOffset := 1 }

theorem unlinkEmpty_same (s : UsbTx ι φ) (k : StaId) (q : AcQueue) :
    (s.unlinkEmpty k q).frame = s.frame ∧ (s.unlinkEmpty k q).cfg = s.cfg ∧
    (s.unlinkEmpty k q).adapter = s.adapter ∧
      (s.unlinkEmpty k q).log = s.log ∧ (s.unlinkEmpty k q).pending = s.pending := by
  unfold unlinkEmpty
  split_ifs <;> exact ⟨rfl, rfl, rfl, rfl, rfl⟩

theorem begun_spec (s : UsbTx ι φ) (base : ℤ) (k : StaId) (q : AcQueue) (first : φ)
    (rest : List φ) :
    Touches first s (s.begun base k q first rest) ∧ (s.begun base k q first rest).log = s.log ∧
      (s.begun base k q first rest).pending k q = rest ∧ (s.begun base k q first rest).frame first =
        { s.frame first with bufAddr := base, aggNum := 1, pktOffset := 1 } := by
  obtain ⟨hframe, hcfg, hadapter, hlog, hpending⟩ := (s.takePending k q rest).unlinkEmpty_same k q
  have hself : (s.begun base k q first rest).frame first =
      { s.frame first with bufAddr := base, aggNum := 1, pktOffset := 1 } := by
    unfold begun
    rw [frame_updateFrame, Function.update_self, hframe]
    rfl
  refine ⟨⟨hcfg, ?_, fun g hg => ?_, ?_⟩, hlog, ?_, hself⟩
  · change s.adapter.SameTxKeys ((s.takePending k q rest).unlinkEmpty k q).adapter
    rw [hadapter]
    exact Adapter.SameTxKeys.refl _
  · unfold begun
    rw [frame_updateFrame, Function.update_of_ne hg, hframe]
    rfl
  · rw [hself]
    exact SameAttrib.refl _
  · change ((s.takePending k q rest).unlinkEmpty k q).pending k q = rest
    rw [hpending]
    change Function.update s.pending k _ k q = rest
    rw [Function.update_self, Function.update_self]

/-- The variables before the loop. -/
def aggStart (t : UsbTx ι φ) (first : φ) : Agg ι φ :=
  let len := t.firstRoom first
  let next := rnd8 len
  let B := t.cfg.usbBulkOutSize
  ⟨t, next, len, if next < B then 1 else 0, (next / B + 1) * B, 1, []⟩

/-- The first frame is taken, and the loop is entered. -/
theorem complete_eq {inx : List AcQueue} {busy : Bool} (hq : s.NextQueue inx k q first rest) :
    s.rtl8188euXmitframeComplete inx busy (some base) =
      ((s.begun base k q first rest).coalesce first).bind fun r =>
        (aggLoop base k q rest (aggStart (r.2.rtwOsXmitComplete first) first)).map fun v =>
          (true, aggWrite base first busy { v with tx := v.tx.unlinkEmpty k q }) := by
  obtain ⟨htouch, -, hpending, -⟩ := s.begun_spec base k q first rest
  unfold rtl8188euXmitframeComplete
  rw [hq.dequeue]
  dsimp only
  refine Option.bind_congr fun r hr => ?_
  change (s.begun base k q first rest).coalesce first = _ at hr
  obtain ⟨htouch', -, -, -, hpend, -⟩ := usbCoalesce_spec hr
  obtain ⟨-, hattrib, -⟩ := r.2.completePkt_spec first
  have hpsta : ((r.2.rtwOsXmitComplete first).frame first).attrib.psta = some k := by
    refine (congrArg (fun a => a.psta) hattrib).trans ?_
    rw [htouch'.attrib.psta, htouch.attrib.psta, hq.psta]
  have hcategory : rtwGetStaPending
    ((r.2.rtwOsXmitComplete first).frame first).attrib.priority = q := by
    refine (congrArg (fun a => rtwGetStaPending a.priority) hattrib).trans ?_
    rw [htouch'.attrib.priority, htouch.attrib.priority, hq.category]
  have hrest : (r.2.rtwOsXmitComplete first).pending k q = rest := by
    have hsame : (r.2.rtwOsXmitComplete first).pending = r.2.pending := by
      unfold rtwOsXmitComplete completePkt
      split_ifs <;> rfl
    rw [hsame, hpend, hpending]
  rw [hpsta, Option.bind_some, hcategory, hrest]
  unfold aggStart firstRoom
  have hlt : ∀ n B : ℕ, 0 < B → (if n < B then ((1 : ℕ), B) else (0, (n / B + 1) * B)) =
      (if n < B then 1 else 0, (n / B + 1) * B) := by
    intro n B _
    split_ifs with h
    · rw [Nat.div_eq_of_lt h, Nat.zero_add, Nat.one_mul]
    · rfl
  rw [hlt _ _ (bulksize_pos _)]
  rfl

/-- What `rtl8188eu_xmitframe_complete` does when there is a frame. -/
structure Transferred (s : UsbTx ι φ) (base : ℤ) (first : φ) (rest : List φ) (s' : UsbTx ι φ) (w : UsbWrite φ) :
    Prop where
  log : s'.log = s.log ++ (.coalesce first (s.builtStatus first) ::
      (if (s.frame first).pkt.isSome then [.freePkt first] else [])) ++
    (s.taken first rest).flatMap (fun f => s.putEvents f (s.builtStatus f)) ++ [.write w, .freeFrame first]
  frames : w.descs.map TxDesc.frame = first :: s.taken first rest
  bufAddr : w.bufAddr = base + if s.aggTail first rest % s.cfg.usbBulkOutSize = 0 then packetOffsetSz else 0
  size : w.size = s.aggTail first rest - if s.aggTail first rest % s.cfg.usbBulkOutSize = 0 then packetOffsetSz else 0
  count : w.descs.head?.map TxDesc.aggNum = some w.descs.length
  slots : (∀ f ∈ first :: rest, s.Sendable f) → ∃ d ds, w.descs = d :: ds ∧ d.pmem = w.bufAddr ∧
    d.pktOffset = (if s.aggTail first rest % s.cfg.usbBulkOutSize = 0 then 0 else 1) ∧
    d.size = (s.frame first).attrib.needLength % 65536 ∧
    ds.map (TxDesc.slot base) = (s.aggSlots first rest).tail ∧ ∀ d ∈ ds, d.pktOffset = 0

/-- The variables before the loop, and the driver before. -/
theorem aggStart_spec {t : UsbTx ι φ} (hfirst : first ∉ rest) (htouch : Touches first s t) :
    (aggStart t first).Aligned ∧ (aggStart t first).packed rest = (s.aggSlots first rest).tail ∧
      (aggStart t first).tailOf ((s.aggSlots first rest).tail) = s.aggTail first rest ∧
      ∀ f ∈ rest, t.frame f = s.frame f := by
  have hothers : ∀ f ∈ rest, t.frame f = s.frame f := fun f hf =>
    htouch.others f fun heq => hfirst (heq ▸ hf)
  have hroom : t.firstRoom first = s.firstRoom first := by
    unfold firstRoom room
    rw [htouch.attrib.needLength]
  have hrooms : rest.map t.room = rest.map s.room := by
    refine List.map_congr_left fun f hf => ?_
    unfold room
    rw [hothers f hf]
  refine ⟨rfl, ?_, ?_, hothers⟩
  · unfold Agg.packed aggStart aggSlots Agg.bulksize
    dsimp only
    rw [hrooms, hroom, htouch.cfg, rnd8_eq]
    rfl
  · unfold Agg.tailOf aggTail aggStart
    dsimp only
    rw [hroom]

/-- What is done before the first frame is built does not change whether it can be built. -/
theorem eq_builtStatus {status : Status}
    (hcases : ((s.begun base k q first rest).adapter.Buildable
        ((s.begun base k q first rest).frame first) ∧ status = .success) ∨
      (¬(s.begun base k q first rest).adapter.Buildable
        ((s.begun base k q first rest).frame first) ∧ status = .fail)) :
    status = s.builtStatus first := by
  obtain ⟨hbegun, -, -, hself⟩ := s.begun_spec base k q first rest
  have hiff : (s.begun base k q first rest).adapter.Buildable
    ((s.begun base k q first rest).frame first) ↔
      s.adapter.Buildable (s.frame first) := by
    rw [hbegun.keys.buildable_iff, hself]
    exact ⟨fun hb => hb.congr rfl rfl, fun hb => hb.congr rfl rfl⟩
  unfold builtStatus
  rcases hcases with ⟨hb, hs⟩ | ⟨hb, hs⟩
  · rw [if_pos (hiff.mp hb), hs]
  · rw [if_neg fun hb' => hb (hiff.mpr hb'), hs]

/-- What is done, whatever the frames are. -/
theorem complete_spec {inx : List AcQueue} {busy b : Bool} (hq : s.NextQueue inx k q first rest)
    (h : s.rtl8188euXmitframeComplete inx busy (some base) = some (b, s')) :
    b = true ∧ ∃ w, s.Transferred base first rest s' w := by
  obtain ⟨hfirst, hnodup⟩ := List.nodup_cons.mp hq.nodup
  obtain ⟨hbegun, hlog, -, hself⟩ := s.begun_spec base k q first rest
  rw [complete_eq hq] at h
  obtain ⟨⟨status, t⟩, hco, h⟩ := Option.bind_eq_some_iff.mp h
  obtain ⟨v, hloop, heq⟩ := Option.map_eq_some_iff.mp h
  obtain ⟨hbuilt, hbuf, hoff, hpkt, -, hlog', hcases⟩ := usbCoalesce_spec hco
  obtain ⟨hdone, hattrib, hbuf', hoff', hpkt', hlog''⟩ := t.completePkt_spec first
  have htouch : Touches first s (t.rtwOsXmitComplete first) := (hbegun.trans hbuilt).trans hdone
  obtain ⟨haligned, hpacked, htail, hothers⟩ := aggStart_spec hfirst htouch
  obtain ⟨ds, hl⟩ := aggLoop_spec haligned hnodup hloop
  have hstatus : status = s.builtStatus first := eq_builtStatus hcases
  have hframe : v.tx.frame first = (t.rtwOsXmitComplete first).frame first := hl.others first hfirst
  obtain ⟨hunframe, huncfg, -, hunlog, -⟩ := v.tx.unlinkEmpty_same k q
  have hB : v.tx.cfg = s.cfg := hl.cfg.trans htouch.cfg
  have hvtail : v.pbufTail = s.aggTail first rest := by
    rw [hl.pbufTail, hpacked, htail]
  have hbufAddr : (v.tx.frame first).bufAddr = base := by
    rw [hframe]
    refine hbuf'.trans (hbuf.trans ?_)
    rw [hself]
  have hpktOffset : (v.tx.frame first).pktOffset = 1 := by
    rw [hframe]
    refine hoff'.trans (hoff.trans ?_)
    rw [hself]
  have hw : aggTransfer base first { v with tx := v.tx.unlinkEmpty k q } =
      if s.aggTail first rest % s.cfg.usbBulkOutSize = 0 then
        ⟨base + packetOffsetSz, s.aggTail first rest - packetOffsetSz,
          ⟨first, base + packetOffsetSz, ((v.tx.frame first).attrib.lastTxcmdsz % 65536).toNat, 0,
          v.aggNum⟩ :: ds⟩
      else ⟨base, s.aggTail first rest,
        ⟨first, base, ((v.tx.frame first).attrib.lastTxcmdsz % 65536).toNat, 1,
        v.aggNum⟩ :: ds⟩ := by
    unfold aggTransfer Agg.bulksize
    dsimp only
    rw [hunframe, huncfg, hB, hvtail, hbufAddr, hpktOffset, hl.descs]
    rfl
  have hnum : v.aggNum = 1 + ds.length := by
    have hlen := congrArg List.length hl.frames
    rw [List.length_map, List.length_take] at hlen
    have hle := (aggStart (t.rtwOsXmitComplete first) first).length_packed_le rest
    rw [hl.aggNum]
    change 1 + _ = _
    omega
  cases heq
  refine ⟨rfl, aggTransfer base first { v with tx := v.tx.unlinkEmpty k q }, ?_, ?_, ?_, ?_, ?_,
    fun hsend => ?_⟩
  · rw [aggWrite_log]
    · change (v.tx.unlinkEmpty k q).log ++ _ = _
      rw [hunlog, hl.log, hpacked]
      change (t.completePkt first).log ++ _ ++ _ = _
      rw [hlog'', hlog', hlog, hpkt, hself, hstatus, List.append_assoc s.log]
      refine congrArg (fun l => s.log ++ _ ++ l ++ _) (List.flatMap_congr fun f hf => ?_)
      have hsame := hothers f (List.mem_of_mem_take hf)
      change (t.rtwOsXmitComplete first).putEvents f ((t.rtwOsXmitComplete first).builtStatus f) = _
      rw [builtStatus_congr htouch.keys hsame]
      unfold putEvents
      rw [hsame]
    · change ((v.tx.unlinkEmpty k q).frame first).pkt = none
      rw [hunframe, hframe]
      exact hpkt'
  · rw [hw]
    have hds : ds.map TxDesc.frame = s.taken first rest := by
      rw [hl.frames, hpacked]
      rfl
    split_ifs <;> exact congrArg (first :: ·) hds
  · rw [hw]
    split_ifs <;> simp
  · rw [hw]
    split_ifs <;> simp
  · rw [hw, hnum]
    split_ifs <;> exact congrArg some (Nat.add_comm 1 _)
  · have hsend' : (s.begun base k q first rest).Sendable first := by
      refine (hsend first List.mem_cons_self).congr hbegun.keys hbegun.cfg ?_ ?_
      · rw [hself]
      · rw [hself]
    obtain ⟨status', t', hco', hlast⟩ := usbCoalesce_of_sendable hsend'
    obtain ⟨-, rfl⟩ : status = status' ∧ t = t' := by
      simpa using hco.symm.trans hco'
    have hsize : ((v.tx.frame first).attrib.lastTxcmdsz % 65536).toNat =
      (s.frame first).attrib.needLength % 65536 := by
      have hlast' : (v.tx.frame first).attrib.lastTxcmdsz = (s.frame first).attrib.needLength := by
        rw [hframe]
        refine (congrArg (fun a => a.lastTxcmdsz) hattrib).trans (hlast.trans ?_)
        rw [hself]
      rw [hlast']
      omega
    have hslots : ds.map (TxDesc.slot base) = (s.aggSlots first rest).tail := by
      rw [← hpacked]
      refine hl.slots fun f hf => ?_
      exact (hsend f (List.mem_cons_of_mem _ hf)).congr htouch.keys htouch.cfg
        (congrArg DataFrame.attrib (hothers f hf)) (congrArg DataFrame.pkt (hothers f hf))
    rw [hw, hsize]
    split_ifs with hpull
    · exact ⟨_, ds, rfl, rfl, rfl, rfl, hslots, hl.pktOffset⟩
    · exact ⟨_, ds, rfl, rfl, rfl, rfl, hslots, hl.pktOffset⟩

/-- There is a run for frames with a station that are not fragmented. -/
theorem exists_complete {inx : List AcQueue} {busy : Bool} (hq : s.NextQueue inx k q first rest)
    (hprep : ∀ f ∈ first :: rest, s.Prepared f) :
    ∃ s', s.rtl8188euXmitframeComplete inx busy (some base) = some (true, s') := by
  obtain ⟨hfirst, hnodup⟩ := List.nodup_cons.mp hq.nodup
  obtain ⟨hbegun, -, -, hself⟩ := s.begun_spec base k q first rest
  have hfirst' : (s.begun base k q first rest).Prepared first := by
    refine (hprep first List.mem_cons_self).congr hbegun.cfg ?_ ?_
    · rw [hself]
    · rw [hself]
  obtain ⟨⟨status, t⟩, hco⟩ := exists_usbCoalesce hfirst'
  obtain ⟨hbuilt, -⟩ := usbCoalesce_spec hco
  obtain ⟨hdone, -⟩ := t.completePkt_spec first
  have htouch : Touches first s (t.rtwOsXmitComplete first) := (hbegun.trans hbuilt).trans hdone
  obtain ⟨haligned, -, -, hothers⟩ := aggStart_spec hfirst htouch
  obtain ⟨v, hv⟩ := @exists_aggLoop _ _ _ _ base k q rest _ haligned hnodup fun f hf =>
    (hprep f (List.mem_cons_of_mem _ hf)).congr htouch.cfg
      (congrArg DataFrame.attrib (hothers f hf))
      (congrArg DataFrame.pkt (hothers f hf))
  rw [complete_eq hq, hco, Option.bind_some, hv]
  exact ⟨_, rfl⟩

end UsbTx

end Rtl8188eu
