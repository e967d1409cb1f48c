import Rtl8188eu.Aggregation
import Rtl8188eu.UsbAggregation

/-!
# Where the frames of an aggregate lie

The frames of a queue lie in the transfer as they should (`UsbTx.laysOut_iff`) : in order, apart
from each other, with the sizes that `rtw_xmitframe_coalesce` gives them, and not too many of them
in the transfer or in one packet of the endpoint. The first of them has to fit into the buffer, and
there is one case in which a packet gets too many : when the eight bytes at the beginning are left
out, a frame that began with a packet falls into the packet before it, which may have six frames
already.
-/

set_option linter.unusedSectionVars false

namespace Rtl8188eu

open AlignedPacking

/-! ## Windows of the transfer -/

theorem countP_or_of_disjoint {α : Type} {p r : α → Bool} (h : ∀ a, ¬(p a ∧ r a)) :
    ∀ l : List α, l.countP (fun a => p a || r a) = l.countP p + l.countP r
  | [] => rfl
  | a :: l => by
    have ha := h a
    rw [List.countP_cons, List.countP_cons, List.countP_cons, countP_or_of_disjoint h l]
    cases hp : p a <;> cases hr : r a <;> simp_all <;> omega

/-- Eight bytes at the beginning of a buffer are left out : what begins with a packet of the
endpoint falls into the packet before it. -/
theorem shifted_windows {B m : ℕ} (hB : B = 512 ∨ B = 64) {offs : List ℕ} (h8 : ∀ o ∈ offs, 8 ∣ o)
    (hpos : ∀ o ∈ offs, 8 < o) (hnodup : offs.Nodup)
    (hcount : ∀ n, (0 :: offs).countP (fun o => o / B = n) ≤ m) :
    (∀ n, (8 :: offs).countP (fun o => (o - 8) / B = n) ≤ m) ↔
      ¬∃ n, (8 :: offs).countP (fun o => n * B < o ∧ o < (n + 1) * B) = m ∧
        (n + 1) * B ∈ 8 :: offs := by
  have hmem : ∀ o ∈ 8 :: offs, 8 ∣ o ∧ 8 ≤ o := by
    intro o ho
    rcases List.mem_cons.mp ho with rfl | ho
    · exact ⟨dvd_rfl, le_rfl⟩
    · exact ⟨h8 o ho, (hpos o ho).le⟩
  have hsplit : ∀ n, (8 :: offs).countP (fun o => (o - 8) / B = n) =
      (8 :: offs).countP (fun o => n * B < o ∧ o < (n + 1) * B) + (8 :: offs).count
        ((n + 1) * B) := by
    intro n
    rw [List.count_eq_countP, ← countP_or_of_disjoint]
    · refine List.countP_congr fun o ho => ?_
      obtain ⟨⟨i, rfl⟩, hge⟩ := hmem o ho
      simp only [decide_eq_true_eq, Bool.or_eq_true, beq_iff_eq]
      rcases hB with rfl | rfl <;> omega
    · intro o
      simp only [decide_eq_true_eq, beq_iff_eq]
      omega
  have hinside : ∀ n, (8 :: offs).countP (fun o => n * B < o ∧ o < (n + 1) * B) ≤ m := by
    intro n
    refine le_trans ?_ (hcount n)
    rw [List.countP_cons, List.countP_cons]
    refine Nat.add_le_add (List.countP_mono_left fun o _ ho => ?_) ?_
    · simp only [decide_eq_true_eq] at ho ⊢
      rcases hB with rfl | rfl <;> omega
    · simp only [decide_eq_true_eq]
      rcases hB with rfl | rfl <;> split_ifs <;> omega
  have hone : (8 :: offs).Nodup :=
    List.nodup_cons.mpr ⟨fun h => absurd (hpos 8 h) (lt_irrefl 8), hnodup⟩
  constructor
  · rintro hall ⟨n, hfull, hin⟩
    have hle := hall n
    rw [hsplit, hfull] at hle
    have hpos' := List.count_pos_iff.mpr hin
    omega
  · intro hno n
    rw [hsplit]
    have hle := hinside n
    by_cases hin : (n + 1) * B ∈ 8 :: offs
    · have hne : (8 :: offs).countP (fun o => n * B < o ∧ o < (n + 1) * B) ≠ m :=
        fun h => hno ⟨n, h, hin⟩
      have hle' := List.nodup_iff_count_le_one.mp hone ((n + 1) * B)
      omega
    · rw [List.count_eq_zero_of_not_mem hin]
      exact hle

/-! ## The frames in the transfer -/

/-- The bytes of a frame in the air : its header, the IV, the LLC header, the packet, and what the
driver puts behind it. -/
def DataFrame.airLength (x : DataFrame) : ℕ :=
  x.attrib.hdrlen + x.attrib.tx.ivLen + 8 + x.pkt.elim 0 (fun p => p.bytes.length) + x.attrib.tx.micLen +
    x.attrib.tx.swIcvLen

/-- `xmitframe_need_length` is right. -/
theorem DataFrame.needLength_eq {x : DataFrame} (h : x.pkt ≠ none) :
    x.attrib.needLength = x.airLength := by
  obtain ⟨p, hp⟩ := Option.ne_none_iff_exists'.mp h
  have hlen := x.pktlen_eq p hp
  unfold airLength XmitAttrib.needLength TxAttrib.micLen
  rw [hp]
  change _ = x.attrib.hdrlen + x.attrib.tx.ivLen + 8 + p.bytes.length +
    (if x.attrib.encrypt = .tkip then 8 else 0) + x.attrib.tx.swIcvLen
  dsimp only
  split_ifs <;> omega

/-- The first byte behind the frame of a descriptor. -/
def TxDesc.stop {φ : Type} (d : TxDesc φ) : ℤ := d.pmem + (txdescSize + d.pktOffset * packetOffsetSz + d.size : ℕ)

namespace UsbTx

variable {ι φ : Type} [DecidableEq ι] [DecidableEq φ]
variable {base : ℤ} {k : StaId} {q : AcQueue} {first f : φ} {rest : List φ} {s s' : UsbTx ι φ}
  {w : UsbWrite φ}

/-- The frames of a transfer lie as they should. -/
structure Laid (s : UsbTx ι φ) (base : ℤ) (queue : List φ) (w : UsbWrite φ) : Prop where
  order : w.descs.map TxDesc.frame <+: queue
  aligned : ∀ d ∈ w.descs, (8 : ℤ) ∣ d.pmem - base
  disjoint : w.descs.Pairwise fun d d' => d.stop ≤ d'.pmem
  inside : ∀ d ∈ w.descs, w.bufAddr ≤ d.pmem ∧ d.stop ≤ w.bufAddr + w.size
  buffer : base ≤ w.bufAddr ∧ w.bufAddr + w.size ≤ base + maxXmitbufSz
  sizes : ∀ d ∈ w.descs, d.size = (s.frame d.frame).airLength
  count : w.descs ≠ [] ∧ w.descs.length ≤ maxTxAggPacketNumber ∧ w.descs.head?.map TxDesc.aggNum = some w.descs.length
  /-- No packet of the endpoint gets too many descriptors. -/
  perBulk : ∀ n, (w.descs.countP fun d => (d.pmem - w.bufAddr).toNat / s.cfg.usbBulkOutSize = n) ≤ usbTxAggDescNum
  /-- The transfer ends with a short packet. -/
  short : ¬(s.cfg.usbBulkOutSize : ℤ) ∣ w.size

/-- The descriptors of the transfer, before the eight bytes are left out : the first is behind
them. -/
def descOffsets (s : UsbTx ι φ) (first : φ) (rest : List φ) : List ℕ :=
  8 :: (s.aggSlots first rest).tail.map Slot.offset

/-- The eight bytes are left out, six descriptors are inside one packet of the endpoint, and the
next is at its end. -/
def Overfull (s : UsbTx ι φ) (first : φ) (rest : List φ) : Prop :=
  s.aggTail first rest % s.cfg.usbBulkOutSize = 0 ∧
    ∃ n, (s.descOffsets first rest).countP (fun o => n * s.cfg.usbBulkOutSize < o ∧ o < (n + 1) * s.cfg.usbBulkOutSize) =
        usbTxAggDescNum ∧ (n + 1) * s.cfg.usbBulkOutSize ∈ s.descOffsets first rest

/-- The blocks behind the first. -/
theorem mem_aggSlots_tail {b : Slot} (hb : b ∈ (s.aggSlots first rest).tail) :
    s.firstRoom first ≤ b.offset ∧ 8 ∣ b.offset ∧ b.stop ≤ maxXmitbufSz ∧
      b.stop ≤ s.aggTail first rest :=
  ⟨(le_alignUp (by decide) _).trans (Limits.le_offset_of_mem_pack b hb),
    Limits.dvd_offset_of_mem_pack (dvd_alignUp 8 _) b hb, Limits.stop_le_of_mem_pack b hb,
    Limits.stop_le_getLast Limits.pairwise_pack b hb⟩

theorem firstRoom_ge (s : UsbTx ι φ) (first : φ) : 40 ≤ s.firstRoom first := by
  unfold firstRoom room txdescSize packetOffsetSz
  omega

/-- Where the transfer ends. -/
theorem aggTail_bounds (s : UsbTx ι φ) (first : φ) (rest : List φ) :
    s.firstRoom first ≤ s.aggTail first rest ∧
      (s.aggTail first rest ≤ maxXmitbufSz ↔ s.firstRoom first ≤ maxXmitbufSz) := by
  cases hlast : (s.aggSlots first rest).tail.getLast? with
  | none =>
    have heq : s.aggTail first rest = s.firstRoom first := by
      unfold aggTail
      rw [hlast]
      rfl
    rw [heq]
    exact ⟨le_rfl, Iff.rfl⟩
  | some b =>
    have heq : s.aggTail first rest = b.stop := by
      unfold aggTail
      rw [hlast]
      rfl
    obtain ⟨hoff, -, hcap, -⟩ := mem_aggSlots_tail (List.mem_of_getLast? hlast)
    have hstop : b.offset ≤ b.stop := Nat.le_add_right _ _
    rw [heq]
    exact ⟨hoff.trans hstop, iff_of_true hcap ((hoff.trans hstop).trans hcap)⟩

/-- No packet of the endpoint has too many descriptors before the eight bytes are left out. -/
theorem countP_aggSlots_le (s : UsbTx ι φ) (first : φ) (rest : List φ) (n : ℕ) :
    (0 :: (s.aggSlots first rest).tail.map Slot.offset).countP
    (fun o => o / s.cfg.usbBulkOutSize = n) ≤
      usbTxAggDescNum := by
  have hhere : (if alignUp 8 (s.firstRoom first) < s.cfg.usbBulkOutSize then 1 else 0) <
    usbTxAggDescNum := by
    unfold usbTxAggDescNum
    split_ifs <;> omega
  have hcount : (aggLimits s.cfg.usbBulkOutSize).countIn n (s.aggSlots first rest).tail +
      (if alignUp 8 (s.firstRoom first) / s.cfg.usbBulkOutSize = n then
        if alignUp 8 (s.firstRoom first) < s.cfg.usbBulkOutSize then 1 else 0 else 0) ≤
        usbTxAggDescNum :=
    (aggLimits s.cfg.usbBulkOutSize).countIn_pack_le (rest.map s.room) _ _ 1 hhere n
  have htail : ((s.aggSlots first rest).tail.map Slot.offset).countP
    (fun o => o / s.cfg.usbBulkOutSize = n) =
      (aggLimits s.cfg.usbBulkOutSize).countIn n (s.aggSlots first rest).tail := by
    unfold Limits.countIn
    rw [List.countP_map]
    rfl
  rw [List.countP_cons, htail]
  simp only [Nat.zero_div, decide_eq_true_eq]
  by_cases hlt : alignUp 8 (s.firstRoom first) < s.cfg.usbBulkOutSize
  · -- the second frame would begin in the first packet
    rw [if_pos hlt, Nat.div_eq_of_lt hlt] at hcount
    exact hcount
  · rw [if_neg hlt, ite_self] at hcount
    have hdiv : 0 < alignUp 8 (s.firstRoom first) / s.cfg.usbBulkOutSize :=
      Nat.div_pos (Nat.not_lt.mp hlt) (bulksize_pos s.cfg)
    split_ifs with h0
    · subst h0
      have hnone : (aggLimits s.cfg.usbBulkOutSize).countIn 0 (s.aggSlots first rest).tail = 0 :=
        Limits.countIn_pack_of_lt hdiv
      rw [hnone]
      decide
    · exact hcount

/-- The descriptors behind the first. -/
theorem desc_spec {ds : List (TxDesc φ)}
    (hslots : ds.map (TxDesc.slot base) = (s.aggSlots first rest).tail)
    {d : TxDesc φ} (hd : d ∈ ds) :
    d.pmem = base + (d.slot base).offset ∧ d.stop = base + (d.slot base).stop ∧
      s.firstRoom first ≤ (d.slot base).offset ∧ 8 ∣ (d.slot base).offset ∧
        (d.slot base).stop ≤ maxXmitbufSz ∧
      (d.slot base).stop ≤ s.aggTail first rest := by
  have hmem : d.slot base ∈ (s.aggSlots first rest).tail := hslots ▸ List.mem_map_of_mem hd
  obtain ⟨hge, hdvd, hcap, htail⟩ := mem_aggSlots_tail hmem
  have hroom := s.firstRoom_ge first
  have hpos : 0 < (d.pmem - base).toNat := (show 0 < 40 by decide).trans_le (hroom.trans hge)
  have hpmem : d.pmem = base + (d.slot base).offset := by
    change d.pmem = base + ((d.pmem - base).toNat : ℤ)
    omega
  refine ⟨hpmem, ?_, hge, hdvd, hcap, htail⟩
  unfold TxDesc.stop Slot.stop
  rw [hpmem]
  push_cast
  rw [add_assoc]
  rfl

/-- The sizes of the frames behind the first. -/
theorem desc_size {ds : List (TxDesc φ)}
    (hslots : ds.map (TxDesc.slot base) = (s.aggSlots first rest).tail)
    (hframes : ds.map TxDesc.frame = s.taken first rest) (hoff : ∀ d ∈ ds, d.pktOffset = 0)
    {d : TxDesc φ}
    (hd : d ∈ ds) : d.size = (s.frame d.frame).attrib.needLength := by
  have hsizes : ds.map (fun d => (d.slot base).size) = ds.map fun d => s.room d.frame := by
    have hmap := (aggLimits s.cfg.usbBulkOutSize).map_size_pack (rest.map s.room)
      (alignUp 8 (s.firstRoom first))
      (if alignUp 8 (s.firstRoom first) < s.cfg.usbBulkOutSize then 1 else 0) 1
    have hleft : ds.map (fun d => (d.slot base).size) =
      (s.aggSlots first rest).tail.map Slot.size := by
      rw [← hslots, List.map_map]
      rfl
    have hright : ds.map (fun d => s.room d.frame) = (s.taken first rest).map s.room := by
      rw [← hframes, List.map_map]
      rfl
    rw [hleft, hright]
    unfold taken
    rw [List.map_take]
    exact hmap
  have hroom := List.map_inj_left.mp hsizes d hd
  unfold TxDesc.slot room at hroom
  dsimp only at hroom
  rw [hoff d hd] at hroom
  omega

/-- The descriptors in the packets of the endpoint. -/
theorem countP_descs {d : TxDesc φ} {ds : List (TxDesc φ)} {shift : ℕ} (hpmem : d.pmem = w.bufAddr)
    (hbuf : w.bufAddr = base + shift)
    (hslots : ds.map (TxDesc.slot base) = (s.aggSlots first rest).tail) (n : ℕ) :
    (d :: ds).countP (fun d => (d.pmem - w.bufAddr).toNat / s.cfg.usbBulkOutSize = n) =
      (shift :: (s.aggSlots first rest).tail.map Slot.offset).countP
        fun o => (o - shift) / s.cfg.usbBulkOutSize = n := by
  rw [List.countP_cons, List.countP_cons, ← hslots, List.map_map, List.countP_map, hpmem, sub_self,
    Nat.sub_self]
  refine congrArg₂ (· + ·) (List.countP_congr fun e he => ?_) rfl
  obtain ⟨he', -⟩ := desc_spec hslots he
  have hsub : (e.pmem - w.bufAddr).toNat = (e.slot base).offset - shift := by
    rw [he', hbuf]
    omega
  simp only [hsub, decide_eq_true_eq, Function.comp_apply]

/-- The packets of the endpoint get not too many descriptors, but for one case. -/
theorem perBulk_iff {d : TxDesc φ} {ds : List (TxDesc φ)} (hpmem : d.pmem = w.bufAddr)
    (hbuf : w.bufAddr = base + if s.aggTail first rest % s.cfg.usbBulkOutSize =
    0 then packetOffsetSz else 0)
    (hslots : ds.map (TxDesc.slot base) = (s.aggSlots first rest).tail) :
    (∀ n, (d :: ds).countP (fun d => (d.pmem - w.bufAddr).toNat / s.cfg.usbBulkOutSize = n) ≤
    usbTxAggDescNum) ↔
      ¬s.Overfull first rest := by
  by_cases hpull : s.aggTail first rest % s.cfg.usbBulkOutSize = 0
  · rw [if_pos hpull] at hbuf
    have hoffs : ∀ o ∈ (s.aggSlots first rest).tail.map Slot.offset, 8 ∣ o ∧ 8 < o := by
      intro o ho
      obtain ⟨b, hb, rfl⟩ := List.mem_map.mp ho
      obtain ⟨hge, hdvd, -⟩ := mem_aggSlots_tail hb
      exact ⟨hdvd, (show 8 < 40 by decide).trans_le ((s.firstRoom_ge first).trans hge)⟩
    have hnodup : ((s.aggSlots first rest).tail.map Slot.offset).Nodup := by
      refine List.pairwise_map.mpr ?_
      have hpair : (s.aggSlots first rest).tail.Pairwise fun b b' => b.stop ≤ b'.offset :=
        Limits.pairwise_pack
      have hsizes : ∀ b ∈ (s.aggSlots first rest).tail, 0 < b.size := by
        intro b hb
        have hmap := (aggLimits s.cfg.usbBulkOutSize).map_size_pack (rest.map s.room)
          (alignUp 8 (s.firstRoom first))
          (if alignUp 8 (s.firstRoom first) < s.cfg.usbBulkOutSize then 1 else 0) 1
        have hmem := List.mem_of_mem_take (hmap ▸ List.mem_map_of_mem (f := Slot.size) hb)
        obtain ⟨f, -, hf⟩ := List.mem_map.mp hmem
        rw [← hf]
        unfold room txdescSize
        omega
      refine hpair.imp_of_mem fun {b b'} hb _ hle heq => ?_
      have hpos := hsizes b hb
      unfold Slot.stop at hle
      omega
    have hwin := shifted_windows (m := usbTxAggDescNum) s.cfg.bulk (fun o ho => (hoffs o ho).1)
      (fun o ho => (hoffs o ho).2) hnodup (s.countP_aggSlots_le first rest)
    unfold Overfull
    rw [and_iff_right hpull]
    refine Iff.trans (forall_congr' fun n => ?_) hwin
    rw [countP_descs hpmem hbuf hslots]
    rfl
  · rw [if_neg hpull] at hbuf
    refine iff_of_true (fun n => ?_) fun hover => hpull hover.1
    have hbase : w.bufAddr = base + (0 : ℕ) := hbuf
    rw [countP_descs hpmem hbase hslots]
    exact s.countP_aggSlots_le first rest n

/-- The frames lie as they should if the first of them fits, and the packets of the endpoint get not
too many descriptors when the eight bytes are left out. -/
theorem Transferred.laid_iff (h : s.Transferred base first rest s' w)
    (hsend : ∀ f ∈ first :: rest, s.Sendable f) :
    s.Laid base (first :: rest) w ↔ s.firstRoom first ≤ maxXmitbufSz ∧ ¬s.Overfull first rest := by
  obtain ⟨d, ds, hdescs, hpmem, hoff, hsize, hslots, hoffs⟩ := h.slots hsend
  obtain ⟨hdframe, hframes⟩ : d.frame = first ∧ ds.map TxDesc.frame = s.taken first rest := by
    have hmap := h.frames
    rw [hdescs] at hmap
    exact List.cons.inj hmap
  have hair : ∀ f ∈ first :: rest, (s.frame f).attrib.needLength = (s.frame f).airLength :=
    fun f hf =>
    DataFrame.needLength_eq (hsend f hf).buildable.pkt
  have hroom : s.firstRoom first = (s.frame first).attrib.needLength + 40 := rfl
  have hend : w.bufAddr + w.size = base + s.aggTail first rest := by
    rw [h.bufAddr, h.size]
    ring
  have hstop : d.stop = base + (40 + d.size : ℕ) := by
    unfold TxDesc.stop
    rw [hpmem, h.bufAddr, hoff]
    unfold txdescSize packetOffsetSz
    split_ifs <;> push_cast <;> ring
  obtain ⟨htail, hcap⟩ := s.aggTail_bounds first rest
  constructor
  · intro hlaid
    have hd : d ∈ w.descs := hdescs ▸ List.mem_cons_self
    have hsize' := hlaid.sizes d hd
    rw [hdframe, ← hair first List.mem_cons_self] at hsize'
    have hin := (hlaid.inside d hd).2
    have hbuf := hlaid.buffer.2
    refine ⟨?_, (perBulk_iff hpmem h.bufAddr hslots).mp (hdescs ▸ hlaid.perBulk)⟩
    rw [hroom, ← hsize']
    omega
  · rintro ⟨hfit, hover⟩
    have hsize' : d.size = (s.frame first).attrib.needLength := by
      rw [hsize]
      refine Nat.mod_eq_of_lt ?_
      unfold maxXmitbufSz at hfit
      omega
    have hshift : w.bufAddr = base ∨ w.bufAddr = base + 8 := by
      rw [h.bufAddr]
      unfold packetOffsetSz
      split_ifs
      · exact Or.inr rfl
      · exact Or.inl (add_zero base)
    have hall : ∀ e ∈ ds, d.stop ≤ e.pmem ∧ w.bufAddr ≤ e.pmem ∧
      e.stop ≤ base + s.aggTail first rest := by
      intro e he
      obtain ⟨hpm, hst, hge, -, -, htl⟩ := desc_spec hslots he
      have h40 := s.firstRoom_ge first
      rw [hstop, hsize', hpm, hst]
      rw [hroom] at hge h40
      refine ⟨by omega, by omega, by omega⟩
    refine ⟨?_, ?_, ?_, ?_, ?_, ?_, ?_, ?_, ?_⟩
    · rw [h.frames]
      exact List.prefix_cons_inj first |>.mpr (List.take_prefix _ _)
    · rw [hdescs]
      refine List.forall_mem_cons.mpr ⟨?_, fun e he => ?_⟩
      · rw [hpmem]
        omega
      · obtain ⟨hpm, -, -, hdvd, -⟩ := desc_spec hslots he
        rw [hpm]
        omega
    · rw [hdescs]
      refine List.pairwise_cons.mpr ⟨fun e he => (hall e he).1, ?_⟩
      have hpair : (s.aggSlots first rest).tail.Pairwise fun b b' => b.stop ≤ b'.offset :=
        Limits.pairwise_pack
      rw [← hslots, List.pairwise_map] at hpair
      refine hpair.imp_of_mem fun {e e'} he he' hle => ?_
      rw [(desc_spec hslots he).2.1, (desc_spec hslots he').1]
      omega
    · rw [hdescs, hend]
      refine List.forall_mem_cons.mpr ⟨⟨hpmem.ge, ?_⟩, fun e he => (hall e he).2⟩
      rw [hstop, hsize']
      omega
    · rw [hend]
      refine ⟨by omega, ?_⟩
      have := hcap.mpr hfit
      omega
    · rw [hdescs]
      refine List.forall_mem_cons.mpr ⟨?_, fun e he => ?_⟩
      · rw [hsize', hdframe, hair first List.mem_cons_self]
      · have hmem : e.frame ∈ rest := by
          have hin : e.frame ∈ s.taken first rest := hframes ▸ List.mem_map_of_mem he
          exact List.mem_of_mem_take hin
        rw [desc_size hslots hframes hoffs he, hair e.frame (List.mem_cons_of_mem _ hmem)]
    · refine ⟨by rw [hdescs]; exact List.cons_ne_nil _ _, ?_, h.count⟩
      have hlen := congrArg List.length hslots
      have hpack := (aggLimits s.cfg.usbBulkOutSize).length_pack (rest.map s.room)
        (alignUp 8 (s.firstRoom first))
        (if alignUp 8 (s.firstRoom first) < s.cfg.usbBulkOutSize then 1 else 0) 1
          (show 1 < 255 by decide)
      rw [List.length_map] at hlen
      rw [hdescs, List.length_cons, hlen, Nat.add_comm]
      exact hpack
    · rw [hdescs]
      exact (perBulk_iff hpmem h.bufAddr hslots).mpr hover
    · rw [h.size]
      unfold packetOffsetSz
      have hB := s.cfg.bulk
      rcases hB with hB | hB <;> rw [hB] <;> split_ifs with hpull <;> omega

/-- The transfers so far. -/
def writes (s : UsbTx ι φ) : List (UsbWrite φ) :=
  s.log.filterMap fun e => match e with
    | .write w => some w
    | _ => none

theorem Transferred.writes_eq (h : s.Transferred base first rest s' w) :
    s'.writes = s.writes ++ [w] := by
  have hput : ∀ f status, (s.putEvents f status).filterMap (fun e => match e with
      | TxEvent.write w => some w
      | _ => none) = [] := by
    intro f status
    unfold putEvents
    split_ifs <;> rfl
  have htaken : ((s.taken first rest).flatMap fun f => s.putEvents f (s.builtStatus f)).filterMap
    (fun e => match e with
      | TxEvent.write w => some w
      | _ => none) = [] := by
    rw [List.filterMap_flatMap]
    exact List.flatMap_eq_nil_iff.mpr fun f _ => hput f _
  unfold writes
  rw [h.log, List.filterMap_append, List.filterMap_append, List.filterMap_append, htaken,
    List.append_nil]
  split_ifs <;> simp

/-- The frames of a queue go into one transfer, and lie there as they should. -/
def LaysOut (s : UsbTx ι φ) (inx : List AcQueue) (busy : Bool) (base : ℤ) (queue : List φ) : Prop :=
  ∃ s' w, s.rtl8188euXmitframeComplete inx busy (some base) = some (true, s') ∧ s'.writes = s.writes ++ [w] ∧
    s.Laid base queue w

/-- The frames of a queue lie in the transfer as they should, but for two cases. -/
theorem laysOut_iff {inx : List AcQueue} {busy : Bool} (hq : s.NextQueue inx k q first rest)
    (hsend : ∀ f ∈ first :: rest, s.Sendable f) :
    s.LaysOut inx busy base (first :: rest) ↔
      (s.frame first).attrib.needLength + txdescSize + packetOffsetSz ≤ maxXmitbufSz ∧ ¬s.Overfull first rest := by
  obtain ⟨s', hrun⟩ :=
    @exists_complete _ _ _ _ base k q first rest s inx busy hq fun f hf => (hsend f hf).toPrepared
  obtain ⟨-, w, hw⟩ := complete_spec hq hrun
  refine Iff.trans ?_ (hw.laid_iff hsend)
  constructor
  · rintro ⟨t, w', hrun', hwrites, hlaid⟩
    obtain rfl : s' = t := by
      simpa using hrun.symm.trans hrun'
    obtain rfl : w = w' := by
      simpa using hw.writes_eq.symm.trans hwrites
    exact hlaid
  · exact fun hlaid => ⟨s', w, hrun, hw.writes_eq, hlaid⟩

end UsbTx

/-- A client of an access point. -/
def aggClient : Adapter (Fin 256) :=
  let s := Adapter.linkedDevice
  { s with mlmepriv.fwState := 0x09 }

/-- A data frame to the access point, with a packet of that length. -/
def sampleDataFrame (n : ℕ) (hn : n < 2 ^ 16) : DataFrame where
  attrib :=
    { subtype := 0x08, hdrlen := 24, encrypt := .noPrivacy, priority := 0, ackPolicy := 0, eosp := 0, mdata := false
      dst := localAddr 2, src := localAddr 1, ra := localAddr 2
      htEn := false, ampduEn := false, seqnum := 0, psta := some 1
      etherType := 0x0800, hdrlen_lt := by norm_num, bswenc := false, keyIdx := 0, icv := [], pktlen := n
      ta := localAddr 1, qosEn := false, dhcpPkt := false, lastTxcmdsz := 0, nrFrags := 0 }
  bufAddr := 0
  pktOffset := 0
  aggNum := 0
  pkt := some ⟨List.replicate n 0, by rwa [List.length_replicate]⟩
  pktlen_eq := by
    rintro p hp
    cases hp
    exact List.length_replicate

theorem unfragmented_sampleDataFrame {n : ℕ} {hn : n < 2 ^ 16} (h : n ≤ 2310) :
    (sampleDataFrame n hn).Unfragmented 2346 := by
  refine Or.inr fun pkt hp => ?_
  cases hp
  have hlen : ((sampleDataFrame n hn).buf
    ⟨List.replicate n 0, by rwa [List.length_replicate]⟩).mpduLen 2346
      (rtwPutSnap (sampleDataFrame n hn).attrib.etherType) = 2310 := by
    unfold XmitFrameBuf.mpduLen
    rw [length_rtwPutSnap]
    rfl
  rw [hlen]
  change (List.replicate n 0).length ≤ _
  rw [List.length_replicate]
  exact h.trans (by decide)

/-- The lengths of seven packets. -/
def sampleLength : Fin 7 → ℕ
  | 0 => 40
  | 6 => 448
  | _ => 16

theorem sampleLength_lt : ∀ f, sampleLength f < 2 ^ 16 := by decide

/-- Seven frames for the access point, six of which begin in the first packet of the endpoint. -/
def sampleQueue : UsbTx (Fin 256) (Fin 7) where
  cfg := { fragLen := 2346, swEncrypt := false, mpMode := false, usbBulkOutSize := 512, bulk := Or.inl rfl }
  adapter := aggClient
  mem := fun _ => 0
  frame := fun f => sampleDataFrame (sampleLength f) (sampleLength_lt f)
  pending := fun k q => if k = 1 ∧ q = .be then [0, 1, 2, 3, 4, 5, 6] else []
  qcnt := fun k q => if k = 1 ∧ q = .be then 7 else 0
  staQueue := fun q => if q = .be then [1] else []
  accnt := fun q => if q = .be then 7 else 0
  log := []

namespace UsbTx

theorem nextQueue_sampleQueue :
    sampleQueue.NextQueue [.vo, .vi, .be, .bk] 1 .be 0 [1, 2, 3, 4, 5, 6] :=
  ⟨rfl, rfl, rfl, rfl, by decide⟩

theorem sendable_sampleQueue (f : Fin 7) : sampleQueue.Sendable f := by
  have hsta : aggClient.rtwGetStainfo #v[2, 0, 0, 0, 0, 2] = some 1 := by decide +kernel
  refine ⟨⟨?_, Option.some_ne_none _⟩, Option.some_ne_none _, ?_,
    fun _ => by decide, fun h => nomatch h⟩
  · refine @unfragmented_sampleDataFrame _ (sampleLength_lt f) ?_
    revert f
    decide
  · exact (congrArg (· ≠ none) hsta).mpr (Option.some_ne_none _)

theorem overfull_sampleQueue : sampleQueue.Overfull 0 [1, 2, 3, 4, 5, 6] :=
  ⟨by decide, 0, by decide, by decide⟩

/-- Seven descriptors get into the first packet of the endpoint. -/
theorem not_laysOut_sampleQueue :
    ¬∀ (s : UsbTx (Fin 256) (Fin 7)) (inx : List AcQueue) (busy : Bool) (base : ℤ) (k : StaId) (q : AcQueue)
      (first : Fin 7) (rest : List (Fin 7)), s.NextQueue inx k q first rest → (∀ f ∈ first :: rest, s.Sendable f) →
        s.LaysOut inx busy base (first :: rest) := by
  intro hall
  obtain ⟨s', w, hrun, hwrites, hlaid⟩ :=
    hall sampleQueue _ false 0 _ _ _ _ nextQueue_sampleQueue fun f _ => sendable_sampleQueue f
  obtain ⟨-, w', hw⟩ := complete_spec nextQueue_sampleQueue hrun
  obtain rfl : w' = w := by
    simpa using hw.writes_eq.symm.trans hwrites
  exact ((hw.laid_iff fun f _ => sendable_sampleQueue f).mp hlaid).2 overfull_sampleQueue

/-- The seven frames. -/
theorem laysOut_iff_sampleQueue :
    sampleQueue.LaysOut [.vo, .vi, .be, .bk] false 0 [0, 1, 2, 3, 4, 5, 6] ↔
      (sampleQueue.frame 0).attrib.needLength + txdescSize + packetOffsetSz ≤ maxXmitbufSz ∧
        ¬sampleQueue.Overfull 0 [1, 2, 3, 4, 5, 6] :=
  laysOut_iff nextQueue_sampleQueue fun f _ => sendable_sampleQueue f

end UsbTx

end Rtl8188eu
