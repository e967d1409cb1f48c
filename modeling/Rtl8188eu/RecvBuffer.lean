import Rtl8188eu.Wifi
import Mathlib.Logic.Relation

/-!
# The loop over a USB transfer

`recvbuf2recvframe` walks over the packets of a transfer. A packet has a descriptor of 24 bytes in
front, from which the driver takes its length (`updateRecvframeAttrib88e`). The next one starts at a
multiple of 4 or 128 bytes, as the aggregation mode has it. The loop stops where the bytes or the
announced packets are used up, at an error flag, and where there is no memory.

The model keeps a log : where descriptors are read, which bytes of the transfer are taken for
packets, what is copied to new buffers, and which packets are handed on. `Follows` says at which
places rounds of the loop start.
-/

namespace Rtl8188eu

/-! ## Descriptors -/

/-- `_RND4`. -/
def RxTransfer.rnd4 (sz : ℕ) : ℕ := ((sz >>> 2) + if sz &&& 3 ≠ 0 then 1 else 0) <<< 2

/-- `_RND128`. -/
def rnd128 (sz : ℕ) : ℕ := ((sz >>> 7) + if sz &&& 127 ≠ 0 then 1 else 0) <<< 7

/-- `UsbRxAggMode`. -/
inductive UsbRxAggMode
  | disable
  | dma
  | usb
  | mix
  deriving DecidableEq

/-- `pkt_rpt_type`. -/
inductive RptType
  | normalRx
  | txReport1
  | txReport2
  | hisReport
  deriving DecidableEq

/-- `RXDESC_SIZE`. -/
def rxdescSize : ℕ := 24

/-- `TX_RPT1_PKT_LEN`. -/
def txRpt1PktLen : ℕ := 8

/-- The attributes that come from a descriptor. -/
structure RxReport where
  crcErr : Bool
  pktRptType : RptType
  pktLen : ℕ
  drvinfoSz : ℕ := 0
  physt : Bool := false
  bdecrypted : Bool := false
  encrypt : ℕ := 0
  qos : Bool := false
  priority : ℕ := 0
  amsdu : Bool := false
  seqNum : ℕ := 0
  fragNum : ℕ := 0
  mfrag : Bool := false
  mdata : Bool := false
  mcsRate : ℕ := 0
  rxht : Bool := false
  icvErr : Bool := false
  shiftSz : ℕ := 0
  macIdValidEntry : ℕ × ℕ := (0, 0)

/-- A transfer : `pskb->data` and `pskb->len`. The length of a socket buffer is a positive `int`. -/
structure RxTransfer where
  mem : Mem
  data : ℤ
  len : ℕ
  len_lt : len < 2147483648

namespace RxTransfer

/-- The `i`-th word of the descriptor at `p`. -/
def rxdw (t : RxTransfer) (p i : ℕ) : ℕ :=
  t.mem.le16 (t.data + p + 4 * i) + 65536 * t.mem.le16 (t.data + p + 4 * i + 2)

/-- The number of packets that the descriptor at `p` announces. -/
def aggNum (t : RxTransfer) (p : ℕ) : ℕ := (t.rxdw p 2 >>> 16) &&& 0xff

/-- A bit of a word. -/
def bit (dw n : ℕ) : Bool := (dw >>> n) &&& 0x1 ≠ 0

/-- `update_recvframe_attrib_88e`. -/
def updateRecvframeAttrib88e (t : RxTransfer) (p : ℕ) : RxReport :=
  let dw := t.rxdw p
  let crcErr := bit (dw 0) 14
  match (dw 3 >>> 14) &&& 0x3 with
  | 0 =>
    { crcErr := crcErr, pktRptType := .normalRx, pktLen := dw 0 &&& 0x3fff
      drvinfoSz := ((dw 0 >>> 16) &&& 0xf) * 8
      physt := bit (dw 0) 26
      bdecrypted := !bit (dw 0) 27
      encrypt := (dw 0 >>> 20) &&& 0x7
      qos := bit (dw 0) 23
      priority := (dw 1 >>> 8) &&& 0xf
      amsdu := bit (dw 1) 13
      seqNum := dw 2 &&& 0xfff
      fragNum := (dw 2 >>> 12) &&& 0xf
      mfrag := bit (dw 1) 27
      mdata := bit (dw 1) 26
      mcsRate := dw 3 &&& 0x3f
      rxht := bit (dw 3) 6
      icvErr := bit (dw 0) 15
      shiftSz := (dw 0 >>> 24) &&& 0x3 }
  | 1 => { crcErr := crcErr, pktRptType := .txReport1, pktLen := txRpt1PktLen }
  | 2 =>
    { crcErr := crcErr, pktRptType := .txReport2, pktLen := dw 0 &&& 0x3ff
      macIdValidEntry := (dw 4, dw 5) }
  | _ => { crcErr := crcErr, pktRptType := .hisReport, pktLen := dw 0 &&& 0x3fff }

end RxTransfer

namespace RxReport

/-- `pkt_offset`, before it is rounded. -/
def pktOffset (a : RxReport) : ℕ := rxdescSize + a.drvinfoSz + a.shiftSz + a.pktLen

/-- `pkt_offset`, as the loop moves on. -/
def stride (mode : UsbRxAggMode) (a : RxReport) : ℕ :=
  match mode with
  | .dma | .mix => rnd128 a.pktOffset % 65536
  | .usb => RxTransfer.rnd4 a.pktOffset % 65536
  | .disable => a.pktOffset

/-- The first fragment of several. It needs room for the others. -/
def firstFragment (a : RxReport) : Bool := a.mfrag && a.fragNum = 0

/-- `alloc_sz`. -/
def allocSz (a : RxReport) : ℕ :=
  if a.firstFragment then if a.pktLen ≤ 1650 then 1664 else a.pktLen + 14 else a.pktLen + 14

end RxReport

/-! ## The loop -/

/-- The answers of the allocators in a round : `rtw_alloc_recvframe`, `netdev_alloc_skb` with the
address of the new buffer, and `skb_clone`. -/
structure RxAnswer where
  frame : Bool
  skb : Option ℕ
  clone : Bool

/-- A copy of `len` bytes to place `start` of a buffer of `alloc` bytes. -/
structure RxCopy where
  alloc : ℕ
  start : ℕ
  len : ℕ

/-- What the loop has done : the descriptors and the packets it has read, as offsets in the
transfer, the copies, and the packets handed on, each with the offset of its descriptor. -/
structure RxLog where
  descriptors : List ℕ := []
  packets : List (ℕ × ℕ) := []
  copies : List RxCopy := []
  taken : List (ℕ × RptType) := []

def RxLog.append (l l' : RxLog) : RxLog :=
  ⟨l.descriptors ++ l'.descriptors, l.packets ++ l'.packets, l.copies ++ l'.copies, l.taken ++ l'.taken⟩

/-- The variables of the loop. `pbuf` is an offset in the transfer. -/
structure RxState where
  pbuf : ℕ
  transferLen : ℤ
  pktCnt : ℕ

namespace RxTransfer

variable (t : RxTransfer) (mode : UsbRxAggMode)

/-- The end of a round : the packet has been handed on. The number of packets is read again from its
descriptor where there are bytes left but no packets. -/
def nextRound (st : RxState) : Option RxState :=
  let stride := (t.updateRecvframeAttrib88e st.pbuf).stride mode
  let pktCnt := (st.pktCnt + 65535) % 65536
  let transferLen := st.transferLen - stride
  let pktCnt := if transferLen > 0 ∧ pktCnt = 0 then t.aggNum st.pbuf else pktCnt
  if transferLen > 0 ∧ pktCnt > 0 then some ⟨st.pbuf + stride, transferLen, pktCnt⟩ else none

/-- A round of the loop. The second component is `none` where the loop ends. -/
def round (answer : RxAnswer) (st : RxState) : RxLog × Option RxState :=
  if !answer.frame then ({}, none)
  else
    let a := t.updateRecvframeAttrib88e st.pbuf
    let dropped : RxLog := { descriptors := [st.pbuf] }
    if a.crcErr || a.icvErr then (dropped, none)
    else if a.pktLen = 0 ∨ a.pktOffset > u32 st.transferLen then (dropped, none)
    else
      let shiftSz := if a.qos then 6 else 0
      let log : RxLog :=
        { dropped with
          packets := [(st.pbuf + a.drvinfoSz + rxdescSize, a.pktLen)]
          taken := [(st.pbuf, a.pktRptType)] }
      match answer.skb with
      | some data =>
        ({ log with copies := [⟨a.allocSz, 8 - (data &&& 7) + shiftSz, a.pktLen⟩] }, t.nextRound mode st)
      | none =>
        if a.firstFragment then (dropped, none)
        else if answer.clone then (log, t.nextRound mode st)
        else (dropped, none)

/-- The rounds from the `k`-th on, or `none` if the loop is still going after `fuel` rounds. -/
def recvLoop (answer : ℕ → RxAnswer) : ℕ → ℕ → RxState → Option RxLog
  | 0, _, _ => none
  | fuel + 1, k, st =>
    match t.round mode (answer k) st with
    | (log, none) => some log
    | (log, some st) => (recvLoop answer fuel (k + 1) st).map log.append

/-- `recvbuf2recvframe`. The number of packets is read from the first descriptor. -/
def recvbuf2recvframe (answer : ℕ → RxAnswer) : Option RxLog :=
  (t.recvLoop mode answer (t.len + 1) 0 ⟨0, t.len, t.aggNum 0⟩).map
    ({ descriptors := [0] } : RxLog).append

end RxTransfer

/-! ## Lengths -/

theorem RxTransfer.le_rnd4 (sz : ℕ) : sz ≤ rnd4 sz ∧ rnd4 sz < sz + 4 := by
  have hand : sz &&& 3 = sz % 4 := Nat.and_two_pow_sub_one_eq_mod sz 2
  rw [rnd4, Nat.shiftRight_eq_div_pow, Nat.shiftLeft_eq, hand]
  split_ifs <;> omega

theorem le_rnd128 (sz : ℕ) : sz ≤ rnd128 sz ∧ rnd128 sz < sz + 128 := by
  have hand : sz &&& 127 = sz % 128 := Nat.and_two_pow_sub_one_eq_mod sz 7
  rw [rnd128, Nat.shiftRight_eq_div_pow, Nat.shiftLeft_eq, hand]
  split_ifs <;> omega

/-- The fields of a descriptor are small, and so is the offset of the next packet. -/
theorem pktOffset_lt (t : RxTransfer) (p : ℕ) :
    (t.updateRecvframeAttrib88e p).pktOffset < 16640 := by
  have hlen : ∀ x : ℕ, x &&& 0x3fff ≤ 0x3fff := fun _ => Nat.and_le_right
  have hrpt : ∀ x : ℕ, x &&& 0x3ff ≤ 0x3ff := fun _ => Nat.and_le_right
  have hinfo : ∀ x : ℕ, x &&& 0xf ≤ 0xf := fun _ => Nat.and_le_right
  have hshift : ∀ x : ℕ, x &&& 0x3 ≤ 0x3 := fun _ => Nat.and_le_right
  unfold RxTransfer.updateRecvframeAttrib88e
  dsimp only
  split <;> simp only [RxReport.pktOffset, rxdescSize, txRpt1PktLen]
  · have h1 := hlen (t.rxdw p 0)
    have h2 := hinfo (t.rxdw p 0 >>> 16)
    have h3 := hshift (t.rxdw p 0 >>> 24)
    omega
  · omega
  · have h1 := hrpt (t.rxdw p 0)
    omega
  · have h1 := hlen (t.rxdw p 0)
    omega

/-- The offset of the next packet is not truncated. -/
theorem le_stride (t : RxTransfer) (mode : UsbRxAggMode) (p : ℕ) :
    (t.updateRecvframeAttrib88e p).pktOffset ≤ (t.updateRecvframeAttrib88e p).stride mode := by
  have hlt := pktOffset_lt t p
  unfold RxReport.stride
  cases mode with
  | disable => exact le_rfl
  | usb =>
    have h := RxTransfer.le_rnd4 (t.updateRecvframeAttrib88e p).pktOffset
    dsimp only
    omega
  | dma | mix =>
    have h := le_rnd128 (t.updateRecvframeAttrib88e p).pktOffset
    dsimp only
    omega

/-- The new buffer has room for the alignment and the packet. -/
theorem copy_fits (a : RxReport) (data : ℕ) :
    8 - (data &&& 7) + (if a.qos then 6 else 0) + a.pktLen ≤ a.allocSz := by
  unfold RxReport.allocSz
  split_ifs <;> omega

/-! ## Where rounds start -/

/-- Where a round starts : its number, the offset in the transfer, and the number of packets. -/
structure RxPos where
  round : ℕ
  offset : ℕ
  count : ℕ

/-- No error flag is set. -/
def RxReport.Good (a : RxReport) : Prop := a.crcErr = false ∧ a.icvErr = false

/-- There is memory for a packet with this descriptor. -/
def RxAnswer.Serves (answer : RxAnswer) (a : RxReport) : Prop :=
  answer.frame = true ∧ (answer.skb.isSome = true ∨ (a.firstFragment = false ∧ answer.clone = true))

namespace RxTransfer

/-- The packet of the descriptor at `p` lies in the transfer. -/
def Fits (t : RxTransfer) (p : ℕ) : Prop :=
  0 < (t.updateRecvframeAttrib88e p).pktLen ∧ p + (t.updateRecvframeAttrib88e p).pktOffset ≤ t.len

/-- The number of packets behind the packet at `p`. -/
def countBehind (t : RxTransfer) (p count : ℕ) : ℕ :=
  if (count + 65535) % 65536 = 0 then t.aggNum p else (count + 65535) % 65536

/-- The round at `b` follows the round at `a` : the packet at `a` is taken, and there are bytes and
packets left behind it. -/
def Follows (t : RxTransfer) (mode : UsbRxAggMode) (answer : ℕ → RxAnswer) (a b : RxPos) : Prop :=
  let r := t.updateRecvframeAttrib88e a.offset
  r.Good ∧ t.Fits a.offset ∧ (answer a.round).Serves r ∧
    a.offset + r.stride mode < t.len ∧ 0 < t.countBehind a.offset a.count ∧
    b = ⟨a.round + 1, a.offset + r.stride mode, t.countBehind a.offset a.count⟩

variable {t : RxTransfer} {mode : UsbRxAggMode} {answer : ℕ → RxAnswer} {a : RxPos}

/-- The state at the start of a round. -/
def stateAt (t : RxTransfer) (a : RxPos) : RxState := ⟨a.offset, t.len - a.offset, a.count⟩

instance (a : RxReport) : Decidable a.Good := inferInstanceAs (Decidable (_ ∧ _))

instance (answer : RxAnswer) (a : RxReport) : Decidable (answer.Serves a) := inferInstanceAs (Decidable (_ ∧ _))

instance (t : RxTransfer) (p : ℕ) : Decidable (t.Fits p) := inferInstanceAs (Decidable (_ ∧ _))

theorem u32_left {p : ℕ} (h : p ≤ t.len) : u32 ((t.len : ℤ) - p) = t.len - p := by
  have hlen := t.len_lt
  rw [u32]
  omega

/-- The packet of a round is taken. -/
theorem round_of_taken (ha : a.offset ≤ t.len) (hgood : (t.updateRecvframeAttrib88e a.offset).Good)
    (hfits : t.Fits a.offset)
    (hserves : (answer a.round).Serves (t.updateRecvframeAttrib88e a.offset)) :
    ∃ copies, (∀ c ∈ copies, c.start + c.len ≤ c.alloc) ∧
      t.round mode (answer a.round) (t.stateAt a) =
        (⟨[a.offset], [(a.offset + (t.updateRecvframeAttrib88e a.offset).drvinfoSz + rxdescSize,
            (t.updateRecvframeAttrib88e a.offset).pktLen)], copies,
            [(a.offset, (t.updateRecvframeAttrib88e a.offset).pktRptType)]⟩, t.nextRound mode
            (t.stateAt a)) := by
  obtain ⟨hframe, hmem⟩ := hserves
  obtain ⟨hcrc, hicv⟩ := hgood
  obtain ⟨hpos, hend⟩ := hfits
  have hbound : ¬((t.updateRecvframeAttrib88e a.offset).pktLen = 0 ∨
      (t.updateRecvframeAttrib88e a.offset).pktOffset > u32 ((t.len : ℤ) - a.offset)) := by
    rw [u32_left ha]
    omega
  unfold round stateAt
  simp only [hframe, hcrc, hicv, Bool.not_true, Bool.or_self, Bool.false_eq_true, if_false]
  rw [if_neg hbound]
  cases hskb : (answer a.round).skb with
  | some data =>
    refine ⟨_, fun c hc => ?_, rfl⟩
    obtain rfl := List.mem_singleton.mp hc
    exact copy_fits _ data
  | none =>
    rw [hskb] at hmem
    obtain ⟨hfirst, hclone⟩ := hmem.resolve_left (by simp)
    simp only [hfirst, hclone, Bool.false_eq_true, if_false, if_true]
    exact ⟨[], by simp, rfl⟩

/-- The packet of a round is not taken. This is the last round. -/
theorem round_of_not_taken (ha : a.offset ≤ t.len)
    (h : ¬((t.updateRecvframeAttrib88e a.offset).Good ∧
    t.Fits a.offset ∧ (answer a.round).Serves (t.updateRecvframeAttrib88e a.offset))) :
    t.round mode (answer a.round) (t.stateAt a) =
      ({ descriptors := if (answer a.round).frame then [a.offset] else [] }, none) := by
  unfold round stateAt
  cases hframe : (answer a.round).frame with
  | false => rfl
  | true =>
    simp only [Bool.not_true, Bool.false_eq_true, if_false, if_true]
    by_cases herr : ((t.updateRecvframeAttrib88e a.offset).crcErr ||
        (t.updateRecvframeAttrib88e a.offset).icvErr) = true
    · rw [if_pos herr]
    · rw [if_neg herr]
      by_cases hbound : (t.updateRecvframeAttrib88e a.offset).pktLen = 0 ∨
          (t.updateRecvframeAttrib88e a.offset).pktOffset > u32 ((t.len : ℤ) - a.offset)
      · rw [if_pos hbound]
      · rw [if_neg hbound]
        have hgood : (t.updateRecvframeAttrib88e a.offset).Good := by
          simpa [RxReport.Good] using herr
        have hfits : t.Fits a.offset := by
          rw [u32_left ha] at hbound
          exact ⟨by omega, by omega⟩
        have hserves := fun hs => h ⟨hgood, hfits, hs⟩
        cases hskb : (answer a.round).skb with
        | some data => exact absurd ⟨hframe, Or.inl (by rw [hskb]; rfl)⟩ hserves
        | none =>
          dsimp only
          split_ifs with hfirst hclone
          · rfl
          · exact absurd ⟨hframe, Or.inr ⟨by simpa using hfirst, hclone⟩⟩ hserves
          · rfl

/-- The next round, if there is one, starts where `Follows` says. -/
theorem nextRound_eq (hgood : (t.updateRecvframeAttrib88e a.offset).Good)
    (hfits : t.Fits a.offset)
    (hserves : (answer a.round).Serves (t.updateRecvframeAttrib88e a.offset)) :
    (t.nextRound mode (t.stateAt a) = none ∧ ∀ b, ¬t.Follows mode answer a b) ∨
      ∃ b, t.nextRound mode (t.stateAt a) = some (t.stateAt b) ∧ ∀ c, t.Follows mode answer a c ↔
        c = b := by
  obtain ⟨stride, hstride⟩ : ∃ n, (t.updateRecvframeAttrib88e a.offset).stride mode = n := ⟨_, rfl⟩
  unfold nextRound stateAt
  dsimp only
  rw [hstride]
  by_cases hleft : a.offset + stride < t.len
  · have hpos : (t.len : ℤ) - a.offset - stride > 0 := by omega
    have hcount : (if (t.len : ℤ) - a.offset - stride > 0 ∧
      (a.count + 65535) % 65536 = 0 then t.aggNum a.offset
        else (a.count + 65535) % 65536) = t.countBehind a.offset a.count := by
      rw [countBehind]
      exact if_congr (and_iff_right hpos) rfl rfl
    rw [hcount]
    by_cases hgo : 0 < t.countBehind a.offset a.count
    · refine Or.inr ⟨⟨a.round + 1, a.offset + stride, t.countBehind a.offset a.count⟩, ?_,
        fun c => ?_⟩
      · rw [if_pos ⟨hpos, hgo⟩, Nat.cast_add, ← sub_sub]
      · constructor
        · rintro ⟨-, -, -, -, -, rfl⟩
          rw [hstride]
        · rintro rfl
          exact ⟨hgood, hfits, hserves, hstride ▸ hleft, hgo, by rw [hstride]⟩
    · refine Or.inl ⟨if_neg fun h => hgo h.2, fun b h => hgo h.2.2.2.2.1⟩
  · refine Or.inl ⟨if_neg fun h => ?_, fun b h => hleft (hstride ▸ h.2.2.2.1)⟩
    have hpos := h.1
    omega

/-- The loop ends. All packets lie in the transfer, and the copies in their buffers. A descriptor is
read in each round that gets a frame. -/
theorem recvLoop_spec (t : RxTransfer) (mode : UsbRxAggMode) (answer : ℕ → RxAnswer) :
    ∀ (fuel : ℕ) (a : RxPos), a.offset ≤ t.len → t.len - a.offset < fuel →
      ∃ log, t.recvLoop mode answer fuel a.round (t.stateAt a) = some log ∧
        ((∀ d ∈ log.descriptors, d + rxdescSize ≤ t.len) ↔
          ∀ b, Relation.ReflTransGen (t.Follows mode answer) a b → (answer b.round).frame = true →
            b.offset + rxdescSize ≤ t.len) ∧
        (∀ x ∈ log.packets, x.1 + x.2 ≤ t.len) ∧ ∀ c ∈ log.copies, c.start + c.len ≤ c.alloc
  | 0, _, _, h => by omega
  | fuel + 1, a, ha, hfuel => by
    rw [recvLoop]
    by_cases htaken : (t.updateRecvframeAttrib88e a.offset).Good ∧ t.Fits a.offset ∧
        (answer a.round).Serves (t.updateRecvframeAttrib88e a.offset)
    · obtain ⟨hgood, hfits, hserves⟩ := htaken
      obtain ⟨copies, hcopies, hround⟩ := @round_of_taken t mode answer a ha hgood hfits hserves
      have hin : a.offset + (t.updateRecvframeAttrib88e a.offset).drvinfoSz + rxdescSize +
          (t.updateRecvframeAttrib88e a.offset).pktLen ≤ t.len := by
        have hend := hfits.2
        rw [RxReport.pktOffset] at hend
        omega
      have hdesc : a.offset + rxdescSize ≤ t.len := by omega
      rw [hround]
      rcases @nextRound_eq t mode answer a hgood hfits hserves with ⟨hnone, hlast⟩ | ⟨b, hb, honly⟩
      · rw [hnone]
        refine ⟨_, rfl, ⟨fun _ b hb _ => ?_, fun _ d hd => ?_⟩, fun x hx => ?_, hcopies⟩
        · rcases hb.cases_head with rfl | ⟨c, hc, -⟩
          · exact hdesc
          · exact absurd hc (hlast c)
        · obtain rfl := List.mem_singleton.mp hd
          exact hdesc
        · obtain rfl := List.mem_singleton.mp hx
          exact hin
      · have hab := (honly b).mpr rfl
        have hstep : a.offset < b.offset ∧ b.offset < t.len ∧ b.round = a.round + 1 := by
          obtain ⟨-, -, -, hlt, -, rfl⟩ := hab
          have hle := le_stride t mode a.offset
          have hpos := hfits.1
          rw [RxReport.pktOffset] at hle
          exact ⟨by dsimp only; omega, hlt, rfl⟩
        obtain ⟨log, hlog, hdescs, hpackets, hcopies'⟩ :=
          recvLoop_spec t mode answer fuel b (by omega) (by omega)
        rw [hb]
        dsimp only
        rw [← hstep.2.2, hlog]
        refine ⟨_, rfl, ⟨fun h c hc hframe => ?_, fun h d hd => ?_⟩, fun x hx => ?_, fun c hc => ?_⟩
        · rcases hc.cases_head with rfl | ⟨b', hab', hc⟩
          · exact hdesc
          · obtain rfl := (honly b').mp hab'
            exact hdescs.mp (fun d hd => h d (List.mem_append_right _ hd)) c hc hframe
        · rcases List.mem_append.mp hd with hd | hd
          · obtain rfl := List.mem_singleton.mp hd
            exact hdesc
          · exact hdescs.mpr (fun c hc => h c (hc.head hab)) d hd
        · rcases List.mem_append.mp hx with hx | hx
          · obtain rfl := List.mem_singleton.mp hx
            exact hin
          · exact hpackets x hx
        · exact (List.mem_append.mp hc).elim (hcopies c) (hcopies' c)
    · rw [round_of_not_taken ha htaken]
      have hlast : ∀ b, ¬t.Follows mode answer a b := fun b hb => htaken ⟨hb.1, hb.2.1, hb.2.2.1⟩
      refine ⟨_, rfl, ⟨fun h b hb hframe => ?_, fun h d hd => ?_⟩, by simp, by simp⟩
      · rcases hb.cases_head with rfl | ⟨c, hc, -⟩
        · exact h _ (by simp [hframe])
        · exact absurd hc (hlast c)
      · cases hframe : (answer a.round).frame with
        | false => simp [hframe] at hd
        | true =>
          obtain rfl : d = a.offset := by simpa [hframe] using hd
          exact h a .refl hframe

/-! ## Aggregates -/

/-- Packets one behind the other, from `p` on, up to the end of the transfer. The list has the
offsets of their descriptors. -/
inductive IsAggregate (t : RxTransfer) (mode : UsbRxAggMode) : ℕ → List ℕ → Prop
  | last {p : ℕ} : t.Fits p → t.len ≤ p + (t.updateRecvframeAttrib88e p).stride mode → IsAggregate t mode p [p]
  | cons {p : ℕ} {ps : List ℕ} : t.Fits p →
      IsAggregate t mode (p + (t.updateRecvframeAttrib88e p).stride mode) ps → IsAggregate t mode p (p :: ps)

/-- The packets that are taken of these, from the `k`-th round on : those before the first one with
an error flag, or without memory. -/
def takenFrom (t : RxTransfer) (answer : ℕ → RxAnswer) : ℕ → List ℕ → List ℕ
  | _, [] => []
  | k, p :: ps =>
    if (t.updateRecvframeAttrib88e p).Good ∧ (answer k).Serves (t.updateRecvframeAttrib88e p) then
      p :: takenFrom t answer (k + 1) ps
    else []

theorem IsAggregate.head {p : ℕ} {ps : List ℕ} (h : t.IsAggregate mode p ps) :
    t.Fits p ∧ 0 < ps.length := by
  cases h with
  | last hfits _ => exact ⟨hfits, by simp⟩
  | cons hfits _ => exact ⟨hfits, by simp⟩

/-- The packet of a round is taken, or this is the last round. -/
theorem recvLoop_succ (fuel k p count : ℕ) {log : RxLog} (hfits : t.Fits p)
    (hlog : t.recvLoop mode answer (fuel + 1) k (t.stateAt ⟨k, p, count⟩) = some log) :
    if (t.updateRecvframeAttrib88e p).Good ∧ (answer k).Serves (t.updateRecvframeAttrib88e p) then
      (∃ a, t.Follows mode answer ⟨k, p, count⟩ a ∧ ∃ log', t.recvLoop mode answer fuel (k + 1)
      (t.stateAt a)
        = some log' ∧ log.taken.map Prod.fst = p :: log'.taken.map Prod.fst) ∨
      (∀ a, ¬t.Follows mode answer ⟨k, p, count⟩ a) ∧ log.taken.map Prod.fst = [p]
    else log.taken.map Prod.fst = [] := by
  have ha : p ≤ t.len := by
    have hend := hfits.2
    omega
  rw [recvLoop] at hlog
  split_ifs with htaken
  · obtain ⟨copies, -, hround⟩ :=
      @round_of_taken t mode answer ⟨k, p, count⟩ ha htaken.1 hfits htaken.2
    dsimp only at hround
    rw [hround] at hlog
    rcases @nextRound_eq t mode answer ⟨k, p, count⟩ htaken.1 hfits htaken.2 with
      ⟨hnone, hlast⟩ | ⟨b, hb, honly⟩
    · rw [hnone] at hlog
      cases hlog
      exact Or.inr ⟨hlast, rfl⟩
    · rw [hb] at hlog
      obtain ⟨log', hlog', rfl⟩ := Option.map_eq_some_iff.mp hlog
      exact Or.inl ⟨b, (honly b).mpr rfl, log', hlog', rfl⟩
  · have hnot := @round_of_not_taken t mode answer ⟨k, p, count⟩ ha
      fun h => htaken ⟨h.1, h.2.2⟩
    dsimp only at hnot
    rw [hnot] at hlog
    cases hlog
    rfl

/-- With as many packets announced as there are, the loop takes these. -/
theorem taken_of_isAggregate {p : ℕ} {ps : List ℕ} (h : t.IsAggregate mode p ps) :
    ∀ (fuel k : ℕ) {log : RxLog}, ps.length < 65536 →
      t.recvLoop mode answer fuel k (t.stateAt ⟨k, p, ps.length⟩) = some log →
      log.taken.map Prod.fst = takenFrom t answer k ps := by
  induction h with
  | @last p hfits hend =>
    intro fuel k log _ hlog
    cases fuel with
    | zero => simp [recvLoop] at hlog
    | succ fuel =>
      have hsucc := recvLoop_succ fuel k p 1 hfits hlog
      rw [takenFrom]
      split_ifs at hsucc ⊢
      · rcases hsucc with ⟨a, hfollows, -⟩ | ⟨-, htaken⟩
        · have hlt := hfollows.2.2.2.1
          dsimp only at hlt
          omega
        · exact htaken
      · exact hsucc
  | @cons p ps hfits hrest ih =>
    intro fuel k log hlen hlog
    rw [List.length_cons] at hlen hlog
    cases fuel with
    | zero => simp [recvLoop] at hlog
    | succ fuel =>
      have hsucc := recvLoop_succ fuel k p (ps.length + 1) hfits hlog
      obtain ⟨hnext, hpos⟩ := hrest.head
      have hcount : t.countBehind p (ps.length + 1) = ps.length := by
        rw [countBehind, if_neg (by omega)]
        omega
      have hleft : p + (t.updateRecvframeAttrib88e p).stride mode < t.len := by
        have hend := hnext.2
        rw [RxReport.pktOffset, rxdescSize] at hend
        omega
      rw [takenFrom]
      split_ifs at hsucc ⊢ with htaken
      · rcases hsucc with ⟨a, ⟨-, -, -, -, -, rfl⟩, log', hlog', htaken'⟩ | ⟨hlast, -⟩
        · rw [hcount] at hlog'
          rw [htaken', ih fuel (k + 1) (by omega) hlog']
        · refine absurd ⟨htaken.1, hfits, htaken.2, hleft, ?_, rfl⟩ (hlast _)
          rw [hcount]
          exact hpos
      · exact hsucc

/-! ## All transfers -/

/-- The packets announced in the first descriptor are those of an aggregate. -/
def WellFormed (t : RxTransfer) (mode : UsbRxAggMode) (ps : List ℕ) : Prop :=
  t.IsAggregate mode 0 ps ∧ t.aggNum 0 = ps.length

/-- The packets without an error flag, in order. -/
def goodOnes (t : RxTransfer) (ps : List ℕ) : List ℕ := ps.filter fun p => (t.updateRecvframeAttrib88e p).Good

/-- The loop ends. The descriptors and the packets lie in the transfer, the copies in their buffers.
Of a well-formed aggregate each packet without an error flag is taken once, in order. -/
def Handled (t : RxTransfer) (mode : UsbRxAggMode) (answer : ℕ → RxAnswer) : Prop :=
  ∃ log, t.recvbuf2recvframe mode answer = some log ∧
    (∀ d ∈ log.descriptors, d + rxdescSize ≤ t.len) ∧ (∀ x ∈ log.packets, x.1 + x.2 ≤ t.len) ∧
    (∀ c ∈ log.copies, c.start + c.len ≤ c.alloc) ∧
    ∀ ps, t.WellFormed mode ps → log.taken.map Prod.fst = t.goodOnes ps

/-- Each round that gets a frame has the bytes of a descriptor, and so has the first one. -/
def DescriptorsFit (t : RxTransfer) (mode : UsbRxAggMode) (answer : ℕ → RxAnswer) : Prop :=
  rxdescSize ≤ t.len ∧ ∀ a, Relation.ReflTransGen (t.Follows mode answer) ⟨0, 0, t.aggNum 0⟩ a →
    (answer a.round).frame = true → a.offset + rxdescSize ≤ t.len

/-- There is memory for the packets up to the last one without an error flag, and none of them has
one. -/
def ServedUpToLast (t : RxTransfer) (answer : ℕ → RxAnswer) (ps : List ℕ) : Prop :=
  ∀ (i p : ℕ), ps[i]? = some p → (t.updateRecvframeAttrib88e p).Good → ∀ (j q : ℕ), j ≤ i → ps[j]? = some q →
    (t.updateRecvframeAttrib88e q).Good ∧ (answer j).Serves (t.updateRecvframeAttrib88e q)

theorem servedUpToLast_cons {answer : ℕ → RxAnswer} {p : ℕ} {ps : List ℕ}
    (hp : (t.updateRecvframeAttrib88e p).Good ∧ (answer 0).Serves (t.updateRecvframeAttrib88e p)) :
    t.ServedUpToLast answer (p :: ps) ↔ t.ServedUpToLast (fun i => answer (i + 1)) ps := by
  constructor
  · exact fun h i q hq hgood j r hj hr => h (i + 1) q hq hgood (j + 1) r (by omega) hr
  · intro h i q hq hgood j r hj hr
    cases j with
    | zero =>
      cases hr
      exact hp
    | succ j =>
      cases i with
      | zero => omega
      | succ i => exact h i q hq hgood j r (by omega) hr

theorem takenFrom_eq_goodOnes (t : RxTransfer) (answer : ℕ → RxAnswer) : ∀ (ps : List ℕ) (k : ℕ),
    takenFrom t answer k ps = t.goodOnes ps ↔ t.ServedUpToLast (fun i => answer (k + i)) ps
  | [], k => by simp [takenFrom, goodOnes, ServedUpToLast]
  | p :: ps, k => by
    rw [takenFrom]
    split_ifs with hp
    · have hgood : t.goodOnes (p :: ps) = p :: t.goodOnes ps :=
        List.filter_cons_of_pos (by simpa using hp.1)
      have hshift : (fun i => answer (k + (i + 1))) = fun i => answer (k + 1 + i) := by
        ext i
        rw [Nat.add_right_comm, Nat.add_assoc]
      rw [hgood, List.cons_inj_right, takenFrom_eq_goodOnes t answer ps (k + 1),
        servedUpToLast_cons hp, hshift]
    · constructor
      · intro hnone i q hq hgood
        have hmem : q ∈ t.goodOnes (p :: ps) :=
          List.mem_filter.mpr ⟨List.mem_of_getElem? hq, by simpa using hgood⟩
        rw [← hnone] at hmem
        exact absurd hmem List.not_mem_nil
      · intro h
        refine (List.filter_eq_nil_iff.mpr fun q hq => ?_).symm
        obtain ⟨i, hi⟩ := List.mem_iff_getElem?.mp hq
        intro hgood
        exact hp (h i q hi (by simpa using hgood) 0 p (by omega) rfl)

/-- Exactly when the descriptors fit, and in a well-formed aggregate no packet without an error flag
has one with an error flag, or one without memory, before it. -/
theorem handled_iff (t : RxTransfer) (mode : UsbRxAggMode) (answer : ℕ → RxAnswer) :
    t.Handled mode answer ↔ t.DescriptorsFit mode answer ∧
      ∀ ps, t.WellFormed mode ps → t.ServedUpToLast answer ps := by
  obtain ⟨log, hlog, hdescs, hpackets, hcopies⟩ :=
    recvLoop_spec t mode answer (t.len + 1) ⟨0, 0, t.aggNum 0⟩
    (Nat.zero_le _) (by dsimp only; omega)
  have hrun : t.recvbuf2recvframe mode answer =
    some (({ descriptors := [0] } : RxLog).append log) := by
    rw [recvbuf2recvframe]
    have hstart : t.stateAt ⟨0, 0, t.aggNum 0⟩ = ⟨0, t.len, t.aggNum 0⟩ := by
      rw [stateAt, Nat.cast_zero, sub_zero]
    rw [← hstart, hlog]
    rfl
  have hdesc : (∀ d ∈ ({ descriptors := [0] } : RxLog).append log |>.descriptors,
    d + rxdescSize ≤ t.len) ↔
      t.DescriptorsFit mode answer := by
    rw [DescriptorsFit, ← hdescs]
    simp [RxLog.append]
  have htaken : ∀ ps, t.WellFormed mode ps →
      (log.taken.map Prod.fst = t.goodOnes ps ↔ t.ServedUpToLast answer ps) := by
    rintro ps ⟨hagg, hnum⟩
    have hlt : t.aggNum 0 ≤ 255 := Nat.and_le_right
    rw [hnum] at hlog
    rw [taken_of_isAggregate hagg (t.len + 1) 0 (by omega) hlog, takenFrom_eq_goodOnes]
    simp only [Nat.zero_add]
  constructor
  · rintro ⟨log', hlog', hd, -, -, ht⟩
    obtain rfl := Option.some.inj (hlog'.symm.trans hrun)
    exact ⟨hdesc.mp hd, fun ps hps => (htaken ps hps).mp (ht ps hps)⟩
  · rintro ⟨hd, hserved⟩
    exact ⟨_, hrun, hdesc.mpr hd, hpackets, hcopies,
      fun ps hps => (htaken ps hps).mpr (hserved ps hps)⟩

/-- A transfer with one packet of 20 bytes, and four bytes behind it. -/
def sampleTrailing : RxTransfer where
  mem := Mem.write (fun _ => 0) 0 [20, 0, 0, 0, 0, 0, 0, 0, 0, 0, 1, 0]
  data := 0
  len := 48
  len_lt := by decide

/-- The four bytes are read as a descriptor. -/
theorem not_handled_sampleTrailing :
    ¬sampleTrailing.Handled .usb fun _ => { frame := true, skb := some 0, clone := false } := by
  rintro ⟨log, hlog, hdescs, -⟩
  have hread : ((sampleTrailing.recvbuf2recvframe .usb
    fun _ => { frame := true, skb := some 0, clone := false }).map
      RxLog.descriptors) = some [0, 0, 44] := by decide +kernel
  rw [hlog] at hread
  have hmem := hdescs 44 (by rw [Option.some.inj hread]; simp)
  exact absurd hmem (by decide)

end RxTransfer

end Rtl8188eu
