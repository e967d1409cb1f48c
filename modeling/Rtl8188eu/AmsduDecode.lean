import Rtl8188eu.RecvIndicate

/-!
# Decoding of A-MSDUs

An A-MSDU is a list of subframes : two addresses, the length of the body, and the body. All but the
last one are padded to a multiple of four bytes (`IsAmsdu`). `amsdu_to_msdu` walks over the bytes
with what is left of the frame, copies each body to a packet of its own, and then turns the SNAP
header of each packet into an Ethernet header.

`amsduToMsdu_delivers` : for a well-formed A-MSDU, with its ICV behind it, the packets are those of
the subframes, in order, as far as there is memory for them. The decoding stops at the first
subframe that gets no packet.
-/

set_option linter.unusedSectionVars false

namespace Rtl8188eu

/-! ## Well-formed A-MSDUs -/

/-- A subframe. The length of the body has 16 bits. -/
structure Subframe where
  da : MacAddr
  sa : MacAddr
  body : List UInt8
  le_length : 8 ≤ body.length
  length_lt : body.length < 65536

namespace Subframe

/-- The subframe without padding. -/
def bytes (x : Subframe) : List UInt8 := x.da.toList ++ x.sa.toList ++ be16Bytes x.body.length ++ x.body

theorem length_bytes (x : Subframe) : x.bytes.length = 14 + x.body.length := by
  simp only [bytes, be16Bytes, List.length_append, Vector.length_toList, List.length_cons,
    List.length_nil]

/-- The padding behind a subframe. -/
def padLen (x : Subframe) : ℕ := (4 - x.bytes.length % 4) % 4

/-- What a packet has behind its addresses : the body, with a SNAP header replaced by its type, or
behind its length. -/
def payload (x : Subframe) : List UInt8 :=
  let snap := x.body.take 6
  let type := (x.body.drop 6).take 2
  if (snap = rfc1042Header ∧ type ≠ snapEthTypeAarp ∧ type ≠ snapEthTypeIpx) ∨ snap = bridgeTunnelHeader then
    type ++ x.body.drop 8
  else be16Bytes x.body.length ++ x.body

end Subframe

/-- The bytes of an A-MSDU with these subframes. The padding may be anything. -/
inductive IsAmsdu : List Subframe → List UInt8 → Prop where
  | last (x : Subframe) : IsAmsdu [x] x.bytes
  | cons (x : Subframe) (padding : List UInt8) {xs : List Subframe} {bs : List UInt8} :
      padding.length = x.padLen → IsAmsdu xs bs → IsAmsdu (x :: xs) (x.bytes ++ (padding ++ bs))

theorem IsAmsdu.length_pos {xs : List Subframe} {bs : List UInt8} (h : IsAmsdu xs bs) :
    0 < xs.length ∧ 14 < bs.length := by
  cases h with
  | last x =>
    have hle := x.le_length
    rw [x.length_bytes]
    exact ⟨by simp, by omega⟩
  | cons x padding hpad hrest =>
    have hle := x.le_length
    rw [List.length_append, x.length_bytes]
    exact ⟨by simp, by omega⟩

theorem IsAmsdu.length_lt {xs : List Subframe} {bs : List UInt8} (h : IsAmsdu xs bs) :
    xs.length < bs.length := by
  induction h with
  | last x =>
    rw [x.length_bytes, List.length_singleton]
    omega
  | cons x padding hpad hrest ih =>
    rw [List.length_cons, List.length_append, List.length_append, x.length_bytes]
    omega

/-- The Ethernet frame of a body has the payload of its subframe. -/
theorem msduToEth_body (dst src : MacAddr) (x : Subframe) :
    msduToEth dst src x.body = dst.toList ++ src.toList ++ x.payload := by
  have hsplit : (x.body.drop 6).take 2 ++ x.body.drop 8 = x.body.drop 6 := by
    have h := List.take_append_drop 2 (x.body.drop 6)
    rw [List.drop_drop] at h
    exact h
  have hge : x.body.length ≥ 8 := x.le_length
  have hsnap : isSnapHdr (x.body.take 6) ((x.body.drop 6).take 2) = true ↔
      (x.body.take 6 = rfc1042Header ∧ (x.body.drop 6).take 2 ≠ snapEthTypeAarp ∧
        (x.body.drop 6).take 2 ≠ snapEthTypeIpx) ∨ x.body.take 6 = bridgeTunnelHeader := by
    rw [isSnapHdr, decide_eq_true_eq, and_comm (a := (x.body.drop 6).take 2 ≠ snapEthTypeIpx)]
  rw [msduToEth, Subframe.payload]
  by_cases h : isSnapHdr (x.body.take 6) ((x.body.drop 6).take 2) = true
  · rw [if_pos ⟨hge, h⟩, if_pos (hsnap.1 h), hsplit]
  · rw [if_neg fun hboth => h hboth.2, if_neg fun hcond => h (hsnap.2 hcond),
      List.append_assoc _ (be16Bytes _)]

/-! ## The walk over the subframes -/

/-- The requests of the first `n` that are granted before one is refused. -/
def granted (avail : ℕ → Bool) : ℕ → ℕ
  | 0 => 0
  | n + 1 => if avail 0 then granted (fun i => avail (i + 1)) n + 1 else 0

theorem granted_of_all : ∀ (n : ℕ) (avail : ℕ → Bool), (∀ i < n, avail i = true) →
    granted avail n = n
  | 0, _, _ => rfl
  | n + 1, avail, h => by
    rw [granted, if_pos (h 0 (by omega)), granted_of_all n _ fun i hi => h (i + 1) (by omega)]

/-- What is left behind the last subframe is too short for another one. -/
theorem amsduSubframes_short (mem : Mem) (p : ℤ) {aLen : ℕ} (h : aLen ≤ 14) (nr : ℕ)
    (avail : ℕ → Bool) :
    ∀ fuel, (amsduSubframes mem fuel p aLen nr avail).1 = some []
  | 0 => rfl
  | fuel + 1 => by
    rw [amsduSubframes, if_neg (by omega)]

/-- The fields of a subframe in memory. -/
theorem holds_subframe {mem : Mem} {p : ℤ} {x : Subframe} (h : mem.Holds p x.bytes) :
    mem.be16 (p + 12) = x.body.length ∧ mem.read (p + 14) x.body.length = x.body := by
  rw [Subframe.bytes, Mem.holds_append, Mem.holds_append] at h
  obtain ⟨⟨-, hlen⟩, hbody⟩ := h
  simp only [List.length_append, Vector.length_toList, be16Bytes, List.length_cons,
    List.length_nil] at hlen hbody
  exact ⟨Mem.be16_of_holds x.length_lt (by rwa [List.append_nil]), hbody⟩

theorem padLen_eq (x : Subframe) :
    (if 4 - ((x.body.length + 14) &&& 3) = 4 then 0 else 4 - ((x.body.length + 14) &&& 3)) =
    x.padLen := by
  have hand : (x.body.length + 14) &&& 3 = (x.body.length + 14) % 4 :=
    Nat.and_two_pow_sub_one_eq_mod _ 2
  rw [hand, Subframe.padLen, x.length_bytes]
  split_ifs <;> omega

/-- One round of the walk over a subframe, with `rest` bytes behind it. -/
theorem amsduSubframes_succ {mem : Mem} {p : ℤ} {x : Subframe} (h : mem.Holds p x.bytes)
    (fuel rest nr : ℕ)
    (avail : ℕ → Bool) (hrest : rest = 0 ∨ x.padLen ≤ rest) :
    (amsduSubframes mem (fuel + 1) p (x.bytes.length + rest) nr avail).1
      = if avail 0 then
          if nr + 1 ≥ maxSubframeCount then some [x.body]
          else
            (amsduSubframes mem fuel (p + x.bytes.length + if rest ≠ 0 then x.padLen else 0)
              (rest - if rest ≠ 0 then x.padLen else 0) (nr + 1) fun n => avail (n + 1)).1.map
              (x.body :: ·)
        else some [] := by
  obtain ⟨hlen, hbody⟩ := holds_subframe h
  have hbytes := x.length_bytes
  have hle := x.le_length
  have hgt : x.bytes.length + rest > 14 := by omega
  have hfits : ¬x.bytes.length + rest < 14 + x.body.length := by omega
  have hleft : x.bytes.length + rest - 14 - x.body.length = rest := by omega
  have hnext : p + 14 + x.body.length = p + x.bytes.length := by omega
  have hpad : ¬(rest ≠ 0 ∧ rest < x.padLen) := by omega
  rw [amsduSubframes, if_pos hgt]
  simp only [hlen, hbody, if_neg hfits, hleft, hnext, padLen_eq, if_neg hpad]
  split_ifs <;> rfl

/-- The walk over a well-formed A-MSDU with `icv` behind it gives the bodies, up to the limit. -/
theorem amsduSubframes_of_isAmsdu {mem : Mem} {icv : List UInt8}
    (hicv : icv.length = 0 ∨ (3 ≤ icv.length ∧ icv.length ≤ 14)) {xs : List Subframe}
    {bs : List UInt8}
    (h : IsAmsdu xs bs) : ∀ (p : ℤ) (nr fuel : ℕ) (avail : ℕ → Bool), mem.Holds p (bs ++ icv) →
      nr < maxSubframeCount → xs.length < fuel →
      (amsduSubframes mem fuel p (bs ++ icv).length nr avail).1
        = some ((xs.map Subframe.body).take
          (granted avail (min xs.length (maxSubframeCount - nr)))) := by
  induction h with
  | last x =>
    intro p nr fuel avail hmem hnr hfuel
    obtain ⟨fuel, rfl⟩ : ∃ k, fuel = k + 1 := ⟨fuel - 1, by omega⟩
    have hpad : x.padLen ≤ 3 := by
      rw [Subframe.padLen]
      omega
    have hmin : min [x].length (maxSubframeCount - nr) = 0 + 1 := by
      rw [List.length_singleton]
      omega
    rw [List.length_append, amsduSubframes_succ (Mem.holds_append.1 hmem).1 fuel _ nr avail
      (by omega),
      amsduSubframes_short mem _ (by split_ifs <;> omega), hmin]
    cases ha : avail 0 <;> simp [granted, ha]
  | @cons x padding xs bs hpad hrest ih =>
    intro p nr fuel avail hmem hnr hfuel
    obtain ⟨fuel, rfl⟩ : ∃ k, fuel = k + 1 := ⟨fuel - 1, by omega⟩
    obtain ⟨hpos, hlen⟩ := hrest.length_pos
    rw [List.length_cons] at hfuel
    rw [List.append_assoc, Mem.holds_append] at hmem
    obtain ⟨hx, htail⟩ := hmem
    rw [List.append_assoc, Mem.holds_append] at htail
    have hall : (x.bytes ++ (padding ++ bs) ++ icv).length =
      x.bytes.length + (x.padLen + (bs ++ icv).length) := by
      simp only [List.length_append, hpad]
      omega
    have hne : x.padLen + (bs ++ icv).length ≠ 0 := by
      rw [List.length_append]
      omega
    rw [hall, amsduSubframes_succ hx fuel _ nr avail (by omega), if_pos hne,
      Nat.add_sub_cancel_left]
    by_cases hroom : nr + 1 ≥ maxSubframeCount
    · -- the limit is reached with this subframe
      have hmin : min (x :: xs).length (maxSubframeCount - nr) = 0 + 1 := by
        rw [List.length_cons]
        omega
      rw [if_pos hroom, hmin]
      cases ha : avail 0 <;> simp [granted, ha]
    · have hmin : min (x :: xs).length (maxSubframeCount - nr)
          = min xs.length (maxSubframeCount - (nr + 1)) + 1 := by
        rw [List.length_cons]
        omega
      have hnext := ih (p + x.bytes.length + padding.length) (nr + 1) fuel
        (fun n => avail (n + 1)) htail.2
        (by omega) (by omega)
      rw [← hpad, hnext, if_neg hroom, hmin]
      cases ha : avail 0 <;> simp [granted, ha]

/-! ## Delivery -/

/-- A frame with an A-MSDU behind the header and the IV, and the bytes `icv` behind it. -/
structure RecvFrame.Carries (fr : RecvFrame) (xs : List Subframe) (bs icv : List UInt8) : Prop where
  amsdu : IsAmsdu xs bs
  mem : fr.mem.Holds (fr.rxData + fr.attrib.hdrlen + fr.attrib.ivLen) (bs ++ icv)
  len : fr.len = fr.attrib.hdrlen + fr.attrib.ivLen + (bs ++ icv).length
  len_lt : fr.len < 4294967296
  tail : fr.rxTail = fr.rxData + fr.len

/-- Taking off the header and the IV leaves the A-MSDU. -/
theorem RecvFrame.Carries.amsduPull {fr : RecvFrame} {xs : List Subframe} {bs icv : List UInt8}
    (h : fr.Carries xs bs icv) : (Adapter.amsduPull fr).mem = fr.mem ∧
      (Adapter.amsduPull fr).rxData = fr.rxData + fr.attrib.hdrlen + fr.attrib.ivLen ∧
        (Adapter.amsduPull fr).len = (bs ++ icv).length := by
  obtain ⟨-, -, hlen, hlt, htail⟩ := h
  have hhdr : fr.recvframePull fr.attrib.hdrlen
      = some { fr with rxData := fr.rxData + fr.attrib.hdrlen, len := fr.len - fr.attrib.hdrlen } := by
    have hu : u32 ((fr.len : ℤ) - fr.attrib.hdrlen) = fr.len - fr.attrib.hdrlen := by
      rw [u32]
      omega
    rw [RecvFrame.recvframePull, if_neg (by omega), hu]
  unfold Adapter.amsduPull
  simp only [hhdr, Option.getD_some]
  split_ifs with hiv
  · have hu : u32 (((fr.len - fr.attrib.hdrlen : ℕ) : ℤ) - fr.attrib.ivLen) =
      (bs ++ icv).length := by
      rw [u32]
      omega
    rw [RecvFrame.recvframePull, if_neg (by dsimp only; omega)]
    exact ⟨rfl, rfl, hu⟩
  · exact ⟨rfl, by dsimp only; omega, by dsimp only; omega⟩

namespace Adapter

variable {ι : Type} [DecidableEq ι]

/-- The packet of a subframe of the frame `f`. -/
def subframePacket (s : Adapter ι) (f : ι) (x : Subframe) : Indication ι :=
  let a := (s.recvframe f).attrib
  s.packetOf f .stack (a.dst.toList ++ a.src.toList ++ x.payload)

/-- The subframes of a well-formed A-MSDU that get a packet. -/
theorem amsduSplit_of_carries (s : Adapter ι) (f : ι) {xs : List Subframe} {bs icv : List UInt8}
    (hicv : icv.length = 0 ∨ (3 ≤ icv.length ∧ icv.length ≤ 14))
    (h : (s.recvframe f).Carries xs bs icv) :
    (s.amsduSplit f).1
      = some ((xs.map Subframe.body).take
        (granted s.memAvail (min xs.length maxSubframeCount))) := by
  obtain ⟨hmem, hdata, hlen⟩ := h.amsduPull
  have hlt := h.amsdu.length_lt
  have hwalk := amsduSubframes_of_isAmsdu hicv h.amsdu _ 0 (bs ++ icv).length s.memAvail h.mem
    (by decide)
    (by rw [List.length_append]; omega)
  rw [amsduSplit, hmem, hdata, hlen]
  exact hwalk

/-- One packet for each subframe, in order. -/
def Delivers (s : Adapter ι) (f : ι) (xs : List Subframe) : Prop :=
  (s.amsduToMsdu f).indications = s.indications ++ xs.map (s.subframePacket f)

/-- For a well-formed A-MSDU, `amsdu_to_msdu` delivers the packets of the subframes, in order, up to
the first subframe for which there is no memory. With memory for all of them these are all
packets. -/
theorem amsduToMsdu_delivers (s : Adapter ι) (f : ι) {xs : List Subframe} {bs icv : List UInt8}
    (hmax : xs.length ≤ maxSubframeCount) (hicv : icv.length = 0 ∨ (3 ≤ icv.length ∧ icv.length ≤ 14))
    (h : (s.recvframe f).Carries xs bs icv) :
    s.Delivers f (xs.take (granted s.memAvail xs.length)) ∧
      ((∀ i < xs.length, s.memAvail i = true) → s.Delivers f xs) := by
  have hsplit : (s.amsduSplit f).1 =
    some ((xs.map Subframe.body).take (granted s.memAvail xs.length)) := by
    rw [amsduSplit_of_carries s f hicv h, min_eq_left hmax]
  have hfirst : s.Delivers f (xs.take (granted s.memAvail xs.length)) := by
    obtain ⟨fr, avail, heq, -⟩ := s.amsduToMsdu_eq f
    rw [Delivers, heq, hsplit, Option.getD_some, ← List.map_take, List.map_map]
    refine congrArg (s.indications ++ ·) (List.map_congr_left fun x _ => ?_)
    rw [Function.comp_apply, msduToEth_body, subframePacket]
  refine ⟨hfirst, fun hall => ?_⟩
  rw [granted_of_all _ _ hall, List.take_length] at hfirst
  exact hfirst

end Adapter

/-! ## An A-MSDU -/

/-- A subframe with an IP packet behind an RFC 1042 header. -/
def sampleSubframe : Subframe := ⟨zeroAddr, zeroAddr, rfc1042Header ++ [0x08, 0x00, 0x45], by decide, by decide⟩

/-- An A-MSDU with this subframe twice, behind a header of 26 bytes. -/
def sampleAmsdu : RecvFrame :=
  let bs := sampleSubframe.bytes ++ ([0] ++ sampleSubframe.bytes)
  { initRecvframe with
    pkt := true
    attrib := { initRecvframe.attrib with hdrlen := 26, qos := true, amsdu := true }
    len := 26 + bs.length
    rxTail := 26 + bs.length
    rxEnd := 2000
    mem := Mem.write (fun _ => 0) 26 bs }

theorem carries_sampleAmsdu : sampleAmsdu.Carries [sampleSubframe, sampleSubframe]
    (sampleSubframe.bytes ++ ([0] ++ sampleSubframe.bytes)) [] := by
  refine ⟨.cons _ _ (by decide) (.last _), ?_, by decide, by decide, by decide⟩
  rw [List.append_nil]
  exact Mem.read_write_self ..

/-- A driver with the frame, and with memory for `n` packets. -/
def sampleAmsduDriver (n : ℕ) : Adapter ℕ :=
  { Adapter.blank [] zeroAddr with recvframe := fun _ => sampleAmsdu, memAvail := fun i => i < n }

theorem amsduToMsdu_delivers_sample :
    (sampleAmsduDriver 1).Delivers 0
        ([sampleSubframe, sampleSubframe].take (granted (sampleAmsduDriver 1).memAvail 2)) ∧
      ((∀ i < 2, (sampleAmsduDriver 1).memAvail i = true) →
        (sampleAmsduDriver 1).Delivers 0 [sampleSubframe, sampleSubframe]) :=
  (sampleAmsduDriver 1).amsduToMsdu_delivers 0 (by decide) (Or.inl rfl) carries_sampleAmsdu

/-- With memory for one packet only, the second subframe is not delivered. -/
theorem not_delivers_sample : ¬(sampleAmsduDriver 1).Delivers 0 [sampleSubframe, sampleSubframe] := by
  intro h
  have hlen := congrArg List.length h
  revert hlen
  decide +kernel

end Rtl8188eu
