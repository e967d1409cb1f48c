import Rtl8188eu.MemCopy
import Rtl8188eu.MgntXmit

/-!
# The TIM element of a beacon

`update_BCNTIM` writes the traffic indication map over the one that is in the beacon, or inserts it
behind the elements that it expects at the beginning. The map has one byte or two, and the second
one is left out if no station with an association id from 2 to 7 has traffic, whatever the stations
with higher ids have. Where to insert it is calculated from the lengths of the SSID and of the
supported rates (`TimBeacon.updates_iff`).
-/

namespace Rtl8188eu

open Tlv

/-! ## The function of the source -/

/-- `_TIM_IE_`. -/
def timIe : UInt8 := 5

/-- The bytes of `tim_bitmap_le`. -/
def lowByte (b : BitVec 16) : UInt8 := ⟨b.setWidth 8⟩
def highByte (b : BitVec 16) : UInt8 := ⟨(b >>> 8).setWidth 8⟩

/-- The body of the element : the DTIM count, the DTIM period, the bitmap control and the bitmap. -/
def timBody (timBitmap : BitVec 16) : List UInt8 :=
  let timIelen := if timBitmap &&& 0xff00#16 ≠ 0#16 ∧ timBitmap &&& 0x00fc#16 ≠ 0#16 then 5 else 4
  [0, 1, if timBitmap &&& 1#16 ≠ 0#16 then 1 else 0] ++
    if timIelen = 4 then [lowByte timBitmap] else [lowByte timBitmap, highByte timBitmap]

/-- The bitmap control. -/
def timCtrl (timBitmap : BitVec 16) : UInt8 := if timBitmap.getLsbD 0 then 1 else 0

/-- There is no station with an id from 8 on in the bitmap, or also one with an id from 2 to 7. -/
def FitsTim (timBitmap : BitVec 16) : Prop := timBitmap &&& 0xff00#16 = 0#16 ∨ timBitmap &&& 0x00fc#16 ≠ 0#16

instance (timBitmap : BitVec 16) : Decidable (FitsTim timBitmap) := inferInstanceAs (Decidable (_ ∨ _))

/-! ## The bits of the bitmap -/

theorem and_eq_zero_iff {w : ℕ} (b mask : BitVec w) :
    b &&& mask = 0#w ↔ ∀ i, mask.getLsbD i = true → b.getLsbD i = false := by
  constructor
  · intro h i hi
    have hbit := congrArg (BitVec.getLsbD · i) h
    rw [BitVec.getLsbD_and, BitVec.getLsbD_zero, hi, Bool.and_true] at hbit
    exact hbit
  · intro h
    refine BitVec.eq_of_getLsbD_eq fun i _ => ?_
    rw [BitVec.getLsbD_and, BitVec.getLsbD_zero]
    cases hi : mask.getLsbD i with
    | false => exact Bool.and_false _
    | true => rw [h i hi, Bool.false_and]

theorem getLsbD_highMask (i : ℕ) : (0xff00#16).getLsbD i = (decide (8 ≤ i) && decide (i < 16)) := by
  rcases Nat.lt_or_ge i 16 with hi | hi
  · interval_cases i <;> rfl
  · rw [BitVec.getLsbD_of_ge _ _ hi, decide_eq_false (Nat.not_lt.mpr hi), Bool.and_false]

theorem getLsbD_midMask (i : ℕ) : (0x00fc#16).getLsbD i = (decide (2 ≤ i) && decide (i < 8)) := by
  rcases Nat.lt_or_ge i 16 with hi | hi
  · interval_cases i <;> rfl
  · rw [BitVec.getLsbD_of_ge _ _ hi, decide_eq_false (by omega : ¬i < 8), Bool.and_false]

theorem and_high_eq_zero {b : BitVec 16} : b &&& 0xff00#16 = 0#16 ↔ ∀ i, 8 ≤ i →
    b.getLsbD i = false := by
  rw [and_eq_zero_iff]
  refine forall_congr' fun i => ?_
  rw [getLsbD_highMask, Bool.and_eq_true, decide_eq_true_iff, decide_eq_true_iff]
  constructor
  · intro h hi
    rcases Nat.lt_or_ge i 16 with hlt | hge
    · exact h ⟨hi, hlt⟩
    · exact BitVec.getLsbD_of_ge _ _ hge
  · exact fun h hi => h hi.1

theorem and_mid_eq_zero {b : BitVec 16} :
    b &&& 0x00fc#16 = 0#16 ↔ ∀ i, 2 ≤ i → i < 8 → b.getLsbD i = false := by
  rw [and_eq_zero_iff]
  refine forall_congr' fun i => ?_
  rw [getLsbD_midMask, Bool.and_eq_true, decide_eq_true_iff, decide_eq_true_iff, and_imp]

theorem and_one_eq_zero {b : BitVec 16} : b &&& 1#16 = 0#16 ↔ b.getLsbD 0 = false := by
  rw [and_eq_zero_iff]
  constructor
  · exact fun h => h 0 rfl
  · intro h i hi
    rw [BitVec.getLsbD_one, Bool.and_eq_true, decide_eq_true_iff, decide_eq_true_iff] at hi
    rw [hi.2]
    exact h

/-- The body, with the bits that decide it. -/
theorem timBody_eq (b : BitVec 16) :
    timBody b = 0 :: 1 :: timCtrl b ::
      if b &&& 0xff00#16 ≠ 0#16 ∧ FitsTim b then [lowByte b, highByte b] else [lowByte b] := by
  have hctrl : (if b &&& 1#16 ≠ 0#16 then 1 else 0 : UInt8) = timCtrl b := by
    have hbit := @and_one_eq_zero b
    rw [timCtrl]
    cases hb : b.getLsbD 0 with
    | true => rw [if_pos fun h => absurd (hbit.mp h) (by simp [hb]), if_pos rfl]
    | false => rw [if_neg (not_not.mpr (hbit.mpr hb)), if_neg Bool.false_ne_true]
  have hfits : (b &&& 0xff00#16 ≠ 0#16 ∧ b &&& 0x00fc#16 ≠ 0#16) ↔
    b &&& 0xff00#16 ≠ 0#16 ∧ FitsTim b := by
    refine and_congr_right fun hhigh => ?_
    rw [FitsTim, or_iff_right hhigh]
  unfold timBody
  dsimp only
  rw [hctrl, if_congr hfits rfl rfl]
  by_cases h : b &&& 0xff00#16 ≠ 0#16 ∧ FitsTim b
  · rw [if_pos h, if_neg (by decide), if_pos h]
    rfl
  · rw [if_neg h, if_pos rfl, if_neg h]
    rfl

theorem length_timBody_le (timBitmap : BitVec 16) : (timBody timBitmap).length ≤ 255 := by
  rw [timBody_eq]
  split_ifs <;> simp

/-- The element. -/
def timElem (timBitmap : BitVec 16) : Elem := ⟨timIe, timBody timBitmap, length_timBody_le timBitmap⟩

/-- Where the element is inserted, behind the fixed fields, the SSID, the rates and the three bytes
of the DS parameters. -/
def timOffset (m : Mem) (pie : ℤ) (ieLength ssidLength : ℕ) : ℕ :=
  let rates := match rtwGetIe m (pie + 12) supportedratesIe (ieLength - 12) with
    | some (_, tmpLen) => tmpLen + 2
    | none => 0
  12 + (ssidLength + 2) + rates + 3

/-- The elements behind `dstIe`, without the first `ielen` bytes, are moved behind the element that
is written there : the memory and `IELength`. A length of the remainder that is negative is large,
and there is no buffer for it. -/
def replaceIe (m : Mem) (pie dstIe : ℤ) (ielen ieLength : ℕ) (ie : List UInt8) : Mem × ℕ :=
  let remainderIelen := u32 (ieLength - (dstIe - pie) - ielen)
  let m₁ := m.write dstIe ie
  let m₂ := if 0 < remainderIelen ∧ remainderIelen < 2 ^ 31 then
      m₁.write (dstIe + ie.length) (m.read (dstIe + ielen) remainderIelen)
    else m₁
  (m₂, u32 (dstIe + ie.length - pie + remainderIelen))

/-- `update_BCNTIM`. -/
def updateBcntim (m : Mem) (pie : ℤ) (ieLength ssidLength : ℕ) (timBitmap : BitVec 16) : Mem × ℕ :=
  match rtwGetIe m (pie + 12) timIe (ieLength - 12) with
  | some (p, timIelen) =>
    if 0 < timIelen then replaceIe m pie p (timIelen + 2) ieLength (timElem timBitmap).bytes
    else replaceIe m pie (pie + timOffset m pie ieLength ssidLength) 0 ieLength (timElem timBitmap).bytes
  | none => replaceIe m pie (pie + timOffset m pie ieLength ssidLength) 0 ieLength (timElem timBitmap).bytes

/-! ## What a TIM element means -/

/-- Bit `i` of a virtual bitmap. -/
def pvbBit (pvb : List UInt8) (i : ℕ) : Bool := (pvb.getD (i / 8) 0).toBitVec.getLsbD (i % 8)

/-- The bit for the traffic to a group. -/
def timMulticast (ctrl : UInt8) : Bool := ctrl.toBitVec.getLsbD 0

/-- The number of the first byte of the virtual bitmap that is in the element. -/
def timFirst (ctrl : UInt8) : ℕ := 2 * (ctrl.toNat / 2)

/-- The bit for an association id. -/
def timAid (ctrl : UInt8) (pvb : List UInt8) (aid : ℕ) : Bool :=
  decide (8 * timFirst ctrl ≤ aid) && pvbBit pvb (aid - 8 * timFirst ctrl)

/-- A TIM element that says what is in the bitmap. -/
def RightTim (timBitmap : BitVec 16) (e : Elem) : Prop :=
  e.id = timIe ∧ ∃ count period ctrl pvb, e.body = count :: period :: ctrl :: pvb ∧
    timMulticast ctrl = timBitmap.getLsbD 0 ∧ ∀ aid, 0 < aid → timAid ctrl pvb aid = timBitmap.getLsbD aid

section Bits

variable {b : BitVec 16}

theorem pvbBit_low (i : ℕ) : pvbBit [lowByte b] i = (decide (i < 8) && b.getLsbD i) := by
  rcases Nat.lt_or_ge i 8 with hi | hi
  · have hdiv : i / 8 = 0 := by omega
    have hmod : i % 8 = i := by omega
    rw [pvbBit, hdiv, hmod]
    change (b.setWidth 8).getLsbD i = _
    rw [BitVec.getLsbD_setWidth]
  · obtain ⟨k, hk⟩ : ∃ k, i / 8 = k + 1 := ⟨i / 8 - 1, by omega⟩
    rw [pvbBit, hk, List.getD_cons_succ, List.getD_nil, decide_eq_false (by omega), Bool.false_and]
    exact BitVec.getLsbD_zero

theorem pvbBit_both (i : ℕ) : pvbBit [lowByte b, highByte b] i = b.getLsbD i := by
  rcases Nat.lt_or_ge i 8 with hi | hi
  · have hdiv : i / 8 = 0 := by omega
    have hmod : i % 8 = i := by omega
    rw [pvbBit, hdiv, hmod]
    change (b.setWidth 8).getLsbD i = _
    rw [BitVec.getLsbD_setWidth, decide_eq_true hi, Bool.true_and]
  rcases Nat.lt_or_ge i 16 with hi' | hi'
  · have hdiv : i / 8 = 1 := by omega
    rw [pvbBit, hdiv]
    change ((b >>> 8).setWidth 8).getLsbD (i % 8) = _
    rw [BitVec.getLsbD_setWidth, BitVec.getLsbD_ushiftRight, decide_eq_true (by omega),
      Bool.true_and]
    congr 1
    omega
  · obtain ⟨k, hk⟩ : ∃ k, i / 8 = k + 2 := ⟨i / 8 - 2, by omega⟩
    rw [pvbBit, hk, List.getD_cons_succ, List.getD_cons_succ, List.getD_nil,
      BitVec.getLsbD_of_ge _ _ hi']
    exact BitVec.getLsbD_zero

theorem timCtrl_bits : timMulticast (timCtrl b) = b.getLsbD 0 ∧ timFirst (timCtrl b) = 0 := by
  unfold timCtrl
  cases b.getLsbD 0 <;> decide

/-- The new element is right exactly if all ids fit. -/
theorem rightTim_timElem : RightTim b (timElem b) ↔ FitsTim b := by
  obtain ⟨hmulticast, hfirst⟩ := @timCtrl_bits b
  have haid (pvb : List UInt8) (aid : ℕ) : timAid (timCtrl b) pvb aid = pvbBit pvb aid := by
    simp [timAid, hfirst]
  by_cases h : b &&& 0xff00#16 ≠ 0#16 ∧ FitsTim b
  · have hbody : timBody b = 0 :: 1 :: timCtrl b :: [lowByte b, highByte b] := by
      rw [timBody_eq, if_pos h]
    exact iff_of_true ⟨rfl, 0, 1, _, _, hbody, hmulticast,
      fun aid _ => by rw [haid, pvbBit_both]⟩ h.2
  · have hbody : timBody b = 0 :: 1 :: timCtrl b :: [lowByte b] := by rw [timBody_eq, if_neg h]
    -- with one byte the ids from 8 on are not there
    have hfits : FitsTim b ↔ b &&& 0xff00#16 = 0#16 :=
      ⟨fun hf => by_contra fun hhigh => h ⟨hhigh, hf⟩, Or.inl⟩
    rw [hfits, and_high_eq_zero]
    constructor
    · rintro ⟨-, count, period, ctrl, pvb, hpvb, -, haids⟩ i hi
      obtain ⟨-, -, rfl, rfl⟩ : 0 = count ∧ 1 = period ∧ timCtrl b = ctrl ∧ [lowByte b] = pvb := by
        simpa [timElem, hbody] using hpvb
      rw [← haids i (by omega), haid, pvbBit_low, decide_eq_false (by omega), Bool.false_and]
    · intro hhigh
      refine ⟨rfl, 0, 1, _, _, hbody, hmulticast, fun aid _ => ?_⟩
      rw [haid, pvbBit_low]
      rcases Nat.lt_or_ge aid 8 with hi | hi
      · rw [decide_eq_true hi, Bool.true_and]
      · rw [hhigh aid hi, Bool.and_false]

end Bits

/-! ## Rotations of the element -/

section Rotation

variable {b : BitVec 16} {e : Elem} {us ws : List UInt8}

theorem timCtrl_ne_five : timCtrl b ≠ 5 := by
  unfold timCtrl
  split <;> decide

theorem timElem_bytes_low (h : ¬(b &&& 0xff00#16 ≠ 0#16 ∧ FitsTim b)) :
    (timElem b).bytes = [5, 4, 0, 1, timCtrl b, lowByte b] := by
  have hbody : timBody b = [0, 1, timCtrl b, lowByte b] := by rw [timBody_eq, if_neg h]
  change timIe :: UInt8.ofNat (timBody b).length :: timBody b = _
  rw [hbody]
  rfl

theorem timElem_bytes_both (h : b &&& 0xff00#16 ≠ 0#16 ∧ FitsTim b) :
    (timElem b).bytes = [5, 5, 0, 1, timCtrl b, lowByte b, highByte b] := by
  have hbody : timBody b = [0, 1, timCtrl b, lowByte b, highByte b] := by rw [timBody_eq, if_pos h]
  change timIe :: UInt8.ofNat (timBody b).length :: timBody b = _
  rw [hbody]
  rfl

/-- The bits of the association ids in the lower byte, where the control byte is in its place. -/
theorem not_rightTim_of_ctrl {count period : UInt8} {pvb : List UInt8}
    (hmid : b &&& 0x00fc#16 ≠ 0#16)
    (hbody : e.body = count :: period :: 1 :: timCtrl b :: pvb) : ¬RightTim b e := by
  rintro ⟨-, count', period', ctrl, pvb', hbody', -, haids⟩
  obtain ⟨rfl, rfl, rfl, rfl⟩ : count = count' ∧ period = period' ∧ 1 = ctrl ∧
    timCtrl b :: pvb = pvb' := by
    simpa [hbody] using hbody'
  refine hmid (and_mid_eq_zero.mpr fun i h2 h8 => ?_)
  rw [← haids i (by omega)]
  have hdiv : i / 8 = 0 := by omega
  have hmod : i % 8 = i := by omega
  have hfirst : timFirst 1 = 0 := by decide
  have hctrl : (timCtrl b).toBitVec.getLsbD i = false := by
    unfold timCtrl
    split <;> interval_cases i <;> rfl
  rw [timAid, hfirst, Nat.mul_zero, Nat.sub_zero, pvbBit, hdiv, hmod, List.getD_cons_zero, hctrl,
    Bool.and_false]

/-- No right element is a rotation of the new one. -/
theorem eq_nil_of_rotation (hxs : (timElem b).bytes = us ++ ws) (he : e.bytes = ws ++ us)
    (hright : RightTim b e) :
    us = [] ∨ ws = [] := by
  have hus : us = (timElem b).bytes.take us.length := by rw [hxs, List.take_left]
  have hws : ws = (timElem b).bytes.drop us.length := by rw [hxs, List.drop_left]
  have hle : us.length ≤ (timElem b).bytes.length := by
    rw [hxs, List.length_append]
    omega
  obtain ⟨hid, count, period, ctrl, pvb, hbody, hmulticast, -⟩ := id hright
  have hsize : e.bytes.length = (timElem b).bytes.length := by
    rw [he, hxs, List.length_append, List.length_append, Nat.add_comm]
  have hbytes : e.bytes = 5 :: UInt8.ofNat
    ((timElem b).bytes.length - 2) :: count :: period :: ctrl :: pvb := by
    rw [← hsize, Elem.length_bytes, Nat.add_sub_cancel, Elem.bytes, hid, Elem.len, hbody]
    rfl
  have hctrl := @timCtrl_ne_five b
  by_cases h : b &&& 0xff00#16 ≠ 0#16 ∧ FitsTim b
  · rw [timElem_bytes_both h] at hus hws hle hbytes
    rw [hbytes] at he
    generalize us.length = r at hus hws hle
    subst hus hws
    simp only [List.length_cons, List.length_nil] at hle
    -- only if the last byte is 5 does a rotation begin with the id and the length
    obtain hr | rfl | rfl | rfl : r ≤ 4 ∨ r = 5 ∨ r = 6 ∨ r = 7 := by omega
    · interval_cases r <;> simp_all
    · obtain ⟨hlow, -, -, -, hctrl0, -⟩ : 5 = lowByte b ∧ 5 = highByte b ∧ count = 5 ∧ period = 5 ∧
        ctrl = 0 ∧
          pvb = [1, timCtrl b] := by simpa using he
      have hbit : b.getLsbD 0 = (lowByte b).toBitVec.getLsbD 0 := by
        change _ = (b.setWidth 8).getLsbD 0
        rw [BitVec.getLsbD_setWidth]
        simp
      rw [hctrl0, hbit, ← hlow] at hmulticast
      exact absurd hmulticast (by decide)
    · obtain ⟨-, -, -, hctrl1, hpvb⟩ : 5 = highByte b ∧ count = 5 ∧ period = 0 ∧ ctrl = 1 ∧
          pvb = [timCtrl b, lowByte b] := by simpa using he
      have hmid := h.2.resolve_left h.1
      rw [hctrl1, hpvb] at hbody
      exact absurd hright (not_rightTim_of_ctrl hmid hbody)
    · exact Or.inr rfl
  · rw [timElem_bytes_low h] at hus hws hle hbytes
    rw [hbytes] at he
    generalize us.length = r at hus hws hle
    subst hus hws
    simp only [List.length_cons, List.length_nil] at hle
    interval_cases r <;> simp_all

end Rotation

/-! ## The move of the remainder -/

section Replace

variable {m : Mem} {pie : ℤ} {before old rest ie : List UInt8} {t : Stream' UInt8}

/-- The bytes `old` are replaced by `ie`. -/
theorem replaceIe_spec (h : bytesAt m (pie + 12) = (before ++ (old ++ rest)) ++ₛ t)
    (hfits : (before ++ (old ++ rest)).length ≤ 2 ^ 16) (hie : ie.length ≤ 2 ^ 16) :
    ∃ m' t', replaceIe m pie (pie + 12 + before.length) old.length
      (12 + (before ++ (old ++ rest)).length) ie =
        (m', 12 + (before ++ (ie ++ rest)).length) ∧
      bytesAt m' (pie + 12) = (before ++ (ie ++ rest)) ++ₛ t' ∧ ∀ x < pie + 12, m' x = m x := by
  have hlen : (before ++ (old ++ rest)).length = before.length + (old.length + rest.length) := by
    rw [List.length_append, List.length_append]
  have hlen' : (before ++ (ie ++ rest)).length = before.length + (ie.length + rest.length) := by
    rw [List.length_append, List.length_append]
  have hremainder : u32
    ((12 + (before ++ (old ++ rest)).length : ℕ) - (pie + 12 + before.length - pie) - old.length) =
      rest.length := by
    unfold u32
    omega
  have hieLength : u32 (pie + 12 + before.length + ie.length - pie + rest.length) =
      12 + (before ++ (ie ++ rest)).length := by
    unfold u32
    omega
  rw [Stream'.append_append_stream, Stream'.append_append_stream] at h
  have hrest := read_of_bytesAt (bytesAt_drop (bytesAt_drop h))
  have hmem : (if 0 < rest.length ∧ rest.length < 2 ^ 31 then
      (m.write (pie + 12 + before.length) ie).write (pie + 12 + before.length + ie.length)
        (m.read (pie + 12 + before.length + old.length) rest.length)
      else m.write (pie + 12 + before.length) ie) =
      m.write (pie + 12 + before.length) (ie ++ rest) := by
    split_ifs with hpos
    · rw [hrest, Mem.write_append]
    · rw [List.eq_nil_of_length_eq_zero (by omega : rest.length = 0), List.append_nil]
  have hwritten := @bytesAt_write_behind m (pie + 12) (ie ++ rest) _ before h
  rw [← Stream'.append_append_stream] at hwritten
  refine ⟨m.write (pie + 12 + before.length) (ie ++ rest), _, ?_, hwritten, fun x hx => ?_⟩
  · unfold replaceIe
    dsimp only
    rw [hremainder, hieLength, hmem]
  · exact Mem.write_of_disjoint m (Or.inl (by omega))

/-- Behind the elements nothing is moved, and what is written there is only partly counted. -/
theorem replaceIe_behind {es gap : List UInt8} (h : bytesAt m (pie + 12) = (es ++ gap) ++ₛ t)
    (hgap : gap ≠ [])
    (hfits : (es ++ gap).length ≤ 2 ^ 16) (hie : ie.length ≤ 2 ^ 16) :
    ∃ m' t', replaceIe m pie (pie + 12 + (es ++ gap).length) 0 (12 + es.length) ie =
      (m', 12 + es.length + ie.length) ∧
      bytesAt m' (pie + 12) = (es ++ (gap ++ ie)) ++ₛ t' ∧ ∀ x < pie + 12, m' x = m x := by
  have hpos : 0 < gap.length := List.length_pos_iff.mpr hgap
  have hlen : (es ++ gap).length = es.length + gap.length := List.length_append
  have hremainder : u32 ((12 + es.length : ℕ) - (pie + 12 + (es ++ gap).length - pie) - (0 : ℕ)) =
    2 ^ 32 - gap.length := by
    unfold u32
    omega
  have hieLength : u32
    (pie + 12 + (es ++ gap).length + ie.length - pie + (2 ^ 32 - gap.length : ℕ)) =
      12 + es.length + ie.length := by
    unfold u32
    omega
  have hwritten := @bytesAt_write_behind m (pie + 12) ie _ _ h
  rw [← Stream'.append_append_stream, List.append_assoc] at hwritten
  refine ⟨m.write (pie + 12 + (es ++ gap).length) ie, _, ?_, hwritten, fun x hx => ?_⟩
  · unfold replaceIe
    dsimp only
    rw [hremainder, hieLength, if_neg (by omega)]
  · exact Mem.write_of_disjoint m (Or.inl (by omega))

end Replace

/-! ## The beacon -/

/-- A TIM element. -/
def IsTim (e : Elem) : Bool := decide (e.id = timIe)

/-- The elements of a beacon. There is at most one TIM element, with the fields that it always has,
and the elements fit the array behind the fixed fields. -/
structure TimBeacon where
  elems : List Elem
  tims : (elems.filter IsTim).length ≤ 1
  tim_body : ∀ e ∈ elems, IsTim e = true → 4 ≤ e.body.length
  /-- `Ssid.SsidLength`. -/
  ssidLength : ℕ
  ssid_le : ssidLength ≤ 32
  fits : 12 + (encode elems).length ≤ maxIeSz

namespace TimBeacon

variable {m : Mem} {pie : ℤ} {t : Stream' UInt8} {timBitmap : BitVec 16}

/-- After the call there is exactly one TIM element, which says what is in the bitmap, the other
elements are the same in the same order, and `IELength` is the length of all. The fixed fields are
not changed. -/
def Updates (m : Mem) (pie : ℤ) (b : TimBeacon) (timBitmap : BitVec 16) : Prop :=
  ∃ m' es' e, updateBcntim m pie (12 + (encode b.elems).length) b.ssidLength timBitmap =
      (m', 12 + (encode es').length) ∧
    m'.read (pie + 12) (encode es').length = encode es' ∧
    es'.filter IsTim = [e] ∧ RightTim timBitmap e ∧
    es'.filter (fun e => !IsTim e) = b.elems.filter (fun e => !IsTim e) ∧ ∀ x < pie + 12, m' x = m x

/-- Where a TIM element is inserted, behind the fixed fields. -/
def offset (b : TimBeacon) : ℕ :=
  b.ssidLength + 2 + ((firstAt (fun e => decide (e.id = supportedratesIe)) b.elems).elim 0 fun r => r.2.body.length + 2) + 3

theorem timOffset_eq (b : TimBeacon) (h : bytesAt m (pie + 12) = encode b.elems ++ₛ t) :
    timOffset m pie (12 + (encode b.elems).length) b.ssidLength = 12 + b.offset := by
  have harea : ((12 + (encode b.elems).length : ℕ) : ℤ) - 12 = (encode b.elems).length := by omega
  unfold timOffset offset
  rw [harea, rtwGetIe_eq h]
  cases firstAt (fun e => decide (e.id = supportedratesIe)) b.elems with
  | none =>
    change 12 + (b.ssidLength + 2) + 0 + 3 = 12 + (b.ssidLength + 2 + 0 + 3)
    omega
  | some r =>
    change 12 + (b.ssidLength + 2) + (r.2.body.length + 2) + 3 =
      12 + (b.ssidLength + 2 + (r.2.body.length + 2) + 3)
    omega

/-- A call that replaces the bytes `old` or inserts the element where `old` is empty. -/
theorem updates_iff_of_eq {b : TimBeacon} {m' : Mem} {bs : List UInt8} {t' : Stream' UInt8}
    (hrun : updateBcntim m pie (12 + (encode b.elems).length) b.ssidLength timBitmap =
    (m', 12 + bs.length))
    (hbytes : bytesAt m' (pie + 12) = bs ++ₛ t') (hframe : ∀ x < pie + 12, m' x = m x) :
    Updates m pie b timBitmap ↔ ∃ pre e post, b.elems.filter (fun e => !IsTim e) = pre ++ post ∧
      RightTim timBitmap e ∧ bs = encode (pre ++ e :: post) := by
  have hread := read_of_bytesAt hbytes
  constructor
  · rintro ⟨m'', es', e, hrun', hread', hone, hright, hothers, -⟩
    rw [hrun] at hrun'
    obtain ⟨rfl, hlen⟩ := Prod.mk.inj hrun'
    have hsame : bs.length = (encode es').length := by omega
    obtain ⟨pre, post, rfl, hfilter, -⟩ := filter_eq_singleton_iff.mp ⟨hone, hothers⟩
    refine ⟨pre, e, post, hfilter, hright, ?_⟩
    rw [← hread, ← hread', hsame]
  · rintro ⟨pre, e, post, hfilter, hright, rfl⟩
    have hall (x : Elem) (hx : x ∈ pre ++ post) : IsTim x = false := by
      rw [← hfilter, List.mem_filter] at hx
      simpa using hx.2
    obtain ⟨hone, hothers⟩ :=
      filter_eq_singleton_iff.mpr ⟨pre, post, rfl, rfl, decide_eq_true hright.1, hall⟩
    exact ⟨m', _, e, hrun, hread, hone, hright, hothers.trans hfilter.symm, hframe⟩

/-- The TIM element, with what is before and behind it. -/
theorem exists_tim {b : TimBeacon} (htim : ∃ f ∈ b.elems, IsTim f = true) :
    ∃ pre f post, b.elems = pre ++ f :: post ∧ b.elems.filter (fun e => !IsTim e) = pre ++ post ∧
      IsTim f = true ∧ ∀ x ∈ pre ++ post, IsTim x = false := by
  obtain ⟨f, hf, hid⟩ := htim
  have hpos := List.length_pos_of_mem (List.mem_filter.mpr ⟨hf, hid⟩)
  obtain ⟨g, hone⟩ := List.length_eq_one_iff.mp (Nat.le_antisymm b.tims hpos)
  obtain ⟨pre, post, hes, hfilter, hg, hall⟩ := filter_eq_singleton_iff.mp ⟨hone, rfl⟩
  exact ⟨pre, g, post, hes, hfilter, hg, hall⟩

theorem length_timElem_le (b : BitVec 16) : (timElem b).bytes.length ≤ 2 ^ 16 := by
  have hle := (timElem b).length_le
  rw [Elem.length_bytes]
  omega

/-- A TIM element that is there is replaced. -/
theorem updates_of_tim {b : TimBeacon} (h : bytesAt m (pie + 12) = encode b.elems ++ₛ t)
    (htim : ∃ f ∈ b.elems, IsTim f = true) : Updates m pie b timBitmap ↔ FitsTim timBitmap := by
  obtain ⟨pre, f, post, hes, hfilter, hid, hall⟩ := exists_tim htim
  have hbody := b.tim_body f (by rw [hes]; simp) hid
  have hfits := b.fits
  simp only [maxIeSz] at hfits
  have harea : ((12 + (encode b.elems).length : ℕ) : ℤ) - 12 = (encode b.elems).length := by omega
  have hlist : encode b.elems = encode pre ++ (f.bytes ++ encode post) := by
    rw [hes, encode_append, encode_cons]
  have hfirst : firstAt IsTim b.elems = some ((encode pre).length, f) := by
    rw [hes, firstAt_append fun x hx => hall x (List.mem_append_left _ hx), firstAt, if_pos hid]
    rfl
  have hget : rtwGetIe m (pie + 12) timIe (encode b.elems).length =
      (firstAt IsTim b.elems).map fun r => (pie + 12 + r.1, r.2.body.length) := rtwGetIe_eq h timIe
  rw [hfirst, Option.map_some] at hget
  rw [hlist] at h hfits
  obtain ⟨m', t', hrun, hbytes, hframe⟩ :=
    @replaceIe_spec m pie _ _ _ (timElem timBitmap).bytes t h (by omega)
    (length_timElem_le timBitmap)
  have hcall : updateBcntim m pie (12 + (encode b.elems).length) b.ssidLength timBitmap =
      (m', 12 + (encode pre ++ ((timElem timBitmap).bytes ++ encode post)).length) := by
    rw [updateBcntim, harea, hget]
    dsimp only
    rw [if_pos (by omega), ← Elem.length_bytes, hlist, hrun]
  have hnew : encode pre ++ ((timElem timBitmap).bytes ++ encode post) = encode
    (pre ++ timElem timBitmap :: post) := by
    rw [encode_append, encode_cons]
  rw [updates_iff_of_eq hcall hbytes hframe, hnew, hfilter, ← rightTim_timElem]
  constructor
  · rintro ⟨pre', e, post', hsplit, hright, hes'⟩
    have htim : IsTim (timElem timBitmap) = true := rfl
    have hnewOne := filter_eq_singleton_iff.mpr ⟨pre, post, rfl, rfl, htim, hall⟩
    rw [hsplit] at hall
    have hone := filter_eq_singleton_iff.mpr ⟨pre', post', rfl, rfl, decide_eq_true hright.1, hall⟩
    rw [← encode_inj hes', hnewOne.1] at hone
    rw [(List.cons.inj hone.1).1]
    exact hright
  · exact fun hright => ⟨pre, _, post, rfl, hright, rfl⟩

/-- Where there is no TIM element one is written at the offset. -/
theorem updateBcntim_of_not_tim {b : TimBeacon} (h : bytesAt m (pie + 12) = encode b.elems ++ₛ t)
    (hno : ∀ f ∈ b.elems, IsTim f = false) :
    updateBcntim m pie (12 + (encode b.elems).length) b.ssidLength timBitmap =
      replaceIe m pie (pie + 12 + b.offset) 0 (12 + (encode b.elems).length)
        (timElem timBitmap).bytes := by
  have harea : ((12 + (encode b.elems).length : ℕ) : ℤ) - 12 = (encode b.elems).length := by omega
  have hget : rtwGetIe m (pie + 12) timIe (encode b.elems).length =
      (firstAt IsTim b.elems).map fun r => (pie + 12 + r.1, r.2.body.length) := rtwGetIe_eq h timIe
  rw [firstAt_eq_none.mpr hno, Option.map_none] at hget
  rw [updateBcntim, harea, hget]
  dsimp only
  rw [timOffset_eq b h, Nat.cast_add, ← add_assoc]
  rfl

/-- Only copies of the new element are between the offset and the end of an element. -/
def AtEnd (b : TimBeacon) (timBitmap : BitVec 16) : Prop :=
  ∃ pre post k, b.elems = pre ++ post ∧
    encode pre = (encode b.elems).take b.offset ++ (List.replicate k (timElem timBitmap).bytes).flatten

theorem offset_le (b : TimBeacon) : b.offset ≤ 300 := by
  have hssid := b.ssid_le
  unfold offset
  cases firstAt (fun e => decide (e.id = supportedratesIe)) b.elems with
  | none =>
    change b.ssidLength + 2 + 0 + 3 ≤ 300
    omega
  | some r =>
    have hrates := r.2.length_le
    change b.ssidLength + 2 + (r.2.body.length + 2) + 3 ≤ 300
    omega

/-- The element is inserted between two bytes of the list. -/
theorem updates_of_offset_le {b : TimBeacon} (h : bytesAt m (pie + 12) = encode b.elems ++ₛ t)
    (hno : ∀ f ∈ b.elems, IsTim f = false) (hle : b.offset ≤ (encode b.elems).length) :
    Updates m pie b timBitmap ↔ FitsTim timBitmap ∧ b.AtEnd timBitmap := by
  have hfits := b.fits
  simp only [maxIeSz] at hfits
  have hself : b.elems.filter (fun e => !IsTim e) = b.elems :=
    List.filter_eq_self.mpr fun x hx => by simp [hno x hx]
  have hcut := List.take_append_drop b.offset (encode b.elems)
  have hbefore : ((encode b.elems).take b.offset).length = b.offset := by
    rw [List.length_take, min_eq_left hle]
  generalize hW : (encode b.elems).take b.offset = as at hcut hbefore
  generalize (encode b.elems).drop b.offset = bs at hcut
  have harea : bytesAt m (pie + 12) = (as ++ ([] ++ bs)) ++ₛ t := by rw [List.nil_append, hcut, h]
  obtain ⟨m', t', hrun, hbytes, hframe⟩ :=
    @replaceIe_spec m pie _ _ _ (timElem timBitmap).bytes t harea
    (by rw [List.nil_append, hcut]; omega) (length_timElem_le timBitmap)
  have hcall := @updateBcntim_of_not_tim m pie t timBitmap b h hno
  rw [List.nil_append, hcut, hbefore, List.length_nil] at hrun
  rw [hrun] at hcall
  rw [updates_iff_of_eq hcall hbytes hframe, hself]
  unfold AtEnd
  rw [hW]
  constructor
  · rintro ⟨pre, e, post, hes, hright, hlist⟩
    have hid (f : Elem) (hf : f ∈ post) : f.id ≠ e.id := by
      rw [hright.1]
      exact of_decide_eq_false (hno f (by rw [hes]; exact List.mem_append_right _ hf))
    obtain ⟨vs, hpre, -, hvs⟩ := exists_of_insert (hcut.trans (congrArg encode hes)) hid hlist
    have hne : (timElem timBitmap).bytes ≠ [] := List.cons_ne_nil _ _
    obtain ⟨k, us, ws, hxs, he, hcopies⟩ := exists_rotation hne hvs
    obtain ⟨k', he', hcopies'⟩ : ∃ k', e.bytes = (timElem timBitmap).bytes ∧
        vs = (List.replicate k' (timElem timBitmap).bytes).flatten := by
      rcases eq_nil_of_rotation hxs he hright with rfl | rfl
      · rw [List.nil_append] at hxs
        rw [List.append_nil] at he hcopies
        exact ⟨k, he.trans hxs.symm, hcopies⟩
      · rw [List.append_nil] at hxs
        refine ⟨k + 1, he.trans hxs.symm, ?_⟩
        rw [hcopies, List.replicate_succ', List.flatten_append, List.flatten_singleton, hxs]
    have hsame := (Elem.bytes_append_inj (congrArg (· ++ []) he')).1
    rw [hsame] at hright
    exact ⟨rightTim_timElem.mp hright, pre, post, k', hes, by rw [hpre, hcopies']⟩
  · rintro ⟨hfitsTim, pre, post, k, hes, hpre⟩
    refine ⟨pre, timElem timBitmap, post, hes, rightTim_timElem.mpr hfitsTim, ?_⟩
    have hbs : bs = (List.replicate k (timElem timBitmap).bytes).flatten ++ encode post := by
      rw [hes, encode_append, hpre, List.append_assoc, List.append_cancel_left_eq] at hcut
      exact hcut
    have hmove : (timElem timBitmap).bytes ++ (List.replicate k (timElem timBitmap).bytes).flatten =
        (List.replicate k (timElem timBitmap).bytes).flatten ++ (timElem timBitmap).bytes := by
      rw [← List.flatten_cons, ← List.replicate_succ, List.replicate_succ', List.flatten_append,
        List.flatten_singleton]
    rw [encode_append, encode_cons, hpre, hbs, ← List.append_assoc (timElem timBitmap).bytes, hmove]
    simp only [List.append_assoc]

/-- The element is written behind the list, and its length is counted from the end of the list. -/
theorem updates_of_lt_offset {b : TimBeacon} (h : bytesAt m (pie + 12) = encode b.elems ++ₛ t)
    (hno : ∀ f ∈ b.elems, IsTim f = false) (hlt : (encode b.elems).length < b.offset) :
    Updates m pie b timBitmap ↔ ∃ e, RightTim timBitmap e ∧
      e.bytes = (t.take (b.offset - (encode b.elems).length) ++ (timElem timBitmap).bytes).take
        (timElem timBitmap).bytes.length := by
  have hfits := b.fits
  have hoffset := b.offset_le
  simp only [maxIeSz] at hfits
  have hself : b.elems.filter (fun e => !IsTim e) = b.elems :=
    List.filter_eq_self.mpr fun x hx => by simp [hno x hx]
  have hgaplen : (t.take (b.offset - (encode b.elems).length)).length =
    b.offset - (encode b.elems).length :=
    Stream'.length_take _ _
  have harea : bytesAt m
    (pie + 12) = (encode b.elems ++ t.take (b.offset - (encode b.elems).length)) ++ₛ
      t.drop (b.offset - (encode b.elems).length) := by
    rw [Stream'.append_append_stream, Stream'.append_take_drop, h]
  generalize t.take (b.offset - (encode b.elems).length) = gap at harea hgaplen ⊢
  have hend : (encode b.elems ++ gap).length = b.offset := by
    rw [List.length_append]
    omega
  have hgap : gap ≠ [] := List.ne_nil_of_length_pos (by omega)
  obtain ⟨m', t', hrun, hbytes, hframe⟩ :=
    @replaceIe_behind m pie (timElem timBitmap).bytes _ _ gap harea hgap
    (by omega) (length_timElem_le timBitmap)
  have hcall := @updateBcntim_of_not_tim m pie t timBitmap b h hno
  rw [hend] at hrun
  have hsize : ((gap ++ (timElem timBitmap).bytes).take (timElem timBitmap).bytes.length).length =
      (timElem timBitmap).bytes.length := by
    rw [List.length_take, List.length_append]
    omega
  generalize hxs : (gap ++ (timElem timBitmap).bytes).take (timElem timBitmap).bytes.length =
    xs at hsize ⊢
  have hcounted : 12 + (encode b.elems).length + (timElem timBitmap).bytes.length =
    12 + (encode b.elems ++ xs).length := by
    rw [List.length_append, hsize, Nat.add_assoc]
  have hbytes' : bytesAt m' (pie + 12) = (encode b.elems ++ xs) ++ₛ
      ((gap ++ (timElem timBitmap).bytes).drop (timElem timBitmap).bytes.length ++ₛ t') := by
    rw [hbytes, ← Stream'.append_append_stream, List.append_assoc, ← hxs, List.take_append_drop]
  rw [hrun, hcounted] at hcall
  rw [updates_iff_of_eq hcall hbytes' hframe, hself]
  constructor
  · rintro ⟨pre, e, post, hes, hright, hlist⟩
    have hid (f : Elem) (hf : f ∈ post) : f.id ≠ e.id := by
      rw [hright.1]
      exact of_decide_eq_false (hno f (by rw [hes]; exact List.mem_append_right _ hf))
    obtain ⟨vs, -, hvs, hxse⟩ := @exists_of_insert (encode b.elems) [] xs pre post e
      (by rw [List.append_nil, hes]) hid (by rw [List.append_nil, hlist])
    obtain ⟨rfl, -⟩ := List.append_eq_nil_iff.mp hvs.symm
    rw [List.append_nil, List.nil_append] at hxse
    exact ⟨e, hright, hxse.symm⟩
  · rintro ⟨e, hright, rfl⟩
    exact ⟨b.elems, e, [], (List.append_nil _).symm, hright, by simp [encode_append]⟩

/-- When a TIM element comes to be right. One that is there is written over. Otherwise the offset
has to be at the end of an element, or so far behind the list that the bytes there, with the first
ones of the new element, happen to be a right one. -/
def Updatable (b : TimBeacon) (tail : Stream' UInt8) (timBitmap : BitVec 16) : Prop :=
  if ∃ f ∈ b.elems, IsTim f = true then FitsTim timBitmap
  else if b.offset ≤ (encode b.elems).length then FitsTim timBitmap ∧ b.AtEnd timBitmap
  else ∃ e, RightTim timBitmap e ∧
    e.bytes = (tail.take (b.offset - (encode b.elems).length) ++ (timElem timBitmap).bytes).take
      (timElem timBitmap).bytes.length

/-- The TIM element is updated for every bitmap exactly if the ids fit and the element comes to the
right place. -/
theorem updates_iff (m₀ : Mem) (pie : ℤ) (b : TimBeacon) (timBitmap : BitVec 16) :
    Updates (m₀.write (pie + 12) (encode b.elems)) pie b timBitmap ↔
      b.Updatable (bytesAt m₀ (pie + 12 + (encode b.elems).length)) timBitmap := by
  have h := bytesAt_write m₀ (pie + 12) (encode b.elems)
  unfold Updatable
  split_ifs with htim hle
  · exact updates_of_tim h htim
  · exact updates_of_offset_le h
      (fun f hf => Bool.eq_false_iff.mpr fun hid => htim ⟨f, hf, hid⟩) hle
  · exact updates_of_lt_offset h (fun f hf => Bool.eq_false_iff.mpr fun hid => htim ⟨f, hf, hid⟩)
      (by omega)

/-- The SSID, the rates, the DS parameters and the TIM of a beacon. -/
def sampleTimBeacon : TimBeacon where
  elems := [⟨0, [0x61], by decide⟩, ⟨supportedratesIe, [0x82], by decide⟩, ⟨3, [1], by decide⟩,
    ⟨timIe, [0, 1, 0, 0], by decide⟩]
  tims := by decide
  tim_body := by decide
  ssidLength := 1
  ssid_le := by decide
  fits := by decide

/-- Traffic for the station with the id 8 only is not in the element. -/
theorem not_updates_sampleTimBeacon : ¬∀ (m₀ : Mem) (pie : ℤ) (b : TimBeacon) (timBitmap : BitVec 16),
    Updates (m₀.write (pie + 12) (encode b.elems)) pie b timBitmap := by
  intro h
  have hupdates := h (fun _ => 0) 0 sampleTimBeacon 0x0100#16
  rw [updates_of_tim (bytesAt_write _ _ _) (by decide)] at hupdates
  exact absurd hupdates (by decide)

end TimBeacon

end Rtl8188eu
