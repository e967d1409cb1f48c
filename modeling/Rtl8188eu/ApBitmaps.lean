import Rtl8188eu.ApStations

/-!
# The bitmaps of sleeping stations

`sta_dz_bitmap` has the bits of the stations that sleep, `tim_bitmap` those of the stations with
frames that wait. Both have 16 bits, one for each association id up to 15, and bit 0 is for group
frames. When a beacon is sent, the group frames move on to the device, and bit 0 stays until the
queue of the device is empty.

The ids in the records choose the bits, so the bitmaps are right as long as only stations with an
id fall asleep, and none of them loses its id. A record that never got an id has the id 0, which
is the bit of the group frames (`ApCall.BitSafe`).
-/

set_option linter.unusedSectionVars false

namespace Rtl8188eu

open LiteralIndex

open LinkedLists Runs

/-! ## Bits -/

theorem getLsbD_bit16 (n i : ℕ) : (bit16 n).getLsbD i = decide (i = n ∧ i < 16) := by
  unfold bit16
  rw [BitVec.getLsbD_shiftLeft, BitVec.getLsbD_one]
  by_cases h : i = n ∧ i < 16
  · simp [h]
  · rw [decide_eq_false h]
    by_cases hi : i < 16
    · have hne : i ≠ n := fun he => h ⟨he, hi⟩
      rcases Nat.lt_or_ge i n with hlt | hge
      · simp [hlt]
      · simp [show i - n ≠ 0 by omega]
    · simp [hi]

theorem getLsbD_setBit (x : BitVec 16) (n i : ℕ) :
    (x ||| bit16 n).getLsbD i = (x.getLsbD i || decide (i = n ∧ i < 16)) := by
  rw [BitVec.getLsbD_or, getLsbD_bit16]

theorem getLsbD_clearBit (x : BitVec 16) (n i : ℕ) :
    (x &&& ~~~bit16 n).getLsbD i = (x.getLsbD i && decide (i ≠ n)) := by
  rw [BitVec.getLsbD_and, BitVec.getLsbD_not, getLsbD_bit16]
  by_cases hi : i < 16
  · simp [hi]
  · simp [BitVec.getLsbD_of_ge x i (by omega)]

theorem and_bit16_ne_zero (x : BitVec 16) {i : ℕ} (hi : i < 16) :
    x &&& bit16 i ≠ 0 ↔ x.getLsbD i = true := by
  constructor
  · intro h
    by_contra hbit
    refine h (BitVec.eq_of_getLsbD_eq fun j hj => ?_)
    rw [BitVec.getLsbD_and, getLsbD_bit16]
    by_cases hji : j = i
    · subst hji
      simp [hbit]
    · simp [hji]
  · intro h h0
    have hbit := congrArg (fun y => y.getLsbD i) h0
    simp only [BitVec.getLsbD_and, getLsbD_bit16, h] at hbit
    simp [hi] at hbit

/-! ## The invariant -/

/-- What a call must find for the bitmaps to stay right. -/
def ApCall.BitSafe (c : ApCall) : Prop :=
  (c.op = .stop → c.aid ≠ 0 ∧ c.group = false) ∧
    (c.op = .wakeup → c.group = false) ∧
    (c.op = .reject → c.asleep = false) ∧
    (c.op = .free → c.group = false ∧ (c.aid = 0 → c.bit0 = false))

namespace Ap

variable {ι : Type} [DecidableEq ι] {s s' : Ap ι} {k j b : StaId} {auth : Bool}

/-- The bitmaps and the records of the stations agree. -/
structure Bitmaps (s : Ap ι) : Prop where
  bcmc : ∃ b, s.bcmc = some b
  listed : AidsListed s
  sleeping : ∀ a, 1 ≤ a → a ≤ 15 →
    (s.staDzBitmap.getLsbD a = true ↔ ∃ k, s.Live k ∧ (s.sta k).aid = a ∧ (s.sta k).asleep = true)
  asleep : ∀ k, s.Live k → (s.sta k).asleep = true → 0 < (s.sta k).aid ∧ s.group k = false
  assoc : ∀ k, s.Live k → 0 < (s.sta k).aid → (s.sta k).assocSuccess = true
  waiting : ∀ b, s.bcmc = some b →
    (s.timBitmap.getLsbD 0 = true ↔ (s.sta b).sleepQ ≠ [] ∨ s.inHiq = true)
  queued : ∀ k, s.Live k → (s.sta k).sleepQ ≠ [] → (s.sta k).asleep = true ∨ s.bcmc = some k

/-- The broadcast station has a group address. -/
theorem group_bcmc (h : s.bcmc = some b) : s.group b = true := by
  have hp := List.find?_some h
  have haddr : (s.base.sta b).hwaddr = bcAddr := by simpa using hp
  rw [group, haddr]
  decide

theorem group_congr (h : Adapter.SameStations s.base s'.base) : s'.group k = s.group k := by
  rw [group, group, h.hwaddr]

/-- No record changes in its id and in the bits of the properties, and no bit of a station
changes. -/
theorem Bitmaps.congr (h : Bitmaps s) (hst : Adapter.SameStations s.base s'.base)
    (hrec : ∀ k, (s'.sta k).aid = (s.sta k).aid ∧ getElem (s'.sta k).state 2 sleepBit_lt = getElem (s.sta k).state 2 sleepBit_lt ∧
      getElem (s'.sta k).state 14 assocBit_lt = getElem (s.sta k).state 14 assocBit_lt)
    (htable : s'.staAid = s.staAid)
    (hdz : ∀ a, 1 ≤ a → s'.staDzBitmap.getLsbD a = s.staDzBitmap.getLsbD a)
    (hwait : ∀ b, s.bcmc = some b →
      (s'.timBitmap.getLsbD 0 = true ↔ (s'.sta b).sleepQ ≠ [] ∨ s'.inHiq = true))
    (hq : ∀ k, s.Live k → (s'.sta k).sleepQ ≠ [] → (s.sta k).asleep = true ∨ s.bcmc = some k) :
    Bitmaps s' := by
  have haid : ∀ k, (s'.sta k).aid = (s.sta k).aid := fun k => (hrec k).1
  have hasleep : ∀ k, (s'.sta k).asleep = (s.sta k).asleep := fun k => by
    rw [ApSta.asleep_eq, ApSta.asleep_eq, (hrec k).2.1]
  have hassoc : ∀ k, (s'.sta k).assocSuccess = (s.sta k).assocSuccess := fun k => by
    rw [ApSta.assocSuccess_eq, ApSta.assocSuccess_eq, (hrec k).2.2]
  have hlive : ∀ k, s'.Live k ↔ s.Live k := fun k => live_congr hst
  refine ⟨?_, fun k hk => ?_, fun a ha ha' => ?_, fun k hk hs => ?_, fun k hk hpos => ?_, ?_,
    fun k hk hne => ?_⟩
  · rw [bcmc_congr hst]
    exact h.bcmc
  · rw [haid] at hk
    rw [haid, htable]
    exact h.listed k hk
  · rw [hdz a ha, h.sleeping a ha ha']
    simp only [hlive, haid, hasleep]
  · rw [hlive] at hk
    rw [hasleep] at hs
    rw [haid, group_congr hst]
    exact h.asleep k hk hs
  · rw [hlive] at hk
    rw [haid] at hpos
    rw [hassoc]
    exact h.assoc k hk hpos
  · rw [bcmc_congr hst]
    exact hwait
  · rw [hlive] at hk
    rw [hasleep, bcmc_congr hst]
    exact hq k hk hne

/-- One record changes, but not in its id and in the bits of the properties. -/
theorem Bitmaps.record (h : Bitmaps s) {st : ApSta} (hb : s'.base = s.base)
    (hsta : s'.sta = Function.update s.sta k st) (haid : st.aid = (s.sta k).aid)
    (h2 : getElem st.state 2 sleepBit_lt = getElem (s.sta k).state 2 sleepBit_lt) (h14 : getElem st.state 14 assocBit_lt = getElem (s.sta k).state 14 assocBit_lt)
    (htable : s'.staAid = s.staAid)
    (hdz : ∀ a, 1 ≤ a → s'.staDzBitmap.getLsbD a = s.staDzBitmap.getLsbD a)
    (hwait : ∀ b, s.bcmc = some b →
      (s'.timBitmap.getLsbD 0 = true ↔ (s'.sta b).sleepQ ≠ [] ∨ s'.inHiq = true))
    (hq : s.Live k → st.sleepQ ≠ [] → (s.sta k).asleep = true ∨ s.bcmc = some k) : Bitmaps s' := by
  refine h.congr (hb ▸ Adapter.SameStations.refl _) (fun j => ?_) htable hdz hwait
    fun j hj hne => ?_
  · rw [hsta]
    rcases eq_or_ne j k with rfl | hj
    · rw [Function.update_self]
      exact ⟨haid, h2, h14⟩
    · rw [Function.update_of_ne hj]
      exact ⟨rfl, rfl, rfl⟩
  · rw [hsta] at hne
    rcases eq_or_ne j k with rfl | hjk
    · rw [Function.update_self] at hne
      exact hq hj hne
    · rw [Function.update_of_ne hjk] at hne
      exact h.queued j hj hne

/-- One record changes, and bit 0 and the queue of the broadcast station stay. -/
theorem Bitmaps.keep (h : Bitmaps s) {st : ApSta} (hb : s'.base = s.base)
    (hsta : s'.sta = Function.update s.sta k st) (haid : st.aid = (s.sta k).aid)
    (h2 : getElem st.state 2 sleepBit_lt = getElem (s.sta k).state 2 sleepBit_lt) (h14 : getElem st.state 14 assocBit_lt = getElem (s.sta k).state 14 assocBit_lt)
    (htable : s'.staAid = s.staAid) (hdz : s'.staDzBitmap = s.staDzBitmap)
    (htim : s'.timBitmap.getLsbD 0 = s.timBitmap.getLsbD 0) (hhiq : s'.inHiq = s.inHiq)
    (hbc : s.bcmc = some k → st.sleepQ = (s.sta k).sleepQ)
    (hq : s.Live k → st.sleepQ ≠ [] → (s.sta k).asleep = true ∨ s.bcmc = some k) : Bitmaps s' := by
  refine h.record hb hsta haid h2 h14 htable (fun a _ => by rw [hdz]) (fun b hbb => ?_) hq
  have hsq : (s'.sta b).sleepQ = (s.sta b).sleepQ := by
    rw [hsta]
    rcases eq_or_ne b k with rfl | hne
    · rw [Function.update_self, hbc hbb]
    · rw [Function.update_of_ne hne]
  rw [htim, hsq, hhiq]
  exact h.waiting b hbb

/-- A station that sleeps is not the broadcast station. -/
theorem Bitmaps.ne_bcmc (h : Bitmaps s) (hlive : s.Live k) (hs : (s.sta k).asleep = true) :
    s.bcmc ≠ some k := by
  intro hbc
  have hgroup := (h.asleep k hlive hs).2
  rw [group_bcmc hbc] at hgroup
  simp at hgroup

/-- The queue of the broadcast station and bit 0 change. -/
theorem Bitmaps.groupQueue (h : Bitmaps s) {st : ApSta} (hbc : s.bcmc = some k)
    (hb : s'.base = s.base) (hsta : s'.sta = Function.update s.sta k st)
    (haid : st.aid = (s.sta k).aid) (hstate : st.state = (s.sta k).state)
    (htable : s'.staAid = s.staAid)
    (hdz : ∀ a, 1 ≤ a → s'.staDzBitmap.getLsbD a = s.staDzBitmap.getLsbD a)
    (hwait : s'.timBitmap.getLsbD 0 = true ↔ st.sleepQ ≠ [] ∨ s'.inHiq = true) : Bitmaps s' := by
  refine h.record hb hsta haid (by rw [hstate]) (by rw [hstate]) htable hdz (fun b hbb => ?_)
    fun _ _ => Or.inr hbc
  obtain rfl : k = b := Option.some.inj (hbc.symm.trans hbb)
  rw [hsta, Function.update_self]
  exact hwait

/-- A station falls asleep or wakes up, and its bit follows. -/
theorem Bitmaps.toggle (h : Bitmaps s) {st : ApSta} (hlive : s.Live k) (hpos : 0 < (s.sta k).aid)
    (hgroup : s.group k = false) (hb : s'.base = s.base)
    (hsta : s'.sta = Function.update s.sta k st) (haid : st.aid = (s.sta k).aid)
    (h14 : getElem st.state 14 assocBit_lt = getElem (s.sta k).state 14 assocBit_lt) (htable : s'.staAid = s.staAid)
    (hdz : ∀ a, 1 ≤ a → a ≤ 15 → s'.staDzBitmap.getLsbD a =
      if a = (s.sta k).aid then st.asleep else s.staDzBitmap.getLsbD a)
    (htim : s'.timBitmap.getLsbD 0 = s.timBitmap.getLsbD 0) (hhiq : s'.inHiq = s.inHiq)
    (hq : st.sleepQ ≠ [] → st.asleep = true) : Bitmaps s' := by
  have hl : ∀ j, s'.Live j ↔ s.Live j := fun j => by rw [Live, Live, hb]
  have hbc : s'.bcmc = s.bcmc := by rw [Ap.bcmc, Ap.bcmc, hb]
  have hself : s'.sta k = st := by rw [hsta, Function.update_self]
  have hother : ∀ j, j ≠ k → s'.sta j = s.sta j := fun j hj => by
    rw [hsta, Function.update_of_ne hj]
  have hnot : s.bcmc ≠ some k := by
    intro hk
    rw [group_bcmc hk] at hgroup
    simp at hgroup
  have haids : ∀ j, (s'.sta j).aid = (s.sta j).aid := by
    intro j
    rcases eq_or_ne j k with rfl | hj
    · rw [hself, haid]
    · rw [hother j hj]
  refine ⟨?_, fun j hj => ?_, fun a ha ha' => ?_, fun j hj hs => ?_, fun j hj hp => ?_,
    fun b hbb => ?_, fun j hj hne => ?_⟩
  · rw [hbc]
    exact h.bcmc
  · rw [haids] at hj
    rw [haids, htable]
    exact h.listed j hj
  · rw [hdz a ha ha']
    split
    · rename_i hak
      constructor
      · intro hs
        exact ⟨k, (hl k).mpr hlive, by rw [haids, hak], by rw [hself, hs]⟩
      · rintro ⟨j, hj, hja, hs⟩
        rw [haids] at hja
        obtain rfl : j = k := h.listed.injective (by omega) (by omega)
        rw [hself] at hs
        exact hs
    · rename_i hak
      rw [h.sleeping a ha ha']
      constructor
      · rintro ⟨j, hj, hja, hs⟩
        have hjk : j ≠ k := by
          rintro rfl
          exact hak hja.symm
        exact ⟨j, (hl j).mpr hj, by rw [haids, hja], by rw [hother j hjk, hs]⟩
      · rintro ⟨j, hj, hja, hs⟩
        rw [haids] at hja
        have hjk : j ≠ k := by
          rintro rfl
          exact hak hja.symm
        rw [hother j hjk] at hs
        exact ⟨j, (hl j).mp hj, hja, hs⟩
  · rw [hl] at hj
    rw [haids, group, hb]
    rcases eq_or_ne j k with rfl | hjk
    · exact ⟨hpos, hgroup⟩
    · rw [hother j hjk] at hs
      exact h.asleep j hj hs
  · rw [hl] at hj
    rw [haids] at hp
    have hassoc := h.assoc j hj hp
    rcases eq_or_ne j k with rfl | hjk
    · rw [hself, ApSta.assocSuccess_eq, h14, ← ApSta.assocSuccess_eq]
      exact hassoc
    · rw [hother j hjk]
      exact hassoc
  · rw [hbc] at hbb
    have hbk : b ≠ k := by
      rintro rfl
      exact hnot hbb
    rw [htim, hhiq, hother b hbk]
    exact h.waiting b hbb
  · rw [hl] at hj
    rw [hbc]
    rcases eq_or_ne j k with rfl | hjk
    · rw [hself] at hne ⊢
      exact Or.inl (hq hne)
    · rw [hother j hjk] at hne ⊢
      exact h.queued j hj hne

/-- A station that does not sleep gets another id, or a station keeps its id. -/
theorem Bitmaps.newAid (h : Bitmaps s) {st : ApSta} (hst : Adapter.SameStations s.base s'.base)
    (hsta : s'.sta = Function.update s.sta k st) (h2 : getElem st.state 2 sleepBit_lt = getElem (s.sta k).state 2 sleepBit_lt)
    (hsq : st.sleepQ = (s.sta k).sleepQ) (haid : (s.sta k).asleep = true → st.aid = (s.sta k).aid)
    (hassoc : 0 < st.aid → getElem st.state 14 assocBit_lt = true) (hlisted : AidsListed s')
    (hdz : s'.staDzBitmap = s.staDzBitmap) (htim : s'.timBitmap = s.timBitmap)
    (hhiq : s'.inHiq = s.inHiq) : Bitmaps s' := by
  have hl : ∀ j, s'.Live j ↔ s.Live j := fun j => live_congr hst
  have hself : s'.sta k = st := by rw [hsta, Function.update_self]
  have hother : ∀ j, j ≠ k → s'.sta j = s.sta j := fun j hj => by
    rw [hsta, Function.update_of_ne hj]
  have hasleep : ∀ j, (s'.sta j).asleep = (s.sta j).asleep := by
    intro j
    rcases eq_or_ne j k with rfl | hj
    · rw [hself, ApSta.asleep_eq, ApSta.asleep_eq, h2]
    · rw [hother j hj]
  have hqueue : ∀ j, (s'.sta j).sleepQ = (s.sta j).sleepQ := by
    intro j
    rcases eq_or_ne j k with rfl | hj
    · rw [hself, hsq]
    · rw [hother j hj]
  have haids : ∀ j, (s.sta j).asleep = true → (s'.sta j).aid = (s.sta j).aid := by
    intro j hs
    rcases eq_or_ne j k with rfl | hj
    · rw [hself, haid hs]
    · rw [hother j hj]
  refine ⟨?_, hlisted, fun a ha ha' => ?_, fun j hj hs => ?_, fun j hj hp => ?_, fun b hb => ?_,
    fun j hj hne => ?_⟩
  · rw [bcmc_congr hst]
    exact h.bcmc
  · rw [hdz, h.sleeping a ha ha']
    constructor
    · rintro ⟨j, hj, hja, hs⟩
      exact ⟨j, (hl j).mpr hj, by rw [haids j hs, hja], by rw [hasleep, hs]⟩
    · rintro ⟨j, hj, hja, hs⟩
      rw [hasleep] at hs
      rw [haids j hs] at hja
      exact ⟨j, (hl j).mp hj, hja, hs⟩
  · rw [hl] at hj
    rw [hasleep] at hs
    rw [haids j hs, group_congr hst]
    exact h.asleep j hj hs
  · rw [hl] at hj
    rcases eq_or_ne j k with rfl | hjk
    · rw [hself] at hp ⊢
      rw [ApSta.assocSuccess_eq]
      exact hassoc hp
    · rw [hother j hjk] at hp ⊢
      exact h.assoc j hj hp
  · rw [bcmc_congr hst] at hb
    rw [htim, hhiq, hqueue]
    exact h.waiting b hb
  · rw [hl] at hj
    rw [hqueue] at hne
    rw [hasleep, bcmc_congr hst]
    exact h.queued j hj hne

theorem bitmaps_alloc (hw : WellFormed s) (h : Bitmaps s) {a : MacAddr}
    (ha : s.rtwAllocStainfo a = (some k, s')) (hlisted : AidsListed s') : Bitmaps s' := by
  have hdead := hw.not_live_alloc ha
  have hl : ∀ j, s'.Live j ↔ s.Live j ∨ j = k := fun j => live_alloc ha
  obtain ⟨b, hb⟩ := h.bcmc
  have hb' := hw.bcmc_alloc ha hb
  obtain ⟨base, hbase, he⟩ := alloc_eq ha
  obtain ⟨rest, -, -, -, hrec, -⟩ := Adapter.rtwAllocStainfo_eq hbase
  have hself : s'.sta k = initApSta := by
    rw [he]
    simp [Ap.record, updateSta]
  have hother : ∀ j, j ≠ k → s'.sta j = s.sta j := by
    intro j hj
    rw [he]
    simp [Ap.record, updateSta, hj]
  have hgroup : ∀ j, j ≠ k → s'.group j = s.group j := by
    intro j hj
    rw [he, group, group]
    simp [Ap.record, updateSta, hrec, hj]
  have hdz : s'.staDzBitmap = s.staDzBitmap := by rw [he]; rfl
  have htim : s'.timBitmap = s.timBitmap := by rw [he]; rfl
  have hhiq : s'.inHiq = s.inHiq := by rw [he]; rfl
  refine ⟨⟨b, hb'⟩, hlisted, fun a ha ha' => ?_, fun j hj hs => ?_, fun j hj hp => ?_,
    fun c hc => ?_, fun j hj hne => ?_⟩
  · rw [hdz, h.sleeping a ha ha']
    constructor
    · rintro ⟨j, hj, hja, hs⟩
      have hjk : j ≠ k := by
        rintro rfl
        exact hdead hj
      exact ⟨j, (hl j).mpr (Or.inl hj), by rw [hother j hjk, hja], by rw [hother j hjk, hs]⟩
    · rintro ⟨j, hj, hja, hs⟩
      rcases eq_or_ne j k with rfl | hjk
      · rw [hself] at hja
        simp [initApSta] at hja
        omega
      · rw [hother j hjk] at hja hs
        exact ⟨j, ((hl j).mp hj).resolve_right hjk, hja, hs⟩
  · rcases eq_or_ne j k with rfl | hjk
    · rw [hself] at hs
      simp [ApSta.asleep_eq, initApSta] at hs
    · rw [hother j hjk] at hs ⊢
      rw [hgroup j hjk]
      exact h.asleep j (((hl j).mp hj).resolve_right hjk) hs
  · rcases eq_or_ne j k with rfl | hjk
    · rw [hself] at hp
      simp [initApSta] at hp
    · rw [hother j hjk] at hp ⊢
      exact h.assoc j (((hl j).mp hj).resolve_right hjk) hp
  · obtain rfl : b = c := Option.some.inj (hb'.symm.trans hc)
    have hbk : b ≠ k := by
      rintro rfl
      exact hdead (live_of_get hb)
    rw [htim, hhiq, hother b hbk]
    exact h.waiting b hb
  · rcases eq_or_ne j k with rfl | hjk
    · rw [hself] at hne
      simp [initApSta] at hne
    · rw [hother j hjk] at hne ⊢
      rw [hb', ← hb]
      exact h.queued j (((hl j).mp hj).resolve_right hjk) hne

/-- What a freed record does to the bits. -/
theorem free_bits (s : Ap ι) (k : StaId) (i : ℕ) :
    (s.rtwFreeStainfo k).staDzBitmap.getLsbD i
        = (s.staDzBitmap.getLsbD i && decide (i ≠ (s.sta k).aid)) ∧
      (s.rtwFreeStainfo k).timBitmap.getLsbD i
        = (s.timBitmap.getLsbD i && decide (i ≠ (s.sta k).aid)) := by
  simp only [rtwFreeStainfo]
  exact ⟨getLsbD_clearBit .., getLsbD_clearBit ..⟩

/-- Bit 0 stays clear, or it is not the bit of the record. -/
theorem free_bit0 (h0 : (s.sta k).aid = 0 → s.bit0 = false) :
    (s.rtwFreeStainfo k).staDzBitmap.getLsbD 0 = s.staDzBitmap.getLsbD 0 ∧
      (s.rtwFreeStainfo k).timBitmap.getLsbD 0 = s.timBitmap.getLsbD 0 := by
  obtain ⟨hdz, htim⟩ := s.free_bits k 0
  rw [hdz, htim]
  by_cases hk : (s.sta k).aid = 0
  · have hbit := h0 hk
    rw [bit0, decide_eq_false_iff_not, not_or, and_bit16_ne_zero _ (by omega),
      and_bit16_ne_zero _ (by omega)] at hbit
    simp only [Bool.not_eq_true] at hbit
    rw [hbit.1, hbit.2]
    exact ⟨rfl, rfl⟩
  · have hne : (0 : ℕ) ≠ (s.sta k).aid := fun he => hk he.symm
    rw [decide_eq_true hne, Bool.and_true, Bool.and_true]
    exact ⟨rfl, rfl⟩

theorem bitmaps_free (h : Bitmaps s) (hgroup : s.group k = false)
    (h0 : (s.sta k).aid = 0 → s.bit0 = false) (hlisted : AidsListed (s.rtwFreeStainfo k)) :
    Bitmaps (s.rtwFreeStainfo k) := by
  obtain ⟨b, hb⟩ := h.bcmc
  have hbk : b ≠ k := by
    rintro rfl
    rw [group_bcmc hb] at hgroup
    simp at hgroup
  have hb' := bcmc_free hb hbk
  obtain ⟨n, hsta⟩ := s.sta_free k
  have hother : ∀ j, j ≠ k → (s.rtwFreeStainfo k).sta j = s.sta j := fun j hj => by
    rw [hsta, Function.update_of_ne hj]
  have hhiq : (s.rtwFreeStainfo k).inHiq = s.inHiq := by simp only [rtwFreeStainfo, Ap.record]
  refine ⟨⟨b, hb'⟩, hlisted, fun a ha ha' => ?_, fun j hj hs => ?_, fun j hj hp => ?_,
    fun c hc => ?_, fun j hj hne => ?_⟩
  · rw [(s.free_bits k a).1, Bool.and_eq_true, decide_eq_true_eq, h.sleeping a ha ha']
    constructor
    · rintro ⟨⟨j, hj, hja, hs⟩, hak⟩
      have hjk : j ≠ k := by
        rintro rfl
        exact hak hja.symm
      exact ⟨j, live_free.mpr ⟨hj, hjk⟩, by rw [hother j hjk, hja], by rw [hother j hjk, hs]⟩
    · rintro ⟨j, hj, hja, hs⟩
      obtain ⟨hlj, hjk⟩ := live_free.mp hj
      rw [hother j hjk] at hja hs
      exact ⟨⟨j, hlj, hja, hs⟩, fun hak => hjk (h.listed.injective (by omega) (by omega))⟩
  · obtain ⟨hlj, hjk⟩ := live_free.mp hj
    rw [hother j hjk] at hs ⊢
    have hg : (s.rtwFreeStainfo k).group j = s.group j := by
      rw [group, group, base_free, (s.base.rtwFreeStainfo_fields k).2.2.1]
    rw [hg]
    exact h.asleep j hlj hs
  · obtain ⟨hlj, hjk⟩ := live_free.mp hj
    rw [hother j hjk] at hp ⊢
    exact h.assoc j hlj hp
  · obtain rfl : b = c := Option.some.inj (hb'.symm.trans hc)
    rw [(free_bit0 h0).2, hhiq, hother b hbk]
    exact h.waiting b hb
  · obtain ⟨hlj, hjk⟩ := live_free.mp hj
    rw [hother j hjk] at hne ⊢
    rw [hb', ← hb]
    exact h.queued j hlj hne

/-! ## Every move keeps the bitmaps right -/

theorem bitmaps_stop (h : Bitmaps s) (hlive : s.Live k) (hpos : 0 < (s.sta k).aid)
    (hgroup : s.group k = false) : Bitmaps (s.fallAsleep k) := by
  set st : ApSta := { s.sta k with state := (s.sta k).state ||| wifiSleepState } with hst
  have hsta : (s.fallAsleep k).sta = Function.update s.sta k st := rfl
  have hasleep : st.asleep = true := by
    rw [ApSta.asleep_eq, hst]
    simp [wifiSleepState]
  refine h.toggle hlive hpos hgroup rfl hsta rfl ?_ rfl (fun a ha ha' => ?_) rfl rfl
    fun _ => hasleep
  · rw [hst]
    simp [wifiSleepState]
  · rw [hasleep]
    change (s.staDzBitmap ||| bit16 (s.sta k).aid).getLsbD a = _
    rw [getLsbD_setBit]
    split
    · rename_i hak
      rw [decide_eq_true (show a = (s.sta k).aid ∧ a < 16 by omega), Bool.or_true]
    · rename_i hak
      rw [decide_eq_false (fun hc => hak hc.1), Bool.or_false]

theorem bitmaps_wakeup (hw : WellFormed s) (h : Bitmaps s) (hlive : s.Live k)
    (hs : (s.sta k).asleep = true ∨ (s.sta k).sleepQ ≠ []) (hgroup : s.group k = false) :
    Bitmaps (s.wakeupSta k) := by
  have hasleep : (s.sta k).asleep = true := by
    rcases hs with hs | hs
    · exact hs
    · refine (h.queued k hlive hs).resolve_right fun hbc => ?_
      rw [group_bcmc hbc] at hgroup
      simp at hgroup
  have hpos := (h.asleep k hlive hasleep).1
  obtain ⟨st, v, hcore, h2, -, h14, he⟩ := wakeupSta_eq (hw.counted k)
  obtain ⟨hstate, haid, hq, -, -⟩ := core_eq hcore
  rw [he]
  refine h.toggle hlive hpos hgroup rfl rfl haid (by rw [hstate, h14]) rfl
    (fun a ha ha' => ?_) ?_ rfl
    fun hne => absurd hq hne
  · rw [ApSta.asleep_eq, hstate, h2]
    dsimp only
    rw [getLsbD_clearBit]
    split
    · rename_i hak
      rw [decide_eq_false (not_not.mpr hak), Bool.and_false]
    · rename_i hak
      rw [decide_eq_true hak, Bool.and_true]
  · dsimp only
    rw [getLsbD_clearBit, decide_eq_true (by omega), Bool.and_true]

/-- The bit of a station that has an id is not bit 0. -/
theorem bit0_set {x : BitVec 16} {n : ℕ} (hn : 0 < n) :
    (x ||| bit16 n).getLsbD 0 = x.getLsbD 0 := by
  rw [getLsbD_setBit, decide_eq_false (fun hc => by omega), Bool.or_false]

theorem bit0_clear {x : BitVec 16} {n : ℕ} (hn : 0 < n) :
    (x &&& ~~~bit16 n).getLsbD 0 = x.getLsbD 0 := by
  rw [getLsbD_clearBit, decide_eq_true (by omega), Bool.and_true]

theorem bitmaps_move (hw : WellFormed s) (h : Bitmaps s) (hlog : ∀ c ∈ s'.calls, c.BitSafe)
    (hm : Move auth s s') : Bitmaps s' := by
  have hlisted := aidsListed_move hw h.listed hm
  cases hm with
  | quiet hq =>
    refine h.congr hq.stations (fun k => ?_) hq.staAid (fun a _ => by rw [hq.staDzBitmap])
      (fun b hb => ?_) fun k hk hne => ?_
    · obtain ⟨hstate, haid, -⟩ := core_fields (hq.core k)
      rw [hstate]
      exact ⟨haid, rfl, rfl⟩
    · rw [hq.timBitmap, hq.inHiq, (core_fields (hq.core b)).2.2.1]
      exact h.waiting b hb
    · rw [(core_fields (hq.core k)).2.2.1] at hne
      exact h.queued k hk hne
  | note | authAdd | authDel | class2 =>
    exact h.congr (Adapter.SameStations.refl _) (fun _ => ⟨rfl, rfl, rfl⟩) rfl (fun _ _ => rfl)
      h.waiting h.queued
  | reauth =>
    unfold reauth
    dsimp only
    split
    · exact h.congr (Adapter.SameStations.refl _) (fun _ => ⟨rfl, rfl, rfl⟩) rfl (fun _ _ => rfl)
        h.waiting h.queued
    · exact h.congr (Adapter.SameStations.refl _) (fun _ => ⟨rfl, rfl, rfl⟩) rfl (fun _ _ => rfl)
        h.waiting h.queued
  | @remove k hasoc =>
    obtain ⟨st, hst, hcore, h2, -, h14⟩ := (s.asocUnlink k).apLeave_sta k
    obtain ⟨-, haid, hq, -, -⟩ := core_eq hcore
    have hu : Bitmaps ((s.asocUnlink k).apLeave k) :=
      h.keep rfl hst haid h2 h14 rfl rfl rfl rfl (fun _ => hq)
        fun hk hne => h.queued k hk (hq ▸ hne)
    have hsafe :=
      (hlog (((s.asocUnlink k).apLeave k).callOf .free k) List.mem_cons_self).2.2.2 rfl
    exact bitmaps_free hu hsafe.1 hsafe.2 hlisted
  | alloc ha => exact bitmaps_alloc hw h ha hlisted
  | @free k hlive hasoc =>
    have hsafe := (hlog (s.callOf .free k) List.mem_cons_self).2.2.2 rfl
    exact bitmaps_free h hsafe.1 hsafe.2 hlisted
  | @mark k v hauth hassoc hsleep =>
    refine h.keep rfl rfl rfl ?_ ?_ rfl rfl rfl rfl (fun _ => rfl) fun hk hne => h.queued k hk hne
    · rw [← hasBits_sleep, hsleep, ApSta.asleep_eq]
    · rw [← hasBits_assocSuccess, hassoc, ApSta.assocSuccess_eq]
  | @authDone k clr hlive hclr =>
    refine h.keep rfl rfl rfl ?_ ?_ rfl rfl rfl rfl (fun _ => rfl) fun hk hne => h.queued k hk hne
    · rcases hclr with rfl | rfl
      · simp [wifiFwAuthNull, wifiFwAuthSuccess]
      · simp [wifiFwAuthState, wifiFwAuthSuccess]
    · rcases hclr with rfl | rfl
      · simp [wifiFwAuthNull, wifiFwAuthSuccess]
      · simp [wifiFwAuthState, wifiFwAuthSuccess]
  | @refuse t k hlive hreq =>
    obtain ⟨c, hc⟩ := hreq.refused
    obtain ⟨st, hsta, hcore, h2, -⟩ := hc.sta
    obtain ⟨-, haid, hq, -, -⟩ := core_eq hcore
    have hawake : (s.sta k).asleep = false := by
      rw [← hc.asleep]
      refine (hlog c ?_).2.2.1 hc.op
      rw [hc.calls]
      exact List.mem_cons_self
    refine h.newAid hc.tables.stations hsta h2 hq (fun hs => ?_) (fun hp => ?_) hlisted
      hc.bits.staDzBitmap hc.bits.timBitmap hc.bits.inHiq
    · rw [hawake] at hs
      simp at hs
    · omega
  | @accept t k hlive hreq hroom =>
    obtain ⟨a, ha⟩ := hreq.accepted hroom
    obtain ⟨st, hsta, hcore, h2, -, h14⟩ := ha.sta
    obtain ⟨-, haid, hq, -, -⟩ := core_eq hcore
    refine h.newAid ha.stations hsta h2 hq (fun hs => ?_) (fun _ => h14) hlisted ha.bits.staDzBitmap
      ha.bits.timBitmap ha.bits.inHiq
    have hpos := (h.asleep k hlive hs).1
    rcases ha.staAid with ⟨-, hold, -⟩ | ⟨hzero, -⟩
    · rw [haid, hold]
    · omega
  | @stop k hlive =>
    have hsafe := (hlog (s.callOf .stop k) List.mem_cons_self).1 rfl
    exact bitmaps_stop h hlive (Nat.pos_of_ne_zero hsafe.1) hsafe.2
  | @buffer k f hlive hasleep =>
    have hpos := (h.asleep k hlive hasleep).1
    refine h.keep rfl rfl rfl rfl rfl rfl rfl ?_ rfl
      (fun hbc => absurd hbc (h.ne_bcmc hlive hasleep)) fun _ _ => Or.inl hasleep
    unfold Ap.buffer
    dsimp only
    split
    · exact bit0_set hpos
    · rfl
  | @bufferGroup k f hbc =>
    refine h.groupQueue hbc rfl rfl rfl rfl rfl (fun a ha => ?_) ?_
    · change (s.staDzBitmap ||| bit16 0).getLsbD a = _
      rw [getLsbD_setBit, decide_eq_false (fun hc => by omega), Bool.or_false]
    · change (s.timBitmap ||| bit16 0).getLsbD 0 = true ↔ _
      rw [getLsbD_setBit]
      simp
  | @setPending k q l hl =>
    exact h.keep rfl rfl rfl rfl rfl rfl rfl rfl rfl (fun _ => rfl) fun hk hne => h.queued k hk hne
  | @wakeup k hlive hs =>
    have hmem : s.callOf .wakeup k ∈ (s.wakeupSta k).calls := by
      obtain ⟨st, v, -, -, -, -, he⟩ := wakeupSta_eq (hw.counted k)
      rw [he]
      exact List.mem_cons_self
    exact bitmaps_wakeup hw h hlive hs ((hlog _ hmem).2.1 rfl)
  | wakeupGroup =>
    rcases wakeupGroup_cases hw with he | ⟨b, st, hb, -, hcore, he⟩
    · rw [he]
      exact h
    · obtain ⟨hstate, haid, hq, -, -⟩ := core_eq hcore
      rw [he]
      refine h.groupQueue hb rfl rfl haid hstate rfl (fun a ha => ?_) ?_
      · change (s.staDzBitmap &&& ~~~bit16 0).getLsbD a = _
        rw [getLsbD_clearBit, decide_eq_true (by omega), Bool.and_true]
      · change (s.timBitmap &&& ~~~bit16 0).getLsbD 0 = true ↔ st.sleepQ ≠ [] ∨ false = true
        rw [getLsbD_clearBit, hq]
        simp
  | @deliver k hlive hasleep =>
    have hpos := (h.asleep k hlive hasleep).1
    obtain ⟨st, q, clr, hcore, he⟩ := xmitDeliveryEnabledFrames_eq (hw.counted k)
    obtain ⟨hstate, haid, -⟩ := core_eq hcore
    rw [he]
    refine h.keep rfl rfl haid (by rw [hstate]) (by rw [hstate]) rfl rfl ?_ rfl
      (fun hbc => absurd hbc (h.ne_bcmc hlive hasleep)) fun _ _ => Or.inl hasleep
    dsimp only
    split
    · exact bit0_clear hpos
    · rfl
  | @psPoll k priority hlive =>
    rcases psPoll_cases (hw.counted k) priority with
      he | ⟨st, v, q, tim, hcore, h2, -, h14, hne, htim, he⟩
    · rw [he]
      exact h
    · obtain ⟨hstate, haid, hq, -, -⟩ := core_eq hcore
      rw [he]
      -- only a sleeping station gets a frame
      cases hs : (s.sta k).asleep with
      | true =>
        have hpos := (h.asleep k hlive hs).1
        refine h.keep rfl rfl haid (by rw [hstate, h2]) (by rw [hstate, h14]) rfl rfl ?_ rfl
          (fun hbc => absurd hbc (h.ne_bcmc hlive hs)) fun _ _ => Or.inl hs
        rcases htim with htim | ⟨-, htim⟩
        · rw [htim]
        · rw [htim]
          exact bit0_clear hpos
      | false =>
        have hsame := hne hs
        have htim' : tim = s.timBitmap := by
          rcases htim with htim | ⟨hs', -⟩
          · exact htim
          · simp [hs] at hs'
        refine h.keep rfl rfl haid (by rw [hstate, h2]) (by rw [hstate, h14]) rfl rfl ?_ rfl
          (fun _ => by rw [hq, hsame]) fun hk hne' => ?_
        · rw [htim']
        · rw [hq, hsame] at hne'
          exact h.queued k hk hne'
  | @aliveChk k hlive hasleep =>
    have hpos := (h.asleep k hlive hasleep).1
    refine h.keep rfl rfl rfl ?_ ?_ rfl rfl (bit0_set hpos) rfl
      (fun hbc => absurd hbc (h.ne_bcmc hlive hasleep)) fun _ _ => Or.inl hasleep
    · simp [Ap.record, wifiStaAliveChkState]
    · simp [Ap.record, wifiStaAliveChkState]
  | txBeacon =>
    rcases txBeaconHdl_cases hw with he | ⟨b, st, hb, hbit, -, hcore, he⟩
    · rw [he]
      exact h
    · obtain ⟨hstate, haid, -⟩ := core_eq hcore
      rw [he]
      refine h.groupQueue hb rfl rfl haid hstate rfl (fun _ _ => rfl) ?_
      rw [and_bit16_ne_zero _ (by omega)] at hbit
      simp [hbit]
  | hiQueue =>
    rcases rtwChkHiQueueHdl_cases hw _ with he | ⟨b, hb, hq, he⟩
    · rw [he]
      exact h
    · rw [he]
      refine h.congr (Adapter.SameStations.refl _) (fun _ => ⟨rfl, rfl, rfl⟩) rfl (fun a ha => ?_)
        (fun c hc => ?_) h.queued
      · change (s.staDzBitmap &&& ~~~bit16 0).getLsbD a = _
        rw [getLsbD_clearBit, decide_eq_true (by omega), Bool.and_true]
      · obtain rfl : b = c := Option.some.inj (hb.symm.trans hc)
        change (s.timBitmap &&& ~~~bit16 0).getLsbD 0 = true ↔ (s.sta b).sleepQ ≠ [] ∨ false = true
        rw [getLsbD_clearBit, hq]
        simp

/-- What the two bitmaps say about the stations, and what allocation and release do to them. -/
structure BitmapsRight (s : Ap ι) : Prop where
  sleeping : ∀ a, 1 ≤ a → a ≤ 15 → (s.staDzBitmap.getLsbD a = true ↔
    ∃ k, s.Live k ∧ (s.sta k).assocSuccess = true ∧ (s.sta k).aid = a ∧ (s.sta k).asleep = true)
  waiting : ∀ b, s.bcmc = some b →
    (s.timBitmap.getLsbD 0 = true ↔ (s.sta b).sleepQ ≠ [] ∨ s.inHiq = true)
  alloc : ∀ a k s', s.rtwAllocStainfo a = (some k, s') →
    s'.staDzBitmap = s.staDzBitmap ∧ s'.timBitmap = s.timBitmap
  free : ∀ k, ((s.sta k).aid = 0 → s.bit0 = false) →
    ∀ s', s' = s.rtwFreeStainfo k ∨ s' = s.expireFree k →
      (∀ i, i = 0 ∨ (∃ j, s.Live j ∧ j ≠ k ∧ 0 < (s.sta j).aid ∧ (s.sta j).aid = i) →
        s'.staDzBitmap.getLsbD i = s.staDzBitmap.getLsbD i ∧
          s'.timBitmap.getLsbD i = s.timBitmap.getLsbD i)

/-- `ap_free_sta` clears the bits that `rtw_free_stainfo` clears. -/
theorem expireFree_bitmaps (s : Ap ι) (k : StaId) :
    (s.expireFree k).staDzBitmap = (s.rtwFreeStainfo k).staDzBitmap ∧
      (s.expireFree k).timBitmap = (s.rtwFreeStainfo k).timBitmap := by
  obtain ⟨st, hst, hcore, -⟩ := (s.asocUnlink k).apLeave_sta k
  have haid : (((s.asocUnlink k).apLeave k).sta k).aid = (s.sta k).aid := by
    rw [hst, Function.update_self]
    exact (core_eq hcore).2.1
  simp only [expireFree, apFreeSta, rtwFreeStainfo, haid]
  exact ⟨rfl, rfl⟩

theorem Bitmaps.right (h : Bitmaps s) : BitmapsRight s := by
  refine ⟨fun a ha ha' => ?_, h.waiting, fun a k s' ha => ?_, fun k h0 s' hs i hi => ?_⟩
  · rw [h.sleeping a ha ha']
    constructor
    · rintro ⟨k, hk, hka, hs⟩
      exact ⟨k, hk, h.assoc k hk (by omega), hka, hs⟩
    · rintro ⟨k, hk, -, hka, hs⟩
      exact ⟨k, hk, hka, hs⟩
  · obtain ⟨base, -, rfl⟩ := alloc_eq ha
    exact ⟨rfl, rfl⟩
  · have hfree : s'.staDzBitmap = (s.rtwFreeStainfo k).staDzBitmap ∧
        s'.timBitmap = (s.rtwFreeStainfo k).timBitmap := by
      rcases hs with rfl | rfl
      · exact ⟨rfl, rfl⟩
      · exact s.expireFree_bitmaps k
    rw [hfree.1, hfree.2]
    rcases hi with rfl | ⟨j, -, hjk, hpos, rfl⟩
    · exact free_bit0 h0
    · obtain ⟨hdz, htim⟩ := s.free_bits k (s.sta j).aid
      have hne : (s.sta j).aid ≠ (s.sta k).aid := fun he => hjk (h.listed.injective hpos he)
      rw [hdz, htim, decide_eq_true hne, Bool.and_true, Bool.and_true]
      exact ⟨rfl, rfl⟩

end Ap

instance (c : ApCall) : Decidable c.BitSafe := by
  unfold ApCall.BitSafe
  infer_instance

namespace Ap

variable {s t : Ap RecvId} {es : List ApEvent}

/-- As long as only stations with an id fall asleep and none of them loses its id, the bitmaps
describe the stations after every run. -/
theorem bitmapsRight_apRun (hs : Started s) (hrun : runM apStep s es = some t)
    (hlog : ∀ c ∈ t.calls, c.BitSafe) : BitmapsRight t := by
  have h0 : Bitmaps s := by
    refine ⟨hs.bcmc, fun k hk => ?_, fun a ha ha' => ?_, fun k _ hk => ?_, fun k _ hk => ?_,
      fun b _ => ?_, fun k _ hk => ?_⟩
    · rw [hs.sta] at hk
      simp [initApSta] at hk
    · rw [hs.staDzBitmap]
      simp [hs.sta, initApSta, ApSta.asleep_eq]
    · rw [hs.sta] at hk
      simp [initApSta, ApSta.asleep_eq] at hk
    · rw [hs.sta] at hk
      simp [initApSta] at hk
    · rw [hs.timBitmap, hs.sta, hs.inHiq]
      simp [initApSta]
    · rw [hs.sta] at hk
      simp [initApSta] at hk
  have h : Bitmaps t := invariant_apRun (I := Bitmaps) hs h0
    (fun u v hw hu hP hm => bitmaps_move hw hu hP hm) hrun hlog
  exact h.right

/-- A group frame is kept for a sleeping station, and the beacon takes it along. -/
def sampleBeacon : List ApEvent :=
  sampleJoin ++ [.rx (sampleNull Adapter.sampleTa true), .xmit bcAddr 0 false, .txBeacon]

/-- Before the beacon, the station sleeps and a group frame waits. -/
theorem bitmapsRight_sampleJoin :
    ∃ t, runM apStep sampleAp (sampleJoin ++ [.rx (sampleNull Adapter.sampleTa true),
        .xmit bcAddr 0 false]) = some t ∧ (t.sta 1).aid = 1 ∧ (t.sta 1).asleep = true ∧
      t.staDzBitmap.getLsbD 1 = true ∧ (t.sta 0).sleepQ ≠ [] ∧ t.timBitmap.getLsbD 0 = true ∧
      BitmapsRight t := by
  have hrun : ((runM apStep sampleAp (sampleJoin ++ [.rx (sampleNull Adapter.sampleTa true),
      .xmit bcAddr 0 false])).any fun t => decide ((∀ c ∈ t.calls, c.BitSafe) ∧
        (t.sta 1).aid = 1 ∧ (t.sta 1).asleep = true ∧ t.staDzBitmap.getLsbD 1 = true ∧
        (t.sta 0).sleepQ ≠ [] ∧ t.timBitmap.getLsbD 0 = true)) = true := by
    decide +kernel
  obtain ⟨t, ht, h⟩ := (Option.any_eq_true _ _).mp hrun
  obtain ⟨hsafe, haid, hsleep, hdz, hq, htim⟩ := of_decide_eq_true h
  exact ⟨t, ht, haid, hsleep, hdz, hq, htim, bitmapsRight_apRun started_sampleAp ht hsafe⟩

/-- The address of station `i`. -/
def sampleAddr (i : Fin 16) : MacAddr := #v[2, 0, 0, 0, 1, UInt8.ofNat i.val]

/-- Sixteen stations are associated, and the last one falls asleep. -/
def sampleSixteen : List ApEvent :=
  ((List.finRange 16).flatMap fun i =>
    [.auth true (sampleAuth (sampleAddr i)), .assocReq (sampleAssocReq (sampleAddr i) true)]) ++
    [.rx (sampleNull (sampleAddr 15) true)]

/-- Behind the beacon bit 0 is set, and the queue of the broadcast station is empty. The
sixteenth station has no bit. -/
theorem not_bitmaps_sample :
    (∃ t, runM apStep sampleAp sampleBeacon = some t ∧ t.bcmc = some 0 ∧
      t.timBitmap.getLsbD 0 = true ∧ (t.sta 0).sleepQ = []) ∧
    ∃ t, runM apStep sampleAp sampleSixteen = some t ∧ t.Live 16 ∧ (t.sta 16).aid = 16 ∧
      (t.sta 16).assocSuccess = true ∧ (t.sta 16).asleep = true ∧
      t.staDzBitmap.getLsbD 16 = false := by
  have h₁ : ((runM apStep sampleAp sampleBeacon).any fun t =>
      decide (t.bcmc = some 0 ∧ t.timBitmap.getLsbD 0 = true ∧ (t.sta 0).sleepQ = [])) = true := by
    decide +kernel
  have h₂ : ((runM apStep sampleAp sampleSixteen).any fun t =>
      decide ((∃ i, (16 : StaId) ∈ t.base.staHash i) ∧ (t.sta 16).aid = 16 ∧
        (t.sta 16).assocSuccess = true ∧ (t.sta 16).asleep = true)) = true := by
    decide +kernel
  obtain ⟨t, ht, h₁⟩ := Option.any_eq_true _ _ |>.mp h₁
  obtain ⟨u, hu, h₂⟩ := Option.any_eq_true _ _ |>.mp h₂
  rw [decide_eq_true_eq] at h₁ h₂
  obtain ⟨hlive, haid, hassoc, hsleep⟩ := h₂
  exact ⟨⟨t, ht, h₁⟩, u, hu, hlive, haid, hassoc, hsleep, BitVec.getLsbD_of_ge _ _ le_rfl⟩

end Ap

end Rtl8188eu
