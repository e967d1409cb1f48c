import Rtl8188eu.ApStations

/-!
# The counters of the BSS

An access point counts its stations by what they cannot do : short preambles, ERP rates, short
slots, HT, greenfield, 40 MHz. A flag in the record says that a counter counts the station.
`bss_cap_update_on_sta_join` and `bss_cap_update_on_sta_leave` keep the two together.

The counters are right as long as `OnAuth` does not take a counted station off `asoc_list`, a
station that associates again is still what the flags never cleared say, and no request of an
associated station is refused that says something else (`counters_apRun`).

`rtw_ht_operation_update` returns before it has done anything if the access point is an HT one.
So `ht_op_mode` stays zero, which is right for HT stations with greenfield and the bandwidth of
the access point only (`htMode_apRun`).
-/

set_option linter.unusedSectionVars false

namespace Rtl8188eu

open Runs LinkedLists

/-- What a station is counted for. -/
inductive Protection
  | noShortPreamble
  | nonErp
  | noShortSlotTime
  | noHt
  | htNoGf
  | ht20mhz
  deriving DecidableEq

/-- What the last association request of the station said. -/
def ApSta.has (st : ApSta) : Protection → Bool
  | .noShortPreamble => !st.shortPreamble
  | .nonErp => st.nonErp
  | .noShortSlotTime => st.noShortSlot
  | .noHt => !st.ht
  | .htNoGf => st.noGf
  | .ht20mhz => st.only20mhz

/-- The flag that says that the station is counted. -/
def ApSta.flag (st : ApSta) : Protection → Bool
  | .noShortPreamble => st.noShortPreambleSet
  | .nonErp => st.nonerpSet
  | .noShortSlotTime => st.noShortSlotTimeSet
  | .noHt => st.noHtSet
  | .htNoGf => st.noHtGfSet
  | .ht20mhz => st.ht20mhzSet

/-- The counter. -/
def BssCap.num (b : BssCap) : Protection → ℤ
  | .noShortPreamble => b.numStaNoShortPreamble
  | .nonErp => b.numStaNonErp
  | .noShortSlotTime => b.numStaNoShortSlotTime
  | .noHt => b.numStaNoHt
  | .htNoGf => b.numStaHtNoGf
  | .ht20mhz => b.numStaHt20mhz

theorem ApSta.has_congr {st st' : ApSta} (h : st'.caps = st.caps) (q : Protection) :
    st'.has q = st.has q := by
  simp only [ApSta.caps, Prod.mk.injEq] at h
  obtain ⟨h₁, h₂, h₃, h₄, h₅⟩ := h
  cases q <;> simp only [ApSta.has, ApSta.noShortSlot, ApSta.noGf, ApSta.only20mhz, h₁, h₂,
    h₃, h₄, h₅]

theorem ApSta.flag_congr {st st' : ApSta} (h : st'.flags = st.flags) (q : Protection) :
    st'.flag q = st.flag q := by
  simp only [ApSta.flags, Prod.mk.injEq] at h
  obtain ⟨h₁, h₂, h₃, h₄, h₅, h₆⟩ := h
  cases q <;> simp only [ApSta.flag, h₁, h₂, h₃, h₄, h₅, h₆]

theorem ApSta.flag_of_counted {st : ApSta} (h : st.counted = false) (q : Protection) :
    st.flag q = false := by
  simp only [ApSta.counted, Bool.or_eq_false_iff] at h
  obtain ⟨⟨⟨⟨⟨h₁, h₂⟩, h₃⟩, h₄⟩, h₅⟩, h₆⟩ := h
  cases q <;> simp only [ApSta.flag, h₁, h₂, h₃, h₄, h₅, h₆]

theorem ApSta.flag_of_countedRight {st : ApSta} (h : st.countedRight = true) (q : Protection) :
    st.flag q = st.has q := by
  simp only [ApSta.countedRight, Bool.and_eq_true, beq_iff_eq] at h
  obtain ⟨⟨⟨⟨⟨h₁, h₂⟩, h₃⟩, h₄⟩, h₅⟩, h₆⟩ := h
  cases q <;> simp only [ApSta.flag, ApSta.has, h₁, h₂, h₃, h₄, h₅, h₆]

/-- How many stations have a property. -/
def countIf (p : StaId → Bool) : ℤ := (Finset.univ.filter fun k => p k = true).card

/-- One station gets or loses the property. -/
theorem countIf_change {p p' : StaId → Bool} {k : StaId} (h : ∀ j, j ≠ k → p' j = p j) :
    countIf p' = countIf p + (p' k).toInt - (p k).toInt := by
  have hsum : ∀ f : StaId → Bool,
      countIf f = (f k).toInt + ∑ j ∈ Finset.univ.erase k, if f j = true then (1 : ℤ) else 0 := by
    intro f
    rw [countIf, Finset.natCast_card_filter, ← Finset.add_sum_erase _ _ (Finset.mem_univ k)]
    congr 1
    cases f k <;> rfl
  have hrest : ∑ j ∈ Finset.univ.erase k, (if p' j = true then (1 : ℤ) else 0)
      = ∑ j ∈ Finset.univ.erase k, if p j = true then (1 : ℤ) else 0 := by
    refine Finset.sum_congr rfl fun j hj => ?_
    rw [h j (Finset.ne_of_mem_erase hj)]
  rw [hsum p', hsum p, hrest]
  ring

theorem countIf_congr {p p' : StaId → Bool} (h : ∀ j, p' j = p j) : countIf p' = countIf p := by
  rw [show p' = p from funext h]

/-! ## What the records are counted for -/

namespace Ap

variable {ι : Type} [DecidableEq ι] {s s' u : Ap ι} {k j : StaId} {auth : Bool} {q : Protection}

theorem setFlag_num (want flag : Bool) (n : ℤ) :
    (setFlag want flag n).2.1 = n + want.toInt - flag.toInt := by
  cases want <;> cases flag <;> simp [setFlag, raiseFlag, lowerFlag]

theorem raise_num (want flag : Bool) (n : ℤ) :
    (if want then raiseFlag flag n else (flag, n, false)).2.1
      = n + (flag || want).toInt - flag.toInt := by
  cases want <;> cases flag <;> simp [raiseFlag]

theorem lowerFlag_num (flag : Bool) (n : ℤ) : (lowerFlag flag n).2.1 = n - flag.toInt := by
  cases flag <;> simp [lowerFlag]

/-- The HT mode does not change the counters. -/
theorem num_htRefresh (htOption : Bool) (b : BssCap) (q : Protection) :
    (htRefresh htOption b).num q = b.num q := by
  have hupd : (rtwHtOperationUpdate htOption b).2.num q = b.num q := by
    unfold rtwHtOperationUpdate
    split
    · rfl
    · dsimp only
      split
      · cases q <;> rfl
      · cases q <;> rfl
  unfold htRefresh
  dsimp only
  split
  · rw [← hupd]
    cases q <;> rfl
  · exact hupd

/-- A station that joins is counted for what its request says, and for what it was counted and is
not cleared. -/
theorem flag_joined (st : ApSta) (q : Protection) :
    (joined st).flag q = st.has q ∨ (joined st).flag q = (st.flag q || st.has q) := by
  cases q
  all_goals first | exact Or.inl rfl | exact Or.inr rfl

theorem flag_joined_of_not_stale {st : ApSta} (h : st.stale = false) (q : Protection) :
    (joined st).flag q = st.has q := by
  simp only [ApSta.stale, Bool.or_eq_false_iff, Bool.and_eq_false_iff, Bool.not_eq_false'] at h
  obtain ⟨hgf, hmhz⟩ := h
  cases q with
  | htNoGf =>
    rcases hgf with h0 | h1
    · simp [joined, ApSta.flag, ApSta.has, h0]
    · simp [joined, ApSta.flag, ApSta.has, h1]
  | ht20mhz =>
    rcases hmhz with h0 | h1
    · simp [joined, ApSta.flag, ApSta.has, h0]
    · simp [joined, ApSta.flag, ApSta.has, h1]
  | noShortPreamble | nonErp | noShortSlotTime | noHt => rfl

theorem num_join (s : Ap ι) (k : StaId) (q : Protection) :
    (s.bssCapUpdateOnStaJoin k).bss.num q
      = s.bss.num q + ((joined (s.sta k)).flag q).toInt - ((s.sta k).flag q).toInt := by
  unfold bssCapUpdateOnStaJoin
  dsimp only
  rw [num_htRefresh]
  cases q with
  | htNoGf => exact raise_num ..
  | ht20mhz => exact raise_num ..
  | noShortPreamble | nonErp | noShortSlotTime | noHt => exact setFlag_num ..

theorem num_leave (s : Ap ι) (k : StaId) (q : Protection) :
    (s.bssCapUpdateOnStaLeave k).bss.num q = s.bss.num q - ((s.sta k).flag q).toInt := by
  unfold bssCapUpdateOnStaLeave
  dsimp only
  rw [num_htRefresh]
  cases q <;> exact lowerFlag_num ..

/-! ## Moves that leave the counters alone -/

/-- Nothing happens to the counters and to what they count. -/
structure SameCaps (s s' : Ap ι) : Prop where
  stations : Adapter.SameStations s.base s'.base
  caps : ∀ k, (s'.sta k).caps = (s.sta k).caps
  flags : ∀ k, (s'.sta k).flags = (s.sta k).flags
  asocList : s'.asocList = s.asocList
  bss : s'.bss = s.bss

theorem sameCaps_refl (s : Ap ι) : SameCaps s s :=
  ⟨Adapter.SameStations.refl _, fun _ => rfl, fun _ => rfl, rfl, rfl⟩

theorem SameCaps.trans {t : Ap ι} (h₁ : SameCaps s s') (h₂ : SameCaps s' t) : SameCaps s t :=
  ⟨h₁.stations.trans h₂.stations, fun k => (h₂.caps k).trans (h₁.caps k),
    fun k => (h₂.flags k).trans (h₁.flags k), h₂.asocList.trans h₁.asocList, h₂.bss.trans h₁.bss⟩

/-- One record changes, but not in what it is counted for. -/
theorem sameCaps_update {st : ApSta} (hb : s'.base = s.base)
    (hsta : s'.sta = Function.update s.sta k st) (hcaps : st.caps = (s.sta k).caps)
    (hflags : st.flags = (s.sta k).flags) (hasoc : s'.asocList = s.asocList)
    (hbss : s'.bss = s.bss) : SameCaps s s' := by
  refine ⟨hb ▸ Adapter.SameStations.refl _, fun j => ?_, fun j => ?_, hasoc, hbss⟩
  · rw [hsta]
    rcases eq_or_ne j k with rfl | hj
    · rw [Function.update_self, hcaps]
    · rw [Function.update_of_ne hj]
  · rw [hsta]
    rcases eq_or_ne j k with rfl | hj
    · rw [Function.update_self, hflags]
    · rw [Function.update_of_ne hj]

theorem sameCaps_updateSta {f : ApSta → ApSta} (hcaps : (f (s.sta k)).caps = (s.sta k).caps)
    (hflags : (f (s.sta k)).flags = (s.sta k).flags) : SameCaps s (s.updateSta k f) :=
  sameCaps_update rfl rfl hcaps hflags rfl rfl

theorem caps_sent (fs : List XmitFrame) : ∀ st : ApSta,
    (fs.foldl ApSta.sent st).caps = st.caps ∧ (fs.foldl ApSta.sent st).flags = st.flags := by
  induction fs with
  | nil => exact fun st => ⟨rfl, rfl⟩
  | cons f fs ih => exact fun st => ih (st.sent f)

theorem caps_aliveSeen (st : ApSta) (n : ℕ) :
    (st.aliveSeen n).caps = st.caps ∧ (st.aliveSeen n).flags = st.flags := by
  unfold ApSta.aliveSeen
  split
  · exact ⟨rfl, rfl⟩
  · exact ⟨rfl, rfl⟩

theorem caps_awake (st : ApSta) (n : ℕ) :
    (st.awake n).caps = st.caps ∧ (st.awake n).flags = st.flags := by
  unfold ApSta.awake
  dsimp only
  split
  · exact caps_aliveSeen ..
  · exact caps_aliveSeen ..

theorem caps_deliverLoop : ∀ (fs : List XmitFrame) (st : ApSta),
    (ApSta.deliverLoop fs st).2.1.caps = st.caps ∧ (ApSta.deliverLoop fs st).2.1.flags = st.flags
  | [], st => ⟨rfl, rfl⟩
  | f :: fs, st => by
    rw [ApSta.deliverLoop]
    split
    · exact caps_deliverLoop fs (st.sent f)
    · exact caps_deliverLoop fs st

theorem sameCaps_wakeupSta (s : Ap ι) (k : StaId) : SameCaps s (s.wakeupSta k) := by
  obtain ⟨hcaps, hflags⟩ := caps_sent (s.sta k).sleepQ (s.sta k)
  have h₁ : SameCaps s ((s.record .wakeup k).updateSta k ApSta.flush) :=
    sameCaps_update rfl rfl hcaps hflags rfl rfl
  unfold wakeupSta
  dsimp only
  split
  · obtain ⟨hcaps', hflags'⟩ :=
      caps_awake (((s.record .wakeup k).updateSta k ApSta.flush).sta k)
        ((s.record .wakeup k).updateSta k ApSta.flush).expireTo
    exact h₁.trans (sameCaps_update rfl rfl hcaps' hflags' rfl rfl)
  · exact h₁

theorem sameCaps_wakeupGroup (s : Ap ι) : SameCaps s s.wakeupGroup := by
  unfold wakeupGroup
  split
  · exact sameCaps_refl s
  · rename_i bmc _
    have h₁ : SameCaps s (s.updateSta bmc ApSta.flushGroup) := sameCaps_updateSta rfl rfl
    dsimp only
    split
    · split
      · exact h₁.trans ⟨Adapter.SameStations.refl _, fun _ => rfl, fun _ => rfl, rfl, rfl⟩
      · exact h₁
    · exact sameCaps_refl s

theorem sameCaps_deliver (s : Ap ι) (k : StaId) : SameCaps s (s.xmitDeliveryEnabledFrames k) := by
  obtain ⟨hcaps, hflags⟩ := caps_deliverLoop (s.sta k).sleepQ (s.sta k)
  exact sameCaps_update rfl rfl hcaps hflags rfl rfl

theorem sameCaps_psPoll (s : Ap ι) (k : StaId) (priority : ℕ) :
    SameCaps s (s.psPoll k priority) := by
  unfold psPoll
  split
  · exact sameCaps_refl s
  obtain ⟨hcaps, hflags⟩ := caps_aliveSeen (s.sta k) s.expireTo
  have h₁ : SameCaps s ((s.record .psPoll k).updateSta k fun st => st.aliveSeen s.expireTo) :=
    sameCaps_update rfl rfl hcaps hflags rfl rfl
  dsimp only
  split
  · refine h₁.trans ?_
    unfold psPollFrame
    dsimp only
    split
    · exact sameCaps_update rfl rfl rfl rfl rfl rfl
    split
    · exact sameCaps_update rfl rfl rfl rfl rfl rfl
    · exact sameCaps_refl _
  · exact h₁

theorem sameCaps_txBeacon (s : Ap ι) : SameCaps s s.txBeaconHdl := by
  unfold txBeaconHdl
  split
  · exact sameCaps_refl s
  split
  · exact sameCaps_update rfl rfl rfl rfl rfl rfl
  · exact sameCaps_refl s

theorem sameCaps_hiQueue (s : Ap ι) (empty : Bool) : SameCaps s (s.rtwChkHiQueueHdl empty) := by
  unfold rtwChkHiQueueHdl
  split
  · exact sameCaps_refl s
  split
  · exact ⟨Adapter.SameStations.refl _, fun _ => rfl, fun _ => rfl, rfl, rfl⟩
  · exact sameCaps_refl s

/-- The moves that change what is counted. -/
theorem move_caps (h : Move auth s s') :
    SameCaps s s' ∨ (∃ a k, s.rtwAllocStainfo a = (some k, s')) ∨
      (∃ k, k ∉ s.asocList ∧ s' = s.rtwFreeStainfo k) ∨
      (∃ k, k ∈ s.asocList ∧ s' = s.expireFree k) ∨
      (∃ k, s' = s.reauth k) ∨ (∃ k c, Refused k c s s') ∨
      ∃ k a u, s.Live k ∧ Granted k a s u ∧ s' = u.assocDone k := by
  cases h with
  | quiet h => exact Or.inl ⟨h.stations, h.caps, h.flags, h.asocList, h.bss⟩
  | note | authAdd | authDel | class2 =>
    exact Or.inl ⟨Adapter.SameStations.refl _, fun _ => rfl, fun _ => rfl, rfl, rfl⟩
  | alloc h => exact Or.inr (Or.inl ⟨_, _, h⟩)
  | free _ hasoc => exact Or.inr (Or.inr (Or.inl ⟨_, hasoc, rfl⟩))
  | remove hasoc => exact Or.inr (Or.inr (Or.inr (Or.inl ⟨_, hasoc, rfl⟩)))
  | reauth => exact Or.inr (Or.inr (Or.inr (Or.inr (Or.inl ⟨_, rfl⟩))))
  | refuse _ hreq => exact Or.inr (Or.inr (Or.inr (Or.inr (Or.inr (Or.inl ⟨_, hreq.refused⟩)))))
  | accept hlive hreq hroom =>
    obtain ⟨a, u, hu, -, he⟩ := hreq.granted hroom
    exact Or.inr (Or.inr (Or.inr (Or.inr (Or.inr (Or.inr ⟨_, a, u, hlive, hu, he⟩)))))
  | mark | authDone | stop | buffer | bufferGroup | setPending | aliveChk =>
    exact Or.inl (sameCaps_update rfl rfl rfl rfl rfl rfl)
  | wakeup => exact Or.inl (sameCaps_wakeupSta ..)
  | wakeupGroup => exact Or.inl (sameCaps_wakeupGroup ..)
  | deliver => exact Or.inl (sameCaps_deliver ..)
  | psPoll => exact Or.inl (sameCaps_psPoll ..)
  | txBeacon => exact Or.inl (sameCaps_txBeacon ..)
  | hiQueue => exact Or.inl (sameCaps_hiQueue ..)

/-- What a station joins with. -/
theorem assocListed_profile (s : Ap ι) (k : StaId) :
    ((s.assocListed k).sta k).caps = (s.sta k).caps ∧
      ((s.assocListed k).sta k).flags = (s.sta k).flags := by
  obtain ⟨n, hsta⟩ := s.assocListed_sta k
  rw [hsta, Function.update_self]
  exact ⟨rfl, rfl⟩

/-- A station that is accepted : its record, the counters, and the entry of the log. -/
theorem Granted.counts {a : ℕ} (h : Granted k a s u) :
    ∃ st, (u.assocDone k).sta = Function.update s.sta k (joined st) ∧
      st.flags = (s.sta k).flags ∧ st.caps = (u.sta k).caps ∧
      (∀ q, (u.assocDone k).bss.num q
        = s.bss.num q + ((joined st).flag q).toInt - ((s.sta k).flag q).toInt) ∧
      (u.assocListed k).joinCall k ∈ (u.assocDone k).calls ∧ (u.assocListed k).sta k = st := by
  obtain ⟨-, -, -, hbss⟩ := u.assocListed_rest k
  obtain ⟨hcaps, hflags⟩ := u.assocListed_profile k
  obtain ⟨n, hlisted⟩ := u.assocListed_sta k
  obtain ⟨st, hst, -, -, -, hfl⟩ := h.sta
  have huk : u.sta k = st := by rw [hst, Function.update_self]
  have hfl' : ((u.assocListed k).sta k).flags = (s.sta k).flags := by
    rw [hflags, huk, hfl]
  refine ⟨(u.assocListed k).sta k, ?_, hfl', hcaps, fun q => ?_, List.mem_cons_self, rfl⟩
  · rw [assocDone, join_sta]
    nth_rewrite 1 [hlisted]
    rw [hst, Function.update_idem, Function.update_idem]
  · rw [assocDone, num_join, hbss, h.bss, ApSta.flag_congr hfl']

/-! ## The counters count the stations -/

/-- The station is associated and its last request says `q`. -/
def counts (s : Ap ι) (q : Protection) (k : StaId) : Bool :=
  decide (k ∈ s.asocList) && (s.sta k).has q

/-- The flags of the stations and their counter agree with the requests. -/
structure Counted (q : Protection) (s : Ap ι) : Prop where
  flags : ∀ k, s.Live k → (s.sta k).flag q = s.counts q k
  num : s.bss.num q = countIf (s.counts q)

theorem Counted.congr (h : Counted q s) (hs : SameCaps s s') : Counted q s' := by
  have hcounts : ∀ k, s'.counts q k = s.counts q k := fun k => by
    rw [counts, counts, hs.asocList, ApSta.has_congr (hs.caps k)]
  refine ⟨fun k hk => ?_, ?_⟩
  · rw [ApSta.flag_congr (hs.flags k), hcounts]
    exact h.flags k ((live_congr hs.stations).mp hk)
  · rw [hs.bss, countIf_congr hcounts]
    exact h.num

/-- One station changes, and its counter follows. -/
theorem Counted.update (h : Counted q s) {st : ApSta}
    (hlive : ∀ j, j ≠ k → s'.Live j → s.Live j)
    (hlist : ∀ j, j ≠ k → (j ∈ s'.asocList ↔ j ∈ s.asocList))
    (hsta : s'.sta = Function.update s.sta k st) (hflag : s'.Live k → st.flag q = s'.counts q k)
    (hnum : s'.bss.num q = s.bss.num q + (s'.counts q k).toInt - (s.counts q k).toInt) :
    Counted q s' := by
  have hother : ∀ j, j ≠ k → s'.counts q j = s.counts q j := by
    intro j hj
    rw [counts, counts, hsta, Function.update_of_ne hj]
    simp only [hlist j hj]
  refine ⟨fun j hj => ?_, ?_⟩
  · rcases eq_or_ne j k with rfl | hjk
    · rw [hsta, Function.update_self]
      exact hflag hj
    · rw [hother j hjk, hsta, Function.update_of_ne hjk]
      exact h.flags j (hlive j hjk hj)
  · rw [hnum, h.num, countIf_change hother]

theorem bss_free (s : Ap ι) (k : StaId) : (s.rtwFreeStainfo k).bss = s.bss := by
  simp only [rtwFreeStainfo, record]

theorem Counted.free (h : Counted q s) (hasoc : k ∉ s.asocList) :
    Counted q (s.rtwFreeStainfo k) := by
  obtain ⟨n, hsta⟩ := s.sta_free k
  have hl := s.asocList_free k
  have hzero : (s.rtwFreeStainfo k).counts q k = false ∧ s.counts q k = false := by
    simp only [counts, hl, hasoc, decide_false, Bool.false_and]
    exact ⟨trivial, trivial⟩
  refine h.update (fun j _ hj => (live_free.mp hj).1) (fun j _ => by rw [hl]) hsta
    (fun hk => absurd rfl (live_free.mp hk).2) ?_
  rw [hzero.1, hzero.2, bss_free]
  ring

theorem flag_apLeave (s : Ap ι) (k : StaId) (q : Protection) :
    (((s.asocUnlink k).apLeave k).sta k).flag q = false := by
  rw [apLeave, leave_sta, Function.update_self]
  cases q <;> rfl

theorem num_apLeave (s : Ap ι) (k : StaId) (q : Protection) :
    ((s.asocUnlink k).apLeave k).bss.num q = s.bss.num q - ((s.sta k).flag q).toInt := by
  rw [apLeave, num_leave]
  have hk : (((s.asocUnlink k).updateSta k fun st =>
      { st with state := st.state &&& ~~~fwLinkedBits }).sta k).flags = (s.sta k).flags := by
    simp only [updateSta, Function.update_self]
    rfl
  rw [ApSta.flag_congr hk]
  rfl

theorem counted_remove (hw : WellFormed s) (h : Counted q s) (hasoc : k ∈ s.asocList) :
    Counted q (s.expireFree k) := by
  set v := (s.asocUnlink k).apLeave k with hv
  have hlist : v.asocList = s.asocList.filter (· ≠ k) := rfl
  have hnot : k ∉ v.asocList := by
    rw [hlist]
    simp
  have hzero : v.counts q k = false := by
    simp only [counts, hnot, decide_false, Bool.false_and]
  have hsta : v.sta = Function.update s.sta k (v.sta k) := by
    obtain ⟨st, hst, -⟩ := (s.asocUnlink k).apLeave_sta k
    rw [← hv] at hst
    rw [hst, Function.update_self]
    rfl
  have hu : Counted q v := by
    refine h.update (fun _ _ hj => hj) (fun j hj => ?_) hsta
      (fun _ => (flag_apLeave s k q).trans hzero.symm) ?_
    · rw [hlist]
      simp [hj]
    · rw [hv, num_apLeave, ← hv, hzero, h.flags k (hw.asocLive k hasoc)]
      simp
  exact hu.free hnot

end Ap

/-- What a call must find for the counters to stay right. -/
def ApCall.CountSafe (c : ApCall) : Prop :=
  (c.op = .reauth → c.listed = true → c.counted = false) ∧ (c.op = .join → c.stale = false) ∧
    (c.op = .reject → c.listed = true → c.stale = false)

instance (c : ApCall) : Decidable c.CountSafe := by
  unfold ApCall.CountSafe
  infer_instance

namespace Ap

variable {ι : Type} [DecidableEq ι] {s s' u : Ap ι} {k j : StaId} {auth : Bool} {q : Protection}

theorem counted_reauth (hw : WellFormed s) (h : Counted q s)
    (hlog : ∀ c ∈ (s.reauth k).calls, c.CountSafe) : Counted q (s.reauth k) := by
  obtain ⟨hb, hst, hl⟩ := s.reauth_frame k
  have hbss : (s.reauth k).bss = s.bss := by
    unfold reauth
    dsimp only
    split <;> rfl
  have hmem : s.callOf .reauth k ∈ (s.reauth k).calls := by
    unfold reauth
    dsimp only
    split <;> exact List.mem_cons_self
  have hnot : k ∉ (s.reauth k).asocList := fun hk => ((hl k).mp hk).2 rfl
  have hzero : (s.reauth k).counts q k = false := by
    simp only [counts, hnot, decide_false, Bool.false_and]
  -- a station that leaves the list was not counted
  have hold : s.Live k → (s.sta k).flag q = false := by
    intro hlive
    by_cases hk : k ∈ s.asocList
    · exact ApSta.flag_of_counted ((hlog _ hmem).1 rfl (by simpa [callOf] using hk)) q
    · rw [h.flags k hlive]
      simp only [counts, hk, decide_false, Bool.false_and]
  have hcnt : s.counts q k = false := by
    by_cases hk : k ∈ s.asocList
    · rw [← h.flags k (hw.asocLive k hk)]
      exact hold (hw.asocLive k hk)
    · simp only [counts, hk, decide_false, Bool.false_and]
  have hlive : ∀ j, (s.reauth k).Live j → s.Live j := fun j hj => by rwa [Live, hb] at hj
  have hsta : (s.reauth k).sta = Function.update s.sta k (s.sta k) := by
    rw [hst, Function.update_eq_self]
  refine h.update (fun j _ => hlive j) (fun j hj => ?_) hsta (fun hk => ?_) ?_
  · rw [hl]
    exact and_iff_left hj
  · rw [hold (hlive k hk), hzero]
  · rw [hbss, hzero, hcnt]
    ring

theorem counted_refused {c : ApCall} (hw : WellFormed s) (h : Counted q s) (hc : Refused k c s s')
    (hlog : ∀ c ∈ s'.calls, c.CountSafe) : Counted q s' := by
  obtain ⟨st, hsta, -, -, -, -, hflags, hstale⟩ := hc.sta
  have hmem : c ∈ s'.calls := by
    rw [hc.calls]
    exact List.mem_cons_self
  have hlive : ∀ j, s'.Live j → s.Live j := fun j hj => (live_congr hc.tables.stations).mp hj
  -- the request of a station on the list is what the station is counted for
  have hsame : s'.counts q k = s.counts q k := by
    rw [counts, counts, hc.tables.asocList, hsta, Function.update_self]
    by_cases hk : k ∈ s.asocList
    · have hright : st.countedRight = true := by
        have hno := (hlog c hmem).2.2 hc.op (by rw [hc.listed]; simpa using hk)
        rw [hstale] at hno
        simpa using hno
      rw [← ApSta.flag_of_countedRight hright q, ApSta.flag_congr hflags,
        h.flags k (hw.asocLive k hk), counts]
      simp [hk]
    · simp [hk]
  refine h.update (fun j _ => hlive j) (fun j _ => by rw [hc.tables.asocList]) hsta
    (fun hk => ?_) ?_
  · rw [ApSta.flag_congr hflags, hsame]
    exact h.flags k (hlive k hk)
  · rw [hc.bss, hsame]
    ring

theorem counted_granted {a : ℕ} (h : Counted q s) (hlive : s.Live k) (hu : Granted k a s u)
    (hlog : ∀ c ∈ (u.assocDone k).calls, c.CountSafe) : Counted q (u.assocDone k) := by
  have hacc := hu.accepted
  obtain ⟨st, hsta, hflags, -, hnum, hmem, hst⟩ := hu.counts
  have hstale : st.stale = false := by
    have hno := (hlog _ hmem).2.1 rfl
    rw [← hst]
    exact hno
  have hflag := flag_joined_of_not_stale hstale q
  have hin : k ∈ (u.assocDone k).asocList := by
    rw [hacc.asocList, mem_asocAdd]
    exact Or.inr rfl
  have hcnt : (u.assocDone k).counts q k = st.has q := by
    rw [counts, hsta, Function.update_self]
    simp only [hin, decide_true, Bool.true_and]
    exact ApSta.has_congr rfl q
  refine h.update (fun j _ hj => (live_congr hacc.stations).mp hj) (fun j hj => ?_) hsta
    (fun _ => by rw [hflag, hcnt]) ?_
  · rw [hacc.asocList, mem_asocAdd]
    exact or_iff_left hj
  · rw [hnum, hflag, hcnt, h.flags k hlive]

theorem counted_move (hw : WellFormed s) (h : Counted q s) (hlog : ∀ c ∈ s'.calls, c.CountSafe)
    (hm : Move auth s s') : Counted q s' := by
  rcases move_caps hm with hs | ⟨a, k, ha⟩ | ⟨k, hasoc, rfl⟩ | ⟨k, hasoc, rfl⟩ | ⟨k, rfl⟩ |
    ⟨k, c, hc⟩ | ⟨k, a, u, hlive, hu, rfl⟩
  · exact h.congr hs
  · have hdead := hw.not_live_alloc ha
    have hlive : ∀ j, j ≠ k → s'.Live j → s.Live j := fun j hj hl =>
      ((live_alloc ha).mp hl).resolve_right hj
    have hnot : k ∉ s.asocList := fun hk => hdead (hw.asocLive k hk)
    obtain ⟨base, -, he⟩ := alloc_eq ha
    have hl : s'.asocList = s.asocList := by
      rw [he]
      rfl
    have hsta : s'.sta = Function.update s.sta k initApSta := by
      rw [he]
      rfl
    have hbss : s'.bss = s.bss := by
      rw [he]
      rfl
    have hzero : s'.counts q k = false := by
      simp only [counts, hl, hnot, decide_false, Bool.false_and]
    have hzero' : s.counts q k = false := by
      simp only [counts, hnot, decide_false, Bool.false_and]
    refine h.update hlive (fun j _ => by rw [hl]) hsta (fun _ => ?_) ?_
    · rw [hzero]
      cases q <;> rfl
    · rw [hbss, hzero, hzero']
      ring
  · exact h.free hasoc
  · exact counted_remove hw h hasoc
  · exact counted_reauth hw h hlog
  · exact counted_refused hw h hc hlog
  · exact counted_granted h hlive hu hlog

end Ap

namespace Ap

variable {s t : Ap RecvId} {es : List ApEvent}

/-- As long as `OnAuth` finds no counted station on `asoc_list`, no station joins that is still
counted for what it is no more, and no request of an associated station is refused that says
something else, every counter counts the associated stations whose last request had the property,
after every run. -/
theorem counters_apRun (hs : Started s) (hrun : runM apStep s es = some t)
    (hlog : ∀ c ∈ t.calls, c.CountSafe) (q : Protection) :
    t.bss.num q =
        (Finset.univ.filter fun k => k ∈ t.asocList ∧ (t.sta k).has q = true).card ∧
      0 ≤ t.bss.num q := by
  have h : Counted q t := by
    refine invariant_apRun (I := Counted q) hs ⟨fun k _ => ?_, ?_⟩
      (fun u v hw hu hP hm => counted_move hw hu hP hm) hrun hlog
    · rw [hs.sta, counts, hs.asocList]
      cases q <;> rfl
    · have hzero : s.bss.num q = 0 := by
        obtain ⟨h₁, h₂, h₃, h₄, h₅, h₆, -⟩ := hs.bss
        cases q
        · exact h₁
        · exact h₂
        · exact h₃
        · exact h₄
        · exact h₅
        · exact h₆
      rw [hzero, countIf]
      simp [counts, hs.asocList]
  have hcard : t.bss.num q =
      (Finset.univ.filter fun k => k ∈ t.asocList ∧ (t.sta k).has q = true).card := by
    rw [h.num, countIf]
    simp only [counts, Bool.and_eq_true, decide_eq_true_eq]
  refine ⟨hcard, ?_⟩
  rw [hcard]
  exact Int.natCast_nonneg _

theorem counters_sampleJoin : ∃ t, runM apStep sampleAp sampleJoin = some t ∧
    t.bss.num .noHt = 1 ∧ ∀ q, t.bss.num q =
      (Finset.univ.filter fun k => k ∈ t.asocList ∧ (t.sta k).has q = true).card ∧
        0 ≤ t.bss.num q := by
  have h := @counters_apRun sampleAp _ sampleJoin started_sampleAp rfl (by decide)
  exact ⟨_, rfl, by decide, h⟩

/-- A request of an HT station without greenfield and with 20 MHz only, or of one with both. -/
def sampleHtReq (sa : MacAddr) (cap : BitVec 16) : AssocReq :=
  { sampleAssocReq sa true with htCap := some cap }

/-- The access point is an HT one. -/
def sampleHtAp : Ap RecvId :=
  { sampleAp with
    base := { sampleAp.base with mlmepriv := { sampleAp.base.mlmepriv with htOption := true } } }

theorem started_sampleHtAp : Started sampleHtAp where
  freeNodup := started_sampleAp.freeNodup
  freeDead := started_sampleAp.freeDead
  bcmc := started_sampleAp.bcmc
  sta := started_sampleAp.sta
  authList := rfl
  asocList := rfl
  authListCnt := rfl
  asocListCnt := rfl
  bss := started_sampleAp.bss
  staAid := started_sampleAp.staAid
  staDzBitmap := rfl
  timBitmap := rfl
  inHiq := rfl
  calls := rfl
  notStation := started_sampleAp.notStation
  pending := started_sampleAp.pending

/-- The station associates as an HT station without greenfield, and again as one with
greenfield. -/
def sampleRejoin : List ApEvent :=
  [.auth true (sampleAuth Adapter.sampleTa), .assocReq (sampleHtReq Adapter.sampleTa 0x0002),
    .assocReq (sampleHtReq Adapter.sampleTa 0x0012)]

/-- A station that authenticates again is still counted, and so is a station that has greenfield
by now. -/
theorem not_counters_sample :
    (∃ t, runM apStep sampleAp (sampleJoin ++ [.auth true (sampleAuth Adapter.sampleTa)]) = some t ∧
      t.bss.num .noHt = 1 ∧ t.asocList = []) ∧
    ∃ t, runM apStep sampleHtAp sampleRejoin = some t ∧ t.bss.num .htNoGf = 1 ∧ t.asocList = [1] ∧
      (t.sta 1).has .htNoGf = false := by
  refine ⟨⟨_, rfl, ?_, ?_⟩, _, rfl, ?_, ?_, ?_⟩
  all_goals decide +kernel

end Ap

/-! ## The HT mode -/

namespace BssCap

/-- The operation mode that the comment above `rtw_ht_operation_update` asks for. Stations without
greenfield count as non-HT ones. -/
def opModeOf (b : BssCap) : BitVec 16 :=
  if b.numStaNoHt ≠ 0 ∨ b.numStaHtNoGf ≠ 0 then opModeMixed
  else if b.htCapInfo &&& ieee80211HtCapSupWidth ≠ 0 ∧ b.numStaHt20mhz ≠ 0 then
    opMode20mhzHtStaAssoced
  else if b.olbcHt then opModeMayBeLegacyStas
  else opModePure

/-- `ht_op_mode` follows the counters. -/
structure HtModeRight (b : BssCap) : Prop where
  mode : b.htOpMode &&& htInfoOperationModeOpModeMask = b.opModeOf
  nonGf : b.htOpMode &&& htInfoOperationModeNonGfDevsPresent ≠ 0 ↔ b.numStaHtNoGf ≠ 0
  nonHt : b.htOpMode &&& htInfoOperationModeNonHtStaPresent ≠ 0 ↔
    b.numStaNoHt ≠ 0 ∨ b.olbcHt = true

/-- From `b` to `b'` the HT elements of the beacon are made again exactly if the mode changes. -/
def HtRefreshed (b b' : BssCap) : Prop :=
  ∀ ie, ie = htCapabilityIe ∨ ie = htAddInfoIe → b'.bcnUpdates.count ie =
    b.bcnUpdates.count ie + if b'.htOpMode = b.htOpMode then 0 else 1

/-- The counters that have to be zero for an HT mode of zero. -/
def Matters (b : BssCap) (q : Protection) : Prop :=
  q = .noHt ∨ q = .htNoGf ∨ q = .ht20mhz ∧ b.htCapInfo &&& ieee80211HtCapSupWidth ≠ 0

/-- Without such stations the mode zero is right. -/
theorem htModeRight_of_zero {b : BssCap} (hmode : b.htOpMode = 0) (holbc : b.olbcHt = false)
    (hnum : ∀ q, b.Matters q → b.num q = 0) : b.HtModeRight := by
  have hnoHt : b.numStaNoHt = 0 := hnum .noHt (Or.inl rfl)
  have hnoGf : b.numStaHtNoGf = 0 := hnum .htNoGf (Or.inr (Or.inl rfl))
  refine ⟨?_, ?_, ?_⟩
  · have hwide : ¬ (b.htCapInfo &&& ieee80211HtCapSupWidth ≠ 0 ∧ b.numStaHt20mhz ≠ 0) := by
      rintro ⟨hw, hne⟩
      exact hne (hnum .ht20mhz (Or.inr (Or.inr ⟨rfl, hw⟩)))
    rw [opModeOf, if_neg (by simp [hnoHt, hnoGf]), if_neg hwide, holbc, hmode]
    rfl
  · simp [hmode, hnoGf]
  · simp [hmode, hnoHt, holbc]

end BssCap

namespace Ap

variable {ι : Type} [DecidableEq ι] {s s' u : Ap ι} {k j : StaId} {auth : Bool}

/-- Neither of the HT elements is among those for the first three counters. -/
theorem count_bcnEdges (b : BssCap) (e₁ e₂ e₃ : Bool) {ie : UInt8}
    (h : ie = htCapabilityIe ∨ ie = htAddInfoIe) : (bcnEdges b e₁ e₂ e₃).count ie = 0 := by
  have hff : ie ≠ 0xff := by
    rcases h with rfl | rfl
    · decide
    · decide
  have herp : ie ≠ erpinfoIe := by
    rcases h with rfl | rfl
    · decide
    · decide
  rw [List.count_eq_zero]
  intro hmem
  unfold bcnEdges at hmem
  simp only [List.mem_append, List.mem_ite_nil_right, List.mem_singleton] at hmem
  rcases hmem with (⟨-, h₁⟩ | ⟨-, h₂⟩) | ⟨-, h₃⟩
  · exact hff h₁
  · exact herp h₂
  · exact hff h₃

/-- In an HT access point `bss_cap_update_on_sta_join` and `bss_cap_update_on_sta_leave` leave the
mode and the HT elements alone. -/
theorem join_ht (h : s.base.mlmepriv.htOption = true) (k : StaId) :
    (s.bssCapUpdateOnStaJoin k).bss.htOpMode = s.bss.htOpMode ∧
      (s.bssCapUpdateOnStaJoin k).bss.olbcHt = s.bss.olbcHt ∧
      (s.bssCapUpdateOnStaJoin k).bss.htCapInfo = s.bss.htCapInfo ∧
      s.bss.HtRefreshed (s.bssCapUpdateOnStaJoin k).bss := by
  unfold bssCapUpdateOnStaJoin
  rw [h]
  refine ⟨rfl, rfl, rfl, fun ie hie => ?_⟩
  simp only [htRefresh, rtwHtOperationUpdate, if_true, lt_irrefl, if_false, List.count_append,
    count_bcnEdges _ _ _ _ hie, Nat.zero_add, Nat.add_zero]

theorem leave_ht (h : s.base.mlmepriv.htOption = true) (k : StaId) :
    (s.bssCapUpdateOnStaLeave k).bss.htOpMode = s.bss.htOpMode ∧
      (s.bssCapUpdateOnStaLeave k).bss.olbcHt = s.bss.olbcHt ∧
      (s.bssCapUpdateOnStaLeave k).bss.htCapInfo = s.bss.htCapInfo ∧
      s.bss.HtRefreshed (s.bssCapUpdateOnStaLeave k).bss := by
  unfold bssCapUpdateOnStaLeave
  rw [h]
  refine ⟨rfl, rfl, rfl, fun ie hie => ?_⟩
  simp only [htRefresh, rtwHtOperationUpdate, if_true, lt_irrefl, if_false, List.count_append,
    count_bcnEdges _ _ _ _ hie, Nat.zero_add, Nat.add_zero]

/-- No station is counted that the HT mode would have to follow. -/
structure PureHt (s : Ap ι) : Prop where
  htOption : s.base.mlmepriv.htOption = true
  mode : s.bss.htOpMode = 0
  olbc : s.bss.olbcHt = false
  flags : ∀ q, s.bss.Matters q → ∀ k, (s.sta k).flag q = false
  num : ∀ q, s.bss.Matters q → s.bss.num q = 0

/-- One record changes, and the counters with it. -/
theorem PureHt.update (h : PureHt s) {st : ApSta}
    (hopt : s'.base.mlmepriv.htOption = s.base.mlmepriv.htOption)
    (hsta : s'.sta = Function.update s.sta k st)
    (hmode : s'.bss.htOpMode = s.bss.htOpMode) (holbc : s'.bss.olbcHt = s.bss.olbcHt)
    (hcap : s'.bss.htCapInfo = s.bss.htCapInfo)
    (hflag : ∀ q, s.bss.Matters q → st.flag q = false)
    (hnum : ∀ q, s.bss.Matters q → s'.bss.num q = s.bss.num q) : PureHt s' := by
  have hmatters : ∀ q, s'.bss.Matters q → s.bss.Matters q := fun q hq => by
    rwa [BssCap.Matters, hcap] at hq
  refine ⟨hopt.trans h.htOption, hmode.trans h.mode, holbc.trans h.olbc, fun q hq j => ?_,
    fun q hq => ?_⟩
  · rw [hsta]
    rcases eq_or_ne j k with rfl | hj
    · rw [Function.update_self]
      exact hflag q (hmatters q hq)
    · rw [Function.update_of_ne hj]
      exact h.flags q (hmatters q hq) j
  · rw [hnum q (hmatters q hq)]
    exact h.num q (hmatters q hq)

theorem PureHt.free (h : PureHt s) (k : StaId) : PureHt (s.rtwFreeStainfo k) := by
  obtain ⟨n, hsta⟩ := s.sta_free k
  have hbss := s.bss_free k
  refine h.update ?_ hsta (by rw [hbss]) (by rw [hbss]) (by rw [hbss]) (fun q hq => ?_)
    fun q _ => by rw [hbss]
  · rw [base_free, (s.base.rtwFreeStainfo_fields k).2.2.2]
  · have hflags : (clearedSta (s.sta k) n).flags = (s.sta k).flags := rfl
    rw [ApSta.flag_congr hflags]
    exact h.flags q hq k

/-- A request that says nothing the HT mode would have to follow. -/
theorem has_of_pureHt {t : Ap ι} (h : (t.joinCall k).pureHt = true) {q : Protection}
    (hq : t.bss.Matters q) : (t.sta k).has q = false := by
  simp only [joinCall, decide_eq_true_eq] at h
  obtain ⟨hht, hgf, hwide⟩ := h
  rcases hq with rfl | rfl | ⟨rfl, hw⟩
  · simp [ApSta.has, hht]
  · simpa [ApSta.has] using hgf
  · simpa [ApSta.has] using hwide hw

theorem pureHt_move (hw : WellFormed s) (h : PureHt s)
    (hlog : ∀ c ∈ s'.calls, c.op = .join → c.pureHt = true) (hm : Move auth s s') : PureHt s' := by
  have hopt : s'.base.mlmepriv.htOption = s.base.mlmepriv.htOption := by
    rw [mlmepriv_moves hw (Relation.ReflTransGen.single hm)]
  rcases move_caps hm with hs | ⟨a, k, ha⟩ | ⟨k, hasoc, rfl⟩ | ⟨k, hasoc, rfl⟩ | ⟨k, rfl⟩ |
    ⟨k, c, hc⟩ | ⟨k, a, u, hlive, hu, rfl⟩
  · refine ⟨hopt.trans h.htOption, by rw [hs.bss]; exact h.mode, by rw [hs.bss]; exact h.olbc,
      fun q hq j => ?_, fun q hq => ?_⟩
    · rw [hs.bss] at hq
      rw [ApSta.flag_congr (hs.flags j)]
      exact h.flags q hq j
    · rw [hs.bss] at hq ⊢
      exact h.num q hq
  · obtain ⟨base, -, he⟩ := alloc_eq ha
    have hsta : s'.sta = Function.update s.sta k initApSta := by
      rw [he]
      rfl
    have hbss : s'.bss = s.bss := by
      rw [he]
      rfl
    refine h.update hopt hsta (by rw [hbss]) (by rw [hbss]) (by rw [hbss]) (fun q _ => ?_)
      fun q _ => by rw [hbss]
    cases q <;> rfl
  · exact h.free k
  · obtain ⟨hmode, holbc, hcap, -⟩ := @leave_ht ι _ ((s.asocUnlink k).updateSta k fun st =>
      { st with state := st.state &&& ~~~fwLinkedBits }) h.htOption k
    obtain ⟨st, hst, -⟩ := (s.asocUnlink k).apLeave_sta k
    have hv : PureHt ((s.asocUnlink k).apLeave k) := by
      refine h.update rfl hst hmode holbc hcap (fun q hq => ?_) fun q hq => ?_
      · rw [← s.flag_apLeave k q, hst, Function.update_self]
      · rw [num_apLeave, h.flags q hq k]
        exact sub_zero _
    exact hv.free k
  · obtain ⟨-, hst, -⟩ := s.reauth_frame k
    have hbss : (s.reauth k).bss = s.bss := by
      unfold reauth
      dsimp only
      split <;> rfl
    have hsta : (s.reauth k).sta = Function.update s.sta k (s.sta k) := by
      rw [hst, Function.update_eq_self]
    exact h.update hopt hsta (by rw [hbss]) (by rw [hbss]) (by rw [hbss])
      (fun q hq => h.flags q hq k) fun q _ => by rw [hbss]
  · obtain ⟨st, hsta, -, -, -, -, hflags, -⟩ := hc.sta
    refine h.update hopt hsta (by rw [hc.bss]) (by rw [hc.bss]) (by rw [hc.bss]) (fun q hq => ?_)
      fun q _ => by rw [hc.bss]
    rw [ApSta.flag_congr hflags]
    exact h.flags q hq k
  · obtain ⟨st, hsta, hflags, -, hnum, hmem, hst⟩ := hu.counts
    obtain ⟨-, -, -, hbss⟩ := u.assocListed_rest k
    have hbss' : (u.assocListed k).bss = s.bss := hbss.trans hu.bss
    have hopt' : (u.assocListed k).base.mlmepriv.htOption = true := hopt.trans h.htOption
    obtain ⟨hmode, holbc, hcap, -⟩ := join_ht hopt' k
    have hpure := hlog _ hmem rfl
    have hflag : ∀ q, s.bss.Matters q → (joined st).flag q = false := by
      intro q hq
      have hhas : st.has q = false := by
        rw [← hst]
        refine has_of_pureHt hpure ?_
        rw [hbss']
        exact hq
      rcases flag_joined st q with he | he
      · rw [he, hhas]
      · rw [he, hhas, ApSta.flag_congr hflags, h.flags q hq k]
        rfl
    refine h.update hopt hsta ?_ ?_ ?_ hflag fun q hq => ?_
    · exact hmode.trans (by rw [hbss'])
    · exact holbc.trans (by rw [hbss'])
    · exact hcap.trans (by rw [hbss'])
    · rw [hnum, hflag q hq, h.flags q hq k]
      ring

end Ap

namespace Ap

variable {s t : Ap RecvId} {es : List ApEvent}

/-- In an HT access point that only HT stations with greenfield join, which have its bandwidth,
`ht_op_mode` follows the counters after every run, and the HT elements of the beacon are made again
exactly if the mode changes. -/
theorem htMode_apRun (hs : Started s) (hht : s.base.mlmepriv.htOption = true)
    (hrun : runM apStep s es = some t) (hlog : ∀ c ∈ t.calls, c.op = .join → c.pureHt = true) :
    t.bss.HtModeRight ∧ ∀ k, t.bss.HtRefreshed (t.bssCapUpdateOnStaJoin k).bss ∧
      t.bss.HtRefreshed (t.bssCapUpdateOnStaLeave k).bss := by
  have h : PureHt t := by
    obtain ⟨-, -, -, hnoHt, hnoGf, hmhz, holbc, hmode⟩ := hs.bss
    refine invariant_apRun (I := PureHt) hs ⟨hht, hmode, holbc, fun q _ k => ?_, fun q hq => ?_⟩
      (fun u v hw hu hP hm => pureHt_move hw hu hP hm) hrun hlog
    · rw [hs.sta]
      cases q <;> rfl
    · rcases hq with rfl | rfl | ⟨rfl, -⟩
      · exact hnoHt
      · exact hnoGf
      · exact hmhz
  refine ⟨BssCap.htModeRight_of_zero h.mode h.olbc h.num, fun k => ⟨?_, ?_⟩⟩
  · exact (join_ht h.htOption k).2.2.2
  · exact (leave_ht h.htOption k).2.2.2

/-- An HT station with greenfield and 40 MHz joins. -/
def sampleHtJoin : List ApEvent :=
  [.auth true (sampleAuth Adapter.sampleTa), .assocReq (sampleHtReq Adapter.sampleTa 0x0012)]

theorem htMode_sampleHtJoin : ∃ t, runM apStep sampleHtAp sampleHtJoin = some t ∧
    t.asocList = [1] ∧ t.bss.HtModeRight ∧
      ∀ k, t.bss.HtRefreshed (t.bssCapUpdateOnStaJoin k).bss ∧
        t.bss.HtRefreshed (t.bssCapUpdateOnStaLeave k).bss := by
  have h := @htMode_apRun sampleHtAp _ sampleHtJoin started_sampleHtAp rfl rfl (by decide)
  exact ⟨_, rfl, by decide, h⟩

/-- A station without HT joins an HT access point, and the mode stays as it is. -/
theorem not_htMode_sampleJoin : ∃ t, runM apStep sampleHtAp sampleJoin = some t ∧
    t.bss.numStaNoHt = 1 ∧ t.bss.htOpMode = 0 ∧ t.bss.opModeOf = opModeMixed ∧
    ¬ t.bss.HtModeRight := by
  refine ⟨_, rfl, by decide +kernel, by decide +kernel, by decide +kernel, fun h => ?_⟩
  exact absurd h.mode (by decide +kernel)

end Ap

end Rtl8188eu
