import Rtl8188eu.ApRun

/-!
# Association ids and authentication bits

`OnAssocReq` hands out association ids and keeps them twice : in the record of the station and
in `sta_aid`. `rtw_free_stainfo` clears both. The error exit of `OnAssocReq` clears the record
only, so a station that has an id and is refused leaves an entry behind that no later step finds
again. Without such a step the table is a partial bijection in every state
(`aidTable_apRun`).
-/

set_option linter.unusedSectionVars false

namespace Rtl8188eu

open LiteralIndex

open LinkedLists Runs

namespace Ap

variable {ι : Type} [DecidableEq ι] {s s' : Ap ι} {k j : StaId} {auth : Bool}

/-! ## Association ids -/

/-- The ids and their table stay. -/
structure SameAids (s s' : Ap ι) : Prop where
  stations : Adapter.SameStations s.base s'.base
  aid : ∀ k, (s'.sta k).aid = (s.sta k).aid
  staAid : s'.staAid = s.staAid

theorem sameAids_update {st : ApSta} (hb : s'.base = s.base)
    (hsta : s'.sta = Function.update s.sta k st) (haid : st.aid = (s.sta k).aid)
    (htable : s'.staAid = s.staAid) : SameAids s s' := by
  refine ⟨hb ▸ Adapter.SameStations.refl _, fun j => ?_, htable⟩
  rw [hsta]
  rcases eq_or_ne j k with rfl | hj
  · rw [Function.update_self, haid]
  · rw [Function.update_of_ne hj]

/-- The moves that change the ids. -/
theorem move_aids (hw : WellFormed s) (h : Move auth s s') :
    SameAids s s' ∨ (∃ a k, s.rtwAllocStainfo a = (some k, s')) ∨
      (∃ (u : Ap ι) (k : StaId), SameAids s u ∧ s' = u.rtwFreeStainfo k) ∨
      (∃ k c, Refused k c s s') ∨ ∃ k a, s.Live k ∧ Accepted k a s s' := by
  have hself : SameAids s s := ⟨Adapter.SameStations.refl _, fun _ => rfl, rfl⟩
  cases h with
  | quiet h => exact Or.inl ⟨h.stations, fun k => (core_fields (h.core k)).2.1, h.staAid⟩
  | alloc h => exact Or.inr (Or.inl ⟨_, _, h⟩)
  | free => exact Or.inr (Or.inr (Or.inl ⟨s, _, hself, rfl⟩))
  | @remove k hasoc =>
    obtain ⟨st, hst, hcore, -⟩ := (s.asocUnlink k).apLeave_sta k
    refine Or.inr (Or.inr (Or.inl ⟨(s.asocUnlink k).apLeave k, k, ?_, rfl⟩))
    exact sameAids_update rfl hst (core_eq hcore).2.1 rfl
  | refuse _ hreq => exact Or.inr (Or.inr (Or.inr (Or.inl ⟨_, hreq.refused⟩)))
  | accept hlive hreq hroom =>
    obtain ⟨a, ha⟩ := hreq.accepted hroom
    exact Or.inr (Or.inr (Or.inr (Or.inr ⟨_, a, hlive, ha⟩)))
  | note | authAdd | authDel | class2 =>
    exact Or.inl ⟨Adapter.SameStations.refl _, fun _ => rfl, rfl⟩
  | reauth =>
    unfold reauth
    dsimp only
    split
    · exact Or.inl ⟨Adapter.SameStations.refl _, fun _ => rfl, rfl⟩
    · exact Or.inl ⟨Adapter.SameStations.refl _, fun _ => rfl, rfl⟩
  | mark | authDone | stop | buffer | bufferGroup | setPending | aliveChk =>
    exact Or.inl (sameAids_update rfl rfl rfl rfl)
  | @wakeup k =>
    obtain ⟨st, v, hcore, -, -, -, he⟩ := wakeupSta_eq (hw.counted k)
    rw [he]
    exact Or.inl (sameAids_update rfl rfl (core_eq hcore).2.1 rfl)
  | wakeupGroup =>
    rcases wakeupGroup_cases hw with he | ⟨b, st, -, -, hcore, he⟩
    · rw [he]
      exact Or.inl hself
    · rw [he]
      exact Or.inl (sameAids_update rfl rfl (core_eq hcore).2.1 rfl)
  | @deliver k =>
    obtain ⟨st, q, clr, hcore, he⟩ := xmitDeliveryEnabledFrames_eq (hw.counted k)
    rw [he]
    exact Or.inl (sameAids_update rfl rfl (core_eq hcore).2.1 rfl)
  | @psPoll k priority =>
    rcases psPoll_cases (hw.counted k) priority with he | ⟨st, v, q, tim, hcore, -, -, -, -, -, he⟩
    · rw [he]
      exact Or.inl hself
    · rw [he]
      exact Or.inl (sameAids_update rfl rfl (core_eq hcore).2.1 rfl)
  | txBeacon =>
    rcases txBeaconHdl_cases hw with he | ⟨b, st, -, -, -, hcore, he⟩
    · rw [he]
      exact Or.inl hself
    · rw [he]
      exact Or.inl (sameAids_update rfl rfl (core_eq hcore).2.1 rfl)
  | hiQueue =>
    rcases rtwChkHiQueueHdl_cases hw _ with he | ⟨b, -, -, he⟩
    · rw [he]
      exact Or.inl hself
    · rw [he]
      exact Or.inl ⟨Adapter.SameStations.refl _, fun _ => rfl, rfl⟩

/-- A freed record gives its id back, if `sta_aid` has it. -/
theorem free_aids (hlisted : 0 < (s.sta k).aid → s.staAid ((s.sta k).aid - 1) = some k) :
    ((s.rtwFreeStainfo k).sta k).aid = 0 ∧
      (∀ j, j ≠ k → ((s.rtwFreeStainfo k).sta j).aid = (s.sta j).aid) ∧
      ∀ i, (s.rtwFreeStainfo k).staAid i = if (s.sta k).aid = i + 1 then none else s.staAid i := by
  have hdec : (0 < (s.sta k).aid ∧ s.staAid ((s.sta k).aid - 1) = some k) ↔ 0 < (s.sta k).aid :=
    ⟨And.left, fun h => ⟨h, hlisted h⟩⟩
  simp only [rtwFreeStainfo, hdec]
  refine ⟨?_, fun j hj => ?_, fun i => ?_⟩
  · rw [Function.update_self]
    by_cases hpos : 0 < (s.sta k).aid
    · simp [clearedSta, hpos]
    · simp only [clearedSta, hpos, decide_false, Bool.false_eq_true, if_false]
      omega
  · rw [Function.update_of_ne hj]
  · by_cases hpos : 0 < (s.sta k).aid
    · simp only [hpos, decide_true, if_true]
      by_cases hi : (s.sta k).aid = i + 1
      · rw [if_pos hi, hi, Nat.add_sub_cancel, Function.update_self]
      · rw [if_neg hi, Function.update_of_ne (by omega)]
    · simp only [hpos, decide_false, Bool.false_eq_true, if_false]
      rw [if_neg (by omega)]

/-- Every id in a record has its entry in `sta_aid`. -/
def AidsListed (s : Ap ι) : Prop := ∀ k, 0 < (s.sta k).aid → s.staAid ((s.sta k).aid - 1) = some k

/-- No two records have one id. -/
theorem AidsListed.injective (h : AidsListed s) (hpos : 0 < (s.sta j).aid)
    (he : (s.sta j).aid = (s.sta k).aid) : j = k := by
  have hj := h j hpos
  rw [he, h k (he ▸ hpos)] at hj
  exact (Option.some.inj hj).symm

/-- Every entry of `sta_aid` is the id of a station that has a record. -/
def AidsOwned (s : Ap ι) : Prop := ∀ i k, s.staAid i = some k → s.Live k ∧ (s.sta k).aid = i + 1

theorem AidsListed.congr (h : AidsListed s) (hsame : SameAids s s') : AidsListed s' := by
  intro j hj
  rw [hsame.aid] at hj
  rw [hsame.aid, hsame.staAid]
  exact h j hj

theorem AidsOwned.congr (h : AidsOwned s) (hsame : SameAids s s') : AidsOwned s' := by
  intro i j hi
  rw [hsame.staAid] at hi
  rw [hsame.aid, live_congr hsame.stations]
  exact h i j hi

theorem aidsListed_move (hw : WellFormed s) (h : AidsListed s) (hm : Move auth s s') :
    AidsListed s' := by
  rcases move_aids hw hm with hsame | ⟨a, k, ha⟩ | ⟨u, k, hsame, rfl⟩ | ⟨k, c, hc⟩ | ⟨k, a, -, ha⟩
  · exact h.congr hsame
  · obtain ⟨base, -, rfl⟩ := alloc_eq ha
    intro j hj
    rcases eq_or_ne j k with rfl | hne
    · simp [record, updateSta, initApSta] at hj
    · simp only [record, updateSta, Function.update_of_ne hne] at hj ⊢
      exact h j hj
  · have hu := h.congr hsame
    obtain ⟨hself, hothers, htable⟩ := free_aids (hu k)
    intro j hj
    rcases eq_or_ne j k with rfl | hne
    · omega
    · rw [hothers j hne] at hj ⊢
      rw [htable, if_neg, hu j hj]
      intro hkj
      exact hne (hu.injective hj (by omega))
  · obtain ⟨st, hsta, hcore, -⟩ := hc.sta
    intro j hj
    rw [hsta] at hj
    rw [hsta, hc.staAid]
    rcases eq_or_ne j k with rfl | hne
    · rw [Function.update_self, (core_eq hcore).2.1] at hj
      omega
    · rw [Function.update_of_ne hne] at hj ⊢
      exact h j hj
  · obtain ⟨st, hsta, hcore, -⟩ := ha.sta
    have haid := (core_eq hcore).2.1
    intro j hj
    rw [hsta] at hj ⊢
    rcases eq_or_ne j k with rfl | hne
    · rw [Function.update_self, haid] at hj ⊢
      rcases ha.staAid with ⟨hpos, hold, htable⟩ | ⟨-, hpos, -, htable⟩
      · rw [htable, ← hold]
        exact h j (by omega)
      · rw [htable, Function.update_self]
    · rw [Function.update_of_ne hne] at hj ⊢
      rcases ha.staAid with ⟨hpos, hold, htable⟩ | ⟨-, hpos, hnone, htable⟩
      · rw [htable]
        exact h j hj
      · rw [htable, Function.update_of_ne, h j hj]
        intro hi
        have hj' := h j hj
        rw [hi, hnone] at hj'
        simp at hj'

theorem aidsOwned_move (hw : WellFormed s) (hl : AidsListed s) (h : AidsOwned s)
    (hlog : ∀ c ∈ s'.calls, c.op = .reject → c.aid = 0) (hm : Move auth s s') : AidsOwned s' := by
  rcases move_aids hw hm with hsame | ⟨a, k, ha⟩ | ⟨u, k, hsame, rfl⟩ | ⟨k, c, hc⟩ | ⟨k, a,
    hlive, ha⟩
  · exact h.congr hsame
  · have hdead := hw.not_live_alloc ha
    have hlive : ∀ j, s.Live j → s'.Live j := fun j hj => (live_alloc ha).mpr (Or.inl hj)
    obtain ⟨base, -, rfl⟩ := alloc_eq ha
    intro i j hi
    obtain ⟨hlj, haid⟩ := h i j hi
    have hne : j ≠ k := by
      rintro rfl
      exact hdead hlj
    refine ⟨hlive j hlj, ?_⟩
    simpa only [record, updateSta, Function.update_of_ne hne] using haid
  · have hu := h.congr hsame
    obtain ⟨-, hothers, htable⟩ := free_aids (hl.congr hsame k)
    intro i j hi
    rw [htable] at hi
    split at hi
    · simp at hi
    · rename_i hne
      obtain ⟨hlj, haid⟩ := hu i j hi
      have hjk : j ≠ k := by
        rintro rfl
        exact hne haid
      rw [hothers j hjk]
      exact ⟨live_free.mpr ⟨hlj, hjk⟩, haid⟩
  · obtain ⟨st, hsta, -⟩ := hc.sta
    have hmem : c ∈ s'.calls := by
      rw [hc.calls]
      exact List.mem_cons_self
    have hzero : (s.sta k).aid = 0 := hc.aid ▸ hlog c hmem hc.op
    intro i j hi
    rw [hc.staAid] at hi
    obtain ⟨hlj, haid⟩ := h i j hi
    have hne : j ≠ k := by
      rintro rfl
      omega
    refine ⟨(live_congr hc.tables.stations).mpr hlj, ?_⟩
    rw [hsta, Function.update_of_ne hne]
    exact haid
  · obtain ⟨st, hsta, hcore, -⟩ := ha.sta
    have haid := (core_eq hcore).2.1
    intro i j hi
    rw [live_congr ha.stations, hsta]
    rcases ha.staAid with ⟨hpos, hold, htable⟩ | ⟨hzero, hpos, hnone, htable⟩
    · rw [htable] at hi
      obtain ⟨hlj, hj⟩ := h i j hi
      refine ⟨hlj, ?_⟩
      rcases eq_or_ne j k with rfl | hne
      · rw [Function.update_self, haid, ← hold, hj]
      · rw [Function.update_of_ne hne, hj]
    · rw [htable] at hi
      rcases eq_or_ne i (a - 1) with rfl | hia
      · rw [Function.update_self] at hi
        cases hi
        refine ⟨hlive, ?_⟩
        rw [Function.update_self, haid]
        omega
      · rw [Function.update_of_ne hia] at hi
        obtain ⟨hlj, hj⟩ := h i j hi
        have hne : j ≠ k := by
          rintro rfl
          omega
        refine ⟨hlj, ?_⟩
        rw [Function.update_of_ne hne, hj]

/-- `sta_aid` and the ids in the records are inverse to each other. -/
structure AidTable (s : Ap ι) : Prop where
  listed : ∀ k, s.Live k → 0 < (s.sta k).aid → s.staAid ((s.sta k).aid - 1) = some k
  owned : ∀ i k, s.staAid i = some k → s.Live k ∧ (s.sta k).aid = i + 1

end Ap

namespace Ap

variable {s t : Ap RecvId} {es : List ApEvent}

/-- If no station that has an id is refused, `sta_aid` is a partial bijection after every
run. -/
theorem aidTable_apRun (hs : Started s) (hrun : runM apStep s es = some t)
    (hlog : ∀ c ∈ t.calls, c.op = .reject → c.aid = 0) : AidTable t := by
  have hinv : AidsListed t ∧ AidsOwned t := by
    refine invariant_apRun (I :=
      fun u => AidsListed u ∧ AidsOwned u) hs ⟨fun k hk => ?_, fun i k hi => ?_⟩
      (fun u v hw hu hP hm => ?_) hrun hlog
    · rw [hs.sta] at hk
      simp [initApSta] at hk
    · rw [hs.staAid] at hi
      simp at hi
    · exact ⟨aidsListed_move hw hu.1 hm, aidsOwned_move hw hu.1 hu.2 hP hm⟩
  exact ⟨fun k _ hk => hinv.1 k hk, hinv.2⟩

/-- A station authenticates and is associated. -/
def sampleJoin : List ApEvent :=
  [.auth true (sampleAuth Adapter.sampleTa), .assocReq (sampleAssocReq Adapter.sampleTa true)]

theorem aidTable_sampleJoin :
    ∃ t, runM apStep sampleAp sampleJoin = some t ∧ t.staAid 0 = some 1 ∧ AidTable t := by
  have h := @aidTable_apRun sampleAp _ sampleJoin started_sampleAp rfl (by decide)
  exact ⟨_, rfl, by decide, h⟩

/-- The station is refused when it associates again, and leaves. -/
def sampleRefused : List ApEvent :=
  sampleJoin ++ [.assocReq (sampleAssocReq Adapter.sampleTa false), .freeStainfo Adapter.sampleTa]

/-- The entry of the station in `sta_aid` stays behind. -/
theorem not_aidTable_sampleRefused : ∃ t, runM apStep sampleAp sampleRefused = some t ∧
    t.staAid 0 = some 1 ∧ ¬ t.Live 1 ∧ ¬ AidTable t := by
  refine ⟨_, rfl, ?_⟩
  set t := (((sampleAp.onAuth true (sampleAuth Adapter.sampleTa)).onAssocReq
    (sampleAssocReq Adapter.sampleTa true)).onAssocReq
    (sampleAssocReq Adapter.sampleTa false)).freeStainfo Adapter.sampleTa with ht
  have hentry : t.staAid 0 = some 1 := by
    rw [ht]
    decide
  have hhash : ∀ i, 1 ∉ t.base.staHash i := by
    rw [ht]
    decide
  have hdead : ¬ t.Live 1 := by
    rintro ⟨i, hi⟩
    exact hhash i hi
  exact ⟨hentry, hdead, fun h => hdead (h.owned 0 1 hentry).1⟩

end Ap

/-! ## The bit of a completed authentication -/

/-- The station `k` has completed its authentication, and since then it has not asked for an
association, and its record was neither freed nor made. -/
def authed : List ApCall → StaId → Bool
  | [], _ => false
  | c :: cs, k =>
    if c.sta = k then
      match c.op with
      | .authDone => true
      | .assocReq | .free | .alloc => false
      | _ => authed cs k
    else authed cs k

/-- The entry is about authentication. -/
def ApOp.AboutAuth (op : ApOp) : Prop :=
  op = .authDone ∨ op = .assocReq ∨ op = .free ∨ op = .alloc

theorem authed_of_ne {c : ApCall} {cs : List ApCall} {k : StaId} (h : c.sta ≠ k) :
    authed (c :: cs) k = authed cs k := by
  rw [authed, if_neg h]

theorem authed_of_not_aboutAuth {c : ApCall} {cs : List ApCall} {k : StaId}
    (h : ¬ c.op.AboutAuth) : authed (c :: cs) k = authed cs k := by
  unfold ApOp.AboutAuth at h
  rw [authed]
  split
  · split <;> simp_all
  · rfl

/-- The branches of power save and of the alive check that change the bit : a sleeping station is
asked whether it is there, or an authenticated station wakes up or polls. -/
def ApCall.AliveBranch (c : ApCall) : Prop :=
  c.op = .aliveChk ∨ (c.op = .wakeup ∨ c.op = .psPoll) ∧ c.authSuccess = true

namespace Ap

variable {ι : Type} [DecidableEq ι] {s s' : Ap ι} {k j : StaId} {auth : Bool}

/-- The bit says of every station whether it is authenticated. -/
def AuthBits (s : Ap ι) : Prop := ∀ k, s.Live k → (s.sta k).authSuccess = authed s.calls k

/-- One record changes. -/
theorem AuthBits.update (h : AuthBits s) {st : ApSta} (hlive : ∀ j, j ≠ k → s'.Live j → s.Live j)
    (hsta : s'.sta = Function.update s.sta k st)
    (hbit : s'.Live k → st.authSuccess = authed s'.calls k)
    (hcalls : ∀ j, j ≠ k → authed s'.calls j = authed s.calls j) : AuthBits s' := by
  intro j hj
  rw [hsta]
  rcases eq_or_ne j k with rfl | hne
  · rw [Function.update_self]
    exact hbit hj
  · rw [Function.update_of_ne hne, hcalls j hne]
    exact h j (hlive j hne hj)

/-- One record changes, but not in the bit, and nothing is noted about authentication. -/
theorem AuthBits.keep (h : AuthBits s) {st : ApSta} (hb : s'.base = s.base)
    (hsta : s'.sta = Function.update s.sta k st) (hbit : getElem st.state 10 authBit_lt = getElem (s.sta k).state 10 authBit_lt)
    (hcalls : ∀ j, authed s'.calls j = authed s.calls j) : AuthBits s' := by
  have hlive : ∀ j, s'.Live j → s.Live j := by
    intro j hj
    rwa [Live, hb] at hj
  refine h.update (fun j _ => hlive j) hsta (fun hk => ?_) fun j _ => hcalls j
  rw [ApSta.authSuccess_eq, hbit, ← ApSta.authSuccess_eq, hcalls]
  exact h k (hlive k hk)

theorem AuthBits.free (h : AuthBits s) (k : StaId) : AuthBits (s.rtwFreeStainfo k) := by
  obtain ⟨n, hsta⟩ := s.sta_free k
  refine h.update (fun j _ hl => (live_free.mp hl).1) hsta (fun hk => ?_) fun j hj => ?_
  · exact absurd rfl (live_free.mp hk).2
  · exact authed_of_ne (by exact hj.symm)

theorem authBits_move (hw : WellFormed s) (h : AuthBits s)
    (hlog : ∀ c ∈ s'.calls, ¬ c.AliveBranch) (hm : Move auth s s') : AuthBits s' := by
  cases hm with
  | quiet hq =>
    intro k hk
    rw [live_congr hq.stations] at hk
    rw [hq.calls, ApSta.authSuccess_eq, (core_fields (hq.core k)).1, ← ApSta.authSuccess_eq]
    exact h k hk
  | note hop =>
    intro k hk
    rw [authed_of_not_aboutAuth]
    · exact h k hk
    · rcases hop with hop | hop | hop
      · simp [ApOp.AboutAuth, hop]
      · simp [ApOp.AboutAuth, hop]
      · simp [ApOp.AboutAuth, hop]
  | @alloc _ k a ha =>
    have hlive : ∀ j, j ≠ k → s'.Live j → s.Live j := fun j hj hl =>
      ((live_alloc ha).mp hl).resolve_right hj
    obtain ⟨base, -, he⟩ := alloc_eq ha
    have hcalls : ∃ c, c.op = .alloc ∧ c.sta = k ∧ s'.calls = c :: s.calls := by
      rw [he]
      exact ⟨_, rfl, rfl, rfl⟩
    obtain ⟨c, hop, hc, hcalls⟩ := hcalls
    have hsta : s'.sta = Function.update s.sta k initApSta := by
      rw [he]
      rfl
    refine h.update hlive hsta (fun _ => ?_) fun j hj => ?_
    · rw [hcalls, authed, if_pos hc, hop]
      rfl
    · rw [hcalls, authed_of_ne (by rw [hc]; exact hj.symm)]
  | free => exact h.free _
  | @remove k hasoc =>
    obtain ⟨st, hst, -, -, h10, -⟩ := (s.asocUnlink k).apLeave_sta k
    have hu : AuthBits ((s.asocUnlink k).apLeave k) := h.keep rfl hst h10 fun _ => rfl
    exact hu.free k
  | authAdd => exact h
  | authDel => exact h
  | @reauth k _ hlive =>
    have hskip : AuthBits (s.record .reauth k) := fun j hj => by
      rw [record, authed_of_not_aboutAuth (by simp [ApOp.AboutAuth, callOf])]
      exact h j hj
    unfold reauth
    dsimp only
    split
    · exact hskip
    · exact hskip
  | @mark k v hauth _ _ =>
    refine h.keep rfl rfl ?_ fun _ => rfl
    rw [← hasBits_authSuccess, hauth, ApSta.authSuccess_eq]
  | @authDone k clr hlive hclr =>
    refine h.update (fun _ _ hl => hl) rfl (fun _ => ?_) fun j hj => ?_
    · rw [ApSta.authSuccess_eq]
      simp [authComplete, record, callOf, authed, wifiFwAuthSuccess]
    · exact authed_of_ne (by exact hj.symm)
  | @class2 k hauth =>
    intro j hj
    rcases eq_or_ne k j with rfl | hne
    · rw [show ((s.record .assocReq k).sta k).authSuccess = false from hauth]
      simp [record, callOf, authed]
    · rw [record, authed_of_ne (by exact hne)]
      exact h j hj
  | @refuse t k hlive hreq =>
    obtain ⟨c, hc⟩ := hreq.refused
    obtain ⟨st, hsta, -, -, h10, -⟩ := hc.sta
    have hskip : ∀ cs j, authed (c :: cs) j = authed cs j := fun cs j =>
      authed_of_not_aboutAuth (by simp [ApOp.AboutAuth, hc.op])
    refine h.update (fun j _ hl => (live_congr hc.tables.stations).mp hl) hsta (fun _ => ?_)
      fun j hj => ?_
    · rw [hc.calls, hskip, ApSta.authSuccess_eq, h10]
      simp [callOf, authed]
    · rw [hc.calls, hskip, authed_of_ne (by exact hj.symm)]
  | @accept t k hlive hreq hroom =>
    obtain ⟨a, ha⟩ := hreq.accepted hroom
    obtain ⟨st, hsta, -, -, h10, -⟩ := ha.sta
    obtain ⟨c, hop, hcalls⟩ := ha.calls
    have hskip : ∀ cs j, authed (c :: cs) j = authed cs j := fun cs j =>
      authed_of_not_aboutAuth (by simp [ApOp.AboutAuth, hop])
    refine h.update (fun j _ hl => (live_congr ha.stations).mp hl) hsta (fun _ => ?_) fun j hj => ?_
    · rw [hcalls, hskip, ApSta.authSuccess_eq, h10]
      simp [callOf, authed]
    · rw [hcalls, hskip, authed_of_ne (by exact hj.symm)]
  | @stop k hlive =>
    refine h.keep rfl rfl ?_ fun j => authed_of_not_aboutAuth (by simp [ApOp.AboutAuth, callOf])
    simp [record, wifiSleepState]
  | @buffer k f hlive hasleep =>
    exact h.keep rfl rfl rfl fun j => authed_of_not_aboutAuth (by simp [ApOp.AboutAuth, callOf])
  | bufferGroup => exact h.keep rfl rfl rfl fun _ => rfl
  | setPending => exact h.keep rfl rfl rfl fun _ => rfl
  | @wakeup k hlive hs =>
    obtain ⟨st, v, hcore, -, h10, -, he⟩ := wakeupSta_eq (hw.counted k)
    rw [he] at hlog ⊢
    have hno := hlog _ List.mem_cons_self
    have hbit : (s.sta k).authSuccess = false := by
      simpa [ApCall.AliveBranch, callOf] using hno
    refine h.keep rfl rfl ?_ fun j => authed_of_not_aboutAuth (by simp [ApOp.AboutAuth, callOf])
    rw [(core_eq hcore).1, h10, ← ApSta.authSuccess_eq, hbit]
  | wakeupGroup =>
    rcases wakeupGroup_cases hw with he | ⟨b, st, -, -, hcore, he⟩
    · rw [he]
      exact h
    · rw [he]
      exact h.keep rfl rfl (by rw [(core_eq hcore).1]) fun _ => rfl
  | @deliver k hlive hasleep =>
    obtain ⟨st, q, clr, hcore, he⟩ := xmitDeliveryEnabledFrames_eq (hw.counted k)
    rw [he]
    exact h.keep rfl rfl (by rw [(core_eq hcore).1]) fun j =>
      authed_of_not_aboutAuth (by simp [ApOp.AboutAuth, callOf])
  | @psPoll k priority hlive =>
    rcases psPoll_cases (hw.counted k) priority with he | ⟨st, v, q, tim, hcore, -, h10,
      -, -, -, he⟩
    · rw [he]
      exact h
    · rw [he] at hlog ⊢
      have hno := hlog _ List.mem_cons_self
      have hbit : (s.sta k).authSuccess = false := by
        simpa [ApCall.AliveBranch, callOf] using hno
      refine h.keep rfl rfl ?_ fun j => authed_of_not_aboutAuth (by simp [ApOp.AboutAuth, callOf])
      rw [(core_eq hcore).1, h10, ← ApSta.authSuccess_eq, hbit]
  | @aliveChk k hlive hasleep =>
    exact absurd (Or.inl rfl) (hlog (s.callOf .aliveChk k) List.mem_cons_self)
  | txBeacon =>
    rcases txBeaconHdl_cases hw with he | ⟨b, st, -, -, -, hcore, he⟩
    · rw [he]
      exact h
    · rw [he]
      exact h.keep rfl rfl (by rw [(core_eq hcore).1]) fun _ => rfl
  | hiQueue =>
    rcases rtwChkHiQueueHdl_cases hw _ with he | ⟨b, -, -, he⟩
    · rw [he]
      exact h
    · rw [he]
      exact h

end Ap

namespace Ap

variable {s t : Ap RecvId} {es : List ApEvent}

/-- If power save and the alive check never take the branches that change the bit, then after
every run the bit says of every station whether it is authenticated. -/
theorem authBits_apRun (hs : Started s) (hrun : runM apStep s es = some t)
    (hlog : ∀ c ∈ t.calls, ¬ c.AliveBranch) :
    ∀ k, t.Live k → (t.sta k).authSuccess = authed t.calls k := by
  refine invariant_apRun (I := AuthBits) hs (fun k _ => ?_)
    (fun u v hw hu hP hm => authBits_move hw hu hP hm) hrun hlog
  rw [hs.sta, hs.calls]
  rfl

/-- The branches of the alive check are decidable. -/
instance (c : ApCall) : Decidable c.AliveBranch := by
  unfold ApCall.AliveBranch
  infer_instance

/-- The station is associated, falls asleep and wakes up. -/
def sampleNap : List ApEvent :=
  sampleJoin ++ [.rx (sampleNull Adapter.sampleTa true), .rx (sampleNull Adapter.sampleTa false)]

theorem authBits_sampleNap : ∃ t, runM apStep sampleAp sampleNap = some t ∧ t.Live 1 ∧
    (t.sta 1).asleep = false ∧ ∀ k, t.Live k → (t.sta k).authSuccess = authed t.calls k := by
  have hrun : ((runM apStep sampleAp sampleNap).any fun t =>
      decide (∃ i, (1 : StaId) ∈ t.base.staHash i) && !(t.sta 1).asleep &&
        decide (∀ c ∈ t.calls, ¬ c.AliveBranch)) = true := by
    decide +kernel
  obtain ⟨t, ht, h⟩ := Option.any_eq_true _ _ |>.mp hrun
  simp only [Bool.and_eq_true, decide_eq_true_eq, Bool.not_eq_true'] at h
  exact ⟨t, ht, h.1.1, h.1.2, authBits_apRun started_sampleAp ht h.2⟩

/-- No station is there, and no null frame is acknowledged. -/
def sampleSilence : TickEnv := ⟨fun _ => false, fun _ => false, 0⟩

/-- The station is associated, falls asleep and is not heard of again. -/
def sampleAsleep : List ApEvent :=
  sampleJoin ++ [.rx (sampleNull Adapter.sampleTa true), .tick sampleSilence, .tick sampleSilence,
    .tick sampleSilence]

/-- The alive check makes a station authenticated. -/
theorem not_authBits_sampleAsleep : ∃ t, runM apStep sampleAp sampleAsleep = some t ∧ t.Live 1 ∧
    (t.sta 1).authSuccess = true ∧ authed t.calls 1 = false := by
  have h : ((runM apStep sampleAp sampleAsleep).any fun t =>
      decide (∃ i, (1 : StaId) ∈ t.base.staHash i) && (t.sta 1).authSuccess &&
        !authed t.calls 1) = true := by
    decide +kernel
  obtain ⟨t, ht, h⟩ := Option.any_eq_true _ _ |>.mp h
  simp only [Bool.and_eq_true, decide_eq_true_eq, Bool.not_eq_true'] at h
  exact ⟨t, ht, h.1.1, h.1.2, h.2⟩

end Ap

end Rtl8188eu
