import Rtl8188eu.ApStations
import Rtl8188eu.PortControl

/-!
# Data frames of stations that are not associated

A station of an access point has a record from its first authentication frame on, and keeps it when
an association request is refused. `sta2ap_data_frame` looks for the record only, so what a station
sends before it is associated is handed up, and its power-management bit is acted on. Frames that
wait on a pending list of the reorder code are handed up later, by another frame or by a timer.

`Class3` says that every to-DS frame on a pending list is from an associated station, and that the
log has no power-management bit and no packet of another station. `class3_apRun` keeps it along every
run without a data frame of a station that is not associated (`Unassociated`) and without a request
that takes the association of a station whose frames are pending (`Strands`).
-/

namespace Rtl8188eu

open LiteralIndex

open LinkedLists Runs

/-! ## The pending lists of a record -/

namespace Adapter

variable {s t : Adapter RecvId} {k : StaId}

theorem mem_freeFrames {c : StaId × Fin 16} {x : RecvId} :
    ∀ (fs : List RecvId) (s : Adapter RecvId),
    x ∈ (s.freeFrames fs).pendingOf c → x ∈ s.pendingOf c ∧ x ∉ fs
  | [], _, hx => ⟨hx, List.not_mem_nil⟩
  | f :: fs, s, hx => by
    rw [freeFrames_cons] at hx
    obtain ⟨hx, hfs⟩ := mem_freeFrames fs _ hx
    rw [rtwFreeRecvframe_eq, pendingOf_consumed, List.mem_filter] at hx
    have hne : x ≠ f := by simpa using hx.2
    exact ⟨hx.1, fun hmem => (List.mem_cons.mp hmem).elim hne hfs⟩

theorem mem_freePendings {tid : Fin 16} {x : RecvId} :
    ∀ (tids : List (Fin 16)) (s : Adapter RecvId),
    x ∈ (tids.foldl (fun s tid => s.freePending k tid) s).pendingOf (k, tid) →
      x ∈ s.pendingOf (k, tid) ∧ tid ∉ tids
  | [], _, hx => ⟨hx, List.not_mem_nil⟩
  | tid' :: tids, s, hx => by
    rw [List.foldl_cons] at hx
    obtain ⟨hx, htids⟩ := mem_freePendings tids _ hx
    rw [freePending_eq] at hx
    obtain ⟨hold, hfs⟩ := mem_freeFrames (s.queue (.pending k tid')) s hx
    refine ⟨hold, fun hmem => (List.mem_cons.mp hmem).elim ?_ htids⟩
    rintro rfl
    exact hfs hold

/-- `rtw_free_stainfo` empties the pending lists of the record. -/
theorem pendingOf_rtwFreeStainfo (s : Adapter RecvId) (k : StaId) (tid : Fin 16) :
    (s.rtwFreeStainfo k).pendingOf (k, tid) = [] := by
  refine List.eq_nil_iff_forall_not_mem.mpr fun x => ?_
  have hall : ∀ u : Adapter RecvId,
      x ∉ ((List.finRange 16).foldl (fun s tid => s.freePending k tid) u).pendingOf (k, tid) :=
    fun u hx => (mem_freePendings (List.finRange 16) u hx).2 (List.mem_finRange tid)
  have hlast : ∀ u : Adapter RecvId, x ∉ u.pendingOf (k, tid) →
      x ∉ { u with freeStaQueue := u.freeStaQueue ++ [k] }.pendingOf (k, tid) := fun _ hx => hx
  exact hlast _ (hall _)

theorem pendingOf_rtwAllocStainfo {a : MacAddr} (h : s.rtwAllocStainfo a = (some k, t))
    (tid : Fin 16) :
    t.pendingOf (k, tid) = [] := by
  unfold rtwAllocStainfo at h
  split at h
  · cases h
  · obtain ⟨hk, rfl⟩ := Prod.mk.inj h
    cases hk
    exact if_pos rfl

end Adapter

/-! ## What keeps the rule -/

namespace Ap

variable {s t u : Ap RecvId} {j k : StaId}

/-- What happens to a station with frames on its pending lists : it stays in the table, it stays
associated, and the log gets no entry about a data frame. -/
structure Tame (s t : Ap RecvId) : Prop where
  shrinks : Adapter.Shrinks s.base t.base
  get : ∀ k tid, t.base.pendingOf (k, tid) ≠ [] → ∀ a, s.base.rtwGetStainfo a = some k →
    t.base.rtwGetStainfo a = some k
  assoc : ∀ k tid, t.base.pendingOf (k, tid) ≠ [] → (s.sta k).assocSuccess = true →
    (t.sta k).assocSuccess = true
  calls : ∃ cs, t.calls = cs ++ s.calls ∧ ∀ c ∈ cs, c.op ≠ .pwrBit ∧ c.op ≠ .handUp

theorem Tame.refl (s : Ap RecvId) : Tame s s :=
  ⟨Adapter.Shrinks.refl _, fun _ _ _ _ h => h, fun _ _ _ h => h, [], rfl, by simp⟩

theorem pending_ne_nil {s t : Adapter RecvId} (h : Adapter.Shrinks s t) {c : StaId × Fin 16}
    (hc : t.pendingOf c ≠ []) : s.pendingOf c ≠ [] := by
  obtain ⟨x, hx⟩ := List.exists_mem_of_ne_nil _ hc
  exact List.ne_nil_of_mem (h.pending c x hx).1

theorem Tame.trans (h₁ : Tame s t) (h₂ : Tame t u) : Tame s u := by
  obtain ⟨cs₁, he₁, hc₁⟩ := h₁.calls
  obtain ⟨cs₂, he₂, hc₂⟩ := h₂.calls
  refine ⟨h₁.shrinks.trans h₂.shrinks,
    fun k tid hk a ha => ?_, fun k tid hk ha => ?_, cs₂ ++ cs₁, ?_,
    fun c hc => ?_⟩
  · exact h₂.get k tid hk a (h₁.get k tid (pending_ne_nil h₂.shrinks hk) a ha)
  · exact h₂.assoc k tid hk (h₁.assoc k tid (pending_ne_nil h₂.shrinks hk) ha)
  · rw [he₂, he₁, List.append_assoc]
  · rcases List.mem_append.mp hc with hc | hc
    · exact hc₂ c hc
    · exact hc₁ c hc

/-- The receive path is not concerned, nobody joins and nobody leaves. -/
structure Calm (s t : Ap RecvId) : Prop where
  base : t.base = s.base
  assoc : ∀ k, getElem (t.sta k).state 14 assocBit_lt = getElem (s.sta k).state 14 assocBit_lt
  calls : ∃ cs, t.calls = cs ++ s.calls ∧ ∀ c ∈ cs, c.op ≠ .pwrBit ∧ c.op ≠ .handUp

theorem Calm.refl (s : Ap RecvId) : Calm s s := ⟨rfl, fun _ => rfl, [], rfl, by simp⟩

theorem Calm.trans (h₁ : Calm s t) (h₂ : Calm t u) : Calm s u := by
  obtain ⟨cs₁, he₁, hc₁⟩ := h₁.calls
  obtain ⟨cs₂, he₂, hc₂⟩ := h₂.calls
  refine ⟨h₂.base.trans h₁.base, fun k => (h₂.assoc k).trans (h₁.assoc k), cs₂ ++ cs₁, ?_,
    fun c hc => ?_⟩
  · rw [he₂, he₁, List.append_assoc]
  · rcases List.mem_append.mp hc with hc | hc
    · exact hc₂ c hc
    · exact hc₁ c hc

theorem Calm.tame (h : Calm s t) : Tame s t := by
  refine ⟨?_, fun k tid _ a ha => ?_, fun k tid _ ha => ?_, h.calls⟩
  · rw [h.base]
    exact Adapter.Shrinks.refl _
  · rw [h.base, ha]
  · rw [ApSta.assocSuccess_eq] at ha ⊢
    rw [h.assoc, ha]

/-- One record changes, but not the bit of the association. -/
theorem calm_update {st : ApSta} (hb : t.base = s.base) (hsta : t.sta = Function.update s.sta k st)
    (hst : getElem st.state 14 assocBit_lt = getElem (s.sta k).state 14 assocBit_lt)
    (hcalls : t.calls = s.calls ∨ ∃ c, t.calls = c :: s.calls ∧ c.op ≠ .pwrBit ∧ c.op ≠ .handUp) :
    Calm s t := by
  refine ⟨hb, fun j => ?_, ?_⟩
  · rw [hsta]
    rcases eq_or_ne j k with rfl | hj
    · rw [Function.update_self, hst]
    · rw [Function.update_of_ne hj]
  · rcases hcalls with h | ⟨c, h, hc⟩
    · exact ⟨[], h, by simp⟩
    · exact ⟨[c], h, by simpa using hc⟩

/-- What is not about the stations. -/
theorem calm_same (hb : t.base = s.base) (hsta : t.sta = s.sta) (hcalls : t.calls = s.calls) :
    Calm s t :=
  ⟨hb, fun k => by rw [hsta], [], hcalls, by simp⟩

theorem calm_record {op : ApOp} (hop : op ≠ .pwrBit ∧ op ≠ .handUp) : Calm s (s.record op k) :=
  ⟨rfl, fun _ => rfl, [s.callOf op k], rfl, by simpa [callOf] using hop⟩

theorem calm_updateSta {f : ApSta → ApSta} (hf : ∀ st, getElem (f st).state 14 assocBit_lt = getElem st.state 14 assocBit_lt) :
    Calm s (s.updateSta k f) :=
  calm_update rfl rfl (hf (s.sta k)) (Or.inl rfl)

theorem tame_updateSta {f : ApSta → ApSta} (hf : ∀ st, getElem (f st).state 14 assocBit_lt = getElem st.state 14 assocBit_lt) :
    Tame s (s.updateSta k f) :=
  (calm_updateSta hf).tame

/-- A record is freed, and its pending lists with it. -/
theorem tame_free (s : Ap RecvId) (k : StaId) : Tame s (s.rtwFreeStainfo k) := by
  have hbase := base_free s k
  have hne : ∀ j tid, (s.rtwFreeStainfo k).base.pendingOf (j, tid) ≠ [] → j ≠ k := by
    rintro j tid hj rfl
    rw [hbase] at hj
    exact hj (Adapter.pendingOf_rtwFreeStainfo s.base j tid)
  refine ⟨?_, fun j tid hj a ha => ?_, fun j tid hj ha => ?_, [s.callOf .free k], ?_, ?_⟩
  · rw [hbase]
    exact Adapter.shrinks_rtwFreeStainfo s.base k
  · rw [hbase]
    exact Adapter.rtwGetStainfo_rtwFreeStainfo ha (hne j tid hj)
  · obtain ⟨n, hsta⟩ := sta_free s k
    rw [hsta, Function.update_of_ne (hne j tid hj), ha]
  · rfl
  · simp [callOf]

/-- A record is allocated, with empty pending lists. -/
theorem tame_alloc (hw : WellFormed s) {a : MacAddr} (h : s.rtwAllocStainfo a = (some k, t)) :
    Tame s t := by
  have hdead := hw.not_live_alloc h
  obtain ⟨base, hb, rfl⟩ := alloc_eq h
  have hshrinks := Adapter.shrinks_rtwAllocStainfo s.base a
  rw [hb] at hshrinks
  have hne : ∀ j tid, base.pendingOf (j, tid) ≠ [] → j ≠ k := by
    rintro j tid hj rfl
    exact hj (Adapter.pendingOf_rtwAllocStainfo hb tid)
  set u := { s with base := base }.updateSta k fun _ => initApSta with hu
  refine ⟨hshrinks, fun j tid hj b hget => ?_, fun j tid hj ha => ?_, [u.callOf .alloc k], rfl, ?_⟩
  · exact Adapter.rtwGetStainfo_rtwAllocStainfo hb (fun i hi => hdead ⟨i, hi⟩) hget
  · have hsta : (u.record .alloc k).sta j = s.sta j := Function.update_of_ne (hne j tid hj) ..
    rw [hsta, ha]
  · simp [callOf]

theorem tame_issueAuth (s : Ap RecvId) (xmit : Bool) (a : MacAddr) (st : ApSta) (status : ℕ) :
    Tame s (s.issueAuth xmit a st status) := by
  unfold issueAuth
  split
  · exact Calm.tame (calm_same rfl rfl rfl)
  · exact Tame.refl s

theorem tame_authFail (s : Ap RecvId) (xmit : Bool) (k? : Option StaId) (sa : MacAddr)
    (status : ℕ) :
    Tame s (s.authFail xmit k? sa status) := by
  cases k? with
  | none => exact tame_issueAuth ..
  | some k => exact (tame_free s k).trans (tame_issueAuth ..)

theorem tame_authAccept (s : Ap RecvId) (xmit : Bool) (k : StaId) (seq : ℕ) :
    Tame s (s.authAccept xmit k seq) := by
  unfold authAccept
  extract_lets u v
  have hu : Tame s u := (calm_record (by simp)).tame.trans (tame_updateSta fun _ => rfl)
  have hv : Tame s v := hu.trans (tame_issueAuth ..)
  split
  · exact hv.trans (tame_updateSta fun _ => rfl)
  · exact hv

theorem tame_authComplete (s : Ap RecvId) (k : StaId) {clr : BitVec 32}
    (hclr : clr = wifiFwAuthNull ∨ clr = wifiFwAuthState) : Tame s (s.authComplete k clr) := by
  refine (tame_updateSta fun st => ?_).trans (calm_record (by simp)).tame
  rcases hclr with rfl | rfl
  · simp [wifiFwAuthNull, wifiFwAuthSuccess]
  · simp [wifiFwAuthState, wifiFwAuthSuccess]

theorem tame_authChallenge (s : Ap RecvId) (xmit : Bool) (k : StaId) (sa : MacAddr)
    (f : RecvFrame) :
    Tame s (s.authChallenge xmit k sa f) := by
  unfold authChallenge
  split
  · exact tame_authFail ..
  split
  · exact tame_authFail ..
  split
  · exact (tame_authComplete s k (Or.inr rfl)).trans (tame_authAccept ..)
  · exact tame_authFail ..

theorem tame_authExchange (s : Ap RecvId) (xmit : Bool) (k : StaId) (sa : MacAddr) (f : RecvFrame)
    (algorithm seq mode : ℕ) : Tame s (s.authExchange xmit k sa f algorithm seq mode) := by
  unfold authExchange
  extract_lets u v
  have hu : Tame s u := by
    change Tame s (if k ∈ s.authList then s else s.authLink k)
    split
    · exact Tame.refl s
    · exact Calm.tame (calm_same rfl rfl rfl)
  have hv : Tame s v := by
    change Tame s (if (u.sta k).authSeq = 0 then
      u.updateSta k fun st => { st with expireTo := u.authTo } else u)
    split
    · exact hu.trans (tame_updateSta fun _ => rfl)
    · exact hu
  refine hv.trans ?_
  clear_value v
  split
  · exact tame_authFail ..
  split
  · split
    · refine Tame.trans ?_ (tame_authAccept ..)
      refine (tame_authComplete v k (Or.inl rfl)).trans ?_
      exact tame_updateSta fun _ => rfl
    · exact tame_authFail ..
  split
  · refine (tame_updateSta fun st => ?_).trans (tame_authAccept ..)
    simp [wifiFwAuthNull, wifiFwAuthState]
  split
  · exact tame_authChallenge ..
  · exact tame_authFail ..

theorem tame_authStation (hw : WellFormed s) {sa : MacAddr} {k? : Option StaId}
    (h : s.authStation sa = (k?, t)) : Tame s t := by
  unfold authStation at h
  split at h
  · cases h
    unfold reauth
    extract_lets u
    have hu : Tame s u := (calm_record (by simp)).tame
    split
    · exact hu.trans (Calm.tame (calm_same rfl rfl rfl))
    · exact hu
  split at h
  · rename_i v hv
    cases h
    rw [alloc_none hv]
    exact Tame.refl s
  · rename_i j v hv
    cases h
    have hsta : getElem (v.sta j).state 14 assocBit_lt = false := by
      obtain ⟨base, -, rfl⟩ := alloc_eq hv
      simp [record, updateSta, initApSta]
    refine (tame_alloc hw hv).trans (Calm.tame (calm_update rfl rfl ?_ (Or.inl rfl)))
    rw [hsta]
    simp [wifiFwAuthNull]

theorem tame_onAuth (hw : WellFormed s) (xmit : Bool) (f : RecvFrame) :
    Tame s (s.onAuth xmit f) := by
  rcases s.onAuth_cases xmit f with he | ⟨sa, status, he⟩ | ⟨sa, u, status, hu, he⟩ |
    ⟨sa, k, u, algorithm, seq, mode, hu, he⟩
  · rw [he]
    exact Tame.refl s
  · rw [he]
    exact tame_authFail ..
  · rw [he]
    exact (tame_authStation hw hu).trans (tame_authFail ..)
  · rw [he]
    exact (tame_authStation hw hu).trans (tame_authExchange ..)

/-! ## Sleeping stations -/

theorem state_foldl_sent :
    ∀ (fs : List XmitFrame) (st : ApSta), (fs.foldl ApSta.sent st).state = st.state
  | [], _ => rfl
  | f :: fs, st => state_foldl_sent fs (st.sent f)

theorem state_deliverLoop : ∀ (fs : List XmitFrame) (st : ApSta),
    (ApSta.deliverLoop fs st).2.1.state = st.state
  | [], _ => rfl
  | f :: fs, st => by
    rw [ApSta.deliverLoop]
    split
    · exact state_deliverLoop fs (st.sent f)
    · exact state_deliverLoop fs st

theorem calm_enqueue (s : Ap RecvId) (k : StaId) (f : XmitFrame) :
    Calm s (s.xmitframeEnqueueForSleepingSta k f).2 := by
  unfold xmitframeEnqueueForSleepingSta
  split
  · exact Calm.refl s
  split
  · exact Calm.refl s
  split
  · split
    · exact calm_update rfl rfl rfl (Or.inl rfl)
    · exact Calm.refl s
  split
  · exact calm_update rfl rfl rfl (Or.inr ⟨s.callOf .buffer k, rfl, nofun, nofun⟩)
  · exact Calm.refl s

theorem calm_dequeueLoop (k : StaId) :
    ∀ (fs : List XmitFrame) (s : Ap RecvId), Calm s (dequeueLoop k fs s).2
  | [], s => Calm.refl s
  | f :: fs, s => by
    have hf := calm_enqueue s k f
    rw [dequeueLoop]
    split
    · rename_i u hu
      rw [hu] at hf
      exact hf.trans (calm_dequeueLoop k fs u)
    · rename_i u hu
      rw [hu] at hf
      exact hf.trans (calm_dequeueLoop k fs u)

theorem calm_dequeue (s : Ap RecvId) (k : StaId) (q : AcQueue) :
    Calm s (s.dequeueXmitframesToSleepingQueue k q) := by
  have hloop := calm_dequeueLoop k ((s.sta k).pending q) s
  unfold dequeueXmitframesToSleepingQueue
  exact hloop.trans (calm_updateSta fun _ => rfl)

theorem calm_stopStaXmit (h : s.stopStaXmit k = some t) : Calm s t := by
  unfold stopStaXmit at h
  extract_lets u₀ u₁ u₂ u₃ u₄ at h
  obtain ⟨bmc, -, rfl⟩ := Option.map_eq_some_iff.mp h
  have h₀ : Calm s u₀ := by
    refine calm_update rfl rfl ?_ (Or.inr ⟨s.callOf .stop k, rfl, nofun, nofun⟩)
    simp [record, wifiSleepState]
  have h₂ := (h₀.trans (calm_dequeue u₀ k .vo)).trans (calm_dequeue u₁ k .vi)
  have h₄ := (h₂.trans (calm_dequeue u₂ k .be)).trans (calm_dequeue u₃ k .bk)
  exact h₄.trans (calm_dequeue u₄ bmc .be)

theorem calm_wakeupSta (s : Ap RecvId) (k : StaId) : Calm s (s.wakeupSta k) := by
  unfold wakeupSta
  extract_lets u
  have hu : Calm s u := by
    refine (calm_record (by simp)).trans (calm_updateSta fun st => ?_)
    rw [ApSta.flush, state_foldl_sent]
  split
  · exact hu.trans (calm_update rfl rfl (core_awake (u.sta k) u.expireTo).2.2.2 (Or.inl rfl))
  · exact hu

theorem calm_wakeupGroup (s : Ap RecvId) : Calm s s.wakeupGroup := by
  unfold wakeupGroup
  split
  · exact Calm.refl s
  split
  · extract_lets u
    have hu : Calm s u := calm_updateSta fun _ => rfl
    split
    · exact hu.trans (calm_same rfl rfl rfl)
    · exact hu
  · exact Calm.refl s

theorem calm_wakeup (s : Ap RecvId) (k : StaId) : Calm s (s.wakeupStaToXmit k) :=
  (calm_wakeupSta s k).trans (calm_wakeupGroup _)

theorem calm_processWmmpsData (s : Ap RecvId) (k : StaId) (priority : ℕ) :
    Calm s (s.processWmmpsData k priority) := by
  unfold processWmmpsData
  extract_lets st
  split
  · have hstate := state_deliverLoop (s.sta k).sleepQ (s.sta k)
    unfold xmitDeliveryEnabledFrames
    refine calm_update rfl rfl ?_ (Or.inr ⟨s.callOf .deliver k, rfl, nofun, nofun⟩)
    simp only [hstate]
  · exact Calm.refl s

theorem calm_psPollFrame (s : Ap RecvId) (k : StaId) : Calm s (s.psPollFrame k) := by
  unfold psPollFrame
  extract_lets st cleared
  split
  · exact calm_update rfl rfl rfl (Or.inl rfl)
  split
  · exact calm_update rfl rfl rfl (Or.inl rfl)
  · exact Calm.refl s

theorem calm_validateRecvCtrlFrame (s : Ap RecvId) (fr : RecvFrame) :
    Calm s (s.validateRecvCtrlFrame fr) := by
  unfold validateRecvCtrlFrame
  split
  · exact Calm.refl s
  split
  · exact Calm.refl s
  rename_i k hk
  split
  · exact Calm.refl s
  unfold psPoll
  split
  · exact Calm.refl s
  extract_lets u st
  have hu : Calm s u := by
    refine (calm_record (by simp)).trans (calm_updateSta fun st => ?_)
    exact (core_aliveSeen st s.expireTo).2.2.2
  split
  · exact hu.trans (calm_psPollFrame u k)
  · exact hu

theorem calm_txBeaconHdl (s : Ap RecvId) : Calm s s.txBeaconHdl := by
  unfold txBeaconHdl
  split
  · exact Calm.refl s
  split
  · exact calm_update rfl rfl rfl (Or.inl rfl)
  · exact Calm.refl s

theorem calm_rtwChkHiQueueHdl (s : Ap RecvId) (empty : Bool) :
    Calm s (s.rtwChkHiQueueHdl empty) := by
  unfold rtwChkHiQueueHdl
  split
  · exact Calm.refl s
  split
  · exact calm_same rfl rfl rfl
  · exact Calm.refl s

theorem calm_setPending (s : Ap RecvId) (k : StaId) (q : AcQueue) (l : List XmitFrame) :
    Calm s (s.setPending k q l) :=
  calm_updateSta fun _ => rfl

theorem calm_rtwXmit (s : Ap RecvId) (ra : MacAddr) (priority : ℕ) (direct : Bool) :
    Calm s (s.rtwXmit ra priority direct) := by
  unfold rtwXmit
  split
  · exact Calm.refl s
  rename_i k hk
  split
  · exact Calm.refl s
  extract_lets f q
  have hf := calm_enqueue s k f
  split
  · rename_i u hu
    rw [hu] at hf
    exact hf
  · rename_i u hu
    rw [hu] at hf
    split
    · exact hf
    · exact hf.trans (calm_setPending ..)

/-! ## Removal and timers -/

theorem tame_expireFree (s : Ap RecvId) (k : StaId) : Tame s (s.expireFree k) := by
  have hunlink : Tame s (s.asocUnlink k) := Calm.tame (calm_same rfl rfl rfl)
  have hstate : Tame (s.asocUnlink k)
      ((s.asocUnlink k).updateSta k
        fun st => { st with state := st.state &&& ~~~fwLinkedBits }) := by
    refine tame_updateSta fun st => ?_
    simp [fwLinkedBits]
  have hleave : ∀ u : Ap RecvId, Tame u (u.bssCapUpdateOnStaLeave k) := by
    intro u
    unfold bssCapUpdateOnStaLeave
    exact Calm.tame (calm_update rfl rfl rfl (Or.inl rfl))
  exact ((hunlink.trans hstate).trans (hleave _)).trans (tame_free _ k)

theorem tame_onDeAuth (s : Ap RecvId) (addr2 : MacAddr) : Tame s (s.onDeAuth addr2) := by
  unfold onDeAuth
  split
  · exact Tame.refl s
  split
  · exact Tame.refl s
  rename_i k hk
  split
  · exact tame_expireFree s k
  · exact Tame.refl s

theorem tame_freeStainfo (s : Ap RecvId) (hwaddr : MacAddr) : Tame s (s.freeStainfo hwaddr) := by
  unfold freeStainfo
  split
  · exact Tame.refl s
  rename_i k hk
  split
  · exact tame_expireFree s k
  · exact tame_free s k

theorem tame_expireAuth (s : Ap RecvId) (k : StaId) : Tame s (s.expireAuth k) := by
  unfold expireAuth
  extract_lets n u
  have hu : Tame s u := tame_updateSta fun _ => rfl
  split
  · exact Tame.refl s
  split
  · have hunlink : Tame u (u.authUnlink k) := Calm.tame (calm_same rfl rfl rfl)
    exact (hu.trans hunlink).trans (tame_free _ k)
  · exact hu

theorem tame_expireAsoc (s : Ap RecvId) (env : TickEnv) (k : StaId) :
    Tame s (s.expireAsoc env k).2 := by
  have hdown : Tame s (s.countDown env k) := by
    refine tame_updateSta fun st => ?_
    split
    · rfl
    · rfl
  unfold expireAsoc
  refine hdown.trans ?_
  generalize s.countDown env k = u
  dsimp only
  split
  · unfold expireDue
    extract_lets st chk v
    have hv : Tame u v := by
      change Tame u (if chk then u.aliveChk k else u)
      split
      · refine Calm.tame (calm_update rfl rfl ?_ (Or.inr ⟨u.callOf .aliveChk k, rfl, nofun, nofun⟩))
        simp [record, wifiStaAliveChkState]
      · exact Tame.refl u
    split
    · exact Calm.tame (calm_update rfl rfl rfl (Or.inl rfl))
    split
    · exact hv
    split
    · exact hv
    · exact hv.trans (tame_expireFree v k)
  split
  · exact (calm_wakeup u k).tame
  · exact Tame.refl u

theorem tame_expireAsk (env : TickEnv) (s : Ap RecvId) (k : StaId) :
    Tame s (expireAsk env s k) := by
  unfold expireAsk
  extract_lets n
  split
  · exact tame_updateSta fun _ => rfl
  split
  · exact tame_updateSta fun _ => rfl
  · refine Tame.trans ?_ (tame_expireFree _ k)
    exact tame_updateSta fun _ => rfl

theorem tame_foldl {f : Ap RecvId → StaId → Ap RecvId} (hf : ∀ s k, Tame s (f s k)) :
    ∀ (ks : List StaId) (s : Ap RecvId), Tame s (ks.foldl f s)
  | [], s => Tame.refl s
  | k :: ks, s => (hf s k).trans (tame_foldl hf ks (f s k))

theorem tame_expireAsocLoop (env : TickEnv) : ∀ (ks : List StaId) (s : Ap RecvId),
    Tame s (expireAsocLoop env ks s).2
  | [], s => Tame.refl s
  | k :: ks, s => by
    rw [expireAsocLoop]
    exact (tame_expireAsoc s env k).trans (tame_expireAsocLoop env ks _)

theorem tame_expireTimeoutChk (s : Ap RecvId) (env : TickEnv) :
    Tame s (s.expireTimeoutChk env) := by
  unfold expireTimeoutChk
  extract_lets u
  have hu : Tame s u := tame_foldl tame_expireAuth s.authList s
  have hloop := hu.trans (tame_expireAsocLoop env u.asocList u)
  exact hloop.trans (tame_foldl (tame_expireAsk env) _ _)

/-! ## The rule -/

/-- Every to-DS frame that waits is from an associated station, and so was every one whose
power-management bit was acted on or that was handed up. -/
structure Class3 (s : Ap RecvId) : Prop where
  pending : ∀ k tid, ∀ x ∈ s.base.pendingOf (k, tid), (s.base.recvframe x).attrib.toFrDs = 2 →
    s.base.rtwGetStainfo (s.base.recvframe x).attrib.ta = some k ∧ (s.sta k).assocSuccess = true
  calls : ∀ c ∈ s.calls, c.op = .pwrBit ∨ c.op = .handUp → c.assocSuccess = true

theorem Class3.tame (h : Class3 s) (ht : Tame s t) : Class3 t := by
  obtain ⟨cs, hcalls, hcs⟩ := ht.calls
  refine ⟨fun k tid x hx hto => ?_, fun c hc hop => ?_⟩
  · obtain ⟨hold, heq⟩ := ht.shrinks.pending (k, tid) x hx
    have hne : t.base.pendingOf (k, tid) ≠ [] := List.ne_nil_of_mem hx
    rw [heq] at hto ⊢
    obtain ⟨hget, hassoc⟩ := h.pending k tid x hold hto
    exact ⟨ht.get k tid hne _ hget, ht.assoc k tid hne hassoc⟩
  · rw [hcalls] at hc
    rcases List.mem_append.mp hc with hc | hc
    · exact absurd hop (not_or.mpr (hcs c hc))
    · exact h.calls c hc hop

/-- A to-DS frame with contents, or with a power-management bit that is acted on, comes from a
station that has a record and is not associated. -/
def Unassociated (s : Ap RecvId) (fr : RecvFrame) : Prop :=
  (s.base.toDsSta fr).any fun k => !(s.sta k).assocSuccess &&
    (getPwrMgt fr.mem fr.rxData != (s.sta k).asleep ||
      !(getFrameSubType fr.mem fr.rxData).testBit 6)

/-- `OnAssocReq` refuses a request of the station `k`. -/
def Refuses (s : Ap RecvId) (r : AssocReq) (k : StaId) : Prop :=
  ¬ r.elemsOk ∨ (r.htCap.isSome ∧ ¬ s.base.mlmepriv.htOption) ∨ ¬ r.p2pOk ∨
    (¬ 0 < (s.sta k).aid ∧ s.maxNumSta.val < s.freeAid)

/-- A request is refused and takes the association of a station with to-DS frames on its pending
lists. -/
def Strands (s : Ap RecvId) (r : AssocReq) : Prop :=
  ∃ k, s.base.rtwGetStainfo r.addr2 = some k ∧ (s.sta k).authSuccess = false ∧ s.Refuses r k ∧
    ∃ tid, ∃ x ∈ s.base.pendingOf (k, tid), (s.base.recvframe x).attrib.toFrDs = 2

/-- What the rule does not survive. -/
def Breaks (s : Ap RecvId) : ApEvent → Prop
  | .rx fr => s.Unassociated fr
  | .assocReq r => s.Strands r
  | _ => False

/-! ## Association requests -/

/-- The lists of frames and the frames are the same. -/
def SameFrames (s t : Ap RecvId) : Prop :=
  t.base.queue = s.base.queue ∧ t.base.recvframe = s.base.recvframe

theorem sameFrames_assocListed (s : Ap RecvId) (k : StaId) : SameFrames s (s.assocListed k) := by
  unfold assocListed
  extract_lets u v w
  have hw : SameFrames s w := by
    change SameFrames s (if k ∈ v.authList then v.authUnlink k else v)
    split
    · exact ⟨rfl, rfl⟩
    · exact ⟨rfl, rfl⟩
  split
  · exact hw
  · exact hw

theorem sameFrames_assignAid (s : Ap RecvId) (k : StaId) : SameFrames s (s.assignAid k) := by
  have hdone : ∀ u : Ap RecvId, SameFrames u (u.assocDone k) := by
    intro u
    obtain ⟨hq, hf⟩ := sameFrames_assocListed u k
    exact ⟨hq, hf⟩
  unfold assignAid
  split
  · exact hdone s
  split
  · exact ⟨rfl, rfl⟩
  · exact hdone _

/-- What `OnAssocReq` does : the request is not looked at, it is refused or it is accepted. -/
theorem onAssocReq_cases (s : Ap RecvId) (r : AssocReq) :
    s.onAssocReq r = s ∨ (∃ k, s.onAssocReq r = s.record .assocReq k) ∨
      ∃ k u, s.base.rtwGetStainfo r.addr2 = some k ∧ Requested k s u ∧ SameFrames s u ∧
        ((s.onAssocReq r = u.assocReqFail k ∧ s.Refuses r k) ∨
          (s.onAssocReq r = u.assignAid k ∧
          (0 < (u.sta k).aid ∨ u.freeAid ≤ u.maxNumSta.val))) := by
  unfold onAssocReq
  split
  · exact Or.inl rfl
  split
  · exact Or.inl rfl
  rename_i k hk
  extract_lets st s₁ s₂ s₃
  split
  · exact Or.inr (Or.inl ⟨k, rfl⟩)
  have h₁ : Requested k s s₁ := (s.requested_assocStart k).update rfl rfl
  have h₂ : Requested k s s₂ := (h₁.parseWmm r.wmm).update rfl rfl
  have h₃ : Requested k s s₃ := h₂.update rfl rfl
  refine Or.inr (Or.inr ?_)
  split
  · rename_i helems
    exact ⟨k, s₁, hk, h₁, ⟨rfl, rfl⟩, Or.inl ⟨rfl, Or.inl helems⟩⟩
  split
  · rename_i hht
    exact ⟨k, s₂, hk, h₂, ⟨rfl, rfl⟩, Or.inl ⟨rfl, Or.inr (Or.inl hht)⟩⟩
  split
  · rename_i hp2p
    exact ⟨k, s₃, hk, h₃, ⟨rfl, rfl⟩, Or.inl ⟨rfl, Or.inr (Or.inr (Or.inl hp2p))⟩⟩
  · by_cases hroom : 0 < (s₃.sta k).aid ∨ s₃.freeAid ≤ s₃.maxNumSta.val
    · exact ⟨k, s₃, hk, h₃, ⟨rfl, rfl⟩, Or.inr ⟨rfl, hroom⟩⟩
    · rw [not_or, not_le] at hroom
      refine ⟨k, s₃, hk, h₃, ⟨rfl, rfl⟩, Or.inl ⟨?_, Or.inr (Or.inr (Or.inr ?_))⟩⟩
      · rw [assignAid, if_neg hroom.1, if_pos hroom.2]
      · obtain ⟨st', hst', hcore, -⟩ := h₃.sta
        have haid : (s₃.sta k).aid = (s.sta k).aid := by
          rw [hst', Function.update_self]
          exact (core_eq hcore).2.1
        have hfree : s₃.freeAid = s.freeAid := by rw [freeAid, freeAid, h₃.staAid]
        rw [haid, hfree] at hroom
        exact hroom

/-- A request changes the record of its station, which stays associated if frames of it are
pending. -/
theorem Class3.requested (h : Class3 s) {st : ApSta}
    (hstations : Adapter.SameStations s.base t.base)
    (hframes : SameFrames s t) (hsta : t.sta = Function.update s.sta k st)
    (hkeep : getElem (s.sta k).state 14 assocBit_lt = true → ∀ tid, ∀ x ∈ s.base.pendingOf (k, tid),
      (s.base.recvframe x).attrib.toFrDs = 2 → getElem st.state 14 assocBit_lt = true)
    (hcalls : ∃ cs, t.calls = cs ++ s.calls ∧ ∀ c ∈ cs, c.op ≠ .pwrBit ∧
    c.op ≠ .handUp) : Class3 t := by
  obtain ⟨hqueue, hframe⟩ := hframes
  obtain ⟨cs, hcs, hops⟩ := hcalls
  refine ⟨fun j tid x hx hto => ?_, fun c hc hop => ?_⟩
  · rw [Adapter.pendingOf, hqueue] at hx
    rw [hframe] at hto ⊢
    obtain ⟨hget, hassoc⟩ := h.pending j tid x hx hto
    refine ⟨(hstations.rtwGetStainfo _).trans hget, ?_⟩
    rw [hsta]
    rcases eq_or_ne j k with rfl | hj
    · rw [Function.update_self, ApSta.assocSuccess_eq]
      rw [ApSta.assocSuccess_eq] at hassoc
      exact hkeep hassoc tid x hx hto
    · rw [Function.update_of_ne hj, hassoc]
  · rw [hcs] at hc
    rcases List.mem_append.mp hc with hc | hc
    · exact absurd hop (not_or.mpr (hops c hc))
    · exact h.calls c hc hop

theorem Class3.assocReq (h : Class3 s) (r : AssocReq) (hsafe : ¬ s.Strands r) :
    Class3 (s.onAssocReq r) := by
  have hops : ∀ (k : StaId) (c : ApCall), c.op = .reject ∨ c.op = .join →
      ∀ d ∈ [c, s.callOf .assocReq k], d.op ≠ .pwrBit ∧ d.op ≠ .handUp := by
    intro k c hc d hd
    rcases List.mem_cons.mp hd with rfl | hd
    · rcases hc with hc | hc
      · rw [hc]
        exact ⟨nofun, nofun⟩
      · rw [hc]
        exact ⟨nofun, nofun⟩
    · obtain rfl := List.mem_singleton.mp hd
      exact ⟨nofun, nofun⟩
  rcases s.onAssocReq_cases r with he | ⟨k, he⟩ | ⟨k, u, hk, hreq, hframes,
    ⟨he, href⟩ | ⟨he, hroom⟩⟩
  · rw [he]
    exact h
  · rw [he]
    exact h.tame (calm_record (by simp)).tame
  · rw [he]
    obtain ⟨c, hc⟩ := hreq.refused
    obtain ⟨st, hst, -, -, -, h14, -⟩ := hc.sta
    refine h.requested hc.tables.stations hframes hst (fun hassoc tid x hx hto => ?_)
      ⟨[c, s.callOf .assocReq k], hc.calls, hops k c (Or.inl hc.op)⟩
    by_contra hne
    have h10 : getElem (s.sta k).state 10 authBit_lt = false := by
      rw [h14, hassoc, Bool.and_true, Bool.not_eq_true] at hne
      exact hne
    exact hsafe ⟨k, hk, by rw [ApSta.authSuccess_eq, h10], href, tid, x, hx, hto⟩
  · rw [he]
    obtain ⟨a, ha⟩ := hreq.accepted hroom
    obtain ⟨st, hst, -, -, -, h14⟩ := ha.sta
    obtain ⟨c, hc, hcalls⟩ := ha.calls
    have hframes' := sameFrames_assignAid u k
    refine h.requested ha.stations ⟨hframes'.1.trans hframes.1, hframes'.2.trans hframes.2⟩ hst
      (fun _ _ _ _ _ => h14) ⟨[c, s.callOf .assocReq k], hcalls, hops k c (Or.inr hc)⟩

/-! ## Data frames -/

/-- What the receive path does to the power-save state : it acts on the bit of a to-DS frame, or it
does not. -/
theorem recvPowerSave_cases {fr : RecvFrame} (h : s.recvPowerSave fr = some t) :
    Calm s t ∨ ∃ k, s.base.toDsSta fr = some k ∧ getPwrMgt fr.mem fr.rxData ≠ (s.sta k).asleep ∧
      Calm (s.record .pwrBit k) t := by
  unfold recvPowerSave at h
  split at h
  · rename_i k hk
    unfold sta2apPowerSave at h
    obtain ⟨u, hu, rfl⟩ := Option.map_eq_some_iff.mp h
    have hwmm : Calm u (if getFrameSubType fr.mem fr.rxData &&& wifiQosDataType =
      wifiQosDataType then
        u.processWmmpsData k fr.attrib.priority else u) := by
      split
      · exact calm_processWmmpsData ..
      · exact Calm.refl u
    unfold processPwrbitData at hu
    split at hu
    · rename_i hbit
      split at hu
      · cases hu
        exact Or.inl hwmm
      · rename_i hawake
        refine Or.inr ⟨k, hk, ?_, (calm_stopStaXmit hu).trans hwmm⟩
        rw [hbit]
        exact fun he => hawake he.symm
    · rename_i hbit
      split at hu
      · rename_i hasleep
        cases hu
        refine Or.inr ⟨k, hk, ?_, (calm_wakeup ..).trans hwmm⟩
        rw [hasleep]
        exact hbit
      · cases hu
        exact Or.inl hwmm
  · refine Or.inl ?_
    split at h
    · cases h
      exact Calm.refl _
    · cases h
      exact calm_validateRecvCtrlFrame ..

theorem Class3.recvPowerSave (h : Class3 s) {fr : RecvFrame} (hsafe : ¬ s.Unassociated fr)
    (he : s.recvPowerSave fr = some t) :
    Class3 t ∧ t.base = s.base ∧ ∀ j, getElem (t.sta j).state 14 assocBit_lt = getElem (s.sta j).state 14 assocBit_lt := by
  rcases recvPowerSave_cases he with hcalm | ⟨k, hk, hbit, hcalm⟩
  · exact ⟨h.tame hcalm.tame, hcalm.base, hcalm.assoc⟩
  · have hassoc : (s.sta k).assocSuccess = true := by
      by_contra hne
      rw [Bool.not_eq_true] at hne
      refine hsafe ?_
      simp [Unassociated, hk, hne, hbit]
    have hrec : Class3 (s.record .pwrBit k) := by
      refine ⟨h.pending, fun c hc hop => ?_⟩
      rcases List.mem_cons.mp hc with rfl | hc
      · exact hassoc
      · exact h.calls c hc hop
    exact ⟨hrec.tame hcalm.tame, hcalm.base, hcalm.assoc⟩

/-- A frame with the direction and the transmitter `o` may wait on the list `c`. -/
def Admits (s : Ap RecvId) (c : StaId × Fin 16) (o : Fin 4 × MacAddr) : Prop :=
  o.1 = 2 → s.base.rtwGetStainfo o.2 = some c.1 ∧ (s.sta c.1).assocSuccess = true

/-- The receive path has put frames of associated stations on the lists, and handed up packets of
them. -/
theorem Class3.withBase (h : Class3 s) {base : Adapter RecvId}
    (hsta : Adapter.SameStations s.base base)
    (hpending : ∀ c, ∀ x ∈ base.pendingOf c, s.Admits c (base.recvframe x).origin)
    (hpackets : ∃ inds, base.indications = s.base.indications ++ inds ∧
      ∀ i ∈ inds, i.ta = (base.recvframe i.frame).attrib.ta ∧
        ∃ c, s.Admits c (base.recvframe i.frame).origin) :
    Class3 ({ s with base := base }.recordHandUps s.base.indications.length) := by
  refine ⟨fun k tid x hx hto => ?_, fun c hc hop => ?_⟩
  · obtain ⟨hget, hassoc⟩ := hpending (k, tid) x hx hto
    exact ⟨(hsta.rtwGetStainfo _).trans hget, hassoc⟩
  · rcases List.mem_append.mp hc with hc | hc
    · obtain ⟨i, hi, rfl⟩ := List.mem_map.mp (List.mem_reverse.mp hc)
      obtain ⟨inds, hinds, hall⟩ := hpackets
      obtain ⟨hmem, hto⟩ := List.mem_filter.mp hi
      rw [hinds, List.drop_left] at hmem
      obtain ⟨hta, d, hd⟩ := hall i hmem
      obtain ⟨hget, hassoc⟩ := hd (of_decide_eq_true hto)
      have hget' : base.rtwGetStainfo i.ta = some d.1 := by
        rw [hta]
        exact (hsta.rtwGetStainfo _).trans hget
      rw [handUpOf, hget']
      exact hassoc
    · exact h.calls c hc hop

/-- A frame that waits may wait where it does. -/
theorem Class3.admits (h : Class3 s) {c : StaId × Fin 16} {x : RecvId}
    (hx : x ∈ s.base.pendingOf c) :
    s.Admits c (s.base.recvframe x).origin :=
  fun hto => h.pending c.1 c.2 x hx hto

theorem Class3.rx (h : Class3 s)
    (hsta : checkFwstate s.base.mlmepriv.fwState wifiStationState = false)
    {fr : RecvFrame} (hsafe : ¬ s.Unassociated fr) (he : s.rx fr = some t) : Class3 t := by
  unfold Ap.rx at he
  split at he
  · cases he
    exact h
  obtain ⟨u, hu, he⟩ := Option.bind_eq_some_iff.mp he
  obtain ⟨base, hbase, rfl⟩ := Option.map_eq_some_iff.mp he
  obtain ⟨hclass, hb, hassoc⟩ := h.recvPowerSave hsafe hu
  rw [← hb] at hsta
  have hrecv := Adapter.received_recvStep hsta hbase
  -- the frame itself is from an associated station, if it can wait or be handed up
  have hfrom : ∀ c o, Adapter.FromFrame u.base fr c o → u.Admits c o := by
    intro c o hf hto
    obtain ⟨hds, hget, hdata⟩ := hf hto
    refine ⟨hget, ?_⟩
    rw [ApSta.assocSuccess_eq, hassoc, ← ApSta.assocSuccess_eq]
    by_contra hne
    rw [Bool.not_eq_true] at hne
    rw [hb] at hds
    refine hsafe ?_
    simp [Unassociated, hds, hne, hdata]
  refine hclass.withBase hrecv.toSameStations (fun c x hx => ?_) ?_
  · rcases hrecv.pending c x hx with ⟨hold, ho⟩ | hnew
    · rw [ho]
      exact hclass.admits hold
    · exact hfrom c _ hnew
  · obtain ⟨inds, hinds, hall⟩ := hrecv.packets
    refine ⟨inds, hinds, fun i hi => ?_⟩
    obtain ⟨hta, c, ⟨hold, ho⟩ | hnew⟩ := hall i hi
    · refine ⟨hta, c, ?_⟩
      rw [ho]
      exact hclass.admits hold
    · exact ⟨hta, c, hfrom c _ hnew⟩

/-- The receive path goes on with frames that wait. -/
theorem Class3.onward (h : Class3 s) {base : Adapter RecvId} {c : StaId × Fin 16}
    (ho : Adapter.Onward ∅ {x | x ∈ s.base.pendingOf c} s.base base) :
    Class3 ({ s with base := base }.recordHandUps s.base.indications.length) := by
  refine h.withBase ho.toSameStations (fun d x hx => ?_) ?_
  · rcases ho.pending d x hx with hold | hnew
    · rw [ho.origin x]
      exact h.admits hold
    · exact absurd hnew (Set.notMem_empty _)
  · obtain ⟨inds, hinds, hall⟩ := ho.packets
    refine ⟨inds, hinds, fun i hi => ?_⟩
    obtain ⟨hmem, hta⟩ := hall i hi
    refine ⟨hta.trans (ho.ta i.frame).symm, c, ?_⟩
    rw [ho.origin]
    exact h.admits hmem

/-- A frame about block acknowledgement hands nothing up. -/
theorem Class3.back (h : Class3 s) (fr : RecvFrame) :
    Class3 { s with base := s.base.onActionBack fr.mem fr.rxData } := by
  have ho := Adapter.onward_onActionBack (F := ∅) (A := ∅) s.base fr.mem fr.rxData
  refine ⟨fun k tid x hx hto => ?_, h.calls⟩
  have hold : x ∈ s.base.pendingOf (k, tid) := by
    rcases ho.pending (k, tid) x hx with hold | hnew
    · exact hold
    · exact absurd hnew (Set.notMem_empty _)
  rw [ho.toFrDs x] at hto
  obtain ⟨hget, hassoc⟩ := h.pending k tid x hold hto
  refine ⟨?_, hassoc⟩
  rw [ho.ta x]
  exact (ho.toSameStations.rtwGetStainfo _).trans hget

/-! ## Runs -/

theorem class3_step {e : ApEvent} (hw : WellFormed s)
    (hsta : checkFwstate s.base.mlmepriv.fwState wifiStationState = false) (h : Class3 s)
    (hsafe : ¬ s.Breaks e) (he : s.apStep e = some t) : Class3 t := by
  cases e with
  | auth xmit f =>
    cases he
    exact h.tame (tame_onAuth hw xmit f)
  | assocReq r =>
    cases he
    exact h.assocReq r hsafe
  | deauth addr2 =>
    cases he
    exact h.tame (tame_onDeAuth s addr2)
  | freeStainfo hwaddr =>
    cases he
    exact h.tame (tame_freeStainfo s hwaddr)
  | rx fr => exact h.rx hsta hsafe he
  | back fr =>
    cases he
    exact h.back fr
  | timeout c =>
    obtain ⟨base, hbase, rfl⟩ := Option.map_eq_some_iff.mp he
    exact h.onward (Adapter.onward_timeout (fun _ hx => hx) hbase)
  | tick env =>
    cases he
    exact h.tame (tame_expireTimeoutChk s env)
  | xmit ra priority direct =>
    cases he
    exact h.tame (calm_rtwXmit s ra priority direct).tame
  | sent k q =>
    cases he
    exact h.tame (calm_setPending s k q _).tame
  | txBeacon =>
    cases he
    exact h.tame (calm_txBeaconHdl s).tame
  | chkHiQueue empty =>
    cases he
    exact h.tame (calm_rtwChkHiQueueHdl s empty).tame

theorem Started.class3 (h : Started s) : Class3 s := by
  refine ⟨fun k tid x hx => ?_, fun c hc => ?_⟩
  · rw [h.pending] at hx
    exact absurd hx List.not_mem_nil
  · rw [h.calls] at hc
    exact absurd hc List.not_mem_nil

variable {es : List ApEvent}

/-- If no station that is not associated sends a data frame, and no request takes the association of
a station with frames on its pending lists, then along every run only frames of associated stations
are handed up, and only their power-management bits are acted on. -/
theorem class3_apRun (hs : Started s) (hsafe : AlongM apStep (fun u e => ¬ u.Breaks e) s es)
    (hrun : runM apStep s es = some t) :
    ∀ c ∈ t.calls, c.op = .pwrBit ∨ c.op = .handUp → c.assocSuccess = true := by
  have hstep : ∀ u e v, Moves true s u ∧ Class3 u → ¬ u.Breaks e → apStep u e = some v →
      Moves true s v ∧ Class3 v := by
    intro u e v ⟨hu, hclass⟩ hno hv
    have hw := wellFormed_moves hs.wellFormed hu
    have hsta : checkFwstate u.base.mlmepriv.fwState wifiStationState = false := by
      rw [mlmepriv_moves hs.wellFormed hu]
      exact hs.notStation
    exact ⟨hu.trans (moves_true (moves_apStep hw hsta hv)), class3_step hw hsta hclass hno hv⟩
  exact (invariant_alongM hstep ⟨Relation.ReflTransGen.refl, hs.class3⟩ hsafe hrun).2.calls

instance (s : Ap RecvId) (fr : RecvFrame) : Decidable (s.Unassociated fr) := by
  unfold Unassociated
  infer_instance

instance (s : Ap RecvId) (r : AssocReq) : Decidable (s.Strands r) := by
  unfold Strands Refuses
  infer_instance

instance (s : Ap RecvId) : (e : ApEvent) → Decidable (s.Breaks e)
  | .rx fr => inferInstanceAs (Decidable (s.Unassociated fr))
  | .assocReq r => inferInstanceAs (Decidable (s.Strands r))
  | .auth .. | .deauth .. | .freeStainfo .. | .back .. | .timeout .. | .tick .. | .xmit .. | .sent ..
  | .txBeacon | .chkHiQueue .. => inferInstanceAs (Decidable False)

/-- A data frame of `sa` to the access point. -/
def sampleData (sa : MacAddr) : RecvFrame :=
  Adapter.sampleFrame ([0x08, 0x01, 0, 0] ++ Adapter.sampleMac.toList ++ sa.toList ++
    Adapter.sampleMac.toList ++ [0, 0])

theorem class3_sampleJoin : ∃ t,
    runM apStep sampleAp (sampleJoin ++ [.rx (sampleData Adapter.sampleTa)]) = some t ∧
      (∃ c ∈ t.calls, c.op = .handUp) ∧
      ∀ c ∈ t.calls, c.op = .pwrBit ∨ c.op = .handUp → c.assocSuccess = true := by
  have hrun : ((runM apStep sampleAp
    (sampleJoin ++ [.rx (sampleData Adapter.sampleTa)])).any fun t =>
      t.calls.any fun c => decide (c.op = .handUp)) = true := by
    decide +kernel
  obtain ⟨t, ht, h⟩ := Option.any_eq_true _ _ |>.mp hrun
  have hup : ∃ c ∈ t.calls, c.op = .handUp := by simpa using h
  exact ⟨t, ht, hup, class3_apRun started_sampleAp (by decide +kernel) ht⟩

/-- A station that is authenticated and not associated sends a data frame, which is handed up. -/
theorem not_class3_sampleAuth : ∃ t,
    runM apStep sampleAp [.auth true (sampleAuth Adapter.sampleTa), .rx (sampleData Adapter.sampleTa)] =
      some t ∧ ∃ c ∈ t.calls, c.op = .handUp ∧ c.assocSuccess = false := by
  have hrun : ((runM apStep sampleAp
      [.auth true (sampleAuth Adapter.sampleTa), .rx (sampleData Adapter.sampleTa)]).any fun t =>
        t.calls.any fun c => decide (c.op = .handUp ∧ c.assocSuccess = false)) = true := by
    decide +kernel
  obtain ⟨t, ht, h⟩ := Option.any_eq_true _ _ |>.mp hrun
  exact ⟨t, ht, by simpa using h⟩

end Ap

end Rtl8188eu
