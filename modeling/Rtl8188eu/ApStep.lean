import Rtl8188eu.ApPowerSave
import Rtl8188eu.RecvOrigin

/-!
# What an access point does to its stations

Everything an access point does is made of a few moves (`Move`) : a record is allocated or
freed, a station is authenticated, accepted or refused, it falls asleep or wakes up, a frame
is kept for it, the beacon goes out. The rest leaves the station table, the state words, the
ids, the queues and the bitmaps alone (`Quiet`). What the moves keep is kept by every event,
so an invariant of the access point is proved move by move.

`WellFormed` is the first of them : the free records are not in the table, the stations on the
two lists are, the lists are disjoint, the counters count the queues, and group frames wait
for the broadcast station only.
-/

set_option linter.unusedSectionVars false

namespace Rtl8188eu

open LinkedLists

/-! ## Records in the table -/

namespace Adapter

variable {ι : Type} [DecidableEq ι] {s s' : Adapter ι} {k j : StaId} {a : MacAddr}

theorem mem_of_rtwGetStainfo (h : s.rtwGetStainfo a = some k) : ∃ i, k ∈ s.staHash i :=
  ⟨_, List.mem_of_find?_eq_some h⟩

/-- The parts of a freed record that are not frames. -/
theorem rtwFreeStainfo_fields (s : Adapter ι) (k : StaId) :
    (s.rtwFreeStainfo k).staHash = unlink s.staHash k ∧
      (s.rtwFreeStainfo k).freeStaQueue = s.freeStaQueue ++ [k] ∧
      (∀ j, ((s.rtwFreeStainfo k).sta j).hwaddr = (s.sta j).hwaddr) ∧
      (s.rtwFreeStainfo k).mlmepriv = s.mlmepriv := by
  have h := s.rtwFreeStainfo_framesOnly k
  unfold FramesOnly at h
  rw [h]
  refine ⟨rfl, rfl, fun j => ?_, rfl⟩
  rcases eq_or_ne j k with rfl | hj
  · simp
  · simp [hj]

/-- Another record is still found after one was freed. -/
theorem rtwGetStainfo_rtwFreeStainfo (h : s.rtwGetStainfo a = some j) (hj : j ≠ k) :
    (s.rtwFreeStainfo k).rtwGetStainfo a = some j := by
  obtain ⟨hhash, -, haddr, -⟩ := s.rtwFreeStainfo_fields k
  unfold rtwGetStainfo at h ⊢
  rw [hhash]
  simp only [haddr]
  rw [List.find?_eq_some_iff_append] at h ⊢
  obtain ⟨hp, as, bs, hl, has⟩ := h
  refine ⟨hp, as.filter (· ≠ k), bs.filter (· ≠ k), ?_, fun x hx => has x (List.mem_filter.mp hx).1⟩
  rw [unlink, hl, List.filter_append, List.filter_cons_of_pos (by simpa using hj)]

/-- The record that `rtw_alloc_stainfo` takes. -/
theorem rtwAllocStainfo_eq (h : s.rtwAllocStainfo a = (some k, s')) :
    ∃ rest, s.freeStaQueue = k :: rest ∧ s'.freeStaQueue = rest ∧
      s'.staHash = addTail s.staHash (wifiMacHash a) k ∧
      s'.sta = Function.update s.sta k (freshStainfo a) ∧ s'.mlmepriv = s.mlmepriv := by
  unfold rtwAllocStainfo at h
  split at h
  · simp at h
  · rename_i psta rest hq
    obtain ⟨hk, rfl⟩ := Prod.mk.inj h
    cases hk
    exact ⟨rest, hq, rfl, rfl, rfl, rfl⟩

theorem rtwAllocStainfo_none (h : s.rtwAllocStainfo a = (none, s')) : s' = s := by
  unfold rtwAllocStainfo at h
  split at h
  · exact (Prod.mk.inj h).2.symm
  · simp at h

/-- Another record is still found after one was allocated. -/
theorem rtwGetStainfo_rtwAllocStainfo (h : s.rtwAllocStainfo a = (some k, s'))
    (hk : ∀ i, k ∉ s.staHash i) {b : MacAddr} (hb : s.rtwGetStainfo b = some j) :
    s'.rtwGetStainfo b = some j := by
  obtain ⟨rest, -, -, hhash, hsta, -⟩ := rtwAllocStainfo_eq h
  unfold rtwGetStainfo at hb ⊢
  dsimp only at hb ⊢
  set addr := if isMcast b then bcAddr else b
  have hne : ∀ x ∈ s.staHash (wifiMacHash addr), (s'.sta x).hwaddr = (s.sta x).hwaddr := by
    intro x hx
    rw [hsta, Function.update_of_ne]
    rintro rfl
    exact hk _ hx
  have hfind : (s.staHash (wifiMacHash addr)).find? (fun x => (s'.sta x).hwaddr = addr)
      = some j := by
    rw [← hb]
    refine List.find?_congr fun x hx => ?_
    rw [hne x hx]
  rw [hhash, addTail]
  by_cases hi : wifiMacHash addr = wifiMacHash a
  · rw [hi, Function.update_self, ← hi, List.find?_append, hfind]
    rfl
  · rw [Function.update_of_ne hi]
    exact hfind

end Adapter

/-- The part of a record that authentication, association and power save are about. -/
def ApSta.core (st : ApSta) :
    BitVec 32 × ℕ × List XmitFrame × ℕ × (AcQueue → List XmitFrame) :=
  (st.state, st.aid, st.sleepQ, st.sleepqLen, st.pending)

/-- What the last association request of the station said about it. -/
def ApSta.caps (st : ApSta) : BitVec 16 × Bool × Bool × Bool × BitVec 16 :=
  (st.capability, st.shortPreamble, st.nonErp, st.ht, st.htCapInfo)

/-- What the counters of the BSS count the station for. -/
def ApSta.flags (st : ApSta) : Bool × Bool × Bool × Bool × Bool × Bool :=
  (st.noShortPreambleSet, st.nonerpSet, st.noShortSlotTimeSet, st.noHtSet, st.noHtGfSet,
    st.ht20mhzSet)

namespace Ap

variable {ι : Type} [DecidableEq ι] {s s' t : Ap ι} {k j : StaId}

/-- The broadcast station. -/
def bcmc (s : Ap ι) : Option StaId := s.base.rtwGetBcmcStainfo

theorem live_of_get {a : MacAddr} (h : s.base.rtwGetStainfo a = some k) : s.Live k :=
  Adapter.mem_of_rtwGetStainfo h

/-! ## Moves -/

/-- Nothing happens to the stations, their ids, their queues, the counters and the bitmaps. -/
structure Quiet (s s' : Ap ι) : Prop where
  stations : Adapter.SameStations s.base s'.base
  core : ∀ k, (s'.sta k).core = (s.sta k).core
  caps : ∀ k, (s'.sta k).caps = (s.sta k).caps
  flags : ∀ k, (s'.sta k).flags = (s.sta k).flags
  authList : s'.authList = s.authList
  asocList : s'.asocList = s.asocList
  authListCnt : s'.authListCnt = s.authListCnt
  asocListCnt : s'.asocListCnt = s.asocListCnt
  bss : s'.bss = s.bss
  staAid : s'.staAid = s.staAid
  staDzBitmap : s'.staDzBitmap = s.staDzBitmap
  timBitmap : s'.timBitmap = s.timBitmap
  inHiq : s'.inHiq = s.inHiq
  calls : s'.calls = s.calls

/-- The same stations, on the same lists. -/
structure SameTables (s s' : Ap ι) : Prop where
  stations : Adapter.SameStations s.base s'.base
  authList : s'.authList = s.authList
  asocList : s'.asocList = s.asocList
  authListCnt : s'.authListCnt = s.authListCnt
  asocListCnt : s'.asocListCnt = s.asocListCnt

/-- The same bitmaps. -/
structure SameBits (s s' : Ap ι) : Prop where
  staDzBitmap : s'.staDzBitmap = s.staDzBitmap
  timBitmap : s'.timBitmap = s.timBitmap
  inHiq : s'.inHiq = s.inHiq

/-- An association request of the station `k` is looked at : the state of the station has changed,
and its record has got what the request says. -/
structure Requested (k : StaId) (s t : Ap ι) : Prop where
  tables : SameTables s t
  bits : SameBits s t
  sta : ∃ st, t.sta = Function.update s.sta k st ∧
    st.core = (st.state, (s.sta k).aid, (s.sta k).sleepQ, (s.sta k).sleepqLen, (s.sta k).pending) ∧
    st.state[2] = (s.sta k).state[2] ∧ st.state[10] = false ∧
    st.state[14] = ((s.sta k).state[10] && (s.sta k).state[14]) ∧ st.flags = (s.sta k).flags
  bss : t.bss = s.bss
  staAid : t.staAid = s.staAid
  calls : t.calls = s.callOf .assocReq k :: s.calls

/-- What an access point does to its stations, in the words of its functions. `auth` says that an
authentication frame is handled. -/
inductive Move (auth : Bool) : Ap ι → Ap ι → Prop
  | quiet {s s' : Ap ι} (h : Quiet s s') : Move auth s s'
  /-- An entry of the log about a frame. -/
  | note {s : Ap ι} {c : ApCall} (hop : c.op = .pwrBit ∨ c.op = .handUp ∨ c.op = .authAccept) :
    Move auth s { s with calls := c :: s.calls }
  | alloc {s s' : Ap ι} {k : StaId} {a : MacAddr} (h : s.rtwAllocStainfo a = (some k, s')) :
    Move auth s s'
  | free {s : Ap ι} {k : StaId} (hlive : s.Live k) (hasoc : k ∉ s.asocList) :
    Move auth s (s.rtwFreeStainfo k)
  /-- An associated station is removed. -/
  | remove {s : Ap ι} {k : StaId} (hasoc : k ∈ s.asocList) : Move auth s (s.expireFree k)
  | authAdd {s : Ap ι} {k : StaId} (hlive : s.Live k) (hauth : k ∉ s.authList)
    (hasoc : k ∉ s.asocList) : Move auth s (s.authLink k)
  | authDel {s : Ap ι} {k : StaId} (hauth : k ∈ s.authList) : Move auth s (s.authUnlink k)
  /-- An authentication frame of a station that has a record. -/
  | reauth {s : Ap ι} {k : StaId} (hauth : auth = true) (hlive : s.Live k) :
    Move auth s (s.reauth k)
  /-- The state word changes, but not in the bits of the properties. -/
  | mark {s : Ap ι} {k : StaId} {v : BitVec 32}
    (hauth : hasBits v wifiFwAuthSuccess = (s.sta k).authSuccess)
    (hassoc : hasBits v wifiFwAssocSuccessBits = (s.sta k).assocSuccess)
    (hsleep : hasBits v wifiSleepState = (s.sta k).asleep) :
    Move auth s (s.updateSta k fun st => { st with state := v })
  | authDone {s : Ap ι} {k : StaId} {clr : BitVec 32} (hlive : s.Live k)
    (hclr : clr = wifiFwAuthNull ∨ clr = wifiFwAuthState) : Move auth s (s.authComplete k clr)
  /-- An association request of a station that is neither authenticated nor associated. -/
  | class2 {s : Ap ι} {k : StaId} (hauth : (s.sta k).authSuccess = false) :
    Move auth s (s.record .assocReq k)
  | refuse {s t : Ap ι} {k : StaId} (hlive : s.Live k) (hreq : Requested k s t) :
    Move auth s (t.assocReqFail k)
  | accept {s t : Ap ι} {k : StaId} (hlive : s.Live k) (hreq : Requested k s t)
    (hroom : 0 < (t.sta k).aid ∨ t.freeAid ≤ t.maxNumSta.val) : Move auth s (t.assignAid k)
  | stop {s : Ap ι} {k : StaId} (hlive : s.Live k) : Move auth s (s.fallAsleep k)
  | buffer {s : Ap ι} {k : StaId} {f : XmitFrame} (hlive : s.Live k)
    (hasleep : (s.sta k).asleep = true) : Move auth s (s.buffer k f)
  | bufferGroup {s : Ap ι} {k : StaId} {f : XmitFrame} (hbc : s.bcmc = some k) :
    Move auth s (s.bufferGroup k f)
  | setPending {s : Ap ι} {k : StaId} {q : AcQueue} {l : List XmitFrame}
    (h : ∀ f ∈ l, f.bmcst = true → s.bcmc = some k) :
    Move auth s (s.updateSta k fun st => { st with pending := Function.update st.pending q l })
  | wakeup {s : Ap ι} {k : StaId} (hlive : s.Live k)
    (h : (s.sta k).asleep = true ∨ (s.sta k).sleepQ ≠ []) : Move auth s (s.wakeupSta k)
  | wakeupGroup {s : Ap ι} : Move auth s s.wakeupGroup
  | deliver {s : Ap ι} {k : StaId} (hlive : s.Live k) (hasleep : (s.sta k).asleep = true) :
    Move auth s (s.xmitDeliveryEnabledFrames k)
  | psPoll {s : Ap ι} {k : StaId} {priority : ℕ} (hlive : s.Live k) : Move auth s (s.psPoll k priority)
  | aliveChk {s : Ap ι} {k : StaId} (hlive : s.Live k) (hasleep : (s.sta k).asleep = true) :
    Move auth s (s.aliveChk k)
  | txBeacon {s : Ap ι} : Move auth s s.txBeaconHdl
  | hiQueue {s : Ap ι} {empty : Bool} : Move auth s (s.rtwChkHiQueueHdl empty)

/-- Moves, one after the other. -/
abbrev Moves (auth : Bool) : Ap ι → Ap ι → Prop := Relation.ReflTransGen (Move auth)

/-! ## Well-formed states -/

structure WellFormed (s : Ap ι) : Prop where
  freeNodup : s.base.freeStaQueue.Nodup
  freeDead : ∀ k ∈ s.base.freeStaQueue, ¬ s.Live k
  authLive : ∀ k ∈ s.authList, s.Live k
  asocLive : ∀ k ∈ s.asocList, s.Live k
  authNodup : s.authList.Nodup
  asocNodup : s.asocList.Nodup
  disjoint : ∀ k ∈ s.authList, k ∉ s.asocList
  authCnt : s.authListCnt = s.authList.length
  asocCnt : s.asocListCnt = s.asocList.length
  counted : ∀ k, (s.sta k).sleepqLen = (s.sta k).sleepQ.length
  groups : ∀ k q, ∀ f ∈ (s.sta k).pending q, f.bmcst = true → s.bcmc = some k

theorem live_congr (h : Adapter.SameStations s.base s'.base) : s'.Live k ↔ s.Live k := by
  unfold Live
  rw [h.staHash]

theorem bcmc_congr (h : Adapter.SameStations s.base s'.base) : s'.bcmc = s.bcmc :=
  h.rtwGetStainfo bcAddr

theorem SameTables.rfl (s : Ap ι) {sta : StaId → ApSta} {staAid : ℕ → Option StaId}
    {dz tim : BitVec 16} {hiq : Bool} {calls : List ApCall} :
    SameTables s { s with
      sta := sta, staAid := staAid, staDzBitmap := dz, timBitmap := tim, inHiq := hiq,
      calls := calls } :=
  ⟨Adapter.SameStations.refl _, Eq.refl _, Eq.refl _, Eq.refl _, Eq.refl _⟩

theorem SameTables.trans (h₁ : SameTables s s') (h₂ : SameTables s' t) : SameTables s t :=
  ⟨h₁.stations.trans h₂.stations, h₂.authList.trans h₁.authList, h₂.asocList.trans h₁.asocList,
    h₂.authListCnt.trans h₁.authListCnt, h₂.asocListCnt.trans h₁.asocListCnt⟩

theorem SameBits.trans (h₁ : SameBits s s') (h₂ : SameBits s' t) : SameBits s t :=
  ⟨h₂.staDzBitmap.trans h₁.staDzBitmap, h₂.timBitmap.trans h₁.timBitmap, h₂.inHiq.trans h₁.inHiq⟩

theorem WellFormed.tables (h : WellFormed s) (ht : SameTables s s')
    (hcounted : ∀ k, (s'.sta k).sleepqLen = (s'.sta k).sleepQ.length)
    (hgroups : ∀ k q, ∀ f ∈ (s'.sta k).pending q, f.bmcst = true → s.bcmc = some k) :
    WellFormed s' := by
  refine ⟨?_, ?_, ?_, ?_, ?_, ?_, ?_, ?_, ?_, hcounted, ?_⟩
  · rw [ht.stations.freeStaQueue]
    exact h.freeNodup
  · intro k hk
    rw [live_congr ht.stations]
    rw [ht.stations.freeStaQueue] at hk
    exact h.freeDead k hk
  · intro k hk
    rw [live_congr ht.stations]
    rw [ht.authList] at hk
    exact h.authLive k hk
  · intro k hk
    rw [live_congr ht.stations]
    rw [ht.asocList] at hk
    exact h.asocLive k hk
  · rw [ht.authList]
    exact h.authNodup
  · rw [ht.asocList]
    exact h.asocNodup
  · rw [ht.authList, ht.asocList]
    exact h.disjoint
  · rw [ht.authListCnt, ht.authList]
    exact h.authCnt
  · rw [ht.asocListCnt, ht.asocList]
    exact h.asocCnt
  · rw [bcmc_congr ht.stations]
    exact hgroups

/-- The record of one station changes. -/
theorem WellFormed.update (h : WellFormed s) (ht : SameTables s s') {st : ApSta}
    (hsta : s'.sta = Function.update s.sta k st) (hcounted : st.sleepqLen = st.sleepQ.length)
    (hgroups : ∀ q, ∀ f ∈ st.pending q, f.bmcst = true → s.bcmc = some k) : WellFormed s' := by
  refine h.tables ht (fun j => ?_) fun j => ?_
  · rcases eq_or_ne j k with rfl | hj
    · rw [hsta, Function.update_self]
      exact hcounted
    · rw [hsta, Function.update_of_ne hj]
      exact h.counted j
  · rcases eq_or_ne j k with rfl | hj
    · rw [hsta, Function.update_self]
      exact hgroups
    · rw [hsta, Function.update_of_ne hj]
      exact h.groups j

/-! ## What the moves do -/

theorem core_fields {st st' : ApSta} (h : st'.core = st.core) :
    st'.state = st.state ∧ st'.aid = st.aid ∧ st'.sleepQ = st.sleepQ ∧
      st'.sleepqLen = st.sleepqLen ∧ st'.pending = st.pending := by
  simpa only [ApSta.core, Prod.mk.injEq] using h

theorem core_eq {st : ApSta} {v : BitVec 32} {a n : ℕ} {q : List XmitFrame}
    {p : AcQueue → List XmitFrame} (h : st.core = (v, a, q, n, p)) :
    st.state = v ∧ st.aid = a ∧ st.sleepQ = q ∧ st.sleepqLen = n ∧ st.pending = p := by
  simpa only [ApSta.core, Prod.mk.injEq] using h

theorem sent_foldl (fs : List XmitFrame) : ∀ (st : ApSta) (n : ℕ), st.sleepqLen = fs.length + n →
    (fs.foldl ApSta.sent st).sleepqLen = n ∧ (fs.foldl ApSta.sent st).pending = st.pending ∧
      (fs.foldl ApSta.sent st).state = st.state ∧ (fs.foldl ApSta.sent st).aid = st.aid := by
  induction fs with
  | nil =>
    intro st n h
    exact ⟨by simpa using h, rfl, rfl, rfl⟩
  | cons f fs ih =>
    intro st n h
    rw [List.foldl_cons]
    exact ih (st.sent f) n (by simp [ApSta.sent, decU32, h])

/-- `wakeup_sta_to_xmit` empties the queue and leaves the rest of the record. -/
theorem core_flush {st : ApSta} (h : st.sleepqLen = st.sleepQ.length) :
    st.flush.core = (st.state, st.aid, [], 0, st.pending) := by
  obtain ⟨hlen, hpend, hstate, haid⟩ := sent_foldl st.sleepQ st 0 h
  simp [ApSta.core, ApSta.flush, hlen, hpend, hstate, haid]

/-- As many decrements as there are frames. -/
theorem foldl_decU32 (fs : List XmitFrame) (n : ℕ) :
    fs.foldl (fun n _ => decU32 n) (fs.length + n) = n := by
  induction fs with
  | nil => simp
  | cons f fs ih =>
    rw [List.foldl_cons]
    have hdec : decU32 ((f :: fs).length + n) = fs.length + n := by
      simp [decU32]
    rw [hdec]
    exact ih

theorem core_flushGroup {st : ApSta} (h : st.sleepqLen = st.sleepQ.length) :
    st.flushGroup.core = (st.state, st.aid, [], 0, st.pending) := by
  have h0 := foldl_decU32 st.sleepQ 0
  rw [Nat.add_zero, ← h] at h0
  simp [ApSta.core, ApSta.flushGroup, h0]

/-- The alive check changes the state word only. -/
theorem core_aliveSeen (st : ApSta) (n : ℕ) :
    (st.aliveSeen n).core = ((st.aliveSeen n).state, st.aid, st.sleepQ, st.sleepqLen, st.pending) ∧
      (st.aliveSeen n).state[2] = st.state[2] ∧
      (st.aliveSeen n).state[10] = false ∧
      (st.aliveSeen n).state[14] = st.state[14] := by
  unfold ApSta.aliveSeen
  rw [hasBits_aliveChk]
  cases h : st.state[10] with
  | false => simp [ApSta.core, h]
  | true => simp [ApSta.core, wifiStaAliveChkState, h]

/-- A station that wakes up. -/
theorem core_awake (st : ApSta) (n : ℕ) :
    (st.awake n).core = ((st.awake n).state, st.aid, st.sleepQ, st.sleepqLen, st.pending) ∧
      (st.awake n).state[2] = false ∧ (st.awake n).state[10] = false ∧
      (st.awake n).state[14] = st.state[14] := by
  unfold ApSta.awake
  rw [ApSta.asleep_eq]
  cases h : st.state[2] with
  | false =>
    obtain ⟨h1, h2, h3, h4⟩ := core_aliveSeen st n
    simp only [Bool.false_eq_true, if_false]
    exact ⟨h1, h2.trans h, h3, h4⟩
  | true =>
    obtain ⟨h1, h2, h3, h4⟩ :=
      core_aliveSeen { st with state := st.state ^^^ wifiSleepState } n
    simp only [if_true]
    refine ⟨h1, ?_, h3, ?_⟩
    · rw [h2]
      simp [wifiSleepState, h]
    · rw [h4]
      simp [wifiSleepState]

/-- `xmit_delivery_enabled_frames` takes frames off the queue. -/
theorem deliverLoop_spec : ∀ (fs : List XmitFrame) (st : ApSta) (n : ℕ),
    st.sleepqLen = fs.length + n →
    (ApSta.deliverLoop fs st).2.1.core =
      (st.state, st.aid, st.sleepQ, (ApSta.deliverLoop fs st).1.length + n, st.pending)
  | [], st, n, h => by simpa [ApSta.deliverLoop, ApSta.core] using h
  | f :: fs, st, n, h => by
    rw [ApSta.deliverLoop]
    split
    · have hsent : (st.sent f).sleepqLen = fs.length + n := by simp [ApSta.sent, decU32, h]
      exact deliverLoop_spec fs (st.sent f) n hsent
    · have hlen : st.sleepqLen = fs.length + (n + 1) := by
        rw [h, List.length_cons]
        omega
      have ih := deliverLoop_spec fs st (n + 1) hlen
      dsimp only
      rw [ih, List.length_cons]
      simp only [Prod.mk.injEq, true_and, and_true]
      omega

/-- `wakeup_sta_to_xmit` on the station. -/
theorem wakeupSta_eq (hc : (s.sta k).sleepqLen = (s.sta k).sleepQ.length) :
    ∃ st v, st.core = (v, (s.sta k).aid, [], 0, (s.sta k).pending) ∧ v[2] = false ∧
      v[10] = false ∧ v[14] = (s.sta k).state[14] ∧
      s.wakeupSta k = { s.record .wakeup k with
        sta := Function.update s.sta k st
        timBitmap := s.timBitmap &&& ~~~bit16 (s.sta k).aid
        staDzBitmap := s.staDzBitmap &&& ~~~bit16 (s.sta k).aid } := by
  have hflush := core_flush hc
  simp only [ApSta.core, Prod.mk.injEq] at hflush
  obtain ⟨hstate, haid, hq, hlen, hpend⟩ := hflush
  obtain ⟨hcore, h2, h10, h14⟩ := core_awake (s.sta k).flush s.expireTo
  refine ⟨(s.sta k).flush.awake s.expireTo, _, ?_, h2, h10, h14.trans (by rw [hstate]), ?_⟩
  · rw [hcore, haid, hq, hlen, hpend]
  · unfold wakeupSta
    simp only [updateSta, record, Function.update_self, Function.update_idem]
    rw [if_pos hlen, haid]

/-- The group frames at the end of `wakeup_sta_to_xmit`. -/
theorem wakeupGroup_cases (h : WellFormed s) : s.wakeupGroup = s ∨
    ∃ b st, s.bcmc = some b ∧ s.staDzBitmap &&& 0xfffe = 0 ∧
      st.core = ((s.sta b).state, (s.sta b).aid, [], 0, (s.sta b).pending) ∧
      s.wakeupGroup = { s with sta := Function.update s.sta b st }.clearBit0 := by
  unfold wakeupGroup
  split
  · exact Or.inl rfl
  · rename_i b hb
    split
    · rename_i hdz
      have hcore := core_flushGroup (h.counted b)
      have hlen : (s.sta b).flushGroup.sleepqLen = 0 := congrArg (fun c => c.2.2.2.1) hcore
      refine Or.inr ⟨b, _, hb, hdz, hcore, ?_⟩
      simp only [updateSta, Function.update_self]
      rw [if_pos hlen]
    · exact Or.inl rfl

/-- The frames that a trigger of the station sets free. -/
theorem xmitDeliveryEnabledFrames_eq (hc : (s.sta k).sleepqLen = (s.sta k).sleepQ.length) :
    ∃ st q clr, st.core = ((s.sta k).state, (s.sta k).aid, q, q.length, (s.sta k).pending) ∧
      s.xmitDeliveryEnabledFrames k = { s.record .deliver k with
        sta := Function.update s.sta k st
        timBitmap := if clr =
        true then s.timBitmap &&& ~~~bit16 (s.sta k).aid else s.timBitmap } := by
  have hcore := deliverLoop_spec (s.sta k).sleepQ (s.sta k) 0 (by rw [hc, Nat.add_zero])
  simp only [ApSta.core, Prod.mk.injEq, Nat.add_zero] at hcore
  obtain ⟨hstate, haid, -, hlen, hpend⟩ := hcore
  unfold xmitDeliveryEnabledFrames
  dsimp only
  rcases hloop : ApSta.deliverLoop (s.sta k).sleepQ (s.sta k) with ⟨kept, st, clr⟩
  rw [hloop] at hstate haid hlen hpend
  refine ⟨{ st with sleepQ := kept }, kept, clr, ?_, rfl⟩
  exact Prod.ext hstate (Prod.ext haid (Prod.ext rfl (Prod.ext hlen hpend)))

/-- The frame that a PS-Poll gets. -/
theorem psPollFrame_eq (hc : (s.sta k).sleepqLen = (s.sta k).sleepQ.length) :
    ∃ q tim,
      (tim = s.timBitmap ∨ tim = s.timBitmap &&& ~~~bit16 (s.sta k).aid) ∧
      s.psPollFrame k = { s.updateSta k fun st => { st with sleepQ := q, sleepqLen := q.length } with
        timBitmap := tim } := by
  unfold psPollFrame
  dsimp only
  cases hl : (s.sta k).sleepQ with
  | nil =>
    have hzero : (s.sta k).sleepqLen = 0 := by rw [hc, hl, List.length_nil]
    have hsame : ({ s.sta k with sleepQ := [], sleepqLen := 0 } : ApSta) = s.sta k := by
      rw [← hl, ← hzero]
    have hsame' : ({ s.sta k with sleepqLen := 0 } : ApSta) = s.sta k := by
      rw [← hzero]
    dsimp only
    split
    · refine ⟨[], s.timBitmap &&& ~~~bit16 (s.sta k).aid, Or.inr rfl, ?_⟩
      simp only [updateSta, List.length_nil, hsame, hsame']
    · refine ⟨[], s.timBitmap, Or.inl rfl, ?_⟩
      simp only [updateSta, List.length_nil, hsame, Function.update_eq_self]
  | cons f fs =>
    have hdec : decU32 (s.sta k).sleepqLen = fs.length := by
      rw [hc, hl]
      simp [decU32]
    refine ⟨fs, if fs.length = 0 then s.timBitmap &&& ~~~bit16 (s.sta k).aid else s.timBitmap,
      ?_, ?_⟩
    · split
      · exact Or.inr rfl
      · exact Or.inl rfl
    · simp only [updateSta, hdec]

/-- A PS-Poll ends the alive check, and takes a frame off the queue of a sleeping station. -/
theorem psPoll_cases (hc : (s.sta k).sleepqLen = (s.sta k).sleepQ.length) (priority : ℕ) :
    s.psPoll k priority = s ∨
      ∃ st v q tim, st.core = (v, (s.sta k).aid, q, q.length, (s.sta k).pending) ∧
        v[2] = (s.sta k).state[2] ∧ v[10] = false ∧ v[14] = (s.sta k).state[14] ∧
        ((s.sta k).asleep = false → q = (s.sta k).sleepQ) ∧
        (tim = s.timBitmap ∨
          (s.sta k).asleep = true ∧ tim = s.timBitmap &&& ~~~bit16 (s.sta k).aid) ∧
        s.psPoll k priority = { s.record .psPoll k with
          sta := Function.update s.sta k st
          timBitmap := tim } := by
  unfold psPoll
  split
  · exact Or.inl rfl
  refine Or.inr ?_
  obtain ⟨hcore, h2, h10, h14⟩ := core_aliveSeen (s.sta k) s.expireTo
  dsimp only
  set t := (s.record .psPoll k).updateSta k fun st => st.aliveSeen s.expireTo with ht
  have htk : t.sta k = (s.sta k).aliveSeen s.expireTo := Function.update_self ..
  rw [← htk] at hcore h2 h10 h14
  simp only [ApSta.core, Prod.mk.injEq] at hcore
  obtain ⟨-, haid, hq, hlen, hpend⟩ := hcore
  have hc' : (t.sta k).sleepqLen = (t.sta k).sleepQ.length := by rw [hlen, hq, hc]
  split
  · rename_i hs
    have hasleep : (s.sta k).asleep = true := by
      rw [← hs.1, ApSta.asleep_eq, ApSta.asleep_eq, h2]
    obtain ⟨q, tim, htim, he⟩ := psPollFrame_eq hc'
    refine ⟨{ t.sta k with sleepQ := q, sleepqLen := q.length }, (t.sta k).state, q, tim,
      ?_, h2, h10,
      h14, fun h => by simp [hasleep] at h, ?_, ?_⟩
    · exact Prod.ext rfl (Prod.ext haid (Prod.ext rfl (Prod.ext rfl hpend)))
    · rw [haid] at htim
      exact htim.imp id fun h => ⟨hasleep, h⟩
    · rw [he]
      simp only [ht, updateSta, record, Function.update_self, Function.update_idem]
  · refine ⟨t.sta k, (t.sta k).state, (s.sta k).sleepQ, s.timBitmap, ?_, h2, h10, h14, fun _ => rfl,
      Or.inl rfl, ?_⟩
    · exact Prod.ext rfl (Prod.ext haid (Prod.ext hq (Prod.ext (hlen.trans hc) hpend)))
    · rw [htk]
      rfl

/-- The beacon takes the group frames along. -/
theorem txBeaconHdl_cases (h : WellFormed s) : s.txBeaconHdl = s ∨
    ∃ b st, s.bcmc = some b ∧ s.timBitmap &&& bit16 0 ≠ 0 ∧ (s.sta b).sleepQ ≠ [] ∧
      st.core = ((s.sta b).state, (s.sta b).aid, [], 0, (s.sta b).pending) ∧
      s.txBeaconHdl = { s with sta := Function.update s.sta b st, inHiq := true } := by
  unfold txBeaconHdl
  split
  · exact Or.inl rfl
  · rename_i b hb
    split
    · rename_i hcond
      refine Or.inr ⟨b, _, hb, hcond.1, ?_, core_flushGroup (h.counted b), rfl⟩
      have hpos := hcond.2
      rw [h.counted b] at hpos
      exact List.ne_nil_of_length_pos hpos
    · exact Or.inl rfl

theorem rtwChkHiQueueHdl_cases (h : WellFormed s) (empty : Bool) :
    s.rtwChkHiQueueHdl empty = s ∨
      ∃ b, s.bcmc = some b ∧ (s.sta b).sleepQ = [] ∧ s.rtwChkHiQueueHdl empty = s.clearBit0 := by
  unfold rtwChkHiQueueHdl
  split
  · exact Or.inl rfl
  · rename_i b hb
    split
    · rename_i hcond
      refine Or.inr ⟨b, hb, ?_, rfl⟩
      have hlen := hcond.1
      rw [h.counted b] at hlen
      exact List.eq_nil_of_length_eq_zero hlen
    · exact Or.inl rfl

/-- The state word after an association request. -/
theorem assocStart_state (s : Ap ι) (k : StaId) :
    ((s.assocStart k).sta k).state[2] = (s.sta k).state[2] ∧
      ((s.assocStart k).sta k).state[10] = false ∧
      ((s.assocStart k).sta k).state[14] = ((s.sta k).state[10] && (s.sta k).state[14]) := by
  have hstate : ((s.assocStart k).sta k).state = ((s.sta k).state &&&
      ~~~(if (s.sta k).state[10] then wifiFwAuthSuccess else wifiFwAssocSuccessBits)) |||
        wifiFwAssocState := by
    simp only [assocStart, updateSta, record, Function.update_self, ApSta.authSuccess_eq]
  rw [hstate]
  cases h : (s.sta k).state[10] with
  | false => simp [wifiFwAssocSuccessBits, wifiFwAssocState, h]
  | true => simp [wifiFwAuthSuccess, wifiFwAssocState]

/-- A record changes, but neither in its core nor in what it is counted for. -/
theorem Requested.update (h : Requested k s t) {f : ApSta → ApSta}
    (hcore : (f (t.sta k)).core = (t.sta k).core) (hflags : (f (t.sta k)).flags = (t.sta k).flags) :
    Requested k s (t.updateSta k f) := by
  obtain ⟨st, hst, hst', h2, h10, h14, hfl⟩ := h.sta
  have htk : t.sta k = st := by rw [hst, Function.update_self]
  rw [htk] at hcore hflags
  obtain ⟨hstate, -⟩ := core_fields hcore
  refine ⟨h.tables.trans (SameTables.rfl t), h.bits.trans ⟨rfl, rfl, rfl⟩,
    ⟨f st, ?_, ?_, ?_, ?_, ?_, ?_⟩, h.bss, h.staAid, h.calls⟩
  · rw [updateSta, hst, Function.update_self, Function.update_idem]
  · rw [hcore, hstate]
    exact hst'
  · rw [hstate, h2]
  · rw [hstate, h10]
  · rw [hstate, h14]
  · rw [hflags, hfl]

theorem Requested.base (h : Requested k s t) {base : Adapter ι}
    (hb : Adapter.SameStations t.base base) : Requested k s { t with base := base } :=
  ⟨h.tables.trans ⟨hb, rfl, rfl, rfl, rfl⟩, h.bits.trans ⟨rfl, rfl, rfl⟩, h.sta, h.bss, h.staAid,
    h.calls⟩

theorem requested_assocStart (s : Ap ι) (k : StaId) : Requested k s (s.assocStart k) := by
  obtain ⟨h2, h10, h14⟩ := s.assocStart_state k
  refine ⟨SameTables.rfl s, ⟨rfl, rfl, rfl⟩, ⟨_, rfl, ?_, ?_, ?_, ?_, ?_⟩, rfl, rfl, rfl⟩
  · simp only [ApSta.core, record]
  · simpa only [assocStart, updateSta, Function.update_self] using h2
  · simpa only [assocStart, updateSta, Function.update_self] using h10
  · simpa only [assocStart, updateSta, Function.update_self] using h14
  · simp only [ApSta.flags, record]

theorem Requested.parseWmm (h : Requested k s t) (wmm : Option UInt8) :
    Requested k s (t.parseWmm k wmm) := by
  unfold Ap.parseWmm
  extract_lets wmm qosInfo
  exact (h.base (Adapter.sameStations_updateSta rfl)).update rfl rfl

/-- The request of the station `k` is refused, with the entry `c` of the log. -/
structure Refused (k : StaId) (c : ApCall) (s s' : Ap ι) : Prop where
  tables : SameTables s s'
  bits : SameBits s s'
  sta : ∃ st, s'.sta = Function.update s.sta k st ∧
    st.core = (st.state, 0, (s.sta k).sleepQ, (s.sta k).sleepqLen, (s.sta k).pending) ∧
    st.state[2] = (s.sta k).state[2] ∧ st.state[10] = false ∧
    st.state[14] = ((s.sta k).state[10] && (s.sta k).state[14]) ∧ st.flags = (s.sta k).flags ∧
    c.stale = !st.countedRight
  bss : s'.bss = s.bss
  staAid : s'.staAid = s.staAid
  calls : s'.calls = c :: s.callOf .assocReq k :: s.calls
  op : c.op = .reject
  station : c.sta = k
  aid : c.aid = (s.sta k).aid
  asleep : c.asleep = (s.sta k).asleep
  listed : c.listed = decide (k ∈ s.asocList)

theorem Requested.refused (h : Requested k s t) : ∃ c, Refused k c s (t.assocReqFail k) := by
  obtain ⟨st, hst, hcore, h2, h10, h14, hflags⟩ := h.sta
  have htk : t.sta k = st := by rw [hst, Function.update_self]
  have hcore' := hcore
  simp only [ApSta.core, Prod.mk.injEq, true_and] at hcore'
  obtain ⟨haid, hq, hlen, hpend⟩ := hcore'
  refine ⟨{ t.callOf .reject k with stale := !(t.sta k).countedRight }, ?_, ?_, ?_, ?_, ?_,
    ?_, ?_, ?_,
    ?_, ?_, ?_⟩
  · exact h.tables.trans (SameTables.rfl t)
  · exact h.bits.trans ⟨rfl, rfl, rfl⟩
  · refine ⟨{ st with aid := 0 }, ?_, ?_, h2, h10, h14, hflags, ?_⟩
    · simp only [assocReqFail, updateSta, hst, Function.update_self, Function.update_idem]
    · simp only [ApSta.core, hq, hlen, hpend]
    · rw [htk]
      rfl
  · exact h.bss
  · exact h.staAid
  · simp only [assocReqFail, h.calls]
  · rfl
  · rfl
  · simp only [callOf, htk, haid]
  · simp only [callOf, htk, ApSta.asleep_eq, h2]
  · simp only [callOf, h.tables.asocList]

theorem freeAid_spec (h : s.freeAid ≤ s.maxNumSta.val) :
    1 ≤ s.freeAid ∧ s.staAid (s.freeAid - 1) = none := by
  unfold freeAid at h ⊢
  refine ⟨by omega, ?_⟩
  have hlt := s.maxNumSta.isLt
  have hidx : (List.range numSta).findIdx (fun i => (s.staAid i).isNone) <
    (List.range numSta).length := by
    rw [List.length_range]
    omega
  have hnone := List.findIdx_getElem (w := hidx)
  simpa using hnone

/-- The station is on the list of the associated stations. -/
def asocAdd (s : Ap ι) (k : StaId) : List StaId :=
  if k ∈ s.asocList then s.asocList else s.asocList ++ [k]

/-- The state word of an associated station. -/
def assocState (x : BitVec 32) : BitVec 32 :=
  ((x &&& ~~~wifiFwAssocState) ||| wifiFwAssocSuccessBits) ||| fwLinkedBits

theorem assocState_bits (x : BitVec 32) :
    (assocState x)[2] = x[2] ∧ (assocState x)[10] = x[10] ∧ (assocState x)[14] = true := by
  simp [assocState, wifiFwAssocState, wifiFwAssocSuccessBits, fwLinkedBits]

/-- A station is accepted, with the id `a`. -/
structure Accepted (k : StaId) (a : ℕ) (s s' : Ap ι) : Prop where
  stations : Adapter.SameStations s.base s'.base
  bits : SameBits s s'
  sta : ∃ st, s'.sta = Function.update s.sta k st ∧
    st.core = (st.state, a, (s.sta k).sleepQ, (s.sta k).sleepqLen, (s.sta k).pending) ∧
    st.state[2] = (s.sta k).state[2] ∧ st.state[10] = false ∧ st.state[14] = true
  authList : s'.authList = s.authList.filter (· ≠ k)
  asocList : s'.asocList = s.asocAdd k
  authListCnt : s'.authListCnt = if k ∈ s.authList then decU8 s.authListCnt else s.authListCnt
  asocListCnt : s'.asocListCnt = if k ∈ s.asocList then s.asocListCnt else incU8 s.asocListCnt
  calls : ∃ c, c.op = .join ∧ s'.calls = c :: s.callOf .assocReq k :: s.calls
  staAid : (0 < a ∧ (s.sta k).aid = a ∧ s'.staAid = s.staAid) ∨
    ((s.sta k).aid = 0 ∧ 0 < a ∧ s.staAid (a - 1) = none ∧
      s'.staAid = Function.update s.staAid (a - 1) (some k))

/-- What the counters count a station for that joins. -/
def joined (st : ApSta) : ApSta :=
  { st with
    noShortPreambleSet := !st.shortPreamble
    nonerpSet := st.nonErp
    noShortSlotTimeSet := st.noShortSlot
    noHtSet := !st.ht
    noHtGfSet := st.noHtGfSet || st.noGf
    ht20mhzSet := st.ht20mhzSet || st.only20mhz }

theorem setFlag_fst (want flag : Bool) (n : ℤ) : (setFlag want flag n).1 = want := by
  cases want <;> cases flag <;> rfl

theorem raise_fst (want flag : Bool) (n : ℤ) :
    (if want then raiseFlag flag n else (flag, n, false)).1 = (flag || want) := by
  cases want <;> cases flag <;> rfl

theorem lowerFlag_fst (flag : Bool) (n : ℤ) : (lowerFlag flag n).1 = false := by
  cases flag <;> rfl

theorem join_sta (s : Ap ι) (k : StaId) :
    (s.bssCapUpdateOnStaJoin k).sta = Function.update s.sta k (joined (s.sta k)) := by
  simp only [bssCapUpdateOnStaJoin, updateSta, setFlag_fst, raise_fst, joined]

theorem leave_sta (s : Ap ι) (k : StaId) :
    (s.bssCapUpdateOnStaLeave k).sta = Function.update s.sta k
      { s.sta k with
        noShortPreambleSet := false, nonerpSet := false, noShortSlotTimeSet := false
        noHtSet := false, noHtGfSet := false, ht20mhzSet := false } := by
  simp only [bssCapUpdateOnStaLeave, updateSta, lowerFlag_fst]

theorem assocListed_base (s : Ap ι) (k : StaId) :
    (s.assocListed k).base = s.base.updateSta k fun st =>
      { st with ieee8021xBlocked := s.base.securitypriv.dot11AuthAlgrthm = .ieee8021X } := by
  unfold assocListed
  extract_lets s₁ s₂ s₃
  have h₃ : s₃.base = s₂.base := by
    unfold s₃
    split <;> rfl
  split
  · exact h₃
  · exact h₃

theorem assocListed_sta (s : Ap ι) (k : StaId) :
    ∃ n, (s.assocListed k).sta = Function.update s.sta k
      { s.sta k with state := assocState (s.sta k).state, expireTo := n } := by
  unfold assocListed
  extract_lets s₁ s₂ s₃
  have h₃ : s₃.sta = s₁.sta := by
    unfold s₃
    split <;> rfl
  split
  · exact ⟨(s.sta k).expireTo, h₃⟩
  · refine ⟨s₃.expireTo, ?_⟩
    simp only [asocLink, updateSta, h₃, s₁, Function.update_self, Function.update_idem]
    rfl

theorem assocListed_lists (s : Ap ι) (k : StaId) :
    (s.assocListed k).authList = s.authList.filter (· ≠ k) ∧
      (s.assocListed k).asocList = s.asocAdd k ∧
      (s.assocListed k).authListCnt =
        (if k ∈ s.authList then decU8 s.authListCnt else s.authListCnt) ∧
      (s.assocListed k).asocListCnt =
        if k ∈ s.asocList then s.asocListCnt else incU8 s.asocListCnt := by
  unfold assocListed
  extract_lets s₁ s₂ s₃
  have hauth : s₃.authList = s.authList.filter (· ≠ k) ∧
      s₃.authListCnt = if k ∈ s.authList then decU8 s.authListCnt else s.authListCnt := by
    unfold s₃
    by_cases hk : k ∈ s.authList
    · rw [if_pos (show k ∈ s₂.authList from hk), if_pos hk]
      exact ⟨rfl, rfl⟩
    · rw [if_neg (show k ∉ s₂.authList from hk), if_neg hk]
      refine ⟨(List.filter_eq_self.mpr fun j hj => ?_).symm, rfl⟩
      simpa using ne_of_mem_of_not_mem hj hk
  have hasoc : s₃.asocList = s.asocList ∧ s₃.asocListCnt = s.asocListCnt := by
    unfold s₃
    split <;> exact ⟨rfl, rfl⟩
  unfold asocAdd
  by_cases hk : k ∈ s.asocList
  · rw [if_pos (by rw [hasoc.1]; exact hk), if_pos hk, if_pos hk]
    exact ⟨hauth.1, hasoc.1, hauth.2, hasoc.2⟩
  · rw [if_neg (by rw [hasoc.1]; exact hk), if_neg hk, if_neg hk]
    refine ⟨hauth.1, ?_, hauth.2, ?_⟩
    · simp only [asocLink, updateSta, hasoc.1]
    · simp only [asocLink, updateSta, hasoc.2]

theorem assocListed_rest (s : Ap ι) (k : StaId) :
    SameBits s (s.assocListed k) ∧ (s.assocListed k).staAid = s.staAid ∧
      (s.assocListed k).calls = s.calls ∧ (s.assocListed k).bss = s.bss := by
  unfold assocListed
  extract_lets s₁ s₂ s₃
  have h₃ : SameBits s s₃ ∧ s₃.staAid = s.staAid ∧ s₃.calls = s.calls ∧ s₃.bss = s.bss := by
    unfold s₃
    split <;> exact ⟨⟨rfl, rfl, rfl⟩, rfl, rfl, rfl⟩
  split
  · exact h₃
  · exact ⟨⟨h₃.1.staDzBitmap, h₃.1.timBitmap, h₃.1.inHiq⟩, h₃.2.1, h₃.2.2.1, h₃.2.2.2⟩

/-- A request that is granted : what is left to do is in `assocDone`. -/
structure Granted (k : StaId) (a : ℕ) (s t : Ap ι) : Prop where
  tables : SameTables s t
  bits : SameBits s t
  sta : ∃ st, t.sta = Function.update s.sta k st ∧
    st.core = (st.state, a, (s.sta k).sleepQ, (s.sta k).sleepqLen, (s.sta k).pending) ∧
    st.state[2] = (s.sta k).state[2] ∧ st.state[10] = false ∧ st.flags = (s.sta k).flags
  bss : t.bss = s.bss
  calls : t.calls = s.callOf .assocReq k :: s.calls
  staAid : (0 < a ∧ (s.sta k).aid = a ∧ t.staAid = s.staAid) ∨
    ((s.sta k).aid = 0 ∧ 0 < a ∧ s.staAid (a - 1) = none ∧
      t.staAid = Function.update s.staAid (a - 1) (some k))

theorem Granted.accepted {a : ℕ} (h : Granted k a s t) : Accepted k a s (t.assocDone k) := by
  obtain ⟨hauth, hasoc, hauthCnt, hasocCnt⟩ := t.assocListed_lists k
  obtain ⟨hbits, haids, hcalls, -⟩ := t.assocListed_rest k
  obtain ⟨n, hsta⟩ := t.assocListed_sta k
  obtain ⟨st, hst, hcore, h2, h10, -⟩ := h.sta
  obtain ⟨b2, b10, b14⟩ := assocState_bits st.state
  have htk : t.sta k = st := by rw [hst, Function.update_self]
  rw [htk, hst, Function.update_idem] at hsta
  have hjoin : (t.assocDone k).sta = Function.update s.sta k
      (joined { st with state := assocState st.state, expireTo := n }) := by
    rw [assocDone, join_sta, hsta, Function.update_self, Function.update_idem]
  refine ⟨?_, ?_, ⟨_, hjoin, ?_, b2.trans h2, b10.trans h10, b14⟩, ?_, ?_, ?_, ?_,
    ⟨(t.assocListed k).joinCall k, rfl, ?_⟩, ?_⟩
  · refine h.tables.stations.trans ?_
    change Adapter.SameStations t.base (t.assocListed k).base
    rw [assocListed_base]
    exact Adapter.sameStations_updateSta rfl
  · exact (h.bits.trans hbits).trans ⟨rfl, rfl, rfl⟩
  · simp only [ApSta.core, Prod.mk.injEq, true_and, joined] at hcore ⊢
    exact hcore
  · refine Eq.trans hauth ?_
    rw [h.tables.authList]
  · refine Eq.trans hasoc ?_
    rw [asocAdd, asocAdd, h.tables.asocList]
  · refine Eq.trans hauthCnt ?_
    rw [h.tables.authList, h.tables.authListCnt]
  · refine Eq.trans hasocCnt ?_
    rw [h.tables.asocList, h.tables.asocListCnt]
  · change (t.assocListed k).joinCall k :: (t.assocListed k).calls = _
    rw [hcalls, h.calls]
  · rw [show (t.assocDone k).staAid = t.staAid from haids]
    exact h.staAid

/-- The end of an association request that is accepted. -/
theorem Requested.granted (h : Requested k s t)
    (hroom : 0 < (t.sta k).aid ∨ t.freeAid ≤ t.maxNumSta.val) :
    ∃ a u, Granted k a s u ∧ (u.sta k).caps = (t.sta k).caps ∧ t.assignAid k = u.assocDone k := by
  obtain ⟨st, hst, hcore, h2, h10, -, hflags⟩ := h.sta
  have htk : t.sta k = st := by rw [hst, Function.update_self]
  have haid : (t.sta k).aid = (s.sta k).aid := by
    rw [htk]
    exact congrArg (fun c => c.2.1) hcore
  unfold assignAid
  by_cases hpos : 0 < (t.sta k).aid
  · rw [if_pos hpos]
    refine ⟨(s.sta k).aid, t, ⟨h.tables, h.bits, ⟨st, hst, hcore, h2, h10, hflags⟩, h.bss, h.calls,
      Or.inl ⟨by omega, rfl, h.staAid⟩⟩, rfl, rfl⟩
  · have hle := hroom.resolve_left hpos
    obtain ⟨hfree, hnone⟩ := freeAid_spec hle
    rw [if_neg hpos, if_neg (Nat.not_lt.mpr hle)]
    refine ⟨t.freeAid, { t with staAid := Function.update t.staAid (t.freeAid - 1) (some k) }.updateSta k
      fun st => { st with aid := t.freeAid }, ⟨?_, ?_,
      ⟨{ st with aid := t.freeAid }, ?_, ?_, h2, h10, hflags⟩, h.bss,
      h.calls, Or.inr ⟨by omega, hfree, ?_, ?_⟩⟩, ?_, rfl⟩
    · exact h.tables.trans (SameTables.rfl t)
    · exact h.bits.trans ⟨rfl, rfl, rfl⟩
    · simp only [updateSta, hst, Function.update_self, Function.update_idem]
    · simp only [ApSta.core, Prod.mk.injEq, true_and] at hcore ⊢
      exact hcore.2
    · rw [← h.staAid]
      exact hnone
    · rw [← h.staAid]
      rfl
    · simp only [updateSta, Function.update_self, ApSta.caps]

theorem Requested.accepted (h : Requested k s t)
    (hroom : 0 < (t.sta k).aid ∨ t.freeAid ≤ t.maxNumSta.val) :
    ∃ a, Accepted k a s (t.assignAid k) := by
  obtain ⟨a, u, hu, -, he⟩ := h.granted hroom
  rw [he]
  exact ⟨a, hu.accepted⟩

/-! ## Allocation and release -/

theorem alloc_eq {a : MacAddr} (h : s.rtwAllocStainfo a = (some k, s')) :
    ∃ base, s.base.rtwAllocStainfo a = (some k, base) ∧
      s' = ({ s with base := base }.updateSta k fun _ => initApSta).record .alloc k := by
  unfold rtwAllocStainfo at h
  split at h
  · simp at h
  · rename_i j base hb
    obtain ⟨hj, rfl⟩ := Prod.mk.inj h
    cases hj
    exact ⟨base, hb, rfl⟩

theorem alloc_none {a : MacAddr} (h : s.rtwAllocStainfo a = (none, s')) : s' = s := by
  unfold rtwAllocStainfo at h
  split at h
  · rename_i base hb
    cases h
    rw [Adapter.rtwAllocStainfo_none hb]
  · simp at h

theorem live_alloc {a : MacAddr} (h : s.rtwAllocStainfo a = (some k, s')) :
    s'.Live j ↔ s.Live j ∨ j = k := by
  obtain ⟨base, hb, rfl⟩ := alloc_eq h
  obtain ⟨rest, -, -, hhash, -⟩ := Adapter.rtwAllocStainfo_eq hb
  have hbase : (({ s with base := base }.updateSta k fun _ => initApSta).record .alloc k).base
      = base := rfl
  unfold Live
  rw [hbase, hhash]
  simp only [mem_addTail]
  constructor
  · rintro ⟨i, hi | ⟨-, rfl⟩⟩
    · exact Or.inl ⟨i, hi⟩
    · exact Or.inr rfl
  · rintro (⟨i, hi⟩ | rfl)
    · exact ⟨i, Or.inl hi⟩
    · exact ⟨_, Or.inr ⟨rfl, rfl⟩⟩

/-- A record that is allocated was not in the table. -/
theorem WellFormed.not_live_alloc (hw : WellFormed s) {a : MacAddr}
    (h : s.rtwAllocStainfo a = (some k, s')) : ¬ s.Live k := by
  obtain ⟨base, hb, -⟩ := alloc_eq h
  obtain ⟨rest, hq, -⟩ := Adapter.rtwAllocStainfo_eq hb
  exact hw.freeDead k (hq ▸ List.mem_cons_self ..)

theorem WellFormed.bcmc_alloc (hw : WellFormed s) {a : MacAddr}
    (h : s.rtwAllocStainfo a = (some k, s')) (hj : s.bcmc = some j) : s'.bcmc = some j := by
  have hdead := hw.not_live_alloc h
  obtain ⟨base, hb, rfl⟩ := alloc_eq h
  exact Adapter.rtwGetStainfo_rtwAllocStainfo hb (fun i hi => hdead ⟨i, hi⟩) hj

theorem wellFormed_alloc (hw : WellFormed s) {a : MacAddr}
    (h : s.rtwAllocStainfo a = (some k, s')) : WellFormed s' := by
  have hlive := @live_alloc ι _ s s' k
  have hbc := @WellFormed.bcmc_alloc ι _ s s' k
  obtain ⟨base, hb, he⟩ := alloc_eq h
  obtain ⟨rest, hq, hrest, -⟩ := Adapter.rtwAllocStainfo_eq hb
  have hbase : s'.base = base := by rw [he]; rfl
  have hsta : s'.sta = Function.update s.sta k initApSta := by rw [he]; rfl
  have hauth : s'.authList = s.authList := by rw [he]; rfl
  have hasoc : s'.asocList = s.asocList := by rw [he]; rfl
  have hauthCnt : s'.authListCnt = s.authListCnt := by rw [he]; rfl
  have hasocCnt : s'.asocListCnt = s.asocListCnt := by rw [he]; rfl
  have hnd := hw.freeNodup
  rw [hq, List.nodup_cons] at hnd
  refine ⟨?_, ?_, ?_, ?_, ?_, ?_, ?_, ?_, ?_, ?_, ?_⟩
  · rw [hbase, hrest]
    exact hnd.2
  · intro j hj
    rw [hbase, hrest] at hj
    rw [hlive h]
    rintro (hlj | rfl)
    · exact hw.freeDead j (hq ▸ List.mem_cons_of_mem k hj) hlj
    · exact hnd.1 hj
  · intro j hj
    rw [hauth] at hj
    exact (hlive h).mpr (Or.inl (hw.authLive j hj))
  · intro j hj
    rw [hasoc] at hj
    exact (hlive h).mpr (Or.inl (hw.asocLive j hj))
  · rw [hauth]
    exact hw.authNodup
  · rw [hasoc]
    exact hw.asocNodup
  · rw [hauth, hasoc]
    exact hw.disjoint
  · rw [hauthCnt, hauth]
    exact hw.authCnt
  · rw [hasocCnt, hasoc]
    exact hw.asocCnt
  · intro j
    rcases eq_or_ne j k with rfl | hj
    · rw [hsta, Function.update_self]
      rfl
    · rw [hsta, Function.update_of_ne hj]
      exact hw.counted j
  · intro j q f hf hg
    rcases eq_or_ne j k with rfl | hj
    · rw [hsta, Function.update_self] at hf
      simp [initApSta] at hf
    · rw [hsta, Function.update_of_ne hj] at hf
      exact hbc hw h (hw.groups j q f hf hg)

theorem base_free (s : Ap ι) (k : StaId) :
    (s.rtwFreeStainfo k).base = s.base.rtwFreeStainfo k := rfl

theorem sta_free (s : Ap ι) (k : StaId) :
    ∃ n, (s.rtwFreeStainfo k).sta = Function.update s.sta k (clearedSta (s.sta k) n) :=
  ⟨_, rfl⟩

theorem authList_free (s : Ap ι) (k : StaId) :
    (s.rtwFreeStainfo k).authList = s.authList.filter (· ≠ k) := rfl

theorem asocList_free (s : Ap ι) (k : StaId) : (s.rtwFreeStainfo k).asocList = s.asocList := by
  simp only [rtwFreeStainfo, record]

theorem listCnt_free (s : Ap ι) (k : StaId) :
    (s.rtwFreeStainfo k).authListCnt =
        (if k ∈ s.authList then decU8 s.authListCnt else s.authListCnt) ∧
      (s.rtwFreeStainfo k).asocListCnt = s.asocListCnt := by
  simp only [rtwFreeStainfo, record]
  exact ⟨trivial, trivial⟩

/-- A counter that counts a list goes on counting it when an item is linked or unlinked. -/
theorem incU8_length {l : List StaId} (hnd : l.Nodup) (hk : k ∉ l) :
    incU8 l.length = (l ++ [k]).length := by
  have hle := (List.nodup_cons.mpr ⟨hk, hnd⟩).length_le_card
  rw [List.length_cons, Fintype.card_fin] at hle
  rw [List.length_append, List.length_singleton, incU8]
  omega

theorem decU8_length {l : List StaId} (hnd : l.Nodup) (k : StaId) :
    (if k ∈ l then decU8 l.length else l.length) = (l.filter (· ≠ k)).length := by
  split
  · rename_i hk
    have hle := hnd.length_le_card
    have hpos := List.length_pos_of_mem hk
    have herase : l.filter (· ≠ k) = l.erase k := by
      rw [hnd.erase_eq_filter k]
      exact List.filter_congr fun x _ => Bool.eq_iff_iff.mpr (by simp)
    rw [Fintype.card_fin] at hle
    rw [herase, List.length_erase_of_mem hk, decU8]
    omega
  · rename_i hk
    rw [List.filter_eq_self.mpr]
    intro j hj
    simpa using ne_of_mem_of_not_mem hj hk

theorem live_free : (s.rtwFreeStainfo k).Live j ↔ s.Live j ∧ j ≠ k := by
  unfold Live
  rw [base_free, (s.base.rtwFreeStainfo_fields k).1]
  simp only [mem_unlink]
  constructor
  · rintro ⟨i, hi, hj⟩
    exact ⟨⟨i, hi⟩, hj⟩
  · rintro ⟨⟨i, hi⟩, hj⟩
    exact ⟨i, hi, hj⟩

theorem bcmc_free (hj : s.bcmc = some j) (hne : j ≠ k) : (s.rtwFreeStainfo k).bcmc = some j := by
  unfold bcmc Adapter.rtwGetBcmcStainfo at hj ⊢
  rw [base_free]
  exact Adapter.rtwGetStainfo_rtwFreeStainfo hj hne

theorem wellFormed_free (hw : WellFormed s) (hlive : s.Live k) (hasoc : k ∉ s.asocList) :
    WellFormed (s.rtwFreeStainfo k) := by
  have hfree : (s.rtwFreeStainfo k).base.freeStaQueue = s.base.freeStaQueue ++ [k] := by
    rw [base_free, (s.base.rtwFreeStainfo_fields k).2.1]
  obtain ⟨n, hsta⟩ := s.sta_free k
  have hauth := s.authList_free k
  have hl := s.asocList_free k
  obtain ⟨hauthCnt, hasocCnt⟩ := s.listCnt_free k
  refine ⟨?_, ?_, ?_, ?_, ?_, ?_, ?_, ?_, ?_, ?_, ?_⟩
  · rw [hfree]
    refine List.nodup_append.mpr ⟨hw.freeNodup, List.nodup_singleton k, ?_⟩
    intro x hx y hy hxy
    rw [List.mem_singleton] at hy
    exact hw.freeDead x hx (by rw [hxy, hy]; exact hlive)
  · intro j hj
    rw [hfree, List.mem_append, List.mem_singleton] at hj
    rw [live_free]
    rintro ⟨hlj, hne⟩
    rcases hj with hj | hj
    · exact hw.freeDead j hj hlj
    · exact hne hj
  · intro j hj
    rw [hauth, List.mem_filter] at hj
    exact live_free.mpr ⟨hw.authLive j hj.1, by simpa using hj.2⟩
  · intro j hj
    rw [hl] at hj
    exact live_free.mpr ⟨hw.asocLive j hj, ne_of_mem_of_not_mem hj hasoc⟩
  · rw [hauth]
    exact hw.authNodup.filter _
  · rw [hl]
    exact hw.asocNodup
  · intro j hj
    rw [hauth, List.mem_filter] at hj
    rw [hl]
    exact hw.disjoint j hj.1
  · rw [hauthCnt, hauth, hw.authCnt, decU8_length hw.authNodup]
  · rw [hasocCnt, hl]
    exact hw.asocCnt
  · intro j
    rcases eq_or_ne j k with rfl | hj
    · rw [hsta, Function.update_self]
      rfl
    · rw [hsta, Function.update_of_ne hj]
      exact hw.counted j
  · intro j q f hf hg
    rcases eq_or_ne j k with rfl | hj
    · rw [hsta, Function.update_self] at hf
      simp [clearedSta] at hf
    · rw [hsta, Function.update_of_ne hj] at hf
      exact bcmc_free (hw.groups j q f hf hg) hj

/-! ## Every move keeps a state well-formed -/

variable {auth : Bool}

theorem Quiet.tables (h : Quiet s s') : SameTables s s' :=
  ⟨h.stations, h.authList, h.asocList, h.authListCnt, h.asocListCnt⟩

/-- The record of one station changes, and its frames on the way out stay. -/
theorem WellFormed.updateCore (h : WellFormed s) (ht : SameTables s s') {st : ApSta}
    {v : BitVec 32} {a : ℕ} {q : List XmitFrame} (hsta : s'.sta = Function.update s.sta k st)
    (hcore : st.core = (v, a, q, q.length, (s.sta k).pending)) : WellFormed s' := by
  obtain ⟨-, -, hq, hlen, hpend⟩ := core_eq hcore
  refine h.update ht hsta (by rw [hlen, hq]) fun i f hf => ?_
  rw [hpend] at hf
  exact h.groups k i f hf

theorem wellFormed_authAdd (hw : WellFormed s) (hlive : s.Live k) (hauth : k ∉ s.authList)
    (hasoc : k ∉ s.asocList) : WellFormed (s.authLink k) := by
  refine ⟨hw.freeNodup, hw.freeDead, ?_, hw.asocLive, ?_, hw.asocNodup, ?_, ?_, hw.asocCnt,
    hw.counted, hw.groups⟩
  · intro j hj
    rcases List.mem_append.mp hj with hj | hj
    · exact hw.authLive j hj
    · rw [List.mem_singleton.mp hj]
      exact hlive
  · refine List.nodup_append.mpr ⟨hw.authNodup, List.nodup_singleton k, ?_⟩
    intro x hx y hy hxy
    rw [List.mem_singleton.mp hy] at hxy
    exact hauth (hxy ▸ hx)
  · intro j hj
    rcases List.mem_append.mp hj with hj | hj
    · exact hw.disjoint j hj
    · rw [List.mem_singleton.mp hj]
      exact hasoc
  · change incU8 s.authListCnt = (s.authList ++ [k]).length
    rw [hw.authCnt, incU8_length hw.authNodup hauth]

theorem wellFormed_authDel (hw : WellFormed s) (hk : k ∈ s.authList) :
    WellFormed (s.authUnlink k) := by
  have hsub : (s.authList.filter (· ≠ k)).Sublist s.authList := List.filter_sublist
  refine ⟨hw.freeNodup, hw.freeDead, fun j hj => hw.authLive j (hsub.subset hj), hw.asocLive,
    hw.authNodup.sublist hsub, hw.asocNodup,
    fun j hj => hw.disjoint j (hsub.subset hj), ?_, hw.asocCnt,
    hw.counted, hw.groups⟩
  change decU8 s.authListCnt = (s.authList.filter (· ≠ k)).length
  rw [hw.authCnt, ← decU8_length hw.authNodup k, if_pos hk]

theorem wellFormed_asocUnlink (hw : WellFormed s) (hk : k ∈ s.asocList) :
    WellFormed (s.asocUnlink k) := by
  have hsub : (s.asocList.filter (· ≠ k)).Sublist s.asocList := List.filter_sublist
  refine ⟨hw.freeNodup, hw.freeDead, hw.authLive, fun j hj => hw.asocLive j (hsub.subset hj),
    hw.authNodup, hw.asocNodup.sublist hsub, fun j hj hj' => hw.disjoint j hj (hsub.subset hj'),
    hw.authCnt, ?_, hw.counted, hw.groups⟩
  change decU8 s.asocListCnt = (s.asocList.filter (· ≠ k)).length
  rw [hw.asocCnt, ← decU8_length hw.asocNodup k, if_pos hk]

/-- An associated station has left the list and is not counted any more. -/
theorem apLeave_sta (s : Ap ι) (k : StaId) :
    ∃ st, (s.apLeave k).sta = Function.update s.sta k st ∧
      st.core = (st.state, (s.sta k).aid, (s.sta k).sleepQ, (s.sta k).sleepqLen,
        (s.sta k).pending) ∧
      st.state[2] = (s.sta k).state[2] ∧ st.state[10] = (s.sta k).state[10] ∧
      st.state[14] = (s.sta k).state[14] := by
  unfold apLeave
  rw [leave_sta]
  simp only [updateSta, Function.update_self, Function.update_idem]
  exact ⟨_, rfl, rfl, by simp [fwLinkedBits], by simp [fwLinkedBits], by simp [fwLinkedBits]⟩

theorem wellFormed_remove (hw : WellFormed s) (hk : k ∈ s.asocList) :
    WellFormed (s.expireFree k) := by
  have hu := wellFormed_asocUnlink hw hk
  obtain ⟨st, hst, hcore, -⟩ := (s.asocUnlink k).apLeave_sta k
  have hv : WellFormed ((s.asocUnlink k).apLeave k) := by
    rw [hw.counted k |> fun h => show ((s.asocUnlink k).sta k).sleepqLen = _ from h] at hcore
    exact hu.updateCore ⟨Adapter.SameStations.refl _, rfl, rfl, rfl, rfl⟩ hst hcore
  have hlive : ((s.asocUnlink k).apLeave k).Live k := hw.asocLive k hk
  have hnot : k ∉ ((s.asocUnlink k).apLeave k).asocList := by
    change k ∉ s.asocList.filter (· ≠ k)
    simp
  exact wellFormed_free hv hlive hnot

theorem wellFormed_reauth (hw : WellFormed s) (k : StaId) : WellFormed (s.reauth k) := by
  have hu : WellFormed (s.record .reauth k) := hw.tables (SameTables.rfl s) hw.counted hw.groups
  unfold reauth
  dsimp only
  split
  · rename_i hk
    exact wellFormed_asocUnlink hu hk
  · exact hu

theorem mem_asocAdd : j ∈ s.asocAdd k ↔ j ∈ s.asocList ∨ j = k := by
  unfold asocAdd
  by_cases hk : k ∈ s.asocList
  · rw [if_pos hk]
    refine ⟨Or.inl, ?_⟩
    rintro (hj | rfl)
    · exact hj
    · exact hk
  · rw [if_neg hk, List.mem_append, List.mem_singleton]

theorem wellFormed_accepted {a : ℕ} (hw : WellFormed s) (hlive : s.Live k)
    (h : Accepted k a s s') : WellFormed s' := by
  obtain ⟨st, hsta, hcore, -⟩ := h.sta
  obtain ⟨-, -, hq, hlen, hpend⟩ := core_eq hcore
  have hl : ∀ {j}, s'.Live j ↔ s.Live j := live_congr h.stations
  refine ⟨?_, ?_, ?_, ?_, ?_, ?_, ?_, ?_, ?_, ?_, ?_⟩
  · rw [h.stations.freeStaQueue]
    exact hw.freeNodup
  · intro j hj
    rw [h.stations.freeStaQueue] at hj
    rw [hl]
    exact hw.freeDead j hj
  · intro j hj
    rw [h.authList, List.mem_filter] at hj
    exact hl.mpr (hw.authLive j hj.1)
  · intro j hj
    rw [h.asocList, mem_asocAdd] at hj
    rcases hj with hj | rfl
    · exact hl.mpr (hw.asocLive j hj)
    · exact hl.mpr hlive
  · rw [h.authList]
    exact hw.authNodup.filter _
  · rw [h.asocList]
    unfold asocAdd
    split
    · exact hw.asocNodup
    · rename_i hk
      refine List.nodup_append.mpr ⟨hw.asocNodup, List.nodup_singleton k, ?_⟩
      intro x hx y hy hxy
      rw [List.mem_singleton.mp hy] at hxy
      exact hk (hxy ▸ hx)
  · intro j hj
    rw [h.authList, List.mem_filter] at hj
    rw [h.asocList, mem_asocAdd]
    rintro (hj' | rfl)
    · exact hw.disjoint j hj.1 hj'
    · simp at hj
  · rw [h.authListCnt, h.authList, hw.authCnt, decU8_length hw.authNodup]
  · rw [h.asocListCnt, h.asocList, asocAdd, hw.asocCnt]
    split
    · rfl
    · rename_i hk
      exact incU8_length hw.asocNodup hk
  · intro j
    rcases eq_or_ne j k with rfl | hj
    · rw [hsta, Function.update_self, hlen, hq, hw.counted]
    · rw [hsta, Function.update_of_ne hj]
      exact hw.counted j
  · intro j i f hf hg
    rw [bcmc_congr h.stations]
    rcases eq_or_ne j k with rfl | hj
    · rw [hsta, Function.update_self, hpend] at hf
      exact hw.groups j i f hf hg
    · rw [hsta, Function.update_of_ne hj] at hf
      exact hw.groups j i f hf hg

theorem wellFormed_move (hw : WellFormed s) (h : Move auth s s') : WellFormed s' := by
  cases h with
  | quiet h =>
    refine hw.tables h.tables (fun k => ?_) fun k q f hf hg => ?_
    · obtain ⟨-, -, hq, hlen, -⟩ := core_fields (h.core k)
      rw [hq, hlen]
      exact hw.counted k
    · obtain ⟨-, -, -, -, hpend⟩ := core_fields (h.core k)
      rw [hpend] at hf
      exact hw.groups k q f hf hg
  | note hop => exact hw.tables (SameTables.rfl s) hw.counted hw.groups
  | alloc h => exact wellFormed_alloc hw h
  | free hlive hasoc => exact wellFormed_free hw hlive hasoc
  | authAdd hlive hauth hasoc => exact wellFormed_authAdd hw hlive hauth hasoc
  | authDel hauth => exact wellFormed_authDel hw hauth
  | reauth => exact wellFormed_reauth hw _
  | remove hasoc => exact wellFormed_remove hw hasoc
  | @mark k v h1 h2 h3 =>
    exact hw.update (SameTables.rfl s) rfl (hw.counted k) (hw.groups k)
  | @authDone k clr hlive hclr =>
    exact hw.update (SameTables.rfl s) rfl (hw.counted k) (hw.groups k)
  | class2 hauth => exact hw.tables (SameTables.rfl s) hw.counted hw.groups
  | @refuse t k hlive hreq =>
    obtain ⟨c, hc⟩ := hreq.refused
    obtain ⟨st, hsta, hcore, -⟩ := hc.sta
    rw [hw.counted k] at hcore
    exact hw.updateCore hc.tables hsta hcore
  | accept hlive hreq hroom =>
    obtain ⟨a, ha⟩ := hreq.accepted hroom
    exact wellFormed_accepted hw hlive ha
  | @stop k hlive => exact hw.update (SameTables.rfl s) rfl (hw.counted k) (hw.groups k)
  | @buffer k f hlive hasleep =>
    refine hw.update (SameTables.rfl s) rfl ?_ (hw.groups k)
    simp [record, hw.counted k]
  | @bufferGroup k f hbc =>
    refine hw.update (SameTables.rfl s) rfl ?_ (hw.groups k)
    simp [hw.counted k]
  | @setPending k q l hl =>
    refine hw.update (SameTables.rfl s) rfl (hw.counted k) fun i f hf hg => ?_
    dsimp only at hf
    rcases eq_or_ne i q with rfl | hi
    · rw [Function.update_self] at hf
      exact hl f hf hg
    · rw [Function.update_of_ne hi] at hf
      exact hw.groups k i f hf hg
  | @wakeup k hlive h =>
    obtain ⟨st, v, hcore, -, -, -, he⟩ := wakeupSta_eq (hw.counted k)
    rw [he]
    exact hw.updateCore (SameTables.rfl s) rfl hcore
  | wakeupGroup =>
    rcases wakeupGroup_cases hw with he | ⟨b, st, -, -, hcore, he⟩
    · rw [he]
      exact hw
    · rw [he]
      exact hw.updateCore (SameTables.rfl s) rfl hcore
  | @deliver k hlive hasleep =>
    obtain ⟨st, q, clr, hcore, he⟩ := xmitDeliveryEnabledFrames_eq (hw.counted k)
    rw [he]
    exact hw.updateCore (SameTables.rfl s) rfl hcore
  | @psPoll k priority hlive =>
    rcases psPoll_cases (hw.counted k) priority with he | ⟨st, v, q, tim, hcore, -, -, -, -, -, he⟩
    · rw [he]
      exact hw
    · rw [he]
      exact hw.updateCore (SameTables.rfl s) rfl hcore
  | @aliveChk k hlive hasleep =>
    exact hw.update (SameTables.rfl s) rfl (hw.counted k) (hw.groups k)
  | txBeacon =>
    rcases txBeaconHdl_cases hw with he | ⟨b, st, -, -, -, hcore, he⟩
    · rw [he]
      exact hw
    · rw [he]
      exact hw.updateCore (SameTables.rfl s) rfl hcore
  | hiQueue =>
    rcases rtwChkHiQueueHdl_cases hw _ with he | ⟨b, -, -, he⟩
    · rw [he]
      exact hw
    · rw [he]
      exact hw.tables (SameTables.rfl s) hw.counted hw.groups

/-- An authentication frame may do what every event may do. -/
theorem moves_true (h : Moves auth s s') : Moves true s s' := by
  refine Relation.ReflTransGen.mono (fun u v hm => ?_) _ _ h
  cases auth with
  | true => exact hm
  | false =>
    cases hm with
    | quiet h => exact Move.quiet h
    | note hop => exact Move.note hop
    | alloc h => exact Move.alloc h
    | free hlive hasoc => exact Move.free hlive hasoc
    | remove hasoc => exact Move.remove hasoc
    | authAdd hlive hauth hasoc => exact Move.authAdd hlive hauth hasoc
    | authDel hauth => exact Move.authDel hauth
    | reauth hauth hlive => exact Move.reauth rfl hlive
    | mark h1 h2 h3 => exact Move.mark h1 h2 h3
    | authDone hlive hclr => exact Move.authDone hlive hclr
    | class2 hauth => exact Move.class2 hauth
    | refuse hlive hreq => exact Move.refuse hlive hreq
    | accept hlive hreq hroom => exact Move.accept hlive hreq hroom
    | stop hlive => exact Move.stop hlive
    | buffer hlive hasleep => exact Move.buffer hlive hasleep
    | bufferGroup hbc => exact Move.bufferGroup hbc
    | setPending h => exact Move.setPending h
    | wakeup hlive h => exact Move.wakeup hlive h
    | wakeupGroup => exact Move.wakeupGroup
    | deliver hlive hasleep => exact Move.deliver hlive hasleep
    | psPoll hlive => exact Move.psPoll hlive
    | aliveChk hlive hasleep => exact Move.aliveChk hlive hasleep
    | txBeacon => exact Move.txBeacon
    | hiQueue => exact Move.hiQueue

theorem wellFormed_moves (hw : WellFormed s) (h : Moves auth s s') : WellFormed s' := by
  induction h with
  | refl => exact hw
  | tail _ hm ih => exact wellFormed_move ih hm

end Ap

end Rtl8188eu
