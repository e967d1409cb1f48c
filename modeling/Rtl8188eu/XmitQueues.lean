import Rtl8188eu.ApRun

/-!
# The transmit queues

A station has a `tx_servq` for each access category, with the frames on their way out in
`sta_pending` and their number in `qcnt`. The `tx_servq`s with frames are linked in the `sta_queue`
of their category, and `accnt` counts the frames of the category. `rtw_xmit_classifier` and
`rtw_dequeue_xframe` keep these lists and counters, and so do `stop_sta_xmit` and
`rtw_free_stainfo` for the frames of one station.

What the counters and the links should be is fixed by the frames (`XmitInv`). The functions keep
that up as long as `stop_sta_xmit` finds no frame that stays in its queue, and `rtw_free_stainfo`
no frame at all (`xmitQueues_run`).
-/

set_option linter.unusedSectionVars false

namespace Rtl8188eu

open Runs

/-- The transmit queues. -/
structure Xmit (ι : Type) where
  /-- The stations, with their frames in `pending` and `sleepQ`. -/
  ap : Ap ι
  qcnt : StaId → AcQueue → ℤ
  /-- The `sta_queue` of the category : the stations whose `tx_servq` is linked there. -/
  staQueue : AcQueue → List StaId
  accnt : AcQueue → ℤ

/-- What happens to the transmit queues. -/
inductive XmitEvent
  /-- `rtw_xmit_classifier`, for a frame to `ra` with the station of its attributes. -/
  | classify (psta : Option StaId) (ra : MacAddr) (priority : ℕ) (triggered : Bool)
  /-- `rtw_dequeue_xframe`, with the categories in the order of `inx`. -/
  | dequeue (inx : List AcQueue)
  /-- `stop_sta_xmit`. -/
  | stop (k : StaId)
  /-- `rtw_free_stainfo`. -/
  | free (k : StaId)

namespace Xmit

variable {ι : Type} [DecidableEq ι]

/-- The frames of a `tx_servq`. -/
def pending (s : Xmit ι) (k : StaId) (q : AcQueue) : List XmitFrame := (s.ap.sta k).pending q

/-- Change one counter of a station. -/
def updateQcnt (s : Xmit ι) (k : StaId) (q : AcQueue) (f : ℤ → ℤ) : Xmit ι :=
  { s with qcnt := Function.update s.qcnt k (Function.update (s.qcnt k) q (f (s.qcnt k q))) }

/-- Change the counter of one category. -/
def updateAccnt (s : Xmit ι) (q : AcQueue) (f : ℤ → ℤ) : Xmit ι :=
  { s with accnt := Function.update s.accnt q (f (s.accnt q)) }

/-- `list_del_init` on the `tx_pending` of a `tx_servq`. -/
def unlinkServq (s : Xmit ι) (k : StaId) (q : AcQueue) : Xmit ι :=
  { s with staQueue := Function.update s.staQueue q ((s.staQueue q).filter (· ≠ k)) }

/-- The `tx_pending` of a `tx_servq` is put to the end of the `sta_queue` if it is not linked. -/
def linkServq (s : Xmit ι) (k : StaId) (q : AcQueue) : Xmit ι :=
  if k ∈ s.staQueue q then s
  else { s with staQueue := Function.update s.staQueue q (s.staQueue q ++ [k]) }

/-- `rtw_xmit_classifier`. -/
def rtwXmitClassifier (s : Xmit ι) (psta : Option StaId) (ra : MacAddr) (priority : ℕ)
    (triggered : Bool) : Bool × Xmit ι :=
  match psta.or (s.ap.base.rtwGetStainfo ra) with
  | none => (false, s)
  | some k =>
    let f : XmitFrame := ⟨isMcast ra, priority, triggered⟩
    let q := rtwGetStaPending priority
    let s := s.linkServq k q
    let s := { s with ap := s.ap.setPending k q (s.pending k q ++ [f]) }
    (true, (s.updateQcnt k q (· + 1)).updateAccnt q (· + 1))

/-- The loop of `rtw_dequeue_xframe` over the `sta_queue` of a category : the first `tx_servq` with
a frame gives its first frame. -/
def dequeueServqs (s : Xmit ι) (q : AcQueue) : List StaId → Option (XmitFrame × Xmit ι)
  | [] => none
  | k :: ks =>
    match s.pending k q with
    | [] => dequeueServqs s q ks
    | f :: fs =>
      let s := { s with ap := s.ap.setPending k q fs }
      let s := (s.updateQcnt k q (· - 1)).updateAccnt q (· - 1)
      some (f, if fs = [] then s.unlinkServq k q else s)

/-- `rtw_dequeue_xframe`. -/
def rtwDequeueXframe (s : Xmit ι) : List AcQueue → Option XmitFrame × Xmit ι
  | [] => (none, s)
  | q :: qs =>
    match s.dequeueServqs q (s.staQueue q) with
    | some (f, s) => (some f, s)
    | none => rtwDequeueXframe s qs

/-- The counters in the loop of `dequeue_xmitframes_to_sleeping_queue`, for a frame of the
queue. -/
def countOff (k : StaId) (s : Xmit ι) (f : XmitFrame) : Xmit ι :=
  (s.updateQcnt k (rtwGetStaPending f.priority) (· - 1)).updateAccnt (rtwGetStaPending f.priority)
    (· - 1)

/-- `dequeue_xmitframes_to_sleeping_queue`, and the end of the link. The loop does not read the
counters, so they are changed apart from the frames. -/
def dequeueXmitframesToSleepingQueue (s : Xmit ι) (k : StaId) (q : AcQueue) : Xmit ι :=
  let s' := (s.pending k q).foldl (countOff k) s
  { s' with ap := s.ap.dequeueXmitframesToSleepingQueue k q }.unlinkServq k q

/-- `stop_sta_xmit`. -/
def stopStaXmit (s : Xmit ι) (k : StaId) : Option (Xmit ι) :=
  let s := { s with ap := s.ap.fallAsleep k }
  let s := s.dequeueXmitframesToSleepingQueue k .vo
  let s := s.dequeueXmitframesToSleepingQueue k .vi
  let s := s.dequeueXmitframesToSleepingQueue k .be
  let s := s.dequeueXmitframesToSleepingQueue k .bk
  s.ap.base.rtwGetBcmcStainfo.map fun bmc => s.dequeueXmitframesToSleepingQueue bmc .be

/-- `rtw_free_stainfo` : the frames are freed, and `_rtw_init_sta_xmit_priv` clears `qcnt`. -/
def rtwFreeStainfo (s : Xmit ι) (k : StaId) : Xmit ι :=
  let s := { s with ap := s.ap.rtwFreeStainfo k }
  let s := (((s.unlinkServq k .vo).unlinkServq k .vi).unlinkServq k .bk).unlinkServq k .be
  { s with qcnt := Function.update s.qcnt k fun _ => 0 }

/-- One event. -/
def xmitStep (s : Xmit ι) : XmitEvent → Option (Xmit ι)
  | .classify psta ra priority triggered => some (s.rtwXmitClassifier psta ra priority triggered).2
  | .dequeue inx => some (s.rtwDequeueXframe inx).2
  | .stop k => s.stopStaXmit k
  | .free k => some (s.rtwFreeStainfo k)

/-! ## The invariant -/

variable {s s' t : Xmit ι} {k j : StaId} {q : AcQueue}

/-- The counters and the links are those of the frames. -/
structure XmitInv (s : Xmit ι) : Prop where
  category : ∀ k q, ∀ f ∈ s.pending k q, rtwGetStaPending f.priority = q
  qcnt : ∀ k q, s.qcnt k q = (s.pending k q).length
  nodup : ∀ q, (s.staQueue q).Nodup
  linked : ∀ k q, k ∈ s.staQueue q ↔ s.pending k q ≠ []
  accnt : ∀ q, s.accnt q = ∑ k, ((s.pending k q).length : ℤ)

/-- The frames of one `tx_servq` change, and the counters and the link follow. -/
theorem XmitInv.change (h : XmitInv s) {l : List XmitFrame}
    (hp : s'.pending = Function.update s.pending k (Function.update (s.pending k) q l))
    (hcat : ∀ f ∈ l, rtwGetStaPending f.priority = q)
    (hqcnt : s'.qcnt = Function.update s.qcnt k (Function.update (s.qcnt k) q (l.length : ℤ)))
    (hqueue : ∀ q', q' ≠ q → s'.staQueue q' = s.staQueue q')
    (hnodup : (s'.staQueue q).Nodup)
    (hlink : ∀ j, j ∈ s'.staQueue q ↔ (j ≠ k ∧ j ∈ s.staQueue q) ∨ (j = k ∧ l ≠ []))
    (haccnt : s'.accnt = Function.update s.accnt q
      (s.accnt q - (s.pending k q).length + l.length)) : XmitInv s' := by
  have hother : ∀ j q', (j ≠ k ∨ q' ≠ q) → s'.pending j q' = s.pending j q' := by
    intro j q' hne
    rw [hp]
    rcases eq_or_ne j k with rfl | hj
    · rw [Function.update_self, Function.update_of_ne (hne.resolve_left (by simp))]
    · rw [Function.update_of_ne hj]
  have hself : s'.pending k q = l := by
    rw [hp, Function.update_self, Function.update_self]
  refine ⟨fun j q' => ?_, fun j q' => ?_, fun q' => ?_, fun j q' => ?_, fun q' => ?_⟩
  · by_cases hjq : j = k ∧ q' = q
    · obtain ⟨rfl, rfl⟩ := hjq
      rw [hself]
      exact hcat
    · rw [hother j q' (by tauto)]
      exact h.category j q'
  · rw [hqcnt]
    by_cases hjq : j = k ∧ q' = q
    · obtain ⟨rfl, rfl⟩ := hjq
      rw [hself, Function.update_self, Function.update_self]
    · rw [hother j q' (by tauto), ← h.qcnt j q']
      rcases eq_or_ne j k with rfl | hj
      · rw [Function.update_self, Function.update_of_ne (by tauto)]
      · rw [Function.update_of_ne hj]
  · rcases eq_or_ne q' q with rfl | hq
    · exact hnodup
    · rw [hqueue q' hq]
      exact h.nodup q'
  · rcases eq_or_ne q' q with rfl | hq
    · rw [hlink]
      rcases eq_or_ne j k with rfl | hj
      · rw [hself]
        simp
      · rw [hother j q' (Or.inl hj), ← h.linked j q']
        simp [hj]
    · rw [hqueue q' hq, hother j q' (Or.inr hq), h.linked j q']
  · rw [haccnt]
    rcases eq_or_ne q' q with rfl | hq
    · -- the sum changes in its entry for the station
      rw [Function.update_self, h.accnt q', ← Finset.add_sum_erase _ _ (Finset.mem_univ k),
        ← Finset.add_sum_erase _ (fun k => ((s'.pending k q').length : ℤ))
        (Finset.mem_univ k), hself]
      have hrest : ∀ x ∈ Finset.univ.erase k,
          ((s'.pending x q').length : ℤ) = ((s.pending x q').length : ℤ) := by
        intro x hx
        rw [hother x q' (Or.inl (Finset.ne_of_mem_erase hx))]
      rw [Finset.sum_congr rfl hrest]
      ring
    · rw [Function.update_of_ne hq, h.accnt q']
      refine Finset.sum_congr rfl fun x _ => ?_
      rw [hother x q' (Or.inr hq)]

theorem pending_setPending (s : Xmit ι) (k : StaId) (q : AcQueue) (l : List XmitFrame) :
    (fun j q' => ((s.ap.setPending k q l).sta j).pending q') =
      Function.update s.pending k (Function.update (s.pending k) q l) := by
  funext j q'
  rcases eq_or_ne j k with rfl | hj
  · simp only [Ap.setPending, Ap.updateSta, Function.update_self]
    rfl
  · simp [Ap.setPending, Ap.updateSta, pending, hj]

/-! ## Frames come and go -/

theorem linkServq_frame (s : Xmit ι) (k : StaId) (q : AcQueue) :
    (s.linkServq k q).ap = s.ap ∧ (s.linkServq k q).qcnt = s.qcnt ∧
      (s.linkServq k q).accnt = s.accnt ∧
      ∀ q', q' ≠ q → (s.linkServq k q).staQueue q' = s.staQueue q' := by
  unfold linkServq
  split
  · exact ⟨rfl, rfl, rfl, fun _ _ => rfl⟩
  · exact ⟨rfl, rfl, rfl, fun q' hq => Function.update_of_ne hq ..⟩

theorem linkServq_queue (h : XmitInv s) (k : StaId) (q : AcQueue) :
    ((s.linkServq k q).staQueue q).Nodup ∧
      ∀ j, j ∈ (s.linkServq k q).staQueue q ↔ (j ≠ k ∧ j ∈ s.staQueue q) ∨ j = k := by
  unfold linkServq
  split
  · rename_i hk
    refine ⟨h.nodup q, fun j => ?_⟩
    rcases eq_or_ne j k with rfl | hj
    · simpa using hk
    · simp [hj]
  · rename_i hk
    dsimp only
    rw [Function.update_self]
    refine ⟨(h.nodup q).append (List.nodup_singleton k) ?_, fun j => ?_⟩
    · simpa using hk
    · rcases eq_or_ne j k with rfl | hj
      · simp
      · simp [hj]

theorem xmitInv_classify (h : XmitInv s) (psta : Option StaId) (ra : MacAddr) (priority : ℕ)
    (triggered : Bool) : XmitInv (s.rtwXmitClassifier psta ra priority triggered).2 := by
  unfold rtwXmitClassifier
  split
  · exact h
  · rename_i k _
    extract_lets f q u v
    obtain ⟨hap, hqcnt, haccnt, hqueue⟩ := s.linkServq_frame k q
    obtain ⟨hnodup, hmem⟩ := linkServq_queue h k q
    have hl : u.pending k q ++ [f] = s.pending k q ++ [f] := by rw [pending, hap, pending]
    have hlen : ((s.pending k q ++ [f]).length : ℤ) = (s.pending k q).length + 1 := by simp
    refine h.change (k := k) (q := q) (l := s.pending k q ++ [f]) ?_ ?_ ?_ hqueue hnodup ?_ ?_
    · rw [← s.pending_setPending k q, ← hl]
      change (fun j q' => ((u.ap.setPending k q _).sta j).pending q') = _
      rw [show u.ap = s.ap from hap]
    · intro g hg
      rcases List.mem_append.mp hg with hg | hg
      · exact h.category k q g hg
      · obtain rfl := List.mem_singleton.mp hg
        rfl
    · change Function.update u.qcnt k (Function.update (u.qcnt k) q (u.qcnt k q + 1)) = _
      rw [show u.qcnt = s.qcnt from hqcnt, h.qcnt, hlen]
    · intro j
      refine (hmem j).trans ?_
      simp
    · change Function.update u.accnt q (u.accnt q + 1) = _
      rw [show u.accnt = s.accnt from haccnt, hlen]
      congr 1
      ring

/-- A frame leaves the front of a `tx_servq`. -/
theorem xmitInv_take (h : XmitInv s) {f : XmitFrame} {fs : List XmitFrame}
    (hk : s.pending k q = f :: fs) :
    XmitInv (if fs = [] then
      (({ s with ap := s.ap.setPending k q fs }.updateQcnt k q (· - 1)).updateAccnt q
        (· - 1)).unlinkServq k q
      else ({ s with ap := s.ap.setPending k q fs }.updateQcnt k q (· - 1)).updateAccnt q
      (· - 1)) := by
  have hcat : ∀ g ∈ fs, rtwGetStaPending g.priority = q := by
    intro g hg
    refine h.category k q g ?_
    rw [hk]
    exact List.mem_cons_of_mem f hg
  have hqcnt : s.qcnt k q - 1 = (fs.length : ℤ) := by
    rw [h.qcnt, hk]
    simp
  have haccnt : s.accnt q - 1 = s.accnt q - (s.pending k q).length + fs.length := by
    rw [hk]
    simp only [List.length_cons, Nat.cast_add, Nat.cast_one]
    ring
  have hkq : k ∈ s.staQueue q := (h.linked k q).mpr (by rw [hk]; simp)
  split
  · rename_i hfs
    refine h.change (k := k) (q := q) (l := fs) (s.pending_setPending k q fs) hcat ?_ ?_ ?_ ?_ ?_
    · rw [← hqcnt]
      rfl
    · exact fun q' hq => Function.update_of_ne hq ..
    · change (Function.update s.staQueue q _ q).Nodup
      rw [Function.update_self]
      exact (h.nodup q).filter _
    · intro j
      change j ∈ Function.update s.staQueue q ((s.staQueue q).filter (· ≠ k)) q ↔ _
      rw [Function.update_self]
      simp [hfs, and_comm]
    · rw [← haccnt]
      rfl
  · rename_i hfs
    refine h.change (k := k) (q := q) (l :=
      fs) (s.pending_setPending k q fs) hcat ?_ ?_ (h.nodup q) ?_ ?_
    · rw [← hqcnt]
      rfl
    · exact fun q' _ => rfl
    · intro j
      change j ∈ s.staQueue q ↔ _
      rcases eq_or_ne j k with rfl | hj
      · simpa [hfs] using hkq
      · simp [hj]
    · rw [← haccnt]
      rfl

theorem xmitInv_dequeueServqs (h : XmitInv s) : ∀ (ks : List StaId) {f : XmitFrame} {s' : Xmit ι},
    s.dequeueServqs q ks = some (f, s') → XmitInv s'
  | [], _, _, he => by simp [dequeueServqs] at he
  | k :: ks, f, s', he => by
    rw [dequeueServqs] at he
    split at he
    · exact xmitInv_dequeueServqs h ks he
    · rename_i g fs hk
      cases he
      exact xmitInv_take h hk

theorem xmitInv_dequeue (h : XmitInv s) : ∀ (inx : List AcQueue), XmitInv (s.rtwDequeueXframe inx).2
  | [] => h
  | q :: qs => by
    rw [rtwDequeueXframe]
    split
    · rename_i f s' he
      exact xmitInv_dequeueServqs h _ he
    · exact xmitInv_dequeue h qs

/-! ## Stations fall asleep -/

/-- Frames were put into the queues of sleeping stations, and that is all. -/
structure Slept (s s' : Ap ι) : Prop where
  base : s'.base = s.base
  asleep : ∀ j, (s'.sta j).asleep = (s.sta j).asleep
  aid : ∀ j, (s'.sta j).aid = (s.sta j).aid
  dz : ∃ m, s'.staDzBitmap = s.staDzBitmap ||| m

theorem Slept.refl (s : Ap ι) : Slept s s :=
  ⟨rfl, fun _ => rfl, fun _ => rfl, ⟨0, by simp⟩⟩

theorem Slept.trans {s t u : Ap ι} (h : Slept s t) (h' : Slept t u) : Slept s u := by
  obtain ⟨m, hm⟩ := h.dz
  obtain ⟨m', hm'⟩ := h'.dz
  refine ⟨h'.base.trans h.base, fun j => (h'.asleep j).trans (h.asleep j),
    fun j => (h'.aid j).trans (h.aid j), ⟨m ||| m', ?_⟩⟩
  rw [hm', hm, BitVec.or_assoc]

/-- The record of one station changes, in its queue for sleeping stations. -/
theorem slept_update {s s' : Ap ι} {st : ApSta} (hbase : s'.base = s.base)
    (hst : s'.sta = Function.update s.sta k st) (hstate : st.state = (s.sta k).state)
    (haid : st.aid = (s.sta k).aid) (hdz : ∃ m, s'.staDzBitmap = s.staDzBitmap ||| m) :
    Slept s s' := by
  refine ⟨hbase, fun j => ?_, fun j => ?_, hdz⟩
  · rw [hst]
    rcases eq_or_ne j k with rfl | hj
    · rw [Function.update_self, ApSta.asleep, hstate, ApSta.asleep]
    · rw [Function.update_of_ne hj]
  · rw [hst]
    rcases eq_or_ne j k with rfl | hj
    · rw [Function.update_self, haid]
    · rw [Function.update_of_ne hj]

theorem slept_enqueue (s : Ap ι) (k : StaId) (f : XmitFrame) :
    Slept s (s.xmitframeEnqueueForSleepingSta k f).2 ∧
      ∀ j, ((s.xmitframeEnqueueForSleepingSta k f).2.sta j).pending = (s.sta j).pending := by
  have hpend : ∀ (st : ApSta), st.pending = (s.sta k).pending →
      ∀ j, (Function.update s.sta k st j).pending = (s.sta j).pending := by
    intro st hst j
    rcases eq_or_ne j k with rfl | hj
    · rw [Function.update_self, hst]
    · rw [Function.update_of_ne hj]
  unfold Ap.xmitframeEnqueueForSleepingSta
  split
  · exact ⟨Slept.refl s, fun _ => rfl⟩
  split
  · exact ⟨Slept.refl s, fun _ => rfl⟩
  split
  · split
    · exact ⟨slept_update rfl rfl rfl rfl ⟨bit16 0, rfl⟩, hpend _ rfl⟩
    · exact ⟨Slept.refl s, fun _ => rfl⟩
  split
  · exact ⟨slept_update rfl rfl rfl rfl ⟨0, (BitVec.or_zero).symm⟩, hpend _ rfl⟩
  · exact ⟨Slept.refl s, fun _ => rfl⟩

theorem or_ne_zero {a m c : BitVec 16} (h : a &&& c ≠ 0) : (a ||| m) &&& c ≠ 0 := by
  intro h0
  refine h ?_
  ext i hi
  have hbit := congrArg (fun x : BitVec 16 => x[i]) h0
  simp only [BitVec.getElem_and, BitVec.getElem_or] at hbit ⊢
  cases ha : a[i] <;> simp_all

/-- A frame that leaves its queue leaves it also later. -/
theorem leaves_mono {s s' : Ap ι} (h : Slept s s') {f : XmitFrame}
    (hf : (s.xmitframeEnqueueForSleepingSta k f).1 = true) :
    (s'.xmitframeEnqueueForSleepingSta k f).1 = true := by
  obtain ⟨m, hm⟩ := h.dz
  unfold Ap.xmitframeEnqueueForSleepingSta at hf ⊢
  rw [h.base]
  split at hf
  · simp at hf
  rename_i hap
  rw [if_neg hap]
  split at hf
  · simp at hf
  rename_i htrig
  rw [if_neg htrig]
  split at hf
  · rename_i hb
    rw [if_pos hb]
    split at hf
    · rename_i hdz
      have hdz' : s'.staDzBitmap ≠ 0 := by
        rw [hm]
        intro h0
        exact hdz (BitVec.or_eq_zero_iff.mp h0).1
      rw [if_pos hdz']
    · simp at hf
  rename_i hb
  rw [if_neg hb]
  split at hf
  · rename_i hsleep
    rw [if_pos]
    rw [h.asleep, h.aid, hm]
    exact ⟨hsleep.1, or_ne_zero hsleep.2⟩
  · simp at hf

/-- All frames leave the queue. -/
theorem dequeueLoop_all (k : StaId) : ∀ (fs : List XmitFrame) (s : Ap ι),
    (∀ f ∈ fs, (s.xmitframeEnqueueForSleepingSta k f).1 = true) →
    (Ap.dequeueLoop k fs s).1 = [] ∧ Slept s (Ap.dequeueLoop k fs s).2 ∧
      ∀ j, ((Ap.dequeueLoop k fs s).2.sta j).pending = (s.sta j).pending
  | [], s, _ => ⟨rfl, Slept.refl s, fun _ => rfl⟩
  | f :: fs, s, hall => by
    have hf := hall f List.mem_cons_self
    obtain ⟨hslept, hpend⟩ := slept_enqueue s k f
    rcases he : s.xmitframeEnqueueForSleepingSta k f with ⟨kept, u⟩
    rw [he] at hf hslept hpend
    obtain rfl : kept = true := hf
    have hall' : ∀ g ∈ fs, (u.xmitframeEnqueueForSleepingSta k g).1 = true :=
      fun g hg => leaves_mono hslept (hall g (List.mem_cons_of_mem f hg))
    obtain ⟨hnil, hslept', hpend'⟩ := dequeueLoop_all k fs u hall'
    rw [Ap.dequeueLoop, he]
    exact ⟨hnil, hslept.trans hslept', fun j => (hpend' j).trans (hpend j)⟩

/-- The counters after the loop over frames of one category. -/
theorem countOff_foldl (k : StaId) (q : AcQueue) : ∀ (fs : List XmitFrame) (s : Xmit ι),
    (∀ f ∈ fs, rtwGetStaPending f.priority = q) →
    fs.foldl (countOff k) s = (s.updateQcnt k q (· - fs.length)).updateAccnt q (· - fs.length)
  | [], s, _ => by simp [updateQcnt, updateAccnt]
  | f :: fs, s, hcat => by
    have hf := hcat f List.mem_cons_self
    have hsub : ∀ x : ℤ, x - 1 - fs.length = x - (fs.length + 1) := fun x => by ring
    rw [List.foldl_cons, countOff_foldl k q fs _ fun g hg => hcat g (List.mem_cons_of_mem f hg)]
    simp only [countOff, hf, updateQcnt, updateAccnt, Function.update_self, Function.update_idem,
      List.length_cons, Nat.cast_add, Nat.cast_one, hsub]

/-- Every frame of the `tx_servq` would leave it. -/
def Leaving (s : Xmit ι) (j : StaId) (q : AcQueue) : Prop :=
  ∀ f ∈ s.pending j q, (s.ap.xmitframeEnqueueForSleepingSta j f).1 = true

/-- A `tx_servq` whose frames all leave is empty afterwards, and its counters are zero. -/
theorem xmitInv_sleep (h : XmitInv s) (hall : s.Leaving k q) :
    XmitInv (s.dequeueXmitframesToSleepingQueue k q) ∧
      Slept s.ap (s.dequeueXmitframesToSleepingQueue k q).ap ∧
      (s.dequeueXmitframesToSleepingQueue k q).pending =
        Function.update s.pending k (Function.update (s.pending k) q []) := by
  obtain ⟨hnil, hslept, hpend⟩ := dequeueLoop_all k (s.pending k q) s.ap hall
  have hap : (s.dequeueXmitframesToSleepingQueue k q).ap =
      s.ap.dequeueXmitframesToSleepingQueue k q := rfl
  have hloop : s.ap.dequeueXmitframesToSleepingQueue k q =
      (Ap.dequeueLoop k (s.pending k q) s.ap).2.setPending k q [] := by
    unfold Ap.dequeueXmitframesToSleepingQueue
    rcases hl : Ap.dequeueLoop k ((s.ap.sta k).pending q) s.ap with ⟨kept, u⟩
    have hl' : Ap.dequeueLoop k (s.pending k q) s.ap = (kept, u) := hl
    rw [hl'] at hnil ⊢
    obtain rfl : kept = [] := hnil
    rfl
  have hpending : (s.dequeueXmitframesToSleepingQueue k q).pending =
      Function.update s.pending k (Function.update (s.pending k) q []) := by
    funext j q'
    rw [pending, hap, hloop]
    set u := (Ap.dequeueLoop k (s.pending k q) s.ap).2
    rcases eq_or_ne j k with rfl | hj
    · rw [Function.update_self]
      simp only [Ap.setPending, Ap.updateSta, Function.update_self, hpend]
      rfl
    · rw [Function.update_of_ne hj]
      simp only [Ap.setPending, Ap.updateSta, Function.update_of_ne hj, hpend]
      rfl
  refine ⟨?_, ?_, hpending⟩
  · have hcount := countOff_foldl k q (s.pending k q) s (h.category k q)
    refine h.change hpending (by simp) ?_ ?_ ?_ ?_ ?_
    · simp only [dequeueXmitframesToSleepingQueue, unlinkServq, hcount, updateQcnt,
        updateAccnt, h.qcnt]
      simp
    · intro q' hq
      simp only [dequeueXmitframesToSleepingQueue, unlinkServq, hcount, updateQcnt, updateAccnt]
      rw [Function.update_of_ne hq]
    · simp only [dequeueXmitframesToSleepingQueue, unlinkServq, hcount, updateQcnt, updateAccnt,
        Function.update_self]
      exact (h.nodup q).filter _
    · intro j
      simp only [dequeueXmitframesToSleepingQueue, unlinkServq, hcount, updateQcnt, updateAccnt,
        Function.update_self]
      simp [and_comm]
    · simp only [dequeueXmitframesToSleepingQueue, unlinkServq, hcount, updateQcnt, updateAccnt]
      simp
  · rw [hap, hloop]
    exact hslept.trans (slept_update rfl rfl rfl rfl ⟨0, (BitVec.or_zero).symm⟩)

/-- What leaves the other queues still does. -/
theorem Leaving.sleep (h : XmitInv s) (hall : s.Leaving k q) {q' : AcQueue} (hj : s.Leaving j q') :
    (s.dequeueXmitframesToSleepingQueue k q).Leaving j q' := by
  obtain ⟨-, hslept, hpending⟩ := xmitInv_sleep h hall
  intro f hf
  refine leaves_mono hslept (hj f ?_)
  rw [hpending] at hf
  rcases eq_or_ne j k with rfl | hne
  · rw [Function.update_self] at hf
    rcases eq_or_ne q' q with rfl | hq
    · simp at hf
    · rwa [Function.update_of_ne hq] at hf
  · rwa [Function.update_of_ne hne] at hf

/-- The station falls asleep. -/
def fallAsleep (s : Xmit ι) (k : StaId) : Xmit ι := { s with ap := s.ap.fallAsleep k }

theorem xmitInv_fallAsleep (h : XmitInv s) (k : StaId) :
    XmitInv (s.fallAsleep k) ∧ (s.fallAsleep k).pending = s.pending := by
  have hp : (s.fallAsleep k).pending = s.pending := by
    funext j q
    rcases eq_or_ne j k with rfl | hj
    · simp [pending, fallAsleep, Ap.fallAsleep, Ap.updateSta, Ap.record]
    · simp [pending, fallAsleep, Ap.fallAsleep, Ap.updateSta, Ap.record, hj]
  refine ⟨⟨fun j q => ?_, fun j q => ?_, h.nodup, fun j q => ?_, fun q => ?_⟩, hp⟩
  · rw [hp]
    exact h.category j q
  · rw [hp]
    exact h.qcnt j q
  · rw [hp]
    exact h.linked j q
  · rw [hp]
    exact h.accnt q

theorem xmitInv_stop (h : XmitInv s) (hk : ∀ q, (s.fallAsleep k).Leaving k q)
    (hbc : ∀ bmc, s.ap.bcmc = some bmc → (s.fallAsleep k).Leaving bmc .be)
    (hs : s.stopStaXmit k = some s') : XmitInv s' := by
  unfold stopStaXmit at hs
  extract_lets u₀ u₁ u₂ u₃ u₄ at hs
  obtain ⟨bmc, hbmc, rfl⟩ := Option.map_eq_some_iff.mp hs
  have h₀ : XmitInv u₀ := (xmitInv_fallAsleep h k).1
  have h₁ := xmitInv_sleep h₀ (hk .vo)
  have hk₁ : ∀ q, u₁.Leaving k q := fun q => Leaving.sleep h₀ (hk .vo) (hk q)
  have h₂ := xmitInv_sleep h₁.1 (hk₁ .vi)
  have hk₂ : ∀ q, u₂.Leaving k q := fun q => Leaving.sleep h₁.1 (hk₁ .vi) (hk₁ q)
  have h₃ := xmitInv_sleep h₂.1 (hk₂ .be)
  have hk₃ : ∀ q, u₃.Leaving k q := fun q => Leaving.sleep h₂.1 (hk₂ .be) (hk₂ q)
  have h₄ := xmitInv_sleep h₃.1 (hk₃ .bk)
  have hbase : u₄.ap.base = s.ap.base := by
    rw [h₄.2.1.base, h₃.2.1.base, h₂.2.1.base, h₁.2.1.base]
    rfl
  have hb₀ : u₀.Leaving bmc .be := by
    refine hbc bmc ?_
    rw [Ap.bcmc, ← hbase]
    exact hbmc
  have hb₁ := Leaving.sleep h₀ (hk .vo) hb₀
  have hb₂ := Leaving.sleep h₁.1 (hk₁ .vi) hb₁
  have hb₃ := Leaving.sleep h₂.1 (hk₂ .be) hb₂
  have hb₄ := Leaving.sleep h₃.1 (hk₃ .bk) hb₃
  exact (xmitInv_sleep h₄.1 hb₄).1

/-! ## Stations are freed -/

theorem staQueue_free (s : Xmit ι) (k : StaId) (q : AcQueue) :
    (s.rtwFreeStainfo k).staQueue q = (s.staQueue q).filter (· ≠ k) := by
  cases q <;> simp [rtwFreeStainfo, unlinkServq]

/-- A station without frames is freed. -/
theorem xmitInv_free (h : XmitInv s) (hk : ∀ q, s.pending k q = []) :
    XmitInv (s.rtwFreeStainfo k) := by
  obtain ⟨n, hsta⟩ := s.ap.sta_free k
  have hp : (s.rtwFreeStainfo k).pending = s.pending := by
    funext j q
    change (((s.ap.rtwFreeStainfo k).sta j).pending q) = _
    rw [hsta]
    rcases eq_or_ne j k with rfl | hj
    · rw [Function.update_self, hk]
      rfl
    · rw [Function.update_of_ne hj]
      rfl
  have hqueue : ∀ q, (s.rtwFreeStainfo k).staQueue q = s.staQueue q := by
    intro q
    rw [staQueue_free, List.filter_eq_self]
    intro j hj
    have hne : j ≠ k := by
      rintro rfl
      exact (h.linked j q).mp hj (hk q)
    simpa using hne
  refine ⟨fun j q => ?_, fun j q => ?_, fun q => ?_, fun j q => ?_, fun q => ?_⟩
  · rw [hp]
    exact h.category j q
  · rw [hp]
    change Function.update s.qcnt k (fun _ => 0) j q = _
    rcases eq_or_ne j k with rfl | hj
    · rw [Function.update_self, hk, List.length_nil, Nat.cast_zero]
    · rw [Function.update_of_ne hj, h.qcnt]
  · rw [hqueue]
    exact h.nodup q
  · rw [hqueue, hp]
    exact h.linked j q
  · rw [hp]
    exact h.accnt q

/-! ## Runs -/

/-- The frame of the station `j` leaves its queue when the station `k` falls asleep. The driver is
an access point, the frame is not triggered, and the bitmap has a bit set for a group frame, or the
bit of the station for another one. There are no bits for ids from 16 on. -/
def Leaves (s : Ap ι) (k j : StaId) (f : XmitFrame) : Prop :=
  checkFwstate s.base.mlmepriv.fwState wifiApState = true ∧ f.triggered = false ∧
    if f.bmcst then s.staDzBitmap ||| bit16 (s.sta k).aid ≠ 0
    else (j = k ∨ (s.sta j).asleep = true) ∧
      (s.staDzBitmap ||| bit16 (s.sta k).aid) &&& bit16 (s.sta j).aid ≠ 0

instance (s : Ap ι) (k j : StaId) (f : XmitFrame) : Decidable (Leaves s k j f) :=
  inferInstanceAs (Decidable (_ ∧ _ ∧ _))

theorem Leaves.enqueued {s : Ap ι} {f : XmitFrame} (h : Leaves s k j f) :
    ((s.fallAsleep k).xmitframeEnqueueForSleepingSta j f).1 = true := by
  obtain ⟨hap, htrig, hbit⟩ := h
  have haid : ((s.fallAsleep k).sta j).aid = (s.sta j).aid := by
    rcases eq_or_ne j k with rfl | hj
    · simp [Ap.fallAsleep, Ap.updateSta, Ap.record]
    · simp [Ap.fallAsleep, Ap.updateSta, Ap.record, hj]
  have hap' : ¬ ¬ checkFwstate (s.fallAsleep k).base.mlmepriv.fwState wifiApState = true :=
    not_not.mpr hap
  unfold Ap.xmitframeEnqueueForSleepingSta
  rw [if_neg hap', if_neg (by simp [htrig])]
  split
  · rename_i hb
    rw [if_pos hb] at hbit
    rw [if_pos (show (s.fallAsleep k).staDzBitmap ≠ 0 from hbit)]
  · rename_i hb
    rw [if_neg hb] at hbit
    have hasleep : ((s.fallAsleep k).sta j).asleep = true := by
      rcases eq_or_ne j k with rfl | hj
      · simp [Ap.fallAsleep, Ap.updateSta, ApSta.asleep_eq, wifiSleepState]
      · rw [show (s.fallAsleep k).sta j = s.sta j from Function.update_of_ne hj ..]
        exact hbit.1.resolve_left hj
    rw [if_pos ⟨hasleep, by rw [haid]; exact hbit.2⟩]

/-- `stop_sta_xmit` finds only frames that leave their queues, and `rtw_free_stainfo` finds no
frame. -/
def XmitSafe (s : Xmit ι) : XmitEvent → Prop
  | .stop k => (∀ q, ∀ f ∈ s.pending k q, Leaves s.ap k k f) ∧
    ∀ bmc, s.ap.bcmc = some bmc → ∀ f ∈ s.pending bmc .be, Leaves s.ap k bmc f
  | .free k => ∀ q, s.pending k q = []
  | _ => True

theorem xmitInv_step {e : XmitEvent} (h : XmitInv s) (hsafe : s.XmitSafe e)
    (hstep : s.xmitStep e = some t) : XmitInv t := by
  cases e with
  | classify psta ra priority triggered =>
    obtain rfl := Option.some.inj hstep
    exact xmitInv_classify h psta ra priority triggered
  | dequeue inx =>
    obtain rfl := Option.some.inj hstep
    exact xmitInv_dequeue h inx
  | stop k =>
    have hp := (xmitInv_fallAsleep h k).2
    refine xmitInv_stop h (fun q f hf => ?_) (fun bmc hbmc f hf => ?_) hstep
    · rw [hp] at hf
      exact (hsafe.1 q f hf).enqueued
    · rw [hp] at hf
      exact (hsafe.2 bmc hbmc f hf).enqueued
  | free k =>
    obtain rfl := Option.some.inj hstep
    exact xmitInv_free h hsafe

/-- The books of the transmit queues are right. -/
structure XmitOk (s : Xmit ι) : Prop where
  qcnt : ∀ k q, s.qcnt k q = (s.pending k q).length
  once : ∀ k q, 0 < s.qcnt k q → (s.staQueue q).count k = 1
  notAtAll : ∀ k q, s.qcnt k q = 0 → k ∉ s.staQueue q
  accnt : ∀ q, s.accnt q = ((s.staQueue q).map fun k => s.qcnt k q).sum

theorem XmitInv.ok (h : XmitInv s) : XmitOk s := by
  refine ⟨h.qcnt, fun k q hpos => ?_, fun k q hzero => ?_, fun q => ?_⟩
  · refine List.count_eq_one_of_mem (h.nodup q) ((h.linked k q).mpr ?_)
    rw [h.qcnt] at hpos
    intro hnil
    simp [hnil] at hpos
  · rw [h.linked]
    rw [h.qcnt] at hzero
    simpa using hzero
  · rw [h.accnt, ← List.sum_toFinset _ (h.nodup q)]
    simp only [h.qcnt]
    -- a station that is not linked has no frames
    refine (Finset.sum_subset (Finset.subset_univ _) fun k _ hk => ?_).symm
    have hnil : s.pending k q = [] := by
      by_contra hne
      exact hk (List.mem_toFinset.mpr ((h.linked k q).mpr hne))
    rw [hnil, List.length_nil, Nat.cast_zero]

/-- No frame is on its way out. -/
structure Idle (s : Xmit ι) : Prop where
  pending : ∀ k q, s.pending k q = []
  qcnt : ∀ k q, s.qcnt k q = 0
  staQueue : ∀ q, s.staQueue q = []
  accnt : ∀ q, s.accnt q = 0

theorem Idle.xmitInv (h : Idle s) : XmitInv s := by
  refine ⟨fun k q f hf => ?_, fun k q => ?_, fun q => ?_, fun k q => ?_, fun q => ?_⟩
  · rw [h.pending] at hf
    exact absurd hf List.not_mem_nil
  · rw [h.qcnt, h.pending, List.length_nil, Nat.cast_zero]
  · rw [h.staQueue]
    exact List.nodup_nil
  · simp [h.staQueue, h.pending]
  · simp [h.accnt, h.pending]

/-- The books of the transmit queues are right after every run in which `stop_sta_xmit` finds only
frames that leave their queues, and `rtw_free_stainfo` only stations without frames. -/
theorem xmitQueues_run {es : List XmitEvent} (hs : Idle s) (hsafe : AlongM xmitStep XmitSafe s es)
    (hrun : runM xmitStep s es = some t) : XmitOk t :=
  (invariant_alongM (fun _ _ _ => xmitInv_step) hs.xmitInv hsafe hrun).ok

instance : Fintype AcQueue where
  elems := {.vo, .vi, .be, .bk}
  complete q := by cases q <;> simp

instance (s : Xmit ι) : ∀ e : XmitEvent, Decidable (s.XmitSafe e)
  | .classify .. | .dequeue _ => inferInstanceAs (Decidable True)
  | .stop _ => inferInstanceAs (Decidable (_ ∧ _))
  | .free k => inferInstanceAs (Decidable (∀ q, s.pending k q = []))

/-- A station is associated, and no frame is on its way. -/
def sampleXmit : Xmit RecvId where
  ap := (sampleAp.onAuth true (sampleAuth Adapter.sampleTa)).onAssocReq (sampleAssocReq Adapter.sampleTa true)
  qcnt := fun _ _ => 0
  staQueue := fun _ => []
  accnt := fun _ => 0

theorem idle_sampleXmit : Idle sampleXmit :=
  ⟨by decide +kernel, fun _ _ => rfl, fun _ => rfl, fun _ => rfl⟩

theorem xmitQueues_sampleXmit :
    ∃ t, runM xmitStep sampleXmit [.classify (some 1) Adapter.sampleTa 0 false, .stop 1, .free 1]
      = some t ∧ XmitOk t := by
  have h := @xmitQueues_run RecvId _ sampleXmit _
    [.classify (some 1) Adapter.sampleTa 0 false, .stop 1, .free 1] idle_sampleXmit
      (by decide +kernel)
    rfl
  exact ⟨_, rfl, h⟩

/-- A triggered frame stays in its queue when its station falls asleep, where it is not counted any
more. A frame of a station that is freed is still counted in its category. -/
theorem not_xmitQueues_sample :
    ¬ (∀ (es : List XmitEvent) (t : Xmit RecvId), runM xmitStep sampleXmit es = some t → XmitOk t) ∧
    ((runM xmitStep sampleXmit [.classify (some 1) Adapter.sampleTa 0 true, .stop 1]).any
      fun t => (t.pending 1 .be).length == 1 && t.qcnt 1 .be == 0) = true ∧
    ((runM xmitStep sampleXmit [.classify (some 1) Adapter.sampleTa 0 false, .free 1]).any
      fun t => (t.staQueue .be).isEmpty && t.accnt .be == 1) = true := by
  have hfree : ((runM xmitStep sampleXmit
    [.classify (some 1) Adapter.sampleTa 0 false, .free 1]).any
      fun t => (t.staQueue .be).isEmpty && t.accnt .be == 1) = true := by
    decide +kernel
  refine ⟨fun hall => ?_, by decide +kernel, hfree⟩
  obtain ⟨t, ht, hwrong⟩ := Option.any_eq_true _ _ |>.mp hfree
  have haccnt := (hall _ t ht).accnt .be
  simp only [Bool.and_eq_true, List.isEmpty_iff, beq_iff_eq] at hwrong
  rw [hwrong.1, hwrong.2, List.map_nil, List.sum_nil] at haccnt
  exact absurd haccnt (by decide)

end Xmit

end Rtl8188eu
