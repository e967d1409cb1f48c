import Rtl8188eu.ApCounters

/-!
# The beacon after the expiry of stations

`ap_free_sta` says whether the removal of a station has changed the beacon, and
`expire_timeout_chk`, which may remove many stations, keeps what the last one said. The first loop
removes stations at once, or it collects the ones that a null frame has to ask, and then the second
loop removes them.

The counters of the BSS decide what is said : the station that brings one of them to zero is the
one whose removal changes the beacon. So nothing is lost exactly if no counter comes to zero, or
if the last station that expires brings one to zero (`refresh_iff`).
-/

set_option linter.unusedSectionVars false

namespace Rtl8188eu

open Runs

namespace Ap

variable {ι : Type} [DecidableEq ι]

/-! ## The functions of the source -/

/-- `beacon_updated`, which `bss_cap_update_on_sta_leave` returns. -/
def bssCapUpdated (s : Ap ι) (k : StaId) : Bool :=
  let st := s.sta k
  let b := s.bss
  let bg : Bool := wireless11B < b.curWirelessMode
  ((lowerFlag st.noShortPreambleSet b.numStaNoShortPreamble).2.2 && bg) ||
    (lowerFlag st.nonerpSet b.numStaNonErp).2.2 ||
    ((lowerFlag st.noShortSlotTimeSet b.numStaNoShortSlotTime).2.2 && bg)

/-- `ap_free_sta` with what it returns. -/
def apFreeStaRet (s : Ap ι) (k : StaId) : Bool × Ap ι :=
  ((s.updateSta k fun st => { st with state := st.state &&& ~~~fwLinkedBits }).bssCapUpdated k, s.apFreeSta k)

/-- `associated_clients_update` : the stations for which it calls `VCS_update`. -/
def associatedClientsUpdate (s : Ap ι) (updated : Bool) : List StaId := if updated then s.asocList else []

end Ap

open Ap

/-- The state of `expire_timeout_chk`, with what `ap_free_sta` has returned so far. -/
structure Expiry (ι : Type) where
  ap : Ap ι
  updated : Bool
  reports : List Bool

namespace Expiry

variable {ι : Type} [DecidableEq ι]

/-- An associated station is removed. -/
def expireFree (t : Expiry ι) (k : StaId) : Expiry ι :=
  let (r, s) := (t.ap.asocUnlink k).apFreeStaRet k
  { ap := s, updated := r, reports := t.reports ++ [r] }

/-- The time of an associated station is over. -/
def expireDue (t : Expiry ι) (k : StaId) : Option StaId × Expiry ι :=
  let st := t.ap.sta k
  if t.ap.wifiSpec then
    (none, { t with ap := t.ap.updateSta k fun st => { st with expireTo := t.ap.expireTo } })
  else
    let chk := st.asleep && !hasBits st.state wifiStaAliveChkState
    let t := if chk then { t with ap := t.ap.aliveChk k } else t
    if t.ap.activeKeepAliveCheck then (some k, t)
    else if chk then (none, t)
    else (none, t.expireFree k)

/-- The loop over `asoc_list`, for one station. -/
def expireAsoc (t : Expiry ι) (env : TickEnv) (k : StaId) : Option StaId × Expiry ι :=
  let t := { t with ap := t.ap.countDown env k }
  if (t.ap.sta k).expireTo = 0 then t.expireDue k
  else
    let share := nrXmitframe / t.ap.asocListCnt
    if share < (t.ap.sta k).sleepqLen ∧ env.freeXmitframeCnt < share / 2 then
      (none, { t with ap := t.ap.wakeupStaToXmit k })
    else (none, t)

/-- The loop over `asoc_list` : the stations to ask, and the state. -/
def expireAsocLoop (env : TickEnv) : List StaId → Expiry ι → List StaId × Expiry ι
  | [], t => ([], t)
  | k :: ks, t =>
    let (chk, t) := t.expireAsoc env k
    let (chks, t) := expireAsocLoop env ks t
    (chk.toList ++ chks, t)

/-- The loop over the stations to ask. -/
def expireAsk (env : TickEnv) (t : Expiry ι) (k : StaId) : Expiry ι :=
  let n := (t.ap.sta k).keepAliveTrycnt + 1
  if env.acked k then
    { t with ap := t.ap.updateSta k fun st => { st with expireTo := t.ap.expireTo, keepAliveTrycnt := 0 } }
  else if n ≤ 3 then
    { t with ap := t.ap.updateSta k fun st => { st with expireTo := 1, keepAliveTrycnt := n } }
  else { t with ap := t.ap.updateSta k fun st => { st with keepAliveTrycnt := 0 } }.expireFree k

/-- `expire_timeout_chk` : the state, and the stations for which `VCS_update` is called. -/
def expireTimeoutChk (s : Ap ι) (env : TickEnv) : Expiry ι × List StaId :=
  let t : Expiry ι := { ap := s.authList.foldl expireAuth s, updated := false, reports := [] }
  let (chks, t) := expireAsocLoop env t.ap.asocList t
  let t := chks.foldl (expireAsk env) t
  (t, t.ap.associatedClientsUpdate t.updated)

/-! ## The state of the access point -/

end Expiry

/-! ## What the counters say -/

/-- The beacon depends on the counter. -/
def shown (mode : ℕ) : Protection → Bool
  | .nonErp => true
  | .noShortPreamble | .noShortSlotTime => wireless11B < mode
  | .noHt | .htNoGf | .ht20mhz => false

/-- The removal of a station with these flags brings a counter to zero. -/
def reported (mode : ℕ) (flag : Protection → Bool) (num : Protection → ℤ) : Bool :=
  [Protection.noShortPreamble, .nonErp, .noShortSlotTime].any fun q =>
    shown mode q && flag q && decide (num q = 1)

/-- What is reported for stations that are removed one after another. -/
def leaveReports (mode : ℕ) (flag : StaId → Protection → Bool) : List StaId → (Protection → ℤ) → List Bool
  | [], _ => []
  | k :: ks, num => reported mode (flag k) num :: leaveReports mode flag ks fun q => num q - (flag k q).toInt

/-- How many of the stations a counter counts. -/
def counting (flag : StaId → Protection → Bool) (ks : List StaId) (q : Protection) : ℤ := ks.countP (flag · q)

section Reports

variable {mode : ℕ} {flag flag' : StaId → Protection → Bool} {num : Protection → ℤ} {q : Protection}

theorem reported_iff {fl : Protection → Bool} :
    reported mode fl num = true ↔ ∃ q, shown mode q = true ∧ fl q = true ∧ num q = 1 := by
  rw [reported, List.any_eq_true]
  constructor
  · rintro ⟨q, -, h⟩
    rw [Bool.and_eq_true, Bool.and_eq_true, decide_eq_true_iff] at h
    exact ⟨q, h.1.1, h.1.2, h.2⟩
  · rintro ⟨q, hshown, hfl, hnum⟩
    refine ⟨q, ?_, by simp [hshown, hfl, hnum]⟩
    cases q with
    | noHt | htNoGf | ht20mhz => simp [shown] at hshown
    | noShortPreamble | nonErp | noShortSlotTime => simp

theorem counting_cons (flag : StaId → Protection → Bool) (k : StaId) (ks : List StaId)
    (q : Protection) :
    counting flag (k :: ks) q = (flag k q).toInt + counting flag ks q := by
  unfold counting
  rw [List.countP_cons, Nat.cast_add, add_comm]
  cases flag k q <;> simp

theorem counting_append (flag : StaId → Protection → Bool) (ks js : List StaId) (q : Protection) :
    counting flag (ks ++ js) q = counting flag ks q + counting flag js q := by
  unfold counting
  rw [List.countP_append, Nat.cast_add]

theorem counting_congr {ks : List StaId} (h : ∀ k ∈ ks, flag' k = flag k) (q : Protection) :
    counting flag' ks q = counting flag ks q := by
  unfold counting
  rw [List.countP_congr fun k hk => by rw [h k hk]]

theorem leaveReports_append : ∀ (ks js : List StaId) (num : Protection → ℤ),
    leaveReports mode flag (ks ++ js) num =
      leaveReports mode flag ks num ++ leaveReports mode flag js fun q => num q - counting flag ks q
  | [], js, num => by simp [leaveReports, counting]
  | k :: ks, js, num => by
    rw [List.cons_append, leaveReports, leaveReports_append, leaveReports, List.cons_append]
    congr 3
    funext q
    rw [counting_cons]
    ring

theorem leaveReports_congr : ∀ {ks : List StaId}, (∀ k ∈ ks, flag' k = flag k) →
    ∀ num : Protection → ℤ,
    leaveReports mode flag' ks num = leaveReports mode flag ks num
  | [], _, _ => rfl
  | k :: ks, h, num => by
    obtain ⟨hk, hks⟩ := List.forall_mem_cons.mp h
    rw [leaveReports, leaveReports, hk, leaveReports_congr hks]

/-- Something is reported if a counter comes to zero. -/
theorem mem_leaveReports :
    ∀ {ks : List StaId} {num : Protection → ℤ}, true ∈ leaveReports mode flag ks num ↔
    ∃ q, shown mode q = true ∧ 1 ≤ num q ∧ num q ≤ counting flag ks q
  | [], num => by
    refine iff_of_false List.not_mem_nil ?_
    rintro ⟨q, -, hpos, hle⟩
    simp only [counting, List.countP_nil, Nat.cast_zero] at hle
    omega
  | k :: ks, num => by
    have hcount := counting_cons flag k ks
    have hnonneg (q : Protection) : 0 ≤ counting flag ks q := Nat.cast_nonneg _
    rw [leaveReports, List.mem_cons, eq_comm, reported_iff, mem_leaveReports, ← exists_or]
    refine exists_congr fun q => ?_
    rw [← and_or_left]
    refine and_congr_right fun _ => ?_
    have hq := hcount q
    have hpos := hnonneg q
    cases hflag : flag k q with
    | false =>
      rw [hflag, Bool.toInt_false] at hq
      rw [Bool.toInt_false, sub_zero, hq, zero_add]
      exact or_iff_right fun h => absurd h.1 Bool.false_ne_true
    | true =>
      rw [hflag, Bool.toInt_true] at hq
      rw [Bool.toInt_true, hq]
      constructor
      · rintro (⟨-, h⟩ | ⟨hlt, hle⟩)
        · exact ⟨by omega, by omega⟩
        · exact ⟨by omega, by omega⟩
      · rintro ⟨hlt, hle⟩
        rcases eq_or_ne (num q) 1 with h | h
        · exact Or.inl ⟨rfl, h⟩
        · exact Or.inr ⟨by omega, by omega⟩

/-- The last station reports if it brings a counter to zero. -/
theorem getLast_leaveReports {ks : List StaId} {k : StaId} :
    (leaveReports mode flag (ks ++ [k]) num).getLast? =
    some (reported mode (flag k) fun q => num q - counting flag ks q) := by
  rw [leaveReports_append, leaveReports, leaveReports, List.getLast?_append,
    List.getLast?_singleton, Option.some_or]

end Reports

/-! ## What a tick does to the stations -/

/-- What decides about the expiry of a station. -/
def ApSta.timing (st : ApSta) : ℕ × BitVec 32 × ℕ := (st.expireTo, st.state, st.keepAliveTrycnt)

/-- Nothing that decides about an expiry happens, but to the stations `ks`. -/
structure Kept {ι : Type} (ks : List StaId) (s s' : Ap ι) : Prop where
  wifiSpec : s'.wifiSpec = s.wifiSpec
  activeKeepAliveCheck : s'.activeKeepAliveCheck = s.activeKeepAliveCheck
  expireTo : s'.expireTo = s.expireTo
  timing : ∀ j ∉ ks, (s'.sta j).timing = (s.sta j).timing

/-- The stations `rs` are removed, and the flag and the reports are what their counters say. -/
structure Ran {ι : Type} (rs : List StaId) (t t' : Expiry ι) : Prop where
  mode : t'.ap.bss.curWirelessMode = t.ap.bss.curWirelessMode
  flag : ∀ j ∉ rs, (t'.ap.sta j).flag = (t.ap.sta j).flag
  num : ∀ q, t'.ap.bss.num q = t.ap.bss.num q - counting (fun k => (t.ap.sta k).flag) rs q
  reports : t'.reports =
    t.reports ++ leaveReports t.ap.bss.curWirelessMode (fun k => (t.ap.sta k).flag) rs t.ap.bss.num
  updated : t.updated = t.reports.getLast?.getD false → t'.updated = t'.reports.getLast?.getD false

namespace Expiry

variable {ι : Type} [DecidableEq ι] {s s' s'' : Ap ι} {t t' t'' : Expiry ι} {k : StaId}
  {ks js rs : List StaId}
  {env : TickEnv}

theorem kept_refl (s : Ap ι) : Kept ks s s := ⟨rfl, rfl, rfl, fun _ _ => rfl⟩

theorem kept_trans (h : Kept ks s s') (h' : Kept js s' s'') : Kept (ks ++ js) s s'' where
  wifiSpec := h'.wifiSpec.trans h.wifiSpec
  activeKeepAliveCheck := h'.activeKeepAliveCheck.trans h.activeKeepAliveCheck
  expireTo := h'.expireTo.trans h.expireTo
  timing j hj := by
    rw [List.mem_append, not_or] at hj
    exact (h'.timing j hj.2).trans (h.timing j hj.1)

/-- Two changes of the same station. -/
theorem kept_trans_self (h : Kept [k] s s') (h' : Kept [k] s' s'') : Kept [k] s s'' := by
  have hboth := kept_trans h h'
  refine ⟨hboth.wifiSpec, hboth.activeKeepAliveCheck, hboth.expireTo, fun j hj => hboth.timing j ?_⟩
  simpa using hj

theorem sta_updateSta_self (s : Ap ι) (k : StaId) (f : ApSta → ApSta) :
    (s.updateSta k f).sta k = f (s.sta k) :=
  Function.update_self ..

theorem sta_updateSta_of_ne {j : StaId} (hj : j ≠ k) (f : ApSta → ApSta) :
    (s.updateSta k f).sta j = s.sta j :=
  Function.update_of_ne hj ..

theorem kept_updateSta (s : Ap ι) (k : StaId) (f : ApSta → ApSta) :
    Kept [k] s (s.updateSta k f) where
  wifiSpec := rfl
  activeKeepAliveCheck := rfl
  expireTo := rfl
  timing j hj := by
    rw [List.mem_singleton] at hj
    rw [sta_updateSta_of_ne hj]

theorem ran_of_same (hmode : t'.ap.bss = t.ap.bss)
    (hflag : ∀ j, (t'.ap.sta j).flag = (t.ap.sta j).flag)
    (hupdated : t'.updated = t.updated) (hreports : t'.reports = t.reports) : Ran [] t t' where
  mode := by rw [hmode]
  flag j _ := hflag j
  num q := by simp [hmode, counting]
  reports := by simp [hreports, leaveReports]
  updated h := by rw [hupdated, hreports, h]

theorem ran_trans (h : Ran ks t t') (h' : Ran js t' t'') (hdisj : ∀ j ∈ js, j ∉ ks) :
    Ran (ks ++ js) t t'' := by
  have hflags (j : StaId) (hj : j ∈ js) : (t'.ap.sta j).flag = (t.ap.sta j).flag :=
    h.flag j (hdisj j hj)
  refine ⟨h'.mode.trans h.mode,
    fun j hj => ?_, fun q => ?_, ?_, fun hlast => h'.updated (h.updated hlast)⟩
  · rw [List.mem_append, not_or] at hj
    exact (h'.flag j hj.2).trans (h.flag j hj.1)
  · rw [h'.num, h.num, counting_append, counting_congr hflags]
    ring
  · rw [h'.reports, h.reports, h.mode, leaveReports_append, leaveReports_congr hflags,
      List.append_assoc]
    congr 3
    funext q
    exact h.num q

theorem flag_eq_of_flags {st st' : ApSta} (h : st'.flags = st.flags) : st'.flag = st.flag :=
  funext fun q => ApSta.flag_congr h q

/-- A station whose counting does not change. -/
theorem flag_updateSta {f : ApSta → ApSta} (h : (f (s.sta k)).flags = (s.sta k).flags) (j : StaId) :
    ((s.updateSta k f).sta j).flag = (s.sta j).flag := by
  rcases eq_or_ne j k with rfl | hj
  · rw [sta_updateSta_self, flag_eq_of_flags h]
  · rw [sta_updateSta_of_ne hj]

/-! ## A removal -/

theorem mode_htRefresh (htOption : Bool) (b : BssCap) :
    (htRefresh htOption b).curWirelessMode = b.curWirelessMode := by
  have hupd : (rtwHtOperationUpdate htOption b).2.curWirelessMode = b.curWirelessMode := by
    unfold rtwHtOperationUpdate
    split
    · rfl
    · dsimp only
      split <;> rfl
  unfold htRefresh
  dsimp only
  split
  · exact hupd
  · exact hupd

theorem bssCapUpdated_eq (s : Ap ι) (k : StaId) :
    s.bssCapUpdated k = reported s.bss.curWirelessMode (s.sta k).flag s.bss.num := by
  have hlower (flag : Bool) (n : ℤ) : (lowerFlag flag n).2.2 = true ↔ flag = true ∧ n = 1 := by
    cases flag with
    | false => exact iff_of_false Bool.false_ne_true fun h => Bool.false_ne_true h.1
    | true =>
      change decide (n - 1 = 0) = true ↔ _
      rw [decide_eq_true_iff, and_iff_right rfl, sub_eq_zero]
  rw [Bool.eq_iff_iff, reported_iff]
  unfold bssCapUpdated
  simp only [Bool.or_eq_true, Bool.and_eq_true, hlower, decide_eq_true_iff]
  constructor
  · rintro ((⟨⟨hflag, hnum⟩, hmode⟩ | ⟨hflag, hnum⟩) | ⟨⟨hflag, hnum⟩, hmode⟩)
    · exact ⟨.noShortPreamble, decide_eq_true hmode, hflag, hnum⟩
    · exact ⟨.nonErp, rfl, hflag, hnum⟩
    · exact ⟨.noShortSlotTime, decide_eq_true hmode, hflag, hnum⟩
  · rintro ⟨q, hshown, hflag, hnum⟩
    cases q with
    | noShortPreamble => exact Or.inl (Or.inl ⟨⟨hflag, hnum⟩, of_decide_eq_true hshown⟩)
    | nonErp => exact Or.inl (Or.inr ⟨hflag, hnum⟩)
    | noShortSlotTime => exact Or.inr ⟨⟨hflag, hnum⟩, of_decide_eq_true hshown⟩
    | noHt | htNoGf | ht20mhz => exact absurd hshown Bool.false_ne_true

/-- A departure changes the flags of the station and the counters. -/
theorem leave_frame (s : Ap ι) (k : StaId) : Kept [k] s (s.apLeave k) ∧
    (s.apLeave k).bss.curWirelessMode = s.bss.curWirelessMode ∧
    ∀ q, (s.apLeave k).bss.num q = s.bss.num q - ((s.sta k).flag q).toInt := by
  obtain ⟨st, hst, -⟩ := s.apLeave_sta k
  refine ⟨⟨?_, ?_, ?_, fun j hj => ?_⟩, ?_, fun q => ?_⟩
  · simp only [apLeave, bssCapUpdateOnStaLeave, updateSta]
  · simp only [apLeave, bssCapUpdateOnStaLeave, updateSta]
  · simp only [apLeave, bssCapUpdateOnStaLeave, updateSta]
  · rw [List.mem_singleton] at hj
    rw [hst, Function.update_of_ne hj]
  · simp only [apLeave, bssCapUpdateOnStaLeave, updateSta]
    rw [mode_htRefresh]
  · have hflags : ((s.updateSta k fun st => { st with state := st.state &&& ~~~fwLinkedBits }).sta
      k).flags =
        (s.sta k).flags := by
      rw [sta_updateSta_self]
      rfl
    rw [apLeave, num_leave, ApSta.flag_congr hflags]
    rfl

/-- The release of a record changes it only. -/
theorem free_frame (s : Ap ι) (k : StaId) : Kept [k] s (s.rtwFreeStainfo k) ∧
    ∀ j, ((s.rtwFreeStainfo k).sta j).flag = (s.sta j).flag := by
  obtain ⟨n, hfree⟩ := s.sta_free k
  refine ⟨⟨?_, ?_, ?_, fun j hj => ?_⟩, fun j => ?_⟩
  · simp only [rtwFreeStainfo, record]
  · simp only [rtwFreeStainfo, record]
  · simp only [rtwFreeStainfo, record]
  · rw [List.mem_singleton] at hj
    rw [hfree, Function.update_of_ne hj]
  · rw [hfree]
    rcases eq_or_ne j k with rfl | hj
    · rw [Function.update_self]
      rfl
    · rw [Function.update_of_ne hj]

theorem apFree_frame (s : Ap ι) (k : StaId) : Kept [k] s (s.apFreeSta k) ∧
    (s.apFreeSta k).bss.curWirelessMode = s.bss.curWirelessMode ∧
    (∀ j ≠ k, ((s.apFreeSta k).sta j).flag = (s.sta j).flag) ∧
    ∀ q, (s.apFreeSta k).bss.num q = s.bss.num q - ((s.sta k).flag q).toInt := by
  obtain ⟨hleave, hmode, hnum⟩ := leave_frame s k
  obtain ⟨hfree, hflag⟩ := free_frame (s.apLeave k) k
  obtain ⟨st, hst, -⟩ := s.apLeave_sta k
  have hbss : (s.apFreeSta k).bss = (s.apLeave k).bss := by rw [apFreeSta, bss_free]
  refine ⟨kept_trans_self hleave hfree,
    by rw [hbss, hmode], fun j hj => ?_, fun q => by rw [hbss, hnum]⟩
  rw [apFreeSta, hflag, hst, Function.update_of_ne hj]

theorem ran_expireFree (t : Expiry ι) (k : StaId) :
    Ran [k] t (t.expireFree k) ∧ Kept [k] t.ap (t.expireFree k).ap := by
  obtain ⟨hkept, hmode, hflag, hnum⟩ := apFree_frame (t.ap.asocUnlink k) k
  have hflags : (((t.ap.asocUnlink k).updateSta k
    fun st => { st with state := st.state &&& ~~~fwLinkedBits }).sta k).flags =
      (t.ap.sta k).flags := by
    rw [sta_updateSta_self]
    rfl
  have hreport : ((t.ap.asocUnlink k).apFreeStaRet k).1 =
      reported t.ap.bss.curWirelessMode (t.ap.sta k).flag t.ap.bss.num := by
    rw [apFreeStaRet, bssCapUpdated_eq, flag_eq_of_flags hflags]
    rfl
  refine ⟨⟨hmode, fun j hj => hflag j (by simpa using hj), fun q => ?_, ?_, fun _ => ?_⟩,
    ⟨hkept.wifiSpec, hkept.activeKeepAliveCheck, hkept.expireTo, hkept.timing⟩⟩
  · have hq := hnum q
    rw [counting_cons]
    simp only [counting, List.countP_nil, Nat.cast_zero, add_zero]
    exact hq
  · change t.reports ++ [((t.ap.asocUnlink k).apFreeStaRet k).1] = _
    rw [hreport, leaveReports, leaveReports]
  · change ((t.ap.asocUnlink k).apFreeStaRet k).1 =
      (t.reports ++ [((t.ap.asocUnlink k).apFreeStaRet k).1]).getLast?.getD false
    rw [List.getLast?_append, List.getLast?_singleton]
    rfl

/-! ## A station that wakes up -/

theorem kept_wakeup (s : Ap ι) (k : StaId) : Kept [k] s (s.wakeupStaToXmit k) := by
  have hsta : Kept [k] s (s.wakeupSta k) := by
    have hflush : Kept [k] s ((s.record .wakeup k).updateSta k ApSta.flush) := by
      have hkept := kept_updateSta (s.record .wakeup k) k ApSta.flush
      exact ⟨hkept.wifiSpec, hkept.activeKeepAliveCheck, hkept.expireTo, hkept.timing⟩
    unfold wakeupSta
    dsimp only
    split
    · set u := (s.record .wakeup k).updateSta k ApSta.flush
      have hkept := kept_updateSta u k fun st => st.awake u.expireTo
      exact kept_trans_self hflush ⟨hkept.wifiSpec, hkept.activeKeepAliveCheck, hkept.expireTo,
        hkept.timing⟩
    · exact hflush
  have hgroup (u : Ap ι) : Kept [] u u.wakeupGroup := by
    have hflush (bmc : StaId) : Kept [] u (u.updateSta bmc ApSta.flushGroup) := by
      refine ⟨rfl, rfl, rfl, fun j _ => ?_⟩
      rcases eq_or_ne j bmc with rfl | hj
      · rw [sta_updateSta_self]
        rfl
      · rw [sta_updateSta_of_ne hj]
    unfold wakeupGroup
    split
    · exact kept_refl u
    · rename_i bmc _
      dsimp only
      split
      · have hkept := hflush bmc
        split
        · exact ⟨hkept.wifiSpec, hkept.activeKeepAliveCheck, hkept.expireTo, hkept.timing⟩
        · exact hkept
      · exact kept_refl u
  exact kept_trans hsta (hgroup _)

theorem ran_of_sameCaps (h : SameCaps s s') (updated : Bool) (reports : List Bool) :
    Ran [] (⟨s, updated, reports⟩ : Expiry ι) ⟨s', updated, reports⟩ :=
  ran_of_same h.bss (fun j => flag_eq_of_flags (h.flags j)) rfl rfl

end Expiry

/-! ## What expires -/

namespace Ap

variable {ι : Type} [DecidableEq ι]

/-- The time of the station is over in this tick. -/
def due (s : Ap ι) (env : TickEnv) (k : StaId) : Bool :=
  if env.alive k ∨ (s.sta k).expireTo = 0 then decide (s.expireTo = 0) else decide ((s.sta k).expireTo = 1)

/-- How often the station did not answer before. -/
def tries (s : Ap ι) (env : TickEnv) (k : StaId) : ℕ :=
  if env.alive k ∨ (s.sta k).expireTo = 0 then 0 else (s.sta k).keepAliveTrycnt

/-- A station whose time is over is removed, unless it sleeps and was not asked through the beacon
before. -/
def removedDue (s : Ap ι) (k : StaId) : Bool :=
  !s.wifiSpec && !s.activeKeepAliveCheck && !((s.sta k).asleep && !hasBits (s.sta k).state wifiStaAliveChkState)

/-- A null frame asks the stations whose time is over. -/
def askedDue (s : Ap ι) : Bool := !s.wifiSpec && s.activeKeepAliveCheck

/-- A station that does not answer for the fourth time is removed. -/
def removedAsk (env : TickEnv) (tries : ℕ) (k : StaId) : Bool := !env.acked k && decide (3 < tries + 1)

/-- The station is removed in this tick. -/
def expires (s : Ap ι) (env : TickEnv) (k : StaId) : Bool :=
  s.due env k && if s.askedDue then removedAsk env (s.tries env k) k else s.removedDue k

/-- The stations that are removed in this tick, one after another. -/
def expiring (s : Ap ι) (env : TickEnv) : List StaId := s.asocList.filter (s.expires env)

end Ap

namespace Expiry

variable {ι : Type} [DecidableEq ι] {s s' : Ap ι} {t t' : Expiry ι} {k : StaId} {ks rs : List StaId}
  {env : TickEnv}

/-- A sleeping station is asked through the beacon. -/
def sleeper (s : Ap ι) (k : StaId) : Bool := (s.sta k).asleep && !hasBits (s.sta k).state wifiStaAliveChkState

theorem expireDue_eq (t : Expiry ι) (k : StaId) : t.expireDue k =
    if t.ap.wifiSpec then
      (none, { t with ap := t.ap.updateSta k fun st => { st with expireTo := t.ap.expireTo } })
    else if t.ap.activeKeepAliveCheck then
      (some k, if sleeper t.ap k then { t with ap := t.ap.aliveChk k } else t)
    else (none, if sleeper t.ap k then { t with ap := t.ap.aliveChk k } else t.expireFree k) := by
  have hactive : (t.ap.aliveChk k).activeKeepAliveCheck = t.ap.activeKeepAliveCheck := rfl
  unfold expireDue sleeper
  dsimp only
  generalize ((t.ap.sta k).asleep && !hasBits (t.ap.sta k).state wifiStaAliveChkState) = chk
  cases chk with
  | true => simp only [if_true, hactive]
  | false => simp only [Bool.false_eq_true, if_false]

theorem aliveChk_frame (s : Ap ι) (k : StaId) :
    Kept [k] s (s.aliveChk k) ∧ (s.aliveChk k).bss = s.bss ∧
    (∀ j, ((s.aliveChk k).sta j).flag = (s.sta j).flag) ∧
    ((s.aliveChk k).sta k).keepAliveTrycnt = (s.sta k).keepAliveTrycnt := by
  set f : ApSta → ApSta :=
    fun st => { st with expireTo := s.expireTo, state := st.state ||| wifiStaAliveChkState }
  have hsta : (s.aliveChk k).sta = (s.updateSta k f).sta := rfl
  have hflags : (f (s.sta k)).flags = (s.sta k).flags := rfl
  have hkept := kept_updateSta s k f
  refine ⟨⟨rfl, rfl, rfl, fun j hj => ?_⟩, rfl, fun j => ?_, ?_⟩
  · rw [hsta, hkept.timing j hj]
  · rw [hsta, flag_updateSta hflags]
  · rw [hsta, sta_updateSta_self]

theorem expireDue_spec (t : Expiry ι) (k : StaId) :
    Ran (if t.ap.removedDue k then [k] else []) t (t.expireDue k).2 ∧
      Kept [k] t.ap (t.expireDue k).2.ap ∧
      (t.expireDue k).1 = (if t.ap.askedDue then some k else none) ∧
      (t.ap.askedDue = true →
      ((t.expireDue k).2.ap.sta k).keepAliveTrycnt = (t.ap.sta k).keepAliveTrycnt) := by
  obtain ⟨hkept, hbss, hflag, hcnt⟩ := aliveChk_frame t.ap k
  have halive : Ran [] t { t with ap := t.ap.aliveChk k } := ran_of_same hbss hflag rfl rfl
  have hsame : Ran [] t t := ran_of_same rfl (fun _ => rfl) rfl rfl
  have hremoved : t.ap.removedDue k =
    (!t.ap.wifiSpec && !t.ap.activeKeepAliveCheck && !sleeper t.ap k) := rfl
  rw [expireDue_eq, hremoved, askedDue]
  cases t.ap.wifiSpec with
  | true =>
    rw [if_pos rfl]
    have hflag' := @flag_updateSta ι _ t.ap k (fun st => { st with expireTo := t.ap.expireTo }) rfl
    have hran : Ran [] t
      { t with ap := t.ap.updateSta k fun st => { st with expireTo := t.ap.expireTo } } :=
      ran_of_same rfl hflag' rfl rfl
    have hkept' := kept_updateSta t.ap k fun st => { st with expireTo := t.ap.expireTo }
    exact ⟨hran, hkept', rfl, fun h => absurd h Bool.false_ne_true⟩
  | false =>
    rw [if_neg Bool.false_ne_true]
    cases t.ap.activeKeepAliveCheck with
    | true =>
      rw [if_pos rfl]
      cases sleeper t.ap k with
      | true => exact ⟨halive, hkept, rfl, fun _ => hcnt⟩
      | false => exact ⟨hsame, kept_refl _, rfl, fun _ => rfl⟩
    | false =>
      rw [if_neg Bool.false_ne_true]
      cases sleeper t.ap k with
      | true => exact ⟨halive, hkept, rfl, fun h => absurd h Bool.false_ne_true⟩
      | false =>
        obtain ⟨hran, hkept'⟩ := ran_expireFree t k
        exact ⟨hran, hkept', rfl, fun h => absurd h Bool.false_ne_true⟩

theorem countDown_frame (s : Ap ι) (env : TickEnv) (k : StaId) : Kept [k] s (s.countDown env k) ∧
    (∀ j, ((s.countDown env k).sta j).flag = (s.sta j).flag) ∧
    (((s.countDown env k).sta k).expireTo = 0 ↔ s.due env k = true) ∧
    ((s.countDown env k).sta k).keepAliveTrycnt = s.tries env k ∧
    (s.countDown env k).removedDue k = s.removedDue k := by
  have hsta : (s.countDown env k).sta k = if env.alive k ∨ (s.sta k).expireTo = 0 then
      { s.sta k with expireTo := s.expireTo, keepAliveTrycnt := 0 }
      else { s.sta k with expireTo := (s.sta k).expireTo - 1 } := sta_updateSta_self s k _
  refine ⟨kept_updateSta s k _, fun j => flag_updateSta ?_ j, ?_, ?_, ?_⟩
  · split <;> rfl
  · rw [hsta, due]
    split_ifs with h
    · exact decide_eq_true_iff.symm
    · change (s.sta k).expireTo - 1 = 0 ↔ _
      rw [decide_eq_true_iff]
      omega
  · rw [hsta, tries]
    split_ifs <;> rfl
  · have hstate : ((s.countDown env k).sta k).state = (s.sta k).state := by
      rw [hsta]
      split_ifs <;> rfl
    simp only [removedDue, ApSta.asleep, hstate]
    rfl

theorem expireAsoc_spec (t : Expiry ι) (env : TickEnv) (k : StaId) :
    Ran (if t.ap.due env k && t.ap.removedDue k then [k] else []) t (t.expireAsoc env k).2 ∧
      Kept [k] t.ap (t.expireAsoc env k).2.ap ∧
      (t.expireAsoc env k).1 = (if t.ap.due env k && t.ap.askedDue then some k else none) ∧
      (t.ap.due env k && t.ap.askedDue →
      ((t.expireAsoc env k).2.ap.sta k).keepAliveTrycnt = t.ap.tries env k) := by
  obtain ⟨hkept, hflag, hdue, htries, hremoved⟩ := countDown_frame t.ap env k
  set u : Expiry ι := { t with ap := t.ap.countDown env k } with hu
  have hran : Ran [] t u := ran_of_same rfl hflag rfl rfl
  have hcall : t.expireAsoc env k = if (u.ap.sta k).expireTo = 0 then u.expireDue k
      else if nrXmitframe / u.ap.asocListCnt < (u.ap.sta k).sleepqLen ∧
          env.freeXmitframeCnt < nrXmitframe / u.ap.asocListCnt / 2 then
        (none, { u with ap := u.ap.wakeupStaToXmit k })
      else (none, u) := rfl
  rw [hcall]
  cases hd : t.ap.due env k with
  | true =>
    have hzero : (u.ap.sta k).expireTo = 0 := hdue.mpr hd
    have hremoved' : u.ap.removedDue k = t.ap.removedDue k := hremoved
    have hasked : u.ap.askedDue = t.ap.askedDue := rfl
    obtain ⟨hran', hkept', hchk, hcnt⟩ := expireDue_spec u k
    rw [hremoved'] at hran'
    rw [hasked] at hchk hcnt
    rw [if_pos hzero, Bool.true_and, Bool.true_and]
    refine ⟨?_, kept_trans_self hkept hkept', hchk, fun h => (hcnt h).trans htries⟩
    have hboth := ran_trans hran hran' fun _ _ => List.not_mem_nil
    rwa [List.nil_append] at hboth
  | false =>
    have hzero : ¬(u.ap.sta k).expireTo = 0 := fun h => by simp [hdue.mp h] at hd
    rw [if_neg hzero, Bool.false_and, Bool.false_and, if_neg Bool.false_ne_true,
      if_neg Bool.false_ne_true]
    split
    · have hcaps := (sameCaps_wakeupSta u.ap k).trans (sameCaps_wakeupGroup _)
      have hran' : Ran [] u { u with ap := u.ap.wakeupStaToXmit k } :=
        ran_of_sameCaps hcaps u.updated u.reports
      exact ⟨ran_trans hran hran' fun _ h => absurd h List.not_mem_nil,
        kept_trans_self hkept (kept_wakeup u.ap k), rfl,
        fun h => absurd h Bool.false_ne_true⟩
    · exact ⟨hran, hkept, rfl, fun h => absurd h Bool.false_ne_true⟩

/-! ## The loops -/

/-- A station, and then the others. -/
theorem ran_cons {p : StaId → Bool} {t t' t'' : Expiry ι} (h : Ran (if p k then [k] else []) t t')
    (h' : Ran (ks.filter p) t' t'') (hk : k ∉ ks) : Ran ((k :: ks).filter p) t t'' := by
  have hboth := ran_trans h h' fun j hj hmem => ?_
  · rw [List.filter_cons]
    split_ifs at hboth ⊢
    · exact hboth
    · exact hboth
  · split_ifs at hmem
    · obtain rfl := List.mem_singleton.mp hmem
      exact hk (List.mem_filter.mp hj).1
    · exact List.not_mem_nil hmem

/-- What decides about a station does not depend on the others. -/
theorem kept_decides (h : Kept ks s s') (hk : k ∉ ks) (env : TickEnv) : s'.due env k = s.due env k ∧
    s'.tries env k = s.tries env k ∧ s'.removedDue k = s.removedDue k ∧
      s'.askedDue = s.askedDue := by
  obtain ⟨hexpire, hstate, hcnt⟩ : (s'.sta k).expireTo = (s.sta k).expireTo ∧
    (s'.sta k).state = (s.sta k).state ∧
      (s'.sta k).keepAliveTrycnt = (s.sta k).keepAliveTrycnt := by
    simpa only [ApSta.timing, Prod.mk.injEq] using h.timing k hk
  refine ⟨?_, ?_, ?_, ?_⟩
  · rw [due, due, hexpire, h.expireTo]
  · rw [tries, tries, hexpire, hcnt]
  · simp only [removedDue, ApSta.asleep, hstate, h.wifiSpec, h.activeKeepAliveCheck]
  · rw [askedDue, askedDue, h.wifiSpec, h.activeKeepAliveCheck]

theorem expireAsocLoop_spec (env : TickEnv) : ∀ (ks : List StaId) (t : Expiry ι), ks.Nodup →
    Ran (ks.filter fun k => t.ap.due env k && t.ap.removedDue k) t (expireAsocLoop env ks t).2 ∧
      Kept ks t.ap (expireAsocLoop env ks t).2.ap ∧
      (expireAsocLoop env ks t).1 = ks.filter (fun k => t.ap.due env k && t.ap.askedDue) ∧
      ∀ k ∈ (expireAsocLoop env ks t).1, ((expireAsocLoop env ks t).2.ap.sta k).keepAliveTrycnt =
        t.ap.tries env k
  | [], t, _ => ⟨ran_of_same rfl (fun _ => rfl) rfl rfl, kept_refl _, rfl,
    fun _ h => absurd h List.not_mem_nil⟩
  | k :: ks, t, hnd => by
    obtain ⟨hk, hks⟩ := List.nodup_cons.mp hnd
    obtain ⟨hran, hkept, hchk, hcnt⟩ := expireAsoc_spec t env k
    obtain ⟨hrans, hkepts, hchks, hcnts⟩ := expireAsocLoop_spec env ks (t.expireAsoc env k).2 hks
    have hne (j : StaId) (hj : j ∈ ks) : j ∉ [k] := fun h => hk (List.mem_singleton.mp h ▸ hj)
    have hsame (j : StaId) (hj : j ∈ ks) := kept_decides hkept (hne j hj) env
    have hremoved : (ks.filter
      fun j => (t.expireAsoc env k).2.ap.due env j && (t.expireAsoc env k).2.ap.removedDue j) =
        ks.filter fun j => t.ap.due env j && t.ap.removedDue j := by
      refine List.filter_congr fun j hj => ?_
      rw [(hsame j hj).1, (hsame j hj).2.2.1]
    have hasked : (ks.filter
      fun j => (t.expireAsoc env k).2.ap.due env j && (t.expireAsoc env k).2.ap.askedDue) =
        ks.filter fun j => t.ap.due env j && t.ap.askedDue := by
      refine List.filter_congr fun j hj => ?_
      rw [(hsame j hj).1, (hsame j hj).2.2.2]
    rw [hremoved] at hrans
    rw [expireAsocLoop]
    refine ⟨ran_cons hran hrans hk, kept_trans hkept hkepts, ?_, fun j hj => ?_⟩
    · change (t.expireAsoc env k).1.toList ++ (expireAsocLoop env ks (t.expireAsoc env k).2).1 = _
      rw [hchk, hchks, hasked, List.filter_cons]
      split_ifs
      · rfl
      · rfl
    · rcases List.mem_append.mp hj with hj | hj
      · have hmem := Option.mem_toList.mp hj
        rw [hchk, Option.ite_none_right_eq_some] at hmem
        obtain ⟨hdue, hjk⟩ := hmem
        cases hjk
        have htiming := hkepts.timing k hk
        simp only [ApSta.timing, Prod.mk.injEq] at htiming
        exact htiming.2.2.trans (hcnt hdue)
      · have hmem := hj
        rw [hchks] at hmem
        exact (hcnts j hj).trans (hsame j (List.mem_filter.mp hmem).1).2.1

theorem expireAsk_eq (env : TickEnv) (t : Expiry ι) (k : StaId) :
    ∃ f : ApSta → ApSta, (f (t.ap.sta k)).flags = (t.ap.sta k).flags ∧ expireAsk env t k =
      if removedAsk env (t.ap.sta k).keepAliveTrycnt k then
        { t with ap := t.ap.updateSta k f }.expireFree k
      else { t with ap := t.ap.updateSta k f } := by
  unfold expireAsk removedAsk
  dsimp only
  cases env.acked k with
  | true => exact ⟨_, rfl, rfl⟩
  | false =>
    rw [if_neg Bool.false_ne_true, Bool.not_false, Bool.true_and]
    by_cases h : (t.ap.sta k).keepAliveTrycnt + 1 ≤ 3
    · refine ⟨fun st => { st with expireTo := 1, keepAliveTrycnt := (t.ap.sta k).keepAliveTrycnt + 1 }, rfl, ?_⟩
      rw [if_pos h, decide_eq_false (Nat.not_lt.mpr h), if_neg Bool.false_ne_true]
    · refine ⟨fun st => { st with keepAliveTrycnt := 0 }, rfl, ?_⟩
      rw [if_neg h, decide_eq_true (Nat.lt_of_not_le h), if_pos rfl]

theorem expireAsk_spec (env : TickEnv) (t : Expiry ι) (k : StaId) :
    Ran (if removedAsk env (t.ap.sta k).keepAliveTrycnt k then [k] else []) t (expireAsk env t k) ∧
      Kept [k] t.ap (expireAsk env t k).ap := by
  obtain ⟨f, hflags, hcall⟩ := expireAsk_eq env t k
  have hran : Ran [] t { t with ap := t.ap.updateSta k f } :=
    ran_of_same rfl (flag_updateSta hflags) rfl rfl
  have hkept := kept_updateSta t.ap k f
  rw [hcall]
  split_ifs
  · obtain ⟨hran', hkept'⟩ := ran_expireFree { t with ap := t.ap.updateSta k f } k
    exact ⟨ran_trans hran hran' fun _ _ => List.not_mem_nil, kept_trans_self hkept hkept'⟩
  · exact ⟨hran, hkept⟩

theorem foldl_expireAsk_spec (env : TickEnv) : ∀ (ks : List StaId) (t : Expiry ι), ks.Nodup →
    Ran (ks.filter fun k => removedAsk env (t.ap.sta k).keepAliveTrycnt k) t
      (ks.foldl (expireAsk env) t)
  | [], t, _ => ran_of_same rfl (fun _ => rfl) rfl rfl
  | k :: ks, t, hnd => by
    obtain ⟨hk, hks⟩ := List.nodup_cons.mp hnd
    obtain ⟨hran, hkept⟩ := expireAsk_spec env t k
    have hrans := foldl_expireAsk_spec env ks (expireAsk env t k) hks
    have hsame : (ks.filter fun j => removedAsk env
      ((expireAsk env t k).ap.sta j).keepAliveTrycnt j) =
        ks.filter fun j => removedAsk env (t.ap.sta j).keepAliveTrycnt j := by
      refine List.filter_congr fun j hj => ?_
      have htiming := hkept.timing j fun h => hk (List.mem_singleton.mp h ▸ hj)
      simp only [ApSta.timing, Prod.mk.injEq] at htiming
      rw [htiming.2.2]
    rw [hsame] at hrans
    exact ran_cons hran hrans hk

/-- The loop over `auth_list` is about other stations. -/
theorem foldl_expireAuth_frame : ∀ (ks : List StaId) (s : Ap ι), Kept ks s (ks.foldl expireAuth s) ∧
    (ks.foldl expireAuth s).bss = s.bss ∧ (ks.foldl expireAuth s).asocList = s.asocList ∧
    ∀ j, ((ks.foldl expireAuth s).sta j).flag = (s.sta j).flag
  | [], s => ⟨kept_refl s, rfl, rfl, fun _ => rfl⟩
  | k :: ks, s => by
    have hhead : Kept [k] s (s.expireAuth k) ∧ (s.expireAuth k).bss = s.bss ∧
        (s.expireAuth k).asocList = s.asocList ∧
          ∀ j, ((s.expireAuth k).sta j).flag = (s.sta j).flag := by
      set u := s.updateSta k fun st => { st with expireTo := (s.sta k).expireTo - 1 } with hu
      have hkept : Kept [k] s u := kept_updateSta s k _
      have hflag (j : StaId) : (u.sta j).flag = (s.sta j).flag := flag_updateSta rfl j
      have hbss : u.bss = s.bss := rfl
      have hasoc : u.asocList = s.asocList := rfl
      obtain ⟨hfree, hfreeFlag⟩ := free_frame (u.authUnlink k) k
      unfold expireAuth
      dsimp only
      split_ifs
      · exact ⟨kept_refl s, rfl, rfl, fun _ => rfl⟩
      · rw [← hu, bss_free, asocList_free]
        exact ⟨kept_trans_self hkept ⟨hfree.wifiSpec, hfree.activeKeepAliveCheck, hfree.expireTo,
          hfree.timing⟩, hbss, hasoc,
          fun j => (hfreeFlag j).trans (hflag j)⟩
      · exact ⟨hkept, hbss, hasoc, hflag⟩
    obtain ⟨hkept, hbss, hasoc, hflag⟩ := foldl_expireAuth_frame ks (s.expireAuth k)
    rw [List.foldl_cons]
    exact ⟨kept_trans hhead.1 hkept, hbss.trans hhead.2.1, hasoc.trans hhead.2.2.1,
      fun j => (hflag j).trans (hhead.2.2.2 j)⟩

/-- A tick removes the stations that expire. -/
theorem expireTimeoutChk_spec (hw : Ap.WellFormed s) (env : TickEnv) :
    Ran (s.expiring env) ⟨s, false, []⟩ (expireTimeoutChk s env).1 := by
  obtain ⟨hkept, hbss, hasoc, hflag⟩ := foldl_expireAuth_frame s.authList s
  set u := s.authList.foldl expireAuth s with hu
  have hran : Ran [] (⟨s, false, []⟩ : Expiry ι) ⟨u, false, []⟩ := ran_of_same hbss hflag rfl rfl
  have hnd : u.asocList.Nodup := by
    rw [hasoc]
    exact hw.asocNodup
  have hdecides (j : StaId) (hj : j ∈ u.asocList) :=
    kept_decides hkept (fun h => hw.disjoint j h (hasoc ▸ hj)) env
  have hasked : u.askedDue = s.askedDue := by
    rw [askedDue, askedDue, hkept.wifiSpec, hkept.activeKeepAliveCheck]
  obtain ⟨hran₁, -, hchks, hcnts⟩ := expireAsocLoop_spec env u.asocList ⟨u, false, []⟩ hnd
  have hcall : (expireTimeoutChk s env).1 = (expireAsocLoop env u.asocList ⟨u, false, []⟩).1.foldl
    (expireAsk env)
      (expireAsocLoop env u.asocList ⟨u, false, []⟩).2 := rfl
  have hnd₁ : (expireAsocLoop env u.asocList ⟨u, false, []⟩).1.Nodup := by
    rw [hchks]
    exact hnd.filter _
  have hran₂ := foldl_expireAsk_spec env _ (expireAsocLoop env u.asocList ⟨u, false, []⟩).2 hnd₁
  rw [← hcall, List.filter_congr fun j hj => by rw [hcnts j hj], hchks, List.filter_filter] at hran₂
  have hboth := ran_trans
    (ran_trans hran hran₁ fun _ _ => List.not_mem_nil) hran₂ fun j hj hmem => ?_
  · rw [List.nil_append] at hboth
    rw [expiring, ← hasoc]
    convert hboth using 1
    cases ha : s.askedDue with
    | true =>
      -- the first loop removes nothing
      have hnone : (u.asocList.filter fun k => u.due env k && u.removedDue k) = [] := by
        refine List.filter_eq_nil_iff.mpr fun k _ h => ?_
        simp only [Bool.and_eq_true, removedDue, Bool.not_eq_true'] at h
        simp only [askedDue, Bool.and_eq_true] at ha
        simp [hkept.activeKeepAliveCheck, ha.2] at h
      rw [hnone, List.nil_append]
      refine List.filter_congr fun k hk => ?_
      obtain ⟨hdue, htries, -, hask⟩ := hdecides k hk
      rw [expires, ha, if_pos rfl, hdue, htries, hask, ha, Bool.and_true, Bool.and_comm]
    | false =>
      have hnone : (u.asocList.filter fun k => removedAsk env
        (u.tries env k) k && (u.due env k && u.askedDue)) = [] := by
        refine List.filter_eq_nil_iff.mpr fun k _ h => ?_
        rw [hasked, ha, Bool.and_false, Bool.and_false] at h
        exact Bool.false_ne_true h
      rw [hnone, List.append_nil]
      refine List.filter_congr fun k hk => ?_
      obtain ⟨hdue, -, hremoved, -⟩ := hdecides k hk
      rw [expires, ha, if_neg Bool.false_ne_true, hdue, hremoved]
  · -- a station that was removed at once is not asked
    rw [List.nil_append] at hmem
    have hasked' := (List.mem_filter.mp hj).2
    have hremoved := (List.mem_filter.mp hmem).2
    simp only [Bool.and_eq_true, askedDue, removedDue, Bool.not_eq_true'] at hasked' hremoved
    simp [hasked'.2.2.2] at hremoved

end Expiry

namespace Ap

variable {ι : Type} [DecidableEq ι]

/-- `associated_clients_update` gets true exactly if a removal has changed the beacon. -/
def RefreshRight (s : Ap ι) (env : TickEnv) : Prop :=
  (Expiry.expireTimeoutChk s env).1.updated = true ↔ true ∈ (Expiry.expireTimeoutChk s env).1.reports

instance (s : Ap ι) (env : TickEnv) : Decidable (s.RefreshRight env) := inferInstanceAs (Decidable (_ ↔ _))

/-- How many of the stations that expire a counter counts. -/
def expiringCounted (s : Ap ι) (env : TickEnv) (q : Protection) : ℤ :=
  counting (fun k => (s.sta k).flag) (s.expiring env) q

/-- If a counter that the beacon depends on comes to zero, the last station that expires brings one
to zero. -/
def RefreshSafe (s : Ap ι) (env : TickEnv) : Prop :=
  (∃ q, shown s.bss.curWirelessMode q = true ∧ 1 ≤ s.bss.num q ∧ s.bss.num q ≤ s.expiringCounted env q) →
    ∃ k ∈ (s.expiring env).getLast?, ∃ q, shown s.bss.curWirelessMode q = true ∧ (s.sta k).flag q = true ∧
      s.bss.num q = s.expiringCounted env q

/-- The flag at the end of a tick says whether the beacon has changed exactly if no change is
followed by the expiry of a station that does not change it. -/
theorem refresh_iff {s : Ap ι} (hw : WellFormed s) (env : TickEnv) : s.RefreshRight env ↔ s.RefreshSafe env := by
  have hran := Expiry.expireTimeoutChk_spec hw env
  have hreports := hran.reports
  have hupdated := hran.updated rfl
  rw [List.nil_append] at hreports
  unfold RefreshRight RefreshSafe
  rw [hupdated, hreports, mem_leaveReports]
  unfold expiringCounted
  obtain hnil | ⟨init, k, hks⟩ : s.expiring env = [] ∨ ∃ init k, s.expiring env = init ++ [k] := by
    simpa only [List.concat_eq_append] using List.eq_nil_or_concat (s.expiring env)
  · rw [hnil]
    have hno : ¬∃ q, shown s.bss.curWirelessMode q = true ∧ 1 ≤ s.bss.num q ∧
        s.bss.num q ≤ counting (fun k => (s.sta k).flag) [] q := by
      rintro ⟨q, -, hpos, hle⟩
      simp only [counting, List.countP_nil, Nat.cast_zero] at hle
      omega
    exact iff_of_true (iff_of_false Bool.false_ne_true hno) fun h => absurd h hno
  · have hlast (q : Protection) : counting (fun k => (s.sta k).flag) (init ++ [k]) q =
        counting (fun k => (s.sta k).flag) init q + ((s.sta k).flag q).toInt := by
      rw [counting_append, counting_cons]
      simp [counting]
    have hnonneg (q : Protection) : 0 ≤ counting (fun k => (s.sta k).flag) init q :=
      Nat.cast_nonneg _
    have hreport : reported s.bss.curWirelessMode (s.sta k).flag
          (fun q => s.bss.num q - counting (fun k => (s.sta k).flag) init q) = true ↔
        ∃ q, shown s.bss.curWirelessMode q = true ∧ (s.sta k).flag q = true ∧
          s.bss.num q = counting (fun k => (s.sta k).flag) (init ++ [k]) q := by
      rw [reported_iff]
      refine exists_congr fun q => and_congr_right fun _ => and_congr_right fun hflag => ?_
      rw [hlast, hflag, Bool.toInt_true]
      omega
    rw [hks, getLast_leaveReports, Option.getD_some, hreport, List.getLast?_concat]
    constructor
    · exact fun h hzero => ⟨k, rfl, h.mpr hzero⟩
    · refine fun h => ⟨fun ⟨q, hshown, hflag, hnum⟩ => ⟨q, hshown, ?_, hnum.le⟩, fun hzero => ?_⟩
      · rw [hnum, hlast, hflag, Bool.toInt_true]
        have hpos := hnonneg q
        omega
      · obtain ⟨j, hj, hq⟩ := h hzero
        cases hj
        exact hq

/-- A station without short slots is associated before one with them, and both are silent. -/
def sampleSlots : List ApEvent :=
  [.auth true (sampleAuth Adapter.sampleTa), .assocReq { sampleAssocReq Adapter.sampleTa true with capabInfo := 0x0021 },
    .auth true (sampleAuth Adapter.sampleBssid), .assocReq (sampleAssocReq Adapter.sampleBssid true),
    .tick sampleSilence, .tick sampleSilence, .tick sampleSilence, .tick sampleSilence, .tick sampleSilence]

/-- The removal of the second station hides that the first one has changed the beacon. -/
theorem not_refresh_sampleSlots : ∃ t, runM apStep sampleAp sampleSlots = some t ∧ ¬t.RefreshRight sampleSilence := by
  have h : ((runM apStep sampleAp sampleSlots).any fun t => !decide (t.RefreshRight sampleSilence))
    = true := by
    decide +kernel
  obtain ⟨t, ht, h⟩ := Option.any_eq_true _ _ |>.mp h
  exact ⟨t, ht, by simpa using h⟩

theorem refresh_sampleSlots : ∃ t, runM apStep sampleAp sampleSlots = some t ∧
    (t.RefreshRight sampleSilence ↔ t.RefreshSafe sampleSilence) := by
  have h : (runM apStep sampleAp sampleSlots).isSome = true := by
    decide +kernel
  obtain ⟨t, ht⟩ := Option.isSome_iff_exists.mp h
  exact ⟨t, ht, refresh_iff
    (wellFormed_moves started_sampleAp.wellFormed (moves_apRun started_sampleAp ht)) sampleSilence⟩

end Ap

end Rtl8188eu
