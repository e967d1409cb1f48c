import Rtl8188eu.ApStations

/-!
# The lists of an access point

A station that has sent an authentication frame is on `auth_list`, and an associated one on
`asoc_list`. Each list has a counter. A record on a list is not in the free queue, so
`expire_timeout_chk` divides by a counter that is not zero and looks at records in use only
(`lists_apRun`).

`asoc_list`, the state word and the id of a station say the same as long as no authentication
frame of an associated station is accepted, and no request of a station on the list is refused
(`assocOk_apRun`).
-/

set_option linter.unusedSectionVars false

namespace Rtl8188eu

open Runs

namespace Ap

variable {ι : Type} [DecidableEq ι] {s s' : Ap ι} {k j : StaId} {auth : Bool}

/-! ## The loops with their checks -/

/-- The round of `expire_timeout_chk` for a station on `auth_list`, if its record is in use. -/
def expireAuthChecked (s : Ap ι) (k : StaId) : Option (Ap ι) :=
  if k ∈ s.base.freeStaQueue then none else some (s.expireAuth k)

/-- The round of `expire_timeout_chk` for a station on `asoc_list`, if its record is in use and
the division has a divisor. -/
def expireAsocChecked (s : Ap ι) (env : TickEnv) (k : StaId) : Option (Option StaId × Ap ι) :=
  if k ∈ s.base.freeStaQueue then none
  else if ((s.countDown env k).sta k).expireTo ≠ 0 ∧ (s.countDown env k).asocListCnt = 0 then none
  else some (s.expireAsoc env k)

/-- The loop of `expire_timeout_chk` over `asoc_list`, with its checks. -/
def expireAsocLoopChecked (env : TickEnv) : List StaId → Ap ι → Option (List StaId × Ap ι)
  | [], s => some ([], s)
  | k :: ks, s =>
    (s.expireAsocChecked env k).bind fun (chk, s) =>
      (expireAsocLoopChecked env ks s).map fun (chks, s) => (chk.toList ++ chks, s)

/-- The round of `expire_timeout_chk` for a station to ask, if its record is in use. -/
def expireAskChecked (env : TickEnv) (s : Ap ι) (k : StaId) : Option (Ap ι) :=
  if k ∈ s.base.freeStaQueue then none else some (expireAsk env s k)

/-- `expire_timeout_chk` that stops at a record in the free queue and at a division by zero. -/
def expireTimeoutChkChecked (s : Ap ι) (env : TickEnv) : Option (Ap ι) :=
  (s.authList.foldlM expireAuthChecked s).bind fun s =>
    (expireAsocLoopChecked env s.asocList s).bind fun (chks, s) =>
      chks.foldlM (expireAskChecked env) s

theorem WellFormed.authUsed (hw : WellFormed s) (hk : k ∈ s.authList) :
    k ∉ s.base.freeStaQueue := fun hfree => hw.freeDead k hfree (hw.authLive k hk)

theorem WellFormed.asocUsed (hw : WellFormed s) (hk : k ∈ s.asocList) :
    k ∉ s.base.freeStaQueue := fun hfree => hw.freeDead k hfree (hw.asocLive k hk)

/-- A checked fold over a list of stations, each of which is still there when it is reached. -/
theorem foldlM_checked {f : Ap ι → StaId → Ap ι} {g : Ap ι → StaId → Option (Ap ι)}
    {l : Ap ι → List StaId} (hg : ∀ s k, WellFormed s → k ∈ l s → g s k = some (f s k))
    (hf : ∀ s k, WellFormed s → k ∈ l s →
      Moves true s (f s k) ∧ ∀ j, j ≠ k → j ∈ l s → j ∈ l (f s k)) :
    ∀ (ks : List StaId) (s : Ap ι), WellFormed s → ks.Nodup → (∀ k ∈ ks, k ∈ l s) →
      ks.foldlM g s = some (ks.foldl f s)
  | [], s, _, _, _ => rfl
  | k :: ks, s, hw, hnd, hmem => by
    rw [List.nodup_cons] at hnd
    have hk := hmem k List.mem_cons_self
    obtain ⟨hm, hkeep⟩ := hf s k hw hk
    rw [List.foldlM_cons, hg s k hw hk, List.foldl_cons]
    exact foldlM_checked hg hf ks _ (wellFormed_moves hw hm) hnd.2 fun j hj =>
      hkeep j (ne_of_mem_of_not_mem hj hnd.1) (hmem j (List.mem_cons_of_mem k hj))

theorem expireAsocChecked_eq (hw : WellFormed s) (env : TickEnv) (hk : k ∈ s.asocList) :
    s.expireAsocChecked env k = some (s.expireAsoc env k) := by
  have hpos : (s.countDown env k).asocListCnt ≠ 0 := by
    change s.asocListCnt ≠ 0
    rw [hw.asocCnt]
    exact (List.length_pos_of_mem hk).ne'
  rw [expireAsocChecked, if_neg (hw.asocUsed hk), if_neg fun h => hpos h.2]

theorem expireAsocLoopChecked_eq (env : TickEnv) : ∀ (ks : List StaId) (s : Ap ι), WellFormed s →
    ks.Nodup → (∀ k ∈ ks, k ∈ s.asocList) →
    expireAsocLoopChecked env ks s = some (expireAsocLoop env ks s)
  | [], s, _, _, _ => rfl
  | k :: ks, s, hw, hnd, hmem => by
    rw [List.nodup_cons] at hnd
    have hk := hmem k List.mem_cons_self
    have hround : Round true k s (s.expireAsoc env k) := round_expireAsoc hw env hk
    have ih := expireAsocLoopChecked_eq env ks _ (wellFormed_moves hw hround.moves) hnd.2
      fun j hj =>
      hround.others j (ne_of_mem_of_not_mem hj hnd.1) (hmem j (List.mem_cons_of_mem k hj))
    rw [expireAsocLoopChecked, expireAsocChecked_eq hw env hk, Option.bind_some]
    dsimp only
    rw [ih, Option.map_some, expireAsocLoop]

/-- The checks of `expire_timeout_chk` never stop it in a well-formed state. -/
theorem expireTimeoutChkChecked_eq (hw : WellFormed s) (env : TickEnv) :
    s.expireTimeoutChkChecked env = some (s.expireTimeoutChk env) := by
  have hm : Moves true s (s.authList.foldl expireAuth s) :=
    moves_foldl (fun _ _ => moves_expireAuth) s.authList s hw hw.authNodup fun _ hk => hk
  have hw₁ := wellFormed_moves hw hm
  unfold expireTimeoutChkChecked expireTimeoutChk
  have hauth : s.authList.foldlM expireAuthChecked s = some (s.authList.foldl expireAuth s) :=
    foldlM_checked (fun _ _ hw hk => if_neg (hw.authUsed hk)) (fun _ _ => moves_expireAuth)
      s.authList s hw hw.authNodup fun _ hk => hk
  rw [hauth, Option.bind_some]
  set u := s.authList.foldl expireAuth s
  obtain ⟨hm', -, hnd, hmem⟩ :=
    moves_expireAsocLoop env u.asocList u hw₁ hw₁.asocNodup fun _ hk => hk
  have hw₂ := wellFormed_moves hw₁ (hm' : Moves true u _)
  rw [expireAsocLoopChecked_eq env u.asocList u hw₁ hw₁.asocNodup fun _ hk => hk, Option.bind_some]
  exact foldlM_checked (fun _ _ hw hk => if_neg (hw.asocUsed hk)) (fun _ _ _ => moves_expireAsk env)
    _ _ hw₂ hnd fun j hj => (hmem j hj).2

/-- The counters count the lists, the records in the free queue are on neither of them, and
`expire_timeout_chk` looks at records in use only and never divides by zero. -/
structure ListsRight (s : Ap ι) : Prop where
  authCnt : s.authListCnt = s.authList.length
  asocCnt : s.asocListCnt = s.asocList.length
  free : ∀ k ∈ s.base.freeStaQueue, k ∉ s.authList ∧ k ∉ s.asocList
  tick : ∀ env, s.expireTimeoutChkChecked env = some (s.expireTimeoutChk env)

theorem WellFormed.listsRight (hw : WellFormed s) : ListsRight s where
  authCnt := hw.authCnt
  asocCnt := hw.asocCnt
  free := fun _ hk => ⟨fun hauth => hw.authUsed hauth hk, fun hasoc => hw.asocUsed hasoc hk⟩
  tick := expireTimeoutChkChecked_eq hw

end Ap

namespace Ap

variable {s t : Ap RecvId} {es : List ApEvent}

/-- The lists and their counters are right after every run. -/
theorem lists_apRun (hs : Started s) (hrun : runM apStep s es = some t) : ListsRight t :=
  (wellFormed_moves hs.wellFormed (moves_apRun hs hrun)).listsRight

theorem lists_sampleAsleep : ∃ t, runM apStep sampleAp sampleAsleep = some t ∧ ListsRight t := by
  have h : (runM apStep sampleAp sampleAsleep).isSome = true := by
    decide +kernel
  obtain ⟨t, ht⟩ := Option.isSome_iff_exists.mp h
  exact ⟨t, ht, lists_apRun started_sampleAp ht⟩

end Ap

/-! ## Association -/

/-- What a call must find for the list, the state and the id of its station to stay together. -/
def ApCall.AssocSafe (c : ApCall) : Prop :=
  (c.op = .reject → c.listed = false) ∧
    (c.op = .authAccept → ¬ (c.assocSuccess = true ∧ c.aid ≠ 0))

instance (c : ApCall) : Decidable c.AssocSafe := by
  unfold ApCall.AssocSafe
  infer_instance

namespace Ap

variable {ι : Type} [DecidableEq ι] {s s' : Ap ι} {k j : StaId} {auth : Bool}

/-- The station is on `asoc_list` exactly if its state and its id say that it is associated. -/
def AssocOk (s : Ap ι) (k : StaId) : Prop :=
  k ∈ s.asocList ↔ (s.sta k).assocSuccess = true ∧ (s.sta k).aid ≠ 0

theorem AssocOk.congr (h : AssocOk s j) (hlist : j ∈ s'.asocList ↔ j ∈ s.asocList)
    (haid : (s'.sta j).aid = (s.sta j).aid) (h14 : (s'.sta j).state[14] = (s.sta j).state[14]) :
    AssocOk s' j := by
  rw [AssocOk, hlist, ApSta.assocSuccess_eq, h14, haid, ← ApSta.assocSuccess_eq]
  exact h

/-- One record changes, and the list stays. -/
theorem AssocOk.update (h : AssocOk s j) {st : ApSta} (hlist : s'.asocList = s.asocList)
    (hsta : s'.sta = Function.update s.sta k st) (haid : st.aid = (s.sta k).aid)
    (h14 : st.state[14] = (s.sta k).state[14]) : AssocOk s' j := by
  refine h.congr (by rw [hlist]) ?_ ?_
  · rw [hsta]
    rcases eq_or_ne j k with rfl | hj
    · rw [Function.update_self, haid]
    · rw [Function.update_of_ne hj]
  · rw [hsta]
    rcases eq_or_ne j k with rfl | hj
    · rw [Function.update_self, h14]
    · rw [Function.update_of_ne hj]

/-- A station that is still there after a record was freed. -/
theorem AssocOk.free (h : s.Live j → AssocOk s j) (hlive : (s.rtwFreeStainfo k).Live j) :
    AssocOk (s.rtwFreeStainfo k) j := by
  obtain ⟨hlj, hjk⟩ := live_free.mp hlive
  obtain ⟨n, hsta⟩ := s.sta_free k
  refine (h hlj).congr (by rw [asocList_free]) ?_ ?_
  · rw [hsta, Function.update_of_ne hjk]
  · rw [hsta, Function.update_of_ne hjk]

/-- Outside of `OnAuth` every move keeps the list, the state and the id of a station together. -/
theorem assocOk_move (hw : WellFormed s) (h : s.Live j → AssocOk s j)
    (hlog : ∀ c ∈ s'.calls, c.AssocSafe) (hm : Move false s s') (hlive : s'.Live j) :
    AssocOk s' j := by
  cases hm with
  | quiet hq =>
    obtain ⟨hstate, haid, -⟩ := core_fields (hq.core j)
    refine (h ((live_congr hq.stations).mp hlive)).congr (by rw [hq.asocList]) haid ?_
    rw [hstate]
  | note | authAdd | authDel | class2 => exact (h hlive).congr Iff.rfl rfl rfl
  | @alloc _ k a ha =>
    have hlj := (live_alloc ha).mp hlive
    have hdead := hw.not_live_alloc ha
    obtain ⟨base, -, rfl⟩ := alloc_eq ha
    rcases eq_or_ne j k with rfl | hj
    · refine ⟨fun hmem => absurd (hw.asocLive j hmem) hdead, fun hc => absurd ?_ hc.2⟩
      simp [record, updateSta, initApSta]
    · refine (h (hlj.resolve_right hj)).congr Iff.rfl ?_ ?_
      · simp [record, updateSta, hj]
      · simp [record, updateSta, hj]
  | free => exact AssocOk.free h hlive
  | @remove k hasoc =>
    obtain ⟨st, hst, hcore, -, -, h14⟩ := (s.asocUnlink k).apLeave_sta k
    obtain ⟨hlj, hjk⟩ := live_free.mp hlive
    refine AssocOk.free (fun hu => ?_) hlive
    refine (h hu).congr ?_ ?_ ?_
    · change j ∈ s.asocList.filter (· ≠ k) ↔ _
      simp [hjk]
    · rw [hst, Function.update_of_ne hjk]
      rfl
    · rw [hst, Function.update_of_ne hjk]
      rfl
  | reauth hauth => simp at hauth
  | @mark k v _ hassoc _ =>
    refine (h hlive).update rfl rfl rfl ?_
    rw [← hasBits_assocSuccess, hassoc, ApSta.assocSuccess_eq]
  | @authDone k clr _ hclr =>
    refine (h hlive).update rfl rfl rfl ?_
    rcases hclr with rfl | rfl
    · simp [wifiFwAuthNull, wifiFwAuthSuccess]
    · simp [wifiFwAuthState, wifiFwAuthSuccess]
  | @refuse t k _ hreq =>
    obtain ⟨c, hc⟩ := hreq.refused
    obtain ⟨st, hsta, hcore, -⟩ := hc.sta
    have hmem : c ∈ (t.assocReqFail k).calls := by
      rw [hc.calls]
      exact List.mem_cons_self
    have hnot : k ∉ s.asocList := by
      have hlisted := (hlog c hmem).1 hc.op
      rw [hc.listed] at hlisted
      simpa using hlisted
    rcases eq_or_ne j k with rfl | hj
    · rw [AssocOk, hc.tables.asocList, hsta, Function.update_self, (core_eq hcore).2.1]
      simp [hnot]
    · refine (h ((live_congr hc.tables.stations).mp hlive)).congr (by rw [hc.tables.asocList]) ?_ ?_
      · rw [hsta, Function.update_of_ne hj]
      · rw [hsta, Function.update_of_ne hj]
  | @accept t k _ hreq hroom =>
    obtain ⟨a, ha⟩ := hreq.accepted hroom
    obtain ⟨st, hsta, hcore, -, -, h14⟩ := ha.sta
    have hpos : 0 < a := by
      rcases ha.staAid with ⟨hpos, -⟩ | ⟨-, hpos, -⟩
      · exact hpos
      · exact hpos
    rcases eq_or_ne j k with rfl | hj
    · rw [AssocOk, ha.asocList, mem_asocAdd, hsta, Function.update_self, ApSta.assocSuccess_eq, h14,
        (core_eq hcore).2.1]
      simp [hpos.ne']
    · refine (h ((live_congr ha.stations).mp hlive)).congr ?_ ?_ ?_
      · rw [ha.asocList, mem_asocAdd]
        simp [hj]
      · rw [hsta, Function.update_of_ne hj]
      · rw [hsta, Function.update_of_ne hj]
  | stop =>
    refine (h hlive).update rfl rfl rfl ?_
    simp [record, wifiSleepState]
  | buffer | bufferGroup | setPending => exact (h hlive).update rfl rfl rfl rfl
  | @wakeup k _ _ =>
    obtain ⟨st, v, hcore, -, -, h14, he⟩ := wakeupSta_eq (hw.counted k)
    rw [he] at hlive ⊢
    exact (h hlive).update rfl rfl (core_eq hcore).2.1 (by rw [(core_eq hcore).1, h14])
  | wakeupGroup =>
    rcases wakeupGroup_cases hw with he | ⟨b, st, -, -, hcore, he⟩
    · rw [he] at hlive ⊢
      exact h hlive
    · rw [he] at hlive ⊢
      exact (h hlive).update rfl rfl (core_eq hcore).2.1 (by rw [(core_eq hcore).1])
  | @deliver k _ _ =>
    obtain ⟨st, q, clr, hcore, he⟩ := xmitDeliveryEnabledFrames_eq (hw.counted k)
    rw [he] at hlive ⊢
    exact (h hlive).update rfl rfl (core_eq hcore).2.1 (by rw [(core_eq hcore).1])
  | @psPoll k priority _ =>
    rcases psPoll_cases (hw.counted k) priority with he | ⟨st, v, q, tim, hcore, -, -,
      h14, -, -, he⟩
    · rw [he] at hlive ⊢
      exact h hlive
    · rw [he] at hlive ⊢
      exact (h hlive).update rfl rfl (core_eq hcore).2.1 (by rw [(core_eq hcore).1, h14])
  | aliveChk =>
    refine (h hlive).update rfl rfl rfl ?_
    simp [record, wifiStaAliveChkState]
  | txBeacon =>
    rcases txBeaconHdl_cases hw with he | ⟨b, st, -, -, -, hcore, he⟩
    · rw [he] at hlive ⊢
      exact h hlive
    · rw [he] at hlive ⊢
      exact (h hlive).update rfl rfl (core_eq hcore).2.1 (by rw [(core_eq hcore).1])
  | hiQueue =>
    rcases rtwChkHiQueueHdl_cases hw _ with he | ⟨b, -, -, he⟩
    · rw [he] at hlive ⊢
      exact h hlive
    · rw [he] at hlive ⊢
      exact (h hlive).congr Iff.rfl rfl rfl

theorem assocOk_moves (hw : WellFormed s) (h : s.Live j → AssocOk s j)
    (hlog : ∀ c ∈ s'.calls, c.AssocSafe) (hm : Moves false s s') : s'.Live j → AssocOk s' j := by
  induction hm with
  | refl => exact h
  | @tail u v hu hm ih =>
    have hw' := wellFormed_moves hw hu
    have hsub := (calls_move hw' hm).subset
    exact assocOk_move hw' (ih fun c hc => hlog c (hsub hc)) hlog hm

/-! ### Authentication frames -/

/-- An exchange ends with the release of the record or with an answer that accepts the frame. -/
theorem authExchange_cases (s : Ap ι) (xmit : Bool) (k : StaId) (sa : MacAddr) (f : RecvFrame)
    (algorithm seq mode : ℕ) (hasoc : k ∉ s.asocList) :
    ∃ u : Ap ι, k ∉ u.asocList ∧
      ((∃ status, s.authExchange xmit k sa f algorithm seq mode = u.authFail xmit
      (some k) sa status) ∨
        ∃ n, s.authExchange xmit k sa f algorithm seq mode = u.authAccept xmit k n) := by
  unfold authExchange
  extract_lets u v
  have hu : u.asocList = s.asocList := by
    unfold u
    split <;> rfl
  have hv : k ∉ v.asocList := by
    have he : v.asocList = u.asocList := by
      unfold v
      split <;> rfl
    rw [he, hu]
    exact hasoc
  clear_value v
  split
  · exact ⟨v, hv, Or.inl ⟨_, rfl⟩⟩
  split
  · split
    · refine ⟨_, ?_, Or.inr ⟨_, rfl⟩⟩
      exact hv
    · exact ⟨v, hv, Or.inl ⟨_, rfl⟩⟩
  split
  · refine ⟨_, ?_, Or.inr ⟨_, rfl⟩⟩
    exact hv
  split
  · unfold authChallenge
    split
    · exact ⟨v, hv, Or.inl ⟨_, rfl⟩⟩
    split
    · exact ⟨v, hv, Or.inl ⟨_, rfl⟩⟩
    split
    · refine ⟨_, ?_, Or.inr ⟨_, rfl⟩⟩
      exact hv
    · exact ⟨v, hv, Or.inl ⟨_, rfl⟩⟩
  · exact ⟨v, hv, Or.inl ⟨_, rfl⟩⟩

/-- The record of a station whose frame is refused is freed. -/
theorem not_live_authFail (s : Ap ι) (xmit : Bool) (k : StaId) (sa : MacAddr) (status : ℕ) :
    ¬ (s.authFail xmit (some k) sa status).Live k := by
  have hb : (s.authFail xmit (some k) sa status).base = (s.rtwFreeStainfo k).base := by
    unfold authFail issueAuth
    dsimp only
    split <;> rfl
  intro hlive
  have hfree : (s.rtwFreeStainfo k).Live k := by
    rwa [Live, hb] at hlive
  exact (live_free.mp hfree).2 rfl

/-- What an answer that accepts a frame leaves alone, and the entry of the log. -/
theorem authAccept_frame (s : Ap ι) (xmit : Bool) (k : StaId) (n : ℕ) :
    (s.authAccept xmit k n).asocList = s.asocList ∧
      ((s.authAccept xmit k n).sta k).core = (s.sta k).core ∧
      s.callOf .authAccept k ∈ (s.authAccept xmit k n).calls := by
  unfold authAccept issueAuth
  extract_lets u v
  have hu : v.asocList = s.asocList ∧ (v.sta k).core = (s.sta k).core ∧
      s.callOf .authAccept k ∈ v.calls := by
    have hcore : (u.sta k).core = (s.sta k).core := by
      simp only [u, updateSta, Function.update_self]
      rfl
    unfold v
    split
    · exact ⟨rfl, hcore, List.mem_cons_self⟩
    · exact ⟨rfl, hcore, List.mem_cons_self⟩
  split
  · refine ⟨hu.1, ?_, hu.2.2⟩
    rw [← hu.2.1]
    simp only [updateSta, Function.update_self]
    rfl
  · exact hu

theorem assocOk_authExchange (hw : WellFormed s) (xmit : Bool) (sa : MacAddr) (f : RecvFrame)
    (algorithm seq mode : ℕ) (hlive : s.Live k) (hasoc : k ∉ s.asocList)
    (h : ∀ j, j ≠ k → s.Live j → AssocOk s j)
    (hlog : ∀ c ∈ (s.authExchange xmit k sa f algorithm seq mode).calls, c.AssocSafe)
    (hlj : (s.authExchange xmit k sa f algorithm seq mode).Live j) :
    AssocOk (s.authExchange xmit k sa f algorithm seq mode) j := by
  rcases eq_or_ne j k with rfl | hj
  · obtain ⟨u, hu, ⟨status, he⟩ | ⟨n, he⟩⟩ :=
      s.authExchange_cases xmit j sa f algorithm seq mode hasoc
    · rw [he] at hlj
      exact absurd hlj (u.not_live_authFail xmit j sa status)
    · obtain ⟨hl, hcore, hmem⟩ := u.authAccept_frame xmit j n
      rw [he] at hlog ⊢
      have hno := (hlog _ hmem).2 rfl
      obtain ⟨hstate, haid, -⟩ := core_fields hcore
      rw [AssocOk, hl, ApSta.assocSuccess_eq, hstate, haid, ← ApSta.assocSuccess_eq]
      exact ⟨fun hmem => absurd hmem hu, fun hc => absurd hc hno⟩
  · exact assocOk_moves hw (h j hj) hlog
      (moves_authExchange xmit sa f algorithm seq mode hlive hasoc) hlj

theorem assocOk_onAuth (hw : WellFormed s) (xmit : Bool) (f : RecvFrame)
    (h : ∀ j, s.Live j → AssocOk s j) (hlog : ∀ c ∈ (s.onAuth xmit f).calls, c.AssocSafe)
    (j : StaId)
    (hlj : (s.onAuth xmit f).Live j) : AssocOk (s.onAuth xmit f) j := by
  rcases s.onAuth_cases xmit f with he | ⟨sa, status, he⟩ | ⟨sa, u, status, hu, he⟩ |
    ⟨sa, k, u, algorithm, seq, mode, hu, he⟩
  · rw [he] at hlj ⊢
    exact h j hlj
  · rw [he] at hlog hlj ⊢
    exact assocOk_moves hw (h j) hlog moves_authFail_none hlj
  · rw [he] at hlog hlj ⊢
    cases authStation_none hu
    exact assocOk_moves hw (h j) hlog moves_authFail_none hlj
  · rw [he] at hlog hlj ⊢
    have hw' := wellFormed_moves hw (moves_authStation hw hu)
    obtain ⟨hst, hlive, hasoc⟩ := @authStation_cases ι _ s u k false hw sa hu
    have hm : Moves false u (u.authExchange xmit k sa f algorithm seq mode) :=
      moves_authExchange xmit sa f algorithm seq mode hlive hasoc
    refine assocOk_authExchange hw' xmit sa f algorithm seq mode hlive hasoc
      (fun i hi hli => ?_) hlog hlj
    rcases hst with ⟨-, rfl⟩ | hst
    · obtain ⟨hb, hst, hl⟩ := s.reauth_frame k
      refine (h i ?_).congr ?_ ?_ ?_
      · rwa [Live, hb] at hli
      · rw [hl]
        exact and_iff_left hi
      · rw [hst]
      · rw [hst]
    · exact assocOk_moves hw (h i) (fun c hc => hlog c ((calls_moves hw' hm).subset hc)) hst hli

end Ap

namespace Ap

variable {s t : Ap RecvId} {es : List ApEvent}

/-- If no frame is accepted that authenticates an associated station, and no request of a station
on `asoc_list` is refused, then after every run `asoc_list` has exactly the stations whose state
and id say that they are associated. -/
theorem assocOk_apRun (hs : Started s) (hrun : runM apStep s es = some t)
    (hlog : ∀ c ∈ t.calls, c.AssocSafe) :
    ∀ k, t.Live k → (k ∈ t.asocList ↔ (t.sta k).assocSuccess = true ∧ (t.sta k).aid ≠ 0) := by
  refine invariant_apEvents (I := fun u => ∀ k, u.Live k → AssocOk u k) hs (fun k _ => ?_)
    (fun u e v hw hu hP hv hm => ?_) hrun hlog
  · rw [AssocOk, hs.asocList, hs.sta]
    simp [initApSta]
  · cases e with
    | auth xmit f =>
      cases hv
      exact assocOk_onAuth hw xmit f hu hP
    | assocReq | deauth | freeStainfo | rx | back | timeout | tick | xmit | sent | txBeacon
    | chkHiQueue => exact fun k => assocOk_moves hw (hu k) hP hm

theorem assocOk_sampleJoin : ∃ t, runM apStep sampleAp sampleJoin = some t ∧ t.asocList = [1] ∧
    ∀ k, t.Live k → (k ∈ t.asocList ↔ (t.sta k).assocSuccess = true ∧ (t.sta k).aid ≠ 0) := by
  have h := @assocOk_apRun sampleAp _ sampleJoin started_sampleAp rfl (by decide)
  exact ⟨_, rfl, by decide, h⟩

/-- A refused request leaves the station on `asoc_list` without an id, and an authentication frame
takes an associated station off the list. -/
theorem not_assocOk_sample :
    (∃ t, runM apStep sampleAp (sampleJoin ++ [.assocReq (sampleAssocReq Adapter.sampleTa false)])
      = some t ∧ t.Live 1 ∧ 1 ∈ t.asocList ∧ (t.sta 1).aid = 0 ∧ (t.sta 1).assocSuccess = false) ∧
    ∃ t, runM apStep sampleAp (sampleJoin ++ [.auth true (sampleAuth Adapter.sampleTa)]) = some t ∧
      t.Live 1 ∧ 1 ∉ t.asocList ∧ (t.sta 1).aid = 1 ∧ (t.sta 1).assocSuccess = true := by
  refine ⟨⟨_, rfl, ⟨wifiMacHash Adapter.sampleTa, ?_⟩, ?_, ?_, ?_⟩, _, rfl,
    ⟨wifiMacHash Adapter.sampleTa, ?_⟩, ?_, ?_, ?_⟩
  all_goals decide +kernel

end Ap

end Rtl8188eu
