import Rtl8188eu.Runs
import Rtl8188eu.P2p

/-!
# The site survey

`rtw_sitesurvey_cmd` queues a request with SSIDs and channels, `sitesurvey_cmd_hdl` chooses the
channels to visit from it and from the channel set of the regulatory domain, and `site_survey`
visits them one by one as the survey timer goes off. On an active channel it sends probe requests.

The channels are filtered twice. `rtw_sitesurvey_cmd` leaves a gap for an entry it does not keep but
counts the kept ones only, and `rtw_scan_ch_decision` walks that many entries, gaps included
(`covers_iff`). The second filter also ands the flags of a passive channel with the passive bit
where it should set the bit (`noPassiveProbe_iff`).
-/

namespace Rtl8188eu

open Runs

/-! ## The channel set -/

/-- `enum rt_scan_type`. -/
inductive ScanType
  | passive | active | mix
  deriving DecidableEq, Repr

/-- `struct rt_channel_info`, without the packet count. -/
structure ChannelInfo where
  channelNum : ℕ
  scanType : ScanType
  deriving DecidableEq, Repr

/-- The table `RTW_ChannelPlan2G`. -/
def rtwChannelPlan2G : List (List ℕ) :=
  [[1, 2, 3, 4, 5, 6, 7, 8, 9, 10, 11, 12, 13], [1, 2, 3, 4, 5, 6, 7, 8, 9, 10, 11, 12, 13],
    [1, 2, 3, 4, 5, 6, 7, 8, 9, 10, 11], [1, 2, 3, 4, 5, 6, 7, 8, 9, 10, 11, 12, 13, 14],
    [10, 11, 12, 13], []]

/-- The table `RTW_ChannelPlanMap`. -/
def rtwChannelPlanMap : List ℕ :=
  [2, 2, 1, 1, 1, 3, 3, 1, 3, 3, 0, 2, 1, 2, 2, 2, 1, 2, 1, 0, 2, 0, 0, 3, 5, 2, 0, 0, 0, 0, 0, 5,
    0, 1, 2, 3, 4, 2, 0, 3, 0, 0, 0, 0, 0, 0, 0, 0, 0, 0, 0, 0, 2, 0, 0, 3, 3, 2, 0, 0, 0, 0, 0, 0, 2, 3]

/-- The scan type that `init_channel_set` gives a channel of the plan. -/
def planScanType (channelPlan index2G channelNum : ℕ) : ScanType :=
  if channelPlan = 0x09 ∨ channelPlan = 0x41 then if channelNum ≤ 11 then .active else .passive
  else if channelPlan = 0x0a ∨ index2G = 0 then if channelNum ≤ 11 then .active else .passive
  else .active

/-- `init_channel_set` with `WIRELESS_11G`. -/
def initChannelSet (channelPlan : ℕ) : List ChannelInfo :=
  if 0x42 ≤ channelPlan ∧ channelPlan ≠ 0x7f then []
  else
    let index2G := if channelPlan = 0x7f then 3 else rtwChannelPlanMap.getD channelPlan 0
    (rtwChannelPlan2G.getD index2G []).map fun n => ⟨n, planScanType channelPlan index2G n⟩

/-- What every channel set of the driver is like : at most `MAX_CHANNEL_NUM` channels, which are
bytes, different ones, and each larger than its index. -/
structure IsChannelSet (set : List ChannelInfo) : Prop where
  len : set.length ≤ 14
  byte : ∀ c ∈ set, c.channelNum < 256
  fits : ∀ (i : ℕ) (h : i < set.length), i < set[i].channelNum
  nodup : (set.map ChannelInfo.channelNum).Nodup

theorem getD_rtwChannelPlan2G_mem (i : ℕ) : rtwChannelPlan2G.getD i [] ∈ rtwChannelPlan2G := by
  by_cases hi : i < rtwChannelPlan2G.length
  · rw [← List.getElem_eq_getD (h := hi)]
    exact List.getElem_mem hi
  · rw [List.getD_eq_getElem?_getD, List.getElem?_eq_none (by omega)]
    decide

theorem isChannelSet_initChannelSet (channelPlan : ℕ) :
    IsChannelSet (initChannelSet channelPlan) := by
  have hplans : ∀ l ∈ rtwChannelPlan2G,
      l.length ≤ 14 ∧ (∀ n ∈ l, n < 256) ∧ (∀ (i : ℕ) (h : i < l.length), i < l[i]) ∧ l.Nodup := by
    decide
  unfold initChannelSet
  dsimp only
  split_ifs
  · exact ⟨by simp, by simp, by simp, by simp⟩
  all_goals
    obtain ⟨hlen, hbyte, hfits, hnodup⟩ := hplans _ (getD_rtwChannelPlan2G_mem _)
    refine ⟨by simpa using hlen, by simpa using hbyte, ?_, ?_⟩
    · intro i h
      simpa using hfits i (by simpa using h)
    · simpa [List.map_map, Function.comp_def] using hnodup

/-- `channel_set` with its `max_chan_nums` channels. A full array has no terminator, and the search
then goes on in what stands behind it up to the next zero byte (`behind`). -/
structure ChannelSet where
  set : List ChannelInfo
  behind : List ChannelInfo
  isSet : IsChannelSet set
  short : set.length < 14 → behind = []
  behindByte : ∀ c ∈ behind, c.channelNum ≠ 0 ∧ c.channelNum < 256

/-- The scan type of a channel in the set is passive. -/
def ChannelSet.Passive (cs : ChannelSet) (ch : ℕ) : Prop :=
  ∃ c ∈ cs.set, c.channelNum = ch ∧ c.scanType = .passive

/-- A channel is in the set. -/
def ChannelSet.Has (cs : ChannelSet) (ch : ℕ) : Prop := ch ∈ cs.set.map ChannelInfo.channelNum

instance (cs : ChannelSet) (ch : ℕ) : Decidable (cs.Passive ch) :=
  inferInstanceAs (Decidable (∃ c ∈ cs.set, c.channelNum = ch ∧ c.scanType = .passive))

instance (cs : ChannelSet) (ch : ℕ) : Decidable (cs.Has ch) :=
  inferInstanceAs (Decidable (ch ∈ cs.set.map ChannelInfo.channelNum))

/-- `rtw_ch_set_search_ch`, with the entry in place of its index. -/
def rtwChSetSearchCh (cs : ChannelSet) (ch : ℕ) : Option ChannelInfo :=
  match (cs.set ++ cs.behind).findIdx? fun c => c.channelNum = ch with
  | none => none
  | some i => if ch ≤ i then none else (cs.set ++ cs.behind)[i]?

/-! ## The request -/

/-- `RTW_SSID_SCAN_AMOUNT`. -/
def rtwSsidScanAmount : ℕ := 9

/-- `RTW_CHANNEL_SCAN_AMOUNT`. -/
def rtwChannelScanAmount : ℕ := 51

/-- `struct rtw_ieee80211_channel`. -/
structure ScanChannel where
  hwValue : ℕ
  flags : ℕ
  deriving DecidableEq, Repr

/-- Neither zero nor marked with `RTW_IEEE80211_CHAN_DISABLED`. -/
def ScanChannel.Enabled (c : ScanChannel) : Prop := c.hwValue ≠ 0 ∧ c.flags &&& 1 = 0

instance (c : ScanChannel) : Decidable c.Enabled :=
  inferInstanceAs (Decidable (c.hwValue ≠ 0 ∧ c.flags &&& 1 = 0))

/-- Marked with `RTW_IEEE80211_CHAN_PASSIVE_SCAN`. -/
def ScanChannel.MarkedPassive (c : ScanChannel) : Prop := c.flags &&& 2 ≠ 0

instance (c : ScanChannel) : Decidable c.MarkedPassive := inferInstanceAs (Decidable (c.flags &&& 2 ≠ 0))

/-- `struct sitesurvey_parm`. An SSID is its bytes, so one of length zero is `[]`. -/
structure SitesurveyParm where
  scanMode : ScanType
  ssid : List (List UInt8)
  chNum : ℕ
  ch : List ScanChannel
  chLen : ch.length ≤ rtwChannelScanAmount

/-- The command that `rtw_sitesurvey_cmd` queues. An entry that is not kept leaves a zeroed one. -/
def rtwSitesurveyCmd (scanMode : ScanType) (ssid : List (List UInt8)) (ch : List ScanChannel) :
    SitesurveyParm where
  scanMode := scanMode
  ssid := ssid.take rtwSsidScanAmount
  chNum := (ch.take rtwChannelScanAmount).countP fun c => c.Enabled
  ch :=
    ((ch.take rtwChannelScanAmount).map fun c => if c.Enabled then c else ⟨0, 0⟩) ++
      List.replicate (rtwChannelScanAmount - ch.length) ⟨0, 0⟩
  chLen := by
    simp only [List.length_append, List.length_map, List.length_take, List.length_replicate]
    omega

/-- What `rtw_scan_ch_decision` makes of an entry of the request. -/
def decideCh (cs : ChannelSet) (c : ScanChannel) : Option ScanChannel :=
  if c.Enabled then
    (rtwChSetSearchCh cs c.hwValue).map fun i =>
      if i.scanType = .passive then { c with flags := c.flags &&& 2 } else c
  else none

/-- `rtw_scan_ch_decision`. -/
def rtwScanChDecision (cs : ChannelSet) (inCh : List ScanChannel) : List ScanChannel :=
  let out := (inCh.filterMap (decideCh cs)).take rtwChannelScanAmount
  if out = [] then cs.set.map fun c => ⟨c.channelNum, 0⟩ else out

/-! ## The scan -/

/-- What the survey does on the air. -/
inductive SurveyAct
  | select (ch : ℕ)
  | probereq (ch : ℕ) (ssid : Option (List UInt8))
  | probereqP2p (ch : ℕ)
  deriving DecidableEq

/-- `enum SCAN_STATE`. -/
inductive ScanState
  | disable | start | txnull | process | complete
  deriving DecidableEq, Repr

/-- `struct ss_res`, with what was done on the air so far. -/
structure SsRes where
  state : ScanState
  channelIdx : ℤ
  scanMode : ScanType
  ssid : List (List UInt8)
  ch : List ScanChannel
  acts : List SurveyAct

/-- What the handler reads elsewhere : the channels of a P2P operating-channel or social-channel
scan, the P2P state, `rtw_p2p_findphase_ex_is_needed`, the antenna diversity, the association. -/
structure SurveyEnv where
  opCh : Option (List ℕ)
  socialChan : Option (List ℕ)
  p2pState : P2pState
  findphaseExNeeded : Bool
  antDiv : Bool
  associated : Bool

/-- The P2P states in which the probe requests are those of P2P. -/
def SurveyEnv.p2pScan (env : SurveyEnv) : Prop := env.p2pState = .scan ∨ env.p2pState = .findPhaseSearch

instance (env : SurveyEnv) : Decidable env.p2pScan :=
  inferInstanceAs (Decidable (env.p2pState = .scan ∨ env.p2pState = .findPhaseSearch))

namespace SsRes

/-- The channel that `site_survey` goes to, 0 for none, and how. The index is -1 only until the
timer goes off again. -/
def surveyChannel (cs : ChannelSet) (env : SurveyEnv) (s : SsRes) : ℕ × ScanType :=
  match env.opCh, env.socialChan with
  | some l, _ => (l.getD s.channelIdx.toNat 0, .active)
  | none, some l =>
    let ch := l.getD s.channelIdx.toNat 0
    (ch, ((rtwChSetSearchCh cs ch).map ChannelInfo.scanType).getD .active)
  | none, none =>
    match s.ch[s.channelIdx.toNat]? with
    | some c => (c.hwValue % 256, if c.MarkedPassive then .passive else .active)
    | none => (0, .passive)

/-- The probe requests on an active channel. -/
def probes (s : SsRes) (ch : ℕ) : List SurveyAct :=
  (s.ssid.filter (· ≠ [])).flatMap (fun ssid =>
    [SurveyAct.probereq ch (some ssid), SurveyAct.probereq ch (some ssid)]) ++
  if s.scanMode = .active then [.probereq ch none, .probereq ch none] else []

/-- `site_survey`. -/
def siteSurvey (cs : ChannelSet) (env : SurveyEnv) (s : SsRes) : SsRes :=
  let ch := (s.surveyChannel cs env).1
  if ch ≠ 0 then
    let acts :=
      if (s.surveyChannel cs env).2 = .active then
        if env.p2pScan then [.probereqP2p ch, .probereqP2p ch, .probereqP2p ch] else s.probes ch
      else []
    { s with acts := s.acts ++ .select ch :: acts }
  else if env.findphaseExNeeded ∧ ¬ (env.p2pScan ∧ env.opCh.isSome) then { s with state := .disable }
  else if env.antDiv then { s with channelIdx := -1 }
  else { s with state := .disable }

/-- The part of `sitesurvey_cmd_hdl` for the first command of a scan. -/
def startScan (cs : ChannelSet) (env : SurveyEnv) (parm : SitesurveyParm) (s : SsRes) : SsRes :=
  { s with
    state := if env.associated then .txnull else .start
    channelIdx := 0
    scanMode := parm.scanMode
    ssid := parm.ssid
    ch := rtwScanChDecision cs (parm.ch.take parm.chNum) }

/-- `sitesurvey_cmd_hdl`. -/
def sitesurveyCmdHdl (cs : ChannelSet) (env : SurveyEnv) (parm : SitesurveyParm) (s : SsRes) : SsRes :=
  if s.state = .disable ∧ env.associated then s.startScan cs env parm
  else
    let s := if s.state = .disable then s.startScan cs env parm else s
    let s := if s.state = .start ∨ s.state = .txnull then { s with state := .process } else s
    s.siteSurvey cs env

/-- The index after `survey_timer_hdl` : the next channel, or the end if the scan is to be
aborted. -/
def nextIdx (env : SurveyEnv) (scanAbort : Bool) (s : SsRes) : ℤ :=
  if scanAbort then if env.p2pState ≠ .none then 3 else s.ch.length
  else if s.state = .process then s.channelIdx + 1 else s.channelIdx

/-- `survey_timer_hdl` with the command it queues. `alloc` says whether it got the memory for it. -/
def surveyTimerHdl (cs : ChannelSet) (env : SurveyEnv) (scanAbort alloc : Bool) (s : SsRes) : SsRes :=
  if s.state = .disable ∨ s.state = .start then s
  else
    let s := { s with channelIdx := s.nextIdx env scanAbort }
    if alloc then s.sitesurveyCmdHdl cs env ⟨.passive, [], 0, [], by simp⟩ else s

/-- No scan yet. -/
def idle : SsRes where
  state := .disable
  channelIdx := 0
  scanMode := .passive
  ssid := []
  ch := []
  acts := []

end SsRes

/-- One expiry of the survey timer. -/
structure SurveyStep where
  env : SurveyEnv
  scanAbort : Bool
  alloc : Bool

/-- A scan : the command of the request, then expiries of the timer. -/
def scanRun (cs : ChannelSet) (env : SurveyEnv) (parm : SitesurveyParm) (steps : List SurveyStep) : SsRes :=
  run (fun s (st : SurveyStep) => s.surveyTimerHdl cs st.env st.scanAbort st.alloc)
    (SsRes.idle.sitesurveyCmdHdl cs env parm) steps

/-! ## The choice of the channels -/

section Choice

variable {cs : ChannelSet}

theorem rtwChSetSearchCh_some {ch : ℕ} {c : ChannelInfo} (h : rtwChSetSearchCh cs ch = some c) :
    c.channelNum = ch ∧ c ∈ cs.set ++ cs.behind := by
  unfold rtwChSetSearchCh at h
  split at h
  · exact nomatch h
  · rename_i i hi
    split_ifs at h
    have hlt : i < (cs.set ++ cs.behind).length := (List.findIdx?_eq_some_iff_getElem.mp hi).1
    have hp := (List.findIdx?_eq_some_iff_getElem.mp hi).2.1
    rw [List.getElem?_eq_getElem hlt] at h
    cases h
    exact ⟨of_decide_eq_true hp, List.getElem_mem hlt⟩

theorem rtwChSetSearchCh_lt {ch : ℕ} {c : ChannelInfo} (h : rtwChSetSearchCh cs ch = some c) :
    ch < 256 := by
  obtain ⟨rfl, hmem⟩ := rtwChSetSearchCh_some h
  rcases List.mem_append.mp hmem with hc | hc
  · exact cs.isSet.byte c hc
  · exact (cs.behindByte c hc).2

/-- The search finds the channels of the set, because their index is smaller than they are. -/
theorem isSome_search_of_has {ch : ℕ} (h : cs.Has ch) : (rtwChSetSearchCh cs ch).isSome := by
  obtain ⟨c, hc, rfl⟩ := List.mem_map.mp h
  obtain ⟨k, hk, hck⟩ := List.getElem_of_mem hc
  cases hf : (cs.set ++ cs.behind).findIdx? fun x => x.channelNum = c.channelNum with
  | none =>
    have hall := List.findIdx?_eq_none_iff.mp hf c (List.mem_append_left _ hc)
    simp at hall
  | some i =>
    obtain ⟨hlt, hp, hfirst⟩ := List.findIdx?_eq_some_iff_getElem.mp hf
    have hik : i ≤ k := by
      by_contra hki
      have hno := hfirst k (by omega)
      rw [List.getElem_append_left hk, hck] at hno
      simp at hno
    have hset : i < cs.set.length := by omega
    have hnum : cs.set[i].channelNum = c.channelNum := by
      rw [List.getElem_append_left hset] at hp
      exact of_decide_eq_true hp
    have hfit := cs.isSet.fits i hset
    unfold rtwChSetSearchCh
    rw [hf]
    dsimp only
    rw [if_neg (by omega), List.getElem?_eq_getElem hlt]
    rfl

/-- The entry of the request is one that `rtw_scan_ch_decision` takes. -/
def Taken (cs : ChannelSet) (c : ScanChannel) : Prop := c.Enabled ∧ (rtwChSetSearchCh cs c.hwValue).isSome

instance (c : ScanChannel) : Decidable (Taken cs c) :=
  inferInstanceAs (Decidable (c.Enabled ∧ (rtwChSetSearchCh cs c.hwValue).isSome))

/-- The flags change, but the passive bit and the channel stay. -/
theorem decideCh_eq_some {c c' : ScanChannel} (h : decideCh cs c = some c') :
    Taken cs c ∧ c'.hwValue = c.hwValue ∧ (c'.MarkedPassive ↔ c.MarkedPassive) := by
  unfold decideCh at h
  split_ifs at h with hen
  obtain ⟨i, hi, rfl⟩ := Option.map_eq_some_iff.mp h
  refine ⟨⟨hen, by rw [hi]; rfl⟩, ?_, ?_⟩
  · split_ifs <;> rfl
  · split_ifs
    · simp only [ScanChannel.MarkedPassive, Nat.and_assoc, Nat.and_self]
    · exact Iff.rfl

theorem isSome_decideCh {c : ScanChannel} : (decideCh cs c).isSome ↔ Taken cs c := by
  unfold decideCh Taken
  split_ifs with hen <;> simp [hen]

/-- The channels of the entries that are taken, in order. -/
theorem map_hwValue_filterMap (l : List ScanChannel) :
    (l.filterMap (decideCh cs)).map ScanChannel.hwValue =
      (l.filter (Taken cs)).map ScanChannel.hwValue := by
  induction l with
  | nil => rfl
  | cons c l ih =>
    cases hc : decideCh cs c with
    | none =>
      have hno : ¬ Taken cs c := by rw [← isSome_decideCh, hc]; simp
      simp [hc, hno, ih]
    | some c' =>
      obtain ⟨hyes, hhw, -⟩ := decideCh_eq_some hc
      simp [hc, hyes, ih, hhw]

theorem decideCh_zeroed (c : ScanChannel) :
    decideCh cs (if c.Enabled then c else ⟨0, 0⟩) = decideCh cs c := by
  split_ifs with hen
  · rfl
  · have hzero : ¬ (⟨0, 0⟩ : ScanChannel).Enabled := by decide
    rw [decideCh, decideCh, if_neg hzero, if_neg hen]

/-- Only as many entries are walked as were kept. -/
theorem filterMap_rtwSitesurveyCmd (scanMode : ScanType) (ssid : List (List UInt8))
    (ch : List ScanChannel) :
    ((rtwSitesurveyCmd scanMode ssid ch).ch.take
    (rtwSitesurveyCmd scanMode ssid ch).chNum).filterMap
      (decideCh cs) = (ch.take (rtwSitesurveyCmd scanMode ssid ch).chNum).filterMap
      (decideCh cs) := by
  have hle : (rtwSitesurveyCmd scanMode ssid ch).chNum ≤ (ch.take rtwChannelScanAmount).length :=
    List.countP_le_length
  generalize hn : (rtwSitesurveyCmd scanMode ssid ch).chNum = n at hle ⊢
  have h51 : n ≤ rtwChannelScanAmount := hle.trans (by simp)
  rw [rtwSitesurveyCmd, List.take_append_of_le_length (by simpa using hle), ← List.map_take,
    List.take_take, Nat.min_eq_left h51, List.filterMap_map]
  exact congrArg (fun f => (ch.take n).filterMap f) (funext decideCh_zeroed)

/-- The entries that a scan of the request visits. -/
def toVisit (cs : ChannelSet) (parm : SitesurveyParm) : List ScanChannel :=
  rtwScanChDecision cs (parm.ch.take parm.chNum)

theorem toVisit_eq (cs : ChannelSet) (parm : SitesurveyParm) :
    toVisit cs parm =
      if (parm.ch.take parm.chNum).filterMap (decideCh cs) = [] then
        cs.set.map fun c => ⟨c.channelNum, 0⟩
      else (parm.ch.take parm.chNum).filterMap (decideCh cs) := by
  have hlen : ((parm.ch.take parm.chNum).filterMap (decideCh cs)).length ≤
    rtwChannelScanAmount := by
    refine (List.length_filterMap_le _ _).trans ?_
    rw [List.length_take]
    exact (Nat.min_le_right _ _).trans parm.chLen
  rw [toVisit, rtwScanChDecision, List.take_of_length_le hlen]

/-- A visited channel is a byte that is not zero. -/
theorem hwValue_toVisit {parm : SitesurveyParm} {c : ScanChannel} (h : c ∈ toVisit cs parm) :
    c.hwValue % 256 = c.hwValue ∧ c.hwValue ≠ 0 := by
  rw [toVisit_eq] at h
  split_ifs at h
  · obtain ⟨i, hi, rfl⟩ := List.mem_map.mp h
    obtain ⟨k, hk, rfl⟩ := List.getElem_of_mem hi
    have hfit := cs.isSet.fits k hk
    exact ⟨Nat.mod_eq_of_lt (cs.isSet.byte _ hi), by dsimp only; omega⟩
  · obtain ⟨c₀, -, hc⟩ := List.mem_filterMap.mp h
    obtain ⟨⟨hen, hfound⟩, hhw, -⟩ := decideCh_eq_some hc
    obtain ⟨i, hi⟩ := Option.isSome_iff_exists.mp hfound
    rw [hhw]
    exact ⟨Nat.mod_eq_of_lt (rtwChSetSearchCh_lt hi), hen.1⟩

theorem length_toVisit_le (parm : SitesurveyParm) :
    (toVisit cs parm).length ≤ rtwChannelScanAmount := by
  rw [toVisit, rtwScanChDecision]
  split_ifs
  · rw [List.length_map]
    exact cs.isSet.len.trans (by decide)
  · rw [List.length_take]
    exact Nat.min_le_left _ _

end Choice

/-! ## Every run -/

section Run

variable {cs : ChannelSet} {parm : SitesurveyParm} {s : SsRes}

/-- Outside the scans of the P2P operating channels and of the social channels. -/
def SurveyEnv.Ordinary (env : SurveyEnv) : Prop := env.opCh = none ∧ env.socialChan = none

/-- No probe request went out on a passive channel. -/
def NoPassiveProbe (cs : ChannelSet) (acts : List SurveyAct) : Prop :=
  ∀ ch ssid, SurveyAct.probereq ch ssid ∈ acts → ¬ cs.Passive ch

/-- The scan of the request sends probe requests where it may. -/
def Probing (parm : SitesurveyParm) : Prop := (∃ x ∈ parm.ssid, x ≠ []) ∨ parm.scanMode = .active

/-- The lists of the scan stay, and probe requests went to unmarked entries only. -/
structure ScanOf (cs : ChannelSet) (parm : SitesurveyParm) (s : SsRes) : Prop where
  ch : s.ch = toVisit cs parm
  ssid : s.ssid = parm.ssid
  scanMode : s.scanMode = parm.scanMode
  probed : ∀ ch ssid, SurveyAct.probereq ch ssid ∈ s.acts →
    Probing parm ∧ ∃ c ∈ toVisit cs parm, c.hwValue = ch ∧ ¬ c.MarkedPassive

theorem mem_probes {ch ch' : ℕ} {x : Option (List UInt8)} :
    SurveyAct.probereq ch' x ∈ s.probes ch ↔ ch' = ch ∧
      ((∃ y ∈ s.ssid, y ≠ [] ∧ x = some y) ∨ (s.scanMode = .active ∧ x = none)) := by
  unfold SsRes.probes
  rw [List.mem_append, List.mem_flatMap]
  constructor
  · rintro (⟨y, hy, hmem⟩ | hmem)
    · simp only [List.mem_filter, decide_eq_true_eq] at hy
      simp only [List.mem_cons, List.not_mem_nil, or_false, or_self,
        SurveyAct.probereq.injEq] at hmem
      exact ⟨hmem.1, Or.inl ⟨y, hy.1, hy.2, hmem.2⟩⟩
    · split_ifs at hmem with hmode
      · simp only [List.mem_cons, List.not_mem_nil, or_false, or_self,
          SurveyAct.probereq.injEq] at hmem
        exact ⟨hmem.1, Or.inr ⟨hmode, hmem.2⟩⟩
      · exact absurd hmem List.not_mem_nil
  · rintro ⟨rfl, ⟨y, hy, hne, rfl⟩ | ⟨hmode, rfl⟩⟩
    · exact Or.inl ⟨y, by simp [hy, hne], by simp⟩
    · exact Or.inr (by simp [hmode])

theorem scanOf_siteSurvey {env : SurveyEnv} (henv : env.Ordinary) (h : ScanOf cs parm s) :
    ScanOf cs parm (s.siteSurvey cs env) := by
  unfold SsRes.siteSurvey
  dsimp only
  split_ifs with hne hactive hp2p hend hant
  · refine ⟨h.ch, h.ssid, h.scanMode, fun ch ssid hmem => h.probed ch ssid ?_⟩
    simpa using hmem
  · refine ⟨h.ch, h.ssid, h.scanMode, fun ch ssid hmem => ?_⟩
    simp only [List.mem_append, List.mem_cons, reduceCtorEq, false_or] at hmem
    rcases hmem with hmem | hmem
    · exact h.probed ch ssid hmem
    · obtain ⟨rfl, hwhat⟩ := mem_probes.mp hmem
      refine ⟨?_, ?_⟩
      · rcases hwhat with ⟨y, hy, hyne, -⟩ | ⟨hmode, -⟩
        · exact Or.inl ⟨y, h.ssid ▸ hy, hyne⟩
        · exact Or.inr (h.scanMode ▸ hmode)
      · unfold SsRes.surveyChannel at hactive hne ⊢
        rw [henv.1, henv.2] at hactive hne ⊢
        dsimp only at hactive hne ⊢
        cases hc : s.ch[s.channelIdx.toNat]? with
        | none => simp [hc] at hne
        | some c =>
          have hmem : c ∈ toVisit cs parm := h.ch ▸ List.mem_of_getElem? hc
          simp only [hc] at hactive ⊢
          refine ⟨c, hmem, (hwValue_toVisit hmem).1.symm, fun hm => ?_⟩
          simp [hm] at hactive
  · refine ⟨h.ch, h.ssid, h.scanMode, fun ch ssid hmem => h.probed ch ssid ?_⟩
    simpa using hmem
  all_goals exact ⟨h.ch, h.ssid, h.scanMode, h.probed⟩

theorem scanOf_start {env : SurveyEnv} (henv : env.Ordinary) :
    ScanOf cs parm (SsRes.idle.sitesurveyCmdHdl cs env parm) := by
  have hstart : ScanOf cs parm (SsRes.idle.startScan cs env parm) :=
    ⟨rfl, rfl, rfl, fun _ _ hmem => absurd hmem List.not_mem_nil⟩
  unfold SsRes.sitesurveyCmdHdl
  dsimp only
  split_ifs
  · exact hstart
  · exact scanOf_siteSurvey henv ⟨hstart.ch, hstart.ssid, hstart.scanMode, hstart.probed⟩
  · exact scanOf_siteSurvey henv hstart
  all_goals exact absurd rfl ‹¬ SsRes.idle.state = .disable›

theorem ScanOf.moved (h : ScanOf cs parm s) (state : ScanState) (channelIdx : ℤ) :
    ScanOf cs parm { s with state := state, channelIdx := channelIdx } :=
  ⟨h.ch, h.ssid, h.scanMode, h.probed⟩

/-- The handler of a scan that is under way. -/
theorem sitesurveyCmdHdl_running {env : SurveyEnv} {p : SitesurveyParm} (h : s.state ≠ .disable) :
    s.sitesurveyCmdHdl cs env p =
      SsRes.siteSurvey cs env
        { s with state := if s.state = .start ∨ s.state = .txnull then .process else s.state } := by
  rw [SsRes.sitesurveyCmdHdl, if_neg fun hd => h hd.1]
  simp only [if_neg h]
  split_ifs <;> rfl

theorem scanOf_surveyTimerHdl {env : SurveyEnv} (henv : env.Ordinary) (scanAbort alloc : Bool)
    (h : ScanOf cs parm s) : ScanOf cs parm (s.surveyTimerHdl cs env scanAbort alloc) := by
  unfold SsRes.surveyTimerHdl
  by_cases hoff : s.state = .disable ∨ s.state = .start
  · rw [if_pos hoff]
    exact h
  · rw [if_neg hoff]
    dsimp only
    split_ifs with halloc
    · rw [sitesurveyCmdHdl_running (s := { s with channelIdx := s.nextIdx env scanAbort })
        fun hd => hoff (Or.inl hd)]
      exact scanOf_siteSurvey henv (h.moved _ _)
    · exact h.moved _ _

theorem scanOf_scanRun {env : SurveyEnv} (henv : env.Ordinary) {steps : List SurveyStep}
    (hsteps : ∀ st ∈ steps, st.env.Ordinary) : ScanOf cs parm (scanRun cs env parm steps) := by
  unfold scanRun
  induction steps using List.reverseRecOn with
  | nil => exact scanOf_start henv
  | append_singleton steps st ih =>
    rw [run_concat]
    exact scanOf_surveyTimerHdl (hsteps st (by simp)) _ _
      (ih fun st' hst' => hsteps st' (List.mem_append_left _ hst'))

end Run

/-! ## A scan that nothing disturbs -/

section Quiet

variable {cs : ChannelSet} {parm : SitesurveyParm} {s : SsRes}

/-- No P2P, no restart for the antenna diversity. -/
def quietEnv (associated : Bool) : SurveyEnv where
  opCh := none
  socialChan := none
  p2pState := .none
  findphaseExNeeded := false
  antDiv := false
  associated := associated

/-- An expiry of the timer without an abort. -/
def quietStep (associated : Bool) : SurveyStep := ⟨quietEnv associated, false, true⟩

/-- What a scan does on one of its entries. -/
def actsOn (s : SsRes) (c : ScanChannel) : List SurveyAct :=
  .select c.hwValue :: if c.MarkedPassive then [] else s.probes c.hwValue

/-- The scan is at the entry with index `k`, or over with `k` entries. -/
structure ScanAt (cs : ChannelSet) (parm : SitesurveyParm) (s : SsRes) (k : ℕ) : Prop where
  scan : ScanOf cs parm s
  pos : (k < (toVisit cs parm).length ∧ s.state = .process ∧ s.channelIdx = k) ∨
    (k = (toVisit cs parm).length ∧ s.state = .disable)
  acts : s.acts = ((toVisit cs parm).take (k + 1)).flatMap (actsOn s)

/-- `site_survey` at index `k`, with the entries before it done. -/
theorem scanAt_siteSurvey {k : ℕ} {associated : Bool} (h : ScanOf cs parm s)
    (hstate : s.state = .process)
    (hidx : s.channelIdx = k) (hk : k ≤ (toVisit cs parm).length)
    (hacts : s.acts = ((toVisit cs parm).take k).flatMap (actsOn s)) :
    ScanAt cs parm (s.siteSurvey cs (quietEnv associated)) k := by
  have hscan := @scanOf_siteSurvey cs parm s (quietEnv associated) ⟨rfl, rfl⟩ h
  have hsurvey : s.surveyChannel cs (quietEnv associated) =
      match (toVisit cs parm)[k]? with
      | some c => (c.hwValue % 256, if c.MarkedPassive then .passive else .active)
      | none => (0, .passive) := by
    simp only [SsRes.surveyChannel, quietEnv, h.ch, hidx, Int.toNat_natCast]
  by_cases hend : k = (toVisit cs parm).length
  · have hnone : (toVisit cs parm)[k]? = none := List.getElem?_eq_none (by omega)
    rw [hnone] at hsurvey
    have heq : s.siteSurvey cs (quietEnv associated) = { s with state := .disable } := by
      unfold SsRes.siteSurvey
      rw [hsurvey]
      simp [quietEnv]
    refine ⟨hscan, Or.inr ⟨hend, by rw [heq]⟩, ?_⟩
    rw [heq, List.take_of_length_le (by omega)]
    rw [List.take_of_length_le (by omega)] at hacts
    exact hacts
  · have hlt : k < (toVisit cs parm).length := by omega
    have hmem : (toVisit cs parm)[k] ∈ toVisit cs parm := List.getElem_mem hlt
    obtain ⟨hmod, hne⟩ := hwValue_toVisit hmem
    rw [List.getElem?_eq_getElem hlt] at hsurvey
    dsimp only at hsurvey
    rw [hmod] at hsurvey
    have heq : s.siteSurvey cs (quietEnv associated) =
        { s with acts := s.acts ++ actsOn s (toVisit cs parm)[k] } := by
      unfold SsRes.siteSurvey
      rw [hsurvey]
      have hp2p : ¬ (quietEnv associated).p2pScan := by simp [SurveyEnv.p2pScan, quietEnv]
      simp only [hne, ne_eq, not_false_eq_true, if_true, hp2p, if_false, actsOn]
      split_ifs <;> simp_all
    refine ⟨hscan, Or.inl ⟨hlt, by rw [heq, hstate], by rw [heq, hidx]⟩, ?_⟩
    rw [heq]
    show s.acts ++ actsOn s _ = ((toVisit cs parm).take (k + 1)).flatMap (actsOn s)
    rw [hacts, List.take_add_one, List.getElem?_eq_getElem hlt, List.flatMap_append]
    simp

theorem scanAt_quietStep {k : ℕ} (associated : Bool) (h : ScanAt cs parm s k) :
    ScanAt cs parm
      (s.surveyTimerHdl cs (quietStep associated).env (quietStep associated).scanAbort
        (quietStep associated).alloc) (min (k + 1) (toVisit cs parm).length) := by
  obtain ⟨hscan, ⟨hk, hstate, hidx⟩ | ⟨rfl, hstate⟩, hacts⟩ := h
  · rw [SsRes.surveyTimerHdl, if_neg (by simp [hstate]), Nat.min_eq_left (by omega)]
    simp only [quietStep, if_true]
    rw [sitesurveyCmdHdl_running (s :=
      { s with channelIdx := s.nextIdx _ false }) (by simp [hstate])]
    refine scanAt_siteSurvey (hscan.moved _ _) (by simp [hstate]) ?_ (by omega) hacts
    simp [SsRes.nextIdx, hstate, hidx]
  · rw [SsRes.surveyTimerHdl, if_pos (Or.inl hstate), Nat.min_eq_right (by omega)]
    exact ⟨hscan, Or.inr ⟨rfl, hstate⟩, hacts⟩

theorem scanAt_start : ScanAt cs parm (SsRes.idle.sitesurveyCmdHdl cs (quietEnv false) parm) 0 := by
  have hscan : ScanOf cs parm (SsRes.idle.startScan cs (quietEnv false) parm) :=
    ⟨rfl, rfl, rfl, fun _ _ hmem => absurd hmem List.not_mem_nil⟩
  have heq : SsRes.idle.sitesurveyCmdHdl cs (quietEnv false) parm = SsRes.siteSurvey cs
    (quietEnv false)
      { SsRes.idle.startScan cs (quietEnv false) parm with state := .process } := rfl
  rw [heq]
  exact scanAt_siteSurvey (hscan.moved .process 0) rfl rfl (Nat.zero_le _) rfl

/-- An associated station sends a null frame first and starts at the first expiry of the timer. -/
theorem scanAt_start_associated :
    ScanAt cs parm
      ((SsRes.idle.sitesurveyCmdHdl cs (quietEnv true) parm).surveyTimerHdl cs
      (quietEnv true) false true)
      0 := by
  have hscan : ScanOf cs parm (SsRes.idle.startScan cs (quietEnv true) parm) :=
    ⟨rfl, rfl, rfl, fun _ _ hmem => absurd hmem List.not_mem_nil⟩
  have heq : (SsRes.idle.sitesurveyCmdHdl cs (quietEnv true) parm).surveyTimerHdl cs
    (quietEnv true) false
      true = SsRes.siteSurvey cs (quietEnv true)
        { SsRes.idle.startScan cs (quietEnv true) parm with state := .process } := rfl
  rw [heq]
  exact scanAt_siteSurvey (hscan.moved .process 0) rfl rfl (Nat.zero_le _) rfl

theorem scanAt_replicate (associated : Bool) : ∀ (n k : ℕ) {s : SsRes}, ScanAt cs parm s k →
    k ≤ (toVisit cs parm).length →
    ScanAt cs parm (run (fun s (st : SurveyStep) => s.surveyTimerHdl cs st.env st.scanAbort
      st.alloc) s
      (List.replicate n (quietStep associated))) (min (k + n) (toVisit cs parm).length)
  | 0, k, s, h, hk => by
    rw [Nat.add_zero, Nat.min_eq_left hk]
    exact h
  | n + 1, k, s, h, hk => by
    have hstep := scanAt_replicate associated n _ (scanAt_quietStep associated h)
      (Nat.min_le_right _ _)
    have hmin : min (min (k + 1) (toVisit cs parm).length + n) (toVisit cs parm).length =
        min (k + (n + 1)) (toVisit cs parm).length := by omega
    rw [hmin] at hstep
    exact hstep

/-- The scan of a request, up to its end. -/
def wholeScan (cs : ChannelSet) (parm : SitesurveyParm) (associated : Bool) : SsRes :=
  scanRun cs (quietEnv associated) parm (List.replicate (rtwChannelScanAmount + 1) (quietStep associated))

theorem scanAt_wholeScan (cs : ChannelSet) (parm : SitesurveyParm) (associated : Bool) :
    ScanAt cs parm (wholeScan cs parm associated) (toVisit cs parm).length := by
  have hlen := @length_toVisit_le cs parm
  cases associated with
  | false =>
    have h := scanAt_replicate false (rtwChannelScanAmount + 1) 0 (@scanAt_start cs parm)
      (Nat.zero_le _)
    rw [Nat.min_eq_right (by omega)] at h
    exact h
  | true =>
    have h := scanAt_replicate true rtwChannelScanAmount 0 (@scanAt_start_associated cs parm)
      (Nat.zero_le _)
    rw [Nat.min_eq_right (by omega)] at h
    rw [wholeScan, scanRun, List.replicate_succ, run_cons]
    exact h

/-- The scan ends, after it did its part on every entry. -/
theorem wholeScan_acts (cs : ChannelSet) (parm : SitesurveyParm) (associated : Bool) :
    (wholeScan cs parm associated).state = .disable ∧
    (wholeScan cs parm associated).acts =
      (toVisit cs parm).flatMap (actsOn (wholeScan cs parm associated)) := by
  obtain ⟨-, hpos, hacts⟩ := scanAt_wholeScan cs parm associated
  rw [List.take_of_length_le (by omega)] at hacts
  refine ⟨?_, hacts⟩
  rcases hpos with ⟨hlt, -⟩ | ⟨-, hstate⟩
  · omega
  · exact hstate

/-- A probe request goes out for an SSID of the request or, in an active scan, for any. -/
theorem mem_acts_wholeScan {associated : Bool} {ch : ℕ} {x : Option (List UInt8)} :
    SurveyAct.probereq ch x ∈ (wholeScan cs parm associated).acts ↔
      (∃ c ∈ toVisit cs parm, c.hwValue = ch ∧ ¬ c.MarkedPassive) ∧
      ((∃ y ∈ parm.ssid, y ≠ [] ∧ x = some y) ∨ (parm.scanMode = .active ∧ x = none)) := by
  have hscan := (scanAt_wholeScan cs parm associated).scan
  rw [(wholeScan_acts cs parm associated).2, List.mem_flatMap]
  constructor
  · rintro ⟨c, hc, hmem⟩
    rw [actsOn, List.mem_cons] at hmem
    rcases hmem with h | hmem
    · exact nomatch h
    split_ifs at hmem with hmark
    · exact absurd hmem List.not_mem_nil
    obtain ⟨rfl, hwhat⟩ := mem_probes.mp hmem
    rw [hscan.ssid, hscan.scanMode] at hwhat
    exact ⟨⟨c, hc, rfl, hmark⟩, hwhat⟩
  · rintro ⟨⟨c, hc, rfl, hmark⟩, hwhat⟩
    refine ⟨c, hc, List.mem_cons_of_mem _ ?_⟩
    rw [if_neg hmark, mem_probes, hscan.ssid, hscan.scanMode]
    exact ⟨rfl, hwhat⟩

end Quiet

/-! ## Passive channels -/

/-- The entries of a request that the scan takes. -/
def requested (cs : ChannelSet) (parm : SitesurveyParm) : List ScanChannel :=
  (parm.ch.take parm.chNum).filter (Taken cs)

/-- The request itself marks its passive channels, or, without a channel to visit, there is no
passive channel in the set. -/
def PassiveMarked (cs : ChannelSet) (parm : SitesurveyParm) : Prop :=
  if requested cs parm = [] then ∀ c ∈ cs.set, c.scanType ≠ .passive
  else ∀ c ∈ requested cs parm, cs.Passive c.hwValue → c.MarkedPassive

theorem requested_eq_nil {cs : ChannelSet} {parm : SitesurveyParm} :
    requested cs parm = [] ↔ (parm.ch.take parm.chNum).filterMap (decideCh cs) = [] := by
  have h := @map_hwValue_filterMap cs (parm.ch.take parm.chNum)
  rw [requested]
  constructor
  · intro hnil
    rw [hnil, List.map_nil, List.map_eq_nil_iff] at h
    exact h
  · intro hnil
    rw [hnil, List.map_nil] at h
    exact List.map_eq_nil_iff.mp h.symm

theorem passiveMarked_iff {cs : ChannelSet} {parm : SitesurveyParm} :
    PassiveMarked cs parm ↔ ∀ c ∈ toVisit cs parm, cs.Passive c.hwValue → c.MarkedPassive := by
  unfold PassiveMarked
  rw [toVisit_eq]
  by_cases hnil : requested cs parm = []
  · rw [if_pos hnil, if_pos (requested_eq_nil.mp hnil)]
    constructor
    · intro h c hc hpassive
      obtain ⟨i, hi, -, hscan⟩ := hpassive
      exact absurd hscan (h i hi)
    · intro h i hi hscan
      have hmark := h ⟨i.channelNum, 0⟩ (List.mem_map_of_mem hi) ⟨i, hi, rfl, hscan⟩
      exact absurd hmark (by simp [ScanChannel.MarkedPassive])
  · rw [if_neg hnil, if_neg fun h => hnil (requested_eq_nil.mpr h)]
    constructor
    · intro h c hc hpassive
      obtain ⟨c₀, hc₀, hdec⟩ := List.mem_filterMap.mp hc
      obtain ⟨htaken, hhw, hmark⟩ := decideCh_eq_some hdec
      rw [hhw] at hpassive
      exact hmark.mpr (h c₀ (List.mem_filter.mpr ⟨hc₀, by simpa using htaken⟩) hpassive)
    · intro h c₀ hc₀ hpassive
      obtain ⟨hmem, htaken⟩ := List.mem_filter.mp hc₀
      obtain ⟨c, hdec⟩ := Option.isSome_iff_exists.mp
        (isSome_decideCh.mpr (of_decide_eq_true htaken))
      obtain ⟨-, hhw, hmark⟩ := decideCh_eq_some hdec
      exact hmark.mp (h c (List.mem_filterMap.mpr ⟨c₀, hmem, hdec⟩) (hhw ▸ hpassive))

/-- The scans of a request keep off the passive channels, in every run, exactly when the request
marks them itself, or when it has nothing to probe for. -/
theorem noPassiveProbe_iff (cs : ChannelSet) (parm : SitesurveyParm) :
    (∀ env steps, SurveyEnv.Ordinary env → (∀ st ∈ steps, SurveyEnv.Ordinary st.env) →
      NoPassiveProbe cs (scanRun cs env parm steps).acts) ↔
    (¬ Probing parm ∨ PassiveMarked cs parm) := by
  rw [passiveMarked_iff]
  constructor
  · intro h
    by_contra hcon
    rw [not_or, not_not] at hcon
    obtain ⟨hprobing, hmarked⟩ := hcon
    obtain ⟨c, hc, hpassive, hmark⟩ : ∃ c ∈ toVisit cs parm, cs.Passive c.hwValue ∧
      ¬ c.MarkedPassive := by
      by_contra hno
      refine hmarked fun c hc hpassive => ?_
      by_contra hmark
      exact hno ⟨c, hc, hpassive, hmark⟩
    have hsafe := h (quietEnv false) (List.replicate (rtwChannelScanAmount + 1) (quietStep false))
      ⟨rfl, rfl⟩ fun st hst => (List.eq_of_mem_replicate hst) ▸ ⟨rfl, rfl⟩
    rcases hprobing with ⟨y, hy, hne⟩ | hmode
    · exact hsafe c.hwValue (some y)
        (mem_acts_wholeScan.mpr ⟨⟨c, hc, rfl, hmark⟩, Or.inl ⟨y, hy, hne, rfl⟩⟩) hpassive
    · exact hsafe c.hwValue none
        (mem_acts_wholeScan.mpr ⟨⟨c, hc, rfl, hmark⟩, Or.inr ⟨hmode, rfl⟩⟩) hpassive
  · intro h env steps henv hsteps ch ssid hmem hpassive
    have hscan : ScanOf cs parm (scanRun cs env parm steps) := scanOf_scanRun henv hsteps
    obtain ⟨hprobing, c, hc, rfl, hmark⟩ := hscan.probed ch ssid hmem
    rcases h with h | h
    · exact h hprobing
    · exact hmark (h c hc hpassive)

/-- The channel set of `RT_CHANNEL_DOMAIN_WORLD_WIDE_13`, with channels 12 and 13 passive. -/
def worldSet : ChannelSet where
  set := initChannelSet 0x0a
  behind := []
  isSet := isChannelSet_initChannelSet 0x0a
  short := fun _ => rfl
  behindByte := fun _ h => absurd h List.not_mem_nil

/-- An active scan without a list of channels probes on channel 12. -/
theorem not_noPassiveProbe_worldSet :
    ¬ NoPassiveProbe worldSet (wholeScan worldSet (rtwSitesurveyCmd .active [] []) false).acts := by
  intro h
  refine h 12 none (mem_acts_wholeScan.mpr ⟨⟨⟨12, 0⟩, ?_, rfl, by decide⟩, Or.inr ⟨rfl, rfl⟩⟩) ?_
  · decide
  · decide

/-! ## Coverage -/

/-- The channel of a `select`. -/
def SurveyAct.selected : SurveyAct → Option ℕ
  | .select ch => some ch
  | _ => none

/-- The channels visited, in order. -/
def visited (acts : List SurveyAct) : List ℕ := acts.filterMap SurveyAct.selected

/-- The entries of the caller's list that are enabled and in the set. -/
def wanted (cs : ChannelSet) (ch : List ScanChannel) : List ScanChannel :=
  ch.filter fun c => c.Enabled ∧ cs.Has c.hwValue

/-- The entries that a scan should visit : the wanted ones, or the whole set if there are none. -/
def shouldVisit (cs : ChannelSet) (ch : List ScanChannel) : List ScanChannel :=
  if wanted cs ch = [] then cs.set.map fun c => ⟨c.channelNum, 0⟩ else wanted cs ch

/-- The scan visits the right channels in order, and probes for every SSID on the active ones. -/
def Covers (cs : ChannelSet) (ssid : List (List UInt8)) (ch : List ScanChannel)
    (acts : List SurveyAct) : Prop :=
  visited acts = (shouldVisit cs ch).map ScanChannel.hwValue ∧
  ∀ c ∈ shouldVisit cs ch, ¬ c.MarkedPassive → ¬ cs.Passive c.hwValue →
    ∀ x ∈ ssid, x ≠ [] → SurveyAct.probereq c.hwValue (some x) ∈ acts

/-- How many entries `rtw_sitesurvey_cmd` counts. -/
def keptCount (ch : List ScanChannel) : ℕ := (ch.take rtwChannelScanAmount).countP fun c => c.Enabled

/-- No wanted entry stands at or behind the position `keptCount`, and no entry before it is found
only behind the channel set. -/
def GapFree (cs : ChannelSet) (ch : List ScanChannel) : Prop :=
  wanted cs (ch.drop (keptCount ch)) = [] ∧ ∀ c ∈ ch.take (keptCount ch), Taken cs c → cs.Has c.hwValue

/-- Every entry before the position `keptCount` is refused, so the whole set is visited, and the
wanted entries happen to be the whole set. -/
def WholeSetWanted (cs : ChannelSet) (ch : List ScanChannel) : Prop :=
  (∀ c ∈ ch.take (keptCount ch), ¬ Taken cs c) ∧
    (wanted cs ch).map ScanChannel.hwValue = cs.set.map ChannelInfo.channelNum

theorem visited_wholeScan (cs : ChannelSet) (parm : SitesurveyParm) (associated : Bool) :
    visited (wholeScan cs parm associated).acts = (toVisit cs parm).map ScanChannel.hwValue := by
  rw [(wholeScan_acts cs parm associated).2, visited, List.filterMap_flatMap]
  have hprobes : ∀ (s : SsRes) (ch : ℕ), (s.probes ch).filterMap SurveyAct.selected = [] := by
    intro s ch
    rw [List.filterMap_eq_nil_iff]
    intro a ha
    cases a with
    | select ch' =>
      unfold SsRes.probes at ha
      split_ifs at ha <;> simp at ha
    | probereq ch' x => rfl
    | probereqP2p ch' => rfl
  induction toVisit cs parm with
  | nil => rfl
  | cons c l ih =>
    have hsel : SurveyAct.selected (.select c.hwValue) = some c.hwValue := rfl
    rw [List.flatMap_cons, ih, List.map_cons, actsOn, List.filterMap_cons_some hsel]
    split_ifs
    · rfl
    · rw [hprobes]
      rfl

section Covers

variable {cs : ChannelSet} {ch : List ScanChannel}

theorem taken_of_wanted {c : ScanChannel} (hen : c.Enabled) (hhas : cs.Has c.hwValue) :
    Taken cs c :=
  ⟨hen, isSome_search_of_has hhas⟩

theorem mem_wanted {c : ScanChannel} : c ∈ wanted cs ch ↔
    c ∈ ch ∧ c.Enabled ∧ cs.Has c.hwValue := by
  simp [wanted]

/-- The wanted entries before and behind a position. -/
theorem wanted_split (ch : List ScanChannel) (n : ℕ) :
    wanted cs ch = wanted cs (ch.take n) ++ wanted cs (ch.drop n) := by
  rw [wanted, wanted, wanted, ← List.filter_append, List.take_append_drop]

theorem toVisit_map (scanMode : ScanType) (ssid : List (List UInt8)) :
    (toVisit cs (rtwSitesurveyCmd scanMode ssid ch)).map ScanChannel.hwValue =
      if (ch.take (keptCount ch)).filter (Taken cs) = [] then cs.set.map ChannelInfo.channelNum
      else ((ch.take (keptCount ch)).filter (Taken cs)).map ScanChannel.hwValue := by
  have hkept : (rtwSitesurveyCmd scanMode ssid ch).chNum = keptCount ch := rfl
  have hmap := @map_hwValue_filterMap cs (ch.take (keptCount ch))
  have hnil : (ch.take (keptCount ch)).filterMap (decideCh cs) = [] ↔
      (ch.take (keptCount ch)).filter (Taken cs) = [] := by
    rw [← List.map_eq_nil_iff (f := ScanChannel.hwValue), hmap, List.map_eq_nil_iff]
  rw [toVisit_eq, filterMap_rtwSitesurveyCmd, hkept]
  by_cases h : (ch.take (keptCount ch)).filter (Taken cs) = []
  · rw [if_pos h, if_pos (hnil.mpr h), List.map_map]
    rfl
  · rw [if_neg h, if_neg fun h' => h (hnil.mp h'), hmap]

/-- Without an entry found only behind the set, the taken entries of a list are the wanted ones. -/
theorem filter_taken_eq_wanted {l : List ScanChannel} (h : ∀ c ∈ l, Taken cs c → cs.Has c.hwValue) :
    l.filter (Taken cs) = wanted cs l := by
  refine List.filter_congr fun c hc => decide_eq_decide.mpr ⟨fun ht => ?_, fun hw => ?_⟩
  · exact ⟨ht.1, h c hc ht⟩
  · exact taken_of_wanted hw.1 hw.2

/-- The second filter visits the right channels exactly when the first one left no gap before a
wanted entry (`GapFree`), or when the whole set is visited and wanted. -/
theorem toVisit_map_iff (scanMode : ScanType) (ssid : List (List UInt8)) :
    (toVisit cs (rtwSitesurveyCmd scanMode ssid ch)).map ScanChannel.hwValue =
        (shouldVisit cs ch).map ScanChannel.hwValue ↔
      GapFree cs ch ∨ WholeSetWanted cs ch := by
  have hset : (cs.set.map fun c => (⟨c.channelNum, 0⟩ : ScanChannel)).map ScanChannel.hwValue =
      cs.set.map ChannelInfo.channelNum := by
    rw [List.map_map]
    rfl
  rw [toVisit_map, shouldVisit, apply_ite (List.map ScanChannel.hwValue), hset]
  constructor
  · intro heq
    by_cases hV : (ch.take (keptCount ch)).filter (Taken cs) = []
    · have hnone : ∀ c ∈ ch.take (keptCount ch), ¬ Taken cs c := by
        intro c hc ht
        have hmem : c ∈ (ch.take (keptCount ch)).filter (Taken cs) :=
          List.mem_filter.mpr ⟨hc, decide_eq_true ht⟩
        rw [hV] at hmem
        exact absurd hmem List.not_mem_nil
      rw [if_pos hV] at heq
      by_cases hE : wanted cs ch = []
      · refine Or.inl ⟨?_, fun c hc ht => absurd ht (hnone c hc)⟩
        rw [wanted_split ch (keptCount ch)] at hE
        exact (List.append_eq_nil_iff.mp hE).2
      · rw [if_neg hE] at heq
        exact Or.inr ⟨hnone, heq.symm⟩
    · rw [if_neg hV] at heq
      -- what is visited is in the set, because what should be visited is
      have hhas : ∀ c ∈ ch.take (keptCount ch), Taken cs c → cs.Has c.hwValue := by
        intro c hc ht
        have hmem : c.hwValue ∈
            ((ch.take (keptCount ch)).filter (Taken cs)).map ScanChannel.hwValue :=
          List.mem_map_of_mem (List.mem_filter.mpr ⟨hc, decide_eq_true ht⟩)
        rw [heq] at hmem
        split_ifs at hmem
        · exact hmem
        · obtain ⟨c', hc', hhw⟩ := List.mem_map.mp hmem
          rw [← hhw]
          exact (mem_wanted.mp hc').2.2
      rw [filter_taken_eq_wanted hhas] at hV heq
      have hE : wanted cs ch ≠ [] := by
        rw [wanted_split ch (keptCount ch)]
        exact fun hnil => hV (List.append_eq_nil_iff.mp hnil).1
      rw [if_neg hE, wanted_split ch (keptCount ch), List.map_append] at heq
      exact Or.inl ⟨List.map_eq_nil_iff.mp (List.append_right_eq_self.mp heq.symm), hhas⟩
  · rintro (⟨hdrop, hhas⟩ | ⟨hnone, hwhole⟩)
    · rw [filter_taken_eq_wanted hhas, wanted_split ch (keptCount ch), hdrop, List.append_nil]
    · have hV : (ch.take (keptCount ch)).filter (Taken cs) = [] := by
        rw [List.filter_eq_nil_iff]
        intro c hc ht
        exact hnone c hc (of_decide_eq_true ht)
      rw [if_pos hV]
      split_ifs
      · rfl
      · exact hwhole.symm

/-- An unmarked entry that should be visited is visited unmarked. -/
theorem toVisit_unmarked (scanMode : ScanType) (ssid : List (List UInt8))
    (h : GapFree cs ch ∨ WholeSetWanted cs ch) {c : ScanChannel} (hc : c ∈ shouldVisit cs ch)
    (hmark : ¬ c.MarkedPassive) :
    ∃ c' ∈ toVisit cs (rtwSitesurveyCmd scanMode ssid ch), c'.hwValue = c.hwValue ∧
      ¬ c'.MarkedPassive := by
  have hmem : c.hwValue ∈ (toVisit cs (rtwSitesurveyCmd scanMode ssid ch)).map
    ScanChannel.hwValue := by
    rw [(toVisit_map_iff scanMode ssid).mpr h]
    exact List.mem_map_of_mem hc
  rw [toVisit_eq, filterMap_rtwSitesurveyCmd] at hmem ⊢
  split_ifs at hmem ⊢ with hnil
  · obtain ⟨c', hc', hhw⟩ := List.mem_map.mp hmem
    refine ⟨c', hc', hhw, ?_⟩
    obtain ⟨i, -, rfl⟩ := List.mem_map.mp hc'
    simp [ScanChannel.MarkedPassive]
  · have hkept : (rtwSitesurveyCmd scanMode ssid ch).chNum = keptCount ch := rfl
    rw [hkept] at hnil ⊢
    obtain ⟨c₀, hc₀⟩ := List.exists_mem_of_ne_nil _ hnil
    obtain ⟨c₁, hc₁, hdec₁⟩ := List.mem_filterMap.mp hc₀
    have htaken₁ := (decideCh_eq_some hdec₁).1
    obtain ⟨hdrop, hhas⟩ := h.resolve_right fun hw => hw.1 c₁ hc₁ htaken₁
    have hE : wanted cs ch ≠ [] := by
      refine List.ne_nil_of_mem (mem_wanted.mpr ⟨List.mem_of_mem_take hc₁, htaken₁.1, ?_⟩)
      exact hhas c₁ hc₁ htaken₁
    rw [shouldVisit, if_neg hE, wanted_split ch (keptCount ch), hdrop, List.append_nil] at hc
    obtain ⟨hmem, hen, hin⟩ := mem_wanted.mp hc
    obtain ⟨c', hdec⟩ := Option.isSome_iff_exists.mp (isSome_decideCh.mpr (taken_of_wanted hen hin))
    obtain ⟨-, hhw, hiff⟩ := decideCh_eq_some hdec
    exact ⟨c', List.mem_filterMap.mpr ⟨c, hmem, hdec⟩, hhw, fun h => hmark (hiff.mp h)⟩

/-- A scan covers what was asked for exactly when every wanted entry stands before the position
`keptCount` (or the whole set is visited and wanted), and every SSID is among the first nine (or
there is no active channel to probe on). -/
theorem covers_iff (cs : ChannelSet) (scanMode : ScanType) (ssid : List (List UInt8))
    (ch : List ScanChannel) (associated : Bool) :
    Covers cs ssid ch (wholeScan cs (rtwSitesurveyCmd scanMode ssid ch) associated).acts ↔
      (GapFree cs ch ∨ WholeSetWanted cs ch) ∧
      ((∀ x ∈ ssid, x ≠ [] → x ∈ ssid.take rtwSsidScanAmount) ∨
        ∀ c ∈ shouldVisit cs ch, c.MarkedPassive ∨ cs.Passive c.hwValue) := by
  rw [Covers, visited_wholeScan, toVisit_map_iff]
  refine and_congr_right fun hvisit => ?_
  constructor
  · intro hprobed
    by_contra hcon
    rw [not_or] at hcon
    obtain ⟨hssid, hactive⟩ := hcon
    simp only [not_forall] at hssid hactive
    obtain ⟨x, hx, hne, hx9⟩ := hssid
    obtain ⟨c, hc, hboth⟩ := hactive
    rw [not_or] at hboth
    obtain ⟨-, ⟨y, hy, -, hxy⟩ | ⟨-, hxy⟩⟩ :=
      mem_acts_wholeScan.mp (hprobed c hc hboth.1 hboth.2 x hx hne)
    · cases hxy
      exact hx9 hy
    · exact nomatch hxy
  · intro h c hc hmark hpassive x hx hne
    refine mem_acts_wholeScan.mpr ⟨toVisit_unmarked scanMode ssid hvisit hc hmark,
      Or.inl ⟨x, ?_, hne, rfl⟩⟩
    rcases h with h | h
    · exact h x hx hne
    · exact absurd (h c hc) (not_or.mpr ⟨hmark, hpassive⟩)

end Covers

/-- The scan of channels 1 and 6 with a gap between them. -/
def sampleGap : List ScanChannel := [⟨1, 0⟩, ⟨0, 0⟩, ⟨6, 0⟩]

/-- Channel 6 is not visited. -/
theorem not_covers_sampleGap :
    ¬ Covers worldSet [] sampleGap (wholeScan worldSet (rtwSitesurveyCmd .active [] sampleGap) false).acts := by
  rintro ⟨hvisited, -⟩
  rw [visited_wholeScan] at hvisited
  exact absurd hvisited (by decide)

end Rtl8188eu
