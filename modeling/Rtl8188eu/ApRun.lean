import Rtl8188eu.ApStep
import Rtl8188eu.BlockAck

/-!
# Runs of an access point

The access point as a state machine. Its events are the management frames of the stations, the
data, PS-Poll and block-ack frames, the frames to transmit, the timers, the beacons and the
removal of a station from user space. Every event is made of moves (`moves_apStep`), so what
the moves keep is an invariant of every run (`invariant_apRun`).

`Started` is an access point that has not had a station yet.
-/

set_option linter.unusedSectionVars false

namespace Rtl8188eu

open LinkedLists Runs

/-- What an access point reacts to. -/
inductive ApEvent
  /-- An authentication frame. `xmit` says that there is a frame for the answer. -/
  | auth (xmit : Bool) (f : RecvFrame)
  | assocReq (r : Ap.AssocReq)
  /-- A deauthentication or a disassociation frame. -/
  | deauth (addr2 : MacAddr)
  /-- A station is removed, as `rtw_del_sta` and `rtw_sta_flush` do it with an associated one. -/
  | freeStainfo (hwaddr : MacAddr)
  /-- A frame from the device. -/
  | rx (fr : RecvFrame)
  /-- A block-ack action frame. -/
  | back (fr : RecvFrame)
  /-- `rtw_reordering_ctrl_timeout_handler`. -/
  | timeout (c : StaId × Fin 16)
  /-- `expire_timeout_chk`. -/
  | tick (env : Ap.TickEnv)
  /-- A frame to `ra` is to be transmitted. -/
  | xmit (ra : MacAddr) (priority : ℕ) (direct : Bool)
  /-- The device takes the first frame of a queue. -/
  | sent (k : StaId) (q : AcQueue)
  | txBeacon
  | chkHiQueue (empty : Bool)

/-- The event is an authentication frame. -/
def ApEvent.isAuth : ApEvent → Bool
  | .auth .. => true
  | _ => false

/-- The queue that `rtw_get_sta_pending` finds. -/
def rtwGetStaPending (up : ℕ) : AcQueue :=
  match up with
  | 1 | 2 => .bk
  | 4 | 5 => .vi
  | 6 | 7 => .vo
  | _ => .be

namespace Ap

variable {ι : Type} [DecidableEq ι]

/-- The frames of one queue of a station get new values. -/
def setPending (s : Ap ι) (k : StaId) (q : AcQueue) (l : List XmitFrame) : Ap ι :=
  s.updateSta k fun st => { st with pending := Function.update st.pending q l }

/-- `rtw_xmit` with the checks of `update_attrib`. `direct` says that `rtw_hal_xmit` gives the
frame to the device at once. -/
def rtwXmit (s : Ap ι) (ra : MacAddr) (priority : ℕ) (direct : Bool) : Ap ι :=
  match s.base.rtwGetStainfo ra with
  | none => s
  | some k =>
    if ¬ isMcast ra ∧ checkFwstate s.base.mlmepriv.fwState wifiApState ∧
        ¬ hasBits (s.sta k).state fwLinkedBits then s
    else
      let f : XmitFrame := ⟨isMcast ra, priority, false⟩
      let q := rtwGetStaPending priority
      match s.xmitframeEnqueueForSleepingSta k f with
      | (true, s) => s
      | (false, s) => if direct then s else s.setPending k q ((s.sta k).pending q ++ [f])

/-- A station is removed. -/
def freeStainfo (s : Ap ι) (hwaddr : MacAddr) : Ap ι :=
  match s.base.rtwGetStainfo hwaddr with
  | none => s
  | some k => if k ∈ s.asocList then s.expireFree k else s.rtwFreeStainfo k

/-- The entry of the log for a packet of a to-DS frame. A transmitter without a record has no
state. -/
def handUpOf (s : Ap ι) (i : Indication ι) : ApCall :=
  match s.base.rtwGetStainfo i.ta with
  | some k => s.callOf .handUp k
  | none =>
    { op := .handUp, sta := 0, aid := 0, asleep := false, authSuccess := false
      assocSuccess := false, group := isMcast i.ta, bit0 := s.bit0, listed := false
      counted := false, stale := false, pureHt := true }

/-- The entries of the log for the packets of to-DS frames behind the first `n` packets. -/
def recordHandUps (s : Ap ι) (n : ℕ) : Ap ι :=
  let inds := (s.base.indications.drop n).filter fun i =>
    (s.base.recvframe i.frame).attrib.toFrDs = 2
  { s with calls := (inds.map s.handUpOf).reverse ++ s.calls }

/-- The part of `recv_func` about sleeping stations. -/
def recvPowerSave (s : Ap ι) (fr : RecvFrame) : Option (Ap ι) :=
  match s.base.toDsSta fr with
  | some k => s.sta2apPowerSave k fr
  | none =>
    if (s.base.mpMode ∧ !checkFwstate s.base.mlmepriv.fwState wifiMpLpbkState) ∨
        fr.mem fr.rxData &&& 0x3 ≠ 0 then some s
    else some (s.validateRecvCtrlFrame fr)

/-- The receive path changes its part of the state. -/
def withBase (s : Ap RecvId) (r : Option (Adapter RecvId)) : Option (Ap RecvId) :=
  r.map fun base => { s with base := base }.recordHandUps s.base.indications.length

/-- A frame from the device. Without a free receive frame it is dropped. -/
def rx (s : Ap RecvId) (fr : RecvFrame) : Option (Ap RecvId) :=
  if s.base.rtwAllocRecvframe .freeRecv = none then some s
  else
    (s.recvPowerSave fr).bind fun s => s.withBase (s.base.recvStep (fun _ _ => []) 0 (.rx fr))

/-- One event. -/
def apStep (s : Ap RecvId) : ApEvent → Option (Ap RecvId)
  | .auth xmit f => some (s.onAuth xmit f)
  | .assocReq r => some (s.onAssocReq r)
  | .deauth addr2 => some (s.onDeAuth addr2)
  | .freeStainfo hwaddr => some (s.freeStainfo hwaddr)
  | .rx fr => s.rx fr
  | .back fr => some { s with base := s.base.onActionBack fr.mem fr.rxData }
  | .timeout c => s.withBase (s.base.rtwReorderingCtrlTimeoutHandler c)
  | .tick env => some (s.expireTimeoutChk env)
  | .xmit ra priority direct => some (s.rtwXmit ra priority direct)
  | .sent k q => some (s.setPending k q ((s.sta k).pending q).tail)
  | .txBeacon => some s.txBeaconHdl
  | .chkHiQueue empty => some (s.rtwChkHiQueueHdl empty)

variable {s s' t : Ap ι} {k j : StaId}

/-! ## Quiet steps -/

variable {auth : Bool}

theorem moves_quiet (h : Quiet s s') : Moves auth s s' :=
    Relation.ReflTransGen.single (Move.quiet h)

/-- A record changes outside of its core. -/
theorem quiet_updateSta {f : ApSta → ApSta} (h : (f (s.sta k)).core = (s.sta k).core)
    (hcaps : (f (s.sta k)).caps = (s.sta k).caps) (hflags : (f (s.sta k)).flags = (s.sta k).flags) :
    Quiet s (s.updateSta k f) := by
  refine ⟨Adapter.SameStations.refl _,
    fun j => ?_, fun j => ?_, fun j => ?_, rfl, rfl, rfl, rfl, rfl,
    rfl, rfl, rfl, rfl, rfl⟩
  · rcases eq_or_ne j k with rfl | hj
    · simpa [updateSta] using h
    · simp [updateSta, hj]
  · rcases eq_or_ne j k with rfl | hj
    · simpa [updateSta] using hcaps
    · simp [updateSta, hj]
  · rcases eq_or_ne j k with rfl | hj
    · simpa [updateSta] using hflags
    · simp [updateSta, hj]

theorem quiet_issueAuth (s : Ap ι) (xmit : Bool) (a : MacAddr) (st : ApSta) (status : ℕ) :
    Quiet s (s.issueAuth xmit a st status) := by
  unfold issueAuth
  split
  · exact ⟨Adapter.SameStations.refl _,
      fun _ => rfl, fun _ => rfl, fun _ => rfl, rfl, rfl, rfl, rfl,
      rfl, rfl, rfl, rfl, rfl, rfl⟩
  · exact ⟨Adapter.SameStations.refl _,
      fun _ => rfl, fun _ => rfl, fun _ => rfl, rfl, rfl, rfl, rfl,
      rfl, rfl, rfl, rfl, rfl, rfl⟩

/-- The receive path changes its part of the state, and no station. -/
theorem quiet_base {base : Adapter ι} (h : Adapter.SameStations s.base base) :
    Quiet s { s with base := base } :=
  ⟨h, fun _ => rfl, fun _ => rfl, fun _ => rfl, rfl, rfl, rfl, rfl, rfl, rfl, rfl, rfl, rfl, rfl⟩

/-! ## Authentication -/

theorem moves_authFail {sa : MacAddr} {xmit : Bool} {status : ℕ} (hlive : s.Live k)
    (hasoc : k ∉ s.asocList) : Moves auth s (s.authFail xmit (some k) sa status) :=
  (Relation.ReflTransGen.single (Move.free hlive hasoc)).trans
    (moves_quiet (quiet_issueAuth ..))

theorem moves_authFail_none {sa : MacAddr} {xmit : Bool} {status : ℕ} :
    Moves auth s (s.authFail xmit none sa status) :=
  moves_quiet (quiet_issueAuth ..)

/-- The record of the station changes outside of its core, and the answer is sent. -/
theorem moves_authAccept (s : Ap ι) (xmit : Bool) (k : StaId) (seq : ℕ) :
    Moves auth s (s.authAccept xmit k seq) := by
  unfold authAccept
  dsimp only
  have hnote : Moves auth s (s.record .authAccept k) :=
    Relation.ReflTransGen.single (Move.note (Or.inr (Or.inr rfl)))
  set u := (s.record .authAccept k).updateSta k fun st => { st with authSeq := seq + 1 }
  have hu : Quiet (s.record .authAccept k) u := quiet_updateSta rfl rfl rfl
  have hv := quiet_issueAuth u xmit (u.base.sta k).hwaddr (u.sta k) statsSuccessful
  set v := u.issueAuth xmit (u.base.sta k).hwaddr (u.sta k) statsSuccessful
  have hsv : Moves auth s v := (hnote.trans (moves_quiet hu)).trans (moves_quiet hv)
  split
  · exact hsv.trans (moves_quiet (quiet_updateSta rfl rfl rfl))
  · exact hsv

theorem reauth_frame (s : Ap ι) (k : StaId) :
    (s.reauth k).base = s.base ∧ (s.reauth k).sta = s.sta ∧
      ∀ j, j ∈ (s.reauth k).asocList ↔ j ∈ s.asocList ∧ j ≠ k := by
  unfold reauth
  dsimp only
  split
  · exact ⟨rfl, rfl, fun j => by simp [asocUnlink, record]⟩
  · rename_i hk
    refine ⟨rfl, rfl, fun j => ⟨fun hj => ⟨hj, ?_⟩, And.left⟩⟩
    rintro rfl
    exact hk hj

/-- The record that `OnAuth` goes on with was there, or it is new. -/
theorem authStation_cases (hw : WellFormed s) {sa : MacAddr}
    (h : s.authStation sa = (some k, s')) :
    (s.Live k ∧ s' = s.reauth k ∨ Moves auth s s') ∧ s'.Live k ∧ k ∉ s'.asocList := by
  unfold authStation at h
  split at h
  · rename_i j hj
    obtain ⟨hk, rfl⟩ := Prod.mk.inj h
    obtain rfl := Option.some.inj hk
    have hlive := live_of_get hj
    obtain ⟨hb, -, hasoc⟩ := s.reauth_frame j
    refine ⟨Or.inl ⟨hlive, rfl⟩, ?_, fun hmem => ((hasoc j).mp hmem).2 rfl⟩
    rw [Live, hb]
    exact hlive
  · split at h
    · simp at h
    · rename_i j u hu
      obtain ⟨hk, rfl⟩ := Prod.mk.inj h
      obtain rfl := Option.some.inj hk
      obtain ⟨base, -, he⟩ := alloc_eq hu
      have hsta : u.sta j = initApSta := by
        rw [he]
        simp [record, updateSta]
      have hasoc : u.asocList = s.asocList := by
        rw [he]
        rfl
      have hmark : Move auth u (u.updateSta j fun st => { st with state := wifiFwAuthNull }) := by
        refine Move.mark ?_ ?_ ?_
        · rw [hsta]
          rfl
        · rw [hsta]
          rfl
        · rw [hsta]
          rfl
      refine ⟨Or.inr ?_, (live_alloc hu).mpr (Or.inr rfl), ?_⟩
      · refine ((Relation.ReflTransGen.single (Move.alloc hu)).tail hmark).trans (moves_quiet ?_)
        have hq := quiet_updateSta
          (s := u.updateSta j fun st => { st with state := wifiFwAuthNull })
          (k := j) (f := fun st => { st with authSeq := 0 }) rfl rfl rfl
        simpa only [updateSta, Function.update_self, Function.update_idem] using hq
      · intro hmem
        change j ∈ u.asocList at hmem
        rw [hasoc] at hmem
        exact hw.not_live_alloc hu (hw.asocLive j hmem)

theorem moves_authComplete {clr : BitVec 32} (hlive : s.Live k)
    (hclr : clr = wifiFwAuthNull ∨ clr = wifiFwAuthState) : Moves auth s (s.authComplete k clr) :=
  Relation.ReflTransGen.single (Move.authDone hlive hclr)

theorem moves_authChallenge (xmit : Bool) (sa : MacAddr) (f : RecvFrame) (hlive : s.Live k)
    (hasoc : k ∉ s.asocList) : Moves auth s (s.authChallenge xmit k sa f) := by
  unfold authChallenge
  split
  · exact moves_authFail hlive hasoc
  · split
    · exact moves_authFail hlive hasoc
    · split
      · exact (moves_authComplete hlive (Or.inr rfl)).trans (moves_authAccept ..)
      · exact moves_authFail hlive hasoc

/-- The state word of a station that waits for frame 3. -/
theorem authState_bits (x : BitVec 32) :
    hasBits ((x &&& ~~~wifiFwAuthNull) ||| wifiFwAuthState) wifiFwAuthSuccess
        = hasBits x wifiFwAuthSuccess ∧
      hasBits ((x &&& ~~~wifiFwAuthNull) ||| wifiFwAuthState) wifiFwAssocSuccessBits
        = hasBits x wifiFwAssocSuccessBits ∧
      hasBits ((x &&& ~~~wifiFwAuthNull) ||| wifiFwAuthState) wifiSleepState
        = hasBits x wifiSleepState := by
  simp only [hasBits_authSuccess, hasBits_assocSuccess, hasBits_sleep]
  simp [wifiFwAuthNull, wifiFwAuthState]

/-- Frame 1 of a shared-key authentication. -/
theorem moves_authFirst (s : Ap ι) (k : StaId) (algorithm : ℕ) :
    Moves auth s (s.updateSta k fun st =>
      { st with
        state := (st.state &&& ~~~wifiFwAuthNull) ||| wifiFwAuthState
        authalg := algorithm, authSeq := 2 }) := by
  obtain ⟨h1, h2, h3⟩ := authState_bits (s.sta k).state
  refine (Relation.ReflTransGen.single (Move.mark h1 h2 h3)).trans ?_
  set u := s.updateSta k fun st =>
    { st with state := ((s.sta k).state &&& ~~~wifiFwAuthNull) ||| wifiFwAuthState } with hu
  have hq := quiet_updateSta (s := u) (k := k)
    (f := fun st => { st with authalg := algorithm, authSeq := 2 }) rfl rfl rfl
  have he : (s.updateSta k fun st =>
      { st with
        state := (st.state &&& ~~~wifiFwAuthNull) ||| wifiFwAuthState
        authalg := algorithm, authSeq := 2 })
      = u.updateSta k fun st => { st with authalg := algorithm, authSeq := 2 } := by
    simp only [hu, updateSta, Function.update_self, Function.update_idem]
  rw [he]
  exact moves_quiet hq

theorem moves_authExchange (xmit : Bool) (sa : MacAddr) (f : RecvFrame) (algorithm seq mode : ℕ)
    (hlive : s.Live k) (hasoc : k ∉ s.asocList) :
    Moves auth s (s.authExchange xmit k sa f algorithm seq mode) := by
  unfold authExchange
  dsimp only
  set u := if k ∈ s.authList then s else s.authLink k with hu
  have h₁ : Moves auth s u ∧ u.Live k ∧ k ∉ u.asocList := by
    rw [hu]
    split
    · exact ⟨Relation.ReflTransGen.refl, hlive, hasoc⟩
    · rename_i hauth
      exact ⟨Relation.ReflTransGen.single (Move.authAdd hlive hauth hasoc), hlive, hasoc⟩
  set v := if (u.sta k).authSeq = 0 then u.updateSta k fun st => { st with expireTo := u.authTo }
    else u with hv
  have h₂ : Moves auth u v ∧ v.Live k ∧ k ∉ v.asocList := by
    rw [hv]
    split
    · exact ⟨moves_quiet (quiet_updateSta rfl rfl rfl), h₁.2.1, h₁.2.2⟩
    · exact ⟨Relation.ReflTransGen.refl, h₁.2.1, h₁.2.2⟩
  obtain ⟨hmoves, hlive', hasoc'⟩ := h₂
  refine (h₁.1.trans hmoves).trans ?_
  clear_value v
  split
  · exact moves_authFail hlive' hasoc'
  · split
    · split
      · exact ((moves_authComplete hlive' (Or.inl rfl)).trans
          (moves_quiet (quiet_updateSta rfl rfl rfl))).trans (moves_authAccept ..)
      · exact moves_authFail hlive' hasoc'
    · split
      · exact (moves_authFirst v k algorithm).trans (moves_authAccept ..)
      · split
        · exact moves_authChallenge xmit sa f hlive' hasoc'
        · exact moves_authFail hlive' hasoc'

/-- There is no record for a new station. -/
theorem authStation_none {sa : MacAddr} (h : s.authStation sa = (none, s')) : s' = s := by
  unfold authStation at h
  split at h
  · simp at h
  · split at h
    · rename_i v hv
      cases h
      exact alloc_none hv
    · simp at h

/-- What `OnAuth` does : nothing, an answer that refuses the frame, or an exchange with the station
it finds. -/
theorem onAuth_cases (s : Ap ι) (xmit : Bool) (f : RecvFrame) :
    s.onAuth xmit f = s ∨ (∃ sa status, s.onAuth xmit f = s.authFail xmit none sa status) ∨
      (∃ sa u status, s.authStation sa = (none, u) ∧
        s.onAuth xmit f = u.authFail xmit none sa status) ∨
      ∃ sa k u algorithm seq mode, s.authStation sa = (some k, u) ∧
        s.onAuth xmit f = u.authExchange xmit k sa f algorithm seq mode := by
  unfold onAuth
  split
  · exact Or.inl rfl
  extract_lets sa seq algorithm sec mode
  split
  · exact Or.inr (Or.inl ⟨_, _, rfl⟩)
  split
  · exact Or.inr (Or.inl ⟨_, _, rfl⟩)
  split
  · rename_i u hu
    exact Or.inr (Or.inr (Or.inl ⟨_, u, _, hu, rfl⟩))
  · rename_i k u hu
    exact Or.inr (Or.inr (Or.inr ⟨_, k, u, _, _, _, hu, rfl⟩))

theorem moves_authStation (hw : WellFormed s) {sa : MacAddr}
    (h : s.authStation sa = (some k, s')) : Moves true s s' := by
  obtain ⟨⟨hold, rfl⟩ | hm, -⟩ := authStation_cases hw h
  · exact Relation.ReflTransGen.single (Move.reauth rfl hold)
  · exact hm

theorem moves_onAuth (hw : WellFormed s) (xmit : Bool) (f : RecvFrame) :
    Moves true s (s.onAuth xmit f) := by
  rcases s.onAuth_cases xmit f with he | ⟨sa, status, he⟩ | ⟨sa, u, status, hu, he⟩ |
    ⟨sa, k, u, algorithm, seq, mode, hu, he⟩
  · rw [he]
  · rw [he]
    exact moves_authFail_none
  · rw [he, authStation_none hu]
    exact moves_authFail_none
  · have hm := moves_authStation hw hu
    obtain ⟨-, hlive, hasoc⟩ := @authStation_cases ι _ s u k true hw sa hu
    rw [he]
    exact hm.trans (moves_authExchange xmit sa f algorithm seq mode hlive hasoc)

/-! ## Association and removal -/

theorem moves_refuse (hlive : s.Live k) (hreq : Requested k s t) :
    Moves auth s (t.assocReqFail k) :=
  Relation.ReflTransGen.single (Move.refuse hlive hreq)

/-- A request whose elements are accepted gets an id, if there is one. -/
theorem moves_assignAid (hlive : s.Live k) (hreq : Requested k s t) :
    Moves auth s (t.assignAid k) := by
  by_cases hroom : 0 < (t.sta k).aid ∨ t.freeAid ≤ t.maxNumSta.val
  · exact Relation.ReflTransGen.single (Move.accept hlive hreq hroom)
  · rw [not_or, not_le] at hroom
    unfold assignAid
    rw [if_neg hroom.1, if_pos hroom.2]
    exact moves_refuse hlive hreq

theorem moves_onAssocReq (r : AssocReq) : Moves auth s (s.onAssocReq r) := by
  unfold onAssocReq
  split
  · exact Relation.ReflTransGen.refl
  split
  · exact Relation.ReflTransGen.refl
  rename_i k hk
  have hlive := live_of_get hk
  extract_lets st s₁ s₂ s₃
  split
  · rename_i hcls
    exact Relation.ReflTransGen.single (Move.class2 (by simpa using hcls.1))
  have h₁ : Requested k s s₁ := (s.requested_assocStart k).update rfl rfl
  have h₂ : Requested k s s₂ := (h₁.parseWmm r.wmm).update rfl rfl
  have h₃ : Requested k s s₃ := h₂.update rfl rfl
  split
  · exact moves_refuse hlive h₁
  split
  · exact moves_refuse hlive h₂
  split
  · exact moves_refuse hlive h₃
  · exact moves_assignAid hlive h₃

theorem moves_expireFree (hasoc : k ∈ s.asocList) : Moves auth s (s.expireFree k) :=
  Relation.ReflTransGen.single (Move.remove hasoc)

theorem moves_onDeAuth (addr2 : MacAddr) : Moves auth s (s.onDeAuth addr2) := by
  unfold onDeAuth
  split
  · exact Relation.ReflTransGen.refl
  split
  · exact Relation.ReflTransGen.refl
  split
  · rename_i hasoc
    exact moves_expireFree hasoc
  · exact Relation.ReflTransGen.refl

theorem moves_freeStainfo (hwaddr : MacAddr) : Moves auth s (s.freeStainfo hwaddr) := by
  unfold freeStainfo
  split
  · exact Relation.ReflTransGen.refl
  rename_i k hk
  split
  · rename_i hasoc
    exact moves_expireFree hasoc
  · rename_i hasoc
    exact Relation.ReflTransGen.single (Move.free (live_of_get hk) hasoc)

/-! ## Sleeping stations -/

/-- A frame is kept for a sleeping station, or it stays where it is. -/
theorem moves_enqueue (hlive : s.Live k) {f : XmitFrame} (hg : f.bmcst = true → s.bcmc = some k) :
    Moves auth s (s.xmitframeEnqueueForSleepingSta k f).2 ∧
      (s.xmitframeEnqueueForSleepingSta k f).2.base = s.base := by
  unfold xmitframeEnqueueForSleepingSta
  split
  · exact ⟨Relation.ReflTransGen.refl, rfl⟩
  split
  · exact ⟨Relation.ReflTransGen.refl, rfl⟩
  split
  · rename_i hb
    split
    · exact ⟨Relation.ReflTransGen.single (Move.bufferGroup (hg hb)), rfl⟩
    · exact ⟨Relation.ReflTransGen.refl, rfl⟩
  split
  · rename_i hs
    exact ⟨Relation.ReflTransGen.single (Move.buffer hlive hs.1), rfl⟩
  · exact ⟨Relation.ReflTransGen.refl, rfl⟩

theorem moves_dequeueLoop (k : StaId) : ∀ (fs : List XmitFrame) (s : Ap ι), s.Live k →
    (∀ f ∈ fs, f.bmcst = true → s.bcmc = some k) →
    Moves auth s (dequeueLoop k fs s).2 ∧ (dequeueLoop k fs s).2.base = s.base ∧
      ∀ f ∈ (dequeueLoop k fs s).1, f ∈ fs
  | [], s, _, _ => ⟨Relation.ReflTransGen.refl, rfl, fun _ hf => hf⟩
  | f :: fs, s, hlive, hg => by
    obtain ⟨hmoves, hbase⟩ := moves_enqueue hlive (hg f List.mem_cons_self)
    rcases hq : s.xmitframeEnqueueForSleepingSta k f with ⟨kept, u⟩
    rw [hq] at hmoves hbase
    have hg' : ∀ g ∈ fs, g.bmcst = true → u.bcmc = some k := by
      intro g hgm hgb
      rw [bcmc, hbase]
      exact hg g (List.mem_cons_of_mem f hgm) hgb
    have hlive' : u.Live k := by
      rw [Live, hbase]
      exact hlive
    obtain ⟨ih, ihbase, ihmem⟩ := moves_dequeueLoop k fs u hlive' hg'
    cases kept with
    | true =>
      rw [dequeueLoop, hq]
      exact ⟨hmoves.trans ih, ihbase.trans hbase, fun g hgm => List.mem_cons_of_mem f (ihmem g hgm)⟩
    | false =>
      rw [dequeueLoop, hq]
      refine ⟨hmoves.trans ih, ihbase.trans hbase, fun g hgm => ?_⟩
      rcases List.mem_cons.mp hgm with rfl | hgm
      · exact List.mem_cons_self
      · exact List.mem_cons_of_mem f (ihmem g hgm)

theorem moves_dequeue (hw : WellFormed s) (hlive : s.Live k) (q : AcQueue) :
    Moves auth s (s.dequeueXmitframesToSleepingQueue k q) ∧
      (s.dequeueXmitframesToSleepingQueue k q).base = s.base := by
  obtain ⟨hmoves, hbase, hmem⟩ := moves_dequeueLoop k ((s.sta k).pending q) s hlive (hw.groups k q)
  unfold dequeueXmitframesToSleepingQueue
  rcases hl : dequeueLoop k ((s.sta k).pending q) s with ⟨kept, u⟩
  rw [hl] at hmoves hbase hmem
  refine ⟨hmoves.tail (Move.setPending fun f hf hb => ?_), hbase⟩
  rw [bcmc, hbase]
  exact hw.groups k q f (hmem f hf) hb

theorem moves_stopStaXmit (hw : WellFormed s) (hlive : s.Live k)
    (h : s.stopStaXmit k = some s') : Moves auth s s' ∧ s'.base = s.base := by
  -- the five queues are emptied one after the other
  have hstep : ∀ (u : Ap ι) (j : StaId) (q : AcQueue), Moves auth s u ∧ u.base = s.base → s.Live j →
      Moves auth s (u.dequeueXmitframesToSleepingQueue j q) ∧
        (u.dequeueXmitframesToSleepingQueue j q).base = s.base := by
    rintro u j q ⟨hm, hb⟩ hj
    have hj' : u.Live j := by
      rw [Live, hb]
      exact hj
    obtain ⟨hm', hb'⟩ := moves_dequeue (wellFormed_moves hw hm) hj' q
    exact ⟨hm.trans hm', hb'.trans hb⟩
  have h₀ : Moves auth s (s.fallAsleep k) ∧ (s.fallAsleep k).base = s.base :=
    ⟨Relation.ReflTransGen.single (Move.stop hlive), rfl⟩
  have h₁ := hstep _ k .vo h₀ hlive
  have h₂ := hstep _ k .vi h₁ hlive
  have h₃ := hstep _ k .be h₂ hlive
  have h₄ := hstep _ k .bk h₃ hlive
  unfold stopStaXmit at h
  dsimp only at h
  obtain ⟨bmc, hbmc, rfl⟩ := Option.map_eq_some_iff.mp h
  rw [h₄.2] at hbmc
  exact hstep _ bmc .be h₄ (live_of_get hbmc)

theorem moves_wakeup (hlive : s.Live k)
    (h : (s.sta k).asleep = true ∨ (s.sta k).sleepQ ≠ []) : Moves auth s (s.wakeupStaToXmit k) :=
  (Relation.ReflTransGen.single (Move.wakeup hlive h)).tail Move.wakeupGroup

theorem wakeupStaToXmit_frame (s : Ap ι) (k : StaId) :
    (s.wakeupStaToXmit k).base = s.base ∧ (s.wakeupStaToXmit k).asocList = s.asocList := by
  have hsta : (s.wakeupSta k).base = s.base ∧ (s.wakeupSta k).asocList = s.asocList := by
    unfold wakeupSta
    dsimp only
    split
    · exact ⟨rfl, rfl⟩
    · exact ⟨rfl, rfl⟩
  have hgroup : ∀ u : Ap ι, u.wakeupGroup.base = u.base ∧ u.wakeupGroup.asocList = u.asocList := by
    intro u
    unfold wakeupGroup
    split
    · exact ⟨rfl, rfl⟩
    split
    · dsimp only
      split
      · exact ⟨rfl, rfl⟩
      · exact ⟨rfl, rfl⟩
    · exact ⟨rfl, rfl⟩
  obtain ⟨hb, ha⟩ := hgroup (s.wakeupSta k)
  exact ⟨hb.trans hsta.1, ha.trans hsta.2⟩

theorem moves_note (op : ApOp) (k : StaId) (hop : op = .pwrBit ∨ op = .handUp ∨ op = .authAccept) :
    Moves auth s (s.record op k) :=
  Relation.ReflTransGen.single (Move.note hop)

theorem moves_processPwrbitData (hw : WellFormed s) (hlive : s.Live k) {pwrbit : Bool}
    (h : s.processPwrbitData k pwrbit = some s') : Moves auth s s' ∧ s'.base = s.base := by
  have hnote : Moves auth s (s.record .pwrBit k) := moves_note _ k (Or.inl rfl)
  unfold processPwrbitData at h
  split at h
  · split at h
    · cases h
      exact ⟨Relation.ReflTransGen.refl, rfl⟩
    · obtain ⟨hm, hb⟩ := moves_stopStaXmit (wellFormed_moves hw hnote) hlive h
      exact ⟨hnote.trans hm, hb⟩
  · split at h
    · rename_i hs
      cases h
      exact ⟨hnote.trans (moves_wakeup hlive (Or.inl hs)), (wakeupStaToXmit_frame ..).1⟩
    · cases h
      exact ⟨Relation.ReflTransGen.refl, rfl⟩

theorem moves_processWmmpsData (hlive : s.Live k) (priority : ℕ) :
    Moves auth s (s.processWmmpsData k priority) ∧ (s.processWmmpsData k priority).base =
      s.base := by
  unfold processWmmpsData
  dsimp only
  split
  · rename_i hc
    exact ⟨Relation.ReflTransGen.single (Move.deliver hlive hc.2.2.1), rfl⟩
  · exact ⟨Relation.ReflTransGen.refl, rfl⟩

theorem moves_sta2apPowerSave (hw : WellFormed s) (hlive : s.Live k) {fr : RecvFrame}
    (h : s.sta2apPowerSave k fr = some s') : Moves auth s s' ∧ s'.base = s.base := by
  unfold sta2apPowerSave at h
  obtain ⟨u, hu, rfl⟩ := Option.map_eq_some_iff.mp h
  obtain ⟨hm, hb⟩ := moves_processPwrbitData hw hlive hu
  have hlive' : u.Live k := by
    rw [Live, hb]
    exact hlive
  split
  · obtain ⟨hm', hb'⟩ := moves_processWmmpsData hlive' fr.attrib.priority
    exact ⟨hm.trans hm', hb'.trans hb⟩
  · exact ⟨hm, hb⟩

theorem psPoll_base (s : Ap ι) (k : StaId) (priority : ℕ) :
    (s.psPoll k priority).base = s.base := by
  unfold psPoll
  split
  · rfl
  dsimp only
  split
  · unfold psPollFrame
    dsimp only
    split
    · rfl
    · split <;> rfl
  · rfl

theorem moves_validateRecvCtrlFrame (s : Ap ι) (fr : RecvFrame) :
    Moves auth s (s.validateRecvCtrlFrame fr) ∧ (s.validateRecvCtrlFrame fr).base = s.base := by
  unfold validateRecvCtrlFrame
  split
  · exact ⟨Relation.ReflTransGen.refl, rfl⟩
  split
  · exact ⟨Relation.ReflTransGen.refl, rfl⟩
  rename_i k hk
  split
  · exact ⟨Relation.ReflTransGen.refl, rfl⟩
  · exact ⟨Relation.ReflTransGen.single (Move.psPoll (live_of_get hk)), psPoll_base ..⟩

/-- The station of a to-DS frame has a record. -/
theorem live_toDsSta {fr : RecvFrame} (h : s.base.toDsSta fr = some k) : s.Live k := by
  unfold Adapter.toDsSta at h
  split at h
  · simp at h
  · rename_i hno
    have hto : (Adapter.readHeader fr).attrib.toFrDs = 2 := by
      by_contra hne
      exact hno (Or.inr (Or.inr (Or.inr hne)))
    rw [Adapter.checkDirection_toDs hto, Adapter.sta2apDataFrame_sta] at h
    split at h
    · exact live_of_get h
    · simp at h

theorem moves_recvPowerSave (hw : WellFormed s) {fr : RecvFrame}
    (h : s.recvPowerSave fr = some s') : Moves auth s s' ∧ s'.base = s.base := by
  unfold recvPowerSave at h
  split at h
  · rename_i k hk
    exact moves_sta2apPowerSave hw (live_toDsSta hk) h
  · split at h
    · cases h
      exact ⟨Relation.ReflTransGen.refl, rfl⟩
    · cases h
      exact moves_validateRecvCtrlFrame s fr

/-- Entries of the log about frames. -/
theorem moves_notes (s : Ap ι) : ∀ cs : List ApCall, (∀ c ∈ cs, c.op = .handUp) →
    Moves auth s { s with calls := cs ++ s.calls }
  | [], _ => Relation.ReflTransGen.refl
  | c :: cs, h =>
    (moves_notes s cs fun c hc => h c (List.mem_cons_of_mem _ hc)).tail
      (Move.note (s := { s with calls := cs ++ s.calls })
        (Or.inr (Or.inl (h c List.mem_cons_self))))

theorem handUpOf_op (s : Ap ι) (i : Indication ι) : (s.handUpOf i).op = .handUp := by
  unfold handUpOf
  split <;> rfl

theorem moves_recordHandUps (s : Ap ι) (n : ℕ) : Moves auth s (s.recordHandUps n) := by
  refine moves_notes s _ fun c hc => ?_
  obtain ⟨i, -, rfl⟩ := List.mem_map.mp (List.mem_reverse.mp hc)
  exact s.handUpOf_op i

/-- The frames of a queue get new values, with group frames for the broadcast station only. -/
theorem moves_setPending {q : AcQueue} {l : List XmitFrame}
    (h : ∀ f ∈ l, f.bmcst = true → s.bcmc = some k) : Moves auth s (s.setPending k q l) :=
  Relation.ReflTransGen.single (Move.setPending h)

theorem moves_rtwXmit (hw : WellFormed s) (ra : MacAddr) (priority : ℕ) (direct : Bool) :
    Moves auth s (s.rtwXmit ra priority direct) := by
  unfold rtwXmit
  split
  · exact Relation.ReflTransGen.refl
  rename_i k hk
  split
  · exact Relation.ReflTransGen.refl
  extract_lets f q
  have hg : f.bmcst = true → s.bcmc = some k := by
    intro hb
    change isMcast ra = true at hb
    unfold Adapter.rtwGetStainfo at hk
    rw [if_pos hb] at hk
    exact hk
  obtain ⟨hm, hb⟩ := moves_enqueue (live_of_get hk) hg
  split
  · rename_i u hu
    rw [hu] at hm
    exact hm
  · rename_i u hu
    rw [hu] at hm hb
    have hbc : u.bcmc = s.bcmc := by rw [bcmc, hb, bcmc]
    split
    · exact hm
    · refine hm.trans (moves_setPending fun g hgm hgb => ?_)
      rcases List.mem_append.mp hgm with hgm | hgm
      · exact (wellFormed_moves hw hm).groups k q g hgm hgb
      · obtain rfl := List.mem_singleton.mp hgm
        rw [hbc]
        exact hg hgb

/-! ## Timers -/

theorem mem_expireFree : j ∈ (s.expireFree k).asocList ↔ j ∈ s.asocList ∧ j ≠ k := by
  unfold expireFree apFreeSta
  rw [asocList_free]
  change j ∈ s.asocList.filter (· ≠ k) ↔ _
  simp

/-- A fold over a list of stations, each of which is still there when it is reached. -/
theorem moves_foldl {f : Ap ι → StaId → Ap ι} {l : Ap ι → List StaId}
    (hf : ∀ s k, WellFormed s → k ∈ l s →
      Moves auth s (f s k) ∧ ∀ j, j ≠ k → j ∈ l s → j ∈ l (f s k)) :
    ∀ (ks : List StaId) (s : Ap ι), WellFormed s → ks.Nodup → (∀ k ∈ ks, k ∈ l s) →
      Moves auth s (ks.foldl f s)
  | [], s, _, _, _ => Relation.ReflTransGen.refl
  | k :: ks, s, hw, hnd, hmem => by
    rw [List.nodup_cons] at hnd
    obtain ⟨hm, hkeep⟩ := hf s k hw (hmem k List.mem_cons_self)
    rw [List.foldl_cons]
    refine hm.trans (moves_foldl hf ks _ (wellFormed_moves hw hm) hnd.2 fun j hj => ?_)
    exact hkeep j (ne_of_mem_of_not_mem hj hnd.1) (hmem j (List.mem_cons_of_mem k hj))

/-- A station on `auth_list` gets older. -/
theorem moves_expireAuth (hw : WellFormed s) (hauth : k ∈ s.authList) :
    Moves auth s (s.expireAuth k) ∧ ∀ j, j ≠ k → j ∈ s.authList →
      j ∈ (s.expireAuth k).authList := by
  unfold expireAuth
  dsimp only
  split
  · exact ⟨Relation.ReflTransGen.refl, fun _ _ hj => hj⟩
  have hq : Moves auth s (s.updateSta k fun st => { st with expireTo := (s.sta k).expireTo - 1 }) :=
    moves_quiet (quiet_updateSta rfl rfl rfl)
  split
  · refine ⟨(hq.tail (Move.authDel hauth)).tail
      (Move.free (hw.authLive k hauth) (hw.disjoint k hauth)), fun j hj hmem => ?_⟩
    rw [authList_free]
    simpa [authUnlink, updateSta, hj] using hmem
  · exact ⟨hq, fun _ _ hj => hj⟩

/-- What one round over `asoc_list` does : only its own station may leave the list, and it does
not leave if it has to be asked. -/
structure Round (auth : Bool) (k : StaId) (s : Ap ι) (r : Option StaId × Ap ι) : Prop where
  moves : Moves auth s r.2
  others : ∀ j, j ≠ k → j ∈ s.asocList → j ∈ r.2.asocList
  asked : ∀ j ∈ r.1, j = k ∧ k ∈ r.2.asocList

theorem round_expireDue (hlive : s.Live k) (hk : k ∈ s.asocList) :
    Round auth k s (s.expireDue k) := by
  unfold expireDue
  dsimp only
  split
  · have hq : Quiet s (s.updateSta k fun st => { st with expireTo := s.expireTo }) :=
      quiet_updateSta rfl rfl rfl
    exact ⟨moves_quiet hq, fun _ _ hj => hj, by simp⟩
  set chk := (s.sta k).asleep && !hasBits (s.sta k).state wifiStaAliveChkState with hchk
  set u := if chk then s.aliveChk k else s with hu
  have h₁ : Moves auth s u ∧ u.asocList = s.asocList ∧ u.Live k := by
    rw [hu]
    split
    · rename_i hc
      have hasleep : (s.sta k).asleep = true := by
        rw [hchk, Bool.and_eq_true] at hc
        exact hc.1
      exact ⟨Relation.ReflTransGen.single (Move.aliveChk hlive hasleep), rfl, hlive⟩
    · exact ⟨Relation.ReflTransGen.refl, rfl, hlive⟩
  obtain ⟨hm, hasoc, hlive'⟩ := h₁
  split
  · refine ⟨hm, fun j _ hj => hasoc ▸ hj, fun j hj => ?_⟩
    obtain rfl := Option.mem_some_iff.mp hj
    exact ⟨rfl, hasoc ▸ hk⟩
  · split
    · exact ⟨hm, fun j _ hj => hasoc ▸ hj, by simp⟩
    · refine ⟨hm.trans (moves_expireFree (hasoc ▸ hk)), fun j hj hmem => ?_, by simp⟩
      rw [mem_expireFree, hasoc]
      exact ⟨hmem, hj⟩

theorem round_expireAsoc (hw : WellFormed s) (env : TickEnv) (hk : k ∈ s.asocList) :
    Round auth k s (s.expireAsoc env k) := by
  have hq : Quiet s (s.countDown env k) := by
    refine quiet_updateSta ?_ ?_ ?_
    · split <;> rfl
    · split <;> rfl
    · split <;> rfl
  have hw' : WellFormed (s.countDown env k) := wellFormed_move hw (Move.quiet hq : Move auth s _)
  have hk' : k ∈ (s.countDown env k).asocList := hk
  have hlive := hw'.asocLive k hk'
  unfold expireAsoc
  set u := s.countDown env k
  dsimp only
  split
  · have hdue : Round auth k u (u.expireDue k) := round_expireDue hlive hk'
    exact ⟨(moves_quiet hq).trans hdue.moves, hdue.others, hdue.asked⟩
  split
  · rename_i hc
    have hne : (u.sta k).sleepQ ≠ [] := by
      intro hnil
      have hlen := hw'.counted k
      rw [hnil, List.length_nil] at hlen
      omega
    refine ⟨(moves_quiet hq).trans (moves_wakeup hlive (Or.inr hne)), fun j _ hj => ?_, by simp⟩
    rw [(wakeupStaToXmit_frame ..).2]
    exact hj
  · exact ⟨moves_quiet hq, fun _ _ hj => hj, by simp⟩

theorem moves_expireAsocLoop (env : TickEnv) : ∀ (ks : List StaId) (s : Ap ι), WellFormed s →
    ks.Nodup → (∀ k ∈ ks, k ∈ s.asocList) →
    Moves auth s (expireAsocLoop env ks s).2 ∧
      (∀ j ∈ s.asocList, j ∉ ks → j ∈ (expireAsocLoop env ks s).2.asocList) ∧
      (expireAsocLoop env ks s).1.Nodup ∧
      ∀ j ∈ (expireAsocLoop env ks s).1, j ∈ ks ∧ j ∈ (expireAsocLoop env ks s).2.asocList
  | [], s, _, _, _ => ⟨Relation.ReflTransGen.refl,
    fun _ hj _ => hj, List.nodup_nil, by simp [expireAsocLoop]⟩
  | k :: ks, s, hw, hnd, hmem => by
    rw [List.nodup_cons] at hnd
    have hround : Round auth k s (s.expireAsoc env k) :=
      round_expireAsoc hw env (hmem k List.mem_cons_self)
    rw [expireAsocLoop]
    rcases hstep : s.expireAsoc env k with ⟨chk, u⟩
    rw [hstep] at hround
    have hmem' : ∀ j ∈ ks, j ∈ u.asocList := fun j hj =>
      hround.others j (ne_of_mem_of_not_mem hj hnd.1) (hmem j (List.mem_cons_of_mem k hj))
    obtain ⟨ihm, ihkeep, ihnd, ihmem⟩ :=
      moves_expireAsocLoop env ks u (wellFormed_moves hw hround.moves) hnd.2 hmem'
    dsimp only
    refine ⟨hround.moves.trans ihm, fun j hj hnot => ?_, ?_, fun j hj => ?_⟩
    · rw [List.mem_cons, not_or] at hnot
      exact ihkeep j (hround.others j hnot.1 hj) hnot.2
    · rw [List.nodup_append]
      refine ⟨?_, ihnd, fun x hx y hy => ?_⟩
      · cases chk with
        | none => exact List.nodup_nil
        | some c => exact List.nodup_singleton c
      · obtain ⟨rfl, -⟩ := hround.asked x (Option.mem_toList.mp hx)
        exact (ne_of_mem_of_not_mem (ihmem y hy).1 hnd.1).symm
    · rcases List.mem_append.mp hj with hj | hj
      · obtain ⟨rfl, hk⟩ := hround.asked j (Option.mem_toList.mp hj)
        exact ⟨List.mem_cons_self, ihkeep j hk hnd.1⟩
      · exact ⟨List.mem_cons_of_mem k (ihmem j hj).1, (ihmem j hj).2⟩

theorem moves_expireAsk (env : TickEnv) (hasoc : k ∈ s.asocList) :
    Moves auth s (expireAsk env s k) ∧
      ∀ j, j ≠ k → j ∈ s.asocList → j ∈ (expireAsk env s k).asocList := by
  unfold expireAsk
  dsimp only
  split
  · exact ⟨moves_quiet (quiet_updateSta rfl rfl rfl), fun _ _ hj => hj⟩
  split
  · exact ⟨moves_quiet (quiet_updateSta rfl rfl rfl), fun _ _ hj => hj⟩
  · set u := s.updateSta k fun st => { st with keepAliveTrycnt := 0 }
    have hq : Quiet s u := quiet_updateSta rfl rfl rfl
    refine ⟨(moves_quiet hq).trans (moves_expireFree hasoc), fun j hj hmem => ?_⟩
    rw [mem_expireFree]
    exact ⟨hmem, hj⟩

theorem moves_expireTimeoutChk (hw : WellFormed s) (env : TickEnv) :
    Moves auth s (s.expireTimeoutChk env) := by
  have h₁ : Moves auth s (s.authList.foldl expireAuth s) :=
    moves_foldl (fun _ _ => moves_expireAuth) s.authList s hw hw.authNodup fun _ hk => hk
  have hw₁ := wellFormed_moves hw h₁
  unfold expireTimeoutChk
  dsimp only
  set u := s.authList.foldl expireAuth s
  obtain ⟨h₂, -, hnd, hmem⟩ :=
    moves_expireAsocLoop env u.asocList u hw₁ hw₁.asocNodup fun _ hk => hk
  refine (h₁.trans h₂).trans ?_
  exact moves_foldl (fun _ _ _ => moves_expireAsk env) _ _ (wellFormed_moves hw₁ h₂) hnd
    fun j hj => (hmem j hj).2

end Ap

/-! ## Block-ack frames -/

namespace Adapter

variable {ι : Type} [DecidableEq ι] {F : Set (ι × StaId × Fin 16)} {A : Set ι} {s s' : Adapter ι}

/-- Records change, but not their addresses, and no frame does. -/
theorem onward_updateSta {k : StaId} {g : StaInfo → StaInfo}
    (h : (g (s.sta k)).hwaddr = (s.sta k).hwaddr) : Onward F A s (s.updateSta k g) :=
  ⟨sameStations_updateSta h, fun _ => rfl, fun _ _ hx => Or.inl hx, [], by simp [updateSta]⟩

theorem onward_issueActionBA (s : Adapter ι) (raddr : MacAddr) (action : BaAction) (status : ℕ) :
    Onward F A s (s.issueActionBA raddr action status) := by
  obtain ⟨seq, token, avail, sent, b, he⟩ := issueActionBA_eq s raddr action status
  rw [he]
  exact ⟨⟨rfl, rfl, fun _ => rfl, rfl, rfl⟩, fun _ => rfl, fun _ _ hx => Or.inl hx, [], by simp⟩

theorem onward_onAddbaReq (s : Adapter ι) (m : Mem) (body : ℤ) (addr : MacAddr) :
    Onward F A s (s.onAddbaReq m body addr) := by
  unfold onAddbaReq
  dsimp only
  set u : Adapter ι := { s with mlmeext.addbaReq := copyAddbaReq m body }
  have hu : Onward F A s u :=
    ⟨⟨rfl, rfl, fun _ => rfl, rfl, rfl⟩, fun _ => rfl, fun _ _ hx => Or.inl hx, [], by simp [u]⟩
  have hv : Onward F A u (u.processAddbaReq u.mlmeext.addbaReq addr) := by
    unfold processAddbaReq
    split
    · exact Onward.refl u
    · exact onward_updateSta rfl
  refine (hu.trans hv).trans ?_
  split
  · exact onward_issueActionBA ..
  · exact onward_issueActionBA ..

/-- Block-ack frames leave the frames and the table of the stations alone. -/
theorem onward_onActionBack (s : Adapter ι) (m : Mem) (pframe : ℤ) :
    Onward F A s (s.onActionBack m pframe) := by
  unfold onActionBack
  split
  · exact Onward.refl s
  split
  · exact Onward.refl s
  dsimp only
  split
  · exact Onward.refl s
  split
  · split
    · exact Onward.refl s
    split
    · exact onward_onAddbaReq ..
    split
    · unfold onAddbaResp
      dsimp only
      split
      · exact onward_updateSta rfl
      · exact onward_updateSta rfl
    split
    · unfold onDelba
      dsimp only
      split
      · exact onward_updateSta rfl
      · exact onward_updateSta rfl
    · exact Onward.refl s
  · exact Onward.refl s

end Adapter

/-! ## Steps and runs -/

namespace Ap

variable {ι : Type} [DecidableEq ι] {s s' : Ap ι} {auth : Bool}

/-- The table of the stations is changed by allocation and release only. -/
theorem move_stations (hw : WellFormed s) (h : Move auth s s') :
    Adapter.SameStations s.base s'.base ∨ (∃ a k, s.rtwAllocStainfo a = (some k, s')) ∨
      ∃ (u : Ap ι) (k : StaId), u.base = s.base ∧ u.Live k ∧ s' = u.rtwFreeStainfo k := by
  have hrfl := Adapter.SameStations.refl s.base
  cases h with
  | quiet h => exact Or.inl h.stations
  | alloc h => exact Or.inr (Or.inl ⟨_, _, h⟩)
  | free hlive _ => exact Or.inr (Or.inr ⟨_, _, rfl, hlive, rfl⟩)
  | @remove k hasoc =>
    exact Or.inr (Or.inr ⟨(s.asocUnlink k).apLeave k, k, rfl, hw.asocLive k hasoc, rfl⟩)
  | note | authAdd | authDel | mark | authDone | class2 | stop | buffer
  | bufferGroup | setPending | deliver | aliveChk => exact Or.inl hrfl
  | reauth =>
    unfold reauth
    dsimp only
    split
    · exact Or.inl hrfl
    · exact Or.inl hrfl
  | refuse _ hreq =>
    obtain ⟨c, hc⟩ := hreq.refused
    exact Or.inl hc.tables.stations
  | accept _ hreq hroom =>
    obtain ⟨a, ha⟩ := hreq.accepted hroom
    exact Or.inl ha.stations
  | @wakeup k =>
    obtain ⟨st, v, -, -, -, -, he⟩ := wakeupSta_eq (hw.counted k)
    rw [he]
    exact Or.inl hrfl
  | wakeupGroup =>
    rcases wakeupGroup_cases hw with he | ⟨b, st, -, -, -, he⟩
    · rw [he]
      exact Or.inl hrfl
    · rw [he]
      exact Or.inl hrfl
  | psPoll =>
    left
    rw [psPoll_base]
    exact hrfl
  | txBeacon =>
    rcases txBeaconHdl_cases hw with he | ⟨b, st, -, -, -, -, he⟩
    · rw [he]
      exact Or.inl hrfl
    · rw [he]
      exact Or.inl hrfl
  | hiQueue =>
    rcases rtwChkHiQueueHdl_cases hw _ with he | ⟨b, -, -, he⟩
    · rw [he]
      exact Or.inl hrfl
    · rw [he]
      exact Or.inl hrfl

theorem mlmepriv_moves (hw : WellFormed s) (h : Moves auth s s') :
    s'.base.mlmepriv = s.base.mlmepriv := by
  induction h with
  | refl => rfl
  | @tail u v hu hm ih =>
    rw [← ih]
    rcases move_stations (wellFormed_moves hw hu) hm with hs | ⟨a, k, ha⟩ | ⟨x, k, hx, -, rfl⟩
    · exact hs.mlmepriv
    · obtain ⟨base, hb, rfl⟩ := alloc_eq ha
      obtain ⟨rest, -, -, -, -, hmlme⟩ := Adapter.rtwAllocStainfo_eq hb
      exact hmlme
    · rw [base_free, ← hx]
      exact (x.base.rtwFreeStainfo_fields k).2.2.2

/-- The log only grows. -/
theorem calls_move (hw : WellFormed s) (h : Move auth s s') : s.calls <:+ s'.calls := by
  cases h with
  | quiet h => rw [h.calls]
  | alloc h =>
    obtain ⟨base, -, rfl⟩ := alloc_eq h
    exact List.suffix_cons ..
  | free | remove => exact List.suffix_cons ..
  | authAdd | authDel | mark | bufferGroup | setPending => exact List.suffix_rfl
  | reauth =>
    unfold reauth
    dsimp only
    split
    · exact List.suffix_cons ..
    · exact List.suffix_cons ..
  | note | authDone | class2 | stop | buffer | deliver | aliveChk => exact List.suffix_cons ..
  | refuse _ hreq =>
    obtain ⟨c, hc⟩ := hreq.refused
    rw [hc.calls]
    exact (List.suffix_cons _ _).trans (List.suffix_cons _ _)
  | accept _ hreq hroom =>
    obtain ⟨a, ha⟩ := hreq.accepted hroom
    obtain ⟨c, -, hcalls⟩ := ha.calls
    rw [hcalls]
    exact (List.suffix_cons _ _).trans (List.suffix_cons _ _)
  | @wakeup k =>
    obtain ⟨st, v, -, -, -, -, he⟩ := wakeupSta_eq (hw.counted k)
    rw [he]
    exact List.suffix_cons ..
  | wakeupGroup =>
    rcases wakeupGroup_cases hw with he | ⟨b, st, -, -, -, he⟩
    · rw [he]
    · rw [he]
      exact List.suffix_rfl
  | @psPoll k priority =>
    rcases psPoll_cases (hw.counted k) priority with he | ⟨st, v, q, tim, -, -, -, -, -, -, he⟩
    · rw [he]
    · rw [he]
      exact List.suffix_cons ..
  | txBeacon =>
    rcases txBeaconHdl_cases hw with he | ⟨b, st, -, -, -, -, he⟩
    · rw [he]
    · rw [he]
  | hiQueue =>
    rcases rtwChkHiQueueHdl_cases hw _ with he | ⟨b, -, -, he⟩
    · rw [he]
    · rw [he]
      exact List.suffix_rfl

theorem calls_moves (hw : WellFormed s) (h : Moves auth s s') : s.calls <:+ s'.calls := by
  induction h with
  | refl => exact List.suffix_rfl
  | tail hu hm ih => exact ih.trans (calls_move (wellFormed_moves hw hu) hm)

end Ap

namespace Ap

variable {s s' t : Ap RecvId} {e : ApEvent} {auth : Bool}

theorem moves_withBase {r : Option (Adapter RecvId)}
    (hr : ∀ base, r = some base → Adapter.SameStations s.base base)
    (h : s.withBase r = some s') : Moves auth s s' := by
  obtain ⟨base, hb, rfl⟩ := Option.map_eq_some_iff.mp h
  exact (moves_quiet (quiet_base (hr base hb))).trans (moves_recordHandUps ..)

/-- Every event is made of moves. -/
theorem moves_apStep (hw : WellFormed s)
    (hsta : checkFwstate s.base.mlmepriv.fwState wifiStationState = false)
    (h : s.apStep e = some s') : Moves e.isAuth s s' := by
  cases e with
  | auth xmit f =>
    cases h
    exact moves_onAuth hw xmit f
  | assocReq r =>
    cases h
    exact moves_onAssocReq r
  | deauth addr2 =>
    cases h
    exact moves_onDeAuth addr2
  | freeStainfo hwaddr =>
    cases h
    exact moves_freeStainfo hwaddr
  | rx fr =>
    rw [apStep, rx] at h
    split at h
    · cases h
      exact Relation.ReflTransGen.refl
    · obtain ⟨u, hu, h⟩ := Option.bind_eq_some_iff.mp h
      obtain ⟨hm, hb⟩ := moves_recvPowerSave hw hu
      refine hm.trans (moves_withBase (fun base hbase => ?_) h)
      rw [← hb] at hsta
      exact (Adapter.received_recvStep hsta hbase).toSameStations
  | back fr =>
    cases h
    exact moves_quiet (quiet_base
      (Adapter.onward_onActionBack (F := ∅) (A := ∅) s.base fr.mem fr.rxData).toSameStations)
  | timeout c =>
    refine moves_withBase (fun base hbase => ?_) h
    exact (Adapter.onward_timeout (F := ∅) (fun _ hx => hx) hbase).toSameStations
  | tick env =>
    cases h
    exact moves_expireTimeoutChk hw env
  | xmit ra priority direct =>
    cases h
    exact moves_rtwXmit hw ra priority direct
  | sent k q =>
    cases h
    exact moves_setPending fun f hf hb => hw.groups k q f (List.mem_of_mem_tail hf) hb
  | txBeacon =>
    cases h
    exact Relation.ReflTransGen.single Move.txBeacon
  | chkHiQueue empty =>
    cases h
    exact Relation.ReflTransGen.single Move.hiQueue

/-- An access point that has not had a station : the broadcast station is there, the records are
as `_rtw_init_stainfo` leaves them, and no frame waits anywhere. -/
structure Started (s : Ap RecvId) : Prop where
  freeNodup : s.base.freeStaQueue.Nodup
  freeDead : ∀ k ∈ s.base.freeStaQueue, ¬ s.Live k
  bcmc : ∃ b, s.bcmc = some b
  sta : ∀ k, s.sta k = initApSta
  authList : s.authList = []
  asocList : s.asocList = []
  authListCnt : s.authListCnt = 0
  asocListCnt : s.asocListCnt = 0
  bss : s.bss.numStaNoShortPreamble = 0 ∧ s.bss.numStaNonErp = 0 ∧ s.bss.numStaNoShortSlotTime = 0 ∧
    s.bss.numStaNoHt = 0 ∧ s.bss.numStaHtNoGf = 0 ∧ s.bss.numStaHt20mhz = 0 ∧
    s.bss.olbcHt = false ∧ s.bss.htOpMode = 0
  staAid : ∀ i, s.staAid i = none
  staDzBitmap : s.staDzBitmap = 0
  timBitmap : s.timBitmap = 0
  inHiq : s.inHiq = false
  calls : s.calls = []
  notStation : checkFwstate s.base.mlmepriv.fwState wifiStationState = false
  pending : ∀ c, s.base.pendingOf c = []

theorem Started.wellFormed (h : Started s) : WellFormed s := by
  refine ⟨h.freeNodup, h.freeDead, ?_, ?_, ?_, ?_, ?_, ?_, ?_, fun k => ?_, fun k q f hf => ?_⟩
  · simp [h.authList]
  · simp [h.asocList]
  · simp [h.authList]
  · simp [h.asocList]
  · simp [h.authList]
  · rw [h.authListCnt, h.authList, List.length_nil]
  · rw [h.asocListCnt, h.asocList, List.length_nil]
  · rw [h.sta]
    rfl
  · rw [h.sta] at hf
    simp [initApSta] at hf

theorem moves_apRun (hs : Started s) {es : List ApEvent} (h : runM apStep s es = some t) :
    Moves true s t := by
  refine invariant_runM (I := fun _ u => Moves true s u) Relation.ReflTransGen.refl ?_ h
  intro es e u v hu hv
  refine hu.trans (moves_true (moves_apStep (wellFormed_moves hs.wellFormed hu) ?_ hv))
  rw [mlmepriv_moves hs.wellFormed hu]
  exact hs.notStation

/-- What holds at the start, and is kept by every event whose entries of the log meet `P`, holds
after every run all of whose entries meet `P`. -/
theorem invariant_apEvents {P : ApCall → Prop} {I : Ap RecvId → Prop} (hs : Started s) (h0 : I s)
    (hstep : ∀ u e v, WellFormed u → I u → (∀ c ∈ v.calls, P c) → u.apStep e = some v →
      Moves e.isAuth u v → I v)
    {es : List ApEvent} (h : runM apStep s es = some t) (hP : ∀ c ∈ t.calls, P c) : I t := by
  have hinv := invariant_runM (I := fun _ u => Moves true s u ∧ ((∀ c ∈ u.calls, P c) → I u))
    ⟨Relation.ReflTransGen.refl, fun _ => h0⟩ ?_ h
  · exact hinv.2 hP
  intro es e u v ⟨hu, hIu⟩ hv
  have hw := wellFormed_moves hs.wellFormed hu
  have hm : Moves e.isAuth u v := by
    refine moves_apStep hw ?_ hv
    rw [mlmepriv_moves hs.wellFormed hu]
    exact hs.notStation
  refine ⟨hu.trans (moves_true hm), fun hv' => ?_⟩
  exact hstep u e v hw (hIu fun c hc => hv' c ((calls_moves hw hm).subset hc)) hv' hv hm

/-- What holds at the start, and is kept by every move whose entries of the log meet `P`, holds
after every run all of whose entries meet `P`. -/
theorem invariant_apRun {P : ApCall → Prop} {I : Ap RecvId → Prop} (hs : Started s) (h0 : I s)
    (hmove : ∀ u v, WellFormed u → I u → (∀ c ∈ v.calls, P c) → Move true u v → I v)
    {es : List ApEvent} (h : runM apStep s es = some t) (hP : ∀ c ∈ t.calls, P c) : I t := by
  have hmoves := moves_apRun hs h
  clear h
  induction hmoves with
  | refl => exact h0
  | tail hu hm ih =>
    have hw := wellFormed_moves hs.wellFormed hu
    exact hmove _ _ hw (ih fun c hc => hP c ((calls_move hw hm).subset hc)) hP hm

end Ap

/-! ## A driver after initialisation -/

/-- The driver of an access point after initialisation. -/
def sampleAp : Ap RecvId where
  base :=
    let s := Adapter.init (List.finRange 256) Adapter.sampleMac
    { s with
      mlmepriv := { s.mlmepriv with fwState := wifiApState ||| fwLinked, curBssid := Adapter.sampleMac }
      mlmeext := { s.mlmeext with state := wifiFwApState } }
  sta := fun _ => initApSta
  authList := []
  asocList := []
  authListCnt := 0
  asocListCnt := 0
  authTo := 3
  assocTo := 3
  expireTo := 3
  maxNumSta := 32
  staAid := fun _ => none
  staDzBitmap := 0
  timBitmap := 0
  aclMode := 0
  aclNodes := []
  wifiSpec := false
  activeKeepAliveCheck := true
  inHiq := false
  authSent := []
  bss :=
    { numStaNoShortPreamble := 0, numStaNonErp := 0, numStaNoShortSlotTime := 0
      numStaNoHt := 0, numStaHtNoGf := 0, numStaHt20mhz := 0
      olbcHt := false, htOpMode := 0, htCapInfo := 0, curWirelessMode := 11, bcnUpdates := [] }
  calls := []

theorem sampleAp_freeDead : ∀ k ∈ sampleAp.base.freeStaQueue, ∀ i, k ∉ sampleAp.base.staHash i := by
  decide

theorem started_sampleAp : Ap.Started sampleAp := by
  have hpending : ∀ c, sampleAp.base.pendingOf c = [] := by
    rintro ⟨k, tid⟩
    exact (Adapter.poolFresh_init Adapter.sampleMac).others (.pending k tid) (by simp)
  refine ⟨by decide, ?_, ⟨0,
    by decide⟩, fun _ => rfl, rfl, rfl, rfl, rfl, ?_, fun _ => rfl, rfl, rfl,
    rfl, rfl, by decide, hpending⟩
  · rintro k hk ⟨i, hi⟩
    exact sampleAp_freeDead k hk i hi
  · exact ⟨rfl, rfl, rfl, rfl, rfl, rfl, rfl, rfl⟩

/-- An authentication frame of `sa` to the access point : open system, frame 1. -/
def sampleAuth (sa : MacAddr) : RecvFrame :=
  Adapter.sampleFrame ([0xb0, 0, 0, 0] ++ Adapter.sampleMac.toList ++ sa.toList ++ Adapter.sampleMac.toList ++
    [0, 0, 0, 0, 1, 0, 0, 0])

/-- A null frame of `sa`, with the power-management bit. -/
def sampleNull (sa : MacAddr) (pwrMgt : Bool) : RecvFrame :=
  Adapter.sampleFrame ([0x48, if pwrMgt then 0x11 else 0x01, 0, 0] ++ Adapter.sampleMac.toList ++
    sa.toList ++ Adapter.sampleMac.toList ++ [0, 0])

/-- An association request of `sa`, with elements that are accepted or not. -/
def sampleAssocReq (sa : MacAddr) (elemsOk : Bool) : Ap.AssocReq :=
  ⟨sa, false, 0x0421, elemsOk, none, [0x82, 0x84, 0x0c, 0x30], none, true⟩

end Rtl8188eu
