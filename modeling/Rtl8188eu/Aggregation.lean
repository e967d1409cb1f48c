import Rtl8188eu.BlockAckRoundTrip
import Rtl8188eu.Runs

/-!
# Transmit aggregation over a run

A bit of `htpriv.agg_enable_bitmap` lets the transmit path aggregate the frames of a TID.
`BaEvent` lists what can move it : received action frames, local ADDBA requests with their
command and retry timer, and local DELBAs. `aggEnabled_step` says what one event does to
the bit of a station, and `aggEnabled_run_iff` what a run does : the bit is set exactly
when the last event about it was an ADDBA response of the station with status 0 and this
TID.

`OnAction_back` takes such a response whenever it comes. It does not look for a request it
answers, and the dialog token of the response is not read, here or elsewhere
(`not_agreed_before_use`).
-/

namespace Rtl8188eu

open Runs

/-- What moves the aggregation state of a device. -/
inductive BaEvent
  /-- `OnAction_back` on the frame stored at an address. -/
  | rx (m : Mem) (pframe : ℤ)
  /-- `rtw_issue_addbareq_cmd` for a frame to be sent. -/
  | issueAddbareqCmd (busy : Bool) (ra : MacAddr) (priority : ℕ)
  /-- `add_ba_hdl`, the command that sends an ADDBA request. -/
  | addBaHdl (addr : MacAddr) (tid : ℕ)
  /-- `addba_timer_hdl`. -/
  | addbaTimer (psta : StaId)
  /-- `send_delba`. -/
  | sendDelba (initiator : Bool) (addr : MacAddr)

namespace Adapter

variable {ι : Type}

/-- One event. -/
def baStep (s : Adapter ι) : BaEvent → Adapter ι
  | .rx m pframe => s.onActionBack m pframe
  | .issueAddbareqCmd busy ra priority => (s.rtwIssueAddbareqCmd busy ra priority).2
  | .addBaHdl addr tid => s.addBaHdl addr tid
  | .addbaTimer psta => s.addbaTimerHdl psta
  | .sendDelba initiator addr => s.sendDelba initiator addr

/-- The transmit path may aggregate frames of the TID to the station. -/
def AggEnabled (s : Adapter ι) (k : StaId) (tid : Fin 8) : Prop :=
  (s.sta k).htpriv.aggEnableBitmap.getLsbD tid = true

/-- An ADDBA response of the station for the TID arrives, with status 0. -/
def AggAccepted (k : StaId) (tid : Fin 8) (s : Adapter ι) : BaEvent → Prop
  | .rx m p => s.Hears m p k ∧ m (p + 24 + 1) = BaAction.addbaResp.code ∧
      respStatus m (p + 24) = 0 ∧ respTid m (p + 24) = tid
  | _ => False

/-- An ADDBA response of the station for the TID arrives with another status, or a DELBA of
the recipient for the TID, or the device itself ends its agreements with the station. -/
def AggEnded (k : StaId) (tid : Fin 8) (s : Adapter ι) : BaEvent → Prop
  | .rx m p => s.Hears m p k ∧
      ((m (p + 24 + 1) = BaAction.addbaResp.code ∧
          respStatus m (p + 24) ≠ 0 ∧ respTid m (p + 24) = tid) ∨
        (m (p + 24 + 1) = BaAction.delba.code ∧
          delbaInitiator m (p + 24) = false ∧ (delbaTid m (p + 24) : ℕ) = tid))
  | .sendDelba initiator addr =>
      initiator = true ∧ s.baLinkUp = true ∧ s.rtwGetStainfo addr = some k
  | _ => False

/-! ## One event -/

theorem getLsbD_setTid_iff (b : BitVec 8) (t : ℕ) (tid : Fin 8) :
    (setTid b t).getLsbD tid = true ↔ t = tid ∨ b.getLsbD tid = true := by
  have := tid.isLt
  rw [getLsbD_setTid, Bool.or_eq_true, decide_eq_true_eq]
  constructor
  · rintro (h | ⟨h, -⟩)
    · exact Or.inr h
    · exact Or.inl h.symm
  · rintro (h | h)
    · exact Or.inr ⟨h.symm, this⟩
    · exact Or.inl h

theorem getLsbD_clearTid_iff (b : BitVec 8) (t : ℕ) (tid : Fin 8) :
    (clearTid b t).getLsbD tid = true ↔ b.getLsbD tid = true ∧ t ≠ tid := by
  rw [getLsbD_clearTid, Bool.and_eq_true, decide_eq_true_eq, ne_comm]

/-- The aggregation state of a station after a change of one station. -/
theorem htpriv_updateSta (s : Adapter ι) (psta k : StaId) (f : StaInfo → StaInfo) :
    ((s.updateSta psta f).sta k).htpriv
      = if k = psta then (f (s.sta psta)).htpriv else (s.sta k).htpriv := by
  unfold updateSta
  by_cases h : k = psta
  · subst h
    simp
  · simp [h]

theorem htpriv_issueActionBA (s : Adapter ι) (raddr : MacAddr) (action : BaAction)
    (status : ℕ) (k : StaId) :
    ((s.issueActionBA raddr action status).sta k).htpriv = (s.sta k).htpriv := by
  obtain ⟨_, _, _, _, _, h⟩ := s.issueActionBA_eq raddr action status
  rw [h]

theorem htpriv_onAddbaReq (s : Adapter ι) (m : Mem) (body : ℤ) (addr : MacAddr) (k : StaId) :
    ((s.onAddbaReq m body addr).sta k).htpriv = (s.sta k).htpriv := by
  unfold onAddbaReq processAddbaReq
  dsimp only
  split
  · split <;> rw [htpriv_issueActionBA]
  · rename_i psta _
    split <;>
    · rw [htpriv_issueActionBA, htpriv_updateSta]
      split
      · rename_i h
        rw [h]
        rfl
      · rfl

/-- A frame that is not heard, or has no block-ack action, changes nothing. -/
theorem onActionBack_of_not_hears {s : Adapter ι} {m : Mem} {p : ℤ}
    (h : ∀ k action, s.Hears m p k → m (p + 24 + 1) ≠ BaAction.code action) :
    s.onActionBack m p = s := by
  unfold onActionBack
  split
  · rfl
  rename_i h1
  split
  · rfl
  rename_i h2
  dsimp only
  cases hk : s.rtwGetStainfo (macAt m (getAddr2Ptr p)) with
  | none => rfl
  | some psta =>
    dsimp only
    split_ifs with h3 h4 h5 h6 h7
    · rfl
    · exact absurd h5 (h psta .addbaReq
        ⟨not_not.mp h1, by simpa using h2, hk, h3, by simpa using h4⟩)
    · exact absurd h6 (h psta .addbaResp
        ⟨not_not.mp h1, by simpa using h2, hk, h3, by simpa using h4⟩)
    · exact absurd h7 (h psta .delba
        ⟨not_not.mp h1, by simpa using h2, hk, h3, by simpa using h4⟩)
    · rfl
    · rfl

/-- The sender of a heard frame is one station. -/
theorem Hears.unique {s : Adapter ι} {m : Mem} {p : ℤ} {j k : StaId} (hj : s.Hears m p j)
    (hk : s.Hears m p k) : j = k :=
  Option.some.inj (hj.known.symm.trans hk.known)

theorem BaAction.code_injective : Function.Injective BaAction.code := by
  intro a b
  cases a <;> cases b <;> decide

/-- What a received frame does to the aggregation state of a station. -/
theorem aggEnabled_onActionBack (s : Adapter ι) (m : Mem) (p : ℤ) (k : StaId) (tid : Fin 8) :
    (s.onActionBack m p).AggEnabled k tid ↔
      AggAccepted k tid s (.rx m p) ∨ (s.AggEnabled k tid ∧ ¬ AggEnded k tid s (.rx m p)) := by
  by_cases h : ∃ psta action, s.Hears m p psta ∧ m (p + 24 + 1) = BaAction.code action
  · obtain ⟨psta, action, hh, ha⟩ := h
    rw [onActionBack_of_hears hh ha]
    have hcode : ∀ b, m (p + 24 + 1) = BaAction.code b ↔ action = b := fun b => by
      rw [ha]
      exact BaAction.code_injective.eq_iff
    have hk : s.Hears m p k ↔ k = psta := ⟨fun hk => hk.unique hh, fun hk => hk ▸ hh⟩
    simp only [AggAccepted, AggEnded, AggEnabled, hcode, hk]
    cases action
    · simp only [htpriv_onAddbaReq]
      simp
    · simp only [onAddbaResp]
      split_ifs with hst
      · rw [htpriv_updateSta]
        by_cases hkp : k = psta
        · subst hkp
          simp only [if_true, StaInfo.updateHt, HtPriv.enableAgg, getLsbD_setTid_iff, hst]
          tauto
        · simp [hkp]
      · rw [htpriv_updateSta]
        by_cases hkp : k = psta
        · subst hkp
          simp only [if_true, StaInfo.updateHt, HtPriv.refuseAgg, getLsbD_clearTid_iff, hst]
          tauto
        · simp [hkp]
    · simp only [onDelba]
      split_ifs with hin
      · rw [htpriv_updateSta]
        by_cases hkp : k = psta
        · subst hkp
          simp [StaInfo.updateReorder, hin]
        · simp [hkp]
      · rw [htpriv_updateSta]
        by_cases hkp : k = psta
        · subst hkp
          simp only [if_true, StaInfo.updateHt, HtPriv.disableAgg, getLsbD_clearTid_iff, hin]
          tauto
        · simp [hkp]
  · have hno : ∀ psta action, s.Hears m p psta → m (p + 24 + 1) ≠ BaAction.code action :=
      fun psta action hh ha => h ⟨psta, action, hh, ha⟩
    rw [onActionBack_of_not_hears hno]
    constructor
    · intro hb
      refine Or.inr ⟨hb, ?_⟩
      rintro ⟨hh, ⟨ha, -⟩ | ⟨ha, -⟩⟩
      · exact hno k .addbaResp hh ha
      · exact hno k .delba hh ha
    · rintro (⟨hh, ha, -⟩ | ⟨hb, -⟩)
      · exact absurd ha (hno k .addbaResp hh)
      · exact hb

/-- A change of the candidates of a station leaves the agreements alone. -/
theorem agg_updateSta {s : Adapter ι} {psta k : StaId} {f : HtPriv → HtPriv}
    (hf : ∀ h, (f h).aggEnableBitmap = h.aggEnableBitmap) :
    ((s.updateSta psta fun st => st.updateHt f).sta k).htpriv.aggEnableBitmap
      = (s.sta k).htpriv.aggEnableBitmap := by
  rw [htpriv_updateSta]
  split
  · rename_i h
    rw [h]
    exact hf _
  · rfl

theorem agg_rtwIssueAddbareqCmd (s : Adapter ι) (busy : Bool) (ra : MacAddr) (priority : ℕ)
    (k : StaId) :
    ((s.rtwIssueAddbareqCmd busy ra priority).2.sta k).htpriv.aggEnableBitmap
      = (s.sta k).htpriv.aggEnableBitmap := by
  unfold rtwIssueAddbareqCmd
  split
  · rfl
  · split
    · rfl
    · dsimp only
      split_ifs
      · rfl
      · exact agg_updateSta fun _ => rfl
      · rfl

theorem agg_addBaHdl (s : Adapter ι) (addr : MacAddr) (tid : ℕ) (k : StaId) :
    ((s.addBaHdl addr tid).sta k).htpriv.aggEnableBitmap
      = (s.sta k).htpriv.aggEnableBitmap := by
  unfold addBaHdl
  split
  · rfl
  · split
    · rw [htpriv_issueActionBA]
    · exact agg_updateSta fun _ => rfl

theorem agg_addbaTimerHdl (s : Adapter ι) (psta k : StaId) :
    ((s.addbaTimerHdl psta).sta k).htpriv.aggEnableBitmap
      = (s.sta k).htpriv.aggEnableBitmap := by
  refine agg_updateSta fun h => ?_
  split <;> rfl

theorem htpriv_delbaRecipient (addr : MacAddr) (psta : StaId) (s : Adapter ι) (tid : Fin 16)
    (k : StaId) : ((delbaRecipient addr psta s tid).sta k).htpriv = (s.sta k).htpriv := by
  unfold delbaRecipient
  split
  · dsimp only
    rw [htpriv_updateSta]
    split
    · rename_i h
      subst h
      exact htpriv_issueActionBA _ _ _ _ _
    · exact htpriv_issueActionBA _ _ _ _ _
  · rfl

theorem htpriv_foldl_delbaRecipient (addr : MacAddr) (psta k : StaId) :
    ∀ (tids : List (Fin 16)) (s : Adapter ι),
      ((tids.foldl (delbaRecipient addr psta) s).sta k).htpriv = (s.sta k).htpriv
  | [], _ => rfl
  | tid :: tids, s => by
    rw [List.foldl_cons, htpriv_foldl_delbaRecipient addr psta k tids, htpriv_delbaRecipient]

/-- One round of the originator's loop clears the bit of its TID. -/
theorem agg_delbaOriginator (addr : MacAddr) (psta : StaId) (s : Adapter ι) (t : Fin 16)
    (k : StaId) (tid : Fin 8) :
    (delbaOriginator addr psta s t).AggEnabled k tid ↔
      s.AggEnabled k tid ∧ ¬ (k = psta ∧ (t : ℕ) = tid) := by
  unfold delbaOriginator AggEnabled
  split
  · dsimp only
    rw [htpriv_updateSta]
    split
    · rename_i h
      subst h
      simp only [StaInfo.updateHt, HtPriv.disableAgg, getLsbD_clearTid_iff,
        htpriv_issueActionBA, true_and, ne_eq]
    · rename_i h
      simp only [htpriv_issueActionBA, h, false_and, not_false_eq_true, and_true]
  · rename_i h
    constructor
    · intro hb
      refine ⟨hb, ?_⟩
      rintro ⟨rfl, ht⟩
      rw [ht] at h
      exact h hb
    · exact fun hb => hb.1

theorem agg_foldl_delbaOriginator (addr : MacAddr) (psta k : StaId) (tid : Fin 8) :
    ∀ (tids : List (Fin 16)) (s : Adapter ι),
      (tids.foldl (delbaOriginator addr psta) s).AggEnabled k tid ↔
        s.AggEnabled k tid ∧ ¬ (k = psta ∧ ∃ t ∈ tids, (t : ℕ) = tid)
  | [], s => by simp
  | t :: tids, s => by
    rw [List.foldl_cons, agg_foldl_delbaOriginator addr psta k tid tids, agg_delbaOriginator]
    simp only [List.mem_cons, exists_eq_or_imp]
    rw [and_assoc, ← not_or, ← and_or_left]

theorem aggEnabled_sendDelba (s : Adapter ι) (initiator : Bool) (addr : MacAddr) (k : StaId)
    (tid : Fin 8) :
    (s.sendDelba initiator addr).AggEnabled k tid ↔
      s.AggEnabled k tid ∧ ¬ AggEnded k tid s (.sendDelba initiator addr) := by
  unfold sendDelba
  simp only [AggEnded]
  split
  · rename_i h
    simp [show s.baLinkUp = false by simpa using h]
  · rename_i h
    have hl : s.baLinkUp = true := by simpa using h
    cases hk : s.rtwGetStainfo addr with
    | none => simp
    | some psta =>
      cases initiator
      · simp only [Bool.false_eq_true, if_false, false_and, not_false_eq_true, and_true]
        unfold AggEnabled
        rw [htpriv_foldl_delbaRecipient]
      · simp only [if_true, agg_foldl_delbaOriginator, hl, Option.some.injEq, true_and]
        have hex : ∃ t ∈ List.finRange 16, (t : ℕ) = tid :=
          ⟨tid.castLE (by decide), List.mem_finRange _, rfl⟩
        rw [and_iff_left hex, eq_comm]

/-- What one event does to the bit of a TID. -/
theorem aggEnabled_step (s : Adapter ι) (e : BaEvent) (k : StaId) (tid : Fin 8) :
    (s.baStep e).AggEnabled k tid ↔
      AggAccepted k tid s e ∨ (s.AggEnabled k tid ∧ ¬ AggEnded k tid s e) := by
  cases e with
  | rx m p => exact aggEnabled_onActionBack s m p k tid
  | issueAddbareqCmd busy ra priority =>
    simp [baStep, AggEnabled, AggAccepted, AggEnded, agg_rtwIssueAddbareqCmd]
  | addBaHdl addr t => simp [baStep, AggEnabled, AggAccepted, AggEnded, agg_addBaHdl]
  | addbaTimer psta => simp [baStep, AggEnabled, AggAccepted, AggEnded, agg_addbaTimerHdl]
  | sendDelba initiator addr =>
    rw [baStep, aggEnabled_sendDelba]
    simp [AggAccepted]

/-! ## Runs -/

/-- At the end of a run a bit is set exactly when the station accepted a request for the
TID and nothing ended the agreement later, or when the bit was set at the start and
nothing ended the agreement. -/
theorem aggEnabled_run_iff (s : Adapter ι) (es : List BaEvent) (k : StaId) (tid : Fin 8) :
    (run baStep s es).AggEnabled k tid ↔
      (∃ pre e post, es = pre ++ e :: post ∧ AggAccepted k tid (run baStep s pre) e ∧
        Along baStep (fun t e => ¬ AggEnded k tid t e) (run baStep s (pre ++ [e])) post) ∨
      (s.AggEnabled k tid ∧ Along baStep (fun t e => ¬ AggEnded k tid t e) s es) :=
  latch_iff (b := fun s : Adapter ι => s.AggEnabled k tid)
    (fun s e => aggEnabled_step s e k tid) s es

/-! ## Responses nobody asked for -/

/-- The frame is an ADDBA request to `ra` for the TID with the dialog token. -/
def IsAddbaReq (f : List UInt8) (ra : MacAddr) (tid : Fin 8) (token : UInt8) : Prop :=
  (f.drop 4).take 6 = ra.toList ∧
    (f.drop 24).take 3 = [wlanCategoryBack, BaAction.addbaReq.code, token] ∧
    (f.drop 27).head?.map (fun b => (b.toNat >>> 2) &&& 0xf) = some (tid : ℕ)

/-- Every agreement answers a request that the device sent before, with its dialog token. -/
def AgreedBeforeUse (s : Adapter ι) (es : List BaEvent) : Prop :=
  ∀ k tid, (run baStep s es).AggEnabled k tid →
    ∃ pre m p post, es = pre ++ .rx m p :: post ∧
      AggAccepted k tid (run baStep s pre) (.rx m p) ∧
      (∃ f ∈ (run baStep s pre).mgntSent,
        IsAddbaReq f ((run baStep s pre).sta k).hwaddr tid (m (p + 24 + 2))) ∧
      Along baStep (fun t e => ¬ AggEnded k tid t e) (run baStep s (pre ++ [.rx m p])) post

/-- An associated HT device with a station in its table and no agreement. -/
def linkedDevice : Adapter (Fin 256) :=
  let s := ((Adapter.init (List.finRange 256) (localAddr 1)).rtwAllocStainfo
    (localAddr 2)).2
  { s with mlmeext.state := wifiFwAssocSuccess, mlmeext.htEnable := true }

/-- An ADDBA response of that station for TID 5, with status 0 and dialog token 7. -/
def strayResponse : Mem :=
  Mem.write (fun _ => 0) 0 ([0xd0, 0, 0, 0, 2, 0, 0, 0, 0, 1, 2, 0, 0, 0, 0, 2,
    2, 0, 0, 0, 0, 2, 0, 0, 3, 1, 7, 0, 0, 0x16, 0x10, 0, 0])

/-- A device that never sent a request takes a response. -/
theorem not_agreed_before_use :
    ¬ ∀ (s : Adapter (Fin 256)) (es : List BaEvent),
      (∀ k tid, ¬ s.AggEnabled k tid) → s.mgntSent = [] → AgreedBeforeUse s es := by
  intro h
  have hnone : ∀ k tid, ¬ linkedDevice.AggEnabled k tid := by
    unfold AggEnabled
    decide
  have hon : (run baStep linkedDevice [.rx strayResponse 0]).AggEnabled 1 5 := by
    unfold AggEnabled
    decide
  obtain ⟨pre, m, p, post, heq, -, ⟨f, hf, -⟩, -⟩ :=
    h linkedDevice [.rx strayResponse 0] hnone rfl 1 5 hon
  have hpre : pre = [] := by
    cases pre with
    | nil => rfl
    | cons e pre => simp at heq
  subst hpre
  exact absurd hf (List.not_mem_nil)

end Adapter

end Rtl8188eu
