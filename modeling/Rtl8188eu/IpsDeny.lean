import Rtl8188eu.Deadlines
import Rtl8188eu.PowerSave

/-!
# The deferral of the idle power-down

`rtw_ps_processor` switches the radio off when the driver is idle. `_rtw_pwr_wakeup` and
`rtw_set_ips_deny` defer this : they set `ips_deny_time`, the time up to which
`rtw_pwr_unassociated_idle` denies it.

`ips_deny_time` has 32 bits, `jiffies` is an `unsigned long`, and the two are compared by plain
order. So a deferral has no effect that ends when `jiffies` has more than 32 bits
(`idle_of_late`). As long as no number wraps, the radio stays on until all
deferrals have passed (`denyRight_run`).
-/

namespace Rtl8188eu

open Runs Deadlines

/-- The state that the idle power-down depends on. `now` counts the ticks since `jiffies` was zero,
`waking` has the calls of `_rtw_pwr_wakeup` under way, and `deferrals` the times at which the
deferrals end that were asked for. -/
structure IpsState where
  pwr : PwrCtrl
  /-- `fw_state` and `p2p_state` of the buddy adapter, if there is one. -/
  buddy : Option (ℕ × P2pState)
  ipsDenyTime : UInt32
  psProcessing : Bool
  pwrStateCheckCnts : UInt8
  bHWPwrPindetect : Bool
  bHWPowerdown : Bool
  now : ℕ
  waking : List UInt32
  deferrals : List ℕ

/-- What `rtw_ps_processor` meets if it looks at the radio switch : the registers `REG_HSISR` and
`REG_GPIO_IO_SEL`, and what `rtw_hw_suspend` and `rtw_hw_resume` do to the power state. -/
structure RadioSwitch where
  hsisr : UInt8
  gpioIoSel : UInt8
  hwSuspend : PwrCtrl → PwrCtrl
  hwResume : PwrCtrl → PwrCtrl

namespace IpsState

variable (w : ℕ) (hz : UInt32) (s : IpsState)

/-! ## The functions of the source -/

/-- `jiffies`, an `unsigned long` of `w` bits. -/
def jiffies : ℕ := s.now % 2 ^ w

/-- `rtw_ms_to_systime`, with `HZ` ticks in a second. -/
def rtwMsToSystime (ms : UInt32) : UInt32 := ms * hz / 1000

/-- `jiffies + rtw_ms_to_systime(ms)`, in `unsigned long`. -/
def denyUntil (ms : UInt32) : ℕ := (s.jiffies w + (rtwMsToSystime hz ms).toNat) % 2 ^ w

/-- `rtw_set_ips_deny`. -/
def rtwSetIpsDeny (ms : UInt32) : IpsState :=
  { s with ipsDenyTime := UInt32.ofNat (s.denyUntil w hz ms) }

/-- `ips_deny_time` is raised in `_rtw_pwr_wakeup`. -/
def raiseIpsDeny (ms : UInt32) : IpsState :=
  if s.ipsDenyTime.toNat < s.denyUntil w hz ms then
    { s with ipsDenyTime := UInt32.ofNat (s.denyUntil w hz ms) }
  else s

/-- `_rtw_pwr_wakeup` up to its waits. -/
def pwrWakeupEnter (ms : UInt32) : IpsState :=
  let s := s.raiseIpsDeny w hz ms
  { s with waking := ms :: s.waking }

/-- `_rtw_pwr_wakeup` behind its waits. -/
def pwrWakeupExit (ms : UInt32) (h : PwrCtrl.HalStages) (alloc : ℕ → Bool) : IpsState :=
  let s := ({ s with pwr := (s.pwr.rtwPwrWakeup h alloc).1 } : IpsState).raiseIpsDeny w hz ms
  { s with waking := s.waking.erase ms }

/-- The checks of `rtw_pwr_unassociated_idle` behind the one of `ips_deny_time`. -/
def othersIdle : Bool :=
  let fwState := s.pwr.env.fwState
  if checkFwstate fwState (fwLinked ||| fwUnderSurvey) ∨
      checkFwstate fwState (fwUnderLinking ||| wifiUnderWps) ∨
      checkFwstate fwState wifiUnderWps ∨ checkFwstate fwState wifiApState ∨
      checkFwstate fwState (wifiAdhocMasterState ||| wifiAdhocState) ∨
      s.pwr.env.p2pState ≠ .none then false
  else
    match s.buddy with
    | some (fwState, p2pState) =>
      !(checkFwstate fwState (fwLinked ||| fwUnderSurvey) ||
        checkFwstate fwState (fwUnderLinking ||| wifiUnderWps) ||
        checkFwstate fwState wifiApState ||
        checkFwstate fwState (wifiAdhocMasterState ||| wifiAdhocState) ||
        decide (p2pState ≠ .none))
    | none => true

/-- `rtw_pwr_unassociated_idle`. -/
def rtwPwrUnassociatedIdle : Bool :=
  if s.jiffies w ≤ s.ipsDenyTime.toNat then false else s.othersIdle

/-- `RfOnOffDetect`. -/
def rfOnOffDetect (sw : RadioSwitch) : RfPwrState :=
  if s.bHWPowerdown then
    if sw.hsisr &&& 0x80 ≠ 0 then .rfOff else .rfOn
  else
    if sw.gpioIoSel &&& 0x08 ≠ 0 then .rfOn else .rfOff

/-- The check of the radio switch in `rtw_ps_processor`. -/
def detectSwitch (sw : RadioSwitch) : IpsState :=
  let pwr :=
    if s.rfOnOffDetect sw ≠ s.pwr.rfPwrstate then
      if s.rfOnOffDetect sw = .rfOff then sw.hwSuspend { s.pwr with changeRfpwrstate := .rfOff }
      else sw.hwResume { s.pwr with changeRfpwrstate := .rfOn }
    else s.pwr
  { s with pwr := pwr, pwrStateCheckCnts := s.pwrStateCheckCnts + 1 }

/-- `rtw_ps_processor` between the two writes of `ps_processing`, and whether it calls
`ips_enter`. -/
def psProcess (sw : RadioSwitch) : IpsState × Bool :=
  if s.pwr.bipsProcessing then (s, false)
  else
    let s := if s.bHWPwrPindetect then s.detectSwitch sw else s
    if s.pwr.ipsModeReq = .none then (s, false)
    else if ¬ s.rtwPwrUnassociatedIdle w then (s, false)
    else if s.pwr.rfPwrstate = .rfOn ∧ s.pwrStateCheckCnts % 4 = 0 then
      ({ s with pwr := ({ s.pwr with changeRfpwrstate := .rfOff } : PwrCtrl).ipsEnter }, true)
    else (s, false)

/-- `rtw_ps_processor`, and whether it calls `ips_enter`. -/
def rtwPsProcessor (sw : RadioSwitch) : IpsState × Bool :=
  let r := ({ s with psProcessing := true } : IpsState).psProcess w sw
  ({ r.1 with psProcessing := false }, r.2)

end IpsState

/-! ## Runs -/

/-- A tick of `jiffies`, one of the functions, or a change made elsewhere in the driver. -/
inductive IpsEvent where
  | tick
  | wakeEnter (ms : UInt32)
  | wakeExit (ms : UInt32) (h : PwrCtrl.HalStages) (alloc : ℕ → Bool)
  | setIpsDeny (ms : UInt32)
  | psProcessor (sw : RadioSwitch)
  | elsewhere (pwr : PwrCtrl) (buddy : Option (ℕ × P2pState))

namespace IpsState

variable (w : ℕ) (hz : UInt32) (s : IpsState)

/-- The ticks of a deferral. -/
def ticksOf (ms : UInt32) : ℕ := ms.toNat * hz.toNat / 1000

/-- Record a deferral that begins now. -/
def noteDeferral (ms : UInt32) : IpsState :=
  { s with deferrals := (s.now + ticksOf hz ms) :: s.deferrals }

/-- One event. A wake-up ends only if it is under way. -/
def step (s : IpsState) : IpsEvent → IpsState
  | .tick => { s with now := s.now + 1 }
  | .wakeEnter ms => (s.pwrWakeupEnter w hz ms).noteDeferral hz ms
  | .wakeExit ms h alloc =>
    if ms ∈ s.waking then (s.pwrWakeupExit w hz ms h alloc).noteDeferral hz ms else s
  | .setIpsDeny ms => (s.rtwSetIpsDeny w hz ms).noteDeferral hz ms
  | .psProcessor sw => (s.rtwPsProcessor w sw).1
  | .elsewhere pwr buddy => { s with pwr := pwr, buddy := buddy }

/-- What is claimed of a state : until all deferrals have passed, the driver is not idle and
`ips_enter` is not called, and then only the other checks count. -/
def DenyRight : Prop :=
  (Pending s.now s.deferrals →
    s.rtwPwrUnassociatedIdle w = false ∧ ∀ sw, (s.rtwPsProcessor w sw).2 = false) ∧
  (s.deferrals ≠ [] → ¬ Pending s.now s.deferrals → s.rtwPwrUnassociatedIdle w = s.othersIdle)

/-- The ticks of a deferral do not wrap, and neither does its end in 32 bits. -/
def Fits (ms : UInt32) : Prop :=
  ms.toNat * hz.toNat < 2 ^ 32 ∧ s.jiffies w + ticksOf hz ms < 2 ^ 32

/-- What a step must meet : `jiffies` does not wrap once there was a deferral, the numbers of a
deferral do not wrap, and `rtw_set_ips_deny` does not end a deferral before its time. -/
def Meets (s : IpsState) : IpsEvent → Prop
  | .tick => s.jiffies w + 1 < 2 ^ w ∨ s.deferrals = []
  | .wakeEnter ms => s.Fits w hz ms
  | .wakeExit ms _ _ => ms ∈ s.waking → s.Fits w hz ms
  | .setIpsDeny ms =>
    s.Fits w hz ms ∧ ∀ d ∈ s.deferrals, s.now ≤ d → d ≤ s.now + ticksOf hz ms
  | .psProcessor _ | .elsewhere _ _ => True

instance (ms : UInt32) : Decidable (s.Fits w hz ms) := inferInstanceAs (Decidable (_ ∧ _))

instance (e : IpsEvent) : Decidable (s.Meets w hz e) :=
  match e with
  | .tick => inferInstanceAs (Decidable (_ ∨ _))
  | .wakeEnter ms => inferInstanceAs (Decidable (s.Fits w hz ms))
  | .wakeExit ms _ _ => inferInstanceAs (Decidable (ms ∈ s.waking → s.Fits w hz ms))
  | .setIpsDeny _ => inferInstanceAs (Decidable (_ ∧ _))
  | .psProcessor _ | .elsewhere _ _ => inferInstanceAs (Decidable True)

/-! ## The steps -/

/-- The time at which `jiffies` was zero last. -/
def base : ℕ := s.now - s.jiffies w

/-- The invariant : `ips_deny_time` is the end of the deferral that ends last. -/
def Deferring : Prop := Tracks (s.base w) s.now s.ipsDenyTime.toNat s.deferrals

variable {w hz s}

theorem jiffies_le : s.jiffies w ≤ s.now := Nat.mod_le ..

theorem base_le : s.base w ≤ s.now := Nat.sub_le ..

theorem now_sub_base : s.now - s.base w = s.jiffies w := Nat.sub_sub_self jiffies_le

/-- The end of a deferral that fits. -/
theorem denyUntil_of_fits (hw : 32 ≤ w) {ms : UInt32} (h : s.Fits w hz ms) :
    s.denyUntil w hz ms = s.now - s.base w + ticksOf hz ms := by
  have hpow : 2 ^ 32 ≤ 2 ^ w := Nat.pow_le_pow_right (by omega) hw
  have hticks : (rtwMsToSystime hz ms).toNat = ticksOf hz ms := by
    rw [rtwMsToSystime, UInt32.toNat_div, UInt32.toNat_mul, Nat.mod_eq_of_lt h.1]
    rfl
  rw [denyUntil, hticks, now_sub_base, Nat.mod_eq_of_lt (h.2.trans_le hpow)]

theorem toNat_denyUntil (hw : 32 ≤ w) {ms : UInt32} (h : s.Fits w hz ms) :
    (UInt32.ofNat (s.denyUntil w hz ms)).toNat = s.now - s.base w + ticksOf hz ms := by
  rw [denyUntil_of_fits hw h, UInt32.toNat_ofNat', now_sub_base]
  exact Nat.mod_eq_of_lt h.2

theorem deferring_raise (hw : 32 ≤ w) {ms : UInt32} (h : s.Deferring w) (hfits : s.Fits w hz ms) :
    ((s.raiseIpsDeny w hz ms).noteDeferral hz ms).Deferring w := by
  have hraise := Tracks.raise h base_le (ticksOf hz ms)
  have hend := toNat_denyUntil hw hfits
  unfold raiseIpsDeny
  rw [← denyUntil_of_fits hw hfits] at hraise hend
  split_ifs at hraise ⊢
  · rw [← hend] at hraise
    exact hraise
  · exact hraise

/-- `rtw_ps_processor` does not change the deferrals. -/
theorem rtwPsProcessor_frame (sw : RadioSwitch) :
    (s.rtwPsProcessor w sw).1.now = s.now ∧
      (s.rtwPsProcessor w sw).1.ipsDenyTime = s.ipsDenyTime ∧
      (s.rtwPsProcessor w sw).1.deferrals = s.deferrals := by
  unfold rtwPsProcessor psProcess
  dsimp only
  split_ifs <;> exact ⟨rfl, rfl, rfl⟩

theorem base_tick (h : s.jiffies w + 1 < 2 ^ w) :
    ({ s with now := s.now + 1 } : IpsState).base w = s.base w := by
  have hmod : (s.now + 1) % 2 ^ w = s.now % 2 ^ w + 1 := by
    rw [Nat.add_mod, Nat.mod_eq_of_lt (show 1 < 2 ^ w by omega)]
    exact Nat.mod_eq_of_lt h
  rw [base, base, jiffies, jiffies, hmod]
  exact Nat.add_sub_add_right ..

/-- A step keeps the invariant. -/
theorem deferring_step (hw : 32 ≤ w) {e : IpsEvent} (h : s.Deferring w) (he : s.Meets w hz e) :
    (s.step w hz e).Deferring w := by
  cases e with
  | tick =>
    rcases he with hlt | hnil
    · have hlater := h.later (Nat.le_succ s.now)
      rw [← base_tick hlt] at hlater
      exact hlater
    · have hzero : s.ipsDenyTime.toNat = 0 := by
        rcases h.mem with ⟨-, hzero⟩ | hmem
        · exact hzero
        · rw [hnil] at hmem
          exact absurd hmem List.not_mem_nil
      change Tracks _ (s.now + 1) s.ipsDenyTime.toNat s.deferrals
      rw [hzero, hnil]
      exact tracks_nil _ _
  | wakeEnter ms => exact deferring_raise (s := s) hw h he
  | wakeExit ms hs alloc =>
    rw [step]
    split_ifs with hmem
    · exact deferring_raise (s := { s with pwr := (s.pwr.rtwPwrWakeup hs alloc).1 }) hw h (he hmem)
    · exact h
  | setIpsDeny ms =>
    have hreplace := Tracks.replace (base_le (w := w)) he.2
    rw [← toNat_denyUntil hw he.1] at hreplace
    exact hreplace
  | psProcessor sw =>
    obtain ⟨hnow, hdeny, hdeferrals⟩ := rtwPsProcessor_frame (w := w) (s := s) sw
    have hbase : (s.rtwPsProcessor w sw).1.base w = s.base w := by
      rw [base, base, jiffies, jiffies, hnow]
    rw [Deferring, step, hbase, hnow, hdeny, hdeferrals]
    exact h
  | elsewhere pwr buddy => exact h

/-! ## The check -/

theorem idle_eq_false (h : s.jiffies w ≤ s.ipsDenyTime.toNat) :
    s.rtwPwrUnassociatedIdle w = false := if_pos h

theorem idle_eq_others (h : s.ipsDenyTime.toNat < s.jiffies w) :
    s.rtwPwrUnassociatedIdle w = s.othersIdle := if_neg (Nat.not_le.mpr h)

/-- As long as the time has not come, `ips_enter` is not called. -/
theorem not_enters (h : s.jiffies w ≤ s.ipsDenyTime.toNat) (sw : RadioSwitch) :
    (s.rtwPsProcessor w sw).2 = false := by
  have hswitch : ∀ t : IpsState, t.now = s.now → t.ipsDenyTime = s.ipsDenyTime →
      ¬ t.rtwPwrUnassociatedIdle w = true := by
    intro t hnow hdeny
    have hle : t.jiffies w ≤ t.ipsDenyTime.toNat := by
      rw [jiffies, hnow, hdeny]
      exact h
    rw [idle_eq_false hle]
    exact Bool.false_ne_true
  unfold rtwPsProcessor psProcess
  dsimp only
  split_ifs with hprocessing hpin hmode hidle hon hmode hidle hon
  · rfl
  · rfl
  · exact absurd hidle (hswitch _ rfl rfl)
  · rfl
  · rfl
  · rfl
  · exact absurd hidle (hswitch _ rfl rfl)
  · rfl
  · rfl

theorem denyRight_of_deferring (h : s.Deferring w) : s.DenyRight w := by
  constructor
  · intro hpending
    have hne : s.deferrals ≠ [] := by
      obtain ⟨d, hd, -⟩ := hpending
      exact List.ne_nil_of_mem hd
    have hle := (Tracks.le_iff h hne).mpr hpending
    rw [now_sub_base] at hle
    exact ⟨idle_eq_false hle, not_enters hle⟩
  · intro hne hpassed
    have hlt := mt (Tracks.le_iff h hne).mp hpassed
    rw [now_sub_base, not_le] at hlt
    exact idle_eq_others hlt

/-- In a run that begins without a deferral, the radio stays on until all deferrals have passed,
as long as no number wraps and `rtw_set_ips_deny` does not end a deferral before its time. -/
theorem denyRight_run (hw : w = 32 ∨ w = 64) (hz : UInt32) {s : IpsState} (hnone : s.deferrals = [])
    (hzero : s.ipsDenyTime = 0) {es : List IpsEvent} (hes : Along (step w hz) (Meets w hz) s es) :
    ∀ pre, pre <+: es → (run (step w hz) s pre).DenyRight w := by
  have hw32 : 32 ≤ w := by omega
  have hstart : s.Deferring w := by
    rw [Deferring, hnone, hzero]
    exact tracks_nil _ _
  rintro pre ⟨post, rfl⟩
  refine denyRight_of_deferring ?_
  exact invariant_along (fun u e hu he => deferring_step hw32 hu he) pre hstart
    (along_append.mp hes).1

/-- When `jiffies` has more than 32 bits, no deferral has an effect. -/
theorem idle_of_late (h : 2 ^ 32 ≤ s.jiffies w) : s.rtwPwrUnassociatedIdle w = s.othersIdle :=
  idle_eq_others (s.ipsDenyTime.toNat_lt.trans_le h)

theorem not_denyRight_of_late (hlate : 2 ^ 32 ≤ s.jiffies w) (hothers : s.othersIdle = true)
    (hpending : Pending s.now s.deferrals) : ¬ s.DenyRight w := by
  intro h
  have hidle := (h.1 hpending).1
  rw [idle_of_late hlate, hothers] at hidle
  cases hidle

/-- An idle station at the given time. -/
def sample (now : ℕ) : IpsState where
  pwr := PwrCtrl.init PwrCtrl.sampleEnv 1 2 .normal .rfOn
  buddy := none
  ipsDenyTime := 0
  psProcessing := false
  pwrStateCheckCnts := 0
  bHWPwrPindetect := false
  bHWPowerdown := false
  now := now
  waking := []
  deferrals := []

theorem denyRight_sample : (run (step 32 250) (sample 1000)
    [.wakeEnter 2000, .tick, .wakeExit 2000 ⟨true, true, true⟩ fun _ => true, .setIpsDeny 3000,
      .tick]).DenyRight 32 :=
  denyRight_run (Or.inl rfl) 250 rfl rfl (by decide) _ (List.prefix_refl _)

/-- With 64 bits, five minutes after the system was started : a wake-up defers nothing. -/
theorem not_denyRight_sample : ¬ ∀ pre, pre <+: [IpsEvent.wakeEnter 2000] →
    (run (step 64 250) (sample (2 ^ 32)) pre).DenyRight 64 := by
  intro h
  refine not_denyRight_of_late ?_ ?_ ?_ (h _ (List.prefix_refl _))
  · decide
  · decide
  · exact ⟨2 ^ 32 + 500, by decide, by decide⟩

end IpsState

end Rtl8188eu
