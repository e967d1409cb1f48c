import Rtl8188eu.P2p
import Rtl8188eu.JoinEvent

/-!
# Power save

The driver has two kinds of power save. While it is associated, the firmware sleeps between beacons
(LPS : `LPS_Enter`, `LPS_Leave`, `rtw_set_ps_mode`). While it is not, the radio is switched off
(IPS : `ips_enter`, `ips_leave`), and `_rtw_pwr_wakeup` switches it on again.

`bpower_saving` tells the dynamic mechanisms that one of the two is on. It is cleared by `LPS_Leave`
also when the mode was not left, and by `ips_leave` also when the power-up failed. `bookkept_iff`
says exactly which steps lose it.
-/

namespace Rtl8188eu

open Runs

/-- `PS_MODE_ACTIVE`. The other modes of `rtw_pwrctrl.h` follow, up to `PM_Card_Disable`. -/
def psModeActive : ℕ := 0

/-- `PM_Card_Disable`. -/
def pmCardDisable : ℕ := 10

/-- `PS_MODE_NUM`. -/
def psModeNum : ℕ := 11

/-- `_FW_UNDER_SURVEY`. -/
def fwUnderSurvey : ℕ := 0x00000800

/-- `enum rt_rf_power_state`. -/
inductive RfPwrState
  | rfOn | rfSleep | rfOff | rfMax
  deriving DecidableEq, Repr

/-- `IPS_NONE`, `IPS_NORMAL` and `IPS_LEVEL_2`. -/
inductive IpsMode
  | none | normal | level2
  deriving DecidableEq, Repr

/-- What the power-save functions read of the rest of the driver : other code changes it at any
time. -/
structure PwrEnv where
  fwState : ℕ
  mpMode : Bool
  freeXmitbufCnt : ℕ
  freeXmitExtbufCnt : ℕ
  /-- `LPS_DELAY_TIME` passed since `DelayLPSLastTimeStamp`. -/
  lpsDelayOver : Bool
  bInSuspend : Bool
  bInternalAutoSuspend : Bool
  binstallGrpkey : Bool
  dot11AuthAlgrthm : AuthAlgrthm
  dot11PrivacyAlgrthm : PrivacyAlgrthm
  dot118021XGrpPrivacy : PrivacyAlgrthm
  keyMask : ℕ
  cmdthdRunning : Bool
  netClosed : Bool
  bDriverStopped : Bool
  bSurpriseRemoved : Bool
  bup : Bool
  hwInitCompleted : Bool
  regRfoff : Bool
  /-- The fields of `struct wifidirect_info` about power save. -/
  p2pState : P2pState
  p2pPsMode : ℕ
  ctwindow : ℕ
  oppPs : ℕ

/-- `struct pwrctrl_priv`. `falseWake` records that a wake-up was reported while the radio was
off. -/
structure PwrCtrl where
  env : PwrEnv
  pwrMode : ℕ
  bFwCurrentInPSMode : Bool
  bpowerSaving : Bool
  rfPwrstate : RfPwrState
  changeRfpwrstate : RfPwrState
  bipsProcessing : Bool
  bkeepfwalive : Bool
  ipsMode : IpsMode
  ipsModeReq : IpsMode
  powerMgnt : ℕ
  bLeisurePs : Bool
  lpsIdleCount : ℕ
  smartPs : ℕ
  bcnAntMode : ℕ
  falseWake : Bool

namespace PwrCtrl

variable {s : PwrCtrl}

/-! ## Firmware power save -/

/-- `PS_RDY_CHECK`. -/
def psRdyCheck (s : PwrCtrl) : Bool :=
  if ¬ s.env.lpsDelayOver then false
  else if ¬ checkFwstate s.env.fwState fwLinked ∨ checkFwstate s.env.fwState fwUnderSurvey ∨
      checkFwstate s.env.fwState wifiApState ∨ checkFwstate s.env.fwState wifiAdhocMasterState ∨
      checkFwstate s.env.fwState wifiAdhocState then false
  else if s.env.bInSuspend then false
  else if s.env.dot11AuthAlgrthm = .ieee8021X ∧ ¬ s.env.binstallGrpkey then false
  else true

/-- `P2P_PS_DISABLE` in `p2p_ps_wk_hdl`. -/
def p2pPsDisable (s : PwrCtrl) : PwrCtrl :=
  { s with
    env := { s.env with ctwindow := 0, oppPs := 0, p2pPsMode := 0 }
    smartPs := if s.bFwCurrentInPSMode ∧ s.smartPs = 0 then 2 else s.smartPs }

/-- `P2P_PS_ENABLE` in `p2p_ps_wk_hdl`. -/
def p2pPsEnable (s : PwrCtrl) : PwrCtrl :=
  { s with smartPs := if 0 < s.env.p2pPsMode ∧ 0 < s.env.ctwindow then 0 else s.smartPs }

/-- `p2p_ps_wk_cmd` without a queue. -/
def p2pPsWkCmd (s : PwrCtrl) (hdl : PwrCtrl → PwrCtrl) : PwrCtrl :=
  if s.env.p2pState = .none then s else hdl s

/-- `rtw_set_ps_mode`. -/
def rtwSetPsMode (s : PwrCtrl) (psMode smartPs bcnAntMode : ℕ) : PwrCtrl :=
  if pmCardDisable < psMode then s
  else if s.pwrMode = psMode ∧ (psMode = psModeActive ∨
      (s.smartPs = smartPs ∧ s.bcnAntMode = bcnAntMode)) then s
  else if psMode = psModeActive then
    if s.env.oppPs = 0 then { s with pwrMode := psMode, bFwCurrentInPSMode := false } else s
  else if s.psRdyCheck then
    let s :=
      { s with
        bFwCurrentInPSMode := true, pwrMode := psMode, smartPs := smartPs, bcnAntMode := bcnAntMode }
    if s.env.oppPs = 1 then s.p2pPsWkCmd p2pPsEnable else s
  else s

/-- `LPS_Enter`. -/
def lpsEnter (s : PwrCtrl) : PwrCtrl :=
  if ¬ s.psRdyCheck then s
  else if s.bLeisurePs then
    if 2 ≤ s.lpsIdleCount then
      if s.pwrMode = psModeActive then
        ({ s with bpowerSaving := true } : PwrCtrl).rtwSetPsMode s.powerMgnt s.smartPs 0x40
      else s
    else { s with lpsIdleCount := s.lpsIdleCount + 1 }
  else s

/-- `LPS_Leave`. -/
def lpsLeave (s : PwrCtrl) : PwrCtrl :=
  let s := if s.bLeisurePs ∧ s.pwrMode ≠ psModeActive then s.rtwSetPsMode psModeActive 0 0x40 else s
  { s with bpowerSaving := false }

/-- `lps_ctrl_wk_hdl` with `LPS_CTRL_LEAVE`. -/
def lpsCtrlLeave (s : PwrCtrl) : PwrCtrl :=
  if checkFwstate s.env.fwState wifiAdhocMasterState ∨ checkFwstate s.env.fwState wifiAdhocState then s
  else s.lpsLeave

/-- `LeaveAllPowerSaveMode`. -/
def leaveAllPowerSaveMode (s : PwrCtrl) : PwrCtrl :=
  if checkFwstate s.env.fwState fwLinked then (s.p2pPsWkCmd p2pPsDisable).lpsCtrlLeave else s

/-- `rtw_pm_set_lps`. -/
def rtwPmSetLps (s : PwrCtrl) (mode : ℕ) : PwrCtrl :=
  if mode < psModeNum then
    if s.powerMgnt ≠ mode then
      let s := if mode = psModeActive then s.leaveAllPowerSaveMode else { s with lpsIdleCount := 2 }
      { s with powerMgnt := mode, bLeisurePs := decide (mode ≠ psModeActive) }
    else s
  else s

/-! ## The radio off and on -/

/-- `rtw_ips_pwr_down`. -/
def rtwIpsPwrDown (s : PwrCtrl) : PwrCtrl :=
  { s with
    env :=
      { s.env with
        netClosed := true
        hwInitCompleted := if s.env.bSurpriseRemoved then s.env.hwInitCompleted else false } }

/-- `ips_enter`. -/
def ipsEnter (s : PwrCtrl) : PwrCtrl :=
  if s.env.mpMode then s
  else if s.env.freeXmitbufCnt ≠ 4 ∨ s.env.freeXmitExtbufCnt ≠ 32 then s
  else
    let s : PwrCtrl := { s with ipsMode := s.ipsModeReq, bipsProcessing := true }
    let s :=
      if s.changeRfpwrstate = .rfOff then
        let s :=
          { s with bpowerSaving := true, bkeepfwalive := s.bkeepfwalive || decide (s.ipsMode = IpsMode.level2) }
        { s.rtwIpsPwrDown with rfPwrstate := .rfOff }
      else s
    { s with bipsProcessing := false }

/-- Which stages of `rtl8188eu_hal_init` succeed : `rtl8188eu_InitPowerOn`, the download of the
firmware, and the MAC, BB, RF, efuse and LLT stages after it. -/
structure HalStages where
  powerOn : Bool
  firmware : Bool
  phy : Bool
  deriving DecidableEq, Repr

/-- `rtl8188eu_hal_init`, as far as it changes the power state. -/
def halInit (s : PwrCtrl) (h : HalStages) : PwrCtrl × Bool :=
  if s.bkeepfwalive then (s, true)
  else if ¬ h.powerOn then (s, false)
  else
    let s := { s with rfPwrstate := if s.env.regRfoff then .rfOff else s.rfPwrstate }
    if ¬ s.env.mpMode ∧ ¬ h.firmware then (s, false)
    else
      -- `rtl8188e_InitializeFirmwareVars`
      let s := { s with bFwCurrentInPSMode := false }
      if ¬ h.phy then (s, false)
      else ({ s with rfPwrstate := if s.env.mpMode then s.rfPwrstate else .rfOn }, true)

/-- `rtw_ips_pwr_up`, with `rtw_reset_drv_sw`, `ips_netdrv_open` and `rtw_hal_init`. -/
def rtwIpsPwrUp (s : PwrCtrl) (h : HalStages) : PwrCtrl × Bool :=
  let s :=
    { s with
      env :=
        { s.env with
          fwState := clrFwstate s.env.fwState (fwUnderSurvey ||| fwUnderLinking)
          netClosed := false, bDriverStopped := false, bSurpriseRemoved := false
          hwInitCompleted := false } }
  let r := s.halInit h
  ({ r.1 with env := { r.1.env with hwInitCompleted := r.2 } }, r.2)

/-- The algorithm of the keys that `rtw_set_key` sets. -/
def setKeyAlgorithm (s : PwrCtrl) : PrivacyAlgrthm :=
  if s.env.dot11AuthAlgrthm = .ieee8021X then s.env.dot118021XGrpPrivacy
  else s.env.dot11PrivacyAlgrthm

/-- `rtw_set_key`, which fails if memory is short (`alloc`), if the algorithm has no key of this
kind, or if `rtw_enqueue_cmd` refuses the command. -/
def rtwSetKey (s : PwrCtrl) (keyid : ℕ) (alloc : Bool) : PwrCtrl × Bool :=
  if ¬ alloc then (s, false)
  else
    let algorithm := s.setKeyAlgorithm
    let s := { s with env := { s.env with keyMask := s.env.keyMask ||| 2 ^ keyid } }
    if algorithm = .wep40 ∨ algorithm = .wep104 ∨ algorithm = .tkip ∨ algorithm = .aes then
      (s, s.env.hwInitCompleted && s.env.cmdthdRunning)
    else (s, false)

/-- The loop of `ips_leave` over the keys `keyids`, with the result so far. -/
def setKeys (alloc : ℕ → Bool) : List ℕ → PwrCtrl × Bool → PwrCtrl × Bool
  | [], r => r
  | keyid :: keyids, (s, result) =>
    if s.env.keyMask &&& 2 ^ keyid ≠ 0 then setKeys alloc keyids (s.rtwSetKey keyid (alloc keyid))
    else setKeys alloc keyids (s, result)

/-- The keys that `ips_leave` restores. -/
def restoreKeys (s : PwrCtrl) (result : Bool) (alloc : ℕ → Bool) : PwrCtrl × Bool :=
  if s.env.dot11PrivacyAlgrthm = .wep40 ∨ s.env.dot11PrivacyAlgrthm = .wep104 then
    setKeys alloc [0, 1, 2, 3] (s, result)
  else (s, result)

/-- The part of `ips_leave` up to the new `rf_pwrstate`. -/
def radioUp (s : PwrCtrl) (h : HalStages) : PwrCtrl × Bool :=
  let r := ({ s with bipsProcessing := true, changeRfpwrstate := .rfOn } : PwrCtrl).rtwIpsPwrUp h
  ({ r.1 with rfPwrstate := if r.2 then .rfOn else r.1.rfPwrstate }, r.2)

/-- `ips_leave`. -/
def ipsLeave (s : PwrCtrl) (h : HalStages) (alloc : ℕ → Bool) : PwrCtrl × Bool :=
  if s.rfPwrstate = .rfOff ∧ ¬ s.bipsProcessing then
    let r := (s.radioUp h).1.restoreKeys (s.radioUp h).2 alloc
    ({ r.1 with bipsProcessing := false, bkeepfwalive := false, bpowerSaving := false }, r.2)
  else (s, true)

/-- `_rtw_pwr_wakeup`. The waits for `ps_processing` and `bInSuspend` change nothing here. -/
def rtwPwrWakeup (s : PwrCtrl) (h : HalStages) (alloc : ℕ → Bool) : PwrCtrl × Bool :=
  if s.env.bInternalAutoSuspend ∧ s.env.netClosed then (s, false)
  else if checkFwstate s.env.fwState fwLinked then (s, true)
  else
    let r := if s.rfPwrstate = .rfOff then s.ipsLeave h alloc else (s, true)
    if ¬ r.2 then r
    else if r.1.env.bDriverStopped ∨ ¬ r.1.env.bup ∨ ¬ r.1.env.hwInitCompleted then (r.1, false)
    else r

/-- `rtw_pm_set_ips`. -/
def rtwPmSetIps (s : PwrCtrl) (mode : IpsMode) (h : HalStages) (alloc : ℕ → Bool) : PwrCtrl × Bool :=
  let s := { s with ipsModeReq := mode }
  if mode = .none ∧ ¬ s.env.bSurpriseRemoved then s.rtwPwrWakeup h alloc else (s, true)

end PwrCtrl

/-! ## Runs -/

/-- A call of one of the functions, or a change made elsewhere in the driver. -/
inductive PwrEvent where
  | lpsEnter
  | lpsLeave
  | setPsMode (psMode smartPs bcnAntMode : ℕ)
  | pmSetLps (mode : ℕ)
  | pmSetIps (mode : IpsMode) (h : PwrCtrl.HalStages) (alloc : ℕ → Bool)
  | ipsEnter
  | ipsLeave (h : PwrCtrl.HalStages) (alloc : ℕ → Bool)
  | pwrWakeup (h : PwrCtrl.HalStages) (alloc : ℕ → Bool)
  | elsewhere (env : PwrEnv) (changeRfpwrstate : RfPwrState)

namespace PwrCtrl

variable {s : PwrCtrl}

/-- Record a wake-up that was reported with the radio off. -/
def noteWake (r : PwrCtrl × Bool) : PwrCtrl :=
  { r.1 with falseWake := r.1.falseWake || (r.2 && decide (r.1.rfPwrstate ≠ .rfOn)) }

/-- One event. A wake-up of a linked adapter says nothing about the radio. -/
def step (s : PwrCtrl) : PwrEvent → PwrCtrl
  | .lpsEnter => s.lpsEnter
  | .lpsLeave => s.lpsLeave
  | .setPsMode psMode smartPs bcnAntMode => s.rtwSetPsMode psMode smartPs bcnAntMode
  | .pmSetLps mode => s.rtwPmSetLps mode
  | .pmSetIps mode h alloc => (s.rtwPmSetIps mode h alloc).1
  | .ipsEnter => s.ipsEnter
  | .ipsLeave h alloc => noteWake (s.ipsLeave h alloc)
  | .pwrWakeup h alloc =>
    let r := s.rtwPwrWakeup h alloc
    if checkFwstate s.env.fwState fwLinked then r.1 else noteWake r
  | .elsewhere env change => { s with env := env, changeRfpwrstate := change }

/-- `rtw_init_pwrctrl_priv`, with the registry's `power_mgnt`, `smart_ps` and `ips_mode`. -/
def init (env : PwrEnv) (powerMgnt smartPs : ℕ) (ipsMode : IpsMode) (change : RfPwrState) : PwrCtrl where
  env := env
  pwrMode := psModeActive
  bFwCurrentInPSMode := false
  bpowerSaving := false
  rfPwrstate := .rfOn
  changeRfpwrstate := change
  bipsProcessing := false
  bkeepfwalive := false
  ipsMode := ipsMode
  ipsModeReq := ipsMode
  powerMgnt := if env.mpMode then psModeActive else powerMgnt
  bLeisurePs := decide ((if env.mpMode then psModeActive else powerMgnt) ≠ psModeActive)
  lpsIdleCount := 0
  smartPs := smartPs
  bcnAntMode := 0
  falseWake := false

/-- The flags are true to the power save that is on, and no wake-up was reported with the radio
off. -/
def Bookkept (s : PwrCtrl) : Prop :=
  (s.pwrMode ≠ psModeActive ↔ s.bFwCurrentInPSMode) ∧
  (s.rfPwrstate = .rfOff ∨ s.bFwCurrentInPSMode → s.bpowerSaving) ∧ s.falseWake = false

/-- The stages let `rtl8188eu_hal_init` succeed. -/
def PowersUp (s : PwrCtrl) (h : HalStages) : Prop :=
  s.bkeepfwalive ∨ (h.powerOn ∧ (s.env.mpMode ∨ h.firmware) ∧ h.phy)

/-- A leave of the radio's power save is sound when the power-up succeeds, outside the
firmware's. -/
def IpsLeaveOk (s : PwrCtrl) (h : HalStages) : Prop :=
  s.rfPwrstate = .rfOff → s.pwrMode = psModeActive ∧ s.PowersUp h

/-- A wake-up that gets to `ips_leave`. -/
def WakeupOk (s : PwrCtrl) (h : HalStages) : Prop :=
  ¬ (s.env.bInternalAutoSuspend ∧ s.env.netClosed) → ¬ checkFwstate s.env.fwState fwLinked →
    s.IpsLeaveOk h

/-- What a step must meet for the flags to stay true. -/
def StepOk (s : PwrCtrl) : PwrEvent → Prop
  | .lpsLeave =>
    s.rfPwrstate = .rfOn ∧ (s.pwrMode = psModeActive ∨ (s.bLeisurePs ∧ s.env.oppPs = 0))
  | .setPsMode psMode _ _ =>
    psMode ≠ psModeActive → psMode ≤ pmCardDisable → s.psRdyCheck → s.bpowerSaving
  | .pmSetLps mode =>
    mode = psModeActive → s.powerMgnt ≠ psModeActive → checkFwstate s.env.fwState fwLinked →
      ¬ (checkFwstate s.env.fwState wifiAdhocMasterState ∨ checkFwstate s.env.fwState wifiAdhocState) →
      s.rfPwrstate = .rfOn ∧ (s.pwrMode = psModeActive ∨
        (s.bLeisurePs ∧ (s.env.oppPs = 0 ∨ s.env.p2pState ≠ .none)))
  | .pmSetIps mode h _ => mode = .none → ¬ s.env.bSurpriseRemoved → s.WakeupOk h
  | .ipsLeave h _ => s.IpsLeaveOk h
  | .pwrWakeup h _ => s.WakeupOk h
  | .lpsEnter | .ipsEnter | .elsewhere _ _ => True

/-! ## What each function does to the flags -/

/-- The fields that the bookkeeping is about. -/
structure Flags where
  pwrMode : ℕ
  bFwCurrentInPSMode : Bool
  bpowerSaving : Bool
  rfPwrstate : RfPwrState
  bipsProcessing : Bool
  falseWake : Bool

/-- The flags of a state. -/
def flags (s : PwrCtrl) : Flags :=
  ⟨s.pwrMode, s.bFwCurrentInPSMode, s.bpowerSaving, s.rfPwrstate, s.bipsProcessing, s.falseWake⟩

theorem bookkept_of_flags {f : Flags} (h : s.flags = f) : s.Bookkept ↔
    (f.pwrMode ≠ psModeActive ↔ f.bFwCurrentInPSMode) ∧
      (f.rfPwrstate = .rfOff ∨ f.bFwCurrentInPSMode → f.bpowerSaving) ∧ f.falseWake = false := by
  rw [← h]
  exact Iff.rfl

theorem bookkept_congr {s' : PwrCtrl} (h : s'.flags = s.flags) : s'.Bookkept ↔ s.Bookkept :=
  bookkept_of_flags h

theorem flags_p2pPsWkCmd {hdl : PwrCtrl → PwrCtrl} (h : ∀ s, (hdl s).flags = s.flags) :
    (s.p2pPsWkCmd hdl).flags = s.flags := by
  unfold p2pPsWkCmd
  split_ifs
  · rfl
  · exact h s

/-- `rtw_set_ps_mode` leaves the firmware's power save, enters it, or changes nothing. -/
theorem rtwSetPsMode_cases (s : PwrCtrl) (m smartPs bcnAntMode : ℕ) :
    (m = psModeActive ∧ s.env.oppPs = 0 ∧ s.pwrMode ≠ psModeActive ∧
      (s.rtwSetPsMode m smartPs bcnAntMode).flags =
        { s.flags with pwrMode := psModeActive, bFwCurrentInPSMode := false }) ∨
    (m ≠ psModeActive ∧ m ≤ pmCardDisable ∧ s.psRdyCheck ∧
      (s.rtwSetPsMode m smartPs bcnAntMode).flags =
        { s.flags with pwrMode := m, bFwCurrentInPSMode := true }) ∨
    ((s.rtwSetPsMode m smartPs bcnAntMode).flags = s.flags ∧
      (m = psModeActive → s.pwrMode = psModeActive ∨ s.env.oppPs ≠ 0) ∧
      (m ≠ psModeActive → m ≤ pmCardDisable → s.psRdyCheck → s.pwrMode = m)) := by
  unfold rtwSetPsMode
  dsimp only
  split_ifs with hbig hsame hactive hopp hready hctw
  · refine Or.inr (Or.inr ⟨rfl, fun h => ?_, fun _ h => absurd h (by omega)⟩)
    rw [h] at hbig
    exact absurd hbig (by decide)
  · refine Or.inr (Or.inr ⟨rfl, fun h => Or.inl (hsame.1.trans h), fun _ _ _ => hsame.1⟩)
  · refine Or.inl ⟨hactive, hopp, fun h => hsame ⟨h.trans hactive.symm, Or.inl hactive⟩, ?_⟩
    rw [hactive]
    rfl
  · exact Or.inr (Or.inr ⟨rfl, fun _ => Or.inr hopp, fun h => absurd hactive h⟩)
  · refine Or.inr (Or.inl ⟨hactive, by omega, hready, ?_⟩)
    rw [flags_p2pPsWkCmd (show ∀ s, (p2pPsEnable s).flags = s.flags from fun _ => rfl)]
    rfl
  · exact Or.inr (Or.inl ⟨hactive, by omega, hready, rfl⟩)
  · exact Or.inr (Or.inr ⟨rfl, fun h => absurd h hactive, fun _ _ h => absurd h hready⟩)

/-- `LPS_Leave` clears `bpower_saving`, and leaves the firmware's power save if nothing is against
it. -/
theorem flags_lpsLeave (s : PwrCtrl) :
    (s.lpsLeave).flags =
      if s.bLeisurePs ∧ s.pwrMode ≠ psModeActive ∧ s.env.oppPs = 0 then
        { s.flags with pwrMode := psModeActive, bFwCurrentInPSMode := false, bpowerSaving := false }
      else { s.flags with bpowerSaving := false } := by
  unfold lpsLeave
  dsimp only
  by_cases hl : s.bLeisurePs ∧ s.pwrMode ≠ psModeActive
  · rw [if_pos hl]
    obtain ⟨-, hopp, -, hflags⟩ | ⟨hne, -⟩ | ⟨hflags, hstay, -⟩ :=
      rtwSetPsMode_cases s psModeActive 0 0x40
    · rw [if_pos ⟨hl.1, hl.2, hopp⟩]
      simp only [flags, Flags.mk.injEq] at hflags ⊢
      obtain ⟨h₁, h₂, -, h₄, h₅, h₆⟩ := hflags
      exact ⟨h₁, h₂, trivial, h₄, h₅, h₆⟩
    · exact absurd rfl hne
    · have hopp := (hstay rfl).resolve_left hl.2
      rw [if_neg fun h => hopp h.2.2]
      simp only [flags, Flags.mk.injEq] at hflags ⊢
      obtain ⟨h₁, h₂, -, h₄, h₅, h₆⟩ := hflags
      exact ⟨h₁, h₂, trivial, h₄, h₅, h₆⟩
  · rw [if_neg hl, if_neg fun h => hl ⟨h.1, h.2.1⟩]
    rfl

/-- `hal_init` succeeds exactly when its stages do, and the radio stays off when it fails. -/
theorem halInit_spec (s : PwrCtrl) (h : HalStages) (hrf : s.rfPwrstate = .rfOff) :
    ((s.halInit h).2 = true ↔ s.PowersUp h) ∧
    (s.halInit h).1.pwrMode = s.pwrMode ∧
    (s.bFwCurrentInPSMode = false → (s.halInit h).1.bFwCurrentInPSMode = false) ∧
    (s.halInit h).1.falseWake = s.falseWake ∧
    ((s.halInit h).2 = false → (s.halInit h).1.rfPwrstate = .rfOff) := by
  unfold halInit PowersUp
  dsimp only
  split_ifs with hkeep hon hrfoff hfw hphy hfw hphy <;>
    simp_all

theorem rtwSetKey_spec (s : PwrCtrl) (keyid : ℕ) (alloc : Bool) :
    (∃ keyMask, (s.rtwSetKey keyid alloc).1 = { s with env := { s.env with keyMask := keyMask } }) ∧
    (s.env.hwInitCompleted = false → (s.rtwSetKey keyid alloc).2 = false) := by
  unfold rtwSetKey
  dsimp only
  split_ifs with halloc halg
  · exact ⟨⟨_, rfl⟩, fun h => by simp [h]⟩
  · exact ⟨⟨_, rfl⟩, fun _ => rfl⟩
  · exact ⟨⟨s.env.keyMask, rfl⟩, fun _ => rfl⟩

/-- Restoring keys changes the key mask only, and turns no failed power-up into a success : the
command thread takes no commands then. -/
theorem setKeys_spec (alloc : ℕ → Bool) : ∀ (keyids : List ℕ) (s : PwrCtrl) (result : Bool),
    (∃ keyMask, (setKeys alloc keyids (s, result)).1 =
      { s with env := { s.env with keyMask := keyMask } }) ∧
    (s.env.hwInitCompleted = false → result = false → (setKeys alloc keyids (s, result)).2 = false)
  | [], s, result => ⟨⟨s.env.keyMask, rfl⟩, fun _ h => h⟩
  | keyid :: keyids, s, result => by
    rw [setKeys]
    split_ifs with hmask
    · obtain ⟨⟨km, heq⟩, hfail⟩ := rtwSetKey_spec s keyid (alloc keyid)
      obtain ⟨⟨km', heq'⟩, hfail'⟩ :=
        setKeys_spec alloc keyids (s.rtwSetKey keyid (alloc keyid)).1
          (s.rtwSetKey keyid (alloc keyid)).2
      refine ⟨⟨km', ?_⟩, fun hhw _ => ?_⟩
      · rw [heq', heq]
      · refine hfail' ?_ (hfail hhw)
        rw [heq]
        exact hhw
    · exact setKeys_spec alloc keyids s result

theorem restoreKeys_spec (s : PwrCtrl) (result : Bool) (alloc : ℕ → Bool) :
    (∃ keyMask, (s.restoreKeys result alloc).1 =
    { s with env := { s.env with keyMask := keyMask } }) ∧
    (s.env.hwInitCompleted = false → result = false → (s.restoreKeys result alloc).2 = false) := by
  unfold restoreKeys
  split_ifs
  · exact setKeys_spec alloc [0, 1, 2, 3] s result
  · exact ⟨⟨s.env.keyMask, rfl⟩, fun _ h => h⟩

theorem radioUp_spec (s : PwrCtrl) (h : HalStages) (hrf : s.rfPwrstate = .rfOff) :
    ((s.radioUp h).2 = true ↔ s.PowersUp h) ∧
    (s.radioUp h).1.pwrMode = s.pwrMode ∧
    (s.bFwCurrentInPSMode = false → (s.radioUp h).1.bFwCurrentInPSMode = false) ∧
    (s.radioUp h).1.falseWake = s.falseWake ∧
    (s.radioUp h).1.rfPwrstate = (if (s.radioUp h).2 then .rfOn else .rfOff) ∧
    (s.radioUp h).1.env.hwInitCompleted = (s.radioUp h).2 := by
  obtain ⟨hok, hmode, hfw, hwake, hoff⟩ := halInit_spec
    { s with
      bipsProcessing := true
      changeRfpwrstate := .rfOn
      env :=
        { s.env with
          fwState := clrFwstate s.env.fwState (fwUnderSurvey ||| fwUnderLinking)
          netClosed := false, bDriverStopped := false, bSurpriseRemoved := false
          hwInitCompleted := false } } h hrf
  refine ⟨hok, hmode, hfw, hwake, ?_, rfl⟩
  show (if (s.radioUp h).2 then _ else _) = _
  split_ifs with hup
  · rfl
  · exact hoff (Bool.eq_false_iff.mpr hup)

/-- What `ips_leave` leaves behind when the radio was off. -/
theorem ipsLeave_spec (s : PwrCtrl) (h : HalStages) (alloc : ℕ → Bool) (hrf : s.rfPwrstate = .rfOff)
    (hips : s.bipsProcessing = false) :
    (s.ipsLeave h alloc).1.pwrMode = s.pwrMode ∧
    (s.bFwCurrentInPSMode = false → (s.ipsLeave h alloc).1.bFwCurrentInPSMode = false) ∧
    (s.ipsLeave h alloc).1.bpowerSaving = false ∧ (s.ipsLeave h alloc).1.bipsProcessing = false ∧
    (s.ipsLeave h alloc).1.falseWake = s.falseWake ∧
    (s.PowersUp h → (s.ipsLeave h alloc).1.rfPwrstate = .rfOn) ∧
    (¬ s.PowersUp h →
      (s.ipsLeave h alloc).1.rfPwrstate = .rfOff ∧ (s.ipsLeave h alloc).2 = false) := by
  rw [ipsLeave, if_pos ⟨hrf, by simp [hips]⟩]
  obtain ⟨hok, hmode, hfw, hwake, hrf', hhw⟩ := radioUp_spec s h hrf
  obtain ⟨⟨km, hkeys⟩, hkfail⟩ := restoreKeys_spec (s.radioUp h).1 (s.radioUp h).2 alloc
  simp only [hkeys]
  refine ⟨hmode, hfw, trivial, trivial, hwake, fun hup => ?_, fun hup => ?_⟩
  · rw [hrf', if_pos (hok.mpr hup)]
  · have hu2 : (s.radioUp h).2 = false := Bool.eq_false_iff.mpr fun h2 => hup (hok.mp h2)
    exact ⟨by simp [hrf', hu2], hkfail (hhw.trans hu2) hu2⟩

/-- A wake-up leaves the state alone, or is `ips_leave` with the radio off. -/
theorem rtwPwrWakeup_cases (s : PwrCtrl) (h : HalStages) (alloc : ℕ → Bool) :
    ((s.rtwPwrWakeup h alloc).1 = s ∧ (¬ (s.env.bInternalAutoSuspend ∧ s.env.netClosed) →
      ¬ checkFwstate s.env.fwState fwLinked → s.rfPwrstate ≠ .rfOff) ∧
      ((s.env.bInternalAutoSuspend ∧ s.env.netClosed) → (s.rtwPwrWakeup h alloc).2 = false)) ∨
    (¬ (s.env.bInternalAutoSuspend ∧ s.env.netClosed) ∧ ¬ checkFwstate s.env.fwState fwLinked ∧
      s.rfPwrstate = .rfOff ∧ (s.rtwPwrWakeup h alloc).1 = (s.ipsLeave h alloc).1 ∧
      ((s.rtwPwrWakeup h alloc).2 = true → (s.ipsLeave h alloc).2 = true)) := by
  unfold rtwPwrWakeup
  by_cases hblock : s.env.bInternalAutoSuspend ∧ s.env.netClosed
  · exact Or.inl (by simp [hblock])
  by_cases hlink : checkFwstate s.env.fwState fwLinked
  · exact Or.inl (by simp [hblock, hlink])
  rw [if_neg hblock, if_neg hlink]
  by_cases hrf : s.rfPwrstate = .rfOff
  · refine Or.inr ⟨hblock, hlink, hrf, ?_⟩
    simp only [hrf, if_true]
    split_ifs with hok hstop
    · exact ⟨rfl, fun h => nomatch h⟩
    · exact ⟨rfl, fun h => h⟩
    · exact ⟨rfl, fun h => h⟩
  · refine Or.inl ⟨?_, fun _ _ => hrf, fun h => absurd h hblock⟩
    simp only [hrf, if_false]
    split_ifs <;> rfl

/-! ## What every run keeps -/

/-- What holds whether or not the flags are true : no function is under way, the radio is on or off,
and no wake-up was reported with the radio off. -/
def Settled (s : PwrCtrl) : Prop :=
  s.bipsProcessing = false ∧ (s.rfPwrstate = .rfOn ∨ s.rfPwrstate = .rfOff) ∧ s.falseWake = false

theorem settled_congr {s' : PwrCtrl} (hs : s.Settled)
    (hrf : s'.flags.rfPwrstate = s.flags.rfPwrstate)
    (hips : s'.flags.bipsProcessing = s.flags.bipsProcessing)
    (hwake : s'.flags.falseWake = s.flags.falseWake) : s'.Settled := by
  obtain ⟨h₁, h₂, h₃⟩ := hs
  refine ⟨hips.trans h₁, ?_, hwake.trans h₃⟩
  rwa [show s'.rfPwrstate = s.rfPwrstate from hrf]

theorem settled_rtwSetPsMode (hs : s.Settled) (m smartPs bcnAntMode : ℕ) :
    (s.rtwSetPsMode m smartPs bcnAntMode).Settled := by
  obtain ⟨-, -, -, hf⟩ | ⟨-, -, -, hf⟩ | ⟨hf, -⟩ := rtwSetPsMode_cases s m smartPs bcnAntMode
  all_goals exact settled_congr hs (by rw [hf]) (by rw [hf]) (by rw [hf])

theorem settled_lpsLeave (hs : s.Settled) : s.lpsLeave.Settled := by
  have hf := flags_lpsLeave s
  split_ifs at hf
  all_goals exact settled_congr hs (by rw [hf]) (by rw [hf]) (by rw [hf])

theorem settled_leaveAllPowerSaveMode (hs : s.Settled) : s.leaveAllPowerSaveMode.Settled := by
  have hp : (s.p2pPsWkCmd p2pPsDisable).Settled := by
    have hf := @flags_p2pPsWkCmd s p2pPsDisable fun _ => rfl
    exact settled_congr hs (by rw [hf]) (by rw [hf]) (by rw [hf])
  unfold leaveAllPowerSaveMode lpsCtrlLeave
  split_ifs
  · exact hp
  · exact settled_lpsLeave hp
  · exact hs

theorem settled_ipsLeave (hs : s.Settled) (h : HalStages) (alloc : ℕ → Bool) :
    (s.ipsLeave h alloc).1.Settled ∧
      ((s.ipsLeave h alloc).2 = true → (s.ipsLeave h alloc).1.rfPwrstate = .rfOn) := by
  by_cases hrf : s.rfPwrstate = .rfOff
  · obtain ⟨-, -, -, hips, hwake, hup, hdown⟩ := ipsLeave_spec s h alloc hrf hs.1
    by_cases hp : s.PowersUp h
    · exact ⟨⟨hips, Or.inl (hup hp), hwake.trans hs.2.2⟩, fun _ => hup hp⟩
    · refine ⟨⟨hips, Or.inr (hdown hp).1, hwake.trans hs.2.2⟩, fun h2 => ?_⟩
      rw [(hdown hp).2] at h2
      exact nomatch h2
  · rw [ipsLeave, if_neg fun h => hrf h.1]
    exact ⟨hs, fun _ => hs.2.1.resolve_right hrf⟩

theorem settled_rtwPwrWakeup (hs : s.Settled) (h : HalStages) (alloc : ℕ → Bool) :
    (s.rtwPwrWakeup h alloc).1.Settled ∧ (¬ checkFwstate s.env.fwState fwLinked →
      (s.rtwPwrWakeup h alloc).2 = true → (s.rtwPwrWakeup h alloc).1.rfPwrstate = .rfOn) := by
  obtain ⟨heq, hon, hblock⟩ | ⟨-, -, -, heq, hret⟩ := rtwPwrWakeup_cases s h alloc
  · rw [heq]
    refine ⟨hs, fun hlink h2 => hs.2.1.resolve_right (hon (fun hb => ?_) hlink)⟩
    rw [hblock hb] at h2
    exact nomatch h2
  · obtain ⟨hset, hon⟩ := settled_ipsLeave hs h alloc
    rw [heq]
    exact ⟨hset, fun _ h2 => hon (hret h2)⟩

theorem settled_noteWake {r : PwrCtrl × Bool} (hs : r.1.Settled)
    (hon : r.2 = true → r.1.rfPwrstate = .rfOn) :
    (noteWake r).Settled ∧ (noteWake r).flags = r.1.flags := by
  have hno : (r.2 && decide (r.1.rfPwrstate ≠ .rfOn)) = false := by
    cases hr : r.2
    · rfl
    · simp [hon hr]
  have hf : (noteWake r).flags = r.1.flags := by
    simp only [noteWake, flags, hno, Bool.or_false]
  exact ⟨settled_congr hs (by rw [hf]) (by rw [hf]) (by rw [hf]), hf⟩

theorem settled_step (hs : s.Settled) (e : PwrEvent) : (s.step e).Settled := by
  cases e with
  | lpsEnter =>
    rw [step]
    unfold lpsEnter
    split_ifs
    · exact settled_rtwSetPsMode (s := { s with bpowerSaving := true }) hs _ _ _
    all_goals exact hs
  | lpsLeave => exact settled_lpsLeave hs
  | setPsMode m a b => exact settled_rtwSetPsMode hs m a b
  | pmSetLps mode =>
    rw [step]
    unfold rtwPmSetLps
    dsimp only
    split_ifs
    · exact settled_leaveAllPowerSaveMode hs
    all_goals exact hs
  | pmSetIps mode h alloc =>
    rw [step]
    unfold rtwPmSetIps
    dsimp only
    split_ifs
    · exact (settled_rtwPwrWakeup (s := { s with ipsModeReq := mode }) hs h alloc).1
    · exact hs
  | ipsEnter =>
    rw [step]
    unfold ipsEnter
    dsimp only
    split_ifs
    · exact hs
    · exact hs
    · exact ⟨rfl, Or.inr rfl, hs.2.2⟩
    · exact ⟨rfl, hs.2.1, hs.2.2⟩
  | ipsLeave h alloc =>
    obtain ⟨hset, hon⟩ := settled_ipsLeave hs h alloc
    exact (settled_noteWake hset hon).1
  | pwrWakeup h alloc =>
    obtain ⟨hset, hon⟩ := settled_rtwPwrWakeup hs h alloc
    unfold step
    dsimp only
    split_ifs with hlink
    · exact hset
    · exact (settled_noteWake hset (hon hlink)).1
  | elsewhere env change => exact hs

/-! ## Which steps keep the flags true -/

theorem bookkept_lpsLeave_iff (hs : s.Settled) (hb : s.Bookkept) :
    s.lpsLeave.Bookkept ↔
      s.rfPwrstate = .rfOn ∧ (s.pwrMode = psModeActive ∨ (s.bLeisurePs ∧ s.env.oppPs = 0)) := by
  have hf := flags_lpsLeave s
  obtain ⟨hmode, -, -⟩ := hb
  have hrf := hs.2.1
  have hwake := hs.2.2
  split_ifs at hf with hleave
  · rw [bookkept_of_flags hf]
    obtain hrf | hrf := hrf <;> simp [flags, hrf, hleave, hwake]
  · rw [bookkept_of_flags hf]
    simp only [flags, hwake, ← hmode]
    obtain hrf | hrf := hrf
    · simp only [hrf]
      by_cases hm : s.pwrMode = psModeActive
      · simp [hm]
      · have hno : ¬ (s.bLeisurePs = true ∧ s.env.oppPs = 0) := fun h => hleave ⟨h.1, hm, h.2⟩
        simp [hm, hno]
    · simp [hrf]

theorem bookkept_rtwSetPsMode_iff (hb : s.Bookkept) (m smartPs bcnAntMode : ℕ) :
    (s.rtwSetPsMode m smartPs bcnAntMode).Bookkept ↔
      (m ≠ psModeActive → m ≤ pmCardDisable → s.psRdyCheck → s.bpowerSaving) := by
  obtain ⟨hmode, hsaving, hwake⟩ := hb
  obtain ⟨hm, -, -, hf⟩ | ⟨hm, hle, hready, hf⟩ | ⟨hf, -, hstay⟩ :=
    rtwSetPsMode_cases s m smartPs bcnAntMode
  · rw [bookkept_of_flags hf]
    simp only [flags]
    refine ⟨fun _ h => absurd hm h, fun _ => ⟨by simp, fun h => ?_, hwake⟩⟩
    exact hsaving (Or.inl (by simpa using h))
  · rw [bookkept_of_flags hf]
    simp only [flags]
    refine ⟨fun h _ _ _ => h.2.1 (Or.inr trivial), fun h => ⟨by simp [hm], fun _ => ?_, hwake⟩⟩
    exact h hm hle hready
  · rw [bookkept_congr hf]
    refine ⟨fun _ hm hle hready => ?_, fun _ => ⟨hmode, hsaving, hwake⟩⟩
    refine hsaving (Or.inr (hmode.mp ?_))
    rw [hstay hm hle hready]
    exact hm

theorem bookkept_leaveAll_iff (hs : s.Settled) (hb : s.Bookkept) :
    s.leaveAllPowerSaveMode.Bookkept ↔ (checkFwstate s.env.fwState fwLinked →
      ¬ (checkFwstate s.env.fwState wifiAdhocMasterState ∨
        checkFwstate s.env.fwState wifiAdhocState) →
      s.rfPwrstate = .rfOn ∧ (s.pwrMode = psModeActive ∨
        (s.bLeisurePs ∧ (s.env.oppPs = 0 ∨ s.env.p2pState ≠ .none)))) := by
  unfold leaveAllPowerSaveMode lpsCtrlLeave
  have hf := @flags_p2pPsWkCmd s p2pPsDisable fun _ => rfl
  have hset := settled_congr hs (by rw [hf]) (by rw [hf]) (by rw [hf])
  have hbook := (bookkept_congr hf).mpr hb
  have henv : (s.p2pPsWkCmd p2pPsDisable).env.fwState = s.env.fwState := by
    unfold p2pPsWkCmd
    split_ifs <;> rfl
  have hopp : (s.p2pPsWkCmd p2pPsDisable).env.oppPs = 0 ↔
    s.env.oppPs = 0 ∨ s.env.p2pState ≠ .none := by
    unfold p2pPsWkCmd
    split_ifs with hnone
    · simp [hnone]
    · simp [hnone, p2pPsDisable]
  have hleisure : (s.p2pPsWkCmd p2pPsDisable).bLeisurePs = s.bLeisurePs := by
    unfold p2pPsWkCmd
    split_ifs <;> rfl
  rw [henv]
  split_ifs with hlink hadhoc
  · exact ⟨fun _ _ h => absurd hadhoc h, fun _ => hbook⟩
  · rw [bookkept_lpsLeave_iff hset hbook, hopp, hleisure]
    simp only [flags, Flags.mk.injEq] at hf
    rw [hf.1, hf.2.2.2.1]
    exact ⟨fun h _ _ => h, fun h => h hlink hadhoc⟩
  · exact ⟨fun _ h => absurd h hlink, fun _ => hb⟩

theorem bookkept_ipsLeave_iff (hs : s.Settled) (hb : s.Bookkept) (h : HalStages)
    (alloc : ℕ → Bool) :
    (s.ipsLeave h alloc).1.Bookkept ↔ s.IpsLeaveOk h := by
  by_cases hrf : s.rfPwrstate = .rfOff
  · obtain ⟨hmode, hfw, hsaving, -, hwake, hup, hdown⟩ := ipsLeave_spec s h alloc hrf hs.1
    constructor
    · rintro ⟨hiff, htrue, -⟩ -
      rw [hsaving] at htrue
      have hno : ¬ (s.ipsLeave h alloc).1.bFwCurrentInPSMode = true := fun hfw' =>
        nomatch htrue (Or.inr hfw')
      refine ⟨?_, ?_⟩
      · rw [← hmode]
        by_contra hm
        exact hno (hiff.mp hm)
      · by_contra hp
        exact nomatch htrue (Or.inl (hdown hp).1)
    · intro hok
      obtain ⟨hm, hp⟩ := hok hrf
      have hfw0 : s.bFwCurrentInPSMode = false :=
        Bool.eq_false_iff.mpr fun hfw' => hb.1.mpr hfw' hm
      refine ⟨?_, ?_, hwake.trans hs.2.2⟩
      · rw [hmode, hfw hfw0]
        simp [hm]
      · rw [hup hp, hfw hfw0]
        simp
  · rw [ipsLeave, if_neg fun h => hrf h.1]
    exact ⟨fun _ h => absurd h hrf, fun _ => hb⟩

theorem bookkept_rtwPwrWakeup_iff (hs : s.Settled) (hb : s.Bookkept) (h : HalStages)
    (alloc : ℕ → Bool) : (s.rtwPwrWakeup h alloc).1.Bookkept ↔ s.WakeupOk h := by
  obtain ⟨heq, hon, -⟩ | ⟨hblock, hlink, -, heq, -⟩ := rtwPwrWakeup_cases s h alloc
  · rw [heq]
    exact ⟨fun _ hblock hlink hrf => absurd hrf (hon hblock hlink), fun _ => hb⟩
  · rw [heq, bookkept_ipsLeave_iff hs hb]
    exact ⟨fun hok _ _ => hok, fun hok => hok hblock hlink⟩

/-- A step keeps the flags true exactly when it meets `StepOk`. -/
theorem bookkept_step_iff (hs : s.Settled) (hb : s.Bookkept) (e : PwrEvent) :
    s.StepOk e ↔ (s.step e).Bookkept := by
  cases e with
  | lpsEnter =>
    refine ⟨fun _ => ?_, fun _ => trivial⟩
    rw [step]
    unfold lpsEnter
    split_ifs
    · have hb' : ({ s with bpowerSaving := true } : PwrCtrl).Bookkept :=
        ⟨hb.1, fun _ => rfl, hb.2.2⟩
      exact (bookkept_rtwSetPsMode_iff hb' _ _ _).mpr fun _ _ _ => rfl
    all_goals exact hb
  | lpsLeave => exact (bookkept_lpsLeave_iff hs hb).symm
  | setPsMode m a b => exact (bookkept_rtwSetPsMode_iff hb m a b).symm
  | pmSetLps mode =>
    rw [step, StepOk]
    unfold rtwPmSetLps
    dsimp only
    split_ifs with hlt hne hactive
    · have hb' := bookkept_leaveAll_iff hs hb
      constructor
      · intro h
        exact hb'.mpr (h hactive (by rw [← hactive]; exact hne))
      · intro h _ _
        exact hb'.mp h
    · exact ⟨fun _ => hb, fun _ h => absurd h hactive⟩
    · refine ⟨fun _ => hb, fun _ h hp => absurd ?_ hne⟩
      rw [h]
      exact hp
    · refine ⟨fun _ => hb, fun _ h => absurd ?_ hlt⟩
      rw [h]
      decide
  | pmSetIps mode h alloc =>
    rw [step, StepOk]
    unfold rtwPmSetIps
    dsimp only
    split_ifs with hmode
    · have hiff := bookkept_rtwPwrWakeup_iff (s := { s with ipsModeReq := mode }) hs hb h alloc
      exact ⟨fun hok => hiff.mpr (hok hmode.1 hmode.2), fun hbk _ _ => hiff.mp hbk⟩
    · exact ⟨fun _ => hb, fun _ h₁ h₂ => absurd ⟨h₁, h₂⟩ hmode⟩
  | ipsEnter =>
    refine ⟨fun _ => ?_, fun _ => trivial⟩
    rw [step]
    unfold ipsEnter
    dsimp only
    split_ifs
    · exact hb
    · exact hb
    · exact ⟨hb.1, fun _ => rfl, hb.2.2⟩
    · exact hb
  | ipsLeave h alloc =>
    obtain ⟨hset, hon⟩ := settled_ipsLeave hs h alloc
    rw [step, bookkept_congr (settled_noteWake hset hon).2, bookkept_ipsLeave_iff hs hb, StepOk]
  | pwrWakeup h alloc =>
    obtain ⟨hset, hon⟩ := settled_rtwPwrWakeup hs h alloc
    have hiff := bookkept_rtwPwrWakeup_iff hs hb h alloc
    unfold step
    dsimp only
    split_ifs with hlink
    · rw [hiff, StepOk]
    · rw [bookkept_congr (settled_noteWake hset (hon hlink)).2, hiff, StepOk]
  | elsewhere env change => exact ⟨fun _ => hb, fun _ => trivial⟩

/-- The flags are true in every state of a run exactly when every step of it is one of those that
keep them : no `LPS_Leave` while the mode cannot be left or the radio is off, no direct entry
without `bpower_saving`, no `ips_leave` with a failing power-up or during firmware power save. -/
theorem bookkept_iff (env : PwrEnv) (powerMgnt smartPs : ℕ) (ipsMode : IpsMode) (change : RfPwrState)
    (es : List PwrEvent) :
    (∀ pre, pre <+: es → (run step (init env powerMgnt smartPs ipsMode change) pre).Bookkept) ↔
      Along step StepOk (init env powerMgnt smartPs ipsMode change) es := by
  refine forall_prefix_iff_along (I := Settled) (fun u e hs => settled_step hs e)
    (fun u e hs hb => bookkept_step_iff hs hb e) es ⟨rfl, Or.inl rfl, rfl⟩ ⟨?_, ?_, rfl⟩
  · simp [init]
  · simp [init]

/-- An idle station that is not associated, with a WEP key. -/
def sampleEnv : PwrEnv where
  fwState := wifiStationState
  mpMode := false
  freeXmitbufCnt := 4
  freeXmitExtbufCnt := 32
  lpsDelayOver := true
  bInSuspend := false
  bInternalAutoSuspend := false
  binstallGrpkey := false
  dot11AuthAlgrthm := .openSystem
  dot11PrivacyAlgrthm := .wep40
  dot118021XGrpPrivacy := .noPrivacy
  keyMask := 1
  cmdthdRunning := true
  netClosed := false
  bDriverStopped := false
  bSurpriseRemoved := false
  bup := true
  hwInitCompleted := true
  regRfoff := false
  p2pState := .none
  p2pPsMode := 0
  ctwindow := 0
  oppPs := 0

/-- The radio goes off, and the power-up of the next leave fails at the firmware. -/
def sampleFailedLeave : List PwrEvent :=
  [.elsewhere sampleEnv .rfOff, .ipsEnter, .ipsLeave ⟨true, false, true⟩ fun _ => true]

/-- After the failed power-up the radio is off and `bpower_saving` is false. -/
theorem not_bookkept_sampleFailedLeave :
    ¬ ∀ pre, pre <+: sampleFailedLeave →
      (run step (init sampleEnv 1 2 .normal .rfOn) pre).Bookkept := by
  intro h
  exact absurd ((h sampleFailedLeave (List.prefix_refl _)).2.1 (Or.inl (by decide))) (by decide)

end PwrCtrl

end Rtl8188eu
