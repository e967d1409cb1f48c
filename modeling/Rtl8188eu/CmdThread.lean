import Rtl8188eu.Runs

/-!
# The command thread

`rtw_enqueue_cmd` of `core/rtw_cmd.c` gives a command to the thread `rtw_cmd_thread`, and with it
the memory of the command : the `cmd_obj`, its parameters and, for the extra commands of the driver,
a further buffer in the parameters. `rtw_cmd_filter` may refuse the command, before it is put on the
queue and once more in the thread. The thread calls the handler of the code and then its callback,
and frees what is on the queue when it stops.

The calls of `rtw_enqueue_cmd` run beside the thread : one may have passed the filter and not have
put its command on the queue yet. Each part of a command is freed exactly once in every run in which
no extra command with a buffer is refused or dropped, no disconnect command is dropped in the
thread, and no command is put on the queue after the thread is gone (`releasedOnce_run`).
-/

namespace Rtl8188eu

open Runs

/-! ## Commands -/

/-- `H2C_SUCCESS`. -/
def h2cSuccess : UInt8 := 0x00
/-- `H2C_DROPPED`. -/
def h2cDropped : UInt8 := 0x03
/-- `H2C_PARAMETERS_ERROR`. -/
def h2cParametersError : UInt8 := 0x04

/-- `_JoinBss_CMD_`. -/
def joinBssCmd : UInt16 := 14
/-- `_DisConnect_CMD_`. -/
def disConnectCmd : UInt16 := 15
/-- `_CreateBss_CMD_`. -/
def createBssCmd : UInt16 := 16
/-- `_Set_Drv_Extra_CMD_`. -/
def setDrvExtraCmd : UInt16 := 57
/-- `_SetChannelPlan_CMD_`. -/
def setChannelPlanCmd : UInt16 := 59
/-- The size of `wlancmds` and of `rtw_cmd_callback`. -/
def maxH2ccmd : UInt16 := 63

/-- `POWER_SAVING_CTRL_WK_CID`. -/
def powerSavingCtrlWkCid : ℤ := 4
/-- `C2H_WK_CID`. -/
def c2hWkCid : ℤ := 11

/-- `struct drvextra_cmd_parm`. -/
structure DrvextraCmdParm where
  ecId : ℤ
  typeSize : ℤ
  /-- The pointer is not null. -/
  pbuf : Bool

/-- `struct cmd_obj`. -/
structure CmdObj where
  cmdcode : UInt16
  res : UInt8
  /-- The parameters, as the extra commands have them. -/
  parmbuf : DrvextraCmdParm
  /-- The pointer is not null. -/
  rsp : Bool
  rspsz : UInt32

/-- The handlers of `wlancmds`, as far as the memory of a command and its result depend on them. -/
inductive CmdHdl
  /-- `NULL_hdl`. -/
  | nullHdl
  /-- `disconnect_hdl`. -/
  | disconnectHdl
  /-- `rtw_drvextra_cmd_hdl`. -/
  | drvextraCmdHdl
  | other

/-- `h2cfuns` of `wlancmds`. -/
def h2cfuns (cmdcode : UInt16) : Option CmdHdl :=
  if cmdcode ≤ 5 then some .nullHdl
  else if cmdcode = disConnectCmd then some .disconnectHdl
  else if cmdcode = setDrvExtraCmd then some .drvextraCmdHdl
  else if cmdcode ∈ [14, 16, 17, 18, 19, 20, 21, 45, 46, 55, 56, 58, 59, 60, 61, 62] then some .other
  else none

/-- The callbacks of `rtw_cmd_callback`. -/
inductive CmdCallback
  /-- `rtw_getbbrfreg_cmdrsp_callback`. -/
  | getbbrfreg
  /-- `rtw_joinbss_cmd_callback`. -/
  | joinbss
  /-- `rtw_disassoc_cmd_callback`. -/
  | disassoc
  /-- `rtw_createbss_cmd_callback`. -/
  | createbss
  /-- `rtw_survey_cmd_callback`. -/
  | survey
  /-- `rtw_setstaKey_cmdrsp_callback`. -/
  | setstaKey
  /-- `rtw_setassocsta_cmdrsp_callback`. -/
  | setassocsta

/-- `callback` of `rtw_cmd_callback`. -/
def rtwCmdCallback (cmdcode : UInt16) : Option CmdCallback :=
  if cmdcode = 2 ∨ cmdcode = 4 then some .getbbrfreg
  else if cmdcode = joinBssCmd then some .joinbss
  else if cmdcode = disConnectCmd then some .disassoc
  else if cmdcode = createBssCmd then some .createbss
  else if cmdcode = 18 then some .survey
  else if cmdcode = 21 then some .setstaKey
  else if cmdcode = 22 then some .setassocsta
  else none

/-- The nested buffer belongs to the command. -/
def CmdObj.ownsPbuf (c : CmdObj) : Bool :=
  c.cmdcode = setDrvExtraCmd && c.parmbuf.pbuf && 0 < c.parmbuf.typeSize

/-- The parameters belong to the command. -/
def CmdObj.ownsParmbuf (c : CmdObj) : Bool :=
  c.cmdcode ≠ joinBssCmd && c.cmdcode ≠ createBssCmd

theorem CmdObj.toNat_ownsPbuf (c : CmdObj) : c.ownsPbuf.toNat =
    if c.cmdcode = setDrvExtraCmd ∧ c.parmbuf.pbuf = true ∧
      0 < c.parmbuf.typeSize then 1 else 0 := by
  have howns : c.ownsPbuf = true ↔
      c.cmdcode = setDrvExtraCmd ∧ c.parmbuf.pbuf = true ∧ 0 < c.parmbuf.typeSize := by
    simp only [ownsPbuf, Bool.and_eq_true, decide_eq_true_eq, and_assoc]
  split
  · rename_i h
    rw [howns.mpr h]
    rfl
  · rename_i h
    rw [Bool.eq_false_iff.mpr fun hown => h (howns.mp hown)]
    rfl

theorem CmdObj.toNat_ownsParmbuf (c : CmdObj) : c.ownsParmbuf.toNat =
    if c.cmdcode = joinBssCmd ∨ c.cmdcode = createBssCmd then 0 else 1 := by
  by_cases hjoin : c.cmdcode = joinBssCmd
  · simp [ownsParmbuf, hjoin]
  · by_cases hcreate : c.cmdcode = createBssCmd
    · simp [ownsParmbuf, hcreate]
    · simp [ownsParmbuf, hjoin, hcreate]

/-- The parameters of a command that `rtw_getbbrfreg_cmdrsp_callback` frees are its own. -/
theorem ownsParmbuf_of_getbbrfreg {c : CmdObj} (h : rtwCmdCallback c.cmdcode = some .getbbrfreg) :
    c.ownsParmbuf = true := by
  have hcode : c.cmdcode = 2 ∨ c.cmdcode = 4 := by
    by_contra hne
    rw [rtwCmdCallback, if_neg hne] at h
    split_ifs at h <;> cases h
  rcases hcode with hcode | hcode
  · rw [CmdObj.ownsParmbuf, hcode]
    rfl
  · rw [CmdObj.ownsParmbuf, hcode]
    rfl

theorem cmdcode_of_disassoc {code : UInt16} (h : rtwCmdCallback code = some .disassoc) :
    code = disConnectCmd := by
  by_contra hne
  unfold rtwCmdCallback at h
  split_ifs at h <;> cases h

theorem cmdcode_of_drvextraCmdHdl {code : UInt16} (h : h2cfuns code = some .drvextraCmdHdl) :
    code = setDrvExtraCmd := by
  by_contra hne
  unfold h2cfuns at h
  split_ifs at h <;> cases h

/-! ## The thread -/

/-- Where the thread is. A command is named by its number. -/
inductive ThreadPc
  | created
  /-- At `_rtw_down_sema`. -/
  | waiting
  /-- At `_next`. -/
  | next
  /-- The command is taken from the queue. -/
  | dispatch (k : ℕ)
  /-- At `post_process`. -/
  | posting (k : ℕ)
  /-- In the loop behind `cmdthd_running = false`. -/
  | draining
  | exited
  deriving DecidableEq

/-- The memory of the command with the number `k`, as it is given to `kfree`. -/
inductive CmdMem
  | cmdObj (k : ℕ)
  | parmbuf (k : ℕ)
  | rsp (k : ℕ)
  | pbuf (k : ℕ)
  deriving DecidableEq

/-- The commands, the thread and what `rtw_cmd_filter` and the thread read of the driver. -/
structure CmdPriv where
  obj : ℕ → CmdObj
  /-- How often `rtw_enqueue_cmd` was called. -/
  count : ℕ
  /-- The calls of `rtw_enqueue_cmd` between the filter and the queue. -/
  entering : List ℕ
  cmdQueue : List ℕ
  /-- `cmd_queue_sema`. -/
  sema : ℕ
  cmdthdRunning : Bool
  thread : ThreadPc
  hwInitCompleted : Bool
  bHWPwrPindetect : Bool
  usbssEnable : Bool
  bDriverStopped : Bool
  bSurpriseRemoved : Bool
  /-- The calls of `kfree`. -/
  freed : List CmdMem

/-- What happens to the commands. -/
inductive CmdEvent
  /-- The state of the driver changes. -/
  | driver (hwInitCompleted bHWPwrPindetect usbssEnable bDriverStopped bSurpriseRemoved : Bool)
  /-- `rtw_stop_drv_threads` wakes the thread. -/
  | wake
  /-- `rtw_enqueue_cmd`, with its filter. -/
  | enqueue (c : CmdObj)
  /-- A call of `rtw_enqueue_cmd` goes on, with `_rtw_enqueue_cmd`. -/
  | insert (k : ℕ)
  /-- The thread goes on. It may be interrupted where it waits, and the handler may return `ret`. -/
  | thread (interrupted : Bool) (ret : UInt8)

namespace CmdPriv

/-- `_rtw_init_cmd_priv`, before the thread runs. -/
def init : CmdPriv where
  obj := fun _ => ⟨0, 0, ⟨0, 0, false⟩, false, 0⟩
  count := 0
  entering := []
  cmdQueue := []
  sema := 0
  cmdthdRunning := false
  thread := .created
  hwInitCompleted := false
  bHWPwrPindetect := false
  usbssEnable := false
  bDriverStopped := false
  bSurpriseRemoved := false
  freed := []

/-- `rtw_cmd_filter`. -/
def rtwCmdFilter (s : CmdPriv) (c : CmdObj) : Bool :=
  let bAllow := (s.bHWPwrPindetect && !s.usbssEnable && c.cmdcode = setDrvExtraCmd &&
    c.parmbuf.ecId = powerSavingCtrlWkCid) || c.cmdcode = setChannelPlanCmd
  !((!s.hwInitCompleted && !bAllow) || !s.cmdthdRunning)

/-- `rtw_free_cmd_obj`. -/
def rtwFreeCmdObj (s : CmdPriv) (k : ℕ) : CmdPriv :=
  let c := s.obj k
  { s with
    freed := s.freed ++ (if c.ownsParmbuf then [.parmbuf k] else []) ++
      (if c.rsp && c.rspsz ≠ 0 then [.rsp k] else []) ++ [.cmdObj k] }

/-- The result of a command. -/
def setRes (s : CmdPriv) (k : ℕ) (res : UInt8) : CmdPriv :=
  { s with obj := Function.update s.obj k { s.obj k with res := res } }

/-- `rtw_enqueue_cmd`, up to the queue. -/
def rtwEnqueueCmd (s : CmdPriv) (c : CmdObj) : CmdPriv :=
  let k := s.count
  let s' := { s with obj := Function.update s.obj k c, count := k + 1 }
  if s.rtwCmdFilter c then { s' with entering := s'.entering ++ [k] } else s'.rtwFreeCmdObj k

/-- `rtw_drvextra_cmd_hdl`, its part about the buffer. -/
def rtwDrvextraCmdHdl (s : CmdPriv) (k : ℕ) : CmdPriv :=
  let p := (s.obj k).parmbuf
  if p.pbuf && 0 < p.typeSize then { s with freed := s.freed ++ [.pbuf k] } else s

/-- The call of the handler. -/
def callHdl (s : CmdPriv) (k : ℕ) (ret : UInt8) : CmdPriv :=
  let code := (s.obj k).cmdcode
  if code < maxH2ccmd then
    match h2cfuns code with
    | none => s
    | some .nullHdl => s.setRes k h2cSuccess
    | some .disconnectHdl => s.setRes k h2cSuccess
    | some .drvextraCmdHdl => (s.rtwDrvextraCmdHdl k).setRes k h2cSuccess
    | some .other => s.setRes k ret
  else s.setRes k h2cParametersError

/-- `rtw_getbbrfreg_cmdrsp_callback`. -/
def rtwGetbbrfregCmdrspCallback (s : CmdPriv) (k : ℕ) : CmdPriv :=
  { s with freed := s.freed ++ [.parmbuf k, .cmdObj k] }

/-- `rtw_disassoc_cmd_callback`. After a command that failed it returns at once. -/
def rtwDisassocCmdCallback (s : CmdPriv) (k : ℕ) : CmdPriv :=
  if (s.obj k).res ≠ h2cSuccess then s else s.rtwFreeCmdObj k

/-- The part of `rtw_cmd_thread` behind `post_process`. The callbacks that are not named here free
the command on all of their paths. -/
def postProcess (s : CmdPriv) (k : ℕ) : CmdPriv :=
  let code := (s.obj k).cmdcode
  if code < maxH2ccmd then
    match rtwCmdCallback code with
    | none => s.rtwFreeCmdObj k
    | some .getbbrfreg => s.rtwGetbbrfregCmdrspCallback k
    | some .disassoc => s.rtwDisassocCmdCallback k
    | some .joinbss | some .createbss | some .survey | some .setstaKey | some .setassocsta =>
      s.rtwFreeCmdObj k
  else s.rtwFreeCmdObj k

/-- The thread leaves its loop. -/
def leave (s : CmdPriv) : CmdPriv := { s with cmdthdRunning := false, thread := .draining }

/-- `rtw_cmd_thread` goes on. -/
def rtwCmdThread (s : CmdPriv) (interrupted : Bool) (ret : UInt8) : Option CmdPriv :=
  let stopped := s.bDriverStopped || s.bSurpriseRemoved
  match s.thread with
  | .created => some { s with cmdthdRunning := true, thread := .waiting }
  | .waiting =>
    if interrupted then some s.leave
    else if s.sema = 0 then none
    else if stopped then some { s with sema := s.sema - 1 }.leave
    else some { s with sema := s.sema - 1, thread := .next }
  | .next =>
    if stopped then some s.leave
    else match s.cmdQueue with
      | [] => some { s with thread := .waiting }
      | k :: rest => some { s with cmdQueue := rest, thread := .dispatch k }
  | .dispatch k =>
    if s.rtwCmdFilter (s.obj k) then some { s.callHdl k ret with thread := .posting k }
    else some { s.setRes k h2cDropped with thread := .posting k }
  | .posting k => some { s.postProcess k with thread := .next }
  | .draining =>
    match s.cmdQueue with
    | [] => some { s with thread := .exited }
    | k :: rest => some ({ s with cmdQueue := rest }.rtwFreeCmdObj k)
  | .exited => none

/-- One event. -/
def cmdStep (s : CmdPriv) : CmdEvent → Option CmdPriv
  | .driver hwInitCompleted bHWPwrPindetect usbssEnable bDriverStopped bSurpriseRemoved =>
    some { s with hwInitCompleted, bHWPwrPindetect, usbssEnable, bDriverStopped, bSurpriseRemoved }
  | .wake => some { s with sema := s.sema + 1 }
  | .enqueue c => some (s.rtwEnqueueCmd c)
  | .insert k =>
    if k ∈ s.entering then
      some { s with entering := s.entering.erase k, cmdQueue := s.cmdQueue ++ [k], sema := s.sema + 1 }
    else none
  | .thread interrupted ret => s.rtwCmdThread interrupted ret

/-! ## The account of a command -/

variable {s t : CmdPriv} {j k : ℕ}

/-- The command that the thread has taken from the queue. -/
def inHand (s : CmdPriv) : List ℕ :=
  match s.thread with
  | .dispatch k => [k]
  | .posting k => [k]
  | _ => []

/-- The commands that are on their way. -/
def pending (s : CmdPriv) : List ℕ := s.entering ++ s.cmdQueue ++ s.inHand

/-- How often the object, the parameters and the nested buffer of a command are in a list. -/
def tally (ms : List CmdMem) (k : ℕ) : ℕ × ℕ × ℕ :=
  (ms.count (.cmdObj k), ms.count (.parmbuf k), ms.count (.pbuf k))

/-- How often they were freed. -/
def account (s : CmdPriv) (k : ℕ) : ℕ × ℕ × ℕ := tally s.freed k

/-- How often the nested buffer has to be freed. -/
def pbufDue (s : CmdPriv) (k : ℕ) : ℕ := (s.obj k).ownsPbuf.toNat

/-- What has to be freed of a command. -/
def due (s : CmdPriv) (k : ℕ) : ℕ × ℕ × ℕ := (1, (s.obj k).ownsParmbuf.toNat, s.pbufDue k)

/-- What has to be freed of a command up to now. -/
def expected (s : CmdPriv) (k : ℕ) : ℕ × ℕ × ℕ :=
  if s.thread = .posting k then (0, 0, s.pbufDue k)
  else if k ∈ s.pending ∨ s.count ≤ k then (0, 0, 0)
  else s.due k

/-- What every event keeps. -/
structure CmdInv (s : CmdPriv) : Prop where
  nodup : s.pending.Nodup
  bound : ∀ k ∈ s.pending, k < s.count
  account : ∀ k, s.account k = s.expected k
  /-- A disconnect command that was not dropped has succeeded. -/
  res : ∀ k, s.thread = .posting k → (s.obj k).cmdcode = disConnectCmd → (s.obj k).res = h2cSuccess
  /-- Every command on the queue wakes the thread. -/
  sema : s.thread = .created ∨ s.thread = .waiting → s.cmdQueue.length ≤ s.sema
  queue : s.thread = .exited → s.cmdQueue = []

theorem tally_append (ms ns : List CmdMem) (k : ℕ) :
    tally (ms ++ ns) k = tally ms k + tally ns k := by
  simp only [tally, List.count_append, Prod.mk_add_mk]

theorem tally_nil (j : ℕ) : tally [] j = 0 := rfl

theorem tally_cmdObj (j k : ℕ) : tally [.cmdObj k] j = if j = k then (1, 0, 0) else 0 := by
  by_cases hj : j = k
  · simp [tally, hj]
  · simp [tally, hj, Ne.symm hj]

theorem tally_parmbuf (j k : ℕ) : tally [.parmbuf k] j = if j = k then (0, 1, 0) else 0 := by
  by_cases hj : j = k
  · simp [tally, hj]
  · simp [tally, hj, Ne.symm hj]

theorem tally_pbuf (j k : ℕ) : tally [.pbuf k] j = if j = k then (0, 0, 1) else 0 := by
  by_cases hj : j = k
  · simp [tally, hj]
  · simp [tally, hj, Ne.symm hj]

theorem tally_rsp (j k : ℕ) : tally [.rsp k] j = 0 := by
  simp [tally]

/-- The memory of other commands is not touched. -/
theorem account_rtwFreeCmdObj : (s.rtwFreeCmdObj k).account j =
    s.account j + if j = k then (1, (s.obj k).ownsParmbuf.toNat, 0) else 0 := by
  have hrsp : tally (if (s.obj k).rsp && (s.obj k).rspsz ≠ 0 then [CmdMem.rsp k] else [])
    j = 0 := by
    split
    · exact tally_rsp j k
    · exact tally_nil j
  have hparm : tally (if (s.obj k).ownsParmbuf then [CmdMem.parmbuf k] else []) j =
      if j = k then (0, (s.obj k).ownsParmbuf.toNat, 0) else 0 := by
    cases (s.obj k).ownsParmbuf with
    | true => exact tally_parmbuf j k
    | false => exact (ite_self (0 : ℕ × ℕ × ℕ)).symm
  simp only [account, rtwFreeCmdObj, tally_append, hrsp, hparm, tally_cmdObj, add_zero, add_assoc]
  split
  · simp
  · simp

theorem account_rtwGetbbrfregCmdrspCallback : (s.rtwGetbbrfregCmdrspCallback k).account j =
    s.account j + if j = k then (1, 1, 0) else 0 := by
  have hlist : [CmdMem.parmbuf k, CmdMem.cmdObj k] = [.parmbuf k] ++ [.cmdObj k] := rfl
  simp only [account, rtwGetbbrfregCmdrspCallback, hlist, tally_append, tally_parmbuf, tally_cmdObj]
  split
  · simp
  · simp

/-- Behind `post_process` the object and the parameters are freed, but for a disconnect command that
has failed. -/
theorem account_postProcess
    (hres : (s.obj k).cmdcode = disConnectCmd → (s.obj k).res = h2cSuccess) :
    (s.postProcess k).account j =
      s.account j + if j = k then (1, (s.obj k).ownsParmbuf.toNat, 0) else 0 := by
  unfold postProcess
  extract_lets code
  split
  · split
    · exact account_rtwFreeCmdObj
    · rename_i hcode
      rw [account_rtwGetbbrfregCmdrspCallback, ownsParmbuf_of_getbbrfreg hcode]
      rfl
    · rename_i hcode
      rw [rtwDisassocCmdCallback, if_neg (not_not.mpr (hres (cmdcode_of_disassoc hcode)))]
      exact account_rtwFreeCmdObj
    all_goals exact account_rtwFreeCmdObj
  · exact account_rtwFreeCmdObj

theorem account_rtwDrvextraCmdHdl (hcode : (s.obj k).cmdcode = setDrvExtraCmd) :
    (s.rtwDrvextraCmdHdl k).account j = s.account j + if j = k then (0, 0, s.pbufDue k) else 0 := by
  have hdue : s.pbufDue k = ((s.obj k).parmbuf.pbuf && 0 < (s.obj k).parmbuf.typeSize).toNat := by
    rw [pbufDue, CmdObj.ownsPbuf, hcode]
    rfl
  unfold rtwDrvextraCmdHdl
  extract_lets p
  split
  · rename_i hown
    rw [hdue, hown, account, tally_append, tally_pbuf]
    rfl
  · rename_i hown
    rw [Bool.not_eq_true] at hown
    rw [hdue, hown]
    split
    · rfl
    · rfl

/-- The handler of a command frees its nested buffer. -/
theorem account_callHdl (ret : UInt8) :
    (s.callHdl k ret).account j = s.account j + if j = k then (0, 0, s.pbufDue k) else 0 := by
  by_cases hcode : (s.obj k).cmdcode = setDrvExtraCmd
  · have hcall : s.callHdl k ret = (s.rtwDrvextraCmdHdl k).setRes k h2cSuccess := by
      rw [callHdl, hcode]
      rfl
    rw [hcall]
    exact account_rtwDrvextraCmdHdl hcode
  · have hdue : s.pbufDue k = 0 := by
      simp [pbufDue, CmdObj.ownsPbuf, hcode]
    have hzero : (if j = k then ((0, 0, 0) : ℕ × ℕ × ℕ) else 0) = 0 := ite_self 0
    rw [hdue, hzero, add_zero]
    unfold callHdl
    extract_lets code
    split
    · split
      · rfl
      · rfl
      · rfl
      · rename_i hhdl
        exact absurd (cmdcode_of_drvextraCmdHdl hhdl) hcode
      · rfl
    · rfl

/-! ## What keeps the invariant -/

/-- `t` has the commands of `s`, but for their results. -/
structure SameCmds (s t : CmdPriv) : Prop where
  count : t.count = s.count
  cmdcode : ∀ k, (t.obj k).cmdcode = (s.obj k).cmdcode
  parmbuf : ∀ k, (t.obj k).parmbuf = (s.obj k).parmbuf

theorem SameCmds.pbufDue (h : SameCmds s t) (k : ℕ) : t.pbufDue k = s.pbufDue k := by
  simp only [CmdPriv.pbufDue, CmdObj.ownsPbuf, h.cmdcode, h.parmbuf]

theorem SameCmds.due (h : SameCmds s t) (k : ℕ) : t.due k = s.due k := by
  simp only [CmdPriv.due, h.pbufDue, CmdObj.ownsParmbuf, h.cmdcode]

theorem sameCmds_setRes (r : UInt8) : SameCmds s (s.setRes k r) := by
  have hobj : ∀ j, ((s.setRes k r).obj j).cmdcode = (s.obj j).cmdcode ∧
      ((s.setRes k r).obj j).parmbuf = (s.obj j).parmbuf := by
    intro j
    rcases eq_or_ne j k with rfl | hj
    · simp [setRes]
    · simp [setRes, Function.update_of_ne hj]
  exact ⟨rfl, fun j => (hobj j).1, fun j => (hobj j).2⟩

/-- The call of a handler changes the result of its command and the memory that is freed. -/
theorem callHdl_eq (ret : UInt8) : ∃ r ms, s.callHdl k ret = { s.setRes k r with freed := ms } ∧
    ((s.obj k).cmdcode = disConnectCmd → r = h2cSuccess) := by
  have hextra : ∃ ms, s.rtwDrvextraCmdHdl k = { s with freed := ms } := by
    unfold rtwDrvextraCmdHdl
    extract_lets p
    split
    · exact ⟨_, rfl⟩
    · exact ⟨_, rfl⟩
  by_cases hcode : (s.obj k).cmdcode = disConnectCmd
  · refine ⟨h2cSuccess, s.freed, ?_, fun _ => rfl⟩
    rw [callHdl, hcode]
    rfl
  · unfold callHdl
    extract_lets code
    split
    · split
      · refine ⟨(s.obj k).res, s.freed, ?_, fun h => absurd h hcode⟩
        simp [setRes]
      · exact ⟨_, _, rfl, fun h => absurd h hcode⟩
      · exact ⟨_, _, rfl, fun h => absurd h hcode⟩
      · obtain ⟨ms, hms⟩ := hextra
        exact ⟨h2cSuccess, ms, by rw [hms]; rfl, fun h => absurd h hcode⟩
      · exact ⟨_, _, rfl, fun h => absurd h hcode⟩
    · exact ⟨_, _, rfl, fun h => absurd h hcode⟩

/-- The code behind `post_process` changes the memory that is freed. -/
theorem postProcess_eq : ∃ ms, s.postProcess k = { s with freed := ms } := by
  unfold postProcess
  extract_lets code
  split
  · split
    · exact ⟨_, rfl⟩
    · exact ⟨_, rfl⟩
    · unfold rtwDisassocCmdCallback
      split
      · exact ⟨_, rfl⟩
      · exact ⟨_, rfl⟩
    all_goals exact ⟨_, rfl⟩
  · exact ⟨_, rfl⟩

/-- Commands move, and none is freed. -/
theorem CmdInv.move (h : CmdInv s) (hobj : t.obj = s.obj) (hcount : t.count = s.count)
    (hfreed : t.freed = s.freed) (hpend : t.pending.Perm s.pending)
    (hpost : ∀ k, t.thread = .posting k ↔ s.thread = .posting k)
    (hsema : t.thread = .created ∨ t.thread = .waiting → t.cmdQueue.length ≤ t.sema)
    (hqueue : t.thread = .exited → t.cmdQueue = []) : CmdInv t := by
  have hsame : SameCmds s t := ⟨hcount, fun k => by rw [hobj], fun k => by rw [hobj]⟩
  refine ⟨hpend.nodup_iff.mpr h.nodup,
    fun k hk => ?_, fun k => ?_, fun k hk hcode => ?_, hsema, hqueue⟩
  · rw [hcount]
    exact h.bound k (hpend.mem_iff.mp hk)
  · have hexp : t.expected k = s.expected k := by
      simp only [expected, hpost, hpend.mem_iff, hcount, hsame.pbufDue, hsame.due]
    rw [hexp, ← h.account k, CmdPriv.account, hfreed]
    rfl
  · rw [hobj] at hcode ⊢
    exact h.res k ((hpost k).mp hk) hcode

/-- The command `k` is freed, with its nested buffer freed before. -/
theorem CmdInv.finish (h : CmdInv s) (hobj : t.obj = s.obj) (hcount : t.count = s.count)
    (hpend : s.pending.Perm (k :: t.pending)) (hk : s.account k = (0, 0, s.pbufDue k))
    (haccount : ∀ j, t.account j = s.account j + if j =
    k then (1, (s.obj k).ownsParmbuf.toNat, 0) else 0)
    (hpost : ∀ j, t.thread = .posting j ↔ s.thread = .posting j ∧ j ≠ k)
    (hsema : t.thread = .created ∨ t.thread = .waiting → t.cmdQueue.length ≤ t.sema)
    (hqueue : t.thread = .exited → t.cmdQueue = []) : CmdInv t := by
  have hsame : SameCmds s t := ⟨hcount, fun k => by rw [hobj], fun k => by rw [hobj]⟩
  obtain ⟨hnot, hnodup⟩ := List.nodup_cons.mp (hpend.nodup_iff.mp h.nodup)
  refine ⟨hnodup, fun j hj => ?_, fun j => ?_, fun j hj hcode => ?_, hsema, hqueue⟩
  · rw [hcount]
    exact h.bound j (hpend.mem_iff.mpr (List.mem_cons_of_mem k hj))
  · rw [haccount j]
    rcases eq_or_ne j k with rfl | hj
    · have hlt : ¬ (j ∈ t.pending ∨ t.count ≤ j) := by
        have hbound := h.bound j (hpend.mem_iff.mpr List.mem_cons_self)
        rintro (hmem | hle)
        · exact hnot hmem
        · omega
      rw [if_pos rfl, hk, expected, if_neg fun hp => ((hpost j).mp hp).2 rfl, if_neg hlt, hsame.due]
      simp only [CmdPriv.due, Prod.mk_add_mk, Nat.zero_add, Nat.add_zero]
    · have hexp : t.expected j = s.expected j := by
        simp only [expected, hpost, hpend.mem_iff, List.mem_cons, hj, ne_eq,
          not_false_eq_true, and_true,
          false_or, hcount, hsame.pbufDue, hsame.due]
      rw [if_neg hj, add_zero, h.account j, hexp]
  · rw [hobj] at hcode ⊢
    exact h.res j ((hpost j).mp hj).1 hcode

/-- The handler of the command `k` was called, or the command was dropped. -/
theorem CmdInv.post (h : CmdInv s) (hs : s.thread = .dispatch k) {r : UInt8} {ms : List CmdMem}
    (haccount : ∀ j, tally ms j = s.account j + if j = k then (0, 0, s.pbufDue k) else 0)
    (hres : (s.obj k).cmdcode = disConnectCmd → r = h2cSuccess) :
    CmdInv { s.setRes k r with freed := ms, thread := .posting k } := by
  generalize ht : { s.setRes k r with freed := ms, thread := .posting k } = t
  have hset := sameCmds_setRes (s := s) (k := k) r
  have hsame : SameCmds s t := by
    rw [← ht]
    exact ⟨hset.count, hset.cmdcode, hset.parmbuf⟩
  have hpost : t.thread = .posting k := by rw [← ht]
  have hpend : t.pending = s.pending := by
    rw [pending, pending, inHand, inHand, hs, ← ht]
    rfl
  have hmem : k ∈ s.pending := by
    simp [pending, inHand, hs]
  refine ⟨hpend ▸ h.nodup,
    fun j hj => ?_, fun j => ?_, fun j hj hcode => ?_, fun hw => ?_, fun he => ?_⟩
  · rw [hsame.count]
    exact h.bound j (hpend ▸ hj)
  · have hfreed : t.account j = tally ms j := by rw [CmdPriv.account, ← ht]
    rw [hfreed, haccount j, h.account j]
    rcases eq_or_ne j k with rfl | hj
    · simp [expected, hs, hpost, hmem, hsame.pbufDue]
    · have hne : ¬ t.thread = .posting j := by
        rw [hpost]
        exact fun hp => hj (ThreadPc.posting.inj hp).symm
      simp [expected, hs, hne, hj, hpend, hsame.count, hsame.due]
  · obtain rfl : j = k := (ThreadPc.posting.inj (hpost.symm.trans hj)).symm
    have hr : (t.obj j).res = r := by
      rw [← ht]
      simp [setRes]
    rw [hr]
    exact hres (hsame.cmdcode j ▸ hcode)
  · rw [hpost] at hw
    rcases hw with hw | hw <;> cases hw
  · rw [hpost] at he
    cases he

/-! ## The events -/

/-- The commands after a call of `rtw_enqueue_cmd` that has passed the filter. -/
def enter (s : CmdPriv) (c : CmdObj) : CmdPriv :=
  { s with
    obj := Function.update s.obj s.count c, count := s.count + 1, entering := s.entering ++ [s.count] }

theorem obj_enter {c : CmdObj} (hj : j ≠ s.count) : (s.enter c).obj j = s.obj j :=
  Function.update_of_ne hj ..

theorem pending_enter (c : CmdObj) : (s.enter c).pending.Perm (s.count :: s.pending) := by
  have hpend : (s.enter c).pending = s.entering ++ [s.count] ++ s.cmdQueue ++ s.inHand := rfl
  rw [hpend, List.append_assoc, List.append_assoc, pending, List.append_assoc]
  exact List.perm_middle

theorem CmdInv.not_mem_count (h : CmdInv s) : s.count ∉ s.pending :=
    fun hmem => (h.bound _ hmem).false

theorem CmdInv.ne_count (h : CmdInv s) (hj : s.thread = .posting j) : j ≠ s.count := by
  rintro rfl
  exact h.not_mem_count (by simp [pending, inHand, hj])

theorem CmdInv.enter (h : CmdInv s) (c : CmdObj) : CmdInv (s.enter c) := by
  have hperm := pending_enter (s := s) c
  refine ⟨hperm.nodup_iff.mpr (List.nodup_cons.mpr ⟨h.not_mem_count, h.nodup⟩), fun j hj => ?_,
    fun j => ?_, fun j hj hcode => ?_, h.sema, h.queue⟩
  · rcases List.mem_cons.mp (hperm.mem_iff.mp hj) with rfl | hj
    · exact Nat.lt_succ_self _
    · exact (h.bound j hj).trans (Nat.lt_succ_self _)
  · have hcount : (s.enter c).count = s.count + 1 := rfl
    have hthread : (s.enter c).thread = s.thread := rfl
    refine (h.account j).trans ?_
    rcases eq_or_ne j s.count with rfl | hj
    · have hpost : ¬ s.thread = .posting s.count := fun hp => h.ne_count hp rfl
      simp [expected, hthread, hpost, hperm.mem_iff]
    · have hle : s.count + 1 ≤ j ↔ s.count ≤ j := by omega
      simp only [expected, hthread, hperm.mem_iff, List.mem_cons, hj, false_or, hcount, hle,
        due, pbufDue,
        obj_enter hj]
  · rw [obj_enter (h.ne_count hj)] at hcode ⊢
    exact h.res j hj hcode

/-- The thread drops an extra command with a nested buffer or a disconnect command, or frees an
extra command with a nested buffer when it stops. -/
def threadLeaks (s : CmdPriv) : Bool :=
  match s.thread with
  | .dispatch k => !s.rtwCmdFilter (s.obj k) &&
    ((s.obj k).ownsPbuf || (s.obj k).cmdcode = disConnectCmd)
  | .draining => s.cmdQueue.head?.any fun k => (s.obj k).ownsPbuf
  | _ => false

/-- What loses memory in an event. It is in the thread, an extra command with a nested buffer is
refused, or a command is put on the queue after the thread is gone. -/
def Leaks (s : CmdPriv) : CmdEvent → Prop
  | .enqueue c => s.rtwCmdFilter c = false ∧ c.ownsPbuf = true
  | .insert _ => s.thread = .exited
  | .thread _ _ => s.threadLeaks = true
  | _ => False

instance (s : CmdPriv) : ∀ e : CmdEvent, Decidable (s.Leaks e)
  | .driver _ _ _ _ _ => inferInstanceAs (Decidable False)
  | .wake => inferInstanceAs (Decidable False)
  | .enqueue c => inferInstanceAs (Decidable (s.rtwCmdFilter c = false ∧ c.ownsPbuf = true))
  | .insert _ => inferInstanceAs (Decidable (s.thread = .exited))
  | .thread _ _ => inferInstanceAs (Decidable (s.threadLeaks = true))

theorem CmdInv.enqueue (h : CmdInv s) {c : CmdObj} (hsafe : ¬ s.Leaks (.enqueue c)) :
    CmdInv (s.rtwEnqueueCmd c) := by
  unfold rtwEnqueueCmd
  extract_lets k s'
  split
  · exact h.enter c
  · rename_i hfilter
    have hown : c.ownsPbuf = false := by
      rw [← Bool.not_eq_true]
      exact fun hown => hsafe ⟨Bool.not_eq_true _ ▸ hfilter, hown⟩
    have hobj : (s.enter c).obj s.count = c := Function.update_self ..
    have hdue : (s.enter c).pbufDue s.count = 0 := by
      rw [pbufDue, hobj, hown]
      rfl
    -- the object is freed as if it had been on its way
    refine (h.enter c).finish (k := s.count) rfl rfl (pending_enter c) ?_ (fun j => ?_)
      (fun j => ?_)
      h.sema h.queue
    · have hmem : s.count ∈ (s.enter c).pending := (pending_enter c).mem_iff.mpr List.mem_cons_self
      rw [(h.enter c).account, expected, hdue, if_pos (Or.inl hmem), ite_self]
    · exact account_rtwFreeCmdObj
    · exact ⟨fun hj => ⟨hj, h.ne_count hj⟩, fun hj => hj.1⟩

theorem CmdInv.insert (h : CmdInv s) (hk : k ∈ s.entering) (hsafe : ¬ s.thread = .exited) :
    CmdInv { s with
      entering := s.entering.erase k, cmdQueue := s.cmdQueue ++ [k], sema := s.sema + 1 } := by
  refine h.move rfl rfl rfl ?_ (fun _ => Iff.rfl) (fun hw => ?_) fun he => absurd he hsafe
  · have hperm : s.entering.Perm (k :: s.entering.erase k) := List.perm_cons_erase hk
    change (s.entering.erase k ++ (s.cmdQueue ++ [k]) ++ s.inHand).Perm
      (s.entering ++ s.cmdQueue ++ s.inHand)
    refine List.Perm.append_right _ ?_
    calc s.entering.erase k ++ (s.cmdQueue ++ [k])
        = s.entering.erase k ++ s.cmdQueue ++ [k] := (List.append_assoc ..).symm
      _ |>.Perm (k :: (s.entering.erase k ++ s.cmdQueue)) := List.perm_append_singleton k _
      _ |>.Perm (s.entering ++ s.cmdQueue) := hperm.symm.append_right _
  · have := h.sema hw
    simpa using this

theorem not_posting (hhand : s.inHand = []) : ∀ k, s.thread ≠ .posting k := by
  intro k hk
  rw [inHand, hk] at hhand
  cases hhand

/-- The thread goes on with no command in its hands. -/
theorem CmdInv.goto (h : CmdInv s) (hhand : s.inHand = []) {pc : ThreadPc} {sema : ℕ}
    {running : Bool}
    (hpc : { s with thread := pc }.inHand = [])
    (hsema : pc = .created ∨ pc = .waiting → s.cmdQueue.length ≤ sema)
    (hqueue : pc = .exited → s.cmdQueue = []) :
    CmdInv { s with sema := sema, cmdthdRunning := running, thread := pc } := by
  refine h.move rfl rfl rfl ?_ (fun k => ?_) hsema hqueue
  · have hpend : s.pending = s.entering ++ s.cmdQueue ++ [] := by rw [pending, hhand]
    have hpend' : { s with sema := sema, cmdthdRunning := running, thread := pc }.pending =
        s.entering ++ s.cmdQueue ++ [] := congrArg (s.entering ++ s.cmdQueue ++ ·) hpc
    rw [hpend, hpend']
  · exact iff_of_false (not_posting hpc k) (not_posting hhand k)

/-- The thread takes a command from the queue. -/
theorem CmdInv.dequeue (h : CmdInv s) (hs : s.thread = .next) {rest : List ℕ}
    (hqueue : s.cmdQueue = k :: rest) :
    CmdInv { s with cmdQueue := rest, thread := .dispatch k } := by
  have hpend : s.pending = s.entering ++ k :: rest := by
    rw [pending, inHand, hs, hqueue, List.append_nil]
  refine h.move rfl rfl rfl ?_ (fun j => by simp [hs]) (by simp) nofun
  rw [hpend]
  change (s.entering ++ rest ++ [k]).Perm _
  exact (List.perm_append_singleton k _).trans List.perm_middle.symm

theorem CmdInv.call (h : CmdInv s) (hs : s.thread = .dispatch k) (ret : UInt8) :
    CmdInv { s.callHdl k ret with thread := .posting k } := by
  obtain ⟨r, ms, heq, hr⟩ := callHdl_eq (s := s) (k := k) ret
  have haccount := fun j => account_callHdl (s := s) (j := j) (k := k) ret
  rw [heq] at haccount ⊢
  exact h.post hs haccount hr

theorem CmdInv.drop (h : CmdInv s) (hs : s.thread = .dispatch k) (hown : (s.obj k).ownsPbuf = false)
    (hcode : (s.obj k).cmdcode ≠ disConnectCmd) :
    CmdInv { s.setRes k h2cDropped with thread := .posting k } := by
  have hdue : s.pbufDue k = 0 := by
    rw [pbufDue, hown]
    rfl
  have haccount : ∀ j, tally s.freed j = s.account j + if j =
    k then (0, 0, s.pbufDue k) else 0 := by
    intro j
    rw [hdue, ← add_zero (tally s.freed j)]
    exact congrArg (s.account j + ·) (ite_self 0).symm
  exact h.post hs haccount fun h => absurd h hcode

theorem CmdInv.callback (h : CmdInv s) (hs : s.thread = .posting k) :
    CmdInv { s.postProcess k with thread := .next } := by
  obtain ⟨ms, heq⟩ := postProcess_eq (s := s) (k := k)
  have haccount := fun j => account_postProcess (s := s) (j := j) (k := k) (h.res k hs)
  rw [heq] at haccount ⊢
  refine h.finish (k := k) rfl rfl ?_ ?_ haccount (fun j => ?_) (by simp) nofun
  · rw [pending, inHand, hs, ← List.append_nil (s.entering ++ s.cmdQueue)]
    exact List.perm_append_singleton k _
  · rw [h.account, expected, if_pos hs]
  · rw [hs]
    exact iff_of_false nofun fun hj => hj.2 (ThreadPc.posting.inj hj.1).symm

/-- The thread stops, and frees a command of the queue. -/
theorem CmdInv.drain (h : CmdInv s) (hs : s.thread = .draining) {rest : List ℕ}
    (hqueue : s.cmdQueue = k :: rest) (hown : (s.obj k).ownsPbuf = false) :
    CmdInv ({ s with cmdQueue := rest }.rtwFreeCmdObj k) := by
  have hpend : s.pending = s.entering ++ k :: rest := by
    rw [pending, inHand, hs, hqueue, List.append_nil]
  have hpend' : ({ s with cmdQueue := rest }.rtwFreeCmdObj k).pending = s.entering ++ rest := by
    have hhand : s.inHand = [] := by rw [inHand, hs]
    have hsplit : ({ s with cmdQueue := rest }.rtwFreeCmdObj k).pending =
        s.entering ++ rest ++ s.inHand := rfl
    rw [hsplit, hhand, List.append_nil]
  have hthread : ({ s with cmdQueue := rest }.rtwFreeCmdObj k).thread = .draining := hs
  refine h.finish (k := k) rfl rfl ?_ ?_ (fun j => account_rtwFreeCmdObj) (fun j => ?_) ?_ ?_
  · rw [hpend, hpend']
    exact List.perm_middle
  · have hmem : k ∈ s.pending := by
      rw [hpend]
      exact List.mem_append_right _ List.mem_cons_self
    have hdue : s.pbufDue k = 0 := by
      rw [pbufDue, hown]
      rfl
    rw [h.account, expected, hdue, if_pos (Or.inl hmem), ite_self]
  · rw [hthread, hs]
    exact iff_of_false nofun fun hj => nomatch hj.1
  · rw [hthread]
    exact fun hw => hw.elim nofun nofun
  · rw [hthread]
    exact nofun

/-- The thread goes on. -/
theorem CmdInv.thread (h : CmdInv s) {interrupted : Bool} {ret : UInt8}
    (hsafe : ¬ s.Leaks (.thread interrupted ret))
    (hstep : s.rtwCmdThread interrupted ret = some t) :
    CmdInv t := by
  unfold rtwCmdThread at hstep
  extract_lets stopped at hstep
  cases hs : s.thread with
  | created =>
    rw [hs] at hstep
    cases hstep
    exact h.goto (by rw [inHand, hs]) rfl (fun _ => h.sema (Or.inl hs)) nofun
  | waiting =>
    have hhand : s.inHand = [] := by rw [inHand, hs]
    rw [hs] at hstep
    dsimp only at hstep
    split_ifs at hstep
    all_goals
      cases hstep
      exact h.goto hhand rfl (by simp) nofun
  | next =>
    have hhand : s.inHand = [] := by rw [inHand, hs]
    rw [hs] at hstep
    dsimp only at hstep
    split at hstep
    · cases hstep
      exact h.goto hhand rfl (by simp) nofun
    · split at hstep
      · rename_i hqueue
        cases hstep
        exact h.goto hhand rfl (fun _ => by rw [hqueue]; exact Nat.zero_le _) nofun
      · rename_i k rest hqueue
        cases hstep
        exact h.dequeue hs hqueue
  | dispatch k =>
    rw [hs] at hstep
    dsimp only at hstep
    split at hstep
    · cases hstep
      exact h.call hs ret
    · rename_i hfilter
      cases hstep
      rw [Bool.not_eq_true] at hfilter
      have hkeep : (s.obj k).ownsPbuf = false ∧ (s.obj k).cmdcode ≠ disConnectCmd := by
        simpa [Leaks, threadLeaks, hs, hfilter] using hsafe
      exact h.drop hs hkeep.1 hkeep.2
  | posting k =>
    rw [hs] at hstep
    cases hstep
    exact h.callback hs
  | draining =>
    rw [hs] at hstep
    dsimp only at hstep
    split at hstep
    · rename_i hqueue
      cases hstep
      exact h.goto (by rw [inHand, hs]) rfl (by simp) fun _ => hqueue
    · rename_i k rest hqueue
      cases hstep
      have hown : (s.obj k).ownsPbuf = false := by
        simpa [Leaks, threadLeaks, hs, hqueue] using hsafe
      have hdrain := h.drain hs hqueue hown
      rw [hs] at hdrain
      exact hdrain
  | exited =>
    rw [hs] at hstep
    cases hstep

theorem cmdInv_step {e : CmdEvent} (h : CmdInv s) (hsafe : ¬ s.Leaks e)
    (hstep : s.cmdStep e = some t) :
    CmdInv t := by
  cases e with
  | driver _ _ _ _ _ =>
    cases hstep
    exact h.move rfl rfl rfl (List.Perm.refl _) (fun _ => Iff.rfl) h.sema h.queue
  | wake =>
    cases hstep
    exact h.move rfl rfl rfl (List.Perm.refl _) (fun _ => Iff.rfl)
      (fun hw => (h.sema hw).trans (Nat.le_succ _)) h.queue
  | enqueue c =>
    cases hstep
    exact h.enqueue hsafe
  | insert k =>
    rw [cmdStep] at hstep
    split at hstep
    · rename_i hk
      cases hstep
      exact h.insert hk hsafe
    · cases hstep
  | thread interrupted ret => exact h.thread hsafe hstep

theorem cmdInv_init : CmdInv init := by
  refine ⟨List.nodup_nil,
    fun k hk => absurd hk List.not_mem_nil, fun k => ?_, nofun, fun _ => Nat.le_refl 0,
    fun _ => rfl⟩
  have hthread : init.thread ≠ .posting k := nofun
  have hcount : init.count ≤ k := Nat.zero_le k
  rw [expected, if_neg hthread, if_pos (Or.inr hcount)]
  rfl

/-! ## Runs -/

/-- Each part of the memory of a command is freed exactly once. -/
structure ReleasedOnce (s : CmdPriv) : Prop where
  /-- Nothing is freed twice, whatever happens to the command later. -/
  once : ∀ k, s.freed.count (.cmdObj k) ≤ 1 ∧ s.freed.count (.parmbuf k) ≤ 1 ∧ s.freed.count (.pbuf k) ≤ 1
  /-- A command that is not on its way any more is freed : its object, its parameters, if they are
  not those of a join or of the creation of a network, and its nested buffer, if it has one. -/
  done : ∀ k, k < s.count → k ∉ s.pending →
    s.freed.count (.cmdObj k) = 1 ∧
    s.freed.count (.parmbuf k) = (if (s.obj k).cmdcode = joinBssCmd ∨ (s.obj k).cmdcode = createBssCmd
      then 0 else 1) ∧
    s.freed.count (.pbuf k) = (if (s.obj k).cmdcode = setDrvExtraCmd ∧ (s.obj k).parmbuf.pbuf = true ∧
      0 < (s.obj k).parmbuf.typeSize then 1 else 0)
  /-- The thread does not sleep while there are commands on the queue. -/
  awake : s.thread = .waiting → s.sema = 0 → s.cmdQueue = []
  /-- When the thread is gone, the commands that are on their way are in calls of
  `rtw_enqueue_cmd`. -/
  exited : s.thread = .exited → s.pending = s.entering

theorem CmdInv.releasedOnce (h : CmdInv s) : ReleasedOnce s := by
  refine ⟨fun k => ?_, fun k hk hpend => ?_, fun hw hsema => ?_, fun he => ?_⟩
  · have haccount := h.account k
    have hexp : (s.expected k).1 ≤ 1 ∧ (s.expected k).2.1 ≤ 1 ∧ (s.expected k).2.2 ≤ 1 := by
      unfold expected
      split
      · exact ⟨Nat.zero_le _, Nat.zero_le _, Bool.toNat_le _⟩
      split
      · exact ⟨Nat.zero_le _, Nat.zero_le _, Nat.zero_le _⟩
      · exact ⟨le_refl _, Bool.toNat_le _, Bool.toNat_le _⟩
    rw [← haccount] at hexp
    exact hexp
  · have hpost : ¬ s.thread = .posting k := by
      intro hs
      exact hpend (by simp [pending, inHand, hs])
    have hlt : ¬ (k ∈ s.pending ∨ s.count ≤ k) := by
      rintro (hmem | hle)
      · exact hpend hmem
      · omega
    have haccount := h.account k
    rw [expected, if_neg hpost, if_neg hlt, CmdPriv.account, tally, due, Prod.mk.injEq,
      Prod.mk.injEq] at haccount
    obtain ⟨hobj, hparm, hpbuf⟩ := haccount
    refine ⟨hobj, ?_, ?_⟩
    · rw [hparm, CmdObj.toNat_ownsParmbuf]
    · rw [hpbuf, pbufDue, CmdObj.toNat_ownsPbuf]
  · have hle := h.sema (Or.inr hw)
    rw [hsema] at hle
    exact List.length_eq_zero_iff.mp (Nat.le_zero.mp hle)
  · rw [pending, inHand, he, h.queue he, List.append_nil, List.append_nil]

/-- In every run in which no memory is lost by an event (`Leaks`), each part of the memory of a
command is freed exactly once. -/
theorem releasedOnce_run {es : List CmdEvent} (hsafe : AlongM cmdStep (fun s e => ¬ s.Leaks e) init es)
    (hrun : runM cmdStep init es = some t) : ReleasedOnce t :=
  (invariant_alongM (fun _ _ _ h hsafe hstep => cmdInv_step h hsafe hstep) cmdInv_init hsafe
    hrun).releasedOnce

/-- The extra command of `rtw_c2h_wk_cmd`. -/
def sampleC2h : CmdObj := ⟨setDrvExtraCmd, 0, ⟨c2hWkCid, 16, true⟩, false, 0⟩

/-- The command of `rtw_disassoc_cmd`. -/
def sampleDisconnect : CmdObj := ⟨disConnectCmd, 0, ⟨0, 0, false⟩, false, 0⟩

/-- The thread goes on, and is not interrupted. -/
def sampleThread : CmdEvent := .thread false 0

/-- An extra command is handled, and a disconnect command is on the queue when the driver stops. -/
def sampleCmds : List CmdEvent :=
  [sampleThread, .driver true false false false false, .enqueue sampleC2h, .insert 0, sampleThread,
    sampleThread, sampleThread, sampleThread, .enqueue sampleDisconnect, .insert 1,
    .driver true false false true false, sampleThread, sampleThread, sampleThread]

theorem releasedOnce_sampleCmds :
    ∃ t, runM cmdStep init sampleCmds = some t ∧ t.thread = .exited ∧ ReleasedOnce t := by
  have hsafe : AlongM cmdStep (fun s e => ¬ s.Leaks e) init sampleCmds := by decide +kernel
  have hrun : (runM cmdStep init sampleCmds).map (·.thread) = some .exited := by decide +kernel
  obtain ⟨t, ht, hexited⟩ := Option.map_eq_some_iff.mp hrun
  exact ⟨t, ht, hexited, releasedOnce_run hsafe ht⟩

/-- The hardware is turned off with a disconnect command on the queue, and later the driver stops. -/
def sampleDrop : List CmdEvent :=
  [sampleThread, .driver true false false false false, .enqueue sampleDisconnect, .insert 0,
    .driver false false false false false, sampleThread, sampleThread, sampleThread,
    .driver false false false true false, .wake, sampleThread, sampleThread, sampleThread]

/-- The thread drops the command, and the callback does not free it. -/
theorem not_releasedOnce_sampleDrop : ¬ ∀ (es : List CmdEvent) (t : CmdPriv),
    runM cmdStep init es = some t → t.thread = .exited → t.entering = [] → ReleasedOnce t := by
  intro h
  have hrun : ((runM cmdStep init sampleDrop).any fun t => t.thread = .exited && t.entering = [] &&
      0 < t.count && 0 ∉ t.pending && t.freed.count (.cmdObj 0) = 0) = true := by
    decide +kernel
  obtain ⟨t, ht, hend⟩ := Option.any_eq_true _ _ |>.mp hrun
  simp only [Bool.and_eq_true, decide_eq_true_eq] at hend
  obtain ⟨⟨⟨⟨hexited, hentering⟩, hcount⟩, hpend⟩, hfreed⟩ := hend
  obtain ⟨hobj, -⟩ := (h sampleDrop t ht hexited hentering).done 0 hcount hpend
  rw [hfreed] at hobj
  cases hobj

end CmdPriv

end Rtl8188eu
