import Rtl8188eu.Runs

/-!
# The host-to-firmware mailbox

The driver sends a command to the firmware through four boxes. A box has four message bytes (the
command id and three bytes of the command) and four extension bytes. The device marks a box in
`REG_HMETFR` when its four message bytes have been written, and the firmware handles the marked
boxes in turn and clears the mark.

The driver writes byte by byte. Before each access to a register the firmware may take any number of
steps, and one of the flags may be set with which `usbctrl_vendorreq` refuses every access
(`Mailbox.turn`). An access may also fail alone. A read that fails gives 0, and a write that fails
does nothing. `FillH2CCmd_88E` asks for neither : it takes the 0 for a free box and returns success.
`fillH2CCmd_run` : in every run where no access of a call fails, the firmware handles the commands
that were sent, once each and in order. `not_fillH2CCmd_run` is a command that was sent and that the
firmware never handles.
-/

namespace Rtl8188eu

open Runs

/-- `REG_HMETFR`, with one bit for each box. -/
def regHMETFR : ℕ := 0x1cc

/-- `REG_HMEBOX_0`. -/
def regHMEBOX0 : ℕ := 0x1d0

/-- `REG_HMEBOX_EXT_0`. -/
def regHMEBOXEXT0 : ℕ := 0x1f0

/-- A command as the firmware finds it in a box. -/
structure FwCmd where
  id : UInt8
  msg : List UInt8
  ext : List UInt8
deriving DecidableEq

/-- A command as a caller of `FillH2CCmd_88E` gave it. -/
structure H2cCmd where
  elementID : UInt8
  payload : List UInt8
deriving DecidableEq

/-- The firmware got the command : its id, and its bytes in the message and then the extension. -/
def FwCmd.Sees (f : FwCmd) (c : H2cCmd) : Prop :=
  f.id = c.elementID ∧ (f.msg ++ f.ext).take c.payload.length = c.payload

/-- The box that a register belongs to, and whether it is one of its message bytes. -/
def boxOfReg (addr : ℕ) : Option (ℕ × Bool) :=
  if regHMEBOX0 ≤ addr ∧ addr < regHMEBOX0 + 16 then some ((addr - regHMEBOX0) / 4, true)
  else if regHMEBOXEXT0 ≤ addr ∧ addr < regHMEBOXEXT0 + 16 then some ((addr - regHMEBOXEXT0) / 4, false)
  else none

/-- An access to a register : the steps of the firmware before it, the flags that are set before it,
and whether it fails. The removal of the device and a fifth transfer in a row that fails set
`bSurpriseRemoved`, a suspend sets `pnp_bstop_trx`. All ten tries of `usbctrl_vendorreq` fail without
a flag if frames are received in between, since they reset the count of the failures. -/
structure Access where
  fwSteps : ℕ
  bSurpriseRemoved : Bool
  pnpBstopTrx : Bool
  failed : Bool
deriving DecidableEq

/-- No flag is set, and the access does not fail. -/
def Access.Answered (a : Access) : Prop :=
  a.bSurpriseRemoved = false ∧ a.pnpBstopTrx = false ∧ a.failed = false

instance (a : Access) : Decidable a.Answered := inferInstanceAs (Decidable (_ ∧ _ ∧ _))

/-- The driver's part of the mailbox (`LastHMEBoxNum`, the flags), the device's (the registers, the
marks, how many message bytes each box got since it was marked) and the firmware's (the box it waits
for, the commands it handled). `overwritten` records a write to a marked box, and `sched` the
next accesses to a register. -/
structure Mailbox where
  lastHMEBoxNum : ℕ
  bFWReady : Bool
  bSurpriseRemoved : Bool
  pnpBstopTrx : Bool
  regs : ℕ → UInt8
  busy : ℕ → Bool
  written : ℕ → ℕ
  overwritten : Bool
  fwBox : ℕ
  handled : List FwCmd
  sched : List Access

namespace Mailbox

variable {m : Mailbox} {sent : List H2cCmd}

/-! ## The firmware and the device -/

/-- What the firmware reads in box `b`. -/
def seen (m : Mailbox) (b : ℕ) : FwCmd where
  id := m.regs (regHMEBOX0 + 4 * b)
  msg := [m.regs (regHMEBOX0 + 4 * b + 1), m.regs (regHMEBOX0 + 4 * b + 2),
    m.regs (regHMEBOX0 + 4 * b + 3)]
  ext := [m.regs (regHMEBOXEXT0 + 4 * b), m.regs (regHMEBOXEXT0 + 4 * b + 1),
    m.regs (regHMEBOXEXT0 + 4 * b + 2), m.regs (regHMEBOXEXT0 + 4 * b + 3)]

/-- The firmware handles its next box if that one is marked, and goes on to the box after it. -/
def fwStep (m : Mailbox) : Mailbox :=
  if m.busy m.fwBox then
    { m with
      busy := Function.update m.busy m.fwBox false
      fwBox := (m.fwBox + 1) % 4
      handled := m.handled ++ [m.seen m.fwBox] }
  else m

/-- `n` steps of the firmware. -/
def fwSteps : ℕ → Mailbox → Mailbox
  | 0, m => m
  | n + 1, m => fwSteps n m.fwStep

/-- The next access to a register. -/
def next (m : Mailbox) : Access := m.sched.headD ⟨0, false, false, false⟩

/-- What happens before the next access. -/
def turn (m : Mailbox) : Mailbox :=
  let a := m.next
  let r := fwSteps a.fwSteps m
  { r with
    bSurpriseRemoved := r.bSurpriseRemoved || a.bSurpriseRemoved
    pnpBstopTrx := r.pnpBstopTrx || a.pnpBstopTrx
    sched := m.sched.tail }

/-- `usbctrl_vendorreq` refuses an access. -/
def refuses (m : Mailbox) : Bool := m.bSurpriseRemoved || m.pnpBstopTrx

/-- The next access is refused, or it fails. -/
def fails (m : Mailbox) : Bool := m.turn.refuses || m.next.failed

/-- A message byte of box `b` was written. The fourth one marks the box. -/
def messageByte (m : Mailbox) (b : ℕ) : Mailbox :=
  if m.written b = 3 then
    { m with busy := Function.update m.busy b true, written := Function.update m.written b 0 }
  else { m with written := Function.update m.written b (m.written b + 1) }

/-- The device stores a byte in a register. -/
def store (m : Mailbox) (addr : ℕ) (val : UInt8) : Mailbox :=
  let m' := { m with regs := Function.update m.regs addr val }
  match boxOfReg addr with
  | none => m'
  | some (b, isMsg) =>
    let m' := { m' with overwritten := m.overwritten || m.busy b }
    if isMsg then m'.messageByte b else m'

/-- The register `REG_HMETFR`. -/
def hmetfr (m : Mailbox) : ℕ :=
  (m.busy 0).toNat + 2 * (m.busy 1).toNat + 4 * (m.busy 2).toNat + 8 * (m.busy 3).toNat

/-- `rtw_read8`. The byte that `usb_read8` reads into is 0 before. -/
def rtwRead8 (m : Mailbox) (addr : ℕ) : Mailbox × ℕ :=
  let r := m.turn
  (r,
    if m.fails then 0
    else if addr = regHMETFR then r.hmetfr
    else (r.regs addr).toNat)

/-- `rtw_write8`. Its callers here do not look at its result. -/
def rtwWrite8 (m : Mailbox) (addr : ℕ) (val : UInt8) : Mailbox :=
  if m.fails then m.turn else m.turn.store addr val

/-! ## The driver -/

/-- The loop of `_is_fw_read_cmd_down`, with `retry_cnts` retries left. -/
def isFwReadCmdDownLoop (msgboxNum : ℕ) (retryCnts : ℕ) (m : Mailbox) : Mailbox × Bool :=
  let r := m.rtwRead8 regHMETFR
  if r.2 &&& 2 ^ msgboxNum = 0 then (r.1, true)
  else
    match retryCnts with
    | 0 => (r.1, false)
    | n + 1 => isFwReadCmdDownLoop msgboxNum n r.1

/-- `_is_fw_read_cmd_down`. -/
def isFwReadCmdDown (m : Mailbox) (msgboxNum : ℕ) : Mailbox × Bool :=
  isFwReadCmdDownLoop msgboxNum 100 m

/-- The loops that write `h2c_cmd_ex` and `h2c_cmd` byte by byte. -/
def writeBytes (m : Mailbox) (addr : ℕ) : List UInt8 → Mailbox
  | [] => m
  | b :: bs => writeBytes (m.rtwWrite8 addr b) (addr + 1) bs

/-- The four bytes of `h2c_cmd` : the id, up to three bytes of the command, zeros. -/
def h2cCmdBytes (elementID : UInt8) (payload : List UInt8) : List UInt8 :=
  (elementID :: payload.take 3 ++ [0, 0, 0]).take 4

/-- Write the command to box `h2cBoxNum`, the extension first. -/
def writeCmd (m : Mailbox) (h2cBoxNum : ℕ) (elementID : UInt8) (payload : List UInt8) : Mailbox :=
  let m :=
    if payload.length ≤ 3 then m
    else m.writeBytes (regHMEBOXEXT0 + h2cBoxNum * 4) (payload.drop 3)
  m.writeBytes (regHMEBOX0 + h2cBoxNum * 4) (h2cCmdBytes elementID payload)

/-- `FillH2CCmd_88E`. The loop around the body ends after its first round. -/
def fillH2CCmd (m : Mailbox) (elementID : UInt8) (cmdLen : ℕ) (pCmdBuffer : Option (ℕ → UInt8)) :
    Mailbox × Bool :=
  if ¬ m.bFWReady then (m, false)
  else
    match pCmdBuffer with
    | none => (m, false)
    | some buf =>
      if 7 < cmdLen then (m, false)
      else if m.bSurpriseRemoved then (m, false)
      else
        let h2cBoxNum := m.lastHMEBoxNum
        let r := m.isFwReadCmdDown h2cBoxNum
        if ¬ r.2 then (r.1, false)
        else
          let m := r.1.writeCmd h2cBoxNum elementID ((List.range cmdLen).map buf)
          ({ m with lastHMEBoxNum := (h2cBoxNum + 1) % 4 }, true)

/-- One call, with its accesses. -/
def callFillH2CCmd (m : Mailbox) (elementID : UInt8) (cmdLen : ℕ) (pCmdBuffer : Option (ℕ → UInt8))
    (sched : List Access) : Mailbox × Bool :=
  let r := ({ m with sched := sched } : Mailbox).fillH2CCmd elementID cmdLen pCmdBuffer
  ({ r.1 with sched := [] }, r.2)

/-! ## The commands in the boxes -/

/-- The commands `q` wait in the boxes from the firmware's next one on, up to the driver's. -/
structure InFlight (m : Mailbox) (q : List H2cCmd) : Prop where
  box : m.fwBox < 4
  len : q.length ≤ 4
  last : m.lastHMEBoxNum = (m.fwBox + q.length) % 4
  busy : ∀ i < 4, m.busy ((m.fwBox + i) % 4) = decide (i < q.length)
  shows : ∀ (i : ℕ) (h : i < q.length), (m.seen ((m.fwBox + i) % 4)).Sees q[i]
  intact : m.overwritten = false

/-- The firmware handled the first commands of `sent`, and the others wait in the boxes. -/
def Inv (m : Mailbox) (sent : List H2cCmd) : Prop :=
  ∃ done q, sent = done ++ q ∧ List.Forall₂ FwCmd.Sees m.handled done ∧ m.InFlight q

theorem InFlight.fwStep_nil (h : m.InFlight []) : m.fwStep = m := by
  have hb := h.busy 0 (by omega)
  rw [Nat.add_zero, Nat.mod_eq_of_lt h.box] at hb
  simp [fwStep, hb]

theorem InFlight.fwStep_cons {c : H2cCmd} {q : List H2cCmd} (h : m.InFlight (c :: q)) :
    (m.seen m.fwBox).Sees c ∧ m.fwStep.handled = m.handled ++ [m.seen m.fwBox] ∧
      m.fwStep.InFlight q := by
  have hlen := h.len
  have hbox := h.box
  rw [List.length_cons] at hlen
  have hb := h.busy 0 (by omega)
  have hs := h.shows 0 (by simp)
  rw [Nat.add_zero, Nat.mod_eq_of_lt hbox] at hb hs
  have hstep : m.fwStep =
      { m with
        busy := Function.update m.busy m.fwBox false
        fwBox := (m.fwBox + 1) % 4
        handled := m.handled ++ [m.seen m.fwBox] } := by
    simp [fwStep, hb]
  -- position `i` behind the new front is position `i + 1` behind the old one
  have hpos : ∀ i, ((m.fwBox + 1) % 4 + i) % 4 = (m.fwBox + (i + 1)) % 4 := by
    intro i
    omega
  refine ⟨hs, by rw [hstep], ?_⟩
  rw [hstep]
  refine ⟨Nat.mod_lt _ (by omega), by omega, ?_, ?_, ?_, h.intact⟩
  · have hl := h.last
    rw [List.length_cons] at hl
    simp only [hpos]
    exact hl
  · intro i hi
    simp only [hpos]
    by_cases hi3 : i = 3
    · subst hi3
      have hfront : (m.fwBox + (3 + 1)) % 4 = m.fwBox := by omega
      rw [hfront, Function.update_self]
      exact (decide_eq_false (by omega)).symm
    · have hne : (m.fwBox + (i + 1)) % 4 ≠ m.fwBox := by omega
      rw [Function.update_of_ne hne, h.busy (i + 1) (by omega)]
      simp
  · intro i hi
    simp only [hpos]
    exact h.shows (i + 1) (by simpa using hi)

theorem inv_fwStep (h : m.Inv sent) : m.fwStep.Inv sent := by
  obtain ⟨done, q, rfl, hdone, hq⟩ := h
  cases q with
  | nil =>
    rw [hq.fwStep_nil]
    exact ⟨done, [], rfl, hdone, hq⟩
  | cons c q =>
    obtain ⟨hc, hhandled, hq⟩ := hq.fwStep_cons
    refine ⟨done ++ [c], q, by simp, ?_, hq⟩
    rw [hhandled]
    exact List.rel_append hdone (List.Forall₂.cons hc List.Forall₂.nil)

theorem inv_fwSteps : ∀ (n : ℕ) {m : Mailbox}, m.Inv sent → (fwSteps n m).Inv sent
  | 0, _, h => h
  | n + 1, _, h => inv_fwSteps n (inv_fwStep h)

theorem inv_sched (h : m.Inv sent) (sched : List Access) :
    ({ m with sched := sched } : Mailbox).Inv sent := by
  obtain ⟨done, q, hsent, hdone, hq⟩ := h
  exact ⟨done, q, hsent, hdone, ⟨hq.box, hq.len, hq.last, hq.busy, hq.shows, hq.intact⟩⟩

/-- As many steps as commands wait handle all of them. -/
theorem InFlight.fwSteps_handled : ∀ {q : List H2cCmd} {m : Mailbox} {done : List H2cCmd} {n : ℕ},
    m.InFlight q → List.Forall₂ FwCmd.Sees m.handled done → q.length ≤ n →
      List.Forall₂ FwCmd.Sees (fwSteps n m).handled (done ++ q)
  | [], m, done, 0, _, hdone, _ => by simpa [fwSteps] using hdone
  | [], m, done, n + 1, h, hdone, _ => by
    rw [fwSteps, h.fwStep_nil]
    exact InFlight.fwSteps_handled h hdone (by simp)
  | c :: q, m, done, 0, _, _, hn => by simp at hn
  | c :: q, m, done, n + 1, h, hdone, hn => by
    obtain ⟨hc, hhandled, hq⟩ := h.fwStep_cons
    have hdone' : List.Forall₂ FwCmd.Sees m.fwStep.handled (done ++ [c]) := by
      rw [hhandled]
      exact List.rel_append hdone (List.Forall₂.cons hc List.Forall₂.nil)
    have hn' : q.length ≤ n := by simpa using hn
    simpa [fwSteps] using InFlight.fwSteps_handled hq hdone' hn'

/-! ## What the firmware's steps leave alone -/

/-- No access fails from here on. -/
def Answers (m : Mailbox) : Prop := m.refuses = false ∧ ∀ a ∈ m.sched, a.Answered

/-- What the driver's next write needs of the state : the commands sent so far, box `b` to write to,
which is free and has `k` message bytes already, and a device that answers. -/
structure Writing (m : Mailbox) (sent : List H2cCmd) (b k : ℕ) : Prop where
  inv : m.Inv sent
  answers : m.Answers
  last : m.lastHMEBoxNum = b
  free : m.busy b = false
  count : m.written b = k
  others : ∀ b' ≠ b, m.written b' = 0

theorem fwStep_frame (m : Mailbox) :
    m.fwStep.regs = m.regs ∧ m.fwStep.written = m.written ∧
      m.fwStep.lastHMEBoxNum = m.lastHMEBoxNum ∧ m.fwStep.bFWReady = m.bFWReady ∧
      m.fwStep.refuses = m.refuses ∧ m.fwStep.sched = m.sched ∧
      ∀ b, m.busy b = false → m.fwStep.busy b = false := by
  unfold fwStep
  split_ifs with h
  · refine ⟨rfl, rfl, rfl, rfl, rfl, rfl, fun b hb => ?_⟩
    by_cases hbb : b = m.fwBox
    · rw [hbb]
      exact Function.update_self _ _ _
    · exact (Function.update_of_ne hbb _ _).trans hb
  · exact ⟨rfl, rfl, rfl, rfl, rfl, rfl, fun b hb => hb⟩

theorem fwSteps_frame : ∀ (n : ℕ) (m : Mailbox),
    (fwSteps n m).regs = m.regs ∧ (fwSteps n m).written = m.written ∧
      (fwSteps n m).lastHMEBoxNum = m.lastHMEBoxNum ∧ (fwSteps n m).bFWReady = m.bFWReady ∧
      (fwSteps n m).refuses = m.refuses ∧ (fwSteps n m).sched = m.sched ∧
      ∀ b, m.busy b = false → (fwSteps n m).busy b = false
  | 0, m => ⟨rfl, rfl, rfl, rfl, rfl, rfl, fun _ h => h⟩
  | n + 1, m => by
    obtain ⟨hr, hw, hl, hf, hs, hsc, hb⟩ := fwStep_frame m
    obtain ⟨hr', hw', hl', hf', hs', hsc', hb'⟩ := fwSteps_frame n m.fwStep
    exact ⟨hr'.trans hr, hw'.trans hw, hl'.trans hl, hf'.trans hf, hs'.trans hs, hsc'.trans hsc,
      fun b h => hb' b (hb b h)⟩

theorem fwSteps_add : ∀ (a b : ℕ) (m : Mailbox), fwSteps b (fwSteps a m) = fwSteps (a + b) m
  | 0, b, m => by rw [Nat.zero_add, fwSteps]
  | a + 1, b, m => by rw [fwSteps, fwSteps_add a b, Nat.succ_add, fwSteps]

/-- Before an access that is not refused only the firmware went on. -/
theorem turn_eq (h : m.turn.refuses = false) :
    ∃ n, m.turn = { fwSteps n m with sched := m.sched.tail } := by
  refine ⟨m.next.fwSteps, ?_⟩
  unfold turn refuses at h
  unfold turn
  dsimp only at h ⊢
  generalize fwSteps _ m = r at h ⊢
  simp only [Bool.or_eq_false_iff] at h
  obtain ⟨⟨hs, ha⟩, hp, hb⟩ := h
  rw [hs, ha, hp, hb, Bool.or_self]

theorem Answers.next (h : m.Answers) : m.next.Answered := by
  unfold Mailbox.next
  cases hs : m.sched with
  | nil => exact ⟨rfl, rfl, rfl⟩
  | cons a as => exact h.2 a (by rw [hs]; exact List.mem_cons_self)

theorem Answers.turn (h : m.Answers) : m.turn.Answers := by
  have hr := (fwSteps_frame m.next.fwSteps m).2.2.2.2.1
  refine ⟨?_, fun a ha => h.2 a (List.mem_of_mem_tail ha)⟩
  simp only [Mailbox.turn, refuses, h.next.1, h.next.2.1, Bool.or_false]
  exact hr.trans h.1

theorem Answers.fails (h : m.Answers) : m.fails = false := by
  rw [Mailbox.fails, h.turn.1, h.next.2.2, Bool.or_self]

theorem writing_turn {b k : ℕ} (h : m.Writing sent b k) : m.turn.Writing sent b k := by
  have ha := h.answers.turn
  obtain ⟨n, hn⟩ := turn_eq ha.1
  obtain ⟨-, hw, hl, -, -, -, hb⟩ := fwSteps_frame n m
  rw [hn] at ha ⊢
  refine ⟨inv_sched (inv_fwSteps n h.inv) _, ha, hl.trans h.last, hb b h.free, ?_,
    fun b' hb' => ?_⟩
  · exact (congrFun hw b).trans h.count
  · exact (congrFun hw b').trans (h.others b' hb')

theorem Answers.rtwWrite8_eq (h : m.Answers) (addr : ℕ) (val : UInt8) :
    m.rtwWrite8 addr val = m.turn.store addr val := by
  rw [rtwWrite8]
  exact if_neg (by simp [h.fails])

theorem store_frame (m : Mailbox) (addr : ℕ) (val : UInt8) :
    (m.store addr val).regs = Function.update m.regs addr val ∧
      (m.store addr val).refuses = m.refuses ∧ (m.store addr val).sched = m.sched := by
  unfold store messageByte
  split
  · exact ⟨rfl, rfl, rfl⟩
  · dsimp only
    split_ifs <;> exact ⟨rfl, rfl, rfl⟩

theorem Answers.rtwWrite8 (h : m.Answers) (addr : ℕ) (val : UInt8) :
    (m.rtwWrite8 addr val).Answers ∧
      (m.rtwWrite8 addr val).regs = Function.update m.regs addr val := by
  obtain ⟨n, hn⟩ := turn_eq h.turn.1
  have hturn : m.turn.regs = m.regs := by
    rw [hn]
    exact (fwSteps_frame n m).1
  obtain ⟨hregs, hrefuses, hsched⟩ := store_frame m.turn addr val
  rw [h.rtwWrite8_eq, Answers, hrefuses, hsched, hregs, hturn]
  exact ⟨h.turn, rfl⟩

/-! ## Writes to a free box -/

theorem boxOfReg_msg {b i : ℕ} (hb : b < 4) (hi : i < 4) :
    boxOfReg (regHMEBOX0 + b * 4 + i) = some (b, true) := by
  have hlo : regHMEBOX0 ≤ regHMEBOX0 + b * 4 + i ∧
      regHMEBOX0 + b * 4 + i < regHMEBOX0 + 16 := by omega
  have hdiv : (regHMEBOX0 + b * 4 + i - regHMEBOX0) / 4 = b := by omega
  rw [boxOfReg, if_pos hlo, hdiv]

theorem boxOfReg_ext {b i : ℕ} (hb : b < 4) (hi : i < 4) :
    boxOfReg (regHMEBOXEXT0 + b * 4 + i) = some (b, false) := by
  have hmsg : ¬ (regHMEBOX0 ≤ regHMEBOXEXT0 + b * 4 + i ∧
      regHMEBOXEXT0 + b * 4 + i < regHMEBOX0 + 16) := by
    unfold regHMEBOX0 regHMEBOXEXT0
    omega
  have hlo : regHMEBOXEXT0 ≤ regHMEBOXEXT0 + b * 4 + i ∧
      regHMEBOXEXT0 + b * 4 + i < regHMEBOXEXT0 + 16 := by omega
  have hdiv : (regHMEBOXEXT0 + b * 4 + i - regHMEBOXEXT0) / 4 = b := by omega
  rw [boxOfReg, if_neg hmsg, if_pos hlo, hdiv]

/-- A box is seen the same if none of its registers changed. -/
theorem seen_congr {m' : Mailbox} {b : ℕ} (hb : b < 4)
    (h : ∀ addr isMsg, boxOfReg addr = some (b, isMsg) → m'.regs addr = m.regs addr) :
    m'.seen b = m.seen b := by
  have hm : ∀ i < 4, m'.regs (regHMEBOX0 + b * 4 + i) = m.regs (regHMEBOX0 + b * 4 + i) :=
    fun i hi => h _ _ (boxOfReg_msg hb hi)
  have he : ∀ i < 4, m'.regs (regHMEBOXEXT0 + b * 4 + i) = m.regs (regHMEBOXEXT0 + b * 4 + i) :=
    fun i hi => h _ _ (boxOfReg_ext hb hi)
  have hm0 := hm 0 (by omega)
  have he0 := he 0 (by omega)
  rw [Nat.add_zero] at hm0 he0
  simp only [seen, Nat.mul_comm 4 b, hm0, he0, hm 1 (by omega), hm 2 (by omega), hm 3 (by omega),
    he 1 (by omega), he 2 (by omega), he 3 (by omega)]

/-- The driver's box is free : fewer than four commands wait, none of them in that box. -/
theorem InFlight.of_free {q : List H2cCmd} (h : m.InFlight q)
    (hfree : m.busy m.lastHMEBoxNum = false) :
    q.length < 4 ∧ ∀ i < q.length, (m.fwBox + i) % 4 ≠ m.lastHMEBoxNum := by
  have hne : ∀ i < q.length, (m.fwBox + i) % 4 ≠ m.lastHMEBoxNum := by
    intro i hi heq
    have hb := h.busy i (by have := h.len; omega)
    rw [heq, hfree] at hb
    exact absurd hi (of_decide_eq_false hb.symm)
  refine ⟨?_, hne⟩
  by_contra hlen
  have h4 : q.length = 4 := by have := h.len; omega
  have hl := h.last
  refine hne 0 (by omega) ?_
  rw [hl, h4]
  omega

/-- A write to the registers of the free box, with the counts of message bytes changed. -/
theorem inv_of_write {b addr : ℕ} {isMsg : Bool} (h : m.Inv sent) (hlast : m.lastHMEBoxNum = b)
    (hfree : m.busy b = false) (haddr : boxOfReg addr = some (b, isMsg)) (val : UInt8) (w : ℕ → ℕ) :
    ({ m with
      regs := Function.update m.regs addr val
      overwritten := m.overwritten || m.busy b
      written := w } : Mailbox).Inv sent := by
  obtain ⟨done, q, hsent, hdone, hq⟩ := h
  subst hlast
  obtain ⟨hlen, hne⟩ := hq.of_free hfree
  refine ⟨done, q, hsent, hdone, hq.box, hq.len, hq.last, hq.busy, fun i hi => ?_, ?_⟩
  · have hseen := hq.shows i hi
    rwa [← @seen_congr m { m with
      regs := Function.update m.regs addr val
      overwritten := m.overwritten || m.busy m.lastHMEBoxNum
      written := w } _ (Nat.mod_lt _ (by omega))] at hseen
    intro addr' isMsg' haddr'
    refine Function.update_of_ne ?_ _ _
    rintro rfl
    rw [haddr] at haddr'
    simp only [Option.some.injEq, Prod.mk.injEq] at haddr'
    exact hne i hi haddr'.1.symm
  · simp [hq.intact, hfree]

theorem writing_ext {b k addr : ℕ} {val : UInt8} (h : m.Writing sent b k)
    (haddr : boxOfReg addr = some (b, false)) : (m.rtwWrite8 addr val).Writing sent b k := by
  have ht := writing_turn h
  have hst : m.rtwWrite8 addr val = { m.turn with
      regs := Function.update m.turn.regs addr val
      overwritten := m.turn.overwritten || m.turn.busy b } := by
    rw [h.answers.rtwWrite8_eq, store, haddr]
    rfl
  rw [hst]
  have hinv := inv_of_write ht.inv ht.last ht.free haddr val m.turn.written
  exact ⟨hinv, ht.answers, ht.last, ht.free, ht.count, ht.others⟩

theorem writing_msg {b k addr : ℕ} {val : UInt8} (h : m.Writing sent b k) (hk : k < 3)
    (haddr : boxOfReg addr = some (b, true)) : (m.rtwWrite8 addr val).Writing sent b (k + 1) := by
  have ht := writing_turn h
  have hcount : m.turn.written b ≠ 3 := by
    have := ht.count
    omega
  have hst : m.rtwWrite8 addr val = { m.turn with
      regs := Function.update m.turn.regs addr val
      overwritten := m.turn.overwritten || m.turn.busy b
      written := Function.update m.turn.written b (m.turn.written b + 1) } := by
    simp only [h.answers.rtwWrite8_eq, store, haddr, messageByte, if_true, if_neg hcount]
  rw [hst]
  refine ⟨?_, ht.answers, ht.last, ht.free, ?_, fun b' hb' => ?_⟩
  · exact inv_of_write ht.inv ht.last ht.free haddr val _
  · simp [ht.count]
  · exact (Function.update_of_ne hb' _ _).trans (ht.others b' hb')

/-- The fourth message byte hands the command over. -/
theorem inv_last_msg {b addr : ℕ} {val : UInt8} {c : H2cCmd} (h : m.Writing sent b 3) (hb : b < 4)
    (haddr : boxOfReg addr = some (b, true)) (hc : ((m.rtwWrite8 addr val).seen b).Sees c) :
    ({ m.rtwWrite8 addr val with lastHMEBoxNum := (b + 1) % 4 } : Mailbox).Inv (sent ++ [c]) ∧
      ∀ b', (m.rtwWrite8 addr val).written b' = 0 := by
  have ht := writing_turn h
  have hst : m.rtwWrite8 addr val = { m.turn with
      regs := Function.update m.turn.regs addr val
      overwritten := m.turn.overwritten || m.turn.busy b
      busy := Function.update m.turn.busy b true
      written := Function.update m.turn.written b 0 } := by
    simp only [h.answers.rtwWrite8_eq, store, haddr, messageByte, if_true, if_pos ht.count]
  -- the registers are written, the box not marked yet
  obtain ⟨done, q, rfl, hdone, hq⟩ :=
    inv_of_write ht.inv ht.last ht.free haddr val m.turn.written
  obtain ⟨hlen, hne⟩ := hq.of_free ((congrArg m.turn.busy ht.last).trans ht.free)
  have hlast : b = (m.turn.fwBox + q.length) % 4 := ht.last.symm.trans hq.last
  have hbox : m.turn.fwBox < 4 := hq.box
  rw [hst] at hc ⊢
  refine ⟨⟨done, q ++ [c], by simp, hdone, hbox, by simp; omega, ?_, ?_, ?_, hq.intact⟩, ?_⟩
  · simp only [List.length_append, List.length_singleton]
    omega
  · intro i hi
    have hbi := hq.busy i hi
    simp only [List.length_append, List.length_singleton] at hbi ⊢
    by_cases hil : i = q.length
    · rw [hil, ← hlast, Function.update_self]
      exact (decide_eq_true (by omega)).symm
    · have hnb : (m.turn.fwBox + i) % 4 ≠ b := by omega
      rw [Function.update_of_ne hnb, hbi]
      exact decide_eq_decide.mpr (by omega)
  · intro i hi
    simp only [List.length_append, List.length_singleton] at hi
    by_cases hil : i = q.length
    · subst hil
      rw [List.getElem_concat_length rfl]
      show (seen _ ((m.turn.fwBox + q.length) % 4)).Sees c
      rw [← hlast]
      exact hc
    · rw [List.getElem_append_left (by omega)]
      exact hq.shows i (by omega)
  · intro b'
    by_cases hb' : b' = b
    · rw [hb']
      exact Function.update_self _ _ _
    · exact (Function.update_of_ne hb' _ _).trans (ht.others b' hb')

/-! ## A whole command -/

theorem writeBytes_regs (a : ℕ) : ∀ (bs : List UInt8) (addr : ℕ) {m : Mailbox}, m.Answers →
    (m.writeBytes addr bs).regs a =
      if addr ≤ a ∧ a < addr + bs.length then bs.getD (a - addr) 0 else m.regs a
  | [], addr, m, _ => by
    rw [if_neg (by simp)]
    rfl
  | x :: bs, addr, m, h => by
    obtain ⟨hanswers, hregs⟩ := h.rtwWrite8 addr x
    rw [writeBytes, writeBytes_regs a bs (addr + 1) hanswers, hregs, List.length_cons]
    rcases lt_trichotomy a addr with ha | rfl | ha
    · rw [if_neg (by omega), if_neg (by omega), Function.update_of_ne (by omega)]
    · rw [if_neg (by omega), if_pos (by omega), Function.update_self, Nat.sub_self]
      rfl
    · have hsub : a - addr = a - (addr + 1) + 1 := by omega
      rw [Function.update_of_ne (by omega), hsub, List.getD_cons_succ]
      exact if_congr (by omega) rfl rfl

/-- The loop that writes the extension. -/
theorem writing_writeBytes {b k : ℕ} (hb : b < 4) : ∀ (bs : List UInt8) (i : ℕ) {m : Mailbox},
    m.Writing sent b k → i + bs.length ≤ 4 →
      (m.writeBytes (regHMEBOXEXT0 + b * 4 + i) bs).Writing sent b k
  | [], _, _, h, _ => h
  | x :: bs, i, m, h, hi => by
    rw [List.length_cons] at hi
    have hw := @writing_ext m sent b k _ x h (boxOfReg_ext hb (show i < 4 by omega))
    exact writing_writeBytes hb bs (i + 1) hw (by omega)

theorem h2cCmdBytes_eq (elementID : UInt8) (payload : List UInt8) :
    ∃ x₁ x₂ x₃, h2cCmdBytes elementID payload = [elementID, x₁, x₂, x₃] ∧
      [x₁, x₂, x₃].take payload.length = payload.take 3 := by
  match payload with
  | [] => exact ⟨0, 0, 0, rfl, rfl⟩
  | [a] => exact ⟨a, 0, 0, rfl, rfl⟩
  | [a, b] => exact ⟨a, b, 0, rfl, rfl⟩
  | a :: b :: c :: rest => exact ⟨a, b, c, rfl, by simp⟩

/-- The message bytes of a command, followed by its extension. -/
theorem sees_of_bytes {f : FwCmd} {elementID x₁ x₂ x₃ : UInt8} {payload : List UInt8}
    (hid : f.id = elementID) (hmsg : f.msg = [x₁, x₂, x₃])
    (hx : [x₁, x₂, x₃].take payload.length = payload.take 3)
    (hext : f.ext.take (payload.length - 3) = payload.drop 3) : f.Sees ⟨elementID, payload⟩ := by
  refine ⟨hid, ?_⟩
  rw [List.take_append, hmsg, hx]
  simp only [List.length_cons, List.length_nil, Nat.zero_add, Nat.reduceAdd]
  rw [hext, List.take_append_drop]

theorem seen_writeMsg (h : m.Answers) (b : ℕ) (x₀ x₁ x₂ x₃ : UInt8) :
    (m.writeBytes (regHMEBOX0 + b * 4) [x₀, x₁, x₂, x₃]).seen b =
      ⟨x₀, [x₁, x₂, x₃], (m.seen b).ext⟩ := by
  have hmsg : ∀ i < 4, (m.writeBytes (regHMEBOX0 + b * 4) [x₀, x₁, x₂, x₃]).regs
      (regHMEBOX0 + 4 * b + i) = [x₀, x₁, x₂, x₃].getD i 0 := by
    intro i hi
    have hin : regHMEBOX0 + b * 4 ≤ regHMEBOX0 + 4 * b + i ∧
        regHMEBOX0 + 4 * b + i < regHMEBOX0 + b * 4 + [x₀, x₁, x₂, x₃].length := by
      simp only [List.length_cons, List.length_nil]
      omega
    have hsub : regHMEBOX0 + 4 * b + i - (regHMEBOX0 + b * 4) = i := by omega
    rw [writeBytes_regs _ _ _ h, if_pos hin, hsub]
  have hext : ∀ i, (m.writeBytes (regHMEBOX0 + b * 4) [x₀, x₁, x₂, x₃]).regs
      (regHMEBOXEXT0 + 4 * b + i) = m.regs (regHMEBOXEXT0 + 4 * b + i) := by
    intro i
    rw [writeBytes_regs _ _ _ h, if_neg]
    simp only [List.length_cons, List.length_nil, regHMEBOX0, regHMEBOXEXT0]
    omega
  have hmsg₀ := hmsg 0 (by omega)
  have hext₀ := hext 0
  rw [Nat.add_zero] at hmsg₀ hext₀
  simp only [seen, hmsg₀, hmsg 1 (by omega), hmsg 2 (by omega), hmsg 3 (by omega), hext₀, hext]
  rfl

/-- The message bytes hand over the command whose extension is in the box. -/
theorem inv_writeMsg {b : ℕ} {elementID : UInt8} {payload : List UInt8} (h : m.Writing sent b 0)
    (hb : b < 4) (hext : (m.seen b).ext.take (payload.length - 3) = payload.drop 3) :
    ({ m.writeBytes (regHMEBOX0 + b * 4) (h2cCmdBytes elementID payload) with
      lastHMEBoxNum := (b + 1) % 4 } : Mailbox).Inv (sent ++ [⟨elementID, payload⟩]) ∧
      ∀ b', (m.writeBytes (regHMEBOX0 + b * 4) (h2cCmdBytes elementID payload)).written b' = 0 := by
  obtain ⟨x₁, x₂, x₃, hbytes, hx⟩ := h2cCmdBytes_eq elementID payload
  have hw := @writing_msg m sent b 0 _ elementID h (by omega)
    (boxOfReg_msg hb (show 0 < 4 by omega))
  have hw := @writing_msg _ sent b 1 _ x₁ hw (by omega) (boxOfReg_msg hb (show 1 < 4 by omega))
  have hw := @writing_msg _ sent b 2 _ x₂ hw (by omega) (boxOfReg_msg hb (show 2 < 4 by omega))
  rw [hbytes]
  refine inv_last_msg hw hb (boxOfReg_msg hb (show 3 < 4 by omega)) ?_
  have hseen := seen_writeMsg h.answers b elementID x₁ x₂ x₃
  simp only [writeBytes] at hseen
  rw [hseen]
  exact sees_of_bytes rfl rfl hx hext

theorem inv_writeCmd {b : ℕ} {elementID : UInt8} {payload : List UInt8} (h : m.Writing sent b 0)
    (hb : b < 4) (hlen : payload.length ≤ 7) :
    ({ m.writeCmd b elementID payload with lastHMEBoxNum := (b + 1) % 4 } : Mailbox).Inv
      (sent ++ [⟨elementID, payload⟩]) ∧ ∀ b', (m.writeCmd b elementID payload).written b' = 0 := by
  unfold writeCmd
  dsimp only
  split_ifs with hp
  · refine inv_writeMsg h hb ?_
    rw [Nat.sub_eq_zero_of_le hp, List.take_zero, List.drop_eq_nil_of_le hp]
  · have hdrop : (payload.drop 3).length = payload.length - 3 := List.length_drop
    refine inv_writeMsg (writing_writeBytes hb (payload.drop 3) 0 h (by omega)) hb ?_
    -- the extension registers of the box are the bytes just written
    have hext : ∀ i < (payload.drop 3).length,
        (m.writeBytes (regHMEBOXEXT0 + b * 4) (payload.drop 3)).regs (regHMEBOXEXT0 + 4 * b + i) =
          (payload.drop 3).getD i 0 := by
      intro i hi
      have hsub : regHMEBOXEXT0 + 4 * b + i - (regHMEBOXEXT0 + b * 4) = i := by omega
      rw [writeBytes_regs _ _ _ h.answers, if_pos (by omega), hsub]
    rw [← hdrop]
    refine List.ext_getElem ?_ fun i hi hi' => ?_
    · simp only [seen, List.length_take, List.length_cons, List.length_nil]
      omega
    · have hreg := hext i hi'
      rw [← List.getElem_eq_getD (h := hi')] at hreg
      rw [← hreg, List.getElem_take]
      obtain rfl | rfl | rfl | rfl : i = 0 ∨ i = 1 ∨ i = 2 ∨ i = 3 := by omega
      all_goals rfl

/-! ## Waiting for the box -/

theorem hmetfr_and (m : Mailbox) {b : ℕ} (hb : b < 4) :
    m.hmetfr &&& 2 ^ b = 0 ↔ m.busy b = false := by
  unfold hmetfr
  interval_cases b <;> cases m.busy 0 <;> cases m.busy 1 <;> cases m.busy 2 <;> cases m.busy 3 <;>
    decide

theorem fwStep_sched (m : Mailbox) (sched : List Access) :
    ({ m with sched := sched } : Mailbox).fwStep = { m.fwStep with sched := sched } := by
  unfold fwStep
  dsimp only
  split_ifs <;> rfl

theorem fwSteps_sched (sched : List Access) : ∀ (n : ℕ) (m : Mailbox),
    fwSteps n { m with sched := sched } = { fwSteps n m with sched := sched }
  | 0, m => rfl
  | n + 1, m => by rw [fwSteps, fwStep_sched, fwSteps_sched sched n, fwSteps]

/-- A wait that ends with the box taken met no failure, and neither does a wait on a device that
answers : both only let the firmware go on. If the second one ends well, the box is free. -/
theorem isFwReadCmdDownLoop_spec {b : ℕ} (hb : b < 4) : ∀ (retryCnts : ℕ) (m : Mailbox),
    ((isFwReadCmdDownLoop b retryCnts m).2 = false ∨ m.Answers) →
      (∃ n sched, (isFwReadCmdDownLoop b retryCnts m).1 = { fwSteps n m with sched := sched }) ∧
      (m.Answers → (isFwReadCmdDownLoop b retryCnts m).1.Answers ∧
        ((isFwReadCmdDownLoop b retryCnts m).2 = true →
          (isFwReadCmdDownLoop b retryCnts m).1.busy b = false))
  | retryCnts, m, h => by
    unfold isFwReadCmdDownLoop at h ⊢
    simp only [rtwRead8, if_true] at h ⊢
    by_cases hfails : m.fails = true
    · -- the read gives 0
      rw [if_pos hfails, Nat.zero_and, if_pos rfl] at h
      rcases h with h | h
      · cases h
      · rw [h.fails] at hfails
        cases hfails
    · rw [if_neg hfails] at h ⊢
      rw [Mailbox.fails, Bool.or_eq_true, not_or] at hfails
      obtain ⟨n, hn⟩ := turn_eq (Bool.eq_false_of_not_eq_true hfails.1)
      by_cases hfree : m.turn.hmetfr &&& 2 ^ b = 0
      · rw [if_pos hfree]
        exact ⟨⟨n, _, hn⟩, fun h => ⟨h.turn, fun _ => (hmetfr_and _ hb).mp hfree⟩⟩
      · rw [if_neg hfree] at h ⊢
        cases retryCnts with
        | zero => exact ⟨⟨n, _, hn⟩, fun h => ⟨h.turn, fun hres => nomatch hres⟩⟩
        | succ k =>
          obtain ⟨⟨n', sched', heq⟩, hdown⟩ :=
            isFwReadCmdDownLoop_spec hb k m.turn (h.imp_right Answers.turn)
          refine ⟨⟨n + n', sched', ?_⟩, fun h => hdown h.turn⟩
          dsimp only
          rw [heq, hn, fwSteps_sched, fwSteps_add]

/-- Between two calls no message byte of any box is outstanding. -/
def Idle (m : Mailbox) (sent : List H2cCmd) : Prop :=
  m.Inv sent ∧ (∀ b, m.written b = 0) ∧ m.sched = []

theorem Inv.lastHMEBoxNum_lt (h : m.Inv sent) : m.lastHMEBoxNum < 4 := by
  obtain ⟨done, q, -, -, hq⟩ := h
  rw [hq.last]
  exact Nat.mod_lt _ (by omega)

/-- The call gets past its checks, to the registers. -/
def Reaches (m : Mailbox) (cmdLen : ℕ) (pCmdBuffer : Option (ℕ → UInt8)) : Prop :=
  m.bFWReady = true ∧ pCmdBuffer.isSome = true ∧ cmdLen ≤ 7 ∧ m.bSurpriseRemoved = false

/-- How a call ends : it returns at once, or after the wait, or it sends the command. -/
theorem fillH2CCmd_cases (m : Mailbox) (elementID : UInt8) (cmdLen : ℕ)
    (pCmdBuffer : Option (ℕ → UInt8)) :
    m.fillH2CCmd elementID cmdLen pCmdBuffer = (m, false) ∨
    ((m.isFwReadCmdDown m.lastHMEBoxNum).2 = false ∧
      m.fillH2CCmd elementID cmdLen pCmdBuffer =
        ((m.isFwReadCmdDown m.lastHMEBoxNum).1, false)) ∨
    ∃ buf, pCmdBuffer = some buf ∧ m.Reaches cmdLen pCmdBuffer ∧ cmdLen ≤ 7 ∧
      (m.isFwReadCmdDown m.lastHMEBoxNum).2 = true ∧
      m.fillH2CCmd elementID cmdLen pCmdBuffer =
        ({ (m.isFwReadCmdDown m.lastHMEBoxNum).1.writeCmd m.lastHMEBoxNum elementID
            ((List.range cmdLen).map buf) with
          lastHMEBoxNum := (m.lastHMEBoxNum + 1) % 4 }, true) := by
  by_cases hready : m.bFWReady
  · cases pCmdBuffer with
    | none => exact Or.inl (by simp [fillH2CCmd])
    | some buf =>
      by_cases hlen : 7 < cmdLen
      · exact Or.inl (by simp [fillH2CCmd, hlen])
      by_cases hrem : m.bSurpriseRemoved
      · exact Or.inl (by simp [fillH2CCmd, hrem])
      by_cases hdown : (m.isFwReadCmdDown m.lastHMEBoxNum).2 = true
      · refine Or.inr (Or.inr ⟨buf, rfl, ?_, by omega, hdown, ?_⟩)
        · exact ⟨hready, by simp, by omega, by simpa using hrem⟩
        · simp [fillH2CCmd, hready, hlen, hrem, hdown]
      · refine Or.inr (Or.inl ⟨by simpa using hdown, ?_⟩)
        simp [fillH2CCmd, hready, hlen, hrem, hdown]
  · exact Or.inl (by simp [fillH2CCmd, hready])

/-- A call that fails only lets the firmware go on. -/
theorem callFillH2CCmd_fail (h : m.Idle sent) (elementID : UInt8) (cmdLen : ℕ)
    (pCmdBuffer : Option (ℕ → UInt8)) (sched : List Access)
    (hfail : (m.callFillH2CCmd elementID cmdLen pCmdBuffer sched).2 = false) :
    ∃ n, (m.callFillH2CCmd elementID cmdLen pCmdBuffer sched).1 = fwSteps n m := by
  have hsched : ∀ n, ({ fwSteps n m with sched := [] } : Mailbox) = fwSteps n m := by
    intro n
    rw [← h.2.2, ← (fwSteps_frame n m).2.2.2.2.2.1]
  rw [callFillH2CCmd] at hfail ⊢
  obtain heq | ⟨hdown, heq⟩ | ⟨buf, -, -, -, -, heq⟩ :=
    fillH2CCmd_cases { m with sched := sched } elementID cmdLen pCmdBuffer
  · refine ⟨0, ?_⟩
    simp only [heq]
    exact hsched 0
  · obtain ⟨⟨n, s, hloop⟩, -⟩ :=
      isFwReadCmdDownLoop_spec h.1.lastHMEBoxNum_lt 100 { m with sched := sched } (Or.inl hdown)
    refine ⟨n, ?_⟩
    simp only [heq, isFwReadCmdDown, hloop, fwSteps_sched]
    exact hsched n
  · simp only [heq] at hfail
    cases hfail

theorem reaches_of_sent (elementID : UInt8) (cmdLen : ℕ) (pCmdBuffer : Option (ℕ → UInt8))
    (sched : List Access) (hok : (m.callFillH2CCmd elementID cmdLen pCmdBuffer sched).2 = true) :
    m.Reaches cmdLen pCmdBuffer := by
  rw [callFillH2CCmd] at hok
  obtain heq | ⟨-, heq⟩ | ⟨buf, -, hreaches, -⟩ :=
    fillH2CCmd_cases { m with sched := sched } elementID cmdLen pCmdBuffer
  · simp only [heq] at hok
    cases hok
  · simp only [heq] at hok
    cases hok
  · exact hreaches

/-- A call that succeeds on a device that answers sends its command. -/
theorem callFillH2CCmd_sent (h : m.Idle sent) (elementID : UInt8) (cmdLen : ℕ)
    (pCmdBuffer : Option (ℕ → UInt8)) (sched : List Access)
    (hanswers : ({ m with sched := sched } : Mailbox).Answers)
    (hok : (m.callFillH2CCmd elementID cmdLen pCmdBuffer sched).2 = true) :
    ∃ buf, pCmdBuffer = some buf ∧ cmdLen ≤ 7 ∧
      (m.callFillH2CCmd elementID cmdLen pCmdBuffer sched).1.Idle
        (sent ++ [⟨elementID, (List.range cmdLen).map buf⟩]) := by
  rw [callFillH2CCmd] at hok ⊢
  obtain heq | ⟨-, heq⟩ | ⟨buf, rfl, -, hlen, hdown, heq⟩ :=
    fillH2CCmd_cases { m with sched := sched } elementID cmdLen pCmdBuffer
  · simp only [heq] at hok
    cases hok
  · simp only [heq] at hok
    cases hok
  · refine ⟨buf, rfl, hlen, ?_⟩
    obtain ⟨⟨n, s, hloop⟩, hfree⟩ := isFwReadCmdDownLoop_spec h.1.lastHMEBoxNum_lt 100
      { m with sched := sched } (Or.inr hanswers)
    obtain ⟨hans, hfree⟩ := hfree hanswers
    obtain ⟨-, hw, hl, -⟩ := fwSteps_frame n { m with sched := sched }
    have hwriting : (({ m with sched := sched } : Mailbox).isFwReadCmdDown
      m.lastHMEBoxNum).1.Writing
        sent m.lastHMEBoxNum 0 := by
      refine ⟨?_, hans, ?_, hfree hdown, ?_, fun b' _ => ?_⟩ <;> rw [isFwReadCmdDown, hloop]
      · exact inv_sched (inv_fwSteps n (inv_sched h.1 sched)) s
      · exact hl
      · exact (congrFun hw _).trans (h.2.1 _)
      · exact (congrFun hw _).trans (h.2.1 _)
    obtain ⟨hinv, hzero⟩ := @inv_writeCmd _ sent _ elementID ((List.range cmdLen).map buf) hwriting
      h.1.lastHMEBoxNum_lt (by simpa using hlen)
    simp only [heq]
    exact ⟨inv_sched hinv [], hzero, rfl⟩

end Mailbox

/-! ## Runs -/

/-- What happens to the mailbox : a call of `FillH2CCmd_88E` with its accesses, a
step of the firmware between calls, a change of the flags. -/
inductive H2cEvent where
  | fill (elementID : UInt8) (cmdLen : ℕ) (pCmdBuffer : Option (ℕ → UInt8)) (sched : List Access)
  | firmware
  | flags (bFWReady bSurpriseRemoved pnpBstopTrx : Bool)

/-- The mailbox and the commands for which `FillH2CCmd_88E` returned success. -/
structure H2cRun where
  mailbox : Mailbox
  sent : List H2cCmd

/-- One event. -/
def h2cStep (r : H2cRun) : H2cEvent → H2cRun
  | .fill elementID cmdLen pCmdBuffer sched =>
    let c := r.mailbox.callFillH2CCmd elementID cmdLen pCmdBuffer sched
    match c.2, pCmdBuffer with
    | true, some buf => ⟨c.1, r.sent ++ [⟨elementID, (List.range cmdLen).map buf⟩]⟩
    | _, _ => ⟨c.1, r.sent⟩
  | .firmware => ⟨r.mailbox.fwStep, r.sent⟩
  | .flags ready removed stopped =>
    ⟨{ r.mailbox with bFWReady := ready, bSurpriseRemoved := removed, pnpBstopTrx := stopped },
      r.sent⟩

/-- No access of the call fails, if it gets to the registers. -/
def H2cRun.Answered (r : H2cRun) : H2cEvent → Prop
  | .fill _ cmdLen pCmdBuffer sched => r.mailbox.Reaches cmdLen pCmdBuffer →
    r.mailbox.pnpBstopTrx = false ∧ ∀ a ∈ sched, a.Answered
  | _ => True

instance (r : H2cRun) : ∀ e, Decidable (r.Answered e)
  | .fill _ cmdLen pCmdBuffer sched =>
    have : Decidable (r.mailbox.Reaches cmdLen pCmdBuffer) :=
      inferInstanceAs (Decidable (_ ∧ _ ∧ _ ∧ _))
    inferInstanceAs (Decidable (_ → _ ∧ ∀ a ∈ sched, a.Answered))
  | .firmware => inferInstanceAs (Decidable True)
  | .flags .. => inferInstanceAs (Decidable True)

/-- No command was overwritten in its box, the firmware handled the first commands that were sent, in
order and once each, and handles the others within four more steps, and a call that fails only lets
the firmware go on, so it leaves the registers of the boxes and `LastHMEBoxNum` as they were. -/
structure H2cRun.Right (r : H2cRun) : Prop where
  intact : r.mailbox.overwritten = false
  handled : ∃ done waiting, r.sent = done ++ waiting ∧
    List.Forall₂ FwCmd.Sees r.mailbox.handled done
  rest : List.Forall₂ FwCmd.Sees (Mailbox.fwSteps 4 r.mailbox).handled r.sent
  failed : ∀ elementID cmdLen pCmdBuffer sched,
    let c := r.mailbox.callFillH2CCmd elementID cmdLen pCmdBuffer sched
    c.2 = false → (∃ n, c.1 = Mailbox.fwSteps n r.mailbox) ∧ c.1.regs = r.mailbox.regs ∧
      c.1.lastHMEBoxNum = r.mailbox.lastHMEBoxNum

/-- At the start every box is free, and driver and firmware are at box 0. -/
def h2cInit (regs : ℕ → UInt8) (bFWReady bSurpriseRemoved pnpBstopTrx : Bool) : H2cRun where
  mailbox :=
    { lastHMEBoxNum := 0
      bFWReady := bFWReady
      bSurpriseRemoved := bSurpriseRemoved
      pnpBstopTrx := pnpBstopTrx
      regs := regs
      busy := fun _ => false
      written := fun _ => 0
      overwritten := false
      fwBox := 0
      handled := []
      sched := [] }
  sent := []

theorem idle_h2cInit (regs : ℕ → UInt8) (bFWReady bSurpriseRemoved pnpBstopTrx : Bool) :
    (h2cInit regs bFWReady bSurpriseRemoved pnpBstopTrx).mailbox.Idle [] := by
  refine ⟨⟨[], [], rfl, List.Forall₂.nil, ?_⟩, fun _ => rfl, rfl⟩
  exact ⟨by simp [h2cInit], by simp, by simp [h2cInit], by simp [h2cInit],
    fun i h => absurd h (by simp), rfl⟩

theorem idle_fwSteps {m : Mailbox} {sent : List H2cCmd} (h : m.Idle sent) (n : ℕ) :
    (Mailbox.fwSteps n m).Idle sent := by
  obtain ⟨-, hw, -, -, -, hs, -⟩ := Mailbox.fwSteps_frame n m
  exact ⟨Mailbox.inv_fwSteps n h.1, fun b => (congrFun hw b).trans (h.2.1 b), hs.trans h.2.2⟩

theorem idle_h2cStep {r : H2cRun} {e : H2cEvent} (h : r.mailbox.Idle r.sent)
    (hans : r.Answered e) : (h2cStep r e).mailbox.Idle (h2cStep r e).sent := by
  cases e with
  | fill elementID cmdLen pCmdBuffer sched =>
    cases hc : (r.mailbox.callFillH2CCmd elementID cmdLen pCmdBuffer sched).2 with
    | false =>
      obtain ⟨n, heq⟩ := Mailbox.callFillH2CCmd_fail h elementID cmdLen pCmdBuffer sched hc
      simp only [h2cStep, hc, heq]
      exact idle_fwSteps h n
    | true =>
      have hreaches := Mailbox.reaches_of_sent elementID cmdLen pCmdBuffer sched hc
      obtain ⟨hstop, hsched⟩ := hans hreaches
      obtain ⟨buf, rfl, -, hidle⟩ :=
        Mailbox.callFillH2CCmd_sent h elementID cmdLen pCmdBuffer sched
          ⟨by simp [Mailbox.refuses, hreaches.2.2.2, hstop], hsched⟩ hc
      simp only [h2cStep, hc]
      exact hidle
  | firmware => exact idle_fwSteps h 1
  | flags ready removed stopped =>
    obtain ⟨⟨done, q, hsent, hdone, hq⟩, hw, hs⟩ := h
    exact ⟨⟨done, q, hsent, hdone, hq.box, hq.len, hq.last, hq.busy, hq.shows, hq.intact⟩, hw, hs⟩

/-- In every run of calls and firmware steps where no access of a call fails. -/
theorem fillH2CCmd_run (regs : ℕ → UInt8) (bFWReady bSurpriseRemoved pnpBstopTrx : Bool)
    (es : List H2cEvent)
    (h : Along h2cStep H2cRun.Answered
      (h2cInit regs bFWReady bSurpriseRemoved pnpBstopTrx) es) :
    (run h2cStep (h2cInit regs bFWReady bSurpriseRemoved pnpBstopTrx) es).Right := by
  have hidle := @invariant_along _ _ h2cStep H2cRun.Answered (fun r => r.mailbox.Idle r.sent)
    (fun _ _ hu he => idle_h2cStep hu he) es _
    (idle_h2cInit regs bFWReady bSurpriseRemoved pnpBstopTrx) h
  obtain ⟨done, q, hsent, hdone, hq⟩ := hidle.1
  refine ⟨hq.intact, ⟨done, q, hsent, hdone⟩, ?_, ?_⟩
  · rw [hsent]
    exact hq.fwSteps_handled hdone hq.len
  · intro elementID cmdLen pCmdBuffer sched c hfail
    obtain ⟨n, heq⟩ := Mailbox.callFillH2CCmd_fail hidle elementID cmdLen pCmdBuffer sched hfail
    obtain ⟨hr, -, hl, -⟩ := Mailbox.fwSteps_frame n
      (run h2cStep (h2cInit regs bFWReady bSurpriseRemoved pnpBstopTrx) es).mailbox
    exact ⟨⟨n, heq⟩, by rw [show c.1 = _ from heq, hr], by rw [show c.1 = _ from heq, hl]⟩

/-- Three calls : a command with an extension that the firmware handles before the last byte of the
next one is written, a short command, and a call while the device is stopped that does not get to
the registers. -/
def sampleCalls : List H2cEvent :=
  [.fill 0x40 7 (some fun i => UInt8.ofNat (i + 1)) [],
    .fill 0x20 3 (some fun _ => 0xff) [⟨0, false, false, false⟩, ⟨0, false, false, false⟩, ⟨1, false, false, false⟩],
    .flags false false true, .fill 0x21 1 (some fun _ => 0) [], .firmware]

theorem fillH2CCmd_run_sampleCalls :
    (run h2cStep (h2cInit (fun _ => 0) true false false) sampleCalls).sent.length = 2 ∧
    (run h2cStep (h2cInit (fun _ => 0) true false false) sampleCalls).mailbox.handled.length = 2 ∧
    (run h2cStep (h2cInit (fun _ => 0) true false false) sampleCalls).Right :=
  ⟨by decide +kernel, by decide +kernel,
    fillH2CCmd_run (fun _ => 0) true false false sampleCalls (by decide +kernel)⟩

/-- A command whose second byte finds the device gone. -/
def sampleLost : H2cRun :=
  run h2cStep (h2cInit (fun _ => 0) true false false)
    [.fill 0x20 3 (some fun _ => 0xff)
      [⟨0, false, false, false⟩, ⟨0, false, false, false⟩, ⟨0, true, false, false⟩]]

/-- The call returned success, and the driver is at the next box. The firmware never handles the
command. -/
theorem not_fillH2CCmd_run : sampleLost.sent.length = 1 ∧ sampleLost.mailbox.lastHMEBoxNum = 1 ∧
    (∀ n, (Mailbox.fwSteps n sampleLost.mailbox).handled = []) ∧ ¬ sampleLost.Right := by
  have hstuck : sampleLost.mailbox.fwStep = sampleLost.mailbox :=
    if_neg (show ¬ sampleLost.mailbox.busy sampleLost.mailbox.fwBox = true by decide +kernel)
  have hhandled : ∀ n, (Mailbox.fwSteps n sampleLost.mailbox).handled = [] := by
    intro n
    induction n with
    | zero => decide +kernel
    | succ n ih => rwa [Mailbox.fwSteps, hstuck]
  have hsent : sampleLost.sent.length = 1 := by decide +kernel
  refine ⟨hsent, by decide +kernel, hhandled, fun h => ?_⟩
  have hlen := h.rest.length_eq
  rw [hhandled 4, hsent] at hlen
  cases hlen

end Rtl8188eu
