import Rtl8188eu.EfuseWrite
import Rtl8188eu.InfiniteRuns

/-!
# Programming the eFuse byte by byte

`hal_EfusePgPacketWrite_8188e` as a machine that programs one byte at a time and takes what the chip
reads back as an input. A header that reads back as another one makes the driver write the words of
that packet again (`hal_EfuseFixHeaderProcess`), and words that do not read back are written as a
new packet, by the same function. So there is a stack of headers whose fixing waits for a packet.

Programming cannot be undone, and it can go on for ever : in the loop of
`hal_EfusePgPacketWrite2ByteHeader` a byte that reads back as no extended header at all is
programmed again, and not counted. And a packet is begun wherever the log ends below the available
size. Nothing asks whether its second header byte and its words end there, too.

`bounded_iff` : for every image, packet and sequence of bytes that are read back, the programming
ends and stays below the available size exactly if it is not stuck in that loop and every packet
that is begun has the room.
-/

namespace Rtl8188eu

/-! ## The machine -/

/-- Who called `hal_EfuseFixHeaderProcess`. A header of one byte has failed whatever comes of it. -/
inductive PgFrame where
  | oneByte
  | twoByte (left : ℕ) (target : PgPkt)

/-- The words that `Hal_EfuseWordEnableDataWrite` programs : those of the packet, or those behind a
header that is fixed, with the address behind them. -/
structure PgWords where
  offset : UInt8
  wordEn : UInt8
  data : Bytes
  fix : Option (ℕ × PgFrame)

/-- Where the driver is. `left` is `EFUSE_REPEAT_THRESHOLD_ + 1 - repeatcnt`. -/
inductive PgPhase where
  /-- `hal_EfusePgPacketWrite_8188e` is called. -/
  | write (offset wordEn : UInt8) (data : Bytes)
  /-- `hal_EfusePgPacketWrite1ByteHeader`. -/
  | header (addr left : ℕ) (target : PgPkt)
  /-- The first byte in the loop of `hal_EfusePgPacketWrite2ByteHeader`. -/
  | ext (addr left : ℕ) (target : PgPkt)
  /-- The second byte. -/
  | ext2 (addr left : ℕ) (target : PgPkt)
  /-- `hal_EfuseFixHeaderProcess` is called. -/
  | fix (addr : ℕ) (offset wordEn : UInt8) (frame : PgFrame)
  /-- The word `i` of `Hal_EfuseWordEnableDataWrite`, with its first byte programmed or not. -/
  | words (i : ℕ) (half : Bool) (start : ℕ) (badworden : UInt8) (w : PgWords)
  /-- `hal_EfusePgPacketWrite_8188e` returns. -/
  | ret (success : Bool)

/-- The chip reads back `r` at an address. -/
def Efuse.readBack (s : Efuse) (addr : ℕ) (r : UInt8) : Efuse :=
  { s with cells := Function.update s.cells addr r, programmed := s.programmed + 1 }

structure Programmer where
  efuse : Efuse
  phase : PgPhase
  stack : List PgFrame

/-- What `hal_EfusePgPacketWrite_8188e` does up to the header. The partial write check starts where
the size that was just taken ends, at a blank byte, so that nothing is programmed
(`pgPacketWriteStart_eq`). -/
def pgWriteStart (s : Efuse) (offset wordEn : UInt8) (data : Bytes) :
    Option (Efuse × Option (ℕ × PgPkt)) :=
  pgPacketWriteStart (fun _ cells _ _ => cells) (fun _ _ _ _ => none) s offset wordEn data

/-- `hal_EfusePgPacketWriteHeader`. -/
def PgPhase.writeHeader (addr : ℕ) (target : PgPkt) : PgPhase :=
  if efuseMaxSectionBase ≤ target.offset.toNat then .ext addr (efuseRepeatThreshold + 1) target
  else .header addr (efuseRepeatThreshold + 1) target

/-- `hal_EfusePgPacketWriteData`. -/
def PgPhase.writeData (addr : ℕ) (target : PgPkt) : PgPhase :=
  .words 0 false (addr + 1) 0x0F ⟨target.offset, target.wordEn, target.data, none⟩

/-- `hal_EfuseFixHeaderProcess` returns with an address. -/
def PgFrame.resume (addr : ℕ) : PgFrame → PgPhase
  | oneByte => .ret false
  | twoByte left target => .ext addr left target

/-- Behind the words. -/
def PgWords.next (w : PgWords) (badworden : UInt8) (stack : List PgFrame) :
    PgPhase × List PgFrame :=
  match w.fix with
  | none => if badworden = 0x0F then (.ret true,
    stack) else (.write w.offset badworden w.data, stack)
  | some (addr, frame) =>
    if badworden = 0x0F then (frame.resume addr, stack) else (.write w.offset badworden w.data,
      frame :: stack)

/-- `badworden` after both bytes of a word were read back. -/
def PgWords.check (w : PgWords) (i : ℕ) (badworden a b : UInt8) : UInt8 :=
  if w.data (2 * i) ≠ a ∨
    w.data (2 * i + 1) ≠ b then badworden &&& ~~~(1 <<< UInt8.ofNat i) else badworden

namespace Programmer

/-- The byte that is programmed next, if one is. -/
def programs (p : Programmer) : Option (ℕ × UInt8) :=
  match p.phase with
  | .header addr _ target => some (addr, pgHeader1 target.offset target.wordEn)
  | .ext addr _ target => if addr < efuseMaxAvailableLen then some (addr,
    pgHeaderExt target.offset) else none
  | .ext2 addr _ target => some (addr, pgHeaderExt2 target.offset target.wordEn)
  | .words i half start _ w =>
    if i < efuseMaxWordUnit ∧ wordEnabled w.wordEn i then
      if half then some (start + 1, w.data (2 * i + 1)) else some (start, w.data (2 * i))
    else none
  | _ => none

/-- One step. If a byte is programmed, `r` is what reads back. -/
def step (p : Programmer) (r : UInt8) : Programmer :=
  match p.phase with
  | .write offset wordEn data =>
    match pgWriteStart p.efuse offset wordEn data with
    | none => p
    | some (s, none) => ⟨s, .ret false, p.stack⟩
    | some (s, some (addr, target)) => ⟨s, .writeHeader addr target, p.stack⟩
  | .header addr left target =>
    let s := p.efuse.readBack addr r
    if r = 0xFF then
      match left with
      | 0 => ⟨s, .ret false, p.stack⟩
      | left + 1 => ⟨s, .header addr left target, p.stack⟩
    else if pgHeader1 target.offset target.wordEn = r then ⟨s, .writeData addr target, p.stack⟩
    else ⟨s, .fix addr ((r >>> 4) &&& 0x0F) (r &&& 0x0F) .oneByte, p.stack⟩
  | .ext addr left target =>
    if addr < efuseMaxAvailableLen then
      let s := p.efuse.readBack addr r
      if r = 0xFF then
        match left with
        | 0 => ⟨s, .ret false, p.stack⟩
        | left + 1 => ⟨s, .ext addr left target, p.stack⟩
      else if r = pgHeaderExt target.offset then ⟨s, .ext2 (addr + 1) left target, p.stack⟩
      else if extHeader r then ⟨s, .ext (addr + 2) left target, p.stack⟩
      else ⟨s, .ext addr left target, p.stack⟩
    else { p with phase := .ret false }
  | .ext2 addr left target =>
    let s := p.efuse.readBack addr r
    if r = 0xFF then
      match left with
      | 0 => ⟨s, .ret false, p.stack⟩
      | left + 1 => ⟨s, .ext2 addr left target, p.stack⟩
    else if allWordsDisabled r then
      match left with
      | 0 => ⟨s, .ret false, p.stack⟩
      | left + 1 => ⟨s, .ext (addr + 1) left target, p.stack⟩
    else if pgHeaderExt2 target.offset target.wordEn ≠ r then
      ⟨s, .fix addr (((pgHeaderExt target.offset &&& 0xE0) >>> 5) ||| ((r &&& 0xF0) >>> 1))
        (r &&& 0x0F)
        (.twoByte left target), p.stack⟩
    else ⟨s, .writeData addr target, p.stack⟩
  | .fix addr offset wordEn frame =>
    let behind := addr + efuseCalculateWordCnts wordEn * 2 + 1
    match halEfusePgPacketRead p.efuse.cells offset with
    | none => p
    | some (false, _) => { p with phase := frame.resume behind }
    | some (true, data) =>
      { p with phase := .words 0 false (addr + 1) 0x0F ⟨offset, wordEn, data, some (behind, frame)⟩ }
  | .words i half start badworden w =>
    if i < efuseMaxWordUnit then
      if wordEnabled w.wordEn i then
        if half then
          ⟨p.efuse.readBack (start + 1) r,
            .words (i + 1) false (start + 2) (w.check i badworden (p.efuse.cells start) r) w,
            p.stack⟩
        else ⟨p.efuse.readBack start r, .words i true start badworden w, p.stack⟩
      else { p with phase := .words (i + 1) false start badworden w }
    else ⟨p.efuse, (w.next badworden p.stack).1, (w.next badworden p.stack).2⟩
  | .ret success =>
    match p.stack with
    | [] => p
    | frame :: stack =>
      if success then
        match halEfuseGetCurrentSize p.efuse with
        | none => p
        | some (s, addr) => ⟨s, frame.resume addr, stack⟩
      else ⟨p.efuse, .ret false, stack⟩

/-- The outermost call has returned. -/
def Finished (p : Programmer) : Prop := (∃ success, p.phase = .ret success) ∧ p.stack = []

/-- The first byte of an extended header reads back as no header of that kind, and is not blank. -/
def Stuck (p : Programmer) (r : UInt8) : Prop :=
  ∃ addr left target, p.phase = .ext addr left target ∧ addr < efuseMaxAvailableLen ∧ r ≠ 0xFF ∧
    r ≠ pgHeaderExt target.offset ∧ extHeader r = false

/-- There is room for what is begun : for the second byte of an extended header whose first byte
reads back, and for all the words of a packet. -/
def Room (p : Programmer) (r : UInt8) : Prop :=
  match p.phase with
  | .ext addr _ target => addr < efuseMaxAvailableLen → r = pgHeaderExt target.offset →
    addr + 1 < efuseMaxAvailableLen
  | .words 0 false start _ w => efuseCalculateWordCnts w.wordEn = 0 ∨
      start + efuseCalculateWordCnts w.wordEn * 2 ≤ efuseMaxAvailableLen
  | _ => True

end Programmer

/-- A call, with what the chip reads back in each step. -/
structure PgRun where
  efuse : Efuse
  offset : UInt8
  wordEn : UInt8
  data : Bytes
  readBacks : ℕ → UInt8

namespace PgRun

/-- The state after `n` steps. -/
def stateAt (r : PgRun) : ℕ → Programmer :=
  InfiniteRuns.stateAt Programmer.step ⟨r.efuse, .write r.offset r.wordEn r.data, []⟩ r.readBacks

/-- The call returns, and no byte at or above the available size is programmed. -/
def Bounded (r : PgRun) : Prop :=
  (∃ n, (r.stateAt n).Finished) ∧ ∀ n addr v, (r.stateAt n).programs = some (addr, v) →
    addr < efuseMaxAvailableLen

end PgRun

/-! ## Reading the log

Whatever the image is, the address grows with each header. -/

theorem le_pgHeader (read : Bytes) (header : UInt8) (addr : ℕ) :
    addr ≤ (pgHeader read header addr).2 := by
  unfold pgHeader
  dsimp only
  split_ifs
  · exact Nat.le_succ addr
  · exact Nat.le_succ addr
  · exact le_rfl

theorem currentSizeLoop_header {read : Bytes} {addr : ℕ}
    (h : addr < efuseRealContentLen ∧ read addr ≠ 0xFF)
    (fuel : ℕ) : ∃ next, addr < next ∧ currentSizeLoop read
    (fuel + 1) addr = currentSizeLoop read fuel next := by
  have hle := le_pgHeader read (read addr) (addr + 1)
  rw [currentSizeLoop, if_pos h]
  generalize pgHeader read (read addr) (addr + 1) = found at hle ⊢
  obtain ⟨_ | ⟨hoffset, hworden⟩, next⟩ := found
  · exact ⟨next, hle, rfl⟩
  · exact ⟨_, Nat.lt_add_right _ hle, rfl⟩

theorem currentSizeLoop_spec (read : Bytes) : ∀ fuel addr, efuseRealContentLen ≤ fuel + addr →
    ∃ n, currentSizeLoop read (fuel + 1) addr = some n ∧ addr ≤ n ∧
      (addr < efuseRealContentLen → read addr ≠ 0xFF → addr < n) ∧
      (n < efuseRealContentLen → read n = 0xFF) := by
  intro fuel addr hfuel
  induction fuel generalizing addr with
  | zero =>
    have hend : ¬(addr < efuseRealContentLen ∧ read addr ≠ 0xFF) := fun h => by omega
    exact ⟨addr, by rw [currentSizeLoop, if_neg hend], le_rfl, by omega, by omega⟩
  | succ fuel ih =>
    by_cases h : addr < efuseRealContentLen ∧ read addr ≠ 0xFF
    · obtain ⟨next, hlt, heq⟩ := currentSizeLoop_header h (fuel + 1)
      obtain ⟨n, hn, hle, -, hblank⟩ := ih next (by omega)
      exact ⟨n, heq.trans hn, by omega, fun _ _ => by omega, hblank⟩
    · refine ⟨addr, by rw [currentSizeLoop, if_neg h], le_rfl, fun hlt hne => absurd ⟨hlt,
        hne⟩ h, fun hlt => ?_⟩
      exact not_not.mp fun hne => h ⟨hlt, hne⟩

/-- `hal_EfuseGetCurrentSize_8188e` returns. It goes forward, to a blank cell or to the end. -/
theorem halEfuseGetCurrentSize_spec (s : Efuse) :
    ∃ n, halEfuseGetCurrentSize s = some (⟨s.cells, n, s.programmed⟩, n) ∧
    s.usedBytes ≤ n ∧ (s.usedBytes < efuseRealContentLen → s.cells s.usedBytes ≠ 0xFF →
      s.usedBytes < n) ∧
    (n < efuseRealContentLen → s.cells n = 0xFF) := by
  obtain ⟨n, hn, hspec⟩ :=
    currentSizeLoop_spec s.cells efuseRealContentLen s.usedBytes (Nat.le_add_right _ _)
  exact ⟨n, by rw [halEfuseGetCurrentSize, hn]; rfl, hspec⟩

theorem pgPacketReadLoop_header {cells : Bytes} {addr : ℕ}
    (h : addr < efuseRealContentLen ∧ cells addr ≠ 0xFF)
    (offset : UInt8) (fuel : ℕ) (tmpdata data : Bytes) : ∃ next tmpdata' data', addr < next ∧
      pgPacketReadLoop cells offset (fuel + 1) addr tmpdata data =
        pgPacketReadLoop cells offset fuel next tmpdata' data' := by
  have hle := le_pgHeader cells (cells addr) (addr + 1)
  rw [pgPacketReadLoop, if_pos h]
  generalize pgHeader cells (cells addr) (addr + 1) = found at hle ⊢
  obtain ⟨_ | ⟨hoffset, hworden⟩, next⟩ := found
  · exact ⟨next, tmpdata, data, hle, rfl⟩
  · by_cases hsame : hoffset = offset
    · exact ⟨_, _, _, Nat.lt_add_right _ hle, if_pos hsame⟩
    · exact ⟨_, _, _, Nat.lt_add_right _ hle, if_neg hsame⟩

theorem pgPacketReadLoop_isSome (cells : Bytes) (offset : UInt8) : ∀ fuel addr tmpdata data,
    efuseRealContentLen ≤ fuel + addr →
      (pgPacketReadLoop cells offset (fuel + 1) addr tmpdata data).isSome := by
  intro fuel addr tmpdata data hfuel
  induction fuel generalizing addr tmpdata data with
  | zero =>
    have hend : ¬(addr < efuseRealContentLen ∧ cells addr ≠ 0xFF) := fun h => by omega
    rw [pgPacketReadLoop, if_neg hend]
    rfl
  | succ fuel ih =>
    by_cases h : addr < efuseRealContentLen ∧ cells addr ≠ 0xFF
    · obtain ⟨next, tmpdata', data', hlt, heq⟩ :=
        pgPacketReadLoop_header h offset (fuel + 1) tmpdata data
      rw [heq]
      exact ih next tmpdata' data' (by omega)
    · rw [pgPacketReadLoop, if_neg h]
      rfl

/-- `hal_EfusePgPacketRead_8188e` returns. -/
theorem halEfusePgPacketRead_isSome (cells : Bytes) (offset : UInt8) :
    (halEfusePgPacketRead cells offset).isSome := by
  unfold halEfusePgPacketRead
  split_ifs
  · rfl
  · rw [Option.isSome_map]
    exact pgPacketReadLoop_isSome cells offset efuseRealContentLen 0 _ _ le_rfl

/-- What precedes the header programs nothing, whatever the chip is : the partial write check starts
at the blank cell that `hal_EfusePgCheckAvailableAddr` has just found, or behind the available
size. -/
theorem pgPacketWriteStart_spec (chip : Chip)
    (pgWrite : Efuse → UInt8 → UInt8 → Bytes → Option (Efuse × Bool))
    {s : Efuse} {n : ℕ} (hn : halEfuseGetCurrentSize s = some (⟨s.cells, n, s.programmed⟩, n))
    (hblank : n < efuseRealContentLen → s.cells n = 0xFF) (offset wordEn : UInt8) (data : Bytes) :
    pgPacketWriteStart chip pgWrite s offset wordEn data = some (⟨s.cells, n, s.programmed⟩,
      if n < efuseMaxAvailableLen then
        some (n, halEfuseConstructPGPkt offset wordEn data) else none) := by
  rw [pgPacketWriteStart, hn]
  change (if efuseMapLen88e ≤ n then some (⟨s.cells, n, s.programmed⟩, none)
    else halEfusePartialWriteCheck chip pgWrite ⟨s.cells, n, s.programmed⟩
    (halEfuseConstructPGPkt offset wordEn data)) = _
  by_cases hmap : efuseMapLen88e ≤ n
  · rw [if_pos hmap, if_neg (by rw [efuseMapLen88e] at hmap; rw [efuseMaxAvailableLen]; omega)]
  · rw [efuseMapLen88e, not_le] at hmap
    have hcell : ¬s.cells n ≠ 0xFF := not_not.mpr (hblank hmap)
    rw [if_neg (by rw [efuseMapLen88e]; omega), halEfusePartialWriteCheck,
      show efuseRealContentLen = 511 + 1 from rfl,
      partialWriteLoop, Nat.mod_eq_of_lt hmap]
    by_cases hlt : n < efuseMaxAvailableLen
    · rw [if_neg (not_le.mpr hlt), if_neg hcell, if_pos hlt]
    · rw [if_pos (not_lt.mp hlt), if_neg hlt]

/-- `hal_EfusePgPacketWrite_8188e` does up to the header what the machine does, on every chip. -/
theorem pgPacketWriteStart_eq (chip : Chip)
    (pgWrite : Efuse → UInt8 → UInt8 → Bytes → Option (Efuse × Bool))
    (s : Efuse) (offset wordEn : UInt8) (data : Bytes) :
    pgPacketWriteStart chip pgWrite s offset wordEn data = pgWriteStart s offset wordEn data := by
  obtain ⟨n, hn, -, -, hblank⟩ := halEfuseGetCurrentSize_spec s
  rw [pgWriteStart, pgPacketWriteStart_spec chip pgWrite hn hblank,
    pgPacketWriteStart_spec _ _ hn hblank]

/-! ## Termination

Behind a header that read back the log has grown, and the next packet begins further on. Between two
packets the addresses of the headers grow, and at one address the repeat count does. -/

/-- The cell at the end of the log is not blank any more, and the driver is behind it. -/
def Efuse.Begun (s : Efuse) (addr : ℕ) : Prop := s.cells s.usedBytes ≠ 0xFF ∧ s.usedBytes < addr

def PgFrame.Counted : PgFrame → Prop
  | oneByte => True
  | twoByte left _ => left ≤ efuseRepeatThreshold + 1

/-- Where the driver is, relative to the end of the log it has found. -/
def PgPhase.Placed (s : Efuse) : PgPhase → Prop
  | write _ _ _ => True
  | header addr left _ => addr = s.usedBytes ∧ addr < efuseMaxAvailableLen ∧
    left ≤ efuseRepeatThreshold + 1
  | ext addr left _ => (addr = s.usedBytes ∨ s.Begun addr) ∧ left ≤ efuseRepeatThreshold + 1
  | ext2 addr left _ => addr ≤ efuseMaxAvailableLen ∧ s.Begun addr ∧ left ≤ efuseRepeatThreshold + 1
  | fix addr _ _ frame => addr ≤ efuseMaxAvailableLen ∧ s.Begun (addr + 1) ∧ frame.Counted
  | words i _ start _ w => i ≤ efuseMaxWordUnit ∧ s.Begun start ∧
      ∀ next frame, w.fix = some (next, frame) → s.usedBytes < next ∧ frame.Counted
  | ret _ => True

/-- No packet begins below this address any more, if nothing is programmed there. -/
def Efuse.pastEnd (s : Efuse) : ℕ :=
    if s.cells s.usedBytes = 0xFF then s.usedBytes else s.usedBytes + 1

/-- The address where the packet begins, or the next one. -/
def PgPhase.position (s : Efuse) : PgPhase → ℕ
  | header addr _ _ => addr
  | ext addr _ _ => if addr = s.usedBytes then addr else s.pastEnd
  | _ => s.pastEnd

/-- A bound for the steps to the next packet. -/
def PgPhase.work (s : Efuse) : PgPhase → ℕ
  | write _ _ _ => 30
  | header _ left _ => 10 + left
  | ext addr left _ => if addr = s.usedBytes then 10 + left else 1050 + 100 * (300 - addr) + left
  | ext2 addr left _ => 1090 + 100 * (300 - addr) + left
  | fix addr _ _ _ => 1080 + 100 * (300 - addr)
  | words i half _ _ w => (w.fix.elim 900 fun fix => 1060 + 100 * (300 - fix.1)) + 3 *
    (efuseMaxWordUnit - i) +
      if half then 1 else 2
  | ret _ => 40

namespace Programmer

def Inv (p : Programmer) : Prop := p.phase.Placed p.efuse ∧ ∀ frame ∈ p.stack, frame.Counted

/-- The work for a packet is below the weight of an address. A failure only unwinds the stack. -/
def measure (p : Programmer) : ℕ :=
  match p.phase with
  | .ret false => p.stack.length
  | phase => (efuseRealContentLen - phase.position p.efuse) * 50000 + phase.work
    p.efuse + p.stack.length

/-- A step that gets on. -/
def Advances (p q : Programmer) : Prop := q.Inv ∧ q.measure < p.measure

theorem begun_readBack (s : Efuse) {addr a : ℕ} (r : UInt8) (h : s.Begun a)
    (haddr : s.usedBytes < addr) : (s.readBack addr r).Begun a := by
  refine ⟨?_, h.2⟩
  change Function.update s.cells addr r s.usedBytes ≠ 0xFF
  rw [Function.update_of_ne haddr.ne]
  exact h.1

theorem begun_readBack_end (s : Efuse) {a : ℕ} {r : UInt8} (hr : r ≠ 0xFF)
    (ha : s.usedBytes < a) : (s.readBack s.usedBytes r).Begun a := by
  refine ⟨?_, ha⟩
  change Function.update s.cells s.usedBytes r s.usedBytes ≠ 0xFF
  rw [Function.update_self]
  exact hr

end Programmer

theorem Efuse.Begun.pastEnd {s : Efuse} {a : ℕ} (h : s.Begun a) : s.pastEnd = s.usedBytes + 1 :=
    if_neg h.1

theorem PgPhase.work_pos (s : Efuse) (phase : PgPhase) : 0 < phase.work s := by
  cases phase with
  | ext addr left target =>
    simp only [PgPhase.work]
    split_ifs <;> omega
  | words i half start badworden w =>
    simp only [PgPhase.work]
    split_ifs <;> omega
  | _ =>
    simp only [PgPhase.work]
    omega

theorem PgPhase.position_ext_begun {s : Efuse} {addr : ℕ} (h : s.Begun addr) (left : ℕ)
    (target : PgPkt) :
    (PgPhase.ext addr left target).position s = s.usedBytes + 1 :=
  (if_neg h.2.ne').trans h.pastEnd

theorem PgPhase.work_ext_begun {s : Efuse} {addr : ℕ} (h : s.Begun addr) (left : ℕ)
    (target : PgPkt) :
    (PgPhase.ext addr left target).work s = 1050 + 100 * (300 - addr) + left :=
  if_neg h.2.ne'

theorem PgPhase.position_ext_end (s : Efuse) (left : ℕ) (target : PgPkt) :
    (PgPhase.ext s.usedBytes left target).position s = s.usedBytes :=
  if_pos rfl

theorem PgPhase.work_ext_end (s : Efuse) (left : ℕ) (target : PgPkt) :
    (PgPhase.ext s.usedBytes left target).work s = 10 + left :=
  if_pos rfl

namespace Programmer

variable {s s' : Efuse} {phase phase' : PgPhase} {stack stack' : List PgFrame}

theorem measure_eq (h : phase ≠ .ret false) : (Programmer.mk s phase stack).measure =
    (efuseRealContentLen - phase.position s) * 50000 + phase.work s + stack.length := by
  unfold measure
  split
  · rename_i hret
    exact absurd hret h
  · rfl

/-- Giving up gets on. -/
theorem advances_fail (h : phase ≠ .ret false) (hstack : ∀ frame ∈ stack, frame.Counted) :
    Advances ⟨s, phase, stack⟩ ⟨s', .ret false, stack⟩ := by
  refine ⟨⟨trivial, hstack⟩, ?_⟩
  rw [measure_eq h]
  exact Nat.lt_add_of_pos_left (Nat.add_pos_right _ (phase.work_pos s))

/-- Less work is left, and the next packet does not begin further back. -/
theorem advances_of_work (h : phase ≠ .ret false) (h' : phase' ≠ .ret false)
    (hinv : Inv ⟨s', phase', stack'⟩) (hpos : phase.position s ≤ phase'.position s')
    (hwork : phase'.work s' + stack'.length < phase.work s + stack.length) :
    Advances ⟨s, phase, stack⟩ ⟨s', phase', stack'⟩ := by
  refine ⟨hinv, ?_⟩
  rw [measure_eq h, measure_eq h']
  omega

/-- The next packet begins further on. -/
theorem advances_of_position (h : phase ≠ .ret false) (h' : phase' ≠ .ret false)
    (hinv : Inv ⟨s', phase', stack⟩) (hpos : phase.position s < phase'.position s')
    (hlt : phase.position s < efuseRealContentLen) (hwork : phase'.work s' < 50000) :
    Advances ⟨s, phase, stack⟩ ⟨s', phase', stack⟩ := by
  refine ⟨hinv, ?_⟩
  rw [measure_eq h, measure_eq h']
  omega

/-- A header of two bytes that waited for its fixing goes on behind the packet. -/
theorem advances_resume {addr : ℕ} {frame : PgFrame} (h : phase ≠ .ret false) (hb : s.Begun addr)
    (hframe : frame.Counted) (hstack : ∀ frame ∈ stack, frame.Counted)
    (hpos : phase.position s = s.pastEnd)
    (hwork : 1054 + 100 * (300 - addr) < phase.work s) :
    Advances ⟨s, phase, stack⟩ ⟨s, frame.resume addr, stack⟩ := by
  cases frame with
  | oneByte => exact advances_fail h hstack
  | twoByte left target =>
    have hleft : left ≤ efuseRepeatThreshold + 1 := hframe
    rw [efuseRepeatThreshold] at hleft
    refine advances_of_work h (by simp [PgFrame.resume]) ⟨⟨Or.inr hb, hleft⟩, hstack⟩ ?_ ?_
    · rw [PgFrame.resume, PgPhase.position_ext_begun hb, hpos, hb.pastEnd]
    · rw [PgFrame.resume, PgPhase.work_ext_begun hb]
      omega

/-! ### One step from each phase -/

theorem write_advances (s : Efuse) (offset wordEn : UInt8) (data : Bytes)
    (hstack : ∀ frame ∈ stack, frame.Counted)
    (r : UInt8) : Advances ⟨s, .write offset wordEn data, stack⟩
    (step ⟨s, .write offset wordEn data, stack⟩ r) := by
  obtain ⟨n, hn, hle, hgrow, hblank⟩ := halEfuseGetCurrentSize_spec s
  have hstart : pgWriteStart s offset wordEn data = _ :=
    pgPacketWriteStart_spec _ _ hn hblank offset wordEn data
  simp only [step, hstart]
  by_cases hlt : n < efuseMaxAvailableLen
  · rw [if_pos hlt]
    have hpast : s.pastEnd ≤ n := by
      unfold Efuse.pastEnd
      split_ifs with hcell
      · exact hle
      · exact hgrow (by rw [efuseRealContentLen]; rw [efuseMaxAvailableLen] at hlt; omega) hcell
    change Advances _ ⟨⟨s.cells, n, s.programmed⟩,
      PgPhase.writeHeader n (halEfuseConstructPGPkt offset wordEn data), stack⟩
    unfold PgPhase.writeHeader
    split_ifs
    · refine advances_of_work (by simp) (by simp) ⟨⟨Or.inl rfl, le_rfl⟩, hstack⟩ ?_ ?_
      · exact hpast.trans (PgPhase.position_ext_end ⟨s.cells, n, s.programmed⟩ _ _).ge
      · have hwork := PgPhase.work_ext_end ⟨s.cells, n, s.programmed⟩ (efuseRepeatThreshold + 1)
          (halEfuseConstructPGPkt offset wordEn data)
        rw [hwork]
        exact Nat.add_lt_add_right (show 10 + (efuseRepeatThreshold + 1) < 30 by decide) _
    · refine advances_of_work (by simp) (by simp) ⟨⟨rfl, hlt, le_rfl⟩, hstack⟩ hpast ?_
      exact Nat.add_lt_add_right (show 10 + (efuseRepeatThreshold + 1) < 30 by decide) _
  · rw [if_neg hlt]
    exact advances_fail (by simp) hstack

theorem header_advances {addr left : ℕ} {target : PgPkt}
    (h : (PgPhase.header addr left target).Placed s)
    (hstack : ∀ frame ∈ stack, frame.Counted) (r : UInt8) :
    Advances ⟨s, .header addr left target, stack⟩
      (step ⟨s, .header addr left target, stack⟩ r) := by
  obtain ⟨rfl, hlt, hleft⟩ := h
  simp only [step]
  by_cases hr : r = 0xFF
  · rw [if_pos hr]
    cases left with
    | zero => exact advances_fail (by simp) hstack
    | succ left =>
      refine advances_of_work (by simp) (by simp) ⟨⟨rfl, hlt, (Nat.le_succ left).trans hleft⟩,
        hstack⟩ le_rfl ?_
      exact Nat.add_lt_add_right (Nat.lt_succ_self (10 + left)) _
  · have hb := begun_readBack_end s hr (Nat.lt_succ_self s.usedBytes)
    have hlen : s.usedBytes < efuseRealContentLen := hlt.trans (by decide)
    rw [if_neg hr]
    split_ifs
    · refine advances_of_position (by simp) (by simp [PgPhase.writeData])
        ⟨⟨Nat.zero_le _, hb, fun _ _ h => by simp at h⟩, hstack⟩ ?_ hlen ?_
      · exact (Nat.lt_succ_self s.usedBytes).trans_eq hb.pastEnd.symm
      · exact show 900 + 3 * (efuseMaxWordUnit - 0) + 2 < 50000 by decide
    · refine advances_of_position (by simp) (by simp) ⟨⟨hlt.le, hb, trivial⟩, hstack⟩ ?_ hlen ?_
      · exact (Nat.lt_succ_self s.usedBytes).trans_eq hb.pastEnd.symm
      · simp only [PgPhase.work]
        omega

theorem begun_of_ext {addr : ℕ} {r : UInt8} (h : addr = s.usedBytes ∨ s.Begun addr)
    (hr : r ≠ 0xFF) : (s.readBack addr r).Begun (addr + 1) := by
  obtain rfl | hb := h
  · exact begun_readBack_end s hr (Nat.lt_succ_self _)
  · exact begun_readBack s r ⟨hb.1, Nat.lt_succ_of_lt hb.2⟩ hb.2

/-- From the first byte of an extended header to an address further on. -/
theorem advances_of_ext {addr left a : ℕ} {target : PgPkt} (h : addr = s.usedBytes ∨ s.Begun addr)
    (haddr : addr < efuseMaxAvailableLen) (hused : s'.usedBytes = s.usedBytes) (hb : s'.Begun a)
    (h' : phase' ≠ .ret false) (hinv : Inv ⟨s', phase', stack⟩)
    (hpos : phase'.position s' = s'.pastEnd)
    (hwork : phase'.work s' < 1050 + 100 * (300 - addr)) :
    Advances ⟨s, .ext addr left target, stack⟩ ⟨s', phase', stack⟩ := by
  rw [hb.pastEnd, hused] at hpos
  rw [efuseMaxAvailableLen] at haddr
  obtain rfl | hb' := h
  · have hend := PgPhase.position_ext_end s left target
    refine advances_of_position (by simp) h' hinv ?_ ?_ (by omega)
    · omega
    · rw [hend, efuseRealContentLen]
      omega
  · have hbegun := PgPhase.position_ext_begun hb' left target
    have hwork' := PgPhase.work_ext_begun hb' left target
    refine advances_of_work (by simp) h' hinv ?_ ?_
    · omega
    · omega

/-- The byte is programmed again, at the same address. -/
theorem measure_ext {addr left left' : ℕ} {target : PgPkt} (r : UInt8)
    (h : addr = s.usedBytes ∨ s.Begun addr) :
    (Programmer.mk (s.readBack addr r) (.ext addr left' target) stack).measure + left =
      (Programmer.mk s (.ext addr left target) stack).measure + left' := by
  rw [measure_eq (by simp), measure_eq (by simp)]
  obtain rfl | hb := h
  · have hpos := PgPhase.position_ext_end (s.readBack s.usedBytes r) left' target
    have hwork := PgPhase.work_ext_end (s.readBack s.usedBytes r) left' target
    change PgPhase.position _ (.ext s.usedBytes left' target) = s.usedBytes at hpos
    change PgPhase.work _ (.ext s.usedBytes left' target) = _ at hwork
    rw [hpos, hwork, PgPhase.position_ext_end, PgPhase.work_ext_end]
    omega
  · have hb' := begun_readBack s r hb hb.2
    rw [PgPhase.position_ext_begun hb', PgPhase.work_ext_begun hb', PgPhase.position_ext_begun hb,
      PgPhase.work_ext_begun hb]
    change (_ - (s.usedBytes + 1)) * 50000 + _ + _ + _ = _
    omega

/-- A step that is stuck stays where it is. -/
theorem measure_of_stuck {p : Programmer} {r : UInt8} (h : p.Inv) (hs : p.Stuck r) :
    (p.step r).Inv ∧ (p.step r).measure = p.measure := by
  obtain ⟨s, phase, stack⟩ := p
  obtain ⟨addr, left, target, hphase, haddr, hr, hne, hext⟩ := hs
  obtain rfl : phase = .ext addr left target := hphase
  obtain ⟨⟨hplace, hleft⟩, hstack⟩ := h
  have hstep : step ⟨s, .ext addr left target, stack⟩ r =
      ⟨s.readBack addr r, .ext addr left target, stack⟩ := by
    simp only [step, if_pos haddr, if_neg hr, if_neg hne, hext, Bool.false_eq_true, if_false]
  rw [hstep]
  refine ⟨⟨⟨?_, hleft⟩, hstack⟩, Nat.add_right_cancel (measure_ext r hplace)⟩
  exact hplace.imp_right fun hb => begun_readBack _ r hb hb.2

theorem ext_advances {addr left : ℕ} {target : PgPkt} {r : UInt8}
    (h : (PgPhase.ext addr left target).Placed s)
    (hstack : ∀ frame ∈ stack, frame.Counted) (hs : ¬Stuck ⟨s, .ext addr left target, stack⟩ r) :
    Advances ⟨s, .ext addr left target, stack⟩ (step ⟨s, .ext addr left target, stack⟩ r) := by
  obtain ⟨hplace, hleft⟩ := h
  have hplace' := hplace.imp_right fun hb => begun_readBack s r hb hb.2
  simp only [step]
  by_cases haddr : addr < efuseMaxAvailableLen
  · rw [if_pos haddr]
    by_cases hr : r = 0xFF
    · rw [if_pos hr]
      cases left with
      | zero => exact advances_fail (by simp) hstack
      | succ left =>
        refine ⟨⟨⟨hplace', (Nat.le_succ left).trans hleft⟩, hstack⟩, ?_⟩
        have hmeasure := @measure_ext s stack addr (left + 1) left target r hplace
        change Programmer.measure ⟨s.readBack addr r, .ext addr left target, stack⟩ < _
        omega
    · have hb := begun_of_ext hplace hr
      rw [if_neg hr]
      rw [efuseRepeatThreshold] at hleft
      split_ifs with hhdr hext
      · refine advances_of_ext hplace haddr rfl hb (by simp) ⟨⟨haddr, hb, hleft⟩, hstack⟩ rfl ?_
        simp only [PgPhase.work]
        rw [efuseMaxAvailableLen] at haddr
        omega
      · have hb2 : Efuse.Begun _ (addr + 2) := ⟨hb.1, Nat.lt_succ_of_lt hb.2⟩
        refine advances_of_ext hplace haddr rfl hb2 (by simp) ⟨⟨Or.inr hb2, hleft⟩, hstack⟩ ?_ ?_
        · rw [PgPhase.position_ext_begun hb2, hb2.pastEnd]
        · rw [PgPhase.work_ext_begun hb2]
          rw [efuseMaxAvailableLen] at haddr
          omega
      · exact absurd ⟨addr, left, target, rfl, haddr, hr, hhdr, Bool.eq_false_iff.mpr hext⟩ hs
  · rw [if_neg haddr]
    exact advances_fail (by simp) hstack

theorem ext2_advances {addr left : ℕ} {target : PgPkt}
    (h : (PgPhase.ext2 addr left target).Placed s)
    (hstack : ∀ frame ∈ stack, frame.Counted) (r : UInt8) :
    Advances ⟨s, .ext2 addr left target, stack⟩ (step ⟨s, .ext2 addr left target, stack⟩ r) := by
  obtain ⟨haddr, hb, hleft⟩ := h
  have hb' := begun_readBack s r hb hb.2
  have hpos : s.pastEnd = (s.readBack addr r).pastEnd := by
    rw [hb.pastEnd, hb'.pastEnd]
    rfl
  rw [efuseMaxAvailableLen] at haddr
  simp only [step]
  split_ifs with hr hall hne
  · cases left with
    | zero => exact advances_fail (by simp) hstack
    | succ left =>
      refine advances_of_work (by simp) (by simp) ⟨⟨haddr, hb', (Nat.le_succ left).trans hleft⟩,
        hstack⟩ hpos.le ?_
      simp only [PgPhase.work]
      omega
  · cases left with
    | zero => exact advances_fail (by simp) hstack
    | succ left =>
      have hb2 : Efuse.Begun _ (addr + 1) := ⟨hb'.1, Nat.lt_succ_of_lt hb'.2⟩
      refine advances_of_work (by simp) (by simp) ⟨⟨Or.inr hb2, (Nat.le_succ left).trans hleft⟩,
        hstack⟩ ?_ ?_
      · rw [PgPhase.position_ext_begun hb2, ← hb2.pastEnd]
        exact hpos.le
      · rw [PgPhase.work_ext_begun hb2]
        simp only [PgPhase.work]
        omega
  · refine advances_of_work (by simp) (by simp) ⟨⟨haddr, ⟨hb'.1, Nat.lt_succ_of_lt hb'.2⟩, hleft⟩,
      hstack⟩ hpos.le ?_
    simp only [PgPhase.work]
    omega
  · refine advances_of_work (by simp) (by simp [PgPhase.writeData])
      ⟨⟨Nat.zero_le _, ⟨hb'.1, Nat.lt_succ_of_lt hb'.2⟩, fun _ _ h => by simp at h⟩, hstack⟩
        hpos.le ?_
    have hwork : (PgPhase.writeData addr target).work (s.readBack addr r) = 914 := rfl
    rw [hwork]
    simp only [PgPhase.work]
    omega

theorem fix_advances {addr : ℕ} {offset wordEn : UInt8} {frame : PgFrame}
    (h : (PgPhase.fix addr offset wordEn frame).Placed s) (hstack : ∀ frame ∈ stack, frame.Counted)
    (r : UInt8) :
    Advances ⟨s, .fix addr offset wordEn frame, stack⟩
      (step ⟨s, .fix addr offset wordEn frame, stack⟩ r) := by
  obtain ⟨haddr, hb, hframe⟩ := h
  obtain ⟨⟨exist, data⟩, hread⟩ :=
    Option.isSome_iff_exists.mp (halEfusePgPacketRead_isSome s.cells offset)
  have hbehind : s.usedBytes < addr + efuseCalculateWordCnts wordEn * 2 + 1 := by
    have hlt := hb.2
    omega
  rw [efuseMaxAvailableLen] at haddr
  simp only [step, hread]
  cases exist with
  | false =>
    refine advances_resume (by simp) ⟨hb.1, hbehind⟩ hframe hstack rfl ?_
    simp only [PgPhase.work]
    omega
  | true =>
    refine advances_of_work (by simp) (by simp) ⟨⟨Nat.zero_le _, hb, fun next frame' hfix => ?_⟩,
      hstack⟩ le_rfl ?_
    · cases hfix
      exact ⟨hbehind, hframe⟩
    · simp only [PgPhase.work, Option.elim_some, efuseMaxWordUnit, Bool.false_eq_true, if_false]
      omega

theorem words_advances {i start : ℕ} {half : Bool} {badworden : UInt8} {w : PgWords}
    (h : (PgPhase.words i half start badworden w).Placed s)
    (hstack : ∀ frame ∈ stack, frame.Counted) (r : UInt8) :
    Advances ⟨s, .words i half start badworden w, stack⟩
      (step ⟨s, .words i half start badworden w, stack⟩ r) := by
  obtain ⟨hi, hb, hfix⟩ := h
  have hb2 : s.Begun (start + 2) := ⟨hb.1, Nat.lt_add_right 2 hb.2⟩
  simp only [step]
  by_cases hlt : i < efuseMaxWordUnit
  · rw [if_pos hlt]
    rw [efuseMaxWordUnit] at hlt
    by_cases hen : wordEnabled w.wordEn i = true
    · rw [if_pos hen]
      cases half with
      | false =>
        have hb' := begun_readBack s r hb hb.2
        refine advances_of_work (by simp) (by simp) ⟨⟨hi, hb', hfix⟩, hstack⟩ ?_ ?_
        · exact (hb.pastEnd.trans hb'.pastEnd.symm).le
        · simp only [PgPhase.work, Bool.false_eq_true, if_false, if_true]
          omega
      | true =>
        have hb' := begun_readBack s r hb2 (Nat.lt_succ_of_lt hb.2)
        refine advances_of_work (by simp) (by simp) ⟨⟨Nat.succ_le_of_lt hlt, hb', hfix⟩,
          hstack⟩ ?_ ?_
        · exact (hb.pastEnd.trans hb'.pastEnd.symm).le
        · simp only [PgPhase.work, Bool.false_eq_true, if_false, if_true, efuseMaxWordUnit]
          omega
    · rw [if_neg hen]
      refine advances_of_work (by simp) (by simp) ⟨⟨Nat.succ_le_of_lt hlt, hb, hfix⟩,
        hstack⟩ le_rfl ?_
      simp only [PgPhase.work, Bool.false_eq_true, if_false, efuseMaxWordUnit]
      split_ifs <;> omega
  · rw [if_neg hlt]
    obtain ⟨offset, wordEn, data, _ | ⟨next, frame⟩⟩ := w
    · simp only [PgWords.next]
      split_ifs
      · refine advances_of_work (by simp) (by simp) ⟨trivial, hstack⟩ le_rfl ?_
        simp only [PgPhase.work, Option.elim_none]
        omega
      · refine advances_of_work (by simp) (by simp) ⟨trivial, hstack⟩ le_rfl ?_
        simp only [PgPhase.work, Option.elim_none]
        omega
    · obtain ⟨hnext, hframe⟩ := hfix next frame rfl
      have hpos : ∀ bad, (PgPhase.words i half start bad
        ⟨offset, wordEn, data, some (next, frame)⟩).work s >
          1060 + 100 * (300 - next) := fun bad => by
        simp only [PgPhase.work, Option.elim_some]
        split_ifs <;> omega
      simp only [PgWords.next]
      split_ifs
      · refine advances_resume (by simp) ⟨hb.1, hnext⟩ hframe hstack rfl ?_
        have hwork := hpos badworden
        omega
      · refine advances_of_work (by simp) (by simp)
          ⟨trivial, List.forall_mem_cons.mpr ⟨hframe, hstack⟩⟩ le_rfl ?_
        have hwork := hpos badworden
        simp only [PgPhase.work, List.length_cons] at hwork ⊢
        omega

theorem ret_advances {success : Bool} {frame : PgFrame}
    (h : ∀ f ∈ frame :: stack, PgFrame.Counted f) (r : UInt8) :
    Advances ⟨s, .ret success, frame :: stack⟩ (step ⟨s, .ret success, frame :: stack⟩ r) := by
  obtain ⟨hframe, hstack⟩ := List.forall_mem_cons.mp h
  cases success with
  | false => exact ⟨⟨trivial, hstack⟩, Nat.lt_succ_self stack.length⟩
  | true =>
    obtain ⟨n, hn, hle, hgrow, -⟩ := halEfuseGetCurrentSize_spec s
    have hpast : efuseRealContentLen - n ≤ efuseRealContentLen - s.pastEnd := by
      unfold Efuse.pastEnd
      split_ifs with hcell
      · omega
      · by_cases hlt : s.usedBytes < efuseRealContentLen
        · have hgrown := hgrow hlt hcell
          omega
        · omega
    have hmeasure : (Programmer.mk s (.ret true) (frame :: stack)).measure =
        (efuseRealContentLen - s.pastEnd) * 50000 + 40 + (stack.length + 1) := rfl
    simp only [step, hn, if_true]
    cases frame with
    | oneByte =>
      refine ⟨⟨trivial, hstack⟩, ?_⟩
      rw [hmeasure]
      exact Nat.lt_of_lt_of_le (Nat.lt_succ_self stack.length) (Nat.le_add_left _ _)
    | twoByte left target =>
      refine ⟨⟨⟨Or.inl rfl, hframe⟩, hstack⟩, ?_⟩
      have hleft : left ≤ efuseRepeatThreshold + 1 := hframe
      rw [efuseRepeatThreshold] at hleft
      have hpos : (PgPhase.ext n left target).position ⟨s.cells, n, s.programmed⟩ = n :=
        PgPhase.position_ext_end _ _ _
      have hwork : (PgPhase.ext n left target).work ⟨s.cells, n, s.programmed⟩ = 10 + left :=
        PgPhase.work_ext_end _ _ _
      change Programmer.measure ⟨⟨s.cells, n, s.programmed⟩, .ext n left target, stack⟩ < _
      rw [hmeasure, measure_eq (by simp), hpos, hwork]
      omega

/-- A step gets on, unless it is stuck or the outermost call has returned. -/
theorem step_advances {p : Programmer} {r : UInt8} (h : p.Inv) (hf : ¬p.Finished)
    (hs : ¬p.Stuck r) :
    Advances p (p.step r) := by
  obtain ⟨s, phase, stack⟩ := p
  obtain ⟨hplaced, hstack⟩ := h
  cases phase with
  | write offset wordEn data => exact write_advances s offset wordEn data hstack r
  | header addr left target => exact header_advances hplaced hstack r
  | ext addr left target => exact ext_advances hplaced hstack hs
  | ext2 addr left target => exact ext2_advances hplaced hstack r
  | fix addr offset wordEn frame => exact fix_advances hplaced hstack r
  | words i half start badworden w => exact words_advances hplaced hstack r
  | ret success =>
    cases stack with
    | nil => exact absurd ⟨⟨success, rfl⟩, rfl⟩ hf
    | cons frame stack => exact ret_advances hstack r

theorem step_of_finished {p : Programmer} (r : UInt8) (h : p.Finished) : p.step r = p := by
  obtain ⟨s, phase, stack⟩ := p
  obtain ⟨⟨success, hphase⟩, hstack⟩ := h
  obtain rfl : phase = .ret success := hphase
  obtain rfl : stack = [] := hstack
  rfl

theorem not_finished_of_stuck {p : Programmer} {r : UInt8} (h : p.Stuck r) : ¬p.Finished := by
  rintro ⟨⟨success, hret⟩, -⟩
  obtain ⟨addr, left, target, hext, -⟩ := h
  rw [hret] at hext
  simp at hext

theorem Inv.step {p : Programmer} (h : p.Inv) (r : UInt8) : (p.step r).Inv := by
  by_cases hf : p.Finished
  · rw [step_of_finished r hf]
    exact h
  · by_cases hs : p.Stuck r
    · exact (measure_of_stuck h hs).1
    · exact (step_advances h hf hs).1

end Programmer

namespace PgRun

theorem inv_stateAt (r : PgRun) : ∀ n, (r.stateAt n).Inv :=
  InfiniteRuns.invariant ⟨trivial, fun _ h => by simp at h⟩ fun n h => h.step (r.readBacks n)

/-- The call returns exactly if it is not stuck for ever. -/
theorem finished_iff (r : PgRun) : (∃ n, (r.stateAt n).Finished) ↔
    ¬∃ n, ∀ m ≥ n, (r.stateAt m).Stuck (r.readBacks m) :=
  InfiniteRuns.done_iff r.inv_stateAt (fun _ _ h hs => (Programmer.measure_of_stuck h hs).2.le)
    (fun _ _ h hf hs => (Programmer.step_advances h hf hs).2)
      (fun _ e h => Programmer.step_of_finished e h)
    fun _ _ h => Programmer.not_finished_of_stuck h

end PgRun

/-! ## The available size -/

/-- The bytes of the words that are left, from the word `i` on. -/
def PgWords.left (w : PgWords) (i : ℕ) : ℕ :=
    (wordBytes w.wordEn w.data (efuseMaxWordUnit - i) i).length

theorem PgWords.left_zero (w : PgWords) : w.left 0 = efuseCalculateWordCnts w.wordEn * 2 :=
  length_wordBytes w.wordEn w.data

theorem PgWords.left_end {w : PgWords} {i : ℕ} (hi : ¬i < efuseMaxWordUnit) : w.left i = 0 := by
  rw [PgWords.left, Nat.sub_eq_zero_of_le (not_lt.mp hi)]
  rfl

theorem PgWords.left_of_enabled {w : PgWords} {i : ℕ} (hi : i < efuseMaxWordUnit)
    (hen : wordEnabled w.wordEn i = true) : w.left i = w.left (i + 1) + 2 := by
  rw [PgWords.left, PgWords.left, show efuseMaxWordUnit - i = efuseMaxWordUnit - (i + 1) + 1 by
    omega, wordBytes,
    if_pos hen]
  rfl

theorem PgWords.left_of_not_enabled {w : PgWords} {i : ℕ} (hi : i < efuseMaxWordUnit)
    (hen : ¬wordEnabled w.wordEn i = true) : w.left i = w.left (i + 1) := by
  rw [PgWords.left, PgWords.left, show efuseMaxWordUnit - i = efuseMaxWordUnit - (i + 1) + 1 by
    omega, wordBytes,
    if_neg hen]

/-- The words from `i` on end below the available size, if there are any. -/
def PgWords.Fits (w : PgWords) (i start : ℕ) : Prop :=
    w.left i = 0 ∨ start + w.left i ≤ efuseMaxAvailableLen

theorem PgWords.fits_next {w : PgWords} {i start : ℕ} (hi : i < efuseMaxWordUnit)
    (hen : wordEnabled w.wordEn i = true) :
    w.Fits i start ↔ start + 1 < efuseMaxAvailableLen ∧ w.Fits (i + 1) (start + 2) := by
  rw [PgWords.Fits, PgWords.Fits, PgWords.left_of_enabled hi hen]
  omega

theorem PgWords.fits_skip {w : PgWords} {i start : ℕ} (hi : i < efuseMaxWordUnit)
    (hen : ¬wordEnabled w.wordEn i = true) : w.Fits i start ↔ w.Fits (i + 1) start := by
  rw [PgWords.Fits, PgWords.Fits, PgWords.left_of_not_enabled hi hen]

namespace Programmer

theorem room_words {s : Efuse} {start : ℕ} {badworden : UInt8} {w : PgWords} {stack : List PgFrame}
    {r : UInt8} :
    Room ⟨s, .words 0 false start badworden w, stack⟩ r ↔ w.Fits 0 start := by
  rw [PgWords.Fits, PgWords.left_zero]
  exact or_congr_left (by omega)

/-- What is being programmed ends below the available size. -/
def Below (p : Programmer) : Prop :=
  match p.phase with
  | .header addr _ _ => addr < efuseMaxAvailableLen
  | .ext2 addr _ _ => addr < efuseMaxAvailableLen
  | .words i half start _ w => (i = 0 ∧ half = false) ∨ w.Fits i start
  | _ => True

variable {p : Programmer} {r : UInt8}

theorem Below.programs_lt (h : p.Below) (hroom : p.Room r) {addr : ℕ} {v : UInt8}
    (hp : p.programs = some (addr, v)) : addr < efuseMaxAvailableLen := by
  obtain ⟨s, phase, stack⟩ := p
  cases phase with
  | header a left target =>
    simp only [programs, Option.some.injEq, Prod.mk.injEq] at hp
    exact hp.1 ▸ h
  | ext a left target =>
    simp only [programs, Option.ite_none_right_eq_some, Option.some.injEq, Prod.mk.injEq] at hp
    exact hp.2.1 ▸ hp.1
  | ext2 a left target =>
    simp only [programs, Option.some.injEq, Prod.mk.injEq] at hp
    exact hp.1 ▸ h
  | words i half start badworden w =>
    simp only [programs, Option.ite_none_right_eq_some] at hp
    obtain ⟨⟨hi, hen⟩, hp⟩ := hp
    have hfits : w.Fits i start := by
      obtain ⟨rfl, rfl⟩ | hfits := h
      · exact room_words.mp hroom
      · exact hfits
    have hlt := ((PgWords.fits_next hi hen).mp hfits).1
    split_ifs at hp
    · simp only [Option.some.injEq, Prod.mk.injEq] at hp
      omega
    · simp only [Option.some.injEq, Prod.mk.injEq] at hp
      omega
  | write offset wordEn data => simp [programs] at hp
  | fix a offset wordEn frame => simp [programs] at hp
  | ret success => simp [programs] at hp

theorem below_resume (s : Efuse) (addr : ℕ) (frame : PgFrame) (stack : List PgFrame) :
    Below ⟨s, frame.resume addr, stack⟩ := by
  cases frame <;> trivial

theorem Below.step (h : p.Below) (hroom : p.Room r) : (p.step r).Below := by
  obtain ⟨s, phase, stack⟩ := p
  cases phase with
  | write offset wordEn data =>
    obtain ⟨n, hn, -, -, hblank⟩ := halEfuseGetCurrentSize_spec s
    have hstart : pgWriteStart s offset wordEn data = _ :=
      pgPacketWriteStart_spec _ _ hn hblank offset wordEn data
    simp only [Programmer.step, hstart]
    split_ifs with hlt
    · change Below ⟨_, PgPhase.writeHeader n (halEfuseConstructPGPkt offset wordEn data), stack⟩
      unfold PgPhase.writeHeader
      split_ifs
      · trivial
      · exact hlt
    · trivial
  | header addr left target =>
    simp only [Programmer.step]
    split_ifs
    · cases left with
      | zero => trivial
      | succ left => exact h
    · exact Or.inl ⟨rfl, rfl⟩
    · trivial
  | ext addr left target =>
    simp only [Programmer.step]
    split_ifs with haddr hr hhdr
    · cases left <;> trivial
    · exact hroom haddr hhdr
    · trivial
    · trivial
    · trivial
  | ext2 addr left target =>
    simp only [Programmer.step]
    split_ifs
    · cases left with
      | zero => trivial
      | succ left => exact h
    · cases left <;> trivial
    · trivial
    · exact Or.inl ⟨rfl, rfl⟩
  | fix addr offset wordEn frame =>
    simp only [Programmer.step]
    split
    · trivial
    · exact below_resume _ _ _ _
    · exact Or.inl ⟨rfl, rfl⟩
  | words i half start badworden w =>
    have hfits : (i = 0 ∧ half = false) ∨ w.Fits i start → w.Fits i start := fun h => by
      obtain ⟨rfl, rfl⟩ | hfits := h
      · exact room_words.mp hroom
      · exact hfits
    replace hfits := hfits h
    simp only [Programmer.step]
    split_ifs with hi hen hhalf
    · exact Or.inr ((PgWords.fits_next hi hen).mp hfits).2
    · exact Or.inr hfits
    · exact Or.inr ((PgWords.fits_skip hi hen).mp hfits)
    · obtain ⟨offset, wordEn, data, _ | ⟨next, frame⟩⟩ := w
      · simp only [PgWords.next]
        split_ifs <;> trivial
      · simp only [PgWords.next]
        split_ifs
        · exact below_resume _ _ _ _
        · trivial
  | ret success =>
    cases stack with
    | nil => trivial
    | cons frame stack =>
      simp only [Programmer.step]
      split_ifs
      · split
        · trivial
        · exact below_resume _ _ _ _
      · trivial

end Programmer

namespace PgRun

variable {r : PgRun}

theorem programs_lt_of_room (h : ∀ n, (r.stateAt n).Room (r.readBacks n)) (n : ℕ) {addr : ℕ}
    {v : UInt8}
    (hp : (r.stateAt n).programs = some (addr, v)) : addr < efuseMaxAvailableLen := by
  have hbelow : ∀ n, (r.stateAt n).Below := InfiniteRuns.invariant trivial fun n hn => hn.step (h n)
  exact (hbelow n).programs_lt (h n) hp

variable (h : ∀ n addr v, (r.stateAt n).programs = some (addr, v) → addr < efuseMaxAvailableLen)

include h

/-- All the words of a packet are programmed. -/
theorem fits_of_programs_lt {s : Efuse} {badworden : UInt8} {w : PgWords} {stack : List PgFrame}
    {i start n : ℕ}
    (hstate : r.stateAt n = ⟨s, .words i false start badworden w, stack⟩) : w.Fits i start := by
  by_cases hi : i < efuseMaxWordUnit
  · have hnext : r.stateAt (n + 1) = (r.stateAt n).step (r.readBacks n) := rfl
    rw [hstate] at hnext
    by_cases hen : wordEnabled w.wordEn i = true
    · simp only [Programmer.step, if_pos hi, if_pos hen, Bool.false_eq_true, if_false] at hnext
      have hnext2 : r.stateAt (n + 2) = (r.stateAt (n + 1)).step (r.readBacks (n + 1)) := rfl
      rw [hnext] at hnext2
      simp only [Programmer.step, if_pos hi, if_pos hen, if_true] at hnext2
      refine (PgWords.fits_next hi hen).mpr ⟨h (n + 1) (start + 1) (w.data (2 * i + 1)) ?_,
        fits_of_programs_lt hnext2⟩
      rw [hnext]
      simp only [Programmer.programs, if_pos (And.intro hi hen), if_true]
    · simp only [Programmer.step, if_pos hi, if_neg hen] at hnext
      exact (PgWords.fits_skip hi hen).mpr (fits_of_programs_lt hnext)
  · exact Or.inl (PgWords.left_end hi)
termination_by efuseMaxWordUnit - i

theorem room_of_programs_lt (n : ℕ) : (r.stateAt n).Room (r.readBacks n) := by
  generalize hp : r.stateAt n = p
  obtain ⟨s, phase, stack⟩ := p
  cases phase with
  | ext addr left target =>
    intro haddr hhdr
    have hnext : r.stateAt (n + 1) = (r.stateAt n).step (r.readBacks n) := rfl
    rw [hp] at hnext
    simp only [Programmer.step, if_pos haddr, if_neg (hhdr.symm ▸ pgHeaderExt_ne target.offset),
      if_pos hhdr] at hnext
    refine h (n + 1) (addr + 1) (pgHeaderExt2 target.offset target.wordEn) ?_
    rw [hnext]
    rfl
  | words i half start badworden w =>
    cases half with
    | true => cases i <;> trivial
    | false =>
      cases i with
      | zero => exact Programmer.room_words.mpr (fits_of_programs_lt h hp)
      | succ i => trivial
  | _ => trivial

end PgRun

/-- The call returns and stays below the available size exactly if everything that is begun has the
room, and the loop over the addresses of an extended header is not stuck for ever. -/
theorem PgRun.bounded_iff (r : PgRun) : r.Bounded ↔ (∀ n, (r.stateAt n).Room (r.readBacks n)) ∧
    ¬∃ n, ∀ m ≥ n, (r.stateAt m).Stuck (r.readBacks m) := by
  rw [PgRun.Bounded, r.finished_iff, and_comm]
  exact and_congr_left' ⟨room_of_programs_lt, fun h n _ _ hp => programs_lt_of_room h n hp⟩

/-- A first header byte that reads back as zero, again and again. -/
def stuckRun : PgRun := ⟨emptyEfuse, 16, 0x0E, fun _ => 1, fun _ => 0⟩

/-- The log of 26 packets of four words and one of one word, up to the address 237. -/
def fullEfuse : Efuse := ⟨fun k => if k < 237 then if k = 234 then 0x1E else 0x10 else 0xFF, 0, 0⟩

/-- A header that reads back at the last address below the available size. -/
def lateRun : PgRun := ⟨fullEfuse, 0, 0x0E, fun _ => 1, fun _ => 0x0E⟩

theorem stuckRun_stateAt : ∀ n, (stuckRun.stateAt (n + 1)).phase =
    .ext 0 (efuseRepeatThreshold + 1) (halEfuseConstructPGPkt 16 0x0E fun _ => 1)
  | 0 => rfl
  | n + 1 => by
    have hphase := stuckRun_stateAt n
    change ((stuckRun.stateAt (n + 1)).step 0).phase = _
    simp only [Programmer.step, hphase]
    rfl

/-- The loop never ends, or a word is programmed at the available size. -/
theorem not_bounded_stuckRun : ¬stuckRun.Bounded ∧ ¬lateRun.Bounded := by
  constructor
  · rintro ⟨⟨n, ⟨success, hret⟩, -⟩, -⟩
    cases n with
    | zero => simp [PgRun.stateAt, InfiniteRuns.stateAt] at hret
    | succ n =>
      rw [stuckRun_stateAt n] at hret
      simp at hret
  · rintro ⟨-, hbelow⟩
    have hprograms : (lateRun.stateAt 2).programs = some (238, 1) := by decide +kernel
    exact absurd (hbelow 2 238 1 hprograms) (by decide)

end Rtl8188eu
