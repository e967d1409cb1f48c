import Rtl8188eu.EfuseProgram

/-!
# The eFuse writer, byte by byte

`halEfusePgPacketWrite` is a recursive function of a chip, and `Programmer.step` programs one byte.
On a chip that changes no byte but the one that is programmed, the machine takes a call to its
result, on every stack of headers that wait (`reaches_pgPacketWrite`). So a call that returns is one
of the runs of `PgRun` (`returns_onChip`), and what `bounded_iff` says about them holds of the
functions.
-/

namespace Rtl8188eu

/-- Programming a byte changes no other byte. -/
def Chip.OneByte (chip : Chip) : Prop :=
  ∀ t cells addr v, chip t cells addr v = Function.update cells addr (chip t cells addr v addr)

namespace Programmer

variable (chip : Chip)

/-- What reads back in the next step. -/
def readsBack (p : Programmer) : UInt8 :=
    p.programs.elim 0 fun byte =>
      chip p.efuse.programmed p.efuse.cells byte.1 byte.2 byte.1

def stepOn (p : Programmer) : Programmer := p.step (p.readsBack chip)

def Reaches : Programmer → Programmer → Prop := Relation.ReflTransGen fun p q => p.stepOn chip = q

variable {chip} {p q : Programmer} {s s' : Efuse} {stack : List PgFrame}

theorem reaches_step (h : p.programs = none) (hq : p.step 0 = q) : Reaches chip p q := by
  refine Relation.ReflTransGen.single ?_
  rw [stepOn, readsBack, h]
  exact hq

theorem reaches_program {addr : ℕ} {v : UInt8} (h : p.programs = some (addr, v))
    (hq : p.step ((efuseOneByteWrite chip p.efuse addr v).cells addr) = q) : Reaches chip p q := by
  refine Relation.ReflTransGen.single ?_
  rw [stepOn, readsBack, h]
  exact hq

theorem readBack_eq (hchip : chip.OneByte) (s : Efuse) (addr : ℕ) (v : UInt8) :
    s.readBack addr ((efuseOneByteWrite chip s addr v).cells addr) =
      efuseOneByteWrite chip s addr v := by
  rw [Efuse.readBack, efuseOneByteWrite]
  congr 1
  exact (hchip _ s.cells addr v).symm

/-- The loop that writes a header byte again. `P` is the phase with a repeat count, and `Q` what
follows on a byte that is not blank. -/
theorem reaches_rewriteHeader (stack : List PgFrame) (hchip : chip.OneByte) {P : ℕ → PgPhase}
    {Q : ℕ → UInt8 → PgPhase} {addr : ℕ}
    {hdr : UInt8} (hprog : ∀ s left, programs ⟨s, P left, stack⟩ = some (addr, hdr))
    (hzero : ∀ s, step ⟨s, P 0, stack⟩ 0xFF = ⟨s.readBack addr 0xFF, .ret false, stack⟩)
    (hsucc : ∀ s left, step ⟨s, P (left + 1), stack⟩ 0xFF = ⟨s.readBack addr 0xFF, P left, stack⟩)
    (hstep : ∀ s left r, r ≠ 0xFF →
      step ⟨s, P left, stack⟩ r = ⟨s.readBack addr r, Q left r, stack⟩) {left : ℕ}
    {found : Option ℕ}
    (h : rewriteHeader chip hdr left (efuseOneByteWrite chip s addr hdr) addr = (s', found)) :
    Reaches chip ⟨s, P left, stack⟩
      ⟨s', found.elim (.ret false) fun left => Q left (s'.cells addr), stack⟩ := by
  induction left generalizing s with
  | zero =>
    rw [rewriteHeader] at h
    have hback := readBack_eq hchip s addr hdr
    by_cases hr : (efuseOneByteWrite chip s addr hdr).cells addr = 0xFF
    · rw [if_pos hr] at h
      cases h
      rw [hr] at hback
      refine reaches_program (hprog s 0) ?_
      rw [hr, hzero, hback]
      rfl
    · rw [if_neg hr] at h
      cases h
      refine reaches_program (hprog s 0) ((hstep s 0 _ hr).trans ?_)
      rw [hback]
      rfl
  | succ left ih =>
    rw [rewriteHeader] at h
    have hback := readBack_eq hchip s addr hdr
    by_cases hr : (efuseOneByteWrite chip s addr hdr).cells addr = 0xFF
    · rw [if_pos hr] at h
      rw [hr] at hback
      refine Relation.ReflTransGen.trans (reaches_program (hprog s (left + 1)) ?_) (ih h)
      rw [hr, hsucc, hback]
    · rw [if_neg hr] at h
      cases h
      refine reaches_program (hprog s (left + 1)) ((hstep s (left + 1) _ hr).trans ?_)
      rw [hback]
      rfl

/-- The words of `Hal_EfuseWordEnableDataWrite`, and what is called behind them. -/
theorem reaches_dataWriteLoop (stack : List PgFrame) (hchip : chip.OneByte) {w : PgWords}
    {start : ℕ} {badworden bad : UInt8} {n i : ℕ}
    (hn : n + i = efuseMaxWordUnit)
    (h : dataWriteLoop chip w.wordEn w.data n i s start badworden = (s', bad)) :
    Reaches chip ⟨s, .words i false start badworden w, stack⟩
      ⟨s', (w.next bad stack).1, (w.next bad stack).2⟩ := by
  induction n generalizing i s start badworden with
  | zero =>
    rw [dataWriteLoop] at h
    cases h
    have hi : ¬i < efuseMaxWordUnit := by omega
    refine reaches_step ?_ ?_
    · simp only [programs, hi, false_and, if_false]
    · simp only [step, hi, if_false]
  | succ n ih =>
    have hi : i < efuseMaxWordUnit := by omega
    rw [dataWriteLoop] at h
    by_cases hen : wordEnabled w.wordEn i = true
    · rw [if_pos hen] at h
      have hfirst : Reaches chip ⟨s, .words i false start badworden w, stack⟩
          ⟨efuseOneByteWrite chip s start (w.data (2 * i)), .words i true start badworden w,
            stack⟩ := by
        have hprog : programs ⟨s, .words i false start badworden w, stack⟩ =
          some (start, w.data (2 * i)) := by
          simp only [programs, hi, hen, and_self, if_true, Bool.false_eq_true, if_false]
        refine reaches_program hprog ?_
        simp only [step, hi, hen, if_true, Bool.false_eq_true, if_false]
        rw [readBack_eq hchip s]
      refine hfirst.trans (Relation.ReflTransGen.trans ?_ (ih (by omega) h))
      generalize efuseOneByteWrite chip s start (w.data (2 * i)) = s₁
      have hprog : programs ⟨s₁, .words i true start badworden w, stack⟩ =
          some (start + 1, w.data (2 * i + 1)) := by
        simp only [programs, hi, hen, and_self, if_true]
      have hkept : (efuseOneByteWrite chip s₁ (start + 1) (w.data (2 * i + 1))).cells start =
        s₁.cells start := by
        rw [efuseOneByteWrite, hchip _ s₁.cells]
        exact Function.update_of_ne (Nat.lt_succ_self start).ne _ _
      refine reaches_program hprog ?_
      simp only [step, hi, hen, if_true]
      rw [readBack_eq hchip s₁, hkept]
      rfl
    · rw [if_neg hen] at h
      refine Relation.ReflTransGen.trans (reaches_step ?_ ?_) (ih (by omega) h)
      · simp only [programs, hen, Bool.false_eq_true, and_false, if_false]
      · simp only [step, hi, hen, Bool.false_eq_true, if_true, if_false]

section

variable {pgWrite : Efuse → UInt8 → UInt8 → Bytes → Option (Efuse × Bool)}
  (hpg : ∀ {s offset wordEn data s' ok stack}, pgWrite s offset wordEn data = some (s', ok) →
    Reaches chip ⟨s, .write offset wordEn data, stack⟩ ⟨s', .ret ok, stack⟩)

include hpg

theorem reaches_fix (stack : List PgFrame) (hchip : chip.OneByte) {offset wordEn : UInt8} {addr : ℕ}
    {next : Option ℕ} (frame : PgFrame)
    (h : halEfuseFixHeaderProcess chip pgWrite s offset wordEn addr = some (s', next)) :
    Reaches chip ⟨s, .fix addr offset wordEn frame, stack⟩
      ⟨s', next.elim (.ret false) fun addr => frame.resume addr, stack⟩ := by
  obtain ⟨⟨exist, data⟩, hread, h⟩ := Option.bind_eq_some_iff.mp h
  cases exist with
  | false =>
    simp only [Bool.false_eq_true, if_false, Option.some.injEq, Prod.mk.injEq] at h
    obtain ⟨rfl, rfl⟩ := h
    exact reaches_step rfl (by simp only [step, hread]; rfl)
  | true =>
    simp only [if_true] at h
    generalize hwords : halEfuseWordEnableDataWrite chip s (addr + 1) wordEn data = written at h
    obtain ⟨s₁, bad⟩ := written
    have hfirst : Reaches chip ⟨s, .fix addr offset wordEn frame, stack⟩
        ⟨s, .words 0 false (addr + 1) 0x0F
          ⟨offset, wordEn, data,
          some (addr + efuseCalculateWordCnts wordEn * 2 + 1, frame)⟩, stack⟩ :=
      reaches_step rfl (by simp only [step, hread])
    have hwritten := reaches_dataWriteLoop stack hchip (w := ⟨offset, wordEn, data,
      some (addr + efuseCalculateWordCnts wordEn * 2 + 1, frame)⟩) rfl hwords
    refine hfirst.trans (hwritten.trans ?_)
    simp only [PgWords.next]
    by_cases hbad : bad = 0x0F
    · simp only [hbad, ne_eq, not_true_eq_false, if_false, Option.some.injEq, Prod.mk.injEq] at h
      obtain ⟨rfl, rfl⟩ := h
      rw [if_pos hbad]
      exact Relation.ReflTransGen.refl
    · rw [if_neg hbad]
      simp only [ne_eq, hbad, not_false_eq_true, if_true] at h
      obtain ⟨⟨s₂, ok⟩, hwrite, h⟩ := Option.bind_eq_some_iff.mp h
      refine (hpg hwrite).trans ?_
      cases ok with
      | false =>
        simp only [Bool.false_eq_true, if_false, Option.some.injEq, Prod.mk.injEq] at h
        obtain ⟨rfl, rfl⟩ := h
        exact reaches_step rfl rfl
      | true =>
        simp only [if_true] at h
        obtain ⟨⟨s₃, size⟩, hsize, h⟩ := Option.bind_eq_some_iff.mp h
        cases h
        exact reaches_step rfl (by simp only [step, hsize, if_true]; rfl)

theorem reaches_header (hchip : chip.OneByte) {addr : ℕ} {target : PgPkt} {found : Option ℕ}
    (h : halEfusePgPacketWrite1ByteHeader chip pgWrite s addr target = some (s', found)) :
    Reaches chip ⟨s, .header addr (efuseRepeatThreshold + 1) target, stack⟩
      ⟨s', found.elim (.ret false) fun addr => .writeData addr target, stack⟩ := by
  unfold halEfusePgPacketWrite1ByteHeader at h
  dsimp only at h
  generalize hre : rewriteHeader chip (pgHeader1 target.offset target.wordEn)
    (efuseRepeatThreshold + 1)
    (efuseOneByteWrite chip s addr (pgHeader1 target.offset target.wordEn)) addr = re at h
  obtain ⟨s₁, left⟩ := re
  have hfirst := reaches_rewriteHeader stack (P := fun left => .header addr left target)
    (Q := fun _ r => if pgHeader1 target.offset target.wordEn = r then .writeData addr target
      else .fix addr ((r >>> 4) &&& 0x0F) (r &&& 0x0F) .oneByte) hchip (fun _ _ => rfl)
      (fun _ => rfl)
    (fun _ _ => rfl) (fun s left r hr => by simp only [step, if_neg hr]; split_ifs <;> rfl) hre
  refine hfirst.trans ?_
  cases left with
  | none =>
    cases h
    exact Relation.ReflTransGen.refl
  | some left =>
    simp only [Option.elim_some]
    dsimp only at h
    by_cases hhdr : pgHeader1 target.offset target.wordEn = s₁.cells addr
    · rw [if_pos hhdr] at h
      cases h
      rw [if_pos hhdr]
      exact Relation.ReflTransGen.refl
    · rw [if_neg hhdr] at h
      rw [if_neg hhdr]
      obtain ⟨⟨s₂, next⟩, hfix, h⟩ := Option.bind_eq_some_iff.mp h
      cases h
      have hfixed := reaches_fix hpg stack hchip .oneByte hfix
      -- whatever comes of the fixing, the header has failed
      cases next <;> exact hfixed

/-- The second byte of an extended header. `loop` is the rest of the loop over the addresses. -/
theorem reaches_ext2 (hchip : chip.OneByte) {target : PgPkt} {addr left : ℕ} {found : Option ℕ}
    {loop : Efuse → ℕ → ℕ → Option (Efuse × Option ℕ)}
    (hloop : ∀ {s addr left}, loop s addr left = some (s', found) →
    Reaches chip ⟨s, .ext addr left target, stack⟩
      ⟨s', found.elim (.ret false) fun addr => .writeData addr target, stack⟩)
    (h : (match rewriteHeader chip (pgHeaderExt2 target.offset target.wordEn) left
        (efuseOneByteWrite chip s addr (pgHeaderExt2 target.offset target.wordEn)) addr with
      | (s, none) => some (s, none)
      | (s, some left) =>
        if allWordsDisabled (s.cells addr) then
          match left with
          | 0 => some (s, none)
          | left + 1 => loop s (addr + 1) left
        else if pgHeaderExt2 target.offset target.wordEn ≠ s.cells addr then do
          let (s, next) ← halEfuseFixHeaderProcess chip pgWrite s
            (((pgHeaderExt target.offset &&& 0xE0) >>> 5) ||| ((s.cells addr &&& 0xF0) >>> 1))
            (s.cells addr &&& 0x0F) addr
          match next with
          | none => some (s, none)
          | some addr => loop s addr left
        else some (s, some addr)) = some (s', found)) :
    Reaches chip ⟨s, .ext2 addr left target, stack⟩
      ⟨s', found.elim (.ret false) fun addr => .writeData addr target, stack⟩ := by
  generalize hre : rewriteHeader chip (pgHeaderExt2 target.offset target.wordEn) left
    (efuseOneByteWrite chip s addr (pgHeaderExt2 target.offset target.wordEn)) addr = re at h
  obtain ⟨s₁, left₁⟩ := re
  have hfirst := reaches_rewriteHeader stack (P := fun left => .ext2 addr left target)
    (Q := fun left r => if allWordsDisabled r then
        match left with
        | 0 => .ret false
        | left + 1 => .ext (addr + 1) left target
      else if pgHeaderExt2 target.offset target.wordEn ≠ r then
        .fix addr (((pgHeaderExt target.offset &&& 0xE0) >>> 5) ||| ((r &&& 0xF0) >>> 1))
        (r &&& 0x0F)
          (.twoByte left target)
      else .writeData addr target) hchip (fun _ _ => rfl) (fun _ => rfl) (fun _ _ => rfl)
    (fun s left r hr => by
      simp only [step, if_neg hr]
      split_ifs
      · cases left <;> rfl
      · rfl
      · rfl) hre
  refine hfirst.trans ?_
  cases left₁ with
  | none =>
    cases h
    exact Relation.ReflTransGen.refl
  | some left₁ =>
    simp only [Option.elim_some]
    dsimp only at h
    by_cases hall : allWordsDisabled (s₁.cells addr) = true
    · rw [if_pos hall] at h
      rw [if_pos hall]
      cases left₁ with
      | zero =>
        cases h
        exact Relation.ReflTransGen.refl
      | succ left₁ => exact hloop h
    · rw [if_neg hall] at h
      rw [if_neg hall]
      by_cases hne : pgHeaderExt2 target.offset target.wordEn ≠ s₁.cells addr
      · rw [if_pos hne] at h
        rw [if_pos hne]
        obtain ⟨⟨s₂, next⟩, hfix, h⟩ := Option.bind_eq_some_iff.mp h
        refine (reaches_fix hpg stack hchip (.twoByte left₁ target) hfix).trans ?_
        cases next with
        | none =>
          cases h
          exact Relation.ReflTransGen.refl
        | some addr => exact hloop h
      · rw [if_neg hne] at h
        cases h
        rw [if_neg hne]
        exact Relation.ReflTransGen.refl

/-- The loop over the addresses of an extended header. -/
theorem reaches_write2ByteHeaderLoop (hchip : chip.OneByte) {target : PgPkt} {fuel addr left : ℕ}
    {found : Option ℕ}
    (h : write2ByteHeaderLoop chip pgWrite target fuel s addr left = some (s', found)) :
    Reaches chip ⟨s, .ext addr left target, stack⟩
      ⟨s', found.elim (.ret false) fun addr => .writeData addr target, stack⟩ := by
  induction fuel generalizing s addr left with
  | zero => simp [write2ByteHeaderLoop] at h
  | succ fuel ih =>
    rw [write2ByteHeaderLoop] at h
    by_cases haddr : addr < efuseMaxAvailableLen
    · rw [if_pos haddr] at h
      dsimp only at h
      generalize hre : rewriteHeader chip (pgHeaderExt target.offset) left
        (efuseOneByteWrite chip s addr (pgHeaderExt target.offset)) addr = re at h
      obtain ⟨s₁, left₁⟩ := re
      have hfirst := reaches_rewriteHeader stack (P := fun left => .ext addr left target)
        (Q := fun left r => if r = pgHeaderExt target.offset then .ext2 (addr + 1) left target
          else if extHeader r then .ext (addr + 2) left target else .ext addr left target) hchip
        (fun _ _ => if_pos haddr) (fun _ => by simp only [step, if_pos haddr]; rfl)
        (fun _ _ => by simp only [step, if_pos haddr]; rfl)
        (fun s left r hr => by simp only [step, if_pos haddr, if_neg hr]; split_ifs <;> rfl) hre
      refine hfirst.trans ?_
      cases left₁ with
      | none =>
        cases h
        exact Relation.ReflTransGen.refl
      | some left₁ =>
        simp only [Option.elim_some]
        dsimp only at h
        by_cases hhdr : s₁.cells addr = pgHeaderExt target.offset
        · rw [if_pos hhdr] at h
          rw [if_pos hhdr]
          exact reaches_ext2 hpg hchip (fun h => ih h) h
        · rw [if_neg hhdr] at h
          rw [if_neg hhdr]
          by_cases hext : extHeader (s₁.cells addr) = true
          · rw [if_pos hext] at h
            rw [if_pos hext]
            exact ih h
          · rw [if_neg hext] at h
            rw [if_neg hext]
            exact ih h
    · rw [if_neg haddr] at h
      cases h
      refine reaches_step ?_ ?_
      · simp only [programs, if_neg haddr]
      · simp only [step, if_neg haddr]
        rfl

theorem reaches_writeHeader (hchip : chip.OneByte) {target : PgPkt} {rounds addr : ℕ}
    {found : Option ℕ} (h : halEfusePgPacketWriteHeader chip pgWrite rounds s addr target = some (s', found)) :
    Reaches chip ⟨s, .writeHeader addr target, stack⟩
      ⟨s', found.elim (.ret false) fun addr => .writeData addr target, stack⟩ := by
  unfold halEfusePgPacketWriteHeader at h
  unfold PgPhase.writeHeader
  split_ifs at h ⊢
  · exact reaches_write2ByteHeaderLoop hpg hchip h
  · exact reaches_header hpg hchip h

theorem reaches_writeData (hchip : chip.OneByte) {target : PgPkt} {addr : ℕ} {ok : Bool}
    (h : halEfusePgPacketWriteData chip pgWrite s addr target = some (s', ok)) :
    Reaches chip ⟨s, .writeData addr target, stack⟩ ⟨s', .ret ok, stack⟩ := by
  unfold halEfusePgPacketWriteData at h
  generalize hwords : halEfuseWordEnableDataWrite chip s (addr + 1) target.wordEn target.data =
    written at h
  obtain ⟨s₁, bad⟩ := written
  have hwritten := reaches_dataWriteLoop stack hchip
    (w := ⟨target.offset, target.wordEn, target.data, none⟩) rfl hwords
  refine hwritten.trans ?_
  simp only [PgWords.next]
  dsimp only at h
  by_cases hbad : bad = 0x0F
  · rw [if_pos hbad] at h
    cases h
    rw [if_pos hbad]
  · rw [if_neg hbad] at h
    rw [if_neg hbad]
    exact hpg h

end

/-- The machine takes every call that returns to its result. -/
theorem reaches_pgPacketWrite (hchip : chip.OneByte) {offset wordEn : UInt8} {data : Bytes}
    {ok : Bool} {depth : ℕ}
    (h : halEfusePgPacketWrite chip depth s offset wordEn data = some (s', ok)) :
    Reaches chip ⟨s, .write offset wordEn data, stack⟩ ⟨s', .ret ok, stack⟩ := by
  induction depth generalizing s s' offset wordEn data ok stack with
  | zero => simp [halEfusePgPacketWrite] at h
  | succ depth ih =>
    obtain ⟨⟨s₁, start⟩, hstart, h⟩ := Option.bind_eq_some_iff.mp h
    rw [pgPacketWriteStart_eq] at hstart
    cases start with
    | none =>
      cases h
      exact reaches_step rfl (by simp only [step, hstart])
    | some found =>
      obtain ⟨addr, target⟩ := found
      obtain ⟨⟨s₂, header⟩, hheader, h⟩ := Option.bind_eq_some_iff.mp h
      have hfirst : Reaches chip ⟨s, .write offset wordEn data, stack⟩
        ⟨s₁, .writeHeader addr target, stack⟩ :=
        reaches_step rfl (by simp only [step, hstart])
      refine hfirst.trans ((reaches_writeHeader ih hchip hheader).trans ?_)
      cases header with
      | none =>
        cases h
        exact Relation.ReflTransGen.refl
      | some addr => exact reaches_writeData ih hchip h

theorem Reaches.exists_iterate (h : Reaches chip p q) : ∃ n, (stepOn chip)^[n] p = q := by
  induction h with
  | refl => exact ⟨0, rfl⟩
  | tail _ hstep ih =>
    obtain ⟨n, rfl⟩ := ih
    exact ⟨n + 1, (Function.iterate_succ_apply' _ _ _).trans hstep⟩

end Programmer

namespace PgRun

variable {chip : Chip} {s s' : Efuse} {offset wordEn : UInt8} {data : Bytes}

/-- The run of a call on a chip. -/
def onChip (chip : Chip) (s : Efuse) (offset wordEn : UInt8) (data : Bytes) : PgRun :=
  ⟨s, offset, wordEn, data, fun n =>
    ((Programmer.stepOn chip)^[n] ⟨s, .write offset wordEn data, []⟩).readsBack chip⟩

theorem stateAt_onChip (chip : Chip) (s : Efuse) (offset wordEn : UInt8) (data : Bytes) :
    ∀ n, (onChip chip s offset wordEn data).stateAt n =
      (Programmer.stepOn chip)^[n] ⟨s, .write offset wordEn data, []⟩
  | 0 => rfl
  | n + 1 => by
    have hn := stateAt_onChip chip s offset wordEn data n
    change ((onChip chip s offset wordEn data).stateAt n).step _ = _
    rw [Function.iterate_succ_apply', hn]
    rfl

/-- A call that returns is a run that gets to its result. -/
theorem returns_onChip (hchip : chip.OneByte) {depth : ℕ} {ok : Bool}
    (h : halEfusePgPacketWrite chip depth s offset wordEn data = some (s', ok)) :
    ∃ n, (onChip chip s offset wordEn data).stateAt n = ⟨s', .ret ok, []⟩ := by
  obtain ⟨n, hn⟩ := (Programmer.reaches_pgPacketWrite hchip h).exists_iterate
  exact ⟨n, (stateAt_onChip chip s offset wordEn data n).trans hn⟩

theorem returns_onChip_fuseChip : ∃ s' n,
    (onChip fuseChip emptyEfuse 0 0x0e (listBytes [1, 2])).stateAt n = ⟨s', .ret true, []⟩ := by
  have hchip : fuseChip.OneByte := fun _ cells addr v => by
    rw [fuseChip, Function.update_self]
  have hret : (halEfusePgPacketWrite fuseChip 1 emptyEfuse 0 0x0e (listBytes [1, 2])).map Prod.snd =
      some true := by
    decide +kernel
  obtain ⟨⟨s', _⟩, h, rfl⟩ := Option.map_eq_some_iff.mp hret
  exact ⟨s', returns_onChip hchip h⟩

end PgRun

end Rtl8188eu
