import Mathlib.Data.Int.Notation
import Mathlib.Data.List.Forall2
import Rtl8188eu.MaskedWrites

/-!
# Power sequences

A power sequence is a table of commands for the registers of the chip. `HalPwrSeqCmdParsing` runs
the rows that are for the cut, the fab and the interface of the device, up to the row that ends the
table.

Whatever the chip does, the function returns (`halPwrSeqCmdParsing_spec`). If it returns true, each
row did its accesses, every poll read what it waits for, and each bit that the chip leaves alone is
as the last row says that writes it. It returns false behind 5002 polls, even if the last one is
a hit, since all rows share `poll_count`.
-/

namespace Rtl8188eu

open MaskedWrites

/-! ## The tables -/

/-- `PWR_CMD_READ` to `PWR_CMD_END`. The other numbers in the four bits are unknown commands. -/
inductive PwrCmd
  | read | write | polling | delay | finish | unknown
  deriving DecidableEq

/-- `struct wl_pwr_cfg`. The base is only printed. -/
structure WlPwrCfg where
  offset : BitVec 16
  cutMsk : BitVec 8
  fabMsk : BitVec 4
  interfaceMsk : BitVec 4
  cmd : PwrCmd
  msk : BitVec 8
  value : BitVec 8

/-- `cut_vers`, `fab_vers` and `ifacetype`. -/
structure PwrVersion where
  cut : BitVec 8
  fab : BitVec 8
  iface : BitVec 8

namespace WlPwrCfg

def Matches (v : PwrVersion) (c : WlPwrCfg) : Prop :=
  c.fabMsk.setWidth 8 &&& v.fab ≠ 0 ∧ c.cutMsk &&& v.cut ≠ 0 ∧
    c.interfaceMsk.setWidth 8 &&& v.iface ≠ 0

instance (v : PwrVersion) (c : WlPwrCfg) : Decidable (c.Matches v) :=
  inferInstanceAs (Decidable (_ ∧ _))

/-- What a polling row waits for. -/
def Hit (c : WlPwrCfg) (value : BitVec 8) : Prop := value &&& c.msk = c.value &&& c.msk

instance (c : WlPwrCfg) (value : BitVec 8) : Decidable (c.Hit value) :=
  inferInstanceAs (Decidable (_ = _))

/-- The time of a delay row, in µs (`PWRSEQ_DELAY_US` is 0). -/
def delayUs (c : WlPwrCfg) : ℕ :=
  if c.value = 0 then c.offset.toNat else c.offset.toNat * 1000

def masked (c : WlPwrCfg) : Option (MaskedWrite (BitVec 16) 8) :=
  if c.cmd = .write then some ⟨c.offset, c.msk, c.value⟩ else none

end WlPwrCfg

/-! ## The bus -/

inductive PwrAccess
  | read (offset : BitVec 16) (value : BitVec 8)
  | write (offset : BitVec 16) (value : BitVec 8)
  | delay (us : ℕ)

namespace PwrAccess

def IsRead : PwrAccess → Bool
  | read .. => true
  | _ => false

def IsWrite : PwrAccess → Bool
  | write .. => true
  | _ => false

/-- The polls of a log. A row that writes reads once, so they are the reads there are more of. -/
def polls (log : List PwrAccess) : ℤ := log.countP IsRead - log.countP IsWrite

theorem polls_append (log log' : List PwrAccess) : polls (log ++ log') = polls log + polls log' := by
  simp only [polls, List.countP_append]
  omega

end PwrAccess

/-- The registers, and what the driver did with them. -/
structure PwrBus where
  regs : BitVec 16 → BitVec 8
  log : List PwrAccess

/-- What becomes of the registers before the next access, with what the driver did until then. -/
abbrev PwrChip := List PwrAccess → (BitVec 16 → BitVec 8) → BitVec 16 → BitVec 8

/-- The chip never changes a bit by itself. -/
def PwrChip.Leaves (chip : PwrChip) (a : BitVec 16) (i : ℕ) : Prop :=
  ∀ log regs, (chip log regs a).getLsbD i = (regs a).getLsbD i

namespace PwrBus

def rtwRead8 (chip : PwrChip) (a : BitVec 16) (s : PwrBus) : BitVec 8 × PwrBus :=
  let regs := chip s.log s.regs
  (regs a, ⟨regs, s.log ++ [.read a (regs a)]⟩)

def rtwWrite8 (chip : PwrChip) (a : BitVec 16) (value : BitVec 8) (s : PwrBus) : PwrBus :=
  ⟨Function.update (chip s.log s.regs) a value, s.log ++ [.write a value]⟩

def rtwUdelayOs (us : ℕ) (s : PwrBus) : PwrBus := { s with log := s.log ++ [.delay us] }

end PwrBus

/-! ## `HalPwrSeqCmdParsing` -/

section Parsing

variable (chip : PwrChip) (v : PwrVersion)

/-- The polling loop. `left` is how often `poll_count++ > max_poll_count` will still be false. -/
def pollLoop (c : WlPwrCfg) : ℕ → PwrBus → Option ℕ × PwrBus
  | left, s =>
    let r := s.rtwRead8 chip c.offset
    let s := if c.Hit r.1 then r.2 else r.2.rtwUdelayOs 10
    match left with
    | 0 => (none, s)
    | left + 1 => if c.Hit r.1 then (some left, s) else pollLoop c left s

/-- The switch, for the commands that do not end the table, or `none` where it returns false. -/
def handleCmd (c : WlPwrCfg) (left : ℕ) (s : PwrBus) : Option ℕ × PwrBus :=
  match c.cmd with
  | .write =>
    let r := s.rtwRead8 chip c.offset
    (some left, r.2.rtwWrite8 chip c.offset ((r.1 &&& ~~~c.msk) ||| (c.value &&& c.msk)))
  | .polling => pollLoop chip c left s
  | .delay => (some left, s.rtwUdelayOs c.delayUs)
  | _ => (some left, s)

/-- The loop over the table, or `none` if it reads behind the table. -/
def pwrSeqLoop : List WlPwrCfg → ℕ → PwrBus → Option (Bool × PwrBus)
  | [], _, _ => none
  | c :: cs, left, s =>
    if c.Matches v then
      if c.cmd = .finish then some (true, s)
      else
        match handleCmd chip c left s with
        | (some left, s) => pwrSeqLoop cs left s
        | (none, s) => some (false, s)
    else pwrSeqLoop cs left s

def maxPollCount : ℕ := 5000

def halPwrSeqCmdParsing (cmds : List WlPwrCfg) (s : PwrBus) : Option (Bool × PwrBus) :=
  pwrSeqLoop chip v cmds (maxPollCount + 1) s

/-! ## The sequence in a table -/

/-- The rows that are run, if one of them ends the table. -/
def pwrSeq : List WlPwrCfg → Option (List WlPwrCfg)
  | [] => none
  | c :: cs =>
    if c.Matches v then if c.cmd = .finish then some [] else (pwrSeq cs).map (c :: ·)
    else pwrSeq cs

/-- The accesses of a row that is done. -/
inductive Served (c : WlPwrCfg) : List PwrAccess → Prop
  | nothing (h : c.cmd = .read ∨ c.cmd = .unknown) : Served c []
  | write (h : c.cmd = .write) (old : BitVec 8) :
      Served c [.read c.offset old, .write c.offset (blend c.msk c.value old)]
  | delay (h : c.cmd = .delay) : Served c [.delay c.delayUs]
  | polling (h : c.cmd = .polling) {misses : List (BitVec 8)} (hmiss : ∀ x ∈ misses, ¬c.Hit x)
      {value : BitVec 8} (hit : c.Hit value) :
      Served c (misses.flatMap (fun x => [.read c.offset x, .delay 10]) ++ [.read c.offset value])

/-- The rows were run. -/
structure PwrSeqDone (p : List WlPwrCfg) (s s' : PwrBus) : Prop where
  log : ∃ segs, List.Forall₂ Served p segs ∧ s'.log = s.log ++ segs.flatten
  bit : ∀ a i, chip.Leaves a i → (s'.regs a).getLsbD i =
    covered a i ((s.regs a).getLsbD i) (p.filterMap WlPwrCfg.masked)

end Parsing

/-! ## What a row does -/

variable {chip : PwrChip} {v : PwrVersion} {c : WlPwrCfg} {p q cmds : List WlPwrCfg}
  {left left' : ℕ} {s t s' : PwrBus}

/-- A row that polls missed `n` times, before `last`. -/
structure Polled (chip : PwrChip) (c : WlPwrCfg) (n : ℕ) (last : List PwrAccess) (s s' : PwrBus) :
    Prop where
  bit : ∀ a i, chip.Leaves a i → (s'.regs a).getLsbD i = (s.regs a).getLsbD i
  log : ∃ misses : List (BitVec 8), misses.length = n ∧ (∀ x ∈ misses, ¬c.Hit x) ∧
    s'.log = s.log ++ (misses.flatMap (fun x => [.read c.offset x, .delay 10]) ++ last)

theorem Polled.length_log {n : ℕ} {last : List PwrAccess} (h : Polled chip c n last s s') :
    s'.log.length = s.log.length + 2 * n + last.length := by
  obtain ⟨misses, rfl, -, hlog⟩ := h.log
  rw [hlog]
  simp
  omega

theorem polls_misses (c : WlPwrCfg) (misses : List (BitVec 8)) : PwrAccess.polls
    (misses.flatMap fun x => [.read c.offset x, .delay 10]) = misses.length := by
  induction misses with
  | nil => rfl
  | cons x misses ih =>
    rw [List.flatMap_cons, PwrAccess.polls_append, ih, List.length_cons, Int.natCast_succ, Int.add_comm]
    rfl

theorem Polled.polls_log {n : ℕ} {last : List PwrAccess} (h : Polled chip c n last s s') :
    PwrAccess.polls s'.log = PwrAccess.polls s.log + n + PwrAccess.polls last := by
  obtain ⟨misses, rfl, -, hlog⟩ := h.log
  rw [hlog, PwrAccess.polls_append, PwrAccess.polls_append, polls_misses, Int.add_assoc]

theorem polled_hit (c : WlPwrCfg) (s : PwrBus) : Polled chip c 0
    [.read c.offset (s.rtwRead8 chip c.offset).1] s (s.rtwRead8 chip c.offset).2 :=
  ⟨fun _ _ ha => ha _ _, [], rfl, by simp, rfl⟩

/-- A miss, and what follows. -/
theorem Polled.cons {n : ℕ} {last : List PwrAccess} (hmiss : ¬c.Hit (s.rtwRead8 chip c.offset).1)
    (h : Polled chip c n last ((s.rtwRead8 chip c.offset).2.rtwUdelayOs 10) s') :
    Polled chip c (n + 1) last s s' := by
  obtain ⟨misses, rfl, hmisses, hlog⟩ := h.log
  refine ⟨fun a i ha => (h.bit a i ha).trans (ha _ _), _ :: misses, rfl,
    List.forall_mem_cons.mpr ⟨hmiss, hmisses⟩, ?_⟩
  rw [hlog]
  simp [PwrBus.rtwUdelayOs, PwrBus.rtwRead8]

/-- The last poll of a row that fails is a miss like the ones before, or a hit that comes too late. -/
def LastPoll (c : WlPwrCfg) (last : List PwrAccess) : Prop :=
  last = [] ∨ ∃ value, c.Hit value ∧ last = [.read c.offset value]

theorem LastPoll.polls {last : List PwrAccess} (h : LastPoll c last) :
    PwrAccess.polls last = last.length := by
  obtain rfl | ⟨value, -, rfl⟩ := h <;> rfl

/-- The loop ends with a hit, or behind as many reads as `poll_count` allows. -/
theorem pollLoop_spec (chip : PwrChip) (c : WlPwrCfg) : ∀ (left : ℕ) (s : PwrBus),
    (∃ left' n s' value, pollLoop chip c left s = (some left', s') ∧ n + 1 + left' = left ∧
      c.Hit value ∧ Polled chip c n [.read c.offset value] s s') ∨
    ∃ n last s', pollLoop chip c left s = (none, s') ∧ n + last.length = left + 1 ∧
      LastPoll c last ∧ Polled chip c n last s s'
  | 0, s => by
    right
    by_cases h : c.Hit (s.rtwRead8 chip c.offset).1
    · exact ⟨_, _, _, by rw [pollLoop, if_pos h], rfl, .inr ⟨_, h, rfl⟩, polled_hit c s⟩
    · exact ⟨1, [], _, by rw [pollLoop, if_neg h], rfl, .inl rfl,
        Polled.cons h ⟨fun _ _ _ => rfl, [], rfl, by simp, by simp⟩⟩
  | left + 1, s => by
    by_cases h : c.Hit (s.rtwRead8 chip c.offset).1
    · refine Or.inl ⟨left, 0, (s.rtwRead8 chip c.offset).2, _, ?_, by omega, h, polled_hit c s⟩
      rw [pollLoop]
      simp only [if_pos h]
    · have hloop : pollLoop chip c (left + 1) s =
          pollLoop chip c left ((s.rtwRead8 chip c.offset).2.rtwUdelayOs 10) := by
        rw [pollLoop]
        simp only [if_neg h]
      rw [hloop]
      obtain ⟨l, n, s', value, heq, hn, hit, hp⟩ | ⟨n, last, s', heq, hn, hlast, hp⟩ :=
        pollLoop_spec chip c left _
      · exact Or.inl ⟨l, n + 1, s', value, heq, by omega, hit, hp.cons h⟩
      · exact Or.inr ⟨n + 1, last, s', heq, by omega, hlast, hp.cons h⟩

/-- Where the function returns false : a polling row failed behind rows that were done, with one poll
more than all rows together may miss. -/
def PwrSeqStuck (chip : PwrChip) (p : List WlPwrCfg) (left : ℕ) (s s' : PwrBus) : Prop :=
  (∃ q d u n last, q ++ [d] <+: p ∧ d.cmd = .polling ∧ PwrSeqDone chip q s u ∧ LastPoll d last ∧
    Polled chip d n last u s') ∧
  PwrAccess.polls s'.log = PwrAccess.polls s.log + left + 1

/-- What running the rows did, with `left` more polls to go : those that `r` says are left, or none
if a poll failed. -/
structure PwrRan (chip : PwrChip) (p : List WlPwrCfg) (left : ℕ) (s : PwrBus) (r : Option ℕ)
    (s' : PwrBus) : Prop where
  length : s'.log.length + 2 * r.getD 0 ≤ s.log.length + 2 * p.length + 2 * left
  polls : ∀ left', r = some left' →
    PwrAccess.polls s'.log + left' = PwrAccess.polls s.log + left
  done : r ≠ none → PwrSeqDone chip p s s'
  stuck : r = none → PwrSeqStuck chip p left s s'

theorem PwrSeqDone.refl (s : PwrBus) : PwrSeqDone chip [] s s :=
  ⟨⟨[], List.Forall₂.nil, by simp⟩, fun _ _ _ => rfl⟩

theorem PwrSeqDone.append (h : PwrSeqDone chip p s t) (h' : PwrSeqDone chip q t s') :
    PwrSeqDone chip (p ++ q) s s' := by
  obtain ⟨segs, hsegs, hlog⟩ := h.log
  obtain ⟨segs', hsegs', hlog'⟩ := h'.log
  refine ⟨⟨segs ++ segs', List.rel_append hsegs hsegs', ?_⟩, fun a i ha => ?_⟩
  · rw [hlog', hlog, List.flatten_append, List.append_assoc]
  · rw [h'.bit a i ha, h.bit a i ha, List.filterMap_append, covered, covered, covered,
      List.foldl_append]

/-- A row whose accesses are `seg`. -/
theorem PwrSeqDone.of_served {seg : List PwrAccess} (hseg : Served c seg)
    (hlog : s'.log = s.log ++ seg)
    (hbit : ∀ a i, chip.Leaves a i → (s'.regs a).getLsbD i =
      covered a i ((s.regs a).getLsbD i) ([c].filterMap WlPwrCfg.masked)) :
    PwrSeqDone chip [c] s s' :=
  ⟨⟨[seg], List.Forall₂.cons hseg List.Forall₂.nil, by simpa using hlog⟩, hbit⟩

theorem filterMap_masked (h : c.cmd ≠ .write) : [c].filterMap WlPwrCfg.masked = [] := by
  simp [WlPwrCfg.masked, h]

/-- One row. -/
theorem handleCmd_ran (chip : PwrChip) (left : ℕ) (s : PwrBus) (hc : c.cmd ≠ .finish) :
    ∃ r s', handleCmd chip c left s = (r, s') ∧ PwrRan chip [c] left s r s' := by
  have hquiet {t : PwrBus} {seg : List PwrAccess} (hw : c.cmd ≠ .write) (hseg : Served c seg)
      (hlen : seg.length ≤ 2) (hpolls : PwrAccess.polls seg = 0) (hregs : t.regs = s.regs)
      (hlog : t.log = s.log ++ seg) : PwrRan chip [c] left s (some left) t := by
    refine ⟨by simp [hlog, hlen], by simp [hlog, PwrAccess.polls_append, hpolls], fun _ => .of_served hseg hlog fun a i _ => ?_, by simp⟩
    rw [filterMap_masked hw, hregs]
    rfl
  unfold handleCmd
  cases hcmd : c.cmd with
  | write =>
    refine ⟨_, _, rfl, by simp [PwrBus.rtwWrite8, PwrBus.rtwRead8], ?_,
      fun _ => .of_served (.write hcmd _) (List.append_assoc ..) fun a i ha => ?_, by simp⟩
    · rintro _ ⟨⟩
      rw [PwrBus.rtwWrite8, PwrBus.rtwRead8, List.append_assoc, PwrAccess.polls_append]
      simp [PwrAccess.polls, PwrAccess.IsRead, PwrAccess.IsWrite, List.countP_cons]
    have hmask : [c].filterMap WlPwrCfg.masked = [⟨c.offset, c.msk, c.value⟩] := by
      simp [WlPwrCfg.masked, hcmd]
    rw [hmask]
    refine getLsbD_update_blend ⟨c.offset, c.msk, c.value⟩ ((ha _ _).trans (ha _ _)) ?_
    rintro rfl
    exact ha _ _
  | polling =>
    obtain ⟨left', n, t, value, heq, hn, hit, hp⟩ | ⟨n, last, t, heq, hn, hlast, hp⟩ :=
      pollLoop_spec chip c left s
    · have hlen := hp.length_log
      have hpolls := hp.polls_log
      obtain ⟨misses, -, hmisses, hlog⟩ := hp.log
      refine ⟨_, t, heq, ?_, ?_, fun _ => .of_served (.polling hcmd hmisses hit) hlog
        fun a i ha => ?_, by simp⟩
      · simp only [List.length_singleton, Option.getD_some] at hlen ⊢
        omega
      · rintro _ ⟨⟩
        have hone : PwrAccess.polls [.read c.offset value] = 1 := rfl
        omega
      · rw [filterMap_masked (by simp [hcmd])]
        exact hp.bit a i ha
    · have hlen := hp.length_log
      have hpolls := hp.polls_log
      rw [hlast.polls] at hpolls
      refine ⟨_, t, heq, ?_, by simp, by simp, fun _ => ⟨⟨[], c, s, n, last, List.prefix_refl _, hcmd,
        .refl s, hlast, hp⟩, by omega⟩⟩
      simp only [List.length_singleton, Option.getD_none]
      omega
  | delay => exact ⟨_, _, rfl, hquiet (by simp [hcmd]) (.delay hcmd) (by simp) rfl rfl rfl⟩
  | read =>
    exact ⟨_, _, rfl, hquiet (by simp [hcmd]) (.nothing (.inl hcmd)) (by simp) rfl rfl (by simp)⟩
  | unknown =>
    exact ⟨_, _, rfl, hquiet (by simp [hcmd]) (.nothing (.inr hcmd)) (by simp) rfl rfl (by simp)⟩
  | finish => exact absurd hcmd hc

/-- A row that was done, and the rows behind it. -/
theorem PwrRan.cons {r : Option ℕ} (h : PwrRan chip [c] left s (some left') t)
    (h' : PwrRan chip p left' t r s') : PwrRan chip (c :: p) left s r s' := by
  have hlen := h.length
  have hlen' := h'.length
  have hpolls := h.polls left' rfl
  have hdone := h.done (by simp)
  refine ⟨?_, fun l hl => ?_, fun hr => hdone.append (h'.done hr), fun hr => ?_⟩
  · simp only [List.length_cons, List.length_nil, Option.getD_some] at hlen ⊢
    omega
  · have hpolls' := h'.polls l hl
    omega
  · obtain ⟨⟨q, d, u, n, last, hq, hcmd, hdone', hp⟩, hpolls'⟩ := h'.stuck hr
    exact ⟨⟨c :: q, d, u, n, last, List.cons_prefix_cons.mpr ⟨rfl, hq⟩, hcmd,
      hdone.append hdone', hp⟩, by omega⟩

/-- The rows of the sequence, whatever the chip does. -/
theorem pwrSeqLoop_ran (chip : PwrChip) :
    ∀ (cmds : List WlPwrCfg) {p : List WlPwrCfg} (left : ℕ) (s : PwrBus),
    pwrSeq v cmds = some p → ∃ r s', pwrSeqLoop chip v cmds left s = some (r.isSome, s') ∧
      PwrRan chip p left s r s'
  | [], _, _, _, hp => by cases hp
  | c :: cs, p, left, s, hp => by
    unfold pwrSeq at hp
    unfold pwrSeqLoop
    by_cases hm : c.Matches v
    swap
    · rw [if_neg hm] at hp ⊢
      exact pwrSeqLoop_ran chip cs left s hp
    rw [if_pos hm] at hp ⊢
    by_cases hc : c.cmd = .finish
    · rw [if_pos hc] at hp ⊢
      cases hp
      exact ⟨some left, s, rfl, by simp, by simp, fun _ => .refl s, by simp⟩
    rw [if_neg hc] at hp ⊢
    obtain ⟨p, hp', rfl⟩ := Option.map_eq_some_iff.mp hp
    obtain ⟨r, t, heq, hran⟩ := handleCmd_ran chip left s hc
    rw [heq]
    cases r with
    | none =>
      have hlen := hran.length
      obtain ⟨⟨q, d, u, n, last, hq, h⟩, hpolls⟩ := hran.stuck rfl
      refine ⟨none, t, rfl, ?_, by simp, by simp,
        fun _ => ⟨⟨q, d, u, n, last, hq.trans (List.prefix_append [c] p), h⟩, hpolls⟩⟩
      simp only [List.length_cons, List.length_nil] at hlen ⊢
      omega
    | some left' =>
      obtain ⟨r, s', heq', hran'⟩ := pwrSeqLoop_ran chip cs left' t hp'
      exact ⟨r, s', heq', hran.cons hran'⟩

/-- The function returns, whatever the chip does, with two accesses for every row and for 5001 polls
at most. It returns true behind the whole sequence, and false at poll 5002. -/
theorem halPwrSeqCmdParsing_spec (chip : PwrChip) (hp : pwrSeq v cmds = some p) (s : PwrBus) :
    ∃ b s', halPwrSeqCmdParsing chip v cmds s = some (b, s') ∧
      s'.log.length ≤ s.log.length + 2 * p.length + 2 * 5001 ∧
      if b then PwrSeqDone chip p s s' else PwrSeqStuck chip p 5001 s s' := by
  obtain ⟨r, s', heq, hran⟩ := pwrSeqLoop_ran chip cmds (maxPollCount + 1) s hp
  refine ⟨_, s', heq, Nat.le_trans (Nat.le_add_right _ _) hran.length, ?_⟩
  cases r with
  | none => exact hran.stuck rfl
  | some left => exact hran.done (by simp)

/-! ## The sequence that turns the power on -/

def pwrCfg (offset : BitVec 16) (cmd : PwrCmd) (msk value : BitVec 8) : WlPwrCfg :=
  ⟨offset, 0xff, 0xf, 0xf, cmd, msk, value⟩

def rtl8188EPowerOnFlow : List WlPwrCfg :=
  [pwrCfg 0x06 .polling 0x02 0x02, pwrCfg 0x02 .write 0x03 0, pwrCfg 0x26 .write 0x80 0x80,
    pwrCfg 0x05 .write 0x80 0, pwrCfg 0x05 .write 0x18 0, pwrCfg 0x05 .write 0x01 0x01,
    pwrCfg 0x05 .polling 0x01 0, pwrCfg 0x23 .write 0x10 0,
    { pwrCfg 0x74 .write 0x10 0x10 with interfaceMsk := 0x1 }, pwrCfg 0xffff .finish 0 0]

/-- A chip that says at the second access that it is ready, and clears its enable bit when that is set. -/
def sampleChip : PwrChip := fun log regs a =>
  if a = 0x06 ∧ log ≠ [] then regs a ||| 0x02 else if a = 0x05 then regs a &&& ~~~0x01 else regs a

theorem halPwrSeqCmdParsing_powerOn : ∃ s', halPwrSeqCmdParsing sampleChip
    ⟨0xff, 0x0f, 0x02⟩ rtl8188EPowerOnFlow ⟨fun _ => 0, []⟩ = some (true, s') ∧
    s'.log.length ≤ 0 + 2 * 8 + 2 * 5001 ∧
    PwrSeqDone sampleChip (rtl8188EPowerOnFlow.take 8) ⟨fun _ => 0, []⟩ s' := by
  have hrows : pwrSeq ⟨0xff, 0x0f, 0x02⟩ rtl8188EPowerOnFlow =
      some (rtl8188EPowerOnFlow.take 8) := rfl
  obtain ⟨b, s', heq, hlen, hdone⟩ := halPwrSeqCmdParsing_spec sampleChip hrows ⟨fun _ => 0, []⟩
  have hb : (halPwrSeqCmdParsing sampleChip ⟨0xff, 0x0f, 0x02⟩ rtl8188EPowerOnFlow
      ⟨fun _ => 0, []⟩).map Prod.fst = some true := by decide +kernel
  rw [heq] at hb
  cases hb
  exact ⟨s', heq, hlen, hdone⟩

end Rtl8188eu
