import Rtl8188eu.CircularQueue
import Rtl8188eu.Runs

/-!
# The pointer ring

`rtw_cbuf` is a ring of pointers with a free cell. `rtw_cbuf_full` compares the write index with
`read-1`, which is not an index when the read index is 0 : the ring is then never full, and a push
over the last free cell makes it empty (`fifo_iff`).
-/

namespace Rtl8188eu

open Runs

variable {α : Type*}

/-! ## The functions of the source -/

/-- `struct rtw_cbuf`. -/
structure RtwCbuf (α : Type*) where
  write : UInt32
  read : UInt32
  size : UInt32
  bufs : ℕ → α

namespace RtwCbuf

variable (cbuf : RtwCbuf α)

/-- `rtw_cbuf_full`. The difference has 32 bits. -/
def rtwCbufFull : Bool := cbuf.write = cbuf.read - 1

/-- `rtw_cbuf_empty`. -/
def rtwCbufEmpty : Bool := cbuf.write = cbuf.read

/-- `rtw_cbuf_push`, with its result. -/
def rtwCbufPush (buf : α) : Bool × RtwCbuf α :=
  if cbuf.rtwCbufFull then (false, cbuf)
  else
    (true, { cbuf with
      bufs := Function.update cbuf.bufs cbuf.write.toNat buf
      write := (cbuf.write + 1) % cbuf.size })

/-- `rtw_cbuf_pop`. The result is `none` for the null pointer of an empty ring. -/
def rtwCbufPop : Option α × RtwCbuf α :=
  if cbuf.rtwCbufEmpty then (none, cbuf)
  else (some (cbuf.bufs cbuf.read.toNat), { cbuf with read := (cbuf.read + 1) % cbuf.size })

end RtwCbuf

/-- `rtw_cbuf_alloc` with the memory that `rtw_malloc` returns, whatever is in it. -/
def rtwCbufAlloc (bufs : Option (ℕ → α)) (size : UInt32) : Option (RtwCbuf α) :=
  bufs.map fun bufs => { write := 0, read := 0, size := size, bufs := bufs }

/-! ## Runs of the ring -/

inductive CbufOp (α : Type*)
  | push (buf : α)
  | pop

/-- A ring with the pointers that were pushed with success and those that were popped, in order. -/
structure CbufRun (α : Type*) where
  cbuf : RtwCbuf α
  pushed : List α
  popped : List α

namespace CbufRun

/-- One call. -/
def step (s : CbufRun α) : CbufOp α → CbufRun α
  | .push buf =>
    let r := s.cbuf.rtwCbufPush buf
    { cbuf := r.2, pushed := if r.1 then s.pushed ++ [buf] else s.pushed, popped := s.popped }
  | .pop =>
    let r := s.cbuf.rtwCbufPop
    { cbuf := r.2, pushed := s.pushed, popped := s.popped ++ r.1.toList }

/-- What is claimed of a state : what was popped is what was pushed first, the ring is empty if
nothing else was pushed, and a push fails only if all cells but one are taken. -/
structure Fifo (s : CbufRun α) : Prop where
  order : s.popped <+: s.pushed
  empty : s.cbuf.rtwCbufEmpty = true ↔ s.popped = s.pushed
  full : ∀ buf, (s.cbuf.rtwCbufPush buf).1 = false →
    s.cbuf.size.toNat - 1 ≤ s.pushed.length - s.popped.length

/-- A push over the last free cell, while the oldest pointer is in the first cell. -/
def Overfills (s : CbufRun α) : CbufOp α → Prop
  | .push _ => s.pushed.length - s.popped.length = s.cbuf.size.toNat - 1 ∧
    s.cbuf.size.toNat ∣ s.popped.length
  | .pop => False

/-- What is in the ring. -/
structure Tracks (s : CbufRun α) (q : List α) : Prop where
  holds : CircularQueue.Holds s.cbuf.size.toNat s.cbuf.bufs s.cbuf.read.toNat s.cbuf.write.toNat q
  pushed_eq : s.pushed = s.popped ++ q
  read_eq : s.cbuf.read.toNat = s.popped.length % s.cbuf.size.toNat
  two_le : 2 ≤ s.cbuf.size.toNat

variable {s : CbufRun α} {q : List α}

/-- The next index. -/
theorem toNat_next {i size : UInt32} (h : i.toNat < size.toNat) :
    ((i + 1) % size).toNat = (i.toNat + 1) % size.toNat := by
  have hlt := size.toNat_lt
  have hnext : i.toNat + 1 < 2 ^ 32 := by omega
  rw [UInt32.toNat_mod, UInt32.toNat_add, UInt32.toNat_one, Nat.mod_eq_of_lt hnext]

theorem Tracks.empty_iff (h : Tracks s q) : s.cbuf.rtwCbufEmpty = true ↔ q = [] := by
  rw [RtwCbuf.rtwCbufEmpty, decide_eq_true_iff, ← UInt32.toNat_inj]
  exact h.holds.write_eq_read_iff

/-- The test sees a full ring unless the oldest pointer is in the first cell. -/
theorem Tracks.full_iff (h : Tracks s q) :
    s.cbuf.rtwCbufFull = true ↔ q.length + 1 = s.cbuf.size.toNat ∧ s.cbuf.read.toNat ≠ 0 := by
  have hwrite := h.holds.write_lt
  have hsize := s.cbuf.size.toNat_lt
  have hread := h.holds.read_lt
  have hsub : (s.cbuf.read - 1).toNat = (2 ^ 32 - 1 + s.cbuf.read.toNat) % 2 ^ 32 := by
    rw [UInt32.toNat_sub, UInt32.toNat_one]
  rw [RtwCbuf.rtwCbufFull, decide_eq_true_iff, ← UInt32.toNat_inj, ← h.holds.next_eq_read_iff, hsub]
  rcases CircularQueue.mod_cases hwrite (show 1 ≤ s.cbuf.size.toNat by omega) with ⟨hlt,
    hmod⟩ | ⟨hge, hmod⟩
  · omega
  · omega

theorem Tracks.fifo (h : Tracks s q) : Fifo s where
  order := ⟨q, h.pushed_eq.symm⟩
  empty := by
    rw [h.empty_iff, h.pushed_eq]
    exact List.self_eq_append_right.symm
  full := by
    intro buf hfail
    have hfull : s.cbuf.rtwCbufFull = true := by
      by_contra hnot
      rw [RtwCbuf.rtwCbufPush, if_neg hnot] at hfail
      cases hfail
    have hlen := (h.full_iff.mp hfull).1
    rw [h.pushed_eq, List.length_append]
    omega

theorem tracks_start {bufs : Option (ℕ → α)} {size : UInt32} {cbuf : RtwCbuf α}
    (hsize : 2 ≤ size.toNat)
    (h : rtwCbufAlloc bufs size = some cbuf) : Tracks ⟨cbuf, [], []⟩ [] := by
  obtain ⟨mem, -, rfl⟩ := Option.map_eq_some_iff.mp h
  refine ⟨CircularQueue.holds_nil (Nat.zero_lt_of_lt hsize) mem, rfl, ?_, hsize⟩
  rw [List.length_nil, Nat.zero_mod]
  rfl

theorem Tracks.length_sub (h : Tracks s q) : s.pushed.length - s.popped.length = q.length := by
  rw [h.pushed_eq, List.length_append, Nat.add_sub_cancel_left]

theorem step_push_of_not_full (buf : α) (hfull : ¬s.cbuf.rtwCbufFull = true) : s.step (.push buf) =
    { cbuf := { s.cbuf with
        bufs := Function.update s.cbuf.bufs s.cbuf.write.toNat buf
        write := (s.cbuf.write + 1) % s.cbuf.size }
      pushed := s.pushed ++ [buf]
      popped := s.popped } := by
  unfold step RtwCbuf.rtwCbufPush
  dsimp only
  rw [if_neg hfull, if_pos rfl]

theorem Tracks.push (h : Tracks s q) (buf : α) (hroom : ¬s.Overfills (.push buf)) :
    ∃ q', Tracks (s.step (.push buf)) q' := by
  rw [Overfills, h.length_sub, Nat.dvd_iff_mod_eq_zero, ← h.read_eq] at hroom
  by_cases hfull : s.cbuf.rtwCbufFull = true
  · unfold step RtwCbuf.rtwCbufPush
    dsimp only
    rw [if_pos hfull]
    exact ⟨q, h⟩
  · have hlen := h.holds.length_lt
    have hnot : q.length + 1 < s.cbuf.size.toNat := by
      by_contra hge
      refine hfull (h.full_iff.mpr ⟨by omega, fun h0 => hroom ⟨by omega, h0⟩⟩)
    rw [step_push_of_not_full buf hfull]
    refine ⟨q ++ [buf], ?_, ?_, h.read_eq, h.two_le⟩
    · rw [toNat_next h.holds.write_lt]
      exact h.holds.push hnot buf
    · rw [h.pushed_eq, List.append_assoc]

theorem Tracks.pop (h : Tracks s q) : ∃ q', Tracks (s.step .pop) q' := by
  unfold step RtwCbuf.rtwCbufPop
  dsimp only
  cases q with
  | nil =>
    rw [if_pos (h.empty_iff.mpr rfl)]
    refine ⟨[], h.holds, ?_, ?_, h.two_le⟩
    · rw [Option.toList_none, List.append_nil]
      exact h.pushed_eq
    · rw [Option.toList_none, List.append_nil]
      exact h.read_eq
  | cons buf q =>
    have hne : ¬s.cbuf.rtwCbufEmpty = true := by
      rw [h.empty_iff]
      exact List.cons_ne_nil buf q
    obtain ⟨hfirst, hrest⟩ := h.holds.pop
    rw [if_neg hne]
    refine ⟨q, ?_, ?_, ?_, h.two_le⟩
    · rw [toNat_next h.holds.read_lt]
      exact hrest
    · rw [hfirst, h.pushed_eq, Option.toList_some, List.append_assoc, List.singleton_append]
    · rw [toNat_next h.holds.read_lt, h.read_eq, Option.toList_some, List.length_append,
        List.length_singleton,
        Nat.mod_add_mod]

/-- A push that overfills the ring makes it empty. -/
theorem Tracks.not_fifo (h : Tracks s q) {op : CbufOp α} (hop : s.Overfills op) :
    ¬Fifo (s.step op) := by
  cases op with
  | pop => exact hop.elim
  | push buf =>
    rw [Overfills, h.length_sub, Nat.dvd_iff_mod_eq_zero, ← h.read_eq] at hop
    obtain ⟨hlen, hread⟩ := hop
    have hsize := h.two_le
    have hfull : ¬s.cbuf.rtwCbufFull = true := fun hfull => (h.full_iff.mp hfull).2 hread
    have hnext : (s.cbuf.write + 1) % s.cbuf.size = s.cbuf.read := by
      rw [← UInt32.toNat_inj, toNat_next h.holds.write_lt, h.holds.next_eq_read_iff]
      omega
    intro hfifo
    have hempty := hfifo.empty
    rw [step_push_of_not_full buf hfull] at hempty
    have heq : s.popped.length = (s.pushed ++ [buf]).length :=
      congrArg List.length (hempty.mp (decide_eq_true hnext))
    rw [h.pushed_eq, List.length_append, List.length_append, List.length_singleton] at heq
    omega

/-- The ring is a queue in every state of a run exactly if no push overfills it. -/
theorem fifo_iff {bufs : Option (ℕ → α)} {size : UInt32} {cbuf : RtwCbuf α} (hsize : 2 ≤ size.toNat)
    (h : rtwCbufAlloc bufs size = some cbuf) (ops : List (CbufOp α)) :
    (∀ pre, pre <+: ops → Fifo (run step ⟨cbuf, [], []⟩ pre)) ↔
      Along step (fun s op => ¬s.Overfills op) ⟨cbuf, [], []⟩ ops := by
  refine forall_prefix_iff_along_of (I := fun s => ∃ q, Tracks s q) (fun s ⟨q, hq⟩ => hq.fifo)
    (fun s op ⟨q, hq⟩ hop => ?_) (fun s op ⟨q, hq⟩ hop => hq.not_fifo (not_not.mp hop)) ops
      ⟨[], tracks_start hsize h⟩
  cases op with
  | push buf => exact hq.push buf hop
  | pop => exact hq.pop

/-- Two pointers in a ring for two pointers. -/
def sampleOps : List (CbufOp ℕ) := [.push 1, .push 2]

/-- Both indices come round in a ring for three pointers, and the fourth push finds it full. -/
def sampleRound : List (CbufOp ℕ) := [.push 1, .pop, .push 2, .push 3, .push 4, .pop, .pop]

theorem fifo_iff_sample : (run step ⟨⟨0, 0, 3, fun _ => 0⟩, [], []⟩ sampleRound).popped = [1, 2, 3] ∧
    ((∀ pre, pre <+: sampleRound → Fifo (run step ⟨⟨0, 0, 3, fun _ => 0⟩, [], []⟩ pre)) ↔
      Along step (fun s op => ¬s.Overfills op) ⟨⟨0, 0, 3, fun _ => 0⟩, [], []⟩ sampleRound) :=
  ⟨by decide, @fifo_iff ℕ (some fun _ => 0) 3 _ (by decide) rfl _⟩

/-- Both pointers are pushed, and the ring is empty. -/
theorem not_fifo_sample :
    ¬∀ (bufs : Option (ℕ → ℕ)) (size : UInt32) (cbuf : RtwCbuf ℕ), 2 ≤ size.toNat →
    rtwCbufAlloc bufs size = some cbuf → ∀ ops, Fifo (run step ⟨cbuf, [], []⟩ ops) := by
  intro h
  have hfifo := h (some fun _ => 0) 2 _ (by decide) rfl sampleOps
  exact absurd (hfifo.empty.mp rfl) (by decide)

end CbufRun

end Rtl8188eu
