import Rtl8188eu.Reorder
import Rtl8188eu.Runs

/-!
# Runs of one reorder control

A run starts with a reorder control that waits for its first frame, and feeds it QoS
frames that are not A-MSDUs, and timeouts, in any order. A frame is named by the number of
frames that came before it. `reorder_safe` says what holds after every step : the pending
list is in order and inside the window, frames are handed up once and forward, and every
frame was rejected, is pending or was handed up.
-/

namespace Rtl8188eu

open ReorderBuffer Runs Adapter

/-- How far the sequence number `b` is ahead of `a`. -/
def snAhead (a b : ℕ) : ℕ := (b + 4096 - a) % 4096

theorem snAhead_mod {a b : ℕ} (h : a ≤ b) (hb : b < a + 4096) :
    snAhead (a % 4096) (b % 4096) = b - a := by
  unfold snAhead
  omega

/-- A QoS frame for the reorder control `c` that is not an A-MSDU. -/
structure ReorderFrame (c : StaId × Fin 16) where
  frame : RecvFrame
  ctrl : frame.preorderCtrl = c
  plain : frame.attrib.amsdu = false
  qos : frame.attrib.qos = true
  pkt : frame.pkt = true
  seq_lt : frame.attrib.seqNum < 4096

/-- What may happen to a reorder control. -/
inductive ReorderEvent (c : StaId × Fin 16)
  | rx (fr : ReorderFrame c)
  | timeout

/-- The frames among the events, the first one first. -/
def ReorderEvent.frames {c : StaId × Fin 16} (es : List (ReorderEvent c)) :
    List (ReorderFrame c) :=
  es.filterMap fun
    | .rx fr => some fr
    | .timeout => none

/-- The state of a run : the driver, the number of frames that came, and the frames that
were returned with `_FAIL`. -/
structure ReorderRun where
  adapter : Adapter ℕ
  arrived : ℕ
  rejected : List ℕ

namespace ReorderRun

/-- A frame comes in, or the timer expires. -/
def step {c : StaId × Fin 16} (r : ReorderRun) : ReorderEvent c → Option ReorderRun
  | .rx fr =>
    let s := r.adapter.updateFrame r.arrived fun _ => fr.frame
    (s.recvIndicatepktReorder r.arrived).map fun (st, s) =>
      ⟨s, r.arrived + 1, if st = .success then r.rejected else r.rejected ++ [r.arrived]⟩
  | .timeout =>
    (r.adapter.rtwReorderingCtrlTimeoutHandler c).map fun s => { r with adapter := s }

/-- The reorder control `c` of the driver has not had a frame yet, and nothing was handed
up. -/
structure Start (s : Adapter ℕ) (c : StaId × Fin 16) : Prop where
  enable : (s.reorderCtrl c).enable = true
  indicateSeq : (s.reorderCtrl c).indicateSeq = 0xffff
  pending : s.pendingOf c = []
  wsize : (s.reorderCtrl c).wsizeB = 64
  handedUp : s.handedUp = []
  up : s.driverUp = true

/-- What holds after every step of a run with the events `es`. -/
structure Safe (c : StaId × Fin 16) (es : List (ReorderEvent c)) (r : ReorderRun) : Prop where
  /-- Frame `i` is the `i`-th frame that came. -/
  frames : (List.range r.arrived).map r.adapter.seqNumOf
    = (ReorderEvent.frames es).map fun fr => fr.frame.attrib.seqNum
  increasing : (r.adapter.pendingOf c).Pairwise fun f g =>
    snAhead (r.adapter.reorderCtrl c).indicateSeq (r.adapter.seqNumOf f)
      < snAhead (r.adapter.reorderCtrl c).indicateSeq (r.adapter.seqNumOf g)
  window : ∀ f ∈ r.adapter.pendingOf c,
    snAhead (r.adapter.reorderCtrl c).indicateSeq (r.adapter.seqNumOf f)
      < (r.adapter.reorderCtrl c).wsizeB
  once : r.adapter.handedUp.Nodup
  steps : r.adapter.handedUp.IsChain fun f g =>
    1 ≤ snAhead (r.adapter.seqNumOf f) (r.adapter.seqNumOf g) ∧
      snAhead (r.adapter.seqNumOf f) (r.adapter.seqNumOf g) ≤ 2048
  accounted : ∀ f < r.arrived,
    r.rejected.count f + (r.adapter.pendingOf c).count f + r.adapter.handedUp.count f = 1

/-! ## The invariant -/

/-- The control waits for its first frame, or it follows a valid buffer, and the frames
that came are the rejected ones and those of the buffer. -/
def Follows (c : StaId × Fin 16) (r : ReorderRun) : Prop :=
  (r.adapter.Fresh c [] ∧ r.arrived = 0 ∧ r.rejected = []) ∨
    ∃ b, r.adapter.Tracks c b ∧ b.Valid 64 2048 ∧
      (r.rejected ++ (b.released ++ b.pending).map Prod.fst).Perm (List.range r.arrived)

theorem Start.fresh {s : Adapter ℕ} {c : StaId × Fin 16} (hs : Start s c) : s.Fresh c [] := by
  refine ⟨hs.indicateSeq, ⟨?_, ?_, ?_, hs.pending, hs.handedUp, ?_, ?_, ?_, hs.up⟩⟩
  · simpa [setIndicateSeq] using hs.enable
  · simpa [setIndicateSeq] using hs.wsize
  · simp [setIndicateSeq]
  · simp
  · simp
  · simp

/-- A frame that comes in is in the pool as the next number. -/
theorem arrives_updateFrame {c : StaId × Fin 16} (s : Adapter ℕ) (n : ℕ) (fr : ReorderFrame c) :
    (s.updateFrame n fun _ => fr.frame).Arrives c n := by
  have hfr : (s.updateFrame n fun _ => fr.frame).recvframe n = fr.frame := by simp
  refine ⟨?_, Or.inr ⟨?_, ?_⟩, ?_⟩
  · rw [hfr]
    exact fr.ctrl
  · rw [hfr]
    exact fr.qos
  · rw [hfr]
    exact fr.pkt
  · rw [Adapter.seqNumOf, hfr]
    exact fr.seq_lt

theorem frames_concat {c : StaId × Fin 16} (es : List (ReorderEvent c)) (e : ReorderEvent c) :
    ReorderEvent.frames (es ++ [e]) = ReorderEvent.frames es ++ ReorderEvent.frames [e] :=
  List.filterMap_append

/-- A step that keeps the contents of the frames keeps their numbering. -/
theorem frames_rx {c : StaId × Fin 16} {es : List (ReorderEvent c)} {r : ReorderRun}
    {fr : ReorderFrame c} {s' : Adapter ℕ}
    (h : (List.range r.arrived).map r.adapter.seqNumOf
      = (ReorderEvent.frames es).map fun fr => fr.frame.attrib.seqNum)
    (hat : ∀ g, (s'.recvframe g).attrib
      = ((r.adapter.updateFrame r.arrived fun _ => fr.frame).recvframe g).attrib) :
    (List.range (r.arrived + 1)).map s'.seqNumOf
      = (ReorderEvent.frames (es ++ [.rx fr])).map fun fr => fr.frame.attrib.seqNum := by
  rw [List.range_succ, List.map_append, frames_concat, List.map_append, ← h]
  congr 1
  · refine List.map_congr_left fun i hi => ?_
    have hne : i ≠ r.arrived := (List.mem_range.mp hi).ne
    rw [Adapter.seqNumOf, hat, recvframe_updateFrame, Function.update_of_ne hne]
    rfl
  · simp [Adapter.seqNumOf, hat, ReorderEvent.frames]

/-- The arrival of a frame keeps the invariant. -/
theorem follows_rx {c : StaId × Fin 16} {r r' : ReorderRun} {fr : ReorderFrame c}
    (hr : r.Follows c) (h : r.step (.rx fr) = some r') :
    r'.Follows c ∧ r'.arrived = r.arrived + 1 ∧ ∀ g, (r'.adapter.recvframe g).attrib
      = ((r.adapter.updateFrame r.arrived fun _ => fr.frame).recvframe g).attrib := by
  obtain ⟨⟨st, s'⟩, hre, rfl⟩ := Option.map_eq_some_iff.mp h
  have ha := arrives_updateFrame r.adapter r.arrived fr
  rcases hr with ⟨hs, h0, hrej⟩ | ⟨b, ht, hb, hperm⟩
  · have hs' : (r.adapter.updateFrame r.arrived fun _ => fr.frame).Fresh c [] :=
      ⟨hs.indicateSeq, tracks_updateFrame hs.tracks (by simp)⟩
    obtain ⟨rfl, ht', hat⟩ := tracks_reorder_fresh hs' (by simp) ha
      (Nat.mod_eq_of_lt ha.seq_lt) hre
    refine ⟨Or.inr ⟨_, ht', ?_, ?_⟩, rfl, hat⟩
    · refine ⟨List.Pairwise.nil, by simp, by simp, by simp, by simp, by simp⟩
    · simp [h0, hrej]
  · have hn : r.arrived ∉ (b.released ++ b.pending).map Prod.fst := by
      intro hmem
      have := hperm.mem_iff.mp (List.mem_append_right _ hmem)
      simp at this
    obtain ⟨hp, hat⟩ := tracks_reorder (tracks_updateFrame ht fun hm => absurd hm hn) hb.sorted
      hb.window hn ha hre
    rcases hp with ⟨rfl, ht', -⟩ | ⟨rfl, b', hpos, hpush, ht'⟩
    · refine ⟨Or.inr ⟨b, ht', hb, ?_⟩, rfl, hat⟩
      simp only [reduceCtorEq, if_false, List.range_succ, List.append_assoc]
      exact (List.perm_append_comm.append_left _).trans
        ((List.append_assoc ..).symm ▸ hperm.append_right _)
    · refine ⟨Or.inr ⟨b', ht', Buffer.valid_push (by omega) (by omega) hb (le_positionOf _ _)
        hpos hpush, ?_⟩, rfl, hat⟩
      simp only [if_true, List.range_succ]
      have hnew := (Buffer.perm_push hpush).map Prod.fst
      rw [List.map_cons] at hnew
      calc (r.rejected ++ (b'.released ++ b'.pending).map Prod.fst).Perm
            (r.rejected ++ (r.arrived :: (b.released ++ b.pending).map Prod.fst)) :=
          hnew.append_left _
        _ |>.Perm (r.arrived :: (r.rejected ++ (b.released ++ b.pending).map Prod.fst)) :=
          List.perm_middle
        _ |>.Perm (r.arrived :: List.range r.arrived) := hperm.cons _
        _ |>.Perm (List.range r.arrived ++ [r.arrived]) := (List.perm_append_singleton ..).symm

/-- A timeout keeps the invariant. -/
theorem follows_timeout {c : StaId × Fin 16} {r r' : ReorderRun}
    (hr : r.Follows c) (h : r.step (c := c) .timeout = some r') :
    r'.Follows c ∧ r'.arrived = r.arrived ∧
      ∀ g, (r'.adapter.recvframe g).attrib = (r.adapter.recvframe g).attrib := by
  obtain ⟨s', hto, rfl⟩ := Option.map_eq_some_iff.mp h
  rcases hr with ⟨hs, h0, hrej⟩ | ⟨b, ht, hb, hperm⟩
  · have hup : r.adapter.driverUp = true := hs.tracks.up
    have hpend : r.adapter.pendingOf c = [] := hs.tracks.pending
    obtain rfl : r.adapter = s' := by
      simpa [rtwReorderingCtrlTimeoutHandler, recvIndicatepktsInOrder, hup, hpend] using hto
    exact ⟨Or.inl ⟨hs, h0, hrej⟩, rfl, fun _ => rfl⟩
  · obtain ⟨ht', hat⟩ := tracks_timeout ht hb.sorted hb.window hto
    refine ⟨Or.inr ⟨b.flush, ht', Buffer.valid_flush (by omega) hb, ?_⟩, rfl, hat⟩
    rw [Buffer.items_flush]
    exact hperm

/-! ## What the invariant says -/

/-- A state that follows a buffer is safe. -/
theorem safe_of_follows {c : StaId × Fin 16} {es : List (ReorderEvent c)} {r : ReorderRun}
    (hr : r.Follows c) (hframes : (List.range r.arrived).map r.adapter.seqNumOf
      = (ReorderEvent.frames es).map fun fr => fr.frame.attrib.seqNum) : r.Safe c es := by
  rcases hr with ⟨hs, h0, hrej⟩ | ⟨b, ht, hb, hperm⟩
  · have hpend : r.adapter.pendingOf c = [] := hs.tracks.pending
    have hhu : r.adapter.handedUp = [] := hs.tracks.released
    refine ⟨hframes, ?_, ?_, ?_, ?_, ?_⟩
    · rw [hpend]
      exact List.Pairwise.nil
    · simp [hpend]
    · rw [hhu]
      exact List.nodup_nil
    · simp [hhu]
    · simp [h0]
  have hseq : ∀ x ∈ b.pending, r.adapter.seqNumOf x.1 = x.2 % 4096 := fun x hx =>
    ht.seq x (List.mem_append_right _ hx)
  have hahead : ∀ x ∈ b.pending,
      snAhead (r.adapter.reorderCtrl c).indicateSeq (r.adapter.seqNumOf x.1) = x.2 - b.start := by
    intro x hx
    have := hb.window x hx
    rw [ht.start, hseq x hx, snAhead_mod (by omega) (by omega)]
  refine ⟨hframes, ?_, ?_, ?_, ?_, ?_⟩
  · rw [ht.pending, List.pairwise_map]
    refine List.Pairwise.imp_of_mem (fun {x y} hx hy hxy => ?_) hb.sorted
    rw [hahead x hx, hahead y hy]
    have := hb.window x hx
    omega
  · intro f hf
    rw [ht.pending] at hf
    obtain ⟨x, hx, rfl⟩ := List.mem_map.mp hf
    rw [hahead x hx, ht.wsize]
    have := hb.window x hx
    omega
  · rw [ht.released]
    have hnd := ht.nodup
    rw [List.map_append] at hnd
    exact hnd.of_append_left
  · rw [ht.released, List.isChain_map]
    refine hb.steps.imp_of_mem_imp fun x y hx hy hxy => ?_
    rw [ht.seq x (List.mem_append_left _ hx), ht.seq y (List.mem_append_left _ hy),
      snAhead_mod (by omega) (by omega)]
    omega
  · intro f hf
    have hcount := hperm.count_eq f
    rw [List.count_eq_one_of_mem List.nodup_range (List.mem_range.mpr hf)] at hcount
    rw [ht.pending, ht.released]
    simp only [List.map_append, List.count_append] at hcount
    omega

/-- The reorder code is safe : from a fresh reorder control, after every run of arriving
frames and timeouts, the pending list is strictly increasing from `indicate_seq` on and in
the window, no frame was handed up twice, each frame handed up was 1 to 2048 ahead of the
one before it, and every frame was rejected, is pending once or was handed up once. -/
theorem reorder_safe {c : StaId × Fin 16} {s : Adapter ℕ} (hs : Start s c)
    {es : List (ReorderEvent c)} {r : ReorderRun} (h : runM step ⟨s, 0, []⟩ es = some r) :
    r.Safe c es := by
  have hinv := invariant_runM (I := fun es r => r.Follows c ∧
    (List.range r.arrived).map r.adapter.seqNumOf
      = (ReorderEvent.frames es).map fun fr => fr.frame.attrib.seqNum)
    ⟨Or.inl ⟨hs.fresh, rfl, rfl⟩, rfl⟩ (fun es e u t hu he => ?_) h
  · exact safe_of_follows hinv.1 hinv.2
  · cases e with
    | rx fr =>
      obtain ⟨hf, hn, hat⟩ := follows_rx hu.1 he
      exact ⟨hf, hn ▸ frames_rx hu.2 hat⟩
    | timeout =>
      obtain ⟨hf, hn, hat⟩ := follows_timeout hu.1 he
      refine ⟨hf, ?_⟩
      have hes : ReorderEvent.frames (es ++ [.timeout]) = ReorderEvent.frames es :=
        (frames_concat es .timeout).trans (List.append_nil _)
      rw [hn, hes, ← hu.2]
      exact List.map_congr_left fun i _ => congrArg RxPktAttrib.seqNum (hat i)

/-- A frame with the given sequence number, for the reorder control of the first station
and TID. -/
def sampleFrame (seqNum : Fin 4096) : ReorderFrame (0, 0) where
  frame :=
    { initRecvframe with
      pkt := true
      attrib := { initRecvframe.attrib with hdrlen := 26, qos := true, seqNum := seqNum }
      len := 60
      rxTail := 60
      rxEnd := 2000 }
  ctrl := rfl
  plain := rfl
  qos := rfl
  pkt := rfl
  seq_lt := seqNum.2

/-- A driver with a fresh reorder control. -/
def sampleAdapter : Adapter ℕ :=
  (Adapter.blank [] zeroAddr).setReorderCtrl (0, 0) ⟨true, 0xffff, 64⟩

/-- Frames around the wrap of the sequence numbers, one of them twice, and a timeout. -/
def sampleEvents : List (ReorderEvent (0, 0)) :=
  [.rx (sampleFrame 4094), .rx (sampleFrame 0), .rx (sampleFrame 4095), .rx (sampleFrame 4094),
    .rx (sampleFrame 3), .timeout]

theorem reorder_safe_sample : Start sampleAdapter (0, 0) ∧
    ∃ r, runM step ⟨sampleAdapter, 0, []⟩ sampleEvents = some r ∧
      r.adapter.handedUp = [0, 2, 1, 4] ∧ r.rejected = [3] ∧ r.Safe (0, 0) sampleEvents := by
  have hs : Start sampleAdapter (0, 0) := ⟨rfl, rfl, rfl, rfl, rfl, rfl⟩
  have hsome : (runM step ⟨sampleAdapter, 0, []⟩ sampleEvents).isSome = true := by decide +kernel
  obtain ⟨r, hr⟩ := Option.isSome_iff_exists.mp hsome
  have hup : (runM step ⟨sampleAdapter, 0, []⟩ sampleEvents).map
      (fun r => (r.adapter.handedUp, r.rejected)) = some ([0, 2, 1, 4], [3]) := by decide +kernel
  rw [hr] at hup
  obtain ⟨hup, hrej⟩ := Prod.mk.inj (Option.some.inj hup)
  exact ⟨hs, r, hr, hup, hrej, reorder_safe hs hr⟩

end ReorderRun

end Rtl8188eu
