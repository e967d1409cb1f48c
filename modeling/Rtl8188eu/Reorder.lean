import Rtl8188eu.RecvIndicate
import Rtl8188eu.ReorderBuffer

/-!
# The A-MPDU reorder buffer of the driver

`check_indicate_seq`, `enqueue_reorder_recvframe`, `recv_indicatepkts_in_order`,
`recv_indicatepkt_reorder` and the timeout handler of `core/rtw_recv.c`. They work on
sequence numbers modulo 4096, which `SN_LESS` compares by bit 11 of the difference.

`Tracks` relates a reorder control with its pending list to a `ReorderBuffer.Buffer` on
positions that do not wrap. Along it the code does what the buffer does :
`tracks_reorder` for an arriving frame, `tracks_timeout` for a timeout.
-/

set_option linter.unusedSectionVars false

namespace Rtl8188eu

open LinkedLists ReorderBuffer

/-! ## Sequence numbers -/

/-- `SN_LESS` on 16-bit values : bit 11 of the difference. -/
def snLess (a b : ℕ) : Bool := (a + 65536 - b).testBit 11

/-- On positions less than 2048 apart, `SN_LESS` of the sequence numbers compares the
positions. -/
theorem snLess_mod {a b : ℕ} (hab : a < b + 2048) (hba : b < a + 2048) :
    snLess (a % 4096) (b % 4096) = true ↔ a < b := by
  rw [snLess, Nat.testBit_eq_decide_div_mod_eq, decide_eq_true_eq]
  omega

theorem mod_eq_mod_iff {a b : ℕ} (hab : a < b + 2048) (hba : b < a + 2048) :
    a % 4096 = b % 4096 ↔ a = b := by
  omega

/-- The position of a sequence number at or after `start`. -/
def positionOf (start seq : ℕ) : ℕ := start + (seq + 4096 - start % 4096) % 4096

theorem positionOf_mod (start : ℕ) {seq : ℕ} (h : seq < 4096) :
    positionOf start seq % 4096 = seq := by
  unfold positionOf
  omega

theorem positionOf_self (pos : ℕ) : positionOf pos (pos % 4096) = pos := by
  unfold positionOf
  omega

theorem le_positionOf (start seq : ℕ) : start ≤ positionOf start seq := Nat.le_add_right _ _

/-- A sequence number that is not behind the window is less than 2048 ahead of it. -/
theorem positionOf_lt {start seq : ℕ} (h : snLess seq (start % 4096) = false) :
    positionOf start seq < start + 2048 := by
  rw [snLess, Nat.testBit_eq_decide_div_mod_eq, decide_eq_false_iff_not] at h
  unfold positionOf
  omega

/-! ## The functions of the source -/

/-- `check_indicate_seq`. -/
def checkIndicateSeq (c : RecvReorderCtrl) (seqNum : ℕ) : Bool × RecvReorderCtrl :=
  let wsize := c.wsizeB
  let wend := (c.indicateSeq + wsize - 1) &&& 0xfff
  let c := if c.indicateSeq = 0xffff then { c with indicateSeq := seqNum } else c
  if snLess seqNum c.indicateSeq then (false, c)
  else if seqNum = c.indicateSeq then
    (true, { c with indicateSeq := (c.indicateSeq + 1) &&& 0xfff })
  else if snLess wend seqNum then
    if seqNum ≥ wsize - 1 then (true, { c with indicateSeq := seqNum + 1 - wsize })
    else (true, { c with indicateSeq := 0xfff - (wsize - (seqNum + 1)) + 1 })
  else (true, c)

/-- The walk of `enqueue_reorder_recvframe` along the pending list : the list with `f` in
its place, or `none` if a frame with the same sequence number is there. -/
def enqueueWalk {ι : Type} (seqNum : ι → ℕ) (f : ι) : List ι → Option (List ι)
  | [] => some [f]
  | hdr :: rest =>
    if snLess (seqNum hdr) (seqNum f) then (enqueueWalk seqNum f rest).map (hdr :: ·)
    else if seqNum hdr = seqNum f then none
    else some (f :: hdr :: rest)

/-- `check_indicate_seq` rejects what is behind the window, and moves the window as the
buffer does. -/
theorem checkIndicateSeq_eq {r : RecvReorderCtrl} {start seq : ℕ} (hw : r.wsizeB = 64)
    (hr : r.indicateSeq = start % 4096) (hseq : seq < 4096) :
    checkIndicateSeq r seq =
      if snLess seq (start % 4096) then (false, r)
      else (true, { r with indicateSeq := advance 64 start (positionOf start seq) % 4096 }) := by
  have hand : ∀ n : ℕ, n &&& 0xfff = n % 4096 := fun n => Nat.and_two_pow_sub_one_eq_mod n 12
  have hne : r.indicateSeq ≠ 0xffff := by omega
  unfold checkIndicateSeq
  simp only [hw, hand, if_neg hne]
  rw [hr]
  split
  · rfl
  rename_i hless
  have hlt := positionOf_lt (Bool.not_eq_true _ ▸ hless)
  have hle := le_positionOf start seq
  have hpos := positionOf_mod start hseq
  set pos := positionOf start seq
  have hwend : (start % 4096 + 64 - 1) % 4096 = (start + 63) % 4096 := by omega
  rw [hwend, ← hpos]
  have hsn := snLess_mod (a := start + 63) (b := pos) (by omega) (by omega)
  unfold advance
  by_cases h1 : pos = start
  · rw [if_pos h1, if_pos (by omega)]
    congr 2
    omega
  rw [if_neg h1, if_neg (by omega)]
  by_cases h2 : start + 64 ≤ pos
  · rw [if_pos h2, if_pos (hsn.mpr (by omega))]
    split
    · congr 2
      omega
    · congr 2
      omega
  · rw [if_neg h2, if_neg (fun h => h2 (hsn.mp h)), ← hr, ← hw]

/-- Before the first frame, `check_indicate_seq` takes the window to start at it. -/
theorem checkIndicateSeq_fresh (r : RecvReorderCtrl) (seq : ℕ) (hr : r.indicateSeq = 0xffff) :
    checkIndicateSeq r seq = checkIndicateSeq { r with indicateSeq := seq } seq := by
  have hsn : snLess seq seq = false := by
    rw [snLess, Nat.add_sub_cancel_left]
    rfl
  unfold checkIndicateSeq
  by_cases h : seq = 0xffff
  · subst h
    simp [hr, hsn]
  · simp [hr, hsn]

/-- The walk of `enqueue_reorder_recvframe` places by position. -/
theorem enqueueWalk_eq {ι : Type} {seqNum : ι → ℕ} {f : ι} {pos : ℕ} (hf : seqNum f = pos % 4096) :
    ∀ {l : List (ι × ℕ)}, (∀ y ∈ l, seqNum y.1 = y.2 % 4096 ∧ y.2 < pos + 2048 ∧ pos < y.2 + 2048) →
      enqueueWalk seqNum f (l.map Prod.fst) = (place (f, pos) l).map (List.map Prod.fst)
  | [], _ => rfl
  | y :: ys, hl => by
    obtain ⟨hy, h1, h2⟩ := hl y (List.mem_cons_self ..)
    have ih := enqueueWalk_eq hf fun z hz => hl z (List.mem_cons_of_mem y hz)
    have hsn := snLess_mod h1 h2
    have heq := mod_eq_mod_iff h1 h2
    rw [List.map_cons, enqueueWalk, place, hy, hf, ih]
    by_cases hlt : y.2 < pos
    · rw [if_pos hlt, if_pos (hsn.mpr hlt)]
      cases place (f, pos) ys <;> rfl
    · rw [if_neg hlt, if_neg (fun h => hlt (hsn.mp h))]
      by_cases he : y.2 = pos
      · rw [if_pos he, if_pos (heq.mpr he)]
        rfl
      · rw [if_neg he, if_neg (fun h => he (heq.mp h))]
        rfl

namespace Adapter

variable {ι : Type} [DecidableEq ι]

/-- Neither `bDriverStopped` nor `bSurpriseRemoved`. -/
def driverUp (s : Adapter ι) : Bool := !s.bDriverStopped && !s.bSurpriseRemoved

/-- The reorder control of a station and a TID. -/
def reorderCtrl (s : Adapter ι) (c : StaId × Fin 16) : RecvReorderCtrl :=
  (s.sta c.1).recvreorderCtrl c.2

/-- Change a reorder control. -/
def setReorderCtrl (s : Adapter ι) (c : StaId × Fin 16) (r : RecvReorderCtrl) : Adapter ι :=
  s.updateSta c.1 fun st => st.updateReorder c.2 fun _ => r

/-- Set `indicate_seq` of a reorder control. -/
def setIndicateSeq (s : Adapter ι) (c : StaId × Fin 16) (seq : ℕ) : Adapter ι :=
  s.setReorderCtrl c { s.reorderCtrl c with indicateSeq := seq }

/-- The pending list of a reorder control. -/
def pendingOf (s : Adapter ι) (c : StaId × Fin 16) : List ι := s.queue (.pending c.1 c.2)

/-- The sequence number of a frame. -/
def seqNumOf (s : Adapter ι) (f : ι) : ℕ := (s.recvframe f).attrib.seqNum

/-- The frame `f` is linked into the pending list of `c`, which becomes `l`. -/
def linkPending (s : Adapter ι) (c : StaId × Fin 16) (f : ι) (l : List ι) : Adapter ι :=
  { s with queue := Function.update (unlink s.queue f) (.pending c.1 c.2) l }

/-- `enqueue_reorder_recvframe`. The result is `none` where the source returns false. -/
def enqueueReorderRecvframe (s : Adapter ι) (c : StaId × Fin 16) (f : ι) :
    Option (Adapter ι) :=
  (enqueueWalk s.seqNumOf f (s.pendingOf c)).map (s.linkPending c f)

/-- The indication of one frame in `recv_indicatepkts_in_order`. A stopped driver drops
plain frames here without freeing them. -/
def indicateFrame (s : Adapter ι) (f : ι) : Option (Adapter ι) :=
  if (s.recvframe f).attrib.amsdu then some (s.amsduToMsdu f)
  else if s.driverUp then s.rtwRecvIndicatepkt f
  else some s

/-- The loop of `recv_indicatepkts_in_order` over the pending list. -/
def inOrderLoop (c : StaId × Fin 16) : List ι → Adapter ι → Option (Bool × Adapter ι)
  | [], s => some (false, s)
  | f :: fs, s =>
    let indicateSeq := (s.reorderCtrl c).indicateSeq
    if snLess indicateSeq (s.seqNumOf f) then some (true, s)
    else
      let s := s.listDelInit f
      let s :=
        if indicateSeq = s.seqNumOf f then s.setIndicateSeq c ((indicateSeq + 1) &&& 0xfff)
        else s
      (s.indicateFrame f).bind fun s => inOrderLoop c fs s

/-- `recv_indicatepkts_in_order`. -/
def recvIndicatepktsInOrder (s : Adapter ι) (c : StaId × Fin 16) (bforced : Bool) :
    Option (Bool × Adapter ι) :=
  match bforced, s.pendingOf c with
  | true, [] => some (true, s)
  | true, f :: fs => inOrderLoop c (f :: fs) (s.setIndicateSeq c (s.seqNumOf f))
  | false, fs => inOrderLoop c fs s

/-- The part of `recv_indicatepkt_reorder` under the lock of the pending list. -/
def reorderLocked (s : Adapter ι) (c : StaId × Fin 16) (f : ι) : Option (Status × Adapter ι) :=
  let (ok, r) := checkIndicateSeq (s.reorderCtrl c) (s.seqNumOf f)
  let s := s.setReorderCtrl c r
  if ok then
    match s.enqueueReorderRecvframe c f with
    | none => some (.fail, s)
    | some s => (s.recvIndicatepktsInOrder c false).map fun r => (.success, r.2)
  else some (.fail, s)

/-- `recv_indicatepkt_reorder`. -/
def recvIndicatepktReorder (s : Adapter ι) (f : ι) : Option (Status × Adapter ι) :=
  let c := (s.recvframe f).preorderCtrl
  let seqNum := s.seqNumOf f
  if (s.recvframe f).attrib.amsdu then
    if (s.reorderCtrl c).enable then s.reorderLocked c f
    else
      let s := (s.setIndicateSeq c seqNum).amsduToMsdu f
      some (.success, s.setIndicateSeq c (((s.reorderCtrl c).indicateSeq + 1) % 4096))
  else
    (s.wlanhdrToEthhdr f).bind fun s =>
      if !(s.recvframe f).attrib.qos then
        if s.driverUp then (s.rtwRecvIndicatepkt f).map fun s => (.success, s)
        else some (.fail, s)
      else if (s.reorderCtrl c).enable then s.reorderLocked c f
      else
        ((s.setIndicateSeq c seqNum).rtwRecvIndicatepkt f).map fun s =>
          (.success, s.setIndicateSeq c (((s.reorderCtrl c).indicateSeq + 1) % 4096))

/-- `rtw_reordering_ctrl_timeout_handler`. -/
def rtwReorderingCtrlTimeoutHandler (s : Adapter ι) (c : StaId × Fin 16) :
    Option (Adapter ι) :=
  if s.driverUp then (s.recvIndicatepktsInOrder c true).map fun r => r.2
  else some s

/-! ## What the parts change -/

@[simp] theorem reorderCtrl_setReorderCtrl (s : Adapter ι) (c : StaId × Fin 16)
    (r : RecvReorderCtrl) : (s.setReorderCtrl c r).reorderCtrl c = r := by
  simp [reorderCtrl, setReorderCtrl, updateSta, StaInfo.updateReorder]

@[simp] theorem queue_setReorderCtrl (s : Adapter ι) (c : StaId × Fin 16) (r : RecvReorderCtrl) :
    (s.setReorderCtrl c r).queue = s.queue := rfl

@[simp] theorem recvframe_setReorderCtrl (s : Adapter ι) (c : StaId × Fin 16)
    (r : RecvReorderCtrl) : (s.setReorderCtrl c r).recvframe = s.recvframe := rfl

@[simp] theorem handedUp_setReorderCtrl (s : Adapter ι) (c : StaId × Fin 16)
    (r : RecvReorderCtrl) : (s.setReorderCtrl c r).handedUp = s.handedUp := rfl

@[simp] theorem driverUp_setReorderCtrl (s : Adapter ι) (c : StaId × Fin 16)
    (r : RecvReorderCtrl) : (s.setReorderCtrl c r).driverUp = s.driverUp := rfl

theorem setReorderCtrl_setReorderCtrl (s : Adapter ι) (c : StaId × Fin 16)
    (r r' : RecvReorderCtrl) : (s.setReorderCtrl c r).setReorderCtrl c r' =
    s.setReorderCtrl c r' := by
  simp [setReorderCtrl, updateSta, StaInfo.updateReorder]

theorem setIndicateSeq_setIndicateSeq (s : Adapter ι) (c : StaId × Fin 16) (n m : ℕ) :
    (s.setIndicateSeq c n).setIndicateSeq c m = s.setIndicateSeq c m := by
  simp [setIndicateSeq, setReorderCtrl_setReorderCtrl]

theorem setIndicateSeq_self {s : Adapter ι} {c : StaId × Fin 16} {n : ℕ}
    (h : (s.reorderCtrl c).indicateSeq = n) : s.setIndicateSeq c n = s := by
  subst h
  simp [setIndicateSeq, setReorderCtrl, updateSta, StaInfo.updateReorder, reorderCtrl]

/-- The move of the window in a round of `recv_indicatepkts_in_order`. -/
theorem setIndicateSeq_step {s : Adapter ι} {c : StaId × Fin 16} {f : ι} {start pos : ℕ}
    (hs : (s.reorderCtrl c).indicateSeq = start % 4096) (hf : s.seqNumOf f = pos % 4096)
    (h1 : pos < start + 2048) (h2 : start < pos + 2048) :
    (if start % 4096 = s.seqNumOf f then s.setIndicateSeq c ((start % 4096 + 1) &&& 0xfff) else s)
      = s.setIndicateSeq c ((if pos = start then start + 1 else start) % 4096) := by
  have hand : (start % 4096 + 1) &&& 0xfff = (start % 4096 + 1) % 4096 :=
    Nat.and_two_pow_sub_one_eq_mod _ 12
  rw [hf, hand]
  by_cases he : pos = start
  · rw [if_pos he, if_pos (by rw [he])]
    congr 1
    omega
  · rw [if_neg he, if_neg (fun hm => he ((mod_eq_mod_iff h1 h2).mp hm.symm)),
      setIndicateSeq_self hs]

@[simp] theorem driverUp_consumed (s : Adapter ι) (f : ι) (fr : RecvFrame) (avail : ℕ → Bool)
    (hu : List ι) (inds : List (Indication ι)) :
    (s.consumed f fr avail hu inds).driverUp = s.driverUp := by
  simp only [driverUp, consumed_bDriverStopped, consumed_bSurpriseRemoved]

@[simp] theorem reorderCtrl_consumed (s : Adapter ι) (f : ι) (fr : RecvFrame)
    (avail : ℕ → Bool) (hu : List ι) (inds : List (Indication ι)) (c : StaId × Fin 16) :
    (s.consumed f fr avail hu inds).reorderCtrl c = s.reorderCtrl c := by
  simp only [reorderCtrl, consumed_sta]

@[simp] theorem pendingOf_consumed (s : Adapter ι) (f : ι) (fr : RecvFrame)
    (avail : ℕ → Bool) (hu : List ι) (inds : List (Indication ι)) (c : StaId × Fin 16) :
    (s.consumed f fr avail hu inds).pendingOf c = (s.pendingOf c).filter (· ≠ f) := by
  simp [pendingOf, addTail, unlink]

/-- A frame that `recv_indicatepkts_in_order` can hand up. -/
def ready (s : Adapter ι) (f : ι) : Prop :=
  (s.recvframe f).attrib.amsdu = true ∨ (s.recvframe f).pkt = true

/-- With the driver up, the indication of a frame hands it up and returns it to the pool. -/
theorem indicateFrame_eq {s s' : Adapter ι} {f : ι} (hf : s.ready f) (hup : s.driverUp = true)
    (h : s.indicateFrame f = some s') :
    ∃ fr avail inds, s' = s.consumed f fr avail [f] inds ∧
      fr.attrib = (s.recvframe f).attrib := by
  unfold indicateFrame at h
  split at h
  · cases h
    obtain ⟨fr, avail, he, hattr⟩ := s.amsduToMsdu_eq f
    exact ⟨fr, avail, _, he, hattr⟩
  · rename_i ha
    obtain ⟨fr, avail, inds, he, hattr, -⟩ := rtwRecvIndicatepkt_eq h
    rw [if_pos (hf.resolve_left ha)] at he
    exact ⟨fr, avail, inds, he, hattr⟩

theorem reorderLocked_eq {s : Adapter ι} {c : StaId × Fin 16} {f : ι}
    {checked : Bool × RecvReorderCtrl}
    (h : checkIndicateSeq (s.reorderCtrl c) (s.seqNumOf f) = checked) :
    s.reorderLocked c f =
      if checked.1 then
        match (s.setReorderCtrl c checked.2).enqueueReorderRecvframe c f with
        | none => some (.fail, s.setReorderCtrl c checked.2)
        | some t => (t.recvIndicatepktsInOrder c false).map fun r => (.success, r.2)
      else some (.fail, s.setReorderCtrl c checked.2) := by
  rewrite [reorderLocked, h]
  rfl

theorem enqueueWalk_perm {seqNum : ι → ℕ} {f : ι} :
    ∀ {fs l : List ι}, enqueueWalk seqNum f fs = some l → l.Perm (f :: fs)
  | [], l, h => by
    cases h
    exact List.Perm.refl _
  | g :: fs, l, h => by
    rw [enqueueWalk] at h
    split at h
    · obtain ⟨l', hl', rfl⟩ := Option.map_eq_some_iff.mp h
      exact ((enqueueWalk_perm hl').cons g).trans (List.Perm.swap f g fs)
    · split at h
      · simp at h
      · cases h
        exact List.Perm.refl _

/-- What the locked part does : the frame is rejected, or linked into the pending list, which is then
handed up as far as it is in order. -/
theorem reorderLocked_cases {s s' : Adapter ι} {c : StaId × Fin 16} {f : ι} {st : Status}
    {checked : Bool × RecvReorderCtrl}
    (hc : checkIndicateSeq (s.reorderCtrl c) (s.seqNumOf f) = checked)
    (h : s.reorderLocked c f = some (st, s')) :
    ((checked.1 = false ∨ enqueueWalk s.seqNumOf f (s.pendingOf c) = none) ∧ st = .fail ∧
      s' = s.setReorderCtrl c checked.2) ∨
    ∃ l more, enqueueWalk s.seqNumOf f (s.pendingOf c) = some l ∧ st = .success ∧
      inOrderLoop c l ((s.setReorderCtrl c checked.2).linkPending c f l) = some (more, s') := by
  rw [reorderLocked_eq hc] at h
  split at h
  · have hwalk : (s.setReorderCtrl c checked.2).enqueueReorderRecvframe c f
        = (enqueueWalk s.seqNumOf f (s.pendingOf c)).map
          ((s.setReorderCtrl c checked.2).linkPending c f) :=
      rfl
    rw [hwalk] at h
    cases hl : enqueueWalk s.seqNumOf f (s.pendingOf c) with
    | none =>
      rw [hl] at h
      cases h
      exact Or.inl ⟨Or.inr rfl, rfl, rfl⟩
    | some l =>
      rw [hl] at h
      obtain ⟨⟨more, t⟩, hloop, hst⟩ := Option.map_eq_some_iff.mp h
      cases hst
      have hpend : ((s.setReorderCtrl c checked.2).linkPending c f l).pendingOf c = l :=
        Function.update_self ..
      rw [recvIndicatepktsInOrder, hpend] at hloop
      exact Or.inr ⟨l, more, rfl, rfl, hloop⟩
  · rename_i hok
    cases h
    exact Or.inl ⟨Or.inl (by simpa using hok), rfl, rfl⟩

/-- A timeout finds an empty list, or starts at the first frame of the list. -/
theorem timeout_cases {s s' : Adapter ι} {c : StaId × Fin 16}
    (h : s.rtwReorderingCtrlTimeoutHandler c = some s') :
    s' = s ∨ s.driverUp = true ∧ ∃ f fs more, s.pendingOf c = f :: fs ∧
      inOrderLoop c (f :: fs) (s.setIndicateSeq c (s.seqNumOf f)) = some (more, s') := by
  unfold rtwReorderingCtrlTimeoutHandler at h
  split at h
  · rename_i hup
    obtain ⟨⟨more, t⟩, hloop, rfl⟩ := Option.map_eq_some_iff.mp h
    unfold recvIndicatepktsInOrder at hloop
    cases hp : s.pendingOf c with
    | nil =>
      rw [hp] at hloop
      cases hloop
      exact Or.inl rfl
    | cons f fs =>
      rw [hp] at hloop
      exact Or.inr ⟨hup, f, fs, more, rfl, hloop⟩
  · cases h
    exact Or.inl rfl

theorem reorderLocked_of_reject {s : Adapter ι} {c : StaId × Fin 16} {f : ι}
    (h : checkIndicateSeq (s.reorderCtrl c) (s.seqNumOf f) = (false, s.reorderCtrl c)) :
    s.reorderLocked c f = some (.fail, s) := by
  have hself : s.setReorderCtrl c (s.reorderCtrl c) = s := setIndicateSeq_self rfl
  rw [reorderLocked_eq h]
  simp only [Bool.false_eq_true, if_false, hself]

theorem reorderLocked_of_accept {s : Adapter ι} {c : StaId × Fin 16} {f : ι} {seq : ℕ}
    (h : checkIndicateSeq (s.reorderCtrl c) (s.seqNumOf f)
      = (true, { s.reorderCtrl c with indicateSeq := seq })) :
    s.reorderLocked c f =
      match (s.setIndicateSeq c seq).enqueueReorderRecvframe c f with
      | none => some (.fail, s.setIndicateSeq c seq)
      | some t => (t.recvIndicatepktsInOrder c false).map fun r => (.success, r.2) := by
  rw [reorderLocked_eq h]
  simp only [if_true]
  rfl

/-- Before the first frame, the locked part takes the window to start at it. -/
theorem reorderLocked_fresh {s : Adapter ι} {c : StaId × Fin 16} (f : ι)
    (hs : (s.reorderCtrl c).indicateSeq = 0xffff) :
    s.reorderLocked c f = (s.setIndicateSeq c (s.seqNumOf f)).reorderLocked c f := by
  have hctrl : (s.setIndicateSeq c (s.seqNumOf f)).reorderCtrl c
      = { s.reorderCtrl c with indicateSeq := s.seqNumOf f } := by simp [setIndicateSeq]
  have hseq : (s.setIndicateSeq c (s.seqNumOf f)).seqNumOf f = s.seqNumOf f := rfl
  rw [reorderLocked_eq rfl, reorderLocked_eq rfl, checkIndicateSeq_fresh _ _ hs, hctrl, hseq]
  simp only [setIndicateSeq, setReorderCtrl_setReorderCtrl]

/-! ## The simulation -/

/-- The reorder control `c` with its pending list is the buffer `b`, with positions that
do not wrap in place of sequence numbers. -/
structure Tracks (s : Adapter ι) (c : StaId × Fin 16) (b : Buffer ι) : Prop where
  enable : (s.reorderCtrl c).enable = true
  wsize : (s.reorderCtrl c).wsizeB = 64
  start : (s.reorderCtrl c).indicateSeq = b.start % 4096
  pending : s.pendingOf c = b.pending.map Prod.fst
  released : s.handedUp = b.released.map Prod.fst
  seq : ∀ x ∈ b.released ++ b.pending, s.seqNumOf x.1 = x.2 % 4096
  nodup : ((b.released ++ b.pending).map Prod.fst).Nodup
  ready : ∀ x ∈ b.pending, s.ready x.1
  up : s.driverUp = true

/-- The start of the window is set. -/
theorem tracks_setIndicateSeq {s : Adapter ι} {c : StaId × Fin 16} {b : Buffer ι}
    (ht : Tracks s c b) (start' : ℕ) :
    Tracks (s.setIndicateSeq c (start' % 4096)) c { b with start := start' } := by
  have hctrl : (s.setIndicateSeq c (start' % 4096)).reorderCtrl c
      = { s.reorderCtrl c with indicateSeq := start' % 4096 } := by simp [setIndicateSeq]
  refine ⟨?_, ?_, ?_, ht.pending, ht.released, ht.seq, ht.nodup, ht.ready, ht.up⟩
  · exact (congrArg RecvReorderCtrl.enable hctrl).trans ht.enable
  · exact (congrArg RecvReorderCtrl.wsizeB hctrl).trans ht.wsize
  · exact congrArg RecvReorderCtrl.indicateSeq hctrl

/-- Taking the first frame off the pending list and handing it up. -/
theorem tracks_consumed {s : Adapter ι} {c : StaId × Fin 16} {start : ℕ} {y : ι × ℕ}
    {ys rel : List (ι × ℕ)} (ht : Tracks s c ⟨start, y :: ys, rel⟩) {fr : RecvFrame}
    {avail : ℕ → Bool} {inds : List (Indication ι)}
    (hfr : ∀ g, (Function.update s.recvframe y.1 fr g).attrib = (s.recvframe g).attrib) :
    Tracks ((s.listDelInit y.1).consumed y.1 fr avail [y.1] inds) c ⟨start, ys, rel ++ [y]⟩ := by
  have hitems : rel ++ [y] ++ ys = rel ++ y :: ys := by simp
  have hnd := ht.nodup
  rw [List.map_append, List.map_cons] at hnd
  have hy : y.1 ∉ ys.map Prod.fst := (List.nodup_cons.mp hnd.of_append_right).1
  have hctrl : (s.listDelInit y.1).reorderCtrl c = s.reorderCtrl c := rfl
  have hup : (s.listDelInit y.1).driverUp = s.driverUp := rfl
  have hrecv : (s.listDelInit y.1).recvframe = s.recvframe := rfl
  have hhu : (s.listDelInit y.1).handedUp = s.handedUp := rfl
  have hpend : (s.listDelInit y.1).pendingOf c = (s.pendingOf c).filter (· ≠ y.1) := rfl
  refine ⟨?_, ?_, ?_, ?_, ?_, ?_, ?_, ?_, ?_⟩
  · simpa [hctrl] using ht.enable
  · simpa [hctrl] using ht.wsize
  · simpa [hctrl] using ht.start
  · rw [pendingOf_consumed, hpend, ht.pending]
    simp only [List.filter_filter, List.map_cons]
    rw [List.filter_cons_of_neg (by simp), List.filter_eq_self]
    intro g hg
    have hne : g ≠ y.1 := fun h => hy (h ▸ hg)
    simpa using hne
  · simpa [hhu] using ht.released
  · rw [hitems]
    intro x hx
    rw [seqNumOf, consumed_recvframe, hrecv, hfr]
    exact ht.seq x hx
  · rw [hitems]
    exact ht.nodup
  · intro x hx
    have hne : x.1 ≠ y.1 := fun h => hy (h ▸ List.mem_map_of_mem hx)
    rw [ready, consumed_recvframe, hrecv, Function.update_of_ne hne]
    exact ht.ready x (List.mem_cons_of_mem y hx)
  · simpa [hup] using ht.up

/-- The loop of `recv_indicatepkts_in_order` drains the buffer. -/
theorem tracks_inOrderLoop {c : StaId × Fin 16} :
    ∀ {l : List (ι × ℕ)} {s s' : Adapter ι} {start : ℕ} {rel : List (ι × ℕ)} {more : Bool},
      Tracks s c ⟨start, l, rel⟩ → l.Pairwise (·.2 < ·.2) →
      (∀ y ∈ l, y.2 < start + 2048 ∧ start < y.2 + 2048) →
      inOrderLoop c (l.map Prod.fst) s = some (more, s') →
      Tracks s' c ⟨(drain start l).2.1, (drain start l).2.2, rel ++ (drain start l).1⟩ ∧
        ∀ g, (s'.recvframe g).attrib = (s.recvframe g).attrib
  | [], s, s', start, rel, more, ht, _, _, h => by
    cases h
    rw [drain, List.append_nil]
    exact ⟨ht, fun _ => rfl⟩
  | y :: ys, s, s', start, rel, more, ht, hl, hwin, h => by
    obtain ⟨h1, h2⟩ := hwin y (List.mem_cons_self ..)
    have hy : s.seqNumOf y.1 = y.2 % 4096 := ht.seq y (by simp)
    have hstart : (s.reorderCtrl c).indicateSeq = start % 4096 := ht.start
    rw [List.pairwise_cons] at hl
    rw [List.map_cons, inOrderLoop] at h
    dsimp only at h
    rw [hy, hstart] at h
    by_cases hlt : start < y.2
    · rw [if_pos ((snLess_mod h2 h1).mpr hlt)] at h
      cases h
      rw [drain_cons_lt ys hlt, List.append_nil]
      exact ⟨ht, fun _ => rfl⟩
    · rw [if_neg (fun hs => hlt ((snLess_mod h2 h1).mp hs))] at h
      -- the frame is taken off, and the window moves on if it waited for this frame
      set start' := if y.2 = start then start + 1 else start with hstart'
      rw [setIndicateSeq_step (s := s.listDelInit y.1) hstart hy h1 h2, ← hstart'] at h
      obtain ⟨t, hind, hloop⟩ := Option.bind_eq_some_iff.mp h
      obtain ⟨fr, avail, inds, rfl, hattr⟩ := indicateFrame_eq
        (s := (s.listDelInit y.1).setIndicateSeq c (start' % 4096))
        (ht.ready y (List.mem_cons_self ..)) ht.up hind
      have hfr : ∀ g, (Function.update s.recvframe y.1 fr g).attrib = (s.recvframe g).attrib := by
        intro g
        rcases eq_or_ne g y.1 with rfl | hg
        · rw [Function.update_self]
          exact hattr
        · rw [Function.update_of_ne hg]
      have hwin' : ∀ z ∈ ys, z.2 < start' + 2048 ∧ start' < z.2 + 2048 := by
        intro z hz
        have := hwin z (List.mem_cons_of_mem y hz)
        have := hl.1 z hz
        rw [hstart']
        split <;> omega
      obtain ⟨htr, hat⟩ := tracks_inOrderLoop
        (tracks_consumed (tracks_setIndicateSeq ht start') hfr) hl.2 hwin' hloop
      refine ⟨?_, fun g => (hat g).trans (hfr g)⟩
      have hd : drain start (y :: ys) = (y :: (drain start' ys).1, (drain start' ys).2) := by
        rw [drain, if_neg hlt]
      rw [hd]
      simpa using htr

/-- A frame placed in the pending list. -/
theorem tracks_linkPending {s : Adapter ι} {c : StaId × Fin 16} {b : Buffer ι} {x : ι × ℕ}
    {l : List (ι × ℕ)} (ht : Tracks s c b) (hl : place x b.pending = some l)
    (hf : x.1 ∉ (b.released ++ b.pending).map Prod.fst) (hready : s.ready x.1)
    (hseq : s.seqNumOf x.1 = x.2 % 4096) :
    Tracks (s.linkPending c x.1 (l.map Prod.fst)) c { b with pending := l } := by
  have hperm := place_perm hl
  have hall : (b.released ++ l).Perm (x :: (b.released ++ b.pending)) :=
    (hperm.append_left _).trans List.perm_middle
  refine ⟨ht.enable, ht.wsize, ht.start, Function.update_self .., ht.released, ?_, ?_, ?_, ht.up⟩
  · intro y hy
    rcases List.mem_cons.mp (hall.mem_iff.mp hy) with rfl | hy
    · exact hseq
    · exact ht.seq y hy
  · rw [(hall.map Prod.fst).nodup_iff, List.map_cons, List.nodup_cons]
    exact ⟨hf, ht.nodup⟩
  · intro y hy
    rcases List.mem_cons.mp (hperm.mem_iff.mp hy) with rfl | hy
    · exact hready
    · exact ht.ready y hy

/-- What a frame given to the reorder code may do : it is behind the window or its position
is taken, and then it is rejected and the buffer stays, or it is pushed into the buffer. -/
def Pushes (s : Adapter ι) (c : StaId × Fin 16) (f : ι) (b : Buffer ι) (st : Status)
    (s' : Adapter ι) : Prop :=
  (st = .fail ∧ Tracks s' c b ∧ (snLess (s.seqNumOf f) (b.start % 4096) = true ∨
      place (f, positionOf b.start (s.seqNumOf f)) b.pending = none)) ∨
    (st = .success ∧ ∃ b', positionOf b.start (s.seqNumOf f) < b.start + 2048 ∧
      b.push 64 (f, positionOf b.start (s.seqNumOf f)) = some b' ∧ Tracks s' c b')

/-- The part of `recv_indicatepkt_reorder` under the lock. -/
theorem tracks_reorderLocked {s s' : Adapter ι} {c : StaId × Fin 16} {b : Buffer ι} {f : ι}
    {st : Status} (ht : Tracks s c b) (hsort : b.pending.Pairwise (·.2 < ·.2))
    (hwin : ∀ y ∈ b.pending, b.start < y.2 ∧ y.2 < b.start + 64)
    (hf : f ∉ (b.released ++ b.pending).map Prod.fst) (hready : s.ready f)
    (hseq : s.seqNumOf f < 4096) (h : s.reorderLocked c f = some (st, s')) :
    s.Pushes c f b st s' ∧ ∀ g, (s'.recvframe g).attrib = (s.recvframe g).attrib := by
  have hcheck := checkIndicateSeq_eq ht.wsize ht.start hseq
  split at hcheck
  · rename_i hless
    rw [reorderLocked_of_reject hcheck] at h
    cases h
    exact ⟨Or.inl ⟨rfl, ht, Or.inl hless⟩, fun _ => rfl⟩
  rename_i hless
  rw [reorderLocked_of_accept hcheck] at h
  have hlt := positionOf_lt (Bool.not_eq_true _ ▸ hless)
  have hle := le_positionOf b.start (s.seqNumOf f)
  have hmod := positionOf_mod b.start hseq
  unfold Pushes Buffer.push
  set pos := positionOf b.start (s.seqNumOf f)
  have hwalk : enqueueWalk s.seqNumOf f (s.pendingOf c)
      = (place (f, pos) b.pending).map (List.map Prod.fst) := by
    rw [ht.pending]
    refine enqueueWalk_eq hmod.symm fun y hy => ⟨ht.seq y (List.mem_append_right _ hy), ?_⟩
    have := hwin y hy
    omega
  obtain ⟨ha1, ha2, ha3, -⟩ := Buffer.le_advance (w := 64) b.start pos hle (by omega)
  cases hpl : place (f, pos) b.pending with
  | none =>
    -- the position is taken, so it is in the window, and the window has not moved
    obtain ⟨y, hy, hye⟩ := exists_of_place_eq_none hpl
    have hadv : advance 64 b.start pos = b.start := by
      have := hwin y hy
      simp only at hye
      rw [advance, if_neg (by omega), if_neg (by omega)]
    rw [hadv, setIndicateSeq_self ht.start] at h
    rw [hpl] at hwalk
    rw [enqueueReorderRecvframe, hwalk] at h
    cases h
    exact ⟨Or.inl ⟨rfl, ht, Or.inr rfl⟩, fun _ => rfl⟩
  | some l =>
    rw [hpl] at hwalk
    have hten := tracks_linkPending (tracks_setIndicateSeq ht (advance 64 b.start pos))
      hpl hf hready hmod.symm
    rw [enqueueReorderRecvframe] at h
    have hwalk' : enqueueWalk (s.setIndicateSeq c (advance 64 b.start pos % 4096)).seqNumOf f
        ((s.setIndicateSeq c (advance 64 b.start pos % 4096)).pendingOf c)
          = some (l.map Prod.fst) := hwalk
    rw [hwalk'] at h
    obtain ⟨⟨more, t⟩, hloop, he⟩ := Option.map_eq_some_iff.mp h
    cases he
    have hwin' : ∀ y ∈ l, y.2 < advance 64 b.start pos + 2048 ∧
        advance 64 b.start pos < y.2 + 2048 := by
      intro y hy
      rcases List.mem_cons.mp ((place_perm hpl).mem_iff.mp hy) with rfl | hy
      · simp only
        omega
      · have := hwin y hy
        have : advance 64 b.start pos ≤ b.start + 1985 := by
          unfold advance
          split_ifs <;> omega
        omega
    rw [recvIndicatepktsInOrder, hten.pending] at hloop
    obtain ⟨htr, hat⟩ := tracks_inOrderLoop hten (place_sorted hsort hpl) hwin' hloop
    exact ⟨Or.inr ⟨rfl, _, hlt, rfl, htr⟩, hat⟩

/-- A change of one frame is not seen by the buffer, if the frame is not in it or only its
bytes change. -/
theorem tracks_updateFrame {s : Adapter ι} {c : StaId × Fin 16} {b : Buffer ι} {f : ι}
    {fr : RecvFrame} (ht : Tracks s c b)
    (hfr : f ∈ (b.released ++ b.pending).map Prod.fst → (s.recvframe f).SameBut fr) :
    Tracks (s.updateFrame f fun _ => fr) c b := by
  have hsame : ∀ x ∈ b.released ++ b.pending,
      (s.recvframe x.1).SameBut (Function.update s.recvframe f fr x.1) := by
    intro x hx
    rcases eq_or_ne x.1 f with rfl | hg
    · rw [Function.update_self]
      exact hfr (List.mem_map_of_mem hx)
    · rw [Function.update_of_ne hg]
      exact ⟨rfl, rfl, rfl⟩
  refine ⟨ht.enable, ht.wsize, ht.start, ht.pending, ht.released, ?_, ht.nodup, ?_, ht.up⟩
  · intro x hx
    exact (congrArg RxPktAttrib.seqNum (hsame x hx).2.1).trans (ht.seq x hx)
  · intro x hx
    have hx' := hsame x (List.mem_append_right _ hx)
    rcases ht.ready x hx with ha | hp
    · exact Or.inl ((congrArg RxPktAttrib.amsdu hx'.2.1).trans ha)
    · exact Or.inr (hx'.1.trans hp)

/-- With reordering on, `recv_indicatepkt_reorder` is its locked part, after the rewrite of
the header of a plain frame. -/
theorem recvIndicatepktReorder_eq {s s' : Adapter ι} {c : StaId × Fin 16} {f : ι} {st : Status}
    (hc : (s.recvframe f).preorderCtrl = c) (hen : (s.reorderCtrl c).enable = true)
    (hqos : (s.recvframe f).attrib.amsdu = true ∨ (s.recvframe f).attrib.qos = true)
    (h : s.recvIndicatepktReorder f = some (st, s')) :
    ∃ fr, (s.recvframe f).SameBut fr ∧
      (s.updateFrame f fun _ => fr).reorderLocked c f = some (st, s') := by
  unfold recvIndicatepktReorder at h
  rw [hc] at h
  dsimp only at h
  split at h
  · refine ⟨s.recvframe f, ⟨rfl, rfl, rfl⟩, ?_⟩
    rw [updateFrame, Function.update_eq_self]
    exact h
  · rename_i ha
    obtain ⟨t, hw, h⟩ := Option.bind_eq_some_iff.mp h
    obtain ⟨fr, hfr, rfl⟩ := wlanhdrToEthhdr_eq hw
    have hsame := RecvFrame.wlanhdrToEthhdr_sameBut hfr
    have hq : ((s.updateFrame f fun _ => fr).recvframe f).attrib.qos = true := by
      rw [recvframe_updateFrame, Function.update_self, hsame.2.1]
      exact hqos.resolve_left ha
    have hen' : ((s.updateFrame f fun _ => fr).reorderCtrl c).enable = true := hen
    rw [hq, if_neg (by simp), if_pos hen'] at h
    exact ⟨fr, hsame, h⟩

/-- A frame for a reorder control, in the pool as `f`. -/
structure Arrives (s : Adapter ι) (c : StaId × Fin 16) (f : ι) : Prop where
  ctrl : (s.recvframe f).preorderCtrl = c
  kind : (s.recvframe f).attrib.amsdu = true ∨
    (s.recvframe f).attrib.qos = true ∧ (s.recvframe f).pkt = true
  seq_lt : s.seqNumOf f < 4096

/-- The rewrite of the header leaves an arriving frame as it is for the reorder code. -/
theorem Arrives.updateFrame {s : Adapter ι} {c : StaId × Fin 16} {f : ι} {fr : RecvFrame}
    (ha : s.Arrives c f) (hsame : (s.recvframe f).SameBut fr) :
    (s.updateFrame f fun _ => fr).ready f ∧
      ∀ g, ((s.updateFrame f fun _ => fr).recvframe g).attrib = (s.recvframe g).attrib := by
  constructor
  · rw [ready, recvframe_updateFrame, Function.update_self, hsame.2.1, hsame.1]
    exact ha.kind.imp_right And.right
  · intro g
    rw [recvframe_updateFrame]
    rcases eq_or_ne g f with rfl | hg
    · rw [Function.update_self]
      exact hsame.2.1
    · rw [Function.update_of_ne hg]

/-- The arrival of a frame is rejected, or pushes the frame into the buffer. -/
theorem tracks_reorder {s s' : Adapter ι} {c : StaId × Fin 16} {b : Buffer ι} {f : ι}
    {st : Status} (ht : Tracks s c b) (hsort : b.pending.Pairwise (·.2 < ·.2))
    (hwin : ∀ y ∈ b.pending, b.start < y.2 ∧ y.2 < b.start + 64)
    (hf : f ∉ (b.released ++ b.pending).map Prod.fst) (ha : s.Arrives c f)
    (h : s.recvIndicatepktReorder f = some (st, s')) :
    s.Pushes c f b st s' ∧ ∀ g, (s'.recvframe g).attrib = (s.recvframe g).attrib := by
  obtain ⟨fr, hsame, hlock⟩ :=
    recvIndicatepktReorder_eq ha.ctrl ht.enable (ha.kind.imp_right And.left) h
  obtain ⟨hready, hfr⟩ := ha.updateFrame hsame
  have hseq : (s.updateFrame f fun _ => fr).seqNumOf f = s.seqNumOf f :=
    congrArg RxPktAttrib.seqNum (hfr f)
  obtain ⟨hp, hat⟩ := tracks_reorderLocked (tracks_updateFrame ht fun _ => hsame) hsort
    hwin hf hready
    (hseq ▸ ha.seq_lt) hlock
  unfold Pushes at hp
  rw [hseq] at hp
  exact ⟨hp, fun g => (hat g).trans (hfr g)⟩

/-- A reorder control that waits for its first frame, with the frames `rel` handed up
before. -/
structure Fresh (s : Adapter ι) (c : StaId × Fin 16) (rel : List (ι × ℕ)) : Prop where
  indicateSeq : (s.reorderCtrl c).indicateSeq = 0xffff
  tracks : Tracks (s.setIndicateSeq c 0) c ⟨0, [], rel⟩

/-- A fresh reorder control takes the position of its first frame, `pos`, as the start of
the window. -/
theorem tracks_reorder_fresh {s s' : Adapter ι} {c : StaId × Fin 16} {rel : List (ι × ℕ)}
    {f : ι} {st : Status} {pos : ℕ} (hs : Fresh s c rel) (hf : f ∉ rel.map Prod.fst)
    (ha : s.Arrives c f) (hpos : pos % 4096 = s.seqNumOf f)
    (h : s.recvIndicatepktReorder f = some (st, s')) :
    st = .success ∧ Tracks s' c ⟨pos + 1, [], rel ++ [(f, pos)]⟩ ∧
      ∀ g, (s'.recvframe g).attrib = (s.recvframe g).attrib := by
  have hen : (s.reorderCtrl c).enable = true := by
    simpa [setIndicateSeq] using hs.tracks.enable
  obtain ⟨fr, hsame, hlock⟩ :=
    recvIndicatepktReorder_eq ha.ctrl hen (ha.kind.imp_right And.left) h
  obtain ⟨hready, hfr⟩ := ha.updateFrame hsame
  have hseq : (s.updateFrame f fun _ => fr).seqNumOf f = pos % 4096 :=
    (congrArg RxPktAttrib.seqNum (hfr f)).trans hpos.symm
  rw [reorderLocked_fresh (s := s.updateFrame f fun _ => fr) f hs.indicateSeq, hseq] at hlock
  have ht : Tracks (s.setIndicateSeq c (pos % 4096)) c ⟨pos, [], rel⟩ := by
    have := tracks_setIndicateSeq hs.tracks pos
    rwa [setIndicateSeq_setIndicateSeq] at this
  obtain ⟨hp, hat⟩ := tracks_reorderLocked (tracks_updateFrame ht fun _ => hsame) List.Pairwise.nil
    (by simp) (by simpa using hf) hready (hseq.trans_lt (Nat.mod_lt _ (by omega))) hlock
  have hseq' : ((s.setIndicateSeq c (pos % 4096)).updateFrame f fun _ => fr).seqNumOf f
      = pos % 4096 := hseq
  unfold Pushes at hp
  rw [hseq', positionOf_self] at hp
  rcases hp with ⟨-, -, hless | hplace⟩ | ⟨hst, b', -, hpush, ht'⟩
  · have hlt := snLess_mod (a := pos) (b := pos) (by omega) (by omega)
    exact absurd (hlt.mp hless) (lt_irrefl pos)
  · exact absurd hplace (by simp [place])
  · obtain rfl : b' = ⟨pos + 1, [], rel ++ [(f, pos)]⟩ := by
      simpa [Buffer.push, place, advance, Buffer.drainFrom, drain] using hpush.symm
    exact ⟨hst, ht', fun g => (hat g).trans (hfr g)⟩

/-- A timeout flushes the buffer. -/
theorem tracks_timeout {s s' : Adapter ι} {c : StaId × Fin 16} {b : Buffer ι}
    (ht : Tracks s c b) (hb : b.pending.Pairwise (·.2 < ·.2))
    (hwin : ∀ y ∈ b.pending, b.start < y.2 ∧ y.2 < b.start + 64)
    (h : s.rtwReorderingCtrlTimeoutHandler c = some s') :
    Tracks s' c b.flush ∧ ∀ g, (s'.recvframe g).attrib = (s.recvframe g).attrib := by
  rw [rtwReorderingCtrlTimeoutHandler, if_pos ht.up] at h
  obtain ⟨⟨more, t⟩, hloop, rfl⟩ := Option.map_eq_some_iff.mp h
  obtain ⟨start, pending, rel⟩ := b
  unfold Buffer.flush
  unfold recvIndicatepktsInOrder at hloop
  rw [ht.pending] at hloop
  cases pending with
  | nil =>
    cases hloop
    exact ⟨ht, fun _ => rfl⟩
  | cons y ys =>
    have hy : s.seqNumOf y.1 = y.2 % 4096 := ht.seq y (by simp)
    rw [List.map_cons] at hloop
    dsimp only at hloop
    rw [hy] at hloop
    have hwin' : ∀ z ∈ y :: ys, z.2 < y.2 + 2048 ∧ y.2 < z.2 + 2048 := by
      intro z hz
      have hwy := hwin y (List.mem_cons_self ..)
      have hwz := hwin z hz
      simp only at hwy hwz
      omega
    have h' := tracks_inOrderLoop (tracks_setIndicateSeq ht y.2) hb hwin' hloop
    exact ⟨h'.1, h'.2⟩

end Adapter

end Rtl8188eu
