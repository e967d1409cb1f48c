import Rtl8188eu.OwnershipRun

/-!
# Where packets come from

A packet that leaves the receive path comes from the frame that is being handled, or from a
frame that was on a pending list of the reorder code. On the way from
`recv_func_posthandle` on, no frame changes its direction or its transmitter, and the frame
gets onto the pending list of its own reorder control only (`Onward`). The table of the
stations stays as it is (`SameStations`).
-/

set_option linter.unusedSectionVars false

namespace Rtl8188eu

open LinkedLists

/-- The direction and the transmitter of a frame. -/
def RecvFrame.origin (fr : RecvFrame) : Fin 4 × MacAddr := (fr.attrib.toFrDs, fr.attrib.ta)

theorem RecvFrame.Kept.origin {fr fr' : RecvFrame} (h : fr.Kept fr') : fr'.origin = fr.origin := by
  obtain ⟨-, -, i, b, ha⟩ := h
  simp [RecvFrame.origin, ha]

theorem RecvFrame.SameBut.origin {fr fr' : RecvFrame} (h : fr.SameBut fr') :
    fr'.origin = fr.origin := by
  obtain ⟨-, ha, -⟩ := h
  simp [RecvFrame.origin, ha]

namespace Adapter

variable {ι : Type} [DecidableEq ι] {F : Set (ι × StaId × Fin 16)} {A : Set ι}
  {s s' t : Adapter ι} {f : ι}

/-! ## The table of the stations -/

/-- The same records are in the table, at the same addresses. -/
structure SameStations (s s' : Adapter ι) : Prop where
  staHash : s'.staHash = s.staHash
  freeStaQueue : s'.freeStaQueue = s.freeStaQueue
  hwaddr : ∀ k, (s'.sta k).hwaddr = (s.sta k).hwaddr
  mlmepriv : s'.mlmepriv = s.mlmepriv
  mpMode : s'.mpMode = s.mpMode

theorem SameStations.refl (s : Adapter ι) : SameStations s s := ⟨rfl, rfl, fun _ => rfl, rfl, rfl⟩

theorem SameStations.trans (h₁ : SameStations s s') (h₂ : SameStations s' t) :
    SameStations s t :=
  ⟨h₂.staHash.trans h₁.staHash, h₂.freeStaQueue.trans h₁.freeStaQueue,
    fun k => (h₂.hwaddr k).trans (h₁.hwaddr k), h₂.mlmepriv.trans h₁.mlmepriv,
    h₂.mpMode.trans h₁.mpMode⟩

theorem SameStations.rtwGetStainfo (h : SameStations s s') (a : MacAddr) :
    s'.rtwGetStainfo a = s.rtwGetStainfo a := by
  unfold Adapter.rtwGetStainfo
  rw [h.staHash]
  simp only [h.hwaddr]

/-- A record changes, but not its address. -/
theorem sameStations_updateSta {k : StaId} {g : StaInfo → StaInfo}
    (h : (g (s.sta k)).hwaddr = (s.sta k).hwaddr) : SameStations s (s.updateSta k g) := by
  refine ⟨rfl, rfl, fun j => ?_, rfl, rfl⟩
  rcases eq_or_ne j k with rfl | hj
  · simpa [updateSta] using h
  · simp [updateSta, hj]

theorem sameStations_alloc {q : Queue} (h : s.rtwAllocRecvframe q = some (f, s')) :
    SameStations s s' := by
  unfold rtwAllocRecvframe at h
  cases hq : s.queue q with
  | nil => simp [hq] at h
  | cons g rest =>
    rw [hq] at h
    dsimp only at h
    split at h
    · cases h
      exact ⟨rfl, rfl, fun _ => rfl, rfl, rfl⟩
    · cases h
      exact ⟨rfl, rfl, fun _ => rfl, rfl, rfl⟩

/-! ## Frames on their way -/

/-- Packets come from the frames `A` only, and `F` says which frames may get onto which
pending lists. -/
structure Onward (F : Set (ι × StaId × Fin 16)) (A : Set ι) (s s' : Adapter ι) : Prop
    extends SameStations s s' where
  origin : ∀ x, (s'.recvframe x).origin = (s.recvframe x).origin
  pending : ∀ c, ∀ x ∈ s'.pendingOf c, x ∈ s.pendingOf c ∨ (x, c) ∈ F
  packets : ∃ inds, s'.indications = s.indications ++ inds ∧
    ∀ i ∈ inds, i.frame ∈ A ∧ i.ta = (s.recvframe i.frame).attrib.ta

theorem Onward.refl (s : Adapter ι) : Onward F A s s :=
  ⟨SameStations.refl s, fun _ => rfl, fun _ _ hx => Or.inl hx, [], by simp⟩

theorem Onward.ta (h : Onward F A s s') (x : ι) :
    (s'.recvframe x).attrib.ta = (s.recvframe x).attrib.ta :=
  congrArg Prod.snd (h.origin x)

theorem Onward.toFrDs (h : Onward F A s s') (x : ι) :
    (s'.recvframe x).attrib.toFrDs = (s.recvframe x).attrib.toFrDs :=
  congrArg Prod.fst (h.origin x)

theorem Onward.trans (h₁ : Onward F A s s') (h₂ : Onward F A s' t) : Onward F A s t := by
  obtain ⟨is₁, he₁, hi₁⟩ := h₁.packets
  obtain ⟨is₂, he₂, hi₂⟩ := h₂.packets
  refine ⟨h₁.toSameStations.trans h₂.toSameStations,
    fun x => (h₂.origin x).trans (h₁.origin x), fun c x hx => ?_, is₁ ++ is₂, ?_, fun i hi => ?_⟩
  · rcases h₂.pending c x hx with hx | hF
    · exact h₁.pending c x hx
    · exact Or.inr hF
  · rw [he₂, he₁, List.append_assoc]
  · rcases List.mem_append.mp hi with hi | hi
    · exact hi₁ i hi
    · obtain ⟨hA, hta⟩ := hi₂ i hi
      exact ⟨hA, hta.trans (h₁.ta _)⟩

/-- Where nothing is linked and nothing handed up, it does not matter which frames may be. -/
theorem Onward.mono (h : Onward ∅ ∅ s s') : Onward F A s s' := by
  obtain ⟨inds, he, hi⟩ := h.packets
  refine ⟨h.toSameStations, h.origin, fun c x hx => Or.inl ?_, inds, he, fun i him => ?_⟩
  · exact (h.pending c x hx).resolve_right id
  · exact absurd (hi i him).1 id

/-- The contents of one frame change. -/
theorem origin_update {fr : RecvFrame} (hfr : fr.origin = (s.recvframe f).origin) (x : ι) :
    (Function.update s.recvframe f fr x).origin = (s.recvframe x).origin := by
  rcases eq_or_ne x f with rfl | hx
  · rwa [Function.update_self]
  · rw [Function.update_of_ne hx]

theorem onward_consumed {fr : RecvFrame} (hfr : fr.origin = (s.recvframe f).origin)
    (avail : ℕ → Bool) (hu : List ι) {inds : List (Indication ι)}
    (hinds : ∀ i ∈ inds, i.frame ∈ A ∧ i.ta = (s.recvframe i.frame).attrib.ta) :
    Onward F A s (s.consumed f fr avail hu inds) := by
  refine ⟨⟨rfl, rfl, fun _ => rfl, rfl, rfl⟩, fun x => ?_, fun c x hx => ?_, inds, rfl, hinds⟩
  · rw [consumed_recvframe]
    exact origin_update hfr x
  · rw [pendingOf_consumed, List.mem_filter] at hx
    exact Or.inl hx.1

theorem onward_rtwFreeRecvframe (s : Adapter ι) (f : ι) : Onward F A s (s.rtwFreeRecvframe f) := by
  rw [rtwFreeRecvframe_eq]
  refine onward_consumed ?_ _ _ fun _ hi => absurd hi List.not_mem_nil
  rfl

theorem onward_freeFrames : ∀ (fs : List ι) (s : Adapter ι), Onward F A s (s.freeFrames fs)
  | [], s => Onward.refl s
  | f :: fs, s => by
    rw [freeFrames_cons]
    exact (onward_rtwFreeRecvframe s f).trans (onward_freeFrames fs _)

theorem onward_freeQueue (s : Adapter ι) (q : Queue) :
    Onward F A s (s.rtwFreeRecvframeQueue q) :=
  onward_freeFrames (s.queue q) s

theorem onward_touched {fr : RecvFrame} (hfr : fr.origin = (s.recvframe f).origin) (hw chk : Bool)
    (message : Mem) : Onward F A s (s.touched f fr hw chk message) :=
  ⟨⟨rfl, rfl, fun _ => rfl, rfl, rfl⟩, origin_update hfr,
    fun _ _ hx => Or.inl hx, [], by simp [touched]⟩

theorem onward_updateFrame {fr : RecvFrame} (hfr : fr.origin = (s.recvframe f).origin) :
    Onward F A s (s.updateFrame f fun _ => fr) := by
  rw [updateFrame_eq_touched]
  exact onward_touched hfr ..

theorem onward_listDelInit (s : Adapter ι) (f : ι) : Onward F A s (s.listDelInit f) :=
  ⟨⟨rfl, rfl, fun _ => rfl, rfl, rfl⟩, fun _ => rfl, fun _ _ hx => Or.inl (mem_unlink.mp hx).1, [],
    by simp [listDelInit]⟩

theorem onward_listAddTail (s : Adapter ι) (f : ι) {q : Queue}
    (hq : ∀ psta tid, q ≠ .pending psta tid) : Onward F A s (s.listAddTail f q) := by
  refine ⟨⟨rfl, rfl, fun _ => rfl, rfl, rfl⟩, fun _ => rfl, fun c x hx => Or.inl ?_, [],
    by simp [listAddTail]⟩
  exact (mem_addTail.mp hx).resolve_right fun h => hq c.1 c.2 h.1.symm

theorem onward_setReorderCtrl (s : Adapter ι) (c : StaId × Fin 16) (r : RecvReorderCtrl) :
    Onward F A s (s.setReorderCtrl c r) :=
  ⟨sameStations_updateSta rfl, fun _ => rfl, fun _ _ hx => Or.inl hx, [],
    by simp [setReorderCtrl, updateSta]⟩

/-! ## Defragmentation -/

theorem onward_recvframeDefrag {q : Queue} {r : Option ι} (hf : f ∈ s.queue q)
    (h0 : (s.recvframe f).attrib.fragNum ≠ 0) (he : s.recvframeDefrag q = some (r, s')) :
    Onward F A s s' := by
  cases hl : s.queue q with
  | nil => simp [hl] at hf
  | cons a rest =>
    rcases recvframeDefrag_eq hl with ⟨-, hd⟩ | ⟨ha0, hu | ⟨c, -, fr, hsame, hd⟩⟩
    · obtain ⟨-, rfl⟩ := Prod.mk.inj (Option.some.inj (he.symm.trans hd))
      exact ((onward_listDelInit s a).trans (onward_rtwFreeRecvframe _ a)).trans
        (onward_freeQueue _ q)
    · have hfa : f ≠ a := fun e => h0 (e ▸ ha0)
      exact absurd hu (List.ne_nil_of_mem (mem_unlink.mpr ⟨hf, hfa⟩))
    · obtain ⟨-, rfl⟩ := Prod.mk.inj (Option.some.inj (he.symm.trans hd))
      have h₁ : Onward F A s ((s.listDelInit a).listDelInit c) :=
        (onward_listDelInit s a).trans (onward_listDelInit _ c)
      have h₂ := h₁.trans (onward_updateFrame (f := c) hsame.origin)
      exact (h₂.trans (onward_rtwFreeRecvframe _ c)).trans (onward_freeQueue _ q)

theorem onward_enqueueFragment {r : Option ι} (he : s.enqueueFragment f = some (r, s')) :
    r = none ∧ Onward F A s s' := by
  unfold enqueueFragment at he
  split at he
  · cases he
    refine ⟨rfl, ?_⟩
    split
    · exact (onward_freeQueue s _).trans (onward_listAddTail _ f (by simp))
    · exact onward_listAddTail s f (by simp)
  · cases he
    exact ⟨rfl, onward_rtwFreeRecvframe s f⟩
  · simp at he

theorem onward_lastFragment {r : Option ι} (h0 : (s.recvframe f).attrib.fragNum ≠ 0)
    (he : s.lastFragment f = some (r, s')) : r = none ∧ Onward F A s s' := by
  unfold lastFragment at he
  split at he
  · rename_i psta hq
    have hmem : f ∈ (s.listAddTail f (.defrag psta)).queue (.defrag psta) := by
      simp [listAddTail, mem_addTail]
    obtain ⟨u, hu, -⟩ := recvframeDefrag_null hmem h0
    obtain ⟨rfl, rfl⟩ := Prod.mk.inj (Option.some.inj (he.symm.trans hu))
    exact ⟨rfl, (onward_listAddTail s f (by simp)).trans (onward_recvframeDefrag hmem h0 hu)⟩
  · cases he
    exact ⟨rfl, onward_rtwFreeRecvframe s f⟩
  · simp at he

/-- `recvframe_chk_defrag` returns the frame itself or nothing. -/
theorem onward_recvframeChkDefrag {r : Option ι} (he : s.recvframeChkDefrag f = some (r, s')) :
    (r = none ∨ r = some f) ∧ Onward F A s s' := by
  unfold recvframeChkDefrag at he
  dsimp only at he
  obtain ⟨⟨r₁, t⟩, h₁, he⟩ := Option.map_eq_some_iff.mp he
  split at h₁
  · obtain ⟨rfl, ht⟩ : r₁ = none ∧ Onward F A s t := onward_enqueueFragment h₁
    cases he
    exact ⟨Or.inl rfl, ht⟩
  · split at h₁
    · rename_i h0
      obtain ⟨rfl, ht⟩ : r₁ = none ∧ Onward F A s t := onward_lastFragment h0 h₁
      cases he
      exact ⟨Or.inl rfl, ht⟩
    · cases h₁
      unfold checkReassembled at he
      dsimp only at he
      split at he
      · obtain ⟨fr, chk, hk, hchk⟩ := s.recvframeChkmic_eq f
        have ht : Onward F A s (s.recvframeChkmic f).2 := by
          rw [hchk]
          exact onward_touched hk.origin ..
        split at he
        · cases he
          exact ⟨Or.inr rfl, ht⟩
        · cases he
          exact ⟨Or.inl rfl, ht.trans (onward_rtwFreeRecvframe _ f)⟩
      · cases he
        exact ⟨Or.inr rfl, Onward.refl s⟩

/-! ## Handing up -/

theorem origin_of_attrib {fr : RecvFrame} (h : fr.attrib = (s.recvframe f).attrib) :
    fr.origin = (s.recvframe f).origin := by
  rw [RecvFrame.origin, RecvFrame.origin, h]

theorem onward_rtwRecvIndicatepkt (hf : f ∈ A) (he : s.rtwRecvIndicatepkt f = some s') :
    Onward F A s s' := by
  obtain ⟨fr, avail, inds, rfl, hattr, hinds⟩ := rtwRecvIndicatepkt_eq he
  refine onward_consumed (origin_of_attrib hattr) _ _ fun i hi => ?_
  obtain ⟨sink, rfl⟩ := hinds i hi
  exact ⟨hf, rfl⟩

theorem onward_amsduToMsdu (hf : f ∈ A) : Onward F A s (s.amsduToMsdu f) := by
  obtain ⟨fr, avail, he, hattr⟩ := s.amsduToMsdu_eq f
  rw [he]
  refine onward_consumed (origin_of_attrib hattr) _ _ fun i hi => ?_
  obtain ⟨sub, -, rfl⟩ := List.mem_map.mp hi
  exact ⟨hf, rfl⟩

theorem onward_indicateFrame (hf : f ∈ A) (he : s.indicateFrame f = some s') :
    Onward F A s s' := by
  unfold indicateFrame at he
  split at he
  · cases he
    exact onward_amsduToMsdu hf
  · split at he
    · exact onward_rtwRecvIndicatepkt hf he
    · cases he
      exact Onward.refl s

theorem onward_inOrderLoop {c : StaId × Fin 16} :
    ∀ {fs : List ι} {s s' : Adapter ι} {more : Bool}, (∀ g ∈ fs, g ∈ A) →
      inOrderLoop c fs s = some (more, s') → Onward F A s s'
  | [], s, s', more, _, he => by
    cases he
    exact Onward.refl s
  | f :: fs, s, s', more, hA, he => by
    rw [inOrderLoop] at he
    dsimp only at he
    split at he
    · cases he
      exact Onward.refl s
    · obtain ⟨u, hind, hloop⟩ := Option.bind_eq_some_iff.mp he
      have hu := onward_indicateFrame (F := F) (hA f (List.mem_cons_self ..)) hind
      have hrest := onward_inOrderLoop (fun g hg => hA g (List.mem_cons_of_mem f hg)) hloop
      refine Onward.trans ?_ (hu.trans hrest)
      split
      · exact (onward_listDelInit s f).trans (onward_setReorderCtrl ..)
      · exact onward_listDelInit s f

theorem onward_linkPending {c : StaId × Fin 16} {l : List ι} (hF : (f, c) ∈ F)
    (hl : ∀ x ∈ l, x = f ∨ x ∈ s.pendingOf c) : Onward F A s (s.linkPending c f l) := by
  refine ⟨⟨rfl, rfl, fun _ => rfl, rfl, rfl⟩, fun _ => rfl, fun d x hx => ?_, [],
    by simp [linkPending]⟩
  have hx' : x ∈ Function.update (unlink s.queue f) (.pending c.1 c.2) l (.pending d.1 d.2) := hx
  by_cases hd : Queue.pending d.1 d.2 = .pending c.1 c.2
  · rw [hd, Function.update_self] at hx'
    obtain ⟨h1, h2⟩ := Queue.pending.inj hd
    obtain rfl : d = c := Prod.ext h1 h2
    rcases hl x hx' with rfl | hx'
    · exact Or.inr hF
    · exact Or.inl hx'
  · rw [Function.update_of_ne hd, mem_unlink] at hx'
    exact Or.inl hx'.1

theorem onward_reorderLocked {c : StaId × Fin 16} {st : Status} (hf : f ∈ A) (hF : (f, c) ∈ F)
    (hA : ∀ x ∈ s.pendingOf c, x ∈ A) (he : s.reorderLocked c f = some (st, s')) :
    Onward F A s s' := by
  have h₁ (r : RecvReorderCtrl) : Onward F A s (s.setReorderCtrl c r) := onward_setReorderCtrl s c r
  rcases reorderLocked_cases rfl he with ⟨-, -, rfl⟩ | ⟨l, more, hl, -, hloop⟩
  · exact h₁ _
  · have hmem (x : ι) (hx : x ∈ l) : x = f ∨ x ∈ s.pendingOf c :=
      List.mem_cons.mp ((enqueueWalk_perm hl).mem_iff.mp hx)
    refine ((h₁ _).trans (onward_linkPending hF hmem)).trans
      (onward_inOrderLoop (fun g hg => ?_) hloop)
    rcases hmem g hg with rfl | hg
    · exact hf
    · exact hA g hg

theorem onward_timeout {c : StaId × Fin 16} (hA : ∀ x ∈ s.pendingOf c, x ∈ A)
    (he : s.rtwReorderingCtrlTimeoutHandler c = some s') : Onward F A s s' := by
  rcases timeout_cases he with rfl | ⟨-, f, fs, more, hp, hloop⟩
  · exact Onward.refl s'
  · exact (onward_setReorderCtrl s c _).trans (onward_inOrderLoop (hp ▸ hA) hloop)

/-! ## The receive path -/

theorem onward_recvIndicatepktReorder {st : Status} (hf : f ∈ A)
    (hF : (f, (s.recvframe f).preorderCtrl) ∈ F)
    (hA : ∀ x ∈ s.pendingOf (s.recvframe f).preorderCtrl, x ∈ A)
    (he : s.recvIndicatepktReorder f = some (st, s')) : Onward F A s s' := by
  unfold recvIndicatepktReorder at he
  dsimp only at he
  split at he
  · split at he
    · exact onward_reorderLocked hf hF hA he
    · cases he
      exact ((onward_setReorderCtrl s _ _).trans (onward_amsduToMsdu hf)).trans
        (onward_setReorderCtrl ..)
  · obtain ⟨t, hw, he⟩ := Option.bind_eq_some_iff.mp he
    obtain ⟨fr, hfr, rfl⟩ := wlanhdrToEthhdr_eq hw
    have h₁ : Onward F A s (s.updateFrame f fun _ => fr) :=
      onward_updateFrame (RecvFrame.wlanhdrToEthhdr_sameBut hfr).origin
    split at he
    · split at he
      · obtain ⟨u, hu, hst⟩ := Option.map_eq_some_iff.mp he
        cases hst
        exact h₁.trans (onward_rtwRecvIndicatepkt hf hu)
      · cases he
        exact h₁
    · split at he
      · exact h₁.trans (onward_reorderLocked hf hF hA he)
      · obtain ⟨u, hu, hst⟩ := Option.map_eq_some_iff.mp he
        cases hst
        exact ((h₁.trans (onward_setReorderCtrl ..)).trans (onward_rtwRecvIndicatepkt hf hu)).trans
          (onward_setReorderCtrl ..)

theorem onward_processRecvIndicatepkts {ok : Bool} (hf : f ∈ A)
    (hF : (f, (s.recvframe f).preorderCtrl) ∈ F)
    (hA : ∀ x ∈ s.pendingOf (s.recvframe f).preorderCtrl, x ∈ A)
    (he : s.processRecvIndicatepkts f = some (ok, s')) : Onward F A s s' := by
  unfold processRecvIndicatepkts at he
  split at he
  · obtain ⟨⟨st, t⟩, hr, he⟩ := Option.map_eq_some_iff.mp he
    have ht : Onward F A s t := onward_recvIndicatepktReorder hf hF hA hr
    dsimp only at he
    split at he
    · cases he
      exact ht
    · cases he
      exact ht
  · obtain ⟨t, hw, he⟩ := Option.bind_eq_some_iff.mp he
    obtain ⟨fr, hfr, rfl⟩ := wlanhdrToEthhdr_eq hw
    have h₁ : Onward F A s (s.updateFrame f fun _ => fr) :=
      onward_updateFrame (RecvFrame.wlanhdrToEthhdr_sameBut hfr).origin
    split at he
    · obtain ⟨u, hu, hst⟩ := Option.map_eq_some_iff.mp he
      cases hst
      exact h₁.trans (onward_rtwRecvIndicatepkt hf hu)
    · cases he
      exact h₁

theorem onward_portctrl {ok : Bool} (he : s.portctrl f = (ok, s')) : Onward F A s s' := by
  unfold portctrl at he
  dsimp only at he
  split at he
  · split at he
    · cases he
      exact Onward.refl s
    · cases he
      exact onward_rtwFreeRecvframe s f
  · cases he
    exact Onward.refl s

theorem portctrl_true (he : s.portctrl f = (true, s')) : s' = s := by
  unfold portctrl at he
  dsimp only at he
  split at he
  · split at he
    · exact (Prod.mk.inj he).2.symm
    · simp at he
  · exact (Prod.mk.inj he).2.symm

/-- The frame keeps its reorder control up to `process_recv_indicatepkts`. -/
theorem preorderCtrl_recvframeChkDefrag (he : s.recvframeChkDefrag f = some (some f, s')) :
    (s'.recvframe f).preorderCtrl = (s.recvframe f).preorderCtrl := by
  unfold recvframeChkDefrag at he
  dsimp only at he
  obtain ⟨⟨r₁, t⟩, h₁, he⟩ := Option.map_eq_some_iff.mp he
  have hnone : r₁ ≠ none := by
    rintro rfl
    simp [checkReassembled] at he
  split at h₁
  · exact absurd (onward_enqueueFragment (F := ∅) (A := ∅) h₁).1 hnone
  · split at h₁
    · rename_i h0
      exact absurd (onward_lastFragment (F := ∅) (A := ∅) h0 h₁).1 hnone
    · cases h₁
      unfold checkReassembled at he
      dsimp only at he
      split at he
      · obtain ⟨fr, chk, hk, hchk⟩ := s.recvframeChkmic_eq f
        split at he
        · cases he
          rw [hchk]
          simpa [touched] using hk.2.1
        · simp at he
      · cases he
        rfl

theorem onward_recvFuncPosthandle (hf : f ∈ A) (hF : (f, (s.recvframe f).preorderCtrl) ∈ F)
    (hA : ∀ c, ∀ x ∈ s.pendingOf c, x ∈ A) (he : s.recvFuncPosthandle f = some s') :
    Onward F A s s' := by
  unfold recvFuncPosthandle at he
  obtain ⟨fr, hw, message, hk, hd | hd⟩ := s.decryptor_eq f
  · rw [hd] at he
    dsimp only at he
    set t := s.touched f fr hw s.securitypriv.bcheckGrpkey message with ht
    have hctrl : (t.recvframe f).preorderCtrl = (s.recvframe f).preorderCtrl := by
      simpa [ht, touched] using hk.2.1
    have h₁ : Onward ∅ ∅ s t := onward_touched hk.origin ..
    obtain ⟨⟨r, u⟩, hdef, he⟩ := Option.bind_eq_some_iff.mp he
    obtain ⟨hr, h₂⟩ := onward_recvframeChkDefrag hdef
    have hu : Onward ∅ ∅ s u := h₁.trans h₂
    rcases hr with rfl | rfl
    · cases he
      exact hu.mono
    · dsimp only at he
      have hctrl' := (preorderCtrl_recvframeChkDefrag hdef).trans hctrl
      have hA' : ∀ c, ∀ x ∈ u.pendingOf c, x ∈ A := fun c x hx =>
        hA c x ((hu.pending c x hx).resolve_right id)
      cases hp : u.portctrl f with
      | mk ok v =>
        rw [hp] at he
        cases ok with
        | true =>
          obtain rfl := portctrl_true hp
          obtain ⟨⟨ok', w⟩, hproc, rfl⟩ := Option.map_eq_some_iff.mp he
          have h₃ : Onward F A v w :=
            onward_processRecvIndicatepkts hf (hctrl' ▸ hF) (hA' _) hproc
          split
          · exact hu.mono.trans h₃
          · exact (hu.mono.trans h₃).trans (onward_rtwFreeRecvframe _ f)
        | false =>
          cases he
          exact hu.mono.trans (onward_portctrl hp)
  · rw [hd] at he
    cases he
    exact (onward_touched hk.origin ..).trans (onward_rtwFreeRecvframe _ f)

/-! ## To-DS frames -/

/-- The station that `sta2ap_data_frame` finds, for a to-DS frame that gets there. -/
def toDsSta (s : Adapter ι) (fr : RecvFrame) : Option StaId :=
  if (s.mpMode ∧ !checkFwstate s.mlmepriv.fwState wifiMpLpbkState) ∨
      fr.mem fr.rxData &&& 0x3 ≠ 0 ∨ getFrameType fr.mem fr.rxData ≠ wifiDataType ∨
      getTofrDs fr.mem fr.rxData ≠ 2 then none
  else (s.checkDirection (readHeader fr)).2.1

/-- The direction of a to-DS frame is checked by `sta2ap_data_frame`. -/
theorem checkDirection_toDs {fr : RecvFrame} (h : fr.attrib.toFrDs = 2) :
    s.checkDirection fr = s.sta2apDataFrame { fr with
      attrib := { fr.attrib with
        dst := getDa fr.mem fr.rxData
        src := getSa fr.mem fr.rxData
        bssid := getHdrBssid fr.mem fr.rxData
        ra := getHdrBssid fr.mem fr.rxData
        ta := getSa fr.mem fr.rxData } } := by
  unfold checkDirection
  simp only [h]

/-- The station that `sta2ap_data_frame` finds. -/
theorem sta2apDataFrame_sta (s : Adapter ι) (fr : RecvFrame) : (s.sta2apDataFrame fr).2.1 =
    if checkFwstate s.mlmepriv.fwState wifiApState ∧ fr.attrib.bssid = s.mlmepriv.curBssid then
      s.rtwGetStainfo fr.attrib.src
    else none := by
  unfold sta2apDataFrame
  dsimp only
  by_cases hap : checkFwstate s.mlmepriv.fwState wifiApState = true
  · by_cases hb : fr.attrib.bssid = s.mlmepriv.curBssid
    · rw [if_pos hap, if_neg (not_not.mpr hb), if_pos ⟨hap, hb⟩]
      split
      · rename_i hk
        exact hk.symm
      · rename_i k hk
        rw [hk]
        split <;> rfl
    · rw [if_pos hap, if_pos hb, if_neg fun h => hb h.2]
  · rw [if_neg hap, if_neg fun h => hap h.1]

theorem SameStations.toDsSta (h : SameStations s s') (fr : RecvFrame) :
    s'.toDsSta fr = s.toDsSta fr := by
  unfold Adapter.toDsSta
  rw [h.mpMode, h.mlmepriv]
  split
  · rfl
  · rename_i hno
    have hto : (readHeader fr).attrib.toFrDs = 2 := by
      by_contra hne
      exact hno (Or.inr (Or.inr (Or.inr hne)))
    rw [checkDirection_toDs hto, checkDirection_toDs hto, sta2apDataFrame_sta, sta2apDataFrame_sta,
      h.mlmepriv, h.rtwGetStainfo]

/-- What `sta2ap_data_frame` accepts is a data frame with contents, of a station that has a
record. -/
theorem sta2apDataFrame_success {fr : RecvFrame} {psta : Option StaId} {a : RxPktAttrib}
    (h : s.sta2apDataFrame fr = (.success, psta, a)) :
    a = fr.attrib ∧ psta = s.rtwGetStainfo fr.attrib.src ∧ psta.isSome = true ∧
      (getFrameSubType fr.mem fr.rxData).testBit 6 = false := by
  unfold sta2apDataFrame at h
  dsimp only at h
  split at h
  · split at h
    · simp at h
    · split at h
      · simp at h
      · rename_i k hk
        split at h
        · simp at h
        · rename_i hbit
          obtain ⟨-, h⟩ := Prod.mk.inj h
          cases h
          exact ⟨rfl, hk.symm, rfl, by simpa using hbit⟩
  · simp at h

theorem toFrDs_parseQos (fr : RecvFrame) : (parseQos fr).toFrDs = fr.attrib.toFrDs ∧
    (parseQos fr).ta = fr.attrib.ta := by
  unfold parseQos
  dsimp only
  split_ifs <;> exact ⟨rfl, rfl⟩

theorem origin_setEncrypt (s : Adapter ι) (psta : StaId) (a : RxPktAttrib) :
    (s.setEncrypt psta a).toFrDs = a.toFrDs ∧ (s.setEncrypt psta a).ta = a.ta := by
  unfold setEncrypt
  dsimp only
  split_ifs <;> exact ⟨rfl, rfl⟩

/-- The note of the last sequence number leaves the address of the station. -/
theorem hwaddr_recvDecache {st st' : StaInfo} {a : RxPktAttrib} (h : recvDecache st a = some st') :
    st'.hwaddr = st.hwaddr := by
  unfold recvDecache at h
  dsimp only at h
  split at h
  · simp at h
  · cases h
    rfl

/-- What `validate_recv_data_frame` does : the frame gets new attributes and a reorder
control, and the station notes the sequence number of a frame that passes. -/
theorem validateRecvDataFrame_cases (s : Adapter ι) (f : ι) :
    (∃ ret g, ret ≠ .success ∧ s.validateRecvDataFrame f = (ret, s.updateFrame f g)) ∨
      ∃ k tid a a' st, s.checkDirection (s.recvframe f) = (.success, some k, a) ∧
        a'.toFrDs = a.toFrDs ∧ a'.ta = a.ta ∧ st.hwaddr = (s.sta k).hwaddr ∧
        s.validateRecvDataFrame f = (.success, (s.updateSta k fun _ => st).updateFrame f fun fr =>
          { fr with attrib := a', preorderCtrl := (k, tid) }) := by
  have hupd : ∀ (t : Adapter ι) (g h : RecvFrame → RecvFrame),
      (t.updateFrame f g).updateFrame f h = t.updateFrame f fun fr => h (g fr) := by
    intro t g h
    simp [updateFrame]
  unfold validateRecvDataFrame
  rcases s.checkDirection (s.recvframe f) with ⟨ret, psta, a⟩
  dsimp only
  split
  · rename_i k
    set a₁ := parseQos ((s.updateFrame f fun fr => { fr with attrib := a }).recvframe f) with ha₁
    have hta : a₁.toFrDs = a.toFrDs ∧ a₁.ta = a.ta := by
      rw [ha₁, recvframe_updateFrame, Function.update_self]
      exact toFrDs_parseQos _
    split
    · exact Or.inl ⟨.fail, _, by simp, by rw [hupd]⟩
    · rename_i st hst
      rw [hupd]
      set t := (s.updateFrame f fun fr =>
        { fr with attrib := a₁, preorderCtrl := (k, a₁.priority) }).updateSta k fun _ => st with ht
      have hframe : ∀ enc : RxPktAttrib → RxPktAttrib,
          (t.updateFrame f fun fr => { fr with attrib := enc fr.attrib }) =
            (s.updateSta k fun _ => st).updateFrame f fun fr =>
              { fr with attrib := enc a₁, preorderCtrl := (k, a₁.priority) } := by
        intro enc
        simp [ht, updateFrame, updateSta]
      refine Or.inr ⟨k, a₁.priority, a, t.setEncrypt k a₁, st, rfl, ?_, ?_,
        hwaddr_recvDecache hst, by rw [hframe]⟩
      · rw [(origin_setEncrypt ..).1, hta.1]
      · rw [(origin_setEncrypt ..).2, hta.2]
  · exact Or.inl ⟨.fail, _, by simp, rfl⟩
  · rename_i h₁ h₂
    refine Or.inl ⟨ret, _, fun h => ?_, rfl⟩
    cases psta with
    | none => exact h₂ h rfl
    | some k => exact h₁ k h rfl

theorem toFrDs_validateRecvDataFrame (h : s.validateRecvDataFrame f = (.success, t)) :
    (t.recvframe f).attrib.toFrDs = (s.recvframe f).attrib.toFrDs := by
  rcases s.validateRecvDataFrame_cases f with ⟨ret, g, hne, h'⟩ | ⟨k, tid, a, a', st, hd,
    hds, -, -, h'⟩
  · obtain ⟨rfl, -⟩ := Prod.mk.inj (h.symm.trans h')
    exact absurd rfl hne
  · obtain ⟨-, rfl⟩ := Prod.mk.inj (h.symm.trans h')
    obtain ⟨dst, src, bssid, ra, ta, ha⟩ := s.attrib_checkDirection (s.recvframe f)
    rw [hd] at ha
    simp only [recvframe_updateFrame, Function.update_self, hds]
    have hto := congrArg RxPktAttrib.toFrDs ha
    exact hto

theorem sameStations_validateRecvDataFrame (s : Adapter ι) (f : ι) :
    SameStations s (s.validateRecvDataFrame f).2 := by
  rcases s.validateRecvDataFrame_cases f with ⟨ret, g, -, h⟩ | ⟨k, tid, a, a', st, -, -,
    -, haddr, h⟩
  · rw [h]
    exact ⟨rfl, rfl, fun _ => rfl, rfl, rfl⟩
  · rw [h]
    have h₁ : SameStations s (s.updateSta k fun _ => st) := sameStations_updateSta haddr
    exact ⟨h₁.staHash, h₁.freeStaQueue, h₁.hwaddr, h₁.mlmepriv, h₁.mpMode⟩

/-- A to-DS frame that passes `validate_recv_data_frame` belongs to the station with the
record for its source address. -/
theorem validateRecvDataFrame_toDs (hto : (s.recvframe f).attrib.toFrDs = 2)
    (h : s.validateRecvDataFrame f = (.success, t)) :
    ∃ k tid, (s.checkDirection (s.recvframe f)).2.1 = some k ∧
      (t.recvframe f).preorderCtrl = (k, tid) ∧
      s.rtwGetStainfo (t.recvframe f).attrib.ta = some k ∧
      (getFrameSubType (s.recvframe f).mem (s.recvframe f).rxData).testBit 6 = false := by
  rcases s.validateRecvDataFrame_cases f with ⟨ret, g, hne, h'⟩ | ⟨k, tid, a, a', st, hd, -,
    hta, -, h'⟩
  · obtain ⟨rfl, -⟩ := Prod.mk.inj (h.symm.trans h')
    exact absurd rfl hne
  · obtain ⟨-, rfl⟩ := Prod.mk.inj (h.symm.trans h')
    refine ⟨k, tid, by rw [hd], by simp, ?_, ?_⟩
    all_goals
      rw [checkDirection_toDs hto] at hd
      obtain ⟨rfl, hk, -, hbit⟩ := sta2apDataFrame_success hd
    · simp only [recvframe_updateFrame, Function.update_self, hta]
      exact hk.symm
    · exact hbit

/-! ## A received frame -/

/-- The frame `f` is taken from the pool and checked : the pending lists lose frames at most,
no other frame changes, and no packet leaves the driver. -/
structure Fetched (f : ι) (s s' : Adapter ι) : Prop extends SameStations s s' where
  origin : ∀ x, x ≠ f → (s'.recvframe x).origin = (s.recvframe x).origin
  pending : ∀ c, ∀ x ∈ s'.pendingOf c, x ∈ s.pendingOf c
  indications : s'.indications = s.indications

theorem Fetched.trans (h₁ : Fetched f s s') (h₂ : Fetched f s' t) : Fetched f s t :=
  ⟨h₁.toSameStations.trans h₂.toSameStations,
    fun x hx => (h₂.origin x hx).trans (h₁.origin x hx),
    fun c x hx => h₁.pending c x (h₂.pending c x hx), h₂.indications.trans h₁.indications⟩

theorem Onward.fetched (h : Onward ∅ ∅ s s') : Fetched f s s' := by
  obtain ⟨inds, he, hi⟩ := h.packets
  have hnil : inds = [] := List.eq_nil_iff_forall_not_mem.mpr fun i him => (hi i him).1
  exact ⟨h.toSameStations, fun x _ => h.origin x,
    fun c x hx => (h.pending c x hx).resolve_right id, by rw [he, hnil, List.append_nil]⟩

theorem fetched_updateFrame (g : RecvFrame → RecvFrame) : Fetched f s (s.updateFrame f g) := by
  refine ⟨⟨rfl, rfl, fun _ => rfl, rfl, rfl⟩, fun x hx => ?_, fun _ _ hx => hx, rfl⟩
  rw [recvframe_updateFrame, Function.update_of_ne hx]

/-- A frame from the pool is on no pending list. -/
theorem fetched_alloc {q : Queue} (h : s.rtwAllocRecvframe q = some (f, s')) :
    Fetched f s s' ∧ ∀ c, f ∉ s'.pendingOf c := by
  have hsame := sameStations_alloc h
  unfold rtwAllocRecvframe at h
  cases hq : s.queue q with
  | nil => simp [hq] at h
  | cons g rest =>
    rw [hq] at h
    dsimp only at h
    have hqueue : s'.queue = unlink s.queue f ∧ s'.recvframe = s.recvframe ∧
        s'.indications = s.indications := by
      split at h
      · cases h
        exact ⟨rfl, rfl, rfl⟩
      · cases h
        exact ⟨rfl, rfl, rfl⟩
    obtain ⟨hl, hfr, hind⟩ := hqueue
    refine ⟨⟨hsame, fun x _ => by rw [hfr], fun c x hx => ?_, hind⟩, fun c hx => ?_⟩
    · rw [pendingOf, hl] at hx
      exact (mem_unlink.mp hx).1
    · rw [pendingOf, hl] at hx
      exact (mem_unlink.mp hx).2 rfl

theorem fetched_validateRecvDataFrame (s : Adapter ι) (f : ι) :
    Fetched f s (s.validateRecvDataFrame f).2 := by
  have hsame := s.sameStations_validateRecvDataFrame f
  rcases s.validateRecvDataFrame_cases f with ⟨ret, g, -, h⟩ | ⟨k, tid, a, a', st, -, -, -, -, h⟩
  · rw [h]
    exact fetched_updateFrame g
  · rw [h] at hsame ⊢
    refine ⟨hsame, fun x hx => ?_, fun _ _ hx => hx, rfl⟩
    rw [recvframe_updateFrame, Function.update_of_ne hx]
    rfl

/-- A to-DS frame goes to the reorder control of the station that `sta2ap_data_frame` has
found, and has contents. -/
def FromFrame (s : Adapter ι) (fr : RecvFrame) (c : StaId × Fin 16) (o : Fin 4 × MacAddr) : Prop :=
  o.1 = 2 → s.toDsSta fr = some c.1 ∧ s.rtwGetStainfo o.2 = some c.1 ∧
    (getFrameSubType fr.mem fr.rxData).testBit 6 = false

theorem fetched_recvFuncPrehandle {st : Status}
    (he : s.recvFuncPrehandle (fun _ _ => []) f = some (st, t)) :
    Fetched f s t ∧ (st = .success →
      FromFrame s (s.recvframe f) (t.recvframe f).preorderCtrl (t.recvframe f).origin) := by
  unfold recvFuncPrehandle at he
  split at he
  · cases he
    exact ⟨(onward_rtwFreeRecvframe s f).fetched, by simp⟩
  rename_i hmp
  obtain ⟨⟨st₁, u⟩, hval, he⟩ := Option.map_eq_some_iff.mp he
  -- a frame that does not pass is freed
  have hdrop : Fetched f s u ∧ (st₁ = .success →
      FromFrame s (s.recvframe f) (u.recvframe f).preorderCtrl (u.recvframe f).origin) →
      Fetched f s t ∧ (st = .success →
        FromFrame s (s.recvframe f) (t.recvframe f).preorderCtrl (t.recvframe f).origin) := by
    rintro ⟨hu, hfrom⟩
    split at he
    · cases he
      exact ⟨hu, hfrom⟩
    · rename_i hok
      cases he
      exact ⟨hu.trans (onward_rtwFreeRecvframe _ f).fetched, fun hs => absurd hs hok⟩
  refine hdrop ?_
  unfold validateRecvFrame at hval
  dsimp only at hval
  split at hval
  · cases hval
    exact ⟨(Onward.refl s).fetched, by simp⟩
  rename_i hver
  split at hval
  · obtain ⟨v, hv, hst⟩ := Option.map_eq_some_iff.mp hval
    cases hst
    obtain ⟨⟨r, w⟩, hdef, rfl⟩ := Option.map_eq_some_iff.mp hv
    have hw := (fetched_updateFrame readHeader).trans (onward_recvframeChkDefrag hdef).2.fetched
    dsimp only
    split
    · exact ⟨hw, by simp⟩
    · exact ⟨hw, by simp⟩
  · rename_i hmgt
    split at hval
    · rename_i htype
      set v := (s.updateFrame f readHeader).updateFrame f fun fr =>
        { fr with attrib :=
          { fr.attrib with qos := (getFrameSubType fr.mem fr.rxData).testBit 7 } } with hv
      have hval' := Option.some.inj hval
      have hfetch : Fetched f s v := (fetched_updateFrame _).trans (fetched_updateFrame _)
      have hu := hfetch.trans (v.fetched_validateRecvDataFrame f)
      rw [hval'] at hu
      refine ⟨hu, ?_⟩
      rintro rfl hto
      set fr := s.recvframe f with hfr
      have hvf : v.recvframe f = { readHeader fr with attrib :=
          { (readHeader fr).attrib with qos := (getFrameSubType fr.mem fr.rxData).testBit 7 } } := by
        rw [hv, recvframe_updateFrame, Function.update_self, recvframe_updateFrame,
          Function.update_self]
        rfl
      have hto' : (v.recvframe f).attrib.toFrDs = 2 := by
        rw [← hto]
        exact (toFrDs_validateRecvDataFrame hval').symm
      have hto₁ : getTofrDs fr.mem fr.rxData = 2 := by
        rw [hvf] at hto'
        exact hto'
      obtain ⟨k, tid, hdir, hctrl, hget, hbit⟩ := validateRecvDataFrame_toDs hto' hval'
      rw [hctrl]
      refine ⟨?_, ?_, ?_⟩
      · rw [toDsSta, if_neg (by simp [hver, htype, hto₁]; simpa using hmp),
          checkDirection_toDs hto₁,
          sta2apDataFrame_sta, ← hdir, checkDirection_toDs hto', sta2apDataFrame_sta, hvf]
        rfl
      · exact (hfetch.toSameStations.rtwGetStainfo _).symm.trans hget
      · rw [hvf] at hbit
        exact hbit
    · cases hval
      exact ⟨fetched_updateFrame _, by simp⟩

/-- What a frame from the device changes : packets come from it or from the pending lists. -/
structure Received (s : Adapter ι) (fr : RecvFrame) (s' : Adapter ι) : Prop
    extends SameStations s s' where
  pending : ∀ c, ∀ x ∈ s'.pendingOf c,
    (x ∈ s.pendingOf c ∧ (s'.recvframe x).origin = (s.recvframe x).origin) ∨
      FromFrame s fr c (s'.recvframe x).origin
  packets : ∃ inds, s'.indications = s.indications ++ inds ∧
    ∀ i ∈ inds, i.ta = (s'.recvframe i.frame).attrib.ta ∧ ∃ c,
      (i.frame ∈ s.pendingOf c ∧ (s'.recvframe i.frame).origin = (s.recvframe i.frame).origin) ∨
        FromFrame s fr c (s'.recvframe i.frame).origin

theorem Fetched.received {fr : RecvFrame} (h : Fetched f s s') (hf : ∀ c, f ∉ s'.pendingOf c) :
    Received s fr s' := by
  refine ⟨h.toSameStations, fun c x hx => Or.inl ⟨h.pending c x hx, h.origin x ?_⟩, [], ?_⟩
  · rintro rfl
    exact hf c hx
  · simp [h.indications]

/-- The frame is handed on after the checks. -/
theorem received_of_onward {fr : RecvFrame} (h₁ : Fetched f s t) (hf : ∀ c, f ∉ t.pendingOf c)
    (hfrom : FromFrame s fr (t.recvframe f).preorderCtrl (t.recvframe f).origin)
    (h₂ : Onward {(f, (t.recvframe f).preorderCtrl)} {x | x = f ∨ ∃ c, x ∈ t.pendingOf c} t s') :
    Received s fr s' := by
  have hold : ∀ c x, x ∈ t.pendingOf c →
      x ∈ s.pendingOf c ∧ (s'.recvframe x).origin = (s.recvframe x).origin := by
    intro c x hx
    refine ⟨h₁.pending c x hx, (h₂.origin x).trans (h₁.origin x ?_)⟩
    rintro rfl
    exact hf c hx
  have hnew : FromFrame s fr (t.recvframe f).preorderCtrl (s'.recvframe f).origin := by
    rwa [h₂.origin]
  refine ⟨h₁.toSameStations.trans h₂.toSameStations, fun c x hx => ?_, ?_⟩
  · rcases h₂.pending c x hx with hx | hx
    · exact Or.inl (hold c x hx)
    · cases hx
      exact Or.inr hnew
  · obtain ⟨inds, he, hi⟩ := h₂.packets
    refine ⟨inds, by rw [he, h₁.indications], fun i him => ?_⟩
    obtain ⟨hA, hta⟩ := hi i him
    refine ⟨hta.trans (h₂.ta _).symm, ?_⟩
    rcases hA with rfl | ⟨c, hc⟩
    · exact ⟨_, Or.inr hnew⟩
    · exact ⟨c, Or.inl (hold c _ hc)⟩

/-- `recv_func` on a frame that is on no list, of a device that is no station. -/
theorem received_recvFuncFrame {fr : RecvFrame} (h₀ : Fetched f t s) (hf : ∀ c, f ∉ s.pendingOf c)
    (hfr : s.recvframe f = fr)
    (hsta : checkFwstate s.mlmepriv.fwState wifiStationState = false)
    (he : s.recvFuncFrame (fun _ _ => []) f = some s') : Received t fr s' := by
  unfold recvFuncFrame at he
  obtain ⟨⟨st, u⟩, hpre, he⟩ := Option.bind_eq_some_iff.mp he
  dsimp only at he
  obtain ⟨h₁, hfrom⟩ := fetched_recvFuncPrehandle hpre
  have hfu : ∀ c, f ∉ u.pendingOf c := fun c hx => hf c (h₁.pending c f hx)
  split at he
  · rename_i hst
    have hkey : u.lacksKey (u.recvframe f).attrib = false := by
      simp [lacksKey, h₁.mlmepriv, hsta]
    rw [if_neg (by simp [hkey])] at he
    refine received_of_onward (h₀.trans h₁) hfu (fun hto => ?_)
      (onward_recvFuncPosthandle (Or.inl rfl) rfl (fun c x hx => Or.inr ⟨c, hx⟩) he)
    obtain ⟨h1, h2, h3⟩ := hfrom hst hto
    rw [hfr] at h1 h3
    exact ⟨(h₀.toDsSta fr).symm.trans h1, (h₀.toSameStations.rtwGetStainfo _).symm.trans h2, h3⟩
  · cases he
    exact (h₀.trans h₁).received hfu

end Adapter

open Runs

namespace Adapter

variable {s s' : Adapter RecvId}

/-- A frame from the device, in a device that is no station. -/
theorem received_recvStep {fr : RecvFrame} {fuel : ℕ}
    (hsta : checkFwstate s.mlmepriv.fwState wifiStationState = false)
    (he : s.recvStep (fun _ _ => []) fuel (.rx fr) = some s') : Received s fr s' := by
  rw [recvStep] at he
  cases ha : s.rtwAllocRecvframe .freeRecv with
  | none =>
    rw [ha] at he
    cases he
    exact ⟨SameStations.refl s, fun c x hx => Or.inl ⟨hx, rfl⟩, [], by simp⟩
  | some r =>
    obtain ⟨f, t⟩ := r
    rw [ha] at he
    obtain ⟨h₁, hf⟩ := fetched_alloc ha
    have h₂ : Fetched f s (t.updateFrame f fun _ => fr) := h₁.trans (fetched_updateFrame _)
    refine received_recvFuncFrame h₂ hf (by simp) ?_ (recvFuncFrame_of_recvFunc he)
    rw [h₂.mlmepriv]
    exact hsta

end Adapter

end Rtl8188eu
