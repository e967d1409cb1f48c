import Rtl8188eu.OwnershipRun

/-!
# Port control

With 802.1X, a station whose port is blocked may send EAPOL packets only. `portctrl` reads
the type at one place of the frame, before the frame is put into the reorder buffer, split
into subframes or turned into an Ethernet frame. `Guarded` says what has to hold for the
port to stay closed : every frame on a pending list of the reorder code whose transmitter
is blocked holds EAPOL packets only, and so does every packet that has left the driver.

`portClosed_run` keeps it along every run in which `portctrl` reads the type of every packet
it lets through (`FrameSlips` names the frames where it does not) and no port is closed
while other packets of the station are pending (`BlocksPending`).
-/

namespace Rtl8188eu

open LinkedLists Runs

/-- The type field of an Ethernet frame is that of EAPOL. -/
def IsEapol (bytes : List UInt8) : Prop := (bytes.drop 12).take 2 = [0x88, 0x8e]

instance (bytes : List UInt8) : Decidable (IsEapol bytes) := inferInstanceAs (Decidable (_ = _))

namespace RecvFrame

/-- The length of the packet that `wlanhdr_to_ethhdr` makes of a frame with a SNAP header. -/
def snapPacketLen (f : RecvFrame) : ℕ :=
  u32 ((f.pullIcv.len : ℤ) - ((f.attrib.hdrlen : ℤ) + f.attrib.ivLen + 6 - 12))

/-- The frame, in the form the reorder code keeps it, holds EAPOL packets only. -/
def EapolOnly (f : RecvFrame) : Prop :=
  if f.attrib.amsdu then
    let p := Adapter.amsduPull f
    ∀ avail, ∀ sub ∈ (amsduSubframes p.mem p.len p.rxData p.len 0 avail).1.getD [],
      IsEapol (msduToEth f.attrib.dst f.attrib.src sub)
  else IsEapol f.bytes

theorem bytes_of_be16 {m : Mem} {p : ℤ} (h : m.be16 p = 0x888e) : m.read p 2 = [0x88, 0x8e] := by
  have h1 := (m p).toNat_lt
  have h2 := (m (p + 1)).toNat_lt
  unfold Mem.be16 at h
  have ha : m p = 0x88 := UInt8.toNat_inj.mp (by simp; omega)
  have hb : m (p + 1) = 0x8e := UInt8.toNat_inj.mp (by simp; omega)
  simp [Mem.read, ha, hb]

theorem isEapol_read {m : Mem} {p : ℤ} {n : ℕ} (hn : 14 ≤ n)
    (h : m.read (p + 12) 2 = [0x88, 0x8e]) : IsEapol (m.read p n) := by
  obtain ⟨k, rfl⟩ : ∃ k, n = 12 + (2 + k) := ⟨n - 14, by omega⟩
  unfold IsEapol
  have hp : p + ((12 : ℕ) : ℤ) = p + 12 := by norm_num
  rw [Mem.read_add, List.drop_left' (by simp), Mem.read_add, hp, h]
  rfl

theorem pullIcv_mem (f : RecvFrame) : f.pullIcv.mem = f.mem ∧ f.pullIcv.rxData = f.rxData := by
  unfold pullIcv
  split
  · unfold recvframePullTail
    split
    · exact ⟨rfl, rfl⟩
    · exact ⟨rfl, rfl⟩
  · exact ⟨rfl, rfl⟩

/-- Where `portctrl` finds the EAPOL type behind a SNAP header, `wlanhdr_to_ethhdr` makes an
EAPOL packet of the frame, if the packet is long enough to have a type. -/
theorem isEapol_wlanhdrToEthhdr {f f' : RecvFrame} (h : f.wlanhdrToEthhdr false = some f')
    (hsnap : f.bsnaphdr = true) (hlen : 14 ≤ f.snapPacketLen)
    (htype : f.mem.be16 (f.rxData + f.attrib.hdrlen + f.attrib.ivLen + 6) = 0x888e) :
    IsEapol f'.bytes := by
  obtain ⟨hmem, hdata⟩ := f.pullIcv_mem
  obtain ⟨-, hattr, -⟩ := f.pullIcv_sameBut
  have hsnap' : f.pullIcv.bsnaphdr = true := by
    rw [← hsnap, bsnaphdr, bsnaphdr, hmem, hdata, hattr]
  obtain ⟨⟨ptr, g⟩, hg, rfl⟩ := Option.map_eq_some_iff.mp h
  rw [hsnap', hattr] at hg
  simp only [pullWlanhdr, Bool.false_eq_true, if_false, if_true] at hg
  obtain ⟨g', hg', he⟩ := Option.map_eq_some_iff.mp hg
  cases he
  unfold recvframePull at hg'
  split at hg'
  · simp at hg'
  · cases hg'
    rw [hsnap']
    simp only [putEthhdr, if_true, bytes]
    refine isEapol_read ?_ ?_
    · refine hlen.trans_eq ?_
      unfold snapPacketLen
      congr 1
      push_cast
      ring
    · rw [Mem.read_write_of_disjoint _ (Or.inr (by rw [Vector.length_toList]; omega)),
        Mem.read_write_of_disjoint _ (Or.inr (by rw [Vector.length_toList]; omega))]
      refine Eq.trans ?_ (bytes_of_be16 htype)
      rw [hmem, hdata]
      congr 1
      push_cast
      ring

end RecvFrame

namespace Adapter

variable {L : Set RecvId} {s s' t : Adapter RecvId} {f : RecvId}

/-- A frame that may be handed up : its transmitter is not blocked, or it holds EAPOL packets
only. -/
def SafeFrame (s : Adapter RecvId) (f : RecvId) : Prop :=
  s.portBlocked (s.recvframe f).attrib.ta = true → (s.recvframe f).EapolOnly

/-- The frames on the pending lists may be handed up, and of the packets that have left the
driver those of blocked stations are EAPOL packets. -/
structure Guarded (s : Adapter RecvId) : Prop where
  pending : ∀ c, ∀ x ∈ s.pendingOf c, s.SafeFrame x
  indications : ∀ i ∈ s.indications, i.blocked = true → IsEapol i.bytes

/-! ## What leaves the pending frames alone -/

/-- The pending lists lose frames at most, the frames left are as before, and no packet
leaves the driver. -/
structure Shrinks (s s' : Adapter RecvId) : Prop where
  pending : ∀ c, ∀ x ∈ s'.pendingOf c, x ∈ s.pendingOf c ∧ s'.recvframe x = s.recvframe x
  indications : s'.indications = s.indications

theorem Shrinks.refl (s : Adapter RecvId) : Shrinks s s := ⟨fun _ _ hx => ⟨hx, rfl⟩, rfl⟩

theorem Shrinks.trans (h₁ : Shrinks s s') (h₂ : Shrinks s' t) : Shrinks s t := by
  refine ⟨fun c x hx => ?_, h₂.indications.trans h₁.indications⟩
  obtain ⟨hx₂, he₂⟩ := h₂.pending c x hx
  obtain ⟨hx₁, he₁⟩ := h₁.pending c x hx₂
  exact ⟨hx₁, he₂.trans he₁⟩

/-- The ports and the authentication algorithm are also as before. -/
structure Keeps (s s' : Adapter RecvId) : Prop extends Shrinks s s' where
  ports : ∀ ta, s'.portBlocked ta = s.portBlocked ta
  auth : s'.securitypriv.dot11AuthAlgrthm = s.securitypriv.dot11AuthAlgrthm

theorem Keeps.refl (s : Adapter RecvId) : Keeps s s := ⟨Shrinks.refl s, fun _ => rfl, rfl⟩

theorem Keeps.trans (h₁ : Keeps s s') (h₂ : Keeps s' t) : Keeps s t :=
  ⟨h₁.toShrinks.trans h₂.toShrinks, fun ta => (h₂.ports ta).trans (h₁.ports ta),
    h₂.auth.trans h₁.auth⟩

/-- A frame on no pending list stays off them. -/
theorem Keeps.notMem (hk : Keeps s s') (hf : ∀ c, f ∉ s.pendingOf c) (c : StaId × Fin 16) :
    f ∉ s'.pendingOf c :=
  fun hx => hf c (hk.pending c f hx).1

theorem Guarded.keeps (h : Guarded s) (hk : Keeps s s') : Guarded s' := by
  refine ⟨fun c x hx => ?_, ?_⟩
  · obtain ⟨hx', he⟩ := hk.pending c x hx
    unfold SafeFrame
    rw [he, hk.ports]
    exact h.pending c x hx'
  · rw [hk.indications]
    exact h.indications

theorem keeps_consumed (s : Adapter RecvId) (f : RecvId) (fr : RecvFrame) (avail : ℕ → Bool)
    (hu : List RecvId) : Keeps s (s.consumed f fr avail hu []) := by
  refine ⟨⟨fun c x hx => ?_, List.append_nil _⟩, fun _ => rfl, rfl⟩
  rw [pendingOf_consumed, List.mem_filter] at hx
  have hne : x ≠ f := by simpa using hx.2
  exact ⟨hx.1, by rw [consumed_recvframe, Function.update_of_ne hne]⟩

theorem keeps_rtwFreeRecvframe (s : Adapter RecvId) (f : RecvId) :
    Keeps s (s.rtwFreeRecvframe f) := by
  rw [rtwFreeRecvframe_eq]
  exact keeps_consumed ..

theorem keeps_freeFrames : ∀ (fs : List RecvId) (s : Adapter RecvId), Keeps s (s.freeFrames fs)
  | [], s => Keeps.refl s
  | f :: fs, s => by
    rw [freeFrames_cons]
    exact (keeps_rtwFreeRecvframe s f).trans (keeps_freeFrames fs _)

theorem keeps_freeQueue (s : Adapter RecvId) (q : Queue) : Keeps s (s.rtwFreeRecvframeQueue q) :=
  keeps_freeFrames (s.queue q) s

/-- A frame on no pending list changes. -/
theorem keeps_touched (hf : ∀ c, f ∉ s.pendingOf c) (fr : RecvFrame) (hw chk : Bool)
    (message : Mem) : Keeps s (s.touched f fr hw chk message) := by
  refine ⟨⟨fun c x hx => ?_, rfl⟩, fun _ => rfl, rfl⟩
  have hx' : x ∈ s.pendingOf c := hx
  have hne : x ≠ f := fun he => hf c (he ▸ hx')
  exact ⟨hx', Function.update_of_ne hne ..⟩

theorem keeps_updateFrame (hf : ∀ c, f ∉ s.pendingOf c) (g : RecvFrame → RecvFrame) :
    Keeps s (s.updateFrame f g) := by
  rw [updateFrame_eq_touched]
  exact keeps_touched hf ..

theorem keeps_listDelInit (s : Adapter RecvId) (f : RecvId) : Keeps s (s.listDelInit f) :=
  ⟨⟨fun _ _ hx => ⟨(mem_unlink.mp hx).1, rfl⟩, rfl⟩, fun _ => rfl, rfl⟩

theorem keeps_listAddTail (s : Adapter RecvId) (f : RecvId) {q : Queue}
    (hq : ∀ psta tid, q ≠ .pending psta tid) : Keeps s (s.listAddTail f q) := by
  refine ⟨⟨fun c x hx => ⟨?_, rfl⟩, rfl⟩, fun _ => rfl, rfl⟩
  exact (mem_addTail.mp hx).resolve_right fun h => hq c.1 c.2 h.1.symm

theorem keeps_alloc {q : Queue} (h : s.rtwAllocRecvframe q = some (f, s')) : Keeps s s' := by
  unfold rtwAllocRecvframe at h
  cases hq : s.queue q with
  | nil => simp [hq] at h
  | cons g rest =>
    rw [hq] at h
    dsimp only at h
    split at h
    · obtain ⟨rfl, rfl⟩ := Prod.mk.inj (Option.some.inj h)
      exact (keeps_listDelInit s g).trans
        ⟨⟨fun _ _ hx => ⟨hx, rfl⟩, rfl⟩, fun _ => rfl, rfl⟩
    · obtain ⟨rfl, rfl⟩ := Prod.mk.inj (Option.some.inj h)
      exact keeps_listDelInit s g

/-- A station keeps its address and its port. -/
theorem keeps_updateSta {psta : StaId} {g : StaInfo → StaInfo}
    (haddr : (g (s.sta psta)).hwaddr = (s.sta psta).hwaddr)
    (hport : (g (s.sta psta)).ieee8021xBlocked = (s.sta psta).ieee8021xBlocked) :
    Keeps s (s.updateSta psta g) := by
  refine ⟨⟨fun _ _ hx => ⟨hx, rfl⟩, rfl⟩, fun ta => ?_, rfl⟩
  have ha : ∀ k, ((s.updateSta psta g).sta k).hwaddr = (s.sta k).hwaddr := by
    intro k
    rcases eq_or_ne k psta with rfl | hk
    · simpa [updateSta] using haddr
    · simp [updateSta, hk]
  have hb : ∀ k, ((s.updateSta psta g).sta k).ieee8021xBlocked = (s.sta k).ieee8021xBlocked := by
    intro k
    rcases eq_or_ne k psta with rfl | hk
    · simpa [updateSta] using hport
    · simp [updateSta, hk]
  have hhash : (s.updateSta psta g).staHash = s.staHash := rfl
  unfold portBlocked rtwGetStainfo
  simp only [ha, hb, hhash]

theorem keeps_setReorderCtrl (s : Adapter RecvId) (c : StaId × Fin 16) (r : RecvReorderCtrl) :
    Keeps s (s.setReorderCtrl c r) := keeps_updateSta rfl rfl

theorem keeps_recvframeDefrag {q : Queue} {r : Option RecvId} (hf : f ∈ s.queue q)
    (h0 : (s.recvframe f).attrib.fragNum ≠ 0) (he : s.recvframeDefrag q = some (r, s')) :
    Keeps s s' := by
  cases hl : s.queue q with
  | nil => simp [hl] at hf
  | cons a rest =>
    rcases recvframeDefrag_eq hl with ⟨-, hd⟩ | ⟨ha0, hu | ⟨c, -, fr, -, hd⟩⟩
    · obtain ⟨-, rfl⟩ := Prod.mk.inj (Option.some.inj (he.symm.trans hd))
      exact ((keeps_listDelInit s a).trans (keeps_rtwFreeRecvframe _ a)).trans
        (keeps_freeQueue _ q)
    · have hfa : f ≠ a := fun e => h0 (e ▸ ha0)
      exact absurd hu (List.ne_nil_of_mem (mem_unlink.mpr ⟨hf, hfa⟩))
    · obtain ⟨-, rfl⟩ := Prod.mk.inj (Option.some.inj (he.symm.trans hd))
      have hc : ∀ d, c ∉ ((s.listDelInit a).listDelInit c).pendingOf d := by
        intro d hd
        exact (mem_unlink.mp hd).2 rfl
      have h₁ := (keeps_listDelInit s a).trans (keeps_listDelInit _ c)
      have h₂ := h₁.trans (keeps_updateFrame hc fun _ => fr)
      exact (h₂.trans (keeps_rtwFreeRecvframe _ c)).trans (keeps_freeQueue _ q)

theorem keeps_recvframeChkDefrag {r : Option RecvId} (hf : ∀ c, f ∉ s.pendingOf c)
    (he : s.recvframeChkDefrag f = some (r, s')) : Keeps s s' := by
  unfold recvframeChkDefrag at he
  dsimp only at he
  obtain ⟨⟨r₁, t⟩, h₁, he⟩ := Option.map_eq_some_iff.mp he
  split at h₁
  · unfold enqueueFragment at h₁
    have ht : r₁ = none ∧ Keeps s t := by
      split at h₁
      · cases h₁
        refine ⟨rfl, ?_⟩
        split
        · exact (keeps_freeQueue s _).trans (keeps_listAddTail _ f (by simp))
        · exact keeps_listAddTail s f (by simp)
      · cases h₁
        exact ⟨rfl, keeps_rtwFreeRecvframe s f⟩
      · simp at h₁
    obtain ⟨rfl, ht⟩ := ht
    cases he
    exact ht
  · split at h₁
    · rename_i h0
      unfold lastFragment at h₁
      split at h₁
      · rename_i psta hq
        have hmem : f ∈ (s.listAddTail f (.defrag psta)).queue (.defrag psta) := by
          simp [listAddTail, mem_addTail]
        have hnone := recvframeDefrag_null hmem h0
        obtain ⟨u, hu, -⟩ := hnone
        obtain ⟨rfl, rfl⟩ := Prod.mk.inj (Option.some.inj (h₁.symm.trans hu))
        cases he
        exact (keeps_listAddTail s f (by simp)).trans (keeps_recvframeDefrag hmem h0 hu)
      · cases h₁
        cases he
        exact keeps_rtwFreeRecvframe s f
      · simp at h₁
    · cases h₁
      unfold checkReassembled at he
      dsimp only at he
      split at he
      · obtain ⟨fr, chk, -, hchk⟩ := s.recvframeChkmic_eq f
        have ht : Keeps s (s.recvframeChkmic f).2 := by
          rw [hchk]
          exact keeps_touched hf ..
        split at he
        · cases he
          exact ht
        · cases he
          exact ht.trans (keeps_rtwFreeRecvframe _ f)
      · cases he
        exact Keeps.refl s

/-! ## Connection management -/

/-- The operation blocks the port of a station with other than EAPOL packets on a pending
list. -/
def BlocksPending (s : Adapter RecvId) (op : MlmeOp) : Prop :=
  ∃ c, ∃ x ∈ s.pendingOf c, ¬ (s.recvframe x).EapolOnly ∧
    s.portBlocked (s.recvframe x).attrib.ta = false ∧
    (s.mlmeOp op).portBlocked (s.recvframe x).attrib.ta = true

theorem shrinks_freePendings (psta : StaId) : ∀ (tids : List (Fin 16)) (s : Adapter RecvId),
    Shrinks s (tids.foldl (fun s tid => s.freePending psta tid) s)
  | [], s => Shrinks.refl s
  | tid :: tids, s => by
    rw [List.foldl_cons, freePending_eq]
    exact (keeps_freeQueue s _).toShrinks.trans (shrinks_freePendings psta tids _)

theorem shrinks_rtwFreeStainfo (s : Adapter RecvId) (psta : StaId) :
    Shrinks s (s.rtwFreeStainfo psta) := by
  have hlast : ∀ t : Adapter RecvId, Shrinks s t →
      Shrinks s { t with freeStaQueue := t.freeStaQueue ++ [psta] } :=
    fun t ht => ⟨ht.pending, ht.indications⟩
  refine hlast _ (Shrinks.trans ?_ (shrinks_freePendings psta (List.finRange 16) _))
  refine ⟨fun c x hx => ⟨?_, rfl⟩, rfl⟩
  have hx' : x ∈ clear s.queue (.defrag psta) (.pending c.1 c.2) := hx
  rwa [clear, Function.update_of_ne (by simp)] at hx'

theorem shrinks_rtwAllocStainfo (s : Adapter RecvId) (hwaddr : MacAddr) :
    Shrinks s (s.rtwAllocStainfo hwaddr).2 := by
  unfold rtwAllocStainfo
  split
  · exact Shrinks.refl s
  · rename_i psta rest hq
    refine ⟨fun c x hx => ⟨?_, rfl⟩, rfl⟩
    have hx' : x ∈ if c.1 = psta then [] else s.pendingOf c := hx
    split at hx'
    · simp at hx'
    · exact hx'

theorem shrinks_ucSwdecFreeLoop :
    ∀ (n : ℕ) (s : Adapter RecvId), Shrinks s (Adapter.ucSwdecFreeLoop n s)
  | 0, s => Shrinks.refl s
  | n + 1, s => by
    rw [Adapter.ucSwdecFreeLoop]
    cases ha : s.rtwAllocRecvframe .ucSwdecPending with
    | none => exact Shrinks.refl s
    | some r =>
      exact ((keeps_alloc ha).trans (keeps_rtwFreeRecvframe _ r.1)).toShrinks.trans
        (shrinks_ucSwdecFreeLoop n _)

theorem shrinks_mlmeOp (s : Adapter RecvId) (op : MlmeOp) : Shrinks s (s.mlmeOp op) := by
  cases op with
  | freeStainfo psta => exact shrinks_rtwFreeStainfo s psta
  | allocStainfo hwaddr => exact shrinks_rtwAllocStainfo s hwaddr
  | freeUcSwdecPendingQueue => exact shrinks_ucSwdecFreeLoop _ s
  | stop stopped removed => exact ⟨fun _ _ hx => ⟨hx, rfl⟩, rfl⟩
  | configure mlmepriv mlmeext securitypriv sta => exact ⟨fun _ _ hx => ⟨hx, rfl⟩, rfl⟩

theorem guarded_mlmeOp {op : MlmeOp} (h : Guarded s) (hop : ¬ BlocksPending s op) :
    Guarded (s.mlmeOp op) := by
  have hs := s.shrinks_mlmeOp op
  refine ⟨fun c x hx => ?_, ?_⟩
  · obtain ⟨hx', he⟩ := hs.pending c x hx
    intro hblocked
    rw [he] at hblocked ⊢
    by_contra hne
    refine hop ⟨c, x, hx', hne, ?_, hblocked⟩
    by_contra hb
    exact hne (h.pending c x hx' (by simpa using hb))
  · rw [hs.indications]
    exact h.indications

theorem guarded_mlmeOps : ∀ {ops : List MlmeOp} {s : Adapter RecvId}, Guarded s →
    Along mlmeOp (fun s op => ¬ BlocksPending s op) s ops → Guarded (ops.foldl mlmeOp s)
  | [], _, h, _ => h
  | op :: ops, s, h, hops => by
    rw [List.foldl_cons]
    exact guarded_mlmeOps (guarded_mlmeOp h hops.1) hops.2

/-! ## Handing up frames -/

/-- Packets leave the driver. -/
theorem guarded_consumed (h : Guarded s) (fr : RecvFrame) (avail : ℕ → Bool) (hu : List RecvId)
    {inds : List (Indication RecvId)} (hinds : ∀ i ∈ inds, i.blocked = true → IsEapol i.bytes) :
    Guarded (s.consumed f fr avail hu inds) := by
  have h₁ := h.keeps (keeps_consumed s f fr avail hu)
  refine ⟨h₁.pending, fun i hi => ?_⟩
  rcases List.mem_append.mp hi with hi | hi
  · exact h.indications i hi
  · exact hinds i hi

theorem guarded_rtwRecvIndicatepkt (h : Guarded s)
    (hf : s.portBlocked (s.recvframe f).attrib.ta = true → IsEapol (s.recvframe f).bytes)
    (he : s.rtwRecvIndicatepkt f = some s') : Guarded s' := by
  obtain ⟨fr, avail, inds, rfl, -, hinds⟩ := rtwRecvIndicatepkt_eq he
  refine guarded_consumed h _ _ _ fun i hi hb => ?_
  obtain ⟨sink, rfl⟩ := hinds i hi
  exact hf hb

theorem guarded_amsduToMsdu (h : Guarded s) (ha : (s.recvframe f).attrib.amsdu = true)
    (hf : s.SafeFrame f) : Guarded (s.amsduToMsdu f) := by
  obtain ⟨fr, avail, he, -⟩ := s.amsduToMsdu_eq f
  rw [he]
  refine guarded_consumed h _ _ _ fun i hi hb => ?_
  obtain ⟨sub, hsub, rfl⟩ := List.mem_map.mp hi
  have heapol := hf hb
  rw [RecvFrame.EapolOnly, if_pos ha] at heapol
  exact heapol s.memAvail sub hsub

theorem guarded_indicateFrame (h : Guarded s) (hf : s.SafeFrame f)
    (he : s.indicateFrame f = some s') : Guarded s' := by
  unfold indicateFrame at he
  split at he
  · rename_i ha
    cases he
    exact guarded_amsduToMsdu h ha hf
  · rename_i ha
    split at he
    · refine guarded_rtwRecvIndicatepkt h (fun hb => ?_) he
      have heapol := hf hb
      rwa [RecvFrame.EapolOnly, if_neg ha] at heapol
    · cases he
      exact h

/-- A frame keeps its place while others are handed up. -/
theorem safeFrame_indicateFrame {g : RecvId} (hg : s.SafeFrame g) (hne : g ≠ f)
    (he : s.indicateFrame f = some s') : s'.SafeFrame g := by
  rcases indicateFrame_cases he with ⟨-, -, rfl⟩ | ⟨fr, avail, hu, inds, rfl, -⟩
  · exact hg
  · unfold SafeFrame
    rw [consumed_recvframe, Function.update_of_ne hne]
    exact hg

theorem SafeFrame.keeps {g : RecvId} (hg : s.SafeFrame g) (hk : Keeps s s')
    (he : s'.recvframe g = s.recvframe g) : s'.SafeFrame g := by
  unfold SafeFrame
  rw [he, hk.ports]
  exact hg

theorem guarded_inOrderLoop {c : StaId × Fin 16} :
    ∀ {fs : List RecvId} {s s' : Adapter RecvId} {more : Bool}, Guarded s → fs.Nodup →
      (∀ g ∈ fs, s.SafeFrame g) → inOrderLoop c fs s = some (more, s') → Guarded s'
  | [], s, s', more, h, _, _, he => by
    cases he
    exact h
  | f :: fs, s, s', more, h, hnd, hsafe, he => by
    obtain ⟨hfs, hnd⟩ := List.nodup_cons.mp hnd
    rw [inOrderLoop] at he
    dsimp only at he
    split at he
    · cases he
      exact h
    · obtain ⟨u, hind, hloop⟩ := Option.bind_eq_some_iff.mp he
      set t := if (s.reorderCtrl c).indicateSeq = (s.listDelInit f).seqNumOf f
        then (s.listDelInit f).setIndicateSeq c (((s.reorderCtrl c).indicateSeq + 1) &&& 0xfff)
        else s.listDelInit f with ht
      have hk : Keeps s t ∧ t.recvframe = s.recvframe := by
        rw [ht]
        split
        · exact ⟨(keeps_listDelInit s f).trans (keeps_setReorderCtrl ..), rfl⟩
        · exact ⟨keeps_listDelInit s f, rfl⟩
      have hsafe' : ∀ g ∈ f :: fs, t.SafeFrame g := fun g hg =>
        (hsafe g hg).keeps hk.1 (by rw [hk.2])
      have hu := guarded_indicateFrame (h.keeps hk.1) (hsafe' f (List.mem_cons_self ..)) hind
      refine guarded_inOrderLoop hu hnd (fun g hg => ?_) hloop
      exact safeFrame_indicateFrame (hsafe' g (List.mem_cons_of_mem f hg))
        (ne_of_mem_of_not_mem hg hfs) hind

/-- The frame is linked into a pending list. -/
theorem guarded_linkPending {c : StaId × Fin 16} {l : List RecvId} (h : Guarded s)
    (hf : s.SafeFrame f) (hl : l.Perm (f :: s.pendingOf c)) : Guarded (s.linkPending c f l) := by
  refine ⟨fun d x hx => ?_, h.indications⟩
  have hsafe : s.SafeFrame x := by
    have hx' : x ∈ Function.update (unlink s.queue f) (.pending c.1 c.2) l (.pending d.1 d.2) := hx
    by_cases hd : Queue.pending d.1 d.2 = .pending c.1 c.2
    · rw [hd, Function.update_self, hl.mem_iff] at hx'
      rcases List.mem_cons.mp hx' with rfl | hx'
      · exact hf
      · exact h.pending c x hx'
    · rw [Function.update_of_ne hd, mem_unlink] at hx'
      exact h.pending d x hx'.1
  exact hsafe

theorem guarded_reorderLocked {c : StaId × Fin 16} {st : Status} (h : Guarded s)
    (ho : Owned false L s) (hL : f ∈ L) (hf : s.SafeFrame f)
    (he : s.reorderLocked c f = some (st, s')) : Guarded s' := by
  have hk := keeps_setReorderCtrl s c (checkIndicateSeq (s.reorderCtrl c) (s.seqNumOf f)).2
  rcases reorderLocked_cases rfl he with ⟨-, -, rfl⟩ | ⟨l, more, hl, -, hloop⟩
  · exact h.keeps hk
  · have hperm := enqueueWalk_perm hl
    have h₂ := guarded_linkPending (h.keeps hk) (hf.keeps hk rfl) hperm
    have hnd : l.Nodup :=
      hperm.nodup_iff.mpr (List.nodup_cons.mpr ⟨ho.notMem_queue hL _, ho.nodup _⟩)
    have hpend (t : Adapter RecvId) : (t.linkPending c f l).pendingOf c = l := Function.update_self ..
    exact guarded_inOrderLoop h₂ hnd (fun g hg => h₂.pending c g ((hpend _).symm ▸ hg)) hloop

theorem guarded_timeout {c : StaId × Fin 16} (h : Guarded s) (ho : Owned false L s)
    (he : s.rtwReorderingCtrlTimeoutHandler c = some s') : Guarded s' := by
  rcases timeout_cases he with rfl | ⟨-, f, fs, more, hp, hloop⟩
  · exact h
  · have hk := keeps_setReorderCtrl s c { s.reorderCtrl c with indicateSeq := s.seqNumOf f }
    refine guarded_inOrderLoop (h.keeps hk) (hp ▸ ho.nodup _) (fun g hg => ?_) hloop
    exact (h.pending c g (hp ▸ hg)).keeps hk rfl

/-! ## The receive path -/

/-- `portctrl` does not see the packets of the frame : an A-MSDU with other than EAPOL
packets, or a frame whose packet has no type where `portctrl` looks for it. That is so in
manufacturing-test mode, without a SNAP header, and if the frame ends before the type. -/
def FrameSlips (s : Adapter RecvId) (f : RecvId) : Prop :=
  let fr := s.recvframe f
  s.portBlocked fr.attrib.ta = true ∧
    if fr.attrib.amsdu ∧ s.mlmepriv.htOption then ¬ fr.EapolOnly
    else checkFwstate s.mlmepriv.fwState wifiMpState = true ∨ fr.bsnaphdr = false ∨
      fr.snapPacketLen < 14

/-- `portctrl` has found the EAPOL type. -/
def Checked (s : Adapter RecvId) (f : RecvId) : Prop :=
  let fr := s.recvframe f
  s.portBlocked fr.attrib.ta = true →
    fr.mem.be16 (fr.rxData + fr.attrib.hdrlen + fr.attrib.ivLen + 6) = 0x888e

/-- A plain frame that has passed `portctrl` becomes an EAPOL packet. -/
theorem isEapol_of_checked (hc : s.Checked f) (hslip : ¬ FrameSlips s f)
    (hplain : ¬ ((s.recvframe f).attrib.amsdu = true ∧ s.mlmepriv.htOption = true))
    {fr : RecvFrame}
    (hw : (s.recvframe f).wlanhdrToEthhdr (checkFwstate s.mlmepriv.fwState wifiMpState) = some fr)
    (hb : s.portBlocked (s.recvframe f).attrib.ta = true) : IsEapol fr.bytes := by
  have hno : ¬ (checkFwstate s.mlmepriv.fwState wifiMpState = true ∨
      (s.recvframe f).bsnaphdr = false ∨ (s.recvframe f).snapPacketLen < 14) := by
    intro h
    refine hslip ⟨hb, ?_⟩
    rwa [if_neg hplain]
  push Not at hno
  obtain ⟨hmp, hsnap, hlen⟩ := hno
  have hmp' : checkFwstate s.mlmepriv.fwState wifiMpState = false := by simpa using hmp
  rw [hmp'] at hw
  exact RecvFrame.isEapol_wlanhdrToEthhdr hw (by simpa using hsnap) hlen (hc hb)

theorem guarded_recvIndicatepktReorder {st : Status} (h : Guarded s) (ho : Owned false L s)
    (hL : f ∈ L) (hc : s.Checked f) (hslip : ¬ FrameSlips s f)
    (hht : s.mlmepriv.htOption = true) (he : s.recvIndicatepktReorder f = some (st, s')) :
    Guarded s' := by
  have hpend : ∀ c, f ∉ s.pendingOf c := fun c => ho.notMem_queue hL _
  unfold recvIndicatepktReorder at he
  dsimp only at he
  set c := (s.recvframe f).preorderCtrl with hcdef
  split at he
  · rename_i ha
    have hsafe : s.SafeFrame f := by
      intro hb
      by_contra hne
      refine hslip ⟨hb, ?_⟩
      rwa [if_pos ⟨ha, hht⟩]
    split at he
    · exact guarded_reorderLocked h ho hL hsafe he
    · cases he
      have hk := keeps_setReorderCtrl s c { s.reorderCtrl c with indicateSeq := s.seqNumOf f }
      exact (guarded_amsduToMsdu (h.keeps hk) ha (hsafe.keeps hk rfl)).keeps
        (keeps_setReorderCtrl ..)
  · rename_i ha
    obtain ⟨t, hw, he⟩ := Option.bind_eq_some_iff.mp he
    obtain ⟨fr, hfr, rfl⟩ := wlanhdrToEthhdr_eq hw
    obtain ⟨-, hattr, -⟩ := RecvFrame.wlanhdrToEthhdr_sameBut hfr
    have hframe : (s.updateFrame f fun _ => fr).recvframe f = fr := by
      rw [recvframe_updateFrame, Function.update_self]
    have h₁ := h.keeps (keeps_updateFrame hpend fun _ => fr)
    have ho₁ := ho.congr (sameLists_updateFrame s f fun _ => fr)
    have heapol : (s.updateFrame f fun _ => fr).portBlocked fr.attrib.ta = true →
        IsEapol fr.bytes := by
      intro hb
      rw [hattr] at hb
      exact isEapol_of_checked hc hslip (fun hp => ha hp.1) hfr hb
    have hsafe : (s.updateFrame f fun _ => fr).SafeFrame f := by
      intro hb
      rw [hframe] at hb ⊢
      rw [RecvFrame.EapolOnly, hattr, if_neg ha]
      exact heapol hb
    split at he
    · split at he
      · obtain ⟨u, hu, hst⟩ := Option.map_eq_some_iff.mp he
        cases hst
        exact guarded_rtwRecvIndicatepkt h₁ (by rwa [hframe]) hu
      · cases he
        exact h₁
    · split at he
      · exact guarded_reorderLocked h₁ ho₁ hL hsafe he
      · obtain ⟨u, hu, hst⟩ := Option.map_eq_some_iff.mp he
        cases hst
        have hk := keeps_setReorderCtrl (s.updateFrame f fun _ => fr) c
          { (s.updateFrame f fun _ => fr).reorderCtrl c with indicateSeq := s.seqNumOf f }
        have hu' := guarded_rtwRecvIndicatepkt (h₁.keeps hk) (fun hb => ?_) hu
        · exact hu'.keeps (keeps_setReorderCtrl ..)
        · rw [hk.ports, recvframe_setReorderCtrl, hframe] at hb
          rw [recvframe_setReorderCtrl, hframe]
          exact heapol hb

theorem guarded_processRecvIndicatepkts {ok : Bool} (h : Guarded s) (ho : Owned false L s)
    (hL : f ∈ L) (hc : s.Checked f) (hslip : ¬ FrameSlips s f)
    (he : s.processRecvIndicatepkts f = some (ok, s')) : Guarded s' := by
  unfold processRecvIndicatepkts at he
  split at he
  · rename_i hht
    obtain ⟨⟨st, t⟩, hr, he⟩ := Option.map_eq_some_iff.mp he
    have ht := guarded_recvIndicatepktReorder h ho hL hc hslip hht hr
    dsimp only at he
    split at he
    · cases he
      exact ht
    · cases he
      exact ht
  · rename_i hht
    obtain ⟨t, hw, he⟩ := Option.bind_eq_some_iff.mp he
    obtain ⟨fr, hfr, rfl⟩ := wlanhdrToEthhdr_eq hw
    have h₁ := h.keeps (keeps_updateFrame (fun c => ho.notMem_queue hL _) fun _ => fr)
    split at he
    · obtain ⟨u, hu, hst⟩ := Option.map_eq_some_iff.mp he
      cases hst
      refine guarded_rtwRecvIndicatepkt h₁ (fun hb => ?_) hu
      rw [recvframe_updateFrame, Function.update_self] at hb ⊢
      rw [(RecvFrame.wlanhdrToEthhdr_sameBut hfr).2.1] at hb
      exact isEapol_of_checked hc hslip (fun hp => hht hp.2) hfr hb
    · cases he
      exact h₁

/-- With 802.1X, a frame that passes `portctrl` was found to have the EAPOL type, if its
transmitter is blocked. -/
theorem checked_of_portctrl (hauth : s.securitypriv.dot11AuthAlgrthm = .ieee8021X)
    (he : s.portctrl f = (true, s')) : s' = s ∧ s.Checked f := by
  unfold portctrl at he
  dsimp only at he
  split at he
  · split at he
    · rename_i htype
      cases he
      exact ⟨rfl, fun _ => htype⟩
    · simp at he
  · rename_i hno
    cases he
    exact ⟨rfl, fun hb => absurd ⟨hauth, hb⟩ hno⟩

/-- A frame that reaches `process_recv_indicatepkts` slips through the port control. -/
def PosthandleSlips (s : Adapter RecvId) (f : RecvId) : Prop :=
  ∃ t u, s.decryptor f = (true, t) ∧ t.recvframeChkDefrag f = some (some f, u) ∧
    u.portctrl f = (true, u) ∧ FrameSlips u f

theorem guarded_recvFuncPosthandle (h : Guarded s) (ho : Owned false L s) (hL : f ∈ L)
    (hauth : s.securitypriv.dot11AuthAlgrthm = .ieee8021X) (hslip : ¬ PosthandleSlips s f)
    (he : s.recvFuncPosthandle f = some s') : Guarded s' := by
  have hpend : ∀ c, f ∉ s.pendingOf c := fun c => ho.notMem_queue hL _
  unfold recvFuncPosthandle at he
  obtain ⟨fr, hw, message, -, hd | hd⟩ := s.decryptor_eq f
  · rw [hd] at he
    dsimp only at he
    have hk₁ := keeps_touched hpend fr hw s.securitypriv.bcheckGrpkey message
    have ho₁ := ho.congr (sameLists_touched s f fr hw s.securitypriv.bcheckGrpkey message)
    obtain ⟨⟨r, u⟩, hdef, he⟩ := Option.bind_eq_some_iff.mp he
    have hk₂ := keeps_recvframeChkDefrag (hk₁.notMem hpend) hdef
    have h₂ := (h.keeps hk₁).keeps hk₂
    rcases owned_recvframeChkDefrag ho₁ hL hdef with ⟨rfl, ho₂⟩ | ⟨rfl, -⟩
    · dsimp only at he
      have hauth₂ : u.securitypriv.dot11AuthAlgrthm = .ieee8021X :=
        (hk₂.auth.trans hk₁.auth).trans hauth
      cases hp : u.portctrl f with
      | mk ok v =>
        rw [hp] at he
        cases ok with
        | true =>
          obtain ⟨rfl, hc⟩ := checked_of_portctrl hauth₂ hp
          dsimp only at he
          obtain ⟨⟨ok', w⟩, hproc, rfl⟩ := Option.map_eq_some_iff.mp he
          have h₃ := guarded_processRecvIndicatepkts h₂ ho₂ hL hc
            (fun hs => hslip ⟨_, v, hd, hdef, hp, hs⟩) hproc
          split
          · exact h₃
          · exact h₃.keeps (keeps_rtwFreeRecvframe _ f)
        | false =>
          cases he
          unfold portctrl at hp
          dsimp only at hp
          split at hp
          · split at hp
            · simp at hp
            · cases hp
              exact h₂.keeps (keeps_rtwFreeRecvframe _ f)
          · simp at hp
    · cases he
      exact h₂
  · rw [hd] at he
    cases he
    exact (h.keeps (keeps_touched hpend ..)).keeps (keeps_rtwFreeRecvframe _ f)

variable {mgt : Adapter RecvId → RecvId → List MlmeOp} {fuel : ℕ} {es : List RecvEvent}

/-- What a management frame makes connection management do blocks a port with packets
pending. -/
def PrehandleBlocks (mgt : Adapter RecvId → RecvId → List MlmeOp) (s : Adapter RecvId)
    (f : RecvId) : Prop :=
  IsMgnt s f ∧ ∃ t, (s.updateFrame f readHeader).recvframeChkDefrag f = some (some f, t) ∧
    ¬ Along mlmeOp (fun s op => ¬ BlocksPending s op) t (mgt t f)

/-- The note of the last sequence number does not touch the port. -/
theorem keeps_recvDecache {psta : StaId} {a : RxPktAttrib} {st : StaInfo}
    (h : recvDecache (s.sta psta) a = some st) : Keeps s (s.updateSta psta fun _ => st) := by
  unfold recvDecache at h
  dsimp only at h
  split at h
  · simp at h
  · cases h
    exact keeps_updateSta rfl rfl

theorem keeps_validateRecvDataFrame (hf : ∀ c, f ∉ s.pendingOf c) :
    Keeps s (s.validateRecvDataFrame f).2 := by
  unfold validateRecvDataFrame
  dsimp only
  have h₁ := keeps_updateFrame hf
    fun fr => { fr with attrib := (s.checkDirection (s.recvframe f)).2.2 }
  split
  · rename_i psta hret hpsta
    set a := parseQos _ with ha
    have h₂ := h₁.trans (keeps_updateFrame (h₁.notMem hf) fun fr =>
      { fr with attrib := a, preorderCtrl := (psta, a.priority) })
    split
    · exact h₂
    · rename_i st hst
      have h₃ := h₂.trans (keeps_recvDecache hst)
      dsimp only
      exact h₃.trans (keeps_updateFrame (h₃.notMem hf) _)
  · exact h₁
  · exact h₁

theorem guarded_recvFuncPrehandle {st : Status} (h : Guarded s) (ho : Owned false L s)
    (hL : f ∈ L) (hauth : s.securitypriv.dot11AuthAlgrthm = .ieee8021X)
    (hblk : ¬ PrehandleBlocks mgt s f) (he : s.recvFuncPrehandle mgt f = some (st, s')) :
    Guarded s' ∧ (st = .success → s'.securitypriv.dot11AuthAlgrthm = .ieee8021X) := by
  have hpend : ∀ c, f ∉ s.pendingOf c := fun c => ho.notMem_queue hL _
  unfold recvFuncPrehandle at he
  split at he
  · cases he
    exact ⟨h.keeps (keeps_rtwFreeRecvframe s f), by simp⟩
  rename_i hmp
  obtain ⟨⟨st₁, t⟩, hval, he⟩ := Option.map_eq_some_iff.mp he
  -- what the frame was dropped for does not matter
  have hdrop : Guarded t ∧ (st₁ = .success → t.securitypriv.dot11AuthAlgrthm = .ieee8021X) →
      Guarded s' ∧ (st = .success → s'.securitypriv.dot11AuthAlgrthm = .ieee8021X) := by
    rintro ⟨ht, hta⟩
    split at he
    · cases he
      exact ⟨ht, hta⟩
    · rename_i hok
      cases he
      exact ⟨ht.keeps (keeps_rtwFreeRecvframe _ f), fun hs => absurd hs hok⟩
  refine hdrop ?_
  unfold validateRecvFrame at hval
  dsimp only at hval
  split at hval
  · cases hval
    exact ⟨h, by simp⟩
  rename_i hver
  have hk := keeps_updateFrame hpend readHeader
  split at hval
  · rename_i htype
    obtain ⟨u, hu, hst⟩ := Option.map_eq_some_iff.mp hval
    cases hst
    obtain ⟨⟨r, v⟩, hdef, rfl⟩ := Option.map_eq_some_iff.mp hu
    have hv := (h.keeps hk).keeps (keeps_recvframeChkDefrag (hk.notMem hpend) hdef)
    rcases owned_recvframeChkDefrag (ho.congr (sameLists_updateFrame s f readHeader)) hL hdef with
      ⟨rfl, -⟩ | ⟨rfl, -⟩
    · refine ⟨guarded_mlmeOps hv ?_, by simp⟩
      by_contra hal
      exact hblk ⟨⟨hmp, not_not.mp hver, htype⟩, v, hdef, hal⟩
    · exact ⟨hv, by simp⟩
  · split at hval
    · have hv := Option.some.inj hval
      have hk₁ := hk.trans (keeps_updateFrame (hk.notMem hpend) fun fr =>
        { fr with attrib :=
          { fr.attrib with qos := (getFrameSubType fr.mem fr.rxData).testBit 7 } })
      have hk₂ := hk₁.trans (keeps_validateRecvDataFrame (hk₁.notMem hpend))
      rw [hv] at hk₂
      exact ⟨h.keeps hk₂, fun _ => hk₂.auth.trans hauth⟩
    · cases hval
      exact ⟨h.keeps hk, by simp⟩

/-- `recv_func` on the frame lets other than EAPOL packets of a blocked station through. -/
def RecvFuncSlips (mgt : Adapter RecvId → RecvId → List MlmeOp) (s : Adapter RecvId)
    (f : RecvId) : Prop :=
  PrehandleBlocks mgt s f ∨ ∃ t, s.recvFuncPrehandle mgt f = some (.success, t) ∧
    if t.lacksKey (t.recvframe f).attrib then
      ∃ g u, (t.rtwEnqueueRecvframe f .ucSwdecPending).rtwAllocRecvframe .ucSwdecPending
        = some (g, u) ∧ PosthandleSlips u g
    else PosthandleSlips t f

theorem guarded_recvFuncFrame (h : Guarded s) (ho : Owned false L s) (hL : f ∈ L)
    (hauth : s.securitypriv.dot11AuthAlgrthm = .ieee8021X)
    (hslip : ¬ RecvFuncSlips mgt s f) (he : s.recvFuncFrame mgt f = some s') : Guarded s' := by
  unfold recvFuncFrame at he
  obtain ⟨⟨st, t⟩, hpre, he⟩ := Option.bind_eq_some_iff.mp he
  dsimp only at he
  obtain ⟨h₁, hauth₁⟩ :=
    guarded_recvFuncPrehandle h ho hL hauth (fun hb => hslip (Or.inl hb)) hpre
  rcases owned_recvFuncPrehandle ho hL (by simp) hpre with ⟨rfl, ho₁⟩ | ⟨hst, -⟩
  · rw [if_pos rfl] at he
    split at he
    · rename_i hkey
      have hk : Keeps t (t.rtwEnqueueRecvframe f .ucSwdecPending) := by
        unfold rtwEnqueueRecvframe
        rw [if_neg (by simp)]
        exact (keeps_listDelInit t f).trans (keeps_listAddTail _ f (by simp))
      have ho₂ := owned_rtwEnqueueRecvframe ho₁ hL
      split at he
      · split at he
        · cases he
          exact h₁.keeps hk
        · rename_i g u halloc
          obtain ⟨hg, ho₃⟩ := ho₂.alloc halloc
          have hk₂ := hk.trans (keeps_alloc halloc)
          refine guarded_recvFuncPosthandle (h₁.keeps hk₂) ho₃ (Set.mem_insert g _)
            (hk₂.auth.trans (hauth₁ rfl)) (fun hs => hslip (Or.inr ⟨t, hpre, ?_⟩)) he
          rw [if_pos hkey]
          exact ⟨g, u, halloc, hs⟩
      · cases he
        exact h₁.keeps hk
    · rename_i hkey
      refine guarded_recvFuncPosthandle h₁ ho₁ hL (hauth₁ rfl)
        (fun hs => hslip (Or.inr ⟨t, hpre, ?_⟩)) he
      rwa [if_neg hkey]
  · rw [if_neg hst] at he
    cases he
    exact h₁

/-! ## Runs -/

/-- The step lets other than EAPOL packets of a blocked station through, or blocks a port with
such packets pending. -/
def Slips (mgt : Adapter RecvId → RecvId → List MlmeOp) (s : Adapter RecvId) :
    RecvEvent → Prop
  | .rx fr => ∃ f t, s.rtwAllocRecvframe .freeRecv = some (f, t) ∧
      RecvFuncSlips mgt (t.updateFrame f fun _ => fr) f
  | .mlme op => BlocksPending s op
  | _ => False

theorem guarded_recvStep {e : RecvEvent} (h : Guarded s) (ho : Owned false L s)
    (hauth : s.securitypriv.dot11AuthAlgrthm = .ieee8021X) (hslip : ¬ Slips mgt s e)
    (he : s.recvStep mgt fuel e = some s') : Guarded s' := by
  cases e with
  | rx fr =>
    rw [recvStep] at he
    cases ha : s.rtwAllocRecvframe .freeRecv with
    | none =>
      rw [ha] at he
      cases he
      exact h
    | some r =>
      obtain ⟨f, u⟩ := r
      rw [ha] at he
      obtain ⟨hf, ho₁⟩ := ho.alloc ha
      have hpend : ∀ c, f ∉ u.pendingOf c := fun c => ho₁.notMem_queue (Set.mem_insert f L) _
      have hk := (keeps_alloc ha).trans (keeps_updateFrame hpend fun _ => fr)
      exact guarded_recvFuncFrame (h.keeps hk)
        (ho₁.congr (sameLists_updateFrame u f fun _ => fr)) (Set.mem_insert f L)
        (hk.auth.trans hauth) (fun hs => hslip ⟨f, u, ha, hs⟩) (recvFuncFrame_of_recvFunc he)
  | rxDrop =>
    rw [recvStep] at he
    cases ha : s.rtwAllocRecvframe .freeRecv with
    | none =>
      rw [ha] at he
      cases he
      exact h
    | some r =>
      rw [ha] at he
      cases he
      exact h.keeps ((keeps_alloc ha).trans (keeps_rtwFreeRecvframe _ _))
  | timeout c => exact guarded_timeout h ho he
  | mlme op =>
    cases he
    exact guarded_mlmeOp h hslip

/-- Along every run with 802.1X in which no step slips, the packets that leave the driver
while the port of their station is blocked are EAPOL packets. -/
theorem portClosed_run (hs : PoolFresh s) (hind : s.indications = [])
    (hauth : AlongM (recvStep mgt fuel)
      (fun s _ => s.securitypriv.dot11AuthAlgrthm = .ieee8021X) s es)
    (hok : AlongM (recvStep mgt fuel) (fun s e => ¬ Slips mgt s e) s es)
    (hrun : runM (recvStep mgt fuel) s es = some t) :
    ∀ i ∈ t.indications, i.blocked = true → IsEapol i.bytes := by
  have hinv : (∃ L, Owned false L t) ∧ Guarded t := by
    refine invariant_alongM (I := fun u => (∃ L, Owned false L u) ∧ Guarded u) ?_
      ⟨⟨∅, hs.owned⟩, ?_, ?_⟩ (hauth.and hok) hrun
    · rintro u e v ⟨⟨L, ho⟩, hu⟩ ⟨ha, hno⟩ hv
      obtain ⟨L', ho', -⟩ := owned_recvStep ho (by simp) hv
      exact ⟨⟨L', ho'⟩, guarded_recvStep hu ho ha hno hv⟩
    · intro c x hx
      rw [pendingOf, hs.others _ (by simp)] at hx
      simp at hx
    · simp [hind]
  exact hinv.2.indications

/-- An ad-hoc station with 802.1X and HT, and one peer whose port is blocked. -/
def sampleBlocked : Adapter RecvId :=
  let s := (sampleDriver.rtwAllocStainfo sampleTa).2
  { s with
    mlmepriv := { s.mlmepriv with htOption := true }
    securitypriv := { s.securitypriv with dot11AuthAlgrthm := .ieee8021X }
    sta := fun k => { s.sta k with ieee8021xBlocked := (s.sta k).hwaddr = sampleTa } }

/-- An A-MSDU of the peer with one IPv4 packet. The source address of its subframe starts with
the bytes of the EAPOL type. -/
def sampleAmsdu : RecvFrame :=
  { sampleFrame ([0x88, 0, 0, 0] ++ sampleMac.toList ++ sampleTa.toList ++ sampleBssid.toList
      ++ [0x10, 0, 0x80, 0] ++ sampleMac.toList ++ [0x88, 0x8e, 0, 0, 0, 1] ++ [0, 8]
      ++ rfc1042Header ++ [0x08, 0x00]) with
    len := 48
    rxTail := 48 }

theorem poolFresh_sampleBlocked : PoolFresh sampleBlocked := by
  have hsame : ∀ s : Adapter RecvId, SameLists s { s with
      mlmepriv := { s.mlmepriv with htOption := true }
      securitypriv := { s.securitypriv with dot11AuthAlgrthm := .ieee8021X }
      sta := fun k => { s.sta k with ieee8021xBlocked := (s.sta k).hwaddr = sampleTa } } :=
    fun _ => ⟨rfl, rfl, rfl⟩
  exact (poolFresh_sampleDriver.rtwAllocStainfo sampleTa).congr (hsame _)

/-- `FrameSlips` does not hold : the frame has one packet, with its type where `portctrl` looks. -/
def plainPacket (s : Adapter RecvId) (f : RecvId) : Bool :=
  !(s.recvframe f).attrib.amsdu && !checkFwstate s.mlmepriv.fwState wifiMpState &&
    (s.recvframe f).bsnaphdr && 14 ≤ (s.recvframe f).snapPacketLen

theorem not_slips_of_passes {fr : RecvFrame} (h : Passes mgt plainPacket s fr = true) :
    ¬ Slips mgt s (.rx fr) := by
  have htype : getFrameType fr.mem fr.rxData ≠ wifiMgtType := by
    unfold Passes at h
    rw [Bool.and_eq_true, decide_eq_true_eq] at h
    exact h.1
  rintro ⟨f, t, ha, ⟨hmgnt, -⟩ | ⟨u, hpre, hslip⟩⟩
  · exact not_isMgnt_of_type htype t f hmgnt
  obtain ⟨hkey, hpass⟩ := of_passes h ha hpre
  rw [hkey, if_neg Bool.false_ne_true] at hslip
  obtain ⟨v, w, hdec, hdef, -, -, hframe⟩ := hslip
  have hplain := (hpass _ _ hdec).2 _ _ hdef
  simp only [plainPacket, Bool.and_eq_true, Bool.not_eq_true', decide_eq_true_eq] at hplain
  obtain ⟨⟨⟨hamsdu, hmp⟩, hsnap⟩, hlen⟩ := hplain
  rw [hamsdu, if_neg (by simp)] at hframe
  rcases hframe with hframe | hframe | hframe
  · exact absurd (hmp.symm.trans hframe) Bool.false_ne_true
  · exact absurd (hsnap.symm.trans hframe) Bool.false_ne_true.symm
  · omega

/-- From the blocked station, an EAPOL frame is handed up and an IPv4 frame is not. -/
theorem portClosed_run_sample : PoolFresh sampleBlocked ∧ sampleBlocked.indications = [] ∧
    (∃ t, runM (recvStep (fun _ _ => []) 0) sampleBlocked [.rx (sampleData 1 [0x88, 0x8e])] = some t ∧
      t.indications.map (fun i => (i.sink, i.blocked)) = [(.stack, true)] ∧
      ∀ i ∈ t.indications, i.blocked = true → IsEapol i.bytes) ∧
    ∃ t, runM (recvStep (fun _ _ => []) 0) sampleBlocked
        [.rx (sampleData 1 [8, 0]), .timeout (1, 0)] = some t ∧
      t.indications.map (fun i => (i.sink, i.blocked)) = [] ∧
      ∀ i ∈ t.indications, i.blocked = true → IsEapol i.bytes := by
  have hup : (runM (recvStep (fun _ _ => []) 0) sampleBlocked [.rx (sampleData 1 [0x88, 0x8e])]).any
      (fun t => t.indications.map (fun i => (i.sink, i.blocked)) = [(.stack, true)]) = true := by
    decide +kernel
  have hdropped : (runM (recvStep (fun _ _ => []) 0) sampleBlocked
      [.rx (sampleData 1 [8, 0]), .timeout (1, 0)]).any (fun t =>
        t.indications.map (fun i => (i.sink, i.blocked)) = []) = true := by
    decide +kernel
  have hpass : ∀ s e, (match e with
      | .rx fr => Passes (fun _ _ => []) plainPacket s fr
      | .mlme _ => false
      | _ => true) = true → ¬ Slips (fun _ _ => []) s e := by
    intro s e h
    cases e with
    | rx fr => exact not_slips_of_passes h
    | mlme op => exact absurd h Bool.false_ne_true
    | _ => exact id
  obtain ⟨t, ht, hup⟩ := (Option.any_eq_true _ _).mp hup
  obtain ⟨u, hu, hdropped⟩ := (Option.any_eq_true _ _).mp hdropped
  refine ⟨poolFresh_sampleBlocked, rfl, ⟨t, ht, of_decide_eq_true hup, portClosed_run
    poolFresh_sampleBlocked rfl ?_ (alongM_of_checkM hpass (by decide +kernel)) ht⟩, u, hu,
    of_decide_eq_true hdropped, portClosed_run poolFresh_sampleBlocked rfl ?_
      (alongM_of_checkM hpass (by decide +kernel)) hu⟩
  · exact ⟨rfl, fun _ _ => trivial⟩
  · exact @alongM_of_checkM _ _ _ (fun s _ => s.securitypriv.dot11AuthAlgrthm = .ieee8021X) _
      (fun _ _ h => of_decide_eq_true h) _ _ (by decide +kernel)

/-- A packet of a blocked station reaches the network stack inside an A-MSDU. -/
theorem not_portClosed : PoolFresh sampleBlocked ∧ sampleBlocked.indications = [] ∧
    sampleBlocked.securitypriv.dot11AuthAlgrthm = .ieee8021X ∧
    ∃ t, runM (recvStep (fun _ _ => []) 0) sampleBlocked [.rx sampleAmsdu] = some t ∧
      ∃ i ∈ t.indications, i.sink = .stack ∧ i.blocked = true ∧ ¬ IsEapol i.bytes := by
  have hind : (runM (recvStep (fun _ _ => []) 0) sampleBlocked [.rx sampleAmsdu]).any (fun t =>
      t.indications.any fun i => i.sink = .stack ∧ i.blocked = true ∧ ¬ IsEapol i.bytes) =
      true := by
    decide +kernel
  obtain ⟨t, ht, hi⟩ := (Option.any_eq_true _ _).mp hind
  obtain ⟨i, hi, hbad⟩ := List.any_eq_true.mp hi
  exact ⟨poolFresh_sampleBlocked, rfl, rfl, t, ht, i, hi, of_decide_eq_true hbad⟩

end Adapter

end Rtl8188eu
