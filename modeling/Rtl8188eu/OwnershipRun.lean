import Rtl8188eu.Ownership

/-!
# Runs of the receive path

The receive path as a state machine : a frame from the device is put into a receive frame
from the pool and given to `recv_func`, the reorder timer of a station expires, or
connection management works on the station table. `mgt_dispatcher` may do anything that
connection management does.

`poolSound_run` says that the pool is sound after every run, if no step frees a frame twice,
and `onOneList_run` that every receive frame is on exactly one list after every run, if no
step loses a frame.
-/

namespace Rtl8188eu

open LinkedLists Runs

/-- What the receive path reacts to. -/
inductive RecvEvent
  /-- `recvbuf2recvframe` fills a receive frame with `fr` and calls `rtw_recv_entry`. -/
  | rx (fr : RecvFrame)
  /-- `recvbuf2recvframe` frees the receive frame at once : a frame with an error, or a
  report of the device. -/
  | rxDrop
  /-- `rtw_reordering_ctrl_timeout_handler`. -/
  | timeout (c : StaId × Fin 16)
  /-- Connection management outside of `recv_func`. -/
  | mlme (op : MlmeOp)

namespace Adapter

variable {b : Bool} {L : Set RecvId} {s t : Adapter RecvId} {f : RecvId}
  {mgt : Adapter RecvId → RecvId → List MlmeOp} {fuel : ℕ} {es : List RecvEvent}

/-- One event. Without a free receive frame `recvbuf2recvframe` drops what the device has
received. -/
def recvStep (mgt : Adapter RecvId → RecvId → List MlmeOp) (fuel : ℕ) (s : Adapter RecvId) :
    RecvEvent → Option (Adapter RecvId)
  | .rx fr =>
    match s.rtwAllocRecvframe .freeRecv with
    | none => some s
    | some (f, s) => (s.updateFrame f fun _ => fr).recvFunc mgt fuel f
  | .rxDrop =>
    match s.rtwAllocRecvframe .freeRecv with
    | none => some s
    | some (f, s) => some (s.rtwFreeRecvframe f)
  | .timeout c => s.rtwReorderingCtrlTimeoutHandler c
  | .mlme op => some (s.mlmeOp op)

/-- `recv_func` is called with frames on `uc_swdec_pending_queue` that have got their key. It
then handles the first of them again and again. -/
def DrainsPending (s : Adapter RecvId) : Prop :=
  checkFwstate s.mlmepriv.fwState wifiStationState = true ∧
    s.securitypriv.busetkipkey = true ∧ s.queue .ucSwdecPending ≠ []

/-- The step frees a receive frame that is free. -/
def FreesTwice (s : Adapter RecvId) : RecvEvent → Prop
  | .rx fr => ∃ f t, s.rtwAllocRecvframe .freeRecv = some (f, t) ∧
      (DrainsPending t ∨ MgntFreesTwice (t.updateFrame f fun _ => fr) f)
  | _ => False

/-- The step leaves a receive frame on no list. -/
def Loses (mgt : Adapter RecvId → RecvId → List MlmeOp) (s : Adapter RecvId) :
    RecvEvent → Prop
  | .rx fr => ∃ f t, s.rtwAllocRecvframe .freeRecv = some (f, t) ∧
      RecvFuncLoses mgt (t.updateFrame f fun _ => fr) f
  | .mlme op => OpLoses s op
  | _ => False

/-- If `recv_func` returns, no frame was waiting for its key. -/
theorem recvFuncFrame_of_recvFunc (h : s.recvFunc mgt fuel f = some t) :
    s.recvFuncFrame mgt f = some t := by
  unfold recvFunc at h
  split at h
  · rw [drainUcSwdec_eq] at h
    split at h
    · exact h
    · simp at h
  · exact h

/-- One event keeps the ownership of the frames. -/
theorem owned_recvStep {e : RecvEvent} (h : Owned b L s) (hb : b = true → ¬ FreesTwice s e)
    (he : s.recvStep mgt fuel e = some t) :
    ∃ L', Owned b L' t ∧ (¬ Loses mgt s e → L' = L) := by
  cases e with
  | rx fr =>
    rw [recvStep] at he
    cases ha : s.rtwAllocRecvframe .freeRecv with
    | none =>
      rw [ha] at he
      cases he
      exact ⟨L, h, fun _ => rfl⟩
    | some r =>
      obtain ⟨f, u⟩ := r
      rw [ha] at he
      obtain ⟨hf, h₁⟩ := h.alloc ha
      obtain ⟨L', h₂, heq⟩ := owned_recvFuncFrame
        (h₁.congr (sameLists_updateFrame u f fun _ => fr)) (Set.mem_insert f L)
        (fun hbt htw => hb hbt ⟨f, u, ha, Or.inr htw⟩) (recvFuncFrame_of_recvFunc he)
      rw [Set.insert_sdiff_self_of_notMem hf] at heq
      exact ⟨L', h₂, fun hno => heq fun hl => hno ⟨f, u, ha, hl⟩⟩
  | rxDrop =>
    rw [recvStep] at he
    cases ha : s.rtwAllocRecvframe .freeRecv with
    | none =>
      rw [ha] at he
      cases he
      exact ⟨L, h, fun _ => rfl⟩
    | some r =>
      obtain ⟨f, u⟩ := r
      rw [ha] at he
      cases he
      obtain ⟨hf, h₁⟩ := h.alloc ha
      have h₂ := h₁.free_lost (Set.mem_insert f L)
      rw [Set.insert_sdiff_self_of_notMem hf] at h₂
      exact ⟨L, h₂, fun _ => rfl⟩
  | timeout c => exact ⟨L, owned_timeout h he, fun _ => rfl⟩
  | mlme op =>
    cases he
    obtain ⟨L', -, h₁, heq⟩ := owned_mlmeOp h op
    exact ⟨L', h₁, heq⟩

/-! ## Runs -/

/-- All receive frames are free, as `_rtw_init_recv_priv` leaves them. -/
structure PoolFresh (s : Adapter RecvId) : Prop where
  free : ∀ f, f ∈ s.queue .freeRecv
  nodup : (s.queue .freeRecv).Nodup
  others : ∀ q, q ≠ .freeRecv → s.queue q = []
  cnt : s.freeRecvframeCnt = nrRecvframe
  log : s.poolLog = []

theorem PoolFresh.congr (h : PoolFresh s) (hs : SameLists s t) : PoolFresh t := by
  refine ⟨?_, ?_, ?_, hs.cnt.trans h.cnt, hs.log.trans h.log⟩
  · rw [hs.queue]
    exact h.free
  · rw [hs.queue]
    exact h.nodup
  · rw [hs.queue]
    exact h.others

/-- A new station starts with empty lists. -/
theorem PoolFresh.rtwAllocStainfo (h : PoolFresh s) (hwaddr : MacAddr) :
    PoolFresh (s.rtwAllocStainfo hwaddr).2 := by
  unfold Adapter.rtwAllocStainfo
  split
  · exact h
  · refine ⟨h.free, h.nodup, fun q hq => ?_, h.cnt, h.log⟩
    have hq' := h.others q hq
    cases q with
    | freeRecv => exact absurd rfl hq
    | ucSwdecPending => exact hq'
    | defrag k =>
      simp only [initStaQueues, hq', ite_self]
    | pending k tid =>
      simp only [initStaQueues, hq', ite_self]

theorem poolFresh_init (mac : MacAddr) : PoolFresh (Adapter.init (List.finRange 256) mac) := by
  refine PoolFresh.rtwAllocStainfo ⟨fun f => ?_, ?_, fun q hq => ?_, ?_, rfl⟩ bcAddr
  · simp [Adapter.blank]
  · simpa [Adapter.blank] using List.nodup_finRange 256
  · simp [Adapter.blank, hq]
  · simp [Adapter.blank, nrRecvframe]

theorem PoolFresh.owned (h : PoolFresh s) : Owned b ∅ s := by
  have hone : ∀ f, (s.queue .freeRecv).count f = 1 := fun f =>
    List.count_eq_one_of_mem h.nodup (h.free f)
  have hlen : (s.queue .freeRecv).length = 256 := by
    have hcard := List.toFinset_card_of_nodup h.nodup
    rw [← hcard]
    have huniv : (s.queue .freeRecv).toFinset = Finset.univ := by
      ext f
      simp [h.free f]
    rw [huniv, Finset.card_univ, Fintype.card_fin]
  refine ⟨by simp, fun f _ => ?_, fun _ => ⟨?_, ?_, ?_⟩⟩
  · unfold occ
    rw [Finset.sum_eq_single .freeRecv, hone f]
    · intro q _ hq
      rw [h.others q hq, List.count_nil]
    · simp
  · rw [hlen, h.cnt]
    rfl
  · intro f
    rw [h.log, if_pos (h.free f)]
    rfl
  · intro pre hpre
    rw [h.log, List.prefix_nil] at hpre
    subst hpre
    exact fun _ => le_rfl

/-- The pool is sound : the counter is the number of free frames, no frame is linked twice
in the free queue, and no frame was ever returned more often than it was taken. -/
structure PoolSound (s : Adapter RecvId) : Prop where
  cnt : s.freeRecvframeCnt = (s.queue .freeRecv).length
  nodup : (s.queue .freeRecv).Nodup
  once : ∀ pre, pre <+: s.poolLog → ∀ f, frees pre f ≤ allocs pre f

/-- The pool is sound in every state of every run without a step that frees twice. -/
theorem poolSound_run (hs : PoolFresh s)
    (hok : AlongM (recvStep mgt fuel) (fun s e => ¬ FreesTwice s e) s es)
    (hrun : runM (recvStep mgt fuel) s es = some t) : PoolSound t := by
  have hinv : ∃ L, Owned true L t := by
    refine invariant_alongM (I := fun u => ∃ L, Owned true L u) ?_ ⟨∅, hs.owned⟩ hok hrun
    rintro u e v ⟨L, hu⟩ he hv
    obtain ⟨L', h', -⟩ := owned_recvStep hu (fun _ => he) hv
    exact ⟨L', h'⟩
  obtain ⟨L, h⟩ := hinv
  exact ⟨(h.ledger rfl).cnt_eq, h.nodup _, (h.ledger rfl).once⟩

/-- Every receive frame is on exactly one list in every state of every run without a step
that loses a frame. -/
theorem onOneList_run (hs : PoolFresh s)
    (hok : AlongM (recvStep mgt fuel) (fun s e => ¬ Loses mgt s e) s es)
    (hrun : runM (recvStep mgt fuel) s es = some t) (f : RecvId) : ∃! q, f ∈ t.queue q := by
  have hinv : Owned false ∅ t := by
    refine invariant_alongM (I := Owned false ∅) ?_ hs.owned hok hrun
    intro u e v hu he hv
    obtain ⟨L', h', heq⟩ := owned_recvStep hu (by simp) hv
    exact heq he ▸ h'
  exact existsUnique_of_occ_eq_one (hinv.linked f (by simp))

/-! ## Two runs that go wrong -/

/-- An address of the device. -/
def sampleMac : MacAddr := localAddr 2

/-- The network of an ad-hoc station. -/
def sampleBssid : MacAddr := localAddr 3

/-- A driver after initialisation, in an ad-hoc network. -/
def sampleDriver : Adapter RecvId :=
  let s := Adapter.init (List.finRange 256) sampleMac
  { s with
    mlmepriv := { s.mlmepriv with fwState := wifiAdhocState ||| fwLinked, curBssid := sampleBssid } }

/-- A frame of 40 bytes with the header bytes `hdr`. -/
def sampleFrame (hdr : List UInt8) : RecvFrame :=
  { initRecvframe with
    pkt := true
    len := 40
    rxTail := 40
    rxEnd := 2000
    mem := fun a => hdr.getD a.toNat 0 }

/-- A QoS data frame from the station `sampleTa`, of one packet with the type `type`. -/
def sampleData (seqNum : UInt8) (type : List UInt8) : RecvFrame :=
  sampleFrame (([0x88, 0, 0, 0] : List UInt8) ++ sampleMac.toList ++ sampleTa.toList
    ++ sampleBssid.toList ++ ([seqNum <<< 4, 0, 0, 0] : List UInt8) ++ rfc1042Header ++ type)

/-- A beacon with the fragment number 1. -/
def sampleBeaconFragment : RecvFrame :=
  sampleFrame
    ([0x80, 0, 0, 0] ++ bcAddr.toList ++ sampleTa.toList ++ sampleTa.toList ++ [0x11, 0])

/-- A data fragment from the station `sampleTa`. -/
def sampleDataFragment (moreFrag seqCtl : UInt8) : RecvFrame :=
  sampleFrame ([0x08, moreFrag, 0, 0] ++ sampleMac.toList ++ sampleTa.toList
    ++ sampleBssid.toList ++ [seqCtl, 0])

theorem poolFresh_sampleDriver : PoolFresh sampleDriver := by
  have hsame : ∀ s : Adapter RecvId, SameLists s { s with
      mlmepriv := { s.mlmepriv with
        fwState := wifiAdhocState ||| fwLinked, curBssid := sampleBssid } } :=
    fun _ => ⟨rfl, rfl, rfl⟩
  exact (poolFresh_init sampleMac).congr (hsame _)

theorem not_isMgnt_of_type {fr : RecvFrame} (hfr : getFrameType fr.mem fr.rxData ≠ wifiMgtType)
    (s : Adapter RecvId) (f : RecvId) : ¬ IsMgnt (s.updateFrame f fun _ => fr) f := by
  rintro ⟨-, -, htype⟩
  rw [recvframe_updateFrame, Function.update_self] at htype
  exact hfr htype

theorem not_freesTwice_of_type {fr : RecvFrame}
    (hfr : getFrameType fr.mem fr.rxData ≠ wifiMgtType)
    (hs : checkFwstate s.mlmepriv.fwState wifiStationState = false) :
    ¬ FreesTwice s (.rx fr) := by
  rintro ⟨f, t, halloc, ⟨hsta, -⟩ | ⟨hmgnt, -⟩⟩
  · have hmlme : t.mlmepriv = s.mlmepriv := by
      unfold rtwAllocRecvframe at halloc
      cases hq : s.queue .freeRecv with
      | nil => simp [hq] at halloc
      | cons g rest =>
        rw [hq] at halloc
        dsimp only at halloc
        rw [if_pos rfl] at halloc
        cases halloc
        rfl
    rw [hmlme, hs] at hsta
    simp at hsta
  · exact not_isMgnt_of_type hfr t f hmgnt

/-- The frame is no management frame and waits for no key, and `check` holds of it behind
`decryptor` and behind `recvframe_chk_defrag`. -/
def Passes (mgt : Adapter RecvId → RecvId → List MlmeOp)
    (check : Adapter RecvId → RecvId → Bool) (s : Adapter RecvId) (fr : RecvFrame) : Bool :=
  getFrameType fr.mem fr.rxData ≠ wifiMgtType && (s.rtwAllocRecvframe .freeRecv).all fun a =>
    ((a.2.updateFrame a.1 fun _ => fr).recvFuncPrehandle mgt a.1).all fun p =>
      !p.2.lacksKey (p.2.recvframe a.1).attrib && check (p.2.decryptor a.1).2 a.1 &&
        ((p.2.decryptor a.1).2.recvframeChkDefrag a.1).all fun r => check r.2 a.1

theorem of_passes {check : Adapter RecvId → RecvId → Bool} {fr : RecvFrame}
    (h : Passes mgt check s fr = true) {f : RecvId} {t u : Adapter RecvId} {st : Status}
    (ha : s.rtwAllocRecvframe .freeRecv = some (f, t))
    (hpre : (t.updateFrame f fun _ => fr).recvFuncPrehandle mgt f = some (st, u)) :
    u.lacksKey (u.recvframe f).attrib = false ∧ ∀ ok v, u.decryptor f = (ok, v) →
      check v f = true ∧ ∀ r w, v.recvframeChkDefrag f = some (r, w) → check w f = true := by
  unfold Passes at h
  rw [ha, Option.all_some, Bool.and_eq_true] at h
  dsimp only at h
  rw [hpre, Option.all_some, Bool.and_eq_true, Bool.and_eq_true, Bool.not_eq_true'] at h
  obtain ⟨-, ⟨hkey, hcheck⟩, hdefrag⟩ := h
  refine ⟨hkey, fun ok v hv => ?_⟩
  rw [hv] at hcheck hdefrag
  refine ⟨hcheck, fun r w hw => ?_⟩
  rw [hw, Option.all_some] at hdefrag
  exact hdefrag

theorem not_loses_of_passes {fr : RecvFrame} (h : Passes mgt (fun s f =>
    (s.recvframe f).attrib.fragNum = 0 && s.driverUp) s fr = true) : ¬ Loses mgt s (.rx fr) := by
  have htype : getFrameType fr.mem fr.rxData ≠ wifiMgtType := by
    unfold Passes at h
    rw [Bool.and_eq_true, decide_eq_true_eq] at h
    exact h.1
  rintro ⟨f, t, ha, ⟨hmgnt, -⟩ | ⟨u, hpre, hlose⟩⟩
  · exact not_isMgnt_of_type htype t f hmgnt
  obtain ⟨hkey, hpass⟩ := of_passes h ha hpre
  rw [hkey, if_neg Bool.false_ne_true] at hlose
  obtain ⟨v, hdec, ⟨-, hfrag, -⟩ | ⟨w, hw, -, hup, -⟩⟩ := hlose
  · have hzero := (hpass _ _ hdec).1
    rw [Bool.and_eq_true, decide_eq_true_eq] at hzero
    exact hfrag hzero.1
  · have hrun := (hpass _ _ hdec).2 _ _ hw
    rw [Bool.and_eq_true, hup] at hrun
    exact absurd hrun.2 Bool.false_ne_true

/-- The driver with one station, and an agreement with it for TID 0. -/
def samplePeer : Adapter RecvId :=
  let s := (sampleDriver.rtwAllocStainfo sampleTa).2
  { s with
    mlmepriv := { s.mlmepriv with htOption := true }
    sta := fun k => { s.sta k with recvreorderCtrl := fun _ => ⟨true, 0, 64⟩ } }

theorem poolFresh_samplePeer : PoolFresh samplePeer := by
  have hsame : ∀ s : Adapter RecvId, SameLists s { s with
      mlmepriv := { s.mlmepriv with htOption := true }
      sta := fun k => { s.sta k with recvreorderCtrl := fun _ => ⟨true, 0, 64⟩ } } :=
    fun _ => ⟨rfl, rfl, rfl⟩
  exact (poolFresh_sampleDriver.rtwAllocStainfo sampleTa).congr (hsame _)

/-- A data frame waits for the one before it, until the timeout. -/
def sampleGap : List RecvEvent := [.rx (sampleData 1 [8, 0]), .timeout (1, 0)]

/-- The frame waits, and is returned. -/
theorem sampleGap_lists : (runM (recvStep (fun _ _ => []) 0) samplePeer (sampleGap.take 1)).any
      (fun t => t.queue (.pending 1 0) = [0]) = true ∧
    (runM (recvStep (fun _ _ => []) 0) samplePeer sampleGap).any
      (fun t => t.poolLog = [.alloc 0, .free 0]) = true := by
  constructor <;> decide +kernel

theorem poolSound_run_sample : PoolFresh samplePeer ∧
    ∃ t, runM (recvStep (fun _ _ => []) 0) samplePeer sampleGap = some t ∧
      t.poolLog = [.alloc 0, .free 0] ∧ PoolSound t := by
  obtain ⟨t, ht, hlog⟩ := (Option.any_eq_true _ _).mp sampleGap_lists.2
  refine ⟨poolFresh_samplePeer, t, ht, of_decide_eq_true hlog,
    poolSound_run poolFresh_samplePeer ?_ ht⟩
  refine @alongM_of_checkM _ _ _ (fun s e => match e with
    | .rx fr => getFrameType fr.mem fr.rxData ≠ wifiMgtType &&
        checkFwstate s.mlmepriv.fwState wifiStationState = false
    | _ => true) _ (fun s e h => ?_) _ _ (by decide +kernel)
  cases e with
  | rx fr =>
    rw [Bool.and_eq_true, decide_eq_true_eq, decide_eq_true_eq] at h
    exact not_freesTwice_of_type h.1 h.2
  | _ => exact id

theorem onOneList_run_sample : PoolFresh samplePeer ∧
    (∃ t, runM (recvStep (fun _ _ => []) 0) samplePeer (sampleGap.take 1) = some t ∧
      t.queue (.pending 1 0) = [0] ∧ ∃! q, 0 ∈ t.queue q) ∧
    ∃ t, runM (recvStep (fun _ _ => []) 0) samplePeer sampleGap = some t ∧ ∃! q, 0 ∈ t.queue q := by
  have hok : AlongM (recvStep (fun _ _ => []) 0) (fun s e => ¬ Loses (fun _ _ => []) s e) samplePeer
      sampleGap := by
    refine @alongM_of_checkM _ _ _ (fun s e => match e with
      | .rx fr => Passes (fun _ _ => []) (fun s f =>
          (s.recvframe f).attrib.fragNum = 0 && s.driverUp) s fr
      | .mlme _ => false
      | _ => true) _ (fun s e h => ?_) _ _ (by decide +kernel)
    cases e with
    | rx fr => exact not_loses_of_passes h
    | mlme op => exact absurd h Bool.false_ne_true
    | _ => exact id
  obtain ⟨t, ht, hwaits⟩ := (Option.any_eq_true _ _).mp sampleGap_lists.1
  obtain ⟨u, hu, -⟩ := (Option.any_eq_true _ _).mp sampleGap_lists.2
  have hok₁ : AlongM (recvStep (fun _ _ => []) 0) (fun s e => ¬ Loses (fun _ _ => []) s e) samplePeer
      (sampleGap.take 1) := ⟨hok.1, fun _ _ => trivial⟩
  exact ⟨poolFresh_samplePeer, ⟨t, ht, of_decide_eq_true hwaits,
    onOneList_run poolFresh_samplePeer hok₁ ht 0⟩, u, hu, onOneList_run poolFresh_samplePeer hok hu 0⟩

/-- A beacon with a fragment number is freed twice. -/
theorem not_poolSound : PoolFresh sampleDriver ∧
    ∃ t, runM (recvStep (fun _ _ => []) 0) sampleDriver [.rx sampleBeaconFragment] = some t ∧
      ¬ PoolSound t := by
  have hlog : (runM (recvStep (fun _ _ => []) 0) sampleDriver [.rx sampleBeaconFragment]).map
      Adapter.poolLog = some [.alloc 0, .free 0, .free 0] := by decide +kernel
  obtain ⟨t, ht, hlog⟩ := Option.map_eq_some_iff.mp hlog
  refine ⟨poolFresh_sampleDriver, t, ht, fun h => ?_⟩
  have hle := h.once _ List.prefix_rfl 0
  rw [hlog] at hle
  exact absurd hle (by decide)

/-- The second of two fragments makes the driver lose the first one. -/
theorem not_onOneList : PoolFresh sampleDriver ∧
    ∃ t, runM (recvStep (fun _ _ => []) 0) sampleDriver
        [.mlme (.allocStainfo sampleTa), .rx (sampleDataFragment 4 0x10),
          .rx (sampleDataFragment 0 0x11)] = some t ∧
      ∀ q, 0 ∉ t.queue q := by
  have hlost : (runM (recvStep (fun _ _ => []) 0) sampleDriver
        [.mlme (.allocStainfo sampleTa), .rx (sampleDataFragment 4 0x10),
          .rx (sampleDataFragment 0 0x11)]).any (fun t => decide (∀ q, 0 ∉ t.queue q)) = true := by
    decide +kernel
  obtain ⟨t, ht, hlost⟩ := Option.any_eq_true _ _ |>.mp hlost
  exact ⟨poolFresh_sampleDriver, t, ht, of_decide_eq_true hlost⟩

end Adapter

end Rtl8188eu
