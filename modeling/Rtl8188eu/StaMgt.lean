import Rtl8188eu.RecvPool

/-!
# The station table

`rtw_alloc_stainfo` and `rtw_free_stainfo` of `core/rtw_sta_mgt.c`, as far as the receive
path depends on them : the slots and the hash table, the fields a fresh station starts
with, and what happens to the receive frames a station holds. `rtw_free_stainfo` returns
the frames of the sixteen pending lists to the free queue. It initialises the
defragmentation queue again without looking at it, and so does `rtw_alloc_stainfo` with
all lists of the slot.

`Adapter.init` is the state after `_rtw_init_recv_priv`, `_rtw_init_sta_priv` and
`rtw_init_bcmc_stainfo`.
-/

set_option linter.unusedSectionVars false

namespace Rtl8188eu

open LinkedLists

/-- A key of zero bytes. -/
def zeroKey : Key := Vector.replicate 16 0

/-- `_rtw_init_stainfo` : a station record of zero bytes. -/
def initStainfo : StaInfo where
  hwaddr := zeroAddr
  qosOption := false
  ieee8021xBlocked := false
  dot118021XPrivacy := .noPrivacy
  dot11tkiptxmickey := zeroKey
  dot11tkiprxmickey := zeroKey
  dot118021xUncstKey := zeroKey
  dot11txpn := 0
  recvreorderCtrl := fun _ => ⟨false, 0, 0⟩
  baStartingSeqctrl := fun _ => 0
  htpriv := ⟨false, false, 0, 0⟩
  txseqTid := fun _ => 0
  tidRxseq := fun _ => 0

/-- The reorder control of a fresh station. -/
def initReorderCtrl : RecvReorderCtrl where
  enable := false
  indicateSeq := 0xffff
  wsizeB := 64

/-- The record `rtw_alloc_stainfo` leaves for the address `hwaddr`. -/
def freshStainfo (hwaddr : MacAddr) : StaInfo :=
  { initStainfo with
    hwaddr := hwaddr
    recvreorderCtrl := fun _ => initReorderCtrl
    tidRxseq := fun _ => 0xffff }

namespace Adapter

variable {ι : Type} [DecidableEq ι]

/-- The lists of frames of the slot `psta` become empty list heads. -/
def initStaQueues (s : Adapter ι) (psta : StaId) : Adapter ι :=
  { s with
    queue := fun q =>
      match q with
      | .defrag k => if k = psta then [] else s.queue q
      | .pending k _ => if k = psta then [] else s.queue q
      | _ => s.queue q }

/-- `rtw_alloc_stainfo`. The hash of an address is below `NUM_STA`, so the error exit for
a larger one is not taken. -/
def rtwAllocStainfo (s : Adapter ι) (hwaddr : MacAddr) : Option StaId × Adapter ι :=
  match s.freeStaQueue with
  | [] => (none, s)
  | psta :: rest =>
    let s := { s with freeStaQueue := rest }
    let s := s.initStaQueues psta
    let index := wifiMacHash hwaddr
    (some psta, { s with
      sta := Function.update s.sta psta (freshStainfo hwaddr)
      staHash := addTail s.staHash index psta })

/-- The loop over the pending list of one TID in `rtw_free_stainfo`. -/
def freePending (s : Adapter ι) (psta : StaId) (tid : Fin 16) : Adapter ι :=
  (s.queue (.pending psta tid)).foldl (fun s f => (s.listDelInit f).rtwFreeRecvframe f) s

/-- `rtw_free_stainfo`, without the queues of the transmit path. -/
def rtwFreeStainfo (s : Adapter ι) (psta : StaId) : Adapter ι :=
  let s := { s with staHash := unlink s.staHash psta }
  let s := { s with queue := clear s.queue (.defrag psta) }
  let s := s.updateSta psta fun st => { st with txseqTid := fun _ => 0, tidRxseq := fun _ => 0 }
  let s := (List.finRange 16).foldl (fun s tid => s.freePending psta tid) s
  { s with freeStaQueue := s.freeStaQueue ++ [psta] }

/-! ## What freeing a station leaves alone -/

/-- `s'` is `s` but for the receive frames, the lists they are on and the log of the
pool. -/
def FramesOnly (s s' : Adapter ι) : Prop :=
  s' = { s with
    recvframe := s'.recvframe
    queue := s'.queue
    freeRecvframeCnt := s'.freeRecvframeCnt
    poolLog := s'.poolLog }

theorem FramesOnly.refl (s : Adapter ι) : FramesOnly s s := rfl

theorem FramesOnly.trans {s s' s'' : Adapter ι} (h : FramesOnly s s') (h' : FramesOnly s' s'') :
    FramesOnly s s'' := by
  unfold FramesOnly at h h' ⊢
  rw [h'] at ⊢
  rw [h]

theorem framesOnly_rtwFreeRecvframe (s : Adapter ι) (f : ι) :
    FramesOnly s ((s.listDelInit f).rtwFreeRecvframe f) := by
  simp only [FramesOnly, rtwFreeRecvframe, updateFrame, listDelInit, listAddTail]

theorem framesOnly_foldl {α : Type*} {f : Adapter ι → α → Adapter ι}
    (hf : ∀ s a, FramesOnly s (f s a)) :
    ∀ (as : List α) (s : Adapter ι), FramesOnly s (as.foldl f s)
  | [], s => .refl s
  | a :: as, s => (hf s a).trans (framesOnly_foldl hf as (f s a))

/-- `rtw_free_stainfo` takes the record off its hash list, clears the numbers of its last
frames and makes the slot free. The other records stay as they are. -/
theorem rtwFreeStainfo_framesOnly (s : Adapter ι) (psta : StaId) :
    FramesOnly
      { s with
        staHash := unlink s.staHash psta
        sta := Function.update s.sta psta
          { s.sta psta with txseqTid := fun _ => 0, tidRxseq := fun _ => 0 }
        freeStaQueue := s.freeStaQueue ++ [psta] }
      (s.rtwFreeStainfo psta) := by
  have hpending : ∀ (t : Adapter ι) (tid : Fin 16), FramesOnly t (t.freePending psta tid) :=
    fun t tid => framesOnly_foldl framesOnly_rtwFreeRecvframe _ t
  have hall : ∀ t : Adapter ι,
      FramesOnly t ((List.finRange 16).foldl (fun t tid => t.freePending psta tid) t) :=
    framesOnly_foldl hpending (List.finRange 16)
  have hfree : ∀ t u : Adapter ι, FramesOnly t u →
      FramesOnly { t with freeStaQueue := t.freeStaQueue ++ [psta] }
        { u with freeStaQueue := u.freeStaQueue ++ [psta] } := by
    intro t u h
    unfold FramesOnly at h ⊢
    rw [h]
  have hstart : FramesOnly
      { s with
        staHash := unlink s.staHash psta
        sta := Function.update s.sta psta
          { s.sta psta with txseqTid := fun _ => 0, tidRxseq := fun _ => 0 } }
      ({ s with
        staHash := unlink s.staHash psta
        queue := clear s.queue (.defrag psta) }.updateSta psta fun st =>
          { st with txseqTid := fun _ => 0, tidRxseq := fun _ => 0 }) := by
    simp only [FramesOnly, updateSta]
  exact hfree _ _ (hstart.trans (hall _))

end Adapter

/-! ## The initial state -/

/-- A receive frame that was never used. -/
def initRecvframe : RecvFrame where
  pkt := false
  attrib :=
    { hdrlen := 0, toFrDs := 0, amsdu := false, qos := false, priority := 0, seqNum := 0,
      fragNum := 0, mfrag := false, order := false, privacy := false, bdecrypted := false,
      encrypt := .noPrivacy, ivLen := 0, icvLen := 0, dst := zeroAddr, src := zeroAddr,
      ta := zeroAddr, ra := zeroAddr, bssid := zeroAddr, keyIndex := 0 }
  len := 0
  rxHead := 0
  rxData := 0
  rxTail := 0
  rxEnd := 0
  mem := fun _ => 0
  preorderCtrl := (0, 0)

/-- Security state without keys. -/
def initSecurityPriv : SecurityPriv where
  dot11AuthAlgrthm := .openSystem
  dot11PrivacyAlgrthm := .noPrivacy
  dot11PrivacyKeyIndex := 0
  dot11DefKey := fun _ => zeroKey
  dot11DefKeylen := fun _ => 0
  dot118021XGrpPrivacy := .noPrivacy
  dot118021XGrpKeyid := 1
  dot118021XGrpKey := fun _ => zeroKey
  dot118021XGrptxmickey := fun _ => zeroKey
  dot118021XGrprxmickey := fun _ => zeroKey
  binstallGrpkey := false
  busetkipkey := false
  bcheckGrpkey := false
  swEncrypt := false
  swDecrypt := false
  hwDecrypted := false
  ndisauthtype := 0

/-- The adapter of a device with the receive frames `frames` and the address `mac`, before
the broadcast station is set up. -/
def Adapter.blank {ι : Type} (frames : List ι) (mac : MacAddr) : Adapter ι where
  macAddr := mac
  mpMode := false
  ampduAmsdu := 0
  maxRxAmpduFactor := .factor16K
  bDriverStopped := false
  bSurpriseRemoved := false
  mlmepriv := ⟨wifiStationState, zeroAddr, false, false⟩
  mlmeext := ⟨0, 0, false, true, ⟨0, 0, 0, 0, 0⟩, 0, zeroAddr⟩
  securitypriv := initSecurityPriv
  sta := fun _ => initStainfo
  staHash := fun _ => []
  freeStaQueue := List.finRange 32
  recvframe := fun _ => initRecvframe
  queue := fun q => if q = .freeRecv then frames else []
  freeRecvframeCnt := frames.length
  aesMessage := fun _ => 0
  mgntSent := []
  memAvail := fun _ => true
  handedUp := []
  indications := []
  poolLog := []

/-- The adapter after initialisation. -/
def Adapter.init {ι : Type} [DecidableEq ι] (frames : List ι) (mac : MacAddr) : Adapter ι :=
  ((Adapter.blank frames mac).rtwAllocStainfo bcAddr).2

end Rtl8188eu
