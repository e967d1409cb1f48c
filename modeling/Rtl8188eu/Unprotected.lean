import Rtl8188eu.PortControl

/-!
# Data frames without protection

A data frame says in its header whether it is encrypted (the protected bit).
`validate_recv_data_frame` asks for the cipher of the station only when the bit is set, and
no later function of the receive path asks again. So a frame without the bit is handled in
every network as in one without a cipher : with other ciphers and other keys the receive
path hands up the same packets and leaves the same state (`recvFuncFrame_recipher`).
-/

set_option linter.unusedSectionVars false

namespace Rtl8188eu

open LinkedLists

/-- A choice of ciphers and keys, for the network and for each station. -/
structure CipherConfig where
  securitypriv : SecurityPriv
  dot118021XPrivacy : StaId → PrivacyAlgrthm
  dot118021xUncstKey : StaId → Key
  dot11tkiprxmickey : StaId → Key

/-- The record of a station with the cipher and the keys of the choice `k`. -/
def CipherConfig.onSta (k : CipherConfig) (i : StaId) (st : StaInfo) : StaInfo :=
  { st with
    dot118021XPrivacy := k.dot118021XPrivacy i
    dot118021xUncstKey := k.dot118021xUncstKey i
    dot11tkiprxmickey := k.dot11tkiprxmickey i }

namespace Adapter

variable {ι : Type} [DecidableEq ι]

/-- The adapter with the ciphers and keys of the choice `k`. The authentication algorithm
and the ports of the stations stay. -/
def recipher (k : CipherConfig) (s : Adapter ι) : Adapter ι :=
  { s with
    securitypriv :=
      { k.securitypriv with dot11AuthAlgrthm := s.securitypriv.dot11AuthAlgrthm }
    sta := fun i => k.onSta i (s.sta i) }

section recipher

variable (k : CipherConfig) (s : Adapter ι) (f : ι)

@[simp] theorem recvframe_recipher : (s.recipher k).recvframe = s.recvframe := rfl
@[simp] theorem queue_recipher : (s.recipher k).queue = s.queue := rfl
@[simp] theorem mlmepriv_recipher : (s.recipher k).mlmepriv = s.mlmepriv := rfl
@[simp] theorem memAvail_recipher : (s.recipher k).memAvail = s.memAvail := rfl
@[simp] theorem macAddr_recipher : (s.recipher k).macAddr = s.macAddr := rfl
@[simp] theorem driverUp_recipher : (s.recipher k).driverUp = s.driverUp := rfl

@[simp] theorem reorderCtrl_recipher (c : StaId × Fin 16) :
    (s.recipher k).reorderCtrl c = s.reorderCtrl c := rfl

@[simp] theorem seqNumOf_recipher : (s.recipher k).seqNumOf = s.seqNumOf := rfl

@[simp] theorem pendingOf_recipher (c : StaId × Fin 16) :
    (s.recipher k).pendingOf c = s.pendingOf c := rfl

@[simp] theorem portBlocked_recipher (ta : MacAddr) :
    (s.recipher k).portBlocked ta = s.portBlocked ta := rfl

/-! ## The parts of the receive path -/

theorem updateFrame_recipher (g : RecvFrame → RecvFrame) :
    (s.recipher k).updateFrame f g = (s.updateFrame f g).recipher k := rfl

theorem listDelInit_recipher : (s.recipher k).listDelInit f = (s.listDelInit f).recipher k := rfl

theorem listAddTail_recipher (q : Queue) :
    (s.recipher k).listAddTail f q = (s.listAddTail f q).recipher k := rfl

theorem rtwFreeRecvframe_recipher :
    (s.recipher k).rtwFreeRecvframe f = (s.rtwFreeRecvframe f).recipher k := by
  simp only [rtwFreeRecvframe, updateFrame, listDelInit, listAddTail, recipher]

theorem freeFrames_recipher : ∀ (fs : List ι) (s : Adapter ι),
    (s.recipher k).freeFrames fs = (s.freeFrames fs).recipher k
  | [], _ => rfl
  | f :: fs, s => by
    rw [freeFrames_cons, freeFrames_cons, rtwFreeRecvframe_recipher, freeFrames_recipher fs]

theorem rtwFreeRecvframeQueue_recipher (q : Queue) :
    (s.recipher k).rtwFreeRecvframeQueue q = (s.rtwFreeRecvframeQueue q).recipher k :=
  freeFrames_recipher k _ s

theorem indicate_recipher (sink : Sink) (bytes : List UInt8) :
    (s.recipher k).indicate f sink bytes = (s.indicate f sink bytes).recipher k := rfl

theorem setReorderCtrl_recipher (c : StaId × Fin 16) (r : RecvReorderCtrl) :
    (s.recipher k).setReorderCtrl c r = (s.setReorderCtrl c r).recipher k := by
  have hsta : Function.update (fun i => k.onSta i (s.sta i)) c.1
      ((k.onSta c.1 (s.sta c.1)).updateReorder c.2 fun _ => r) = fun i =>
        k.onSta i (Function.update s.sta c.1 ((s.sta c.1).updateReorder c.2 fun _ => r) i) := by
    funext i
    by_cases hi : i = c.1
    · subst hi
      rw [Function.update_self, Function.update_self]
      rfl
    · rw [Function.update_of_ne hi, Function.update_of_ne hi]
  simp only [setReorderCtrl, updateSta, recipher, hsta]

theorem setIndicateSeq_recipher (c : StaId × Fin 16) (seq : ℕ) :
    (s.recipher k).setIndicateSeq c seq = (s.setIndicateSeq c seq).recipher k :=
  setReorderCtrl_recipher k s c _

theorem relay_recipher : (s.recipher k).relay f =
    (s.relay f).map fun r => (r.1, r.2.recipher k) := by
  have hframe : (s.recipher k).recvframe f = s.recvframe f := rfl
  have hfw : (s.recipher k).mlmepriv = s.mlmepriv := rfl
  have hmac : (s.recipher k).macAddr = s.macAddr := rfl
  have hbcmc : (s.recipher k).takeMem.2.rtwGetBcmcStainfo = s.takeMem.2.rtwGetBcmcStainfo := rfl
  have hsta (d : MacAddr) : (s.recipher k).rtwGetStainfo d = s.rtwGetStainfo d := rfl
  have hclone : (s.recipher k).takeMem.1 = s.takeMem.1 := rfl
  unfold relay
  dsimp only
  simp only [hframe, hfw, hmac, hbcmc, hsta, hclone]
  split_ifs
  · cases s.takeMem.2.rtwGetBcmcStainfo <;> rfl
  · cases s.takeMem.2.rtwGetBcmcStainfo <;> rfl
  · cases s.rtwGetStainfo (s.recvframe f).attrib.dst <;> rfl
  · rfl

theorem rtwRecvIndicatepkt_recipher : (s.recipher k).rtwRecvIndicatepkt f =
    (s.rtwRecvIndicatepkt f).map (recipher k) := by
  have heq : (s.recipher k).rtwRecvIndicatepkt f =
      if (s.recvframe f).pkt then
        (({ s with handedUp := s.handedUp ++ [f] } : Adapter ι).recipher k |>.relay f).map fun r =>
          ((if r.1 then r.2.indicate f .stack (s.recvframe f).bytes else r.2).updateFrame f
            fun fr => { fr with pkt := false }).rtwFreeRecvframe f
      else some ((s.recipher k).rtwFreeRecvframe f) := rfl
  rw [heq]
  unfold rtwRecvIndicatepkt
  dsimp only
  split_ifs
  · rw [relay_recipher, Option.map_map, Option.map_map]
    congr 1
    funext r
    simp only [Function.comp_apply]
    split_ifs
    · rw [indicate_recipher, updateFrame_recipher, rtwFreeRecvframe_recipher]
    · rw [updateFrame_recipher, rtwFreeRecvframe_recipher]
  · rw [rtwFreeRecvframe_recipher]
    rfl

theorem foldl_indicate_recipher {α : Type*} (g : α → List UInt8) : ∀ (xs : List α) (s : Adapter ι),
    xs.foldl (fun s x => s.indicate f .stack (g x)) (s.recipher k) =
      (xs.foldl (fun s x => s.indicate f .stack (g x)) s).recipher k
  | [], _ => rfl
  | x :: xs, s => by
    rw [List.foldl_cons, List.foldl_cons, indicate_recipher, foldl_indicate_recipher g xs]

theorem amsduToMsdu_recipher :
    (s.recipher k).amsduToMsdu f = (s.amsduToMsdu f).recipher k := by
  have heq : ∀ t : Adapter ι, t.amsduToMsdu f =
      ((((t.amsduSplit f).1.getD []).foldl
        (fun (u : Adapter ι) sub => u.indicate f .stack
        (msduToEth (amsduPull (t.recvframe f)).attrib.dst
          (amsduPull (t.recvframe f)).attrib.src sub))
        { t with memAvail := (t.amsduSplit f).2, handedUp := t.handedUp ++ [f] }).updateFrame f
          fun _ => { amsduPull (t.recvframe f) with len := 0 }).rtwFreeRecvframe f := fun _ => rfl
  rw [heq s, ← rtwFreeRecvframe_recipher, ← updateFrame_recipher, ← foldl_indicate_recipher]
  exact heq (s.recipher k)

theorem wlanhdrToEthhdr_recipher : (s.recipher k).wlanhdrToEthhdr f =
    (s.wlanhdrToEthhdr f).map (recipher k) := by
  unfold wlanhdrToEthhdr
  rw [recvframe_recipher, mlmepriv_recipher, Option.map_map]
  rfl

theorem enqueueReorderRecvframe_recipher (c : StaId × Fin 16) :
    (s.recipher k).enqueueReorderRecvframe c f =
      (s.enqueueReorderRecvframe c f).map (recipher k) := by
  unfold enqueueReorderRecvframe
  rw [seqNumOf_recipher, pendingOf_recipher, Option.map_map]
  rfl

theorem indicateFrame_recipher : (s.recipher k).indicateFrame f =
    (s.indicateFrame f).map (recipher k) := by
  unfold indicateFrame
  rw [recvframe_recipher, driverUp_recipher]
  split_ifs
  · rw [amsduToMsdu_recipher]
    rfl
  · exact rtwRecvIndicatepkt_recipher k s f
  · rfl

theorem inOrderLoop_recipher (c : StaId × Fin 16) : ∀ (fs : List ι) (s : Adapter ι),
    inOrderLoop c fs (s.recipher k) = (inOrderLoop c fs s).map fun r => (r.1, r.2.recipher k)
  | [], _ => rfl
  | f :: fs, s => by
    rw [inOrderLoop, inOrderLoop]
    simp only [reorderCtrl_recipher, seqNumOf_recipher, listDelInit_recipher,
      setIndicateSeq_recipher]
    split_ifs
    · rfl
    all_goals
      rw [indicateFrame_recipher, Option.bind_map, Option.map_bind]
      congr 1
      funext t
      exact inOrderLoop_recipher c fs t

theorem recvIndicatepktsInOrder_recipher (c : StaId × Fin 16) (bforced : Bool) :
    (s.recipher k).recvIndicatepktsInOrder c bforced =
      (s.recvIndicatepktsInOrder c bforced).map fun r => (r.1, r.2.recipher k) := by
  unfold recvIndicatepktsInOrder
  rw [pendingOf_recipher]
  cases bforced with
  | false => exact inOrderLoop_recipher k c _ s
  | true =>
    cases s.pendingOf c with
    | nil => rfl
    | cons f fs =>
      dsimp only
      rw [seqNumOf_recipher, setIndicateSeq_recipher]
      exact inOrderLoop_recipher k c (f :: fs) _

theorem reorderLocked_recipher (c : StaId × Fin 16) : (s.recipher k).reorderLocked c f =
    (s.reorderLocked c f).map fun r => (r.1, r.2.recipher k) := by
  rw [reorderLocked, reorderLocked, reorderCtrl_recipher, seqNumOf_recipher]
  cases checkIndicateSeq (s.reorderCtrl c) (s.seqNumOf f) with
  | mk ok r =>
    dsimp only
    rw [setReorderCtrl_recipher, enqueueReorderRecvframe_recipher]
    cases ok with
    | false => rfl
    | true =>
      cases (s.setReorderCtrl c r).enqueueReorderRecvframe c f with
      | none => rfl
      | some t =>
        simp only [if_true, Option.map_some]
        rw [recvIndicatepktsInOrder_recipher, Option.map_map, Option.map_map]
        rfl

theorem recvIndicatepktReorder_recipher : (s.recipher k).recvIndicatepktReorder f =
    (s.recvIndicatepktReorder f).map fun r => (r.1, r.2.recipher k) := by
  unfold recvIndicatepktReorder
  dsimp only
  rw [recvframe_recipher, reorderCtrl_recipher, seqNumOf_recipher]
  split_ifs
  · exact reorderLocked_recipher k s f _
  · rw [setIndicateSeq_recipher, amsduToMsdu_recipher, reorderCtrl_recipher,
      setIndicateSeq_recipher]
    rfl
  · rw [wlanhdrToEthhdr_recipher, Option.bind_map, Option.map_bind]
    congr 1
    funext t
    dsimp only [Function.comp_apply]
    rw [recvframe_recipher, driverUp_recipher, reorderCtrl_recipher]
    split_ifs
    · rw [rtwRecvIndicatepkt_recipher, Option.map_map, Option.map_map]
      rfl
    · rfl
    · exact reorderLocked_recipher k t f _
    · rw [setIndicateSeq_recipher, rtwRecvIndicatepkt_recipher, Option.map_map, Option.map_map]
      congr 1
      funext u
      simp only [Function.comp_apply]
      rw [reorderCtrl_recipher, setIndicateSeq_recipher]

theorem processRecvIndicatepkts_recipher : (s.recipher k).processRecvIndicatepkts f =
    (s.processRecvIndicatepkts f).map fun r => (r.1, r.2.recipher k) := by
  unfold processRecvIndicatepkts
  rw [mlmepriv_recipher]
  split_ifs
  · rw [recvIndicatepktReorder_recipher, Option.map_map, Option.map_map]
    congr 1
    funext r
    dsimp only [Function.comp_apply]
    rw [driverUp_recipher]
    split_ifs <;> rfl
  · rw [wlanhdrToEthhdr_recipher, Option.bind_map, Option.map_bind]
    congr 1
    funext t
    dsimp only [Function.comp_apply]
    rw [driverUp_recipher]
    split_ifs
    · rw [rtwRecvIndicatepkt_recipher, Option.map_map, Option.map_map]
      rfl
    · rfl

theorem portctrl_recipher :
    (s.recipher k).portctrl f = ((s.portctrl f).1, (s.portctrl f).2.recipher k) := by
  unfold portctrl
  dsimp only
  rw [recvframe_recipher, portBlocked_recipher, rtwFreeRecvframe_recipher]
  have hauth : (s.recipher k).securitypriv.dot11AuthAlgrthm = s.securitypriv.dot11AuthAlgrthm := rfl
  rw [hauth]
  split_ifs <;> rfl

/-! ## Fragments -/

theorem appendFragment_recipher (g : ι) :
    (s.recipher k).appendFragment f g = (s.appendFragment f g).recipher k := by
  simp only [appendFragment, updateFrame, recipher]

theorem defragLoop_recipher (q : Queue) : ∀ (fuel : ℕ) (next : Option ι) (n : ℕ) (s : Adapter ι),
    defragLoop q f fuel next n (s.recipher k) =
      (defragLoop q f fuel next n s).map fun r => (r.1, r.2.recipher k)
  | 0, _, _, _ => rfl
  | _ + 1, none, _, s => by
    rw [defragLoop, defragLoop, rtwFreeRecvframeQueue_recipher]
    rfl
  | fuel + 1, some g, n, s => by
    rw [defragLoop, defragLoop, recvframe_recipher, rtwFreeRecvframe_recipher,
      rtwFreeRecvframeQueue_recipher, appendFragment_recipher]
    dsimp only
    rw [queue_recipher, defragLoop_recipher q fuel]
    split_ifs <;> rfl

theorem recvframeDefrag_recipher (q : Queue) : (s.recipher k).recvframeDefrag q =
    (s.recvframeDefrag q).map fun r => (r.1, r.2.recipher k) := by
  unfold recvframeDefrag
  rw [queue_recipher]
  cases s.queue q with
  | nil => rfl
  | cons a rest =>
    dsimp only
    rw [listDelInit_recipher, recvframe_recipher, queue_recipher, rtwFreeRecvframe_recipher,
      rtwFreeRecvframeQueue_recipher]
    split_ifs
    · rfl
    · cases (s.listDelInit a).queue q with
      | nil => rfl
      | cons b rest =>
        dsimp only
        rw [listDelInit_recipher, queue_recipher]
        exact defragLoop_recipher k b q 256 _ 1 _

theorem enqueueFragment_recipher : (s.recipher k).enqueueFragment f =
    (s.enqueueFragment f).map fun r => (r.1, r.2.recipher k) := by
  have hq : (s.recipher k).defragQueue ((s.recipher k).recvframe f) =
      s.defragQueue (s.recvframe f) := rfl
  unfold enqueueFragment
  rw [hq]
  cases s.defragQueue (s.recvframe f) with
  | sta psta =>
    dsimp only
    rw [recvframe_recipher, queue_recipher, rtwFreeRecvframeQueue_recipher]
    split_ifs <;> rfl
  | null =>
    dsimp only
    rw [rtwFreeRecvframe_recipher]
    rfl
  | wild => rfl

theorem lastFragment_recipher : (s.recipher k).lastFragment f =
    (s.lastFragment f).map fun r => (r.1, r.2.recipher k) := by
  have hq : (s.recipher k).defragQueue ((s.recipher k).recvframe f) =
      s.defragQueue (s.recvframe f) := rfl
  unfold lastFragment
  rw [hq]
  cases s.defragQueue (s.recvframe f) with
  | sta psta =>
    dsimp only
    rw [listAddTail_recipher, recvframeDefrag_recipher]
  | null =>
    dsimp only
    rw [rtwFreeRecvframe_recipher]
    rfl
  | wild => rfl

end recipher

/-- A fragment is never returned. -/
theorem enqueueFragment_fst {s : Adapter ι} {f : ι} {r : Option ι × Adapter ι}
    (h : s.enqueueFragment f = some r) : r.1 = none := by
  unfold enqueueFragment at h
  cases hq : s.defragQueue (s.recvframe f) <;> rw [hq] at h
  · cases h
    rfl
  · cases h
    rfl
  · exact nomatch h

/-- `recvframe_defrag` returns no frame. -/
theorem recvframeDefrag_fst {s : Adapter ι} {q : Queue} {r : Option ι × Adapter ι}
    (h : s.recvframeDefrag q = some r) : r.1 = none := by
  cases hq : s.queue q with
  | nil =>
    rw [recvframeDefrag, hq] at h
    cases h
  | cons a rest =>
    rcases recvframeDefrag_eq hq with ⟨-, heq⟩ | ⟨h0, hnil | ⟨b, -, fr, -, heq⟩⟩
    · rw [heq] at h
      cases h
      rfl
    · have hnone : s.recvframeDefrag q = none := by
        have hempty : (s.listDelInit a).queue q = [] := hnil
        have hframe : ((s.listDelInit a).recvframe a).attrib.fragNum = 0 := h0
        rw [recvframeDefrag, hq]
        dsimp only
        rw [if_neg (not_not_intro hframe), hempty]
      rw [hnone] at h
      cases h
    · rw [heq] at h
      cases h
      rfl

theorem lastFragment_fst {s : Adapter ι} {f : ι} {r : Option ι × Adapter ι}
    (h : s.lastFragment f = some r) : r.1 = none := by
  unfold lastFragment at h
  cases hq : s.defragQueue (s.recvframe f) <;> rw [hq] at h
  · exact recvframeDefrag_fst h
  · cases h
    rfl
  · exact nomatch h

/-- The check of the MIC at the end of `recvframe_chk_defrag` looks at frames with the
protected bit only. -/
theorem map_checkReassembled_none {o : Option (Option ι × Adapter ι)}
    (h : ∀ r, o = some r → r.1 = none) :
    (o.map fun r => r.2.checkReassembled r.1) = o.map fun r => (none, r.2) := by
  cases o with
  | none => rfl
  | some r =>
    have hr := h r rfl
    simp only [Option.map_some, hr]
    rfl

/-- A frame without the protected bit. -/
theorem recvframeChkDefrag_recipher (k : CipherConfig) {s : Adapter ι} {f : ι}
    (hp : (s.recvframe f).attrib.privacy = false) :
    (s.recipher k).recvframeChkDefrag f =
      (s.recvframeChkDefrag f).map fun r => (r.1, r.2.recipher k) := by
  unfold recvframeChkDefrag
  dsimp only
  rw [recvframe_recipher]
  split_ifs
  · rw [map_checkReassembled_none fun _ => enqueueFragment_fst,
      map_checkReassembled_none fun _ => enqueueFragment_fst, enqueueFragment_recipher,
      Option.map_map, Option.map_map]
    rfl
  · rw [map_checkReassembled_none fun _ => lastFragment_fst,
      map_checkReassembled_none fun _ => lastFragment_fst, lastFragment_recipher,
      Option.map_map, Option.map_map]
    rfl
  · have hcheck : ∀ t : Adapter ι, (t.recvframe f).attrib.privacy = false →
        t.checkReassembled (some f) = (some f, t) := by
      intro t ht
      simp [checkReassembled, ht]
    simp only [Option.map_some]
    rw [hcheck s hp, hcheck (s.recipher k) hp]

/-- `decryptor` leaves a frame without encryption as it is, but for a flag. -/
theorem decryptor_noPrivacy {s : Adapter ι} {f : ι}
    (he : (s.recvframe f).attrib.encrypt = .noPrivacy) :
    s.decryptor f = (true, s.updateFrame f fun fr =>
      { fr with attrib := { fr.attrib with bdecrypted := true } }) := by
  have hread : readKeyIndex (s.recvframe f) = s.recvframe f := by
    rw [readKeyIndex, if_neg (not_not_intro he)]
  have hself : s.updateFrame f readKeyIndex = s := by
    simp [updateFrame, hread]
  have hdec : s.decryptFrame f = (true, s) := by
    simp [decryptFrame, he]
  rw [decryptor, hself, hdec]
  rfl

/-- `recv_func_posthandle` on a frame without the protected bit. -/
theorem recvFuncPosthandle_recipher (k : CipherConfig) {s : Adapter ι} {f : ι}
    (he : (s.recvframe f).attrib.encrypt = .noPrivacy)
    (hp : (s.recvframe f).attrib.privacy = false) :
    (s.recipher k).recvFuncPosthandle f = (s.recvFuncPosthandle f).map (recipher k) := by
  have hp' : ((s.updateFrame f fun fr =>
      { fr with attrib := { fr.attrib with bdecrypted := true } }).recvframe f).attrib.privacy
        = false := by
    simpa using hp
  have he' : ((s.recipher k).recvframe f).attrib.encrypt = .noPrivacy := he
  unfold recvFuncPosthandle
  rw [decryptor_noPrivacy he, decryptor_noPrivacy he']
  dsimp only
  rw [updateFrame_recipher, recvframeChkDefrag_recipher k hp', Option.bind_map, Option.map_bind]
  congr 1
  funext r
  rcases r with ⟨_ | g, t⟩
  · rfl
  · dsimp only [Function.comp_apply]
    rw [portctrl_recipher]
    rcases t.portctrl g with ⟨_ | _, u⟩
    · rfl
    · dsimp only
      rw [processRecvIndicatepkts_recipher, Option.map_map, Option.map_map]
      congr 1
      funext r
      dsimp only [Function.comp_apply]
      rw [rtwFreeRecvframe_recipher]
      split_ifs <;> rfl

/-! ## Validation -/

theorem privacy_checkDirection (s : Adapter ι) (fr : RecvFrame) :
    (s.checkDirection fr).2.2.privacy = fr.attrib.privacy := by
  obtain ⟨dst, src, bssid, ra, ta, h⟩ := s.attrib_checkDirection fr
  rw [h]

theorem privacy_parseQos (fr : RecvFrame) : (parseQos fr).privacy = fr.attrib.privacy := by
  unfold parseQos
  dsimp only
  split_ifs <;> rfl

theorem recvDecache_onSta (k : CipherConfig) (i : StaId) (st : StaInfo) (a : RxPktAttrib) :
    recvDecache (k.onSta i st) a = (recvDecache st a).map (k.onSta i) := by
  have hseq : (k.onSta i st).tidRxseq = st.tidRxseq := rfl
  unfold recvDecache
  dsimp only
  rw [hseq]
  split_ifs <;> rfl

theorem updateSta_recipher (k : CipherConfig) (s : Adapter ι) (i : StaId) (st : StaInfo) :
    (s.recipher k).updateSta i (fun _ => k.onSta i st) =
      (s.updateSta i fun _ => st).recipher k := by
  have hsta : Function.update (fun j => k.onSta j (s.sta j)) i (k.onSta i st) = fun j =>
      k.onSta j (Function.update s.sta i st j) := by
    funext j
    by_cases hj : j = i
    · subst hj
      rw [Function.update_self, Function.update_self]
    · rw [Function.update_of_ne hj, Function.update_of_ne hj]
  simp only [updateSta, recipher, hsta]

/-- A data frame that passes `validate_recv_data_frame` without the protected bit. -/
def PlainPassed (s : Adapter ι) (f : ι) : Prop :=
  (s.recvframe f).attrib.encrypt = .noPrivacy ∧ (s.recvframe f).attrib.privacy = false

/-- `validate_recv_data_frame` on a frame without the protected bit. -/
theorem validateRecvDataFrame_recipher (k : CipherConfig) {s : Adapter ι} {f : ι}
    (hp : (s.recvframe f).attrib.privacy = false) :
    (s.recipher k).validateRecvDataFrame f =
        ((s.validateRecvDataFrame f).1, (s.validateRecvDataFrame f).2.recipher k) ∧
      ((s.validateRecvDataFrame f).1 = .success → PlainPassed (s.validateRecvDataFrame f).2 f) := by
  have hdir : (s.recipher k).checkDirection ((s.recipher k).recvframe f) =
      s.checkDirection (s.recvframe f) := rfl
  have hpriv := s.privacy_checkDirection (s.recvframe f)
  unfold validateRecvDataFrame
  rw [hdir]
  rcases hr : s.checkDirection (s.recvframe f) with ⟨ret, psta, a⟩
  rw [hr] at hpriv
  dsimp only at hpriv ⊢
  rw [updateFrame_recipher]
  generalize hs1 : (s.updateFrame f fun fr => { fr with attrib := a }) = s1
  have hs1p : (s1.recvframe f).attrib.privacy = false := by
    rw [← hs1]
    simp [hpriv, hp]
  cases ret with
  | fail => exact ⟨rfl, fun h => nomatch h⟩
  | rxHandled => exact ⟨rfl, fun h => nomatch h⟩
  | success =>
    cases psta with
    | none => exact ⟨rfl, fun h => nomatch h⟩
    | some psta =>
      dsimp only
      rw [recvframe_recipher, updateFrame_recipher]
      have hqos := privacy_parseQos (s1.recvframe f)
      generalize parseQos (s1.recvframe f) = b at hqos
      generalize hs2 : (s1.updateFrame f fun fr =>
        { fr with attrib := b, preorderCtrl := (psta, b.priority) }) = s2
      have hsta2 : (s2.recipher k).sta psta = k.onSta psta (s2.sta psta) := rfl
      rw [hsta2, recvDecache_onSta]
      cases recvDecache (s2.sta psta) b with
      | none => exact ⟨rfl, fun h => nomatch h⟩
      | some st =>
        dsimp only [Option.map_some]
        rw [updateSta_recipher]
        generalize hs3 : (s2.updateSta psta fun _ => st) = s3
        have hs3p : (s3.recvframe f).attrib.privacy = false := by
          rw [← hs3, ← hs2]
          simp [updateSta, hqos, hs1p]
        have hset : ∀ t : Adapter ι, t.setEncrypt psta (s3.recvframe f).attrib =
            { (s3.recvframe f).attrib with encrypt := .noPrivacy, ivLen := 0, icvLen := 0 } := by
          intro t
          rw [setEncrypt, if_neg (by simp [hs3p])]
        have hupd : ∀ t u : Adapter ι, t.recvframe = s3.recvframe →
            (t.updateFrame f fun fr => { fr with attrib := u.setEncrypt psta fr.attrib }) =
            t.updateFrame f fun fr =>
              { fr with attrib := { fr.attrib with encrypt := .noPrivacy, ivLen := 0, icvLen := 0 } } := by
          intro t u ht
          simp only [updateFrame, ht, hset]
        rw [hupd s3 s3 rfl, hupd (s3.recipher k) (s3.recipher k) rfl]
        refine ⟨rfl, fun _ => ⟨?_, ?_⟩⟩
        · simp
        · simpa using hs3p

/-- The frame in `f` is a data frame without the protected bit. -/
def PlainData (s : Adapter ι) (f : ι) : Prop :=
  getFrameType (s.recvframe f).mem (s.recvframe f).rxData = wifiDataType ∧
    getPrivacy (s.recvframe f).mem (s.recvframe f).rxData = false

/-- `recv_func_prehandle` on a data frame without the protected bit. -/
theorem recvFuncPrehandle_recipher (k : CipherConfig) (mgt : Adapter ι → ι → List MlmeOp)
    {s : Adapter ι} {f : ι} (hf : PlainData s f) :
    (s.recipher k).recvFuncPrehandle mgt f =
        (s.recvFuncPrehandle mgt f).map (fun r => (r.1, r.2.recipher k)) ∧
      ∀ r, s.recvFuncPrehandle mgt f = some r → r.1 = .success → PlainPassed r.2 f := by
  obtain ⟨hdata, hplain⟩ := hf
  have hmp : (s.recipher k).mpMode = s.mpMode := rfl
  unfold recvFuncPrehandle
  rw [hmp, mlmepriv_recipher, rtwFreeRecvframe_recipher]
  split_ifs with h1
  · exact ⟨rfl, fun r hr hs => by cases Option.some.inj hr; exact nomatch hs⟩
  unfold validateRecvFrame
  dsimp only
  rw [recvframe_recipher, hdata]
  split_ifs with h2 h3 h4
  · simp only [Option.map_some]
    rw [if_neg (by decide), if_neg (by decide), rtwFreeRecvframe_recipher]
    refine ⟨rfl, fun r hr hs => ?_⟩
    cases Option.some.inj hr
    exact nomatch hs
  · exact absurd h3 (by decide)
  · simp only [Option.map_some]
    rw [updateFrame_recipher, updateFrame_recipher]
    set t := (s.updateFrame f readHeader).updateFrame f fun fr =>
      { fr with attrib := { fr.attrib with qos := (getFrameSubType fr.mem fr.rxData).testBit 7 } }
      with ht
    have htp : (t.recvframe f).attrib.privacy = false := by
      simp [ht, readHeader, hplain]
    obtain ⟨heq, hpass⟩ := validateRecvDataFrame_recipher k htp
    rw [heq]
    dsimp only
    rw [rtwFreeRecvframe_recipher]
    refine ⟨?_, fun r hr hs => ?_⟩
    · split_ifs <;> rfl
    · have hr' := Option.some.inj hr
      split_ifs at hr' with hok
      · rw [← hr']
        exact hpass hok
      · rw [← hr'] at hs
        exact absurd hs hok
  · exact absurd rfl h4

/-- For every data frame without the protected bit, the ciphers and keys of the network and
of its stations make no difference : the receive path hands up the same packets and leaves
the same state as with any other choice of them, for one the choice without a cipher. Only
the authentication algorithm and the ports of the stations count. -/
theorem recvFuncFrame_recipher (k : CipherConfig) (mgt : Adapter ι → ι → List MlmeOp)
    (s : Adapter ι) (f : ι) (hf : PlainData s f) :
    (s.recipher k).recvFuncFrame mgt f = (s.recvFuncFrame mgt f).map (recipher k) := by
  obtain ⟨heq, hpass⟩ := recvFuncPrehandle_recipher k mgt hf
  unfold recvFuncFrame
  rw [heq, Option.bind_map, Option.map_bind]
  cases hr : s.recvFuncPrehandle mgt f with
  | none => rfl
  | some r =>
    rw [Option.bind_some, Option.bind_some]
    dsimp only [Function.comp_apply]
    by_cases hok : r.1 = .success
    · rw [if_pos hok, if_pos hok]
      obtain ⟨henc, hpriv⟩ := hpass r hr hok
      -- a frame without encryption does not wait for a key
      have hkey : ∀ t : Adapter ι, t.lacksKey (r.2.recvframe f).attrib = false := by
        intro t
        simp [lacksKey, henc]
      rw [recvframe_recipher, hkey, hkey, if_neg (by decide), if_neg (by decide)]
      exact recvFuncPosthandle_recipher k henc hpriv
    · rw [if_neg hok, if_neg hok]
      rfl

/-- A driver in an ad-hoc network with AES as the cipher for its peer and for groups. The
port of the peer is open. The frame 0 of the pool is a data frame of the peer without the
protected bit. -/
def sampleAes : Adapter RecvId :=
  let s := (sampleDriver.rtwAllocStainfo sampleTa).2
  { s with
    securitypriv := { s.securitypriv with
      dot11AuthAlgrthm := .ieee8021X
      dot11PrivacyAlgrthm := .aes
      dot118021XGrpPrivacy := .aes }
    sta := fun k => { s.sta k with dot118021XPrivacy := .aes }
    recvframe := fun _ => sampleDataFragment 0 0x10 }

/-- No ciphers and no keys. -/
def openCiphers : CipherConfig where
  securitypriv := initSecurityPriv
  dot118021XPrivacy := fun _ => .noPrivacy
  dot118021xUncstKey := fun _ => zeroKey
  dot11tkiprxmickey := fun _ => zeroKey

theorem plainData_sampleAes : PlainData sampleAes 0 := ⟨by decide +kernel, by decide +kernel⟩

theorem recvFuncFrame_recipher_sample :
    (sampleAes.recipher openCiphers).recvFuncFrame (fun _ _ => []) 0 =
      (sampleAes.recvFuncFrame (fun _ _ => []) 0).map (recipher openCiphers) :=
  recvFuncFrame_recipher openCiphers (fun _ _ => []) sampleAes 0 plainData_sampleAes

/-- A data frame without protection reaches the network stack in a network whose cipher is
AES, and it is no EAPOL packet. -/
theorem not_unprotected_refused : PlainData sampleAes 0 ∧
    (sampleAes.rtwGetStainfo sampleTa).map (fun k => sampleAes.getEncryAlgo k false) = some .aes ∧
    sampleAes.portBlocked sampleTa = false ∧ sampleAes.indications = [] ∧
    ∃ t, sampleAes.recvFuncFrame (fun _ _ => []) 0 = some t ∧
      ∃ i ∈ t.indications, i.sink = .stack ∧ i.ta = sampleTa ∧ ¬ IsEapol i.bytes := by
  have hind : (sampleAes.recvFuncFrame (fun _ _ => []) 0).any (fun t =>
      t.indications.any fun i => i.sink = .stack ∧ i.ta = sampleTa ∧ ¬ IsEapol i.bytes) = true := by
    decide +kernel
  obtain ⟨t, ht, hi⟩ := (Option.any_eq_true _ _).mp hind
  obtain ⟨i, hi, hbad⟩ := List.any_eq_true.mp hi
  exact ⟨plainData_sampleAes, by decide +kernel, by decide +kernel, by decide +kernel, t, ht, i, hi,
    of_decide_eq_true hbad⟩

end Adapter

end Rtl8188eu
