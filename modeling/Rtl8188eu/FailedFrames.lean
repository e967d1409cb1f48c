import Rtl8188eu.AggregateLayout

/-!
# Frames that could not be built

There are two ways for a data frame to the device. `pre_xmitframe` builds one frame and gives it to
`rtw_dump_xframe`, or puts it into the queue of its station ; `rtl8188eu_xmitframe_complete` builds
the frames of a queue into one transfer. The first way looks at what `rtw_xmitframe_coalesce`
returns, the second does not : a frame that could not be built is in the transfer all the same
(`UsbTx.dropsFailures_iff`).
-/

set_option linter.unusedSectionVars false

namespace Rtl8188eu

namespace UsbTx

variable {ι φ : Type} [DecidableEq φ]

/-! ## The functions of the source -/

/-- A fragment is written. -/
def dumpWrite (s : UsbTx ι φ) (f : φ) (w : PortWrite) : UsbTx ι φ :=
  s.event (.write ⟨w.bufAddr, w.wSz, [⟨f, w.bufAddr, (w.sz % 65536).toNat, w.pktOffset, (s.frame f).aggNum⟩]⟩)

/-- `rtw_dump_xframe`. -/
def rtwDumpXframe (s : UsbTx ι φ) (busy : Bool) (f : φ) : UsbTx ι φ :=
  let s := s.addbareq busy f
  let x := s.frame f
  let writes := s.cfg.dumpLoop x.attrib.tx x.attrib.lastTxcmdsz x.attrib.nrFrags x.bufAddr x.bufAddr x.pktOffset
  (writes.foldl (fun s w => s.dumpWrite f w) s).rtwFreeXmitframe f

/-- `xmitframe_direct`. -/
def xmitframeDirect (s : UsbTx ι φ) (busy : Bool) (f : φ) : Option (Status × UsbTx ι φ) :=
  (s.coalesce f).map fun (res, s) => (res, if res = .success then s.rtwDumpXframe busy f else s)

/-- `rtw_xmit_classifier`. -/
def rtwXmitClassifier (s : UsbTx ι φ) (f : φ) : Status × UsbTx ι φ :=
  let a := (s.frame f).attrib
  match s.adapter.frameSta a.toHdrAttrib with
  | none => (.fail, s)
  | some k =>
    let q := rtwGetStaPending a.priority
    (.success, { s with
      staQueue := Function.update s.staQueue q (if k ∈ s.staQueue q then s.staQueue q else s.staQueue q ++ [k])
      pending := Function.update s.pending k (Function.update (s.pending k) q (s.pending k q ++ [f]))
      qcnt := Function.update s.qcnt k (Function.update (s.qcnt k) q (s.qcnt k q + 1))
      accnt := Function.update s.accnt q (s.accnt q + 1) })

/-- `rtw_xmitframe_enqueue`. -/
def rtwXmitframeEnqueue (s : UsbTx ι φ) (f : φ) : Status × UsbTx ι φ := s.rtwXmitClassifier f

/-- `rtw_txframes_sta_ac_pending`, for a frame with a station. -/
def rtwTxframesStaAcPending (s : UsbTx ι φ) (k : StaId) (f : φ) : ℤ :=
  s.qcnt k (rtwGetStaPending (s.frame f).attrib.priority)

/-- `pre_xmitframe`, with the address of a buffer, if there is one. -/
def preXmitframe (s : UsbTx ι φ) (busy : Bool) (f : φ) (pxmitbuf : Option ℤ) : Option (Bool × UsbTx ι φ) :=
  (s.frame f).attrib.psta.bind fun k =>
    let wait := s.rtwTxframesStaAcPending k f > 0 ∨
      checkFwstate s.adapter.mlmepriv.fwState (fwUnderSurvey ||| fwUnderLinking)
    match if wait then none else pxmitbuf with
    | some base =>
      ((s.updateFrame f fun x => { x with bufAddr := base }).xmitframeDirect busy f).map fun (res, s) =>
        (true, if res = .success then s else (s.event .freeBuf).rtwFreeXmitframe f)
    | none =>
      let (res, s) := s.rtwXmitframeEnqueue f
      some (if res = .success then (false, s) else (true, s.rtwFreeXmitframe f))

end UsbTx

/-! ## The two paths -/

/-- A call of one of the two functions. -/
inductive XmitCall (φ : Type) where
  | pre (busy : Bool) (f : φ) (pxmitbuf : Option ℤ)
  | complete (inx : List AcQueue) (busy : Bool) (pxmitbuf : Option ℤ)

/-- The event gives the frame back. -/
def TxEvent.freesFrame {φ : Type} [DecidableEq φ] (f : φ) : TxEvent φ → Bool
  | .freeFrame g => g = f
  | _ => false

/-- The event gives the packet of the frame back. -/
def TxEvent.freesPkt {φ : Type} [DecidableEq φ] (f : φ) : TxEvent φ → Bool
  | .freePkt g => g = f
  | _ => false

namespace UsbTx

variable {ι φ : Type} [DecidableEq ι] [DecidableEq φ]
variable {base : ℤ} {k : StaId} {q : AcQueue} {f first : φ} {rest fs : List φ} {s s' : UsbTx ι φ}
  {b : Bool}

/-- The call of a function. -/
def call (s : UsbTx ι φ) : XmitCall φ → Option (Bool × UsbTx ι φ)
  | .pre busy f pxmitbuf => s.preXmitframe busy f pxmitbuf
  | .complete inx busy pxmitbuf => s.rtl8188euXmitframeComplete inx busy pxmitbuf

/-- The frames that are put into one transfer with others. -/
inductive Aggregates (s : UsbTx ι φ) : XmitCall φ → List φ → Prop
  | pre (busy : Bool) (f : φ) (pxmitbuf : Option ℤ) : Aggregates s (.pre busy f pxmitbuf) []
  | noBuf (inx : List AcQueue) (busy : Bool) : Aggregates s (.complete inx busy none) []
  | noFrame {inx : List AcQueue} (busy : Bool) (base : ℤ) (h : s.rtwDequeueXframe inx = none) :
      Aggregates s (.complete inx busy (some base)) []
  | queue {inx : List AcQueue} {k : StaId} {q : AcQueue} {first : φ} {rest : List φ} (busy : Bool) (base : ℤ)
      (h : s.NextQueue inx k q first rest) :
      Aggregates s (.complete inx busy (some base)) (first :: s.taken first rest)

/-- A frame that could not be built is in no transfer, and it is given back once, and its packet, if
it has one. The other frames are sent. -/
def FailuresDropped (s : UsbTx ι φ) (es : List (TxEvent φ)) : Prop :=
  ∀ f, .coalesce f .fail ∈ es →
    (∀ w, .write w ∈ es → f ∉ w.descs.map TxDesc.frame) ∧ es.countP (TxEvent.freesFrame f) = 1 ∧
      es.countP (TxEvent.freesPkt f) = (if (s.frame f).pkt.isSome then 1 else 0) ∧
      ∀ g, .coalesce g .success ∈ es → ∃ w, .write w ∈ es ∧ g ∈ w.descs.map TxDesc.frame

/-- The log of a call, if no frame fails. -/
theorem failuresDropped_of_forall {es : List (TxEvent φ)} (h : ∀ f, .coalesce f .fail ∉ es) :
    s.FailuresDropped es :=
  fun f hf => absurd hf (h f)

/-- The fragments are written. -/
theorem log_dumpWrites (f : φ) : ∀ (ws : List PortWrite) (s : UsbTx ι φ),
    ∃ es, (ws.foldl (fun s w => s.dumpWrite f w) s).log = s.log ++ es ∧
      ∀ g status, .coalesce g status ∉ es
  | [], s => ⟨[], (List.append_nil _).symm, fun _ _ => List.not_mem_nil⟩
  | w :: ws, s => by
    obtain ⟨es, hlog, hes⟩ := log_dumpWrites f ws (s.dumpWrite f w)
    refine ⟨.write ⟨w.bufAddr, w.wSz,
      [⟨f, w.bufAddr, (w.sz % 65536).toNat, w.pktOffset, (s.frame f).aggNum⟩]⟩ :: es,
      ?_, fun g status hmem => ?_⟩
    · refine hlog.trans ?_
      change s.log ++ [_] ++ es = _
      rw [List.append_assoc]
      rfl
    · rcases List.mem_cons.mp hmem with heq | hmem
      · cases heq
      · exact hes g status hmem

/-- A frame is given back. -/
theorem log_freeXmitframe (s : UsbTx ι φ) (f : φ) :
    ∃ es, (s.rtwFreeXmitframe f).log = s.log ++ es ∧ ∀ g status, .coalesce g status ∉ es := by
  refine ⟨_, s.log_rtwFreeXmitframe f, fun g status hmem => ?_⟩
  rcases List.mem_cons.mp hmem with heq | hmem
  · cases heq
  · split_ifs at hmem
    · cases List.mem_singleton.mp hmem
    · exact List.not_mem_nil hmem

/-- `rtw_dump_xframe` builds no frame. -/
theorem log_rtwDumpXframe (s : UsbTx ι φ) (busy : Bool) (f : φ) :
    ∃ es, (s.rtwDumpXframe busy f).log = s.log ++ es ∧ ∀ g status, .coalesce g status ∉ es := by
  obtain ⟨-, -, hlog⟩ := s.addbareq_same busy f
  unfold rtwDumpXframe
  dsimp only
  generalize (s.addbareq busy f).cfg.dumpLoop _ _ _ _ _ _ = writes
  obtain ⟨es, hes, hnone⟩ := log_dumpWrites f writes (s.addbareq busy f)
  obtain ⟨es', hes', hnone'⟩ :=
    log_freeXmitframe (writes.foldl (fun s w => s.dumpWrite f w) (s.addbareq busy f)) f
  refine ⟨es ++ es', ?_, fun g status hmem => ?_⟩
  · rw [hes', hes, hlog, List.append_assoc]
  · exact (List.mem_append.mp hmem).elim (hnone g status) (hnone' g status)

/-- The frame goes into a queue, or nothing happens. -/
theorem log_rtwXmitframeEnqueue (s : UsbTx ι φ) (f : φ) :
    (s.rtwXmitframeEnqueue f).2.log = s.log := by
  unfold rtwXmitframeEnqueue rtwXmitClassifier
  dsimp only
  split <;> rfl

/-- `pre_xmitframe` drops the frame if it could not be built. -/
theorem failuresDropped_pre {busy : Bool} {pxmitbuf : Option ℤ}
    (h : s.preXmitframe busy f pxmitbuf = some (b, s')) :
    ∃ es, s'.log = s.log ++ es ∧ s.FailuresDropped es := by
  obtain ⟨k, -, h⟩ := Option.bind_eq_some_iff.mp h
  dsimp only at h
  split at h
  · -- the frame is built at once
    obtain ⟨⟨res, t⟩, hdirect, heq⟩ := Option.map_eq_some_iff.mp h
    obtain ⟨⟨status, u⟩, hco, heq'⟩ := Option.map_eq_some_iff.mp hdirect
    obtain ⟨-, -, -, hpkt, -, hlog, hcases⟩ := usbCoalesce_spec hco
    rw [frame_updateFrame, Function.update_self] at hpkt
    change u.log = s.log ++ _ at hlog
    cases heq'
    cases heq
    rcases hcases with ⟨-, rfl⟩ | ⟨-, rfl⟩
    · obtain ⟨es, hes, hnone⟩ := u.log_rtwDumpXframe busy f
      refine ⟨.coalesce f .success :: es, ?_, failuresDropped_of_forall fun g hg => ?_⟩
      · change (u.rtwDumpXframe busy f).log = _
        rw [hes, hlog, List.append_assoc]
        rfl
      · rcases List.mem_cons.mp hg with heq | hg
        · cases heq
        · exact hnone g .fail hg
    · refine ⟨[.coalesce f .fail, .freeBuf, .freeFrame f] ++
        if (s.frame f).pkt.isSome then [.freePkt f] else [],
        ?_, fun g hg => ?_⟩
      · change ((u.event .freeBuf).rtwFreeXmitframe f).log = _
        rw [log_rtwFreeXmitframe, frame_event, hpkt]
        change u.log ++ [_] ++ _ = _
        rw [hlog, List.append_assoc, List.append_assoc]
        rfl
      · obtain rfl : g = f := by
          split_ifs at hg <;> simpa using hg
        refine ⟨fun w hw => ?_, ?_, ?_, fun g' hg' => ?_⟩
        · split_ifs at hw <;> simp at hw
        · split_ifs <;> simp [TxEvent.freesFrame]
        · split_ifs <;> simp [TxEvent.freesPkt]
        · split_ifs at hg' <;> simp at hg'
  · -- the frame goes into the queue, or is given back
    have hlog := s.log_rtwXmitframeEnqueue f
    split_ifs at h with hres
    · cases h
      exact ⟨[], by rw [hlog, List.append_nil], failuresDropped_of_forall fun _ => List.not_mem_nil⟩
    · cases h
      obtain ⟨es, hes, hnone⟩ := log_freeXmitframe (s.rtwXmitframeEnqueue f).2 f
      exact ⟨es, by rw [hes, hlog], failuresDropped_of_forall fun g => hnone g .fail⟩

/-- The status is the one that `rtw_xmitframe_coalesce` returns. -/
theorem builtStatus_eq_fail : s.builtStatus f = .fail ↔ ¬s.adapter.Buildable (s.frame f) := by
  unfold builtStatus
  split_ifs with h
  · exact iff_of_false (fun hc => nomatch hc) fun hn => hn h
  · exact iff_of_true rfl h

/-- The frames of a transfer are dropped as they should be if there is nothing to be dropped. -/
theorem Transferred.failuresDropped_iff {w : UsbWrite φ} (h : s.Transferred base first rest s' w) :
    ∃ es, s'.log = s.log ++ es ∧
      (s.FailuresDropped es ↔ ∀ f ∈ first :: s.taken first rest, s.adapter.Buildable
      (s.frame f)) := by
  refine ⟨_, by rw [h.log, List.append_assoc, List.append_assoc], ?_⟩
  constructor
  · intro hall f hf
    by_contra hno
    have hfail := builtStatus_eq_fail.mpr hno
    refine (hall f ?_).1 w (by simp) ?_
    · rcases List.mem_cons.mp hf with rfl | hf
      · simp [hfail]
      · refine List.mem_append_right _ (List.mem_append_left _ (List.mem_flatMap.mpr ⟨f, hf, ?_⟩))
        rw [hfail]
        exact List.mem_cons_self
    · rw [h.frames]
      exact hf
  · intro hall
    refine failuresDropped_of_forall fun f hf => ?_
    have hbuilt : f ∈ first :: s.taken first rest ∧ s.builtStatus f = .fail := by
      simp only [List.cons_append, List.mem_cons, List.mem_append, List.mem_flatMap] at hf
      rcases hf with heq | hf | ⟨g, hg, hf⟩ | heq | heq | hf
      · obtain ⟨rfl, hst⟩ := TxEvent.coalesce.inj heq
        exact ⟨List.mem_cons_self, hst.symm⟩
      · split_ifs at hf
        · cases List.mem_singleton.mp hf
        · exact absurd hf List.not_mem_nil
      · rcases List.mem_cons.mp hf with heq | hf
        · obtain ⟨rfl, hst⟩ := TxEvent.coalesce.inj heq
          exact ⟨List.mem_cons_of_mem _ hg, hst.symm⟩
        · rcases List.mem_append.mp hf with hf | hf
          · split_ifs at hf
            · cases List.mem_singleton.mp hf
            · exact absurd hf List.not_mem_nil
          · cases List.mem_singleton.mp hf
      · cases heq
      · cases heq
      · exact absurd hf List.not_mem_nil
    exact builtStatus_eq_fail.mp hbuilt.2 (hall f hbuilt.1)

/-- A call drops the frames that could not be built, and sends the others. -/
def DropsFailures (s : UsbTx ι φ) (c : XmitCall φ) : Prop :=
  ∀ b s', s.call c = some (b, s') → ∃ es, s'.log = s.log ++ es ∧ s.FailuresDropped es

/-- Frames that could not be built are dropped if there are none of them in an aggregate. -/
theorem dropsFailures_iff {c : XmitCall φ} (hc : s.Aggregates c fs) (hrun : ∃ r, s.call c = some r) :
    s.DropsFailures c ↔ ∀ f ∈ fs, s.adapter.Buildable (s.frame f) := by
  have hnone : ∀ t : UsbTx ι φ, t.log = s.log → ∃ es, t.log = s.log ++ es ∧ s.FailuresDropped es :=
    fun t ht =>
    ⟨[], by rw [ht, List.append_nil], failuresDropped_of_forall fun _ => List.not_mem_nil⟩
  cases hc with
  | pre busy f pxmitbuf =>
    exact iff_of_true (fun b s' h => failuresDropped_pre h) fun _ hf => absurd hf List.not_mem_nil
  | noBuf inx busy =>
    refine iff_of_true (fun b s' h => ?_) fun _ hf => absurd hf List.not_mem_nil
    cases h
    exact hnone s rfl
  | noFrame busy base hempty =>
    refine iff_of_true (fun b s' h => ?_) fun _ hf => absurd hf List.not_mem_nil
    unfold call rtl8188euXmitframeComplete at h
    dsimp only at h
    rw [hempty] at h
    cases h
    exact ⟨[.freeBuf], rfl, failuresDropped_of_forall fun f hf => by simp at hf⟩
  | queue busy base hq =>
    obtain ⟨⟨b, s'⟩, hrun⟩ := hrun
    obtain ⟨-, w, hw⟩ := complete_spec hq hrun
    obtain ⟨es, hes, hiff⟩ := hw.failuresDropped_iff
    refine Iff.trans ⟨fun hdrop => ?_, fun hdrop b' t ht => ?_⟩ hiff
    · obtain ⟨es', hes', hdrop'⟩ := hdrop b s' hrun
      rwa [List.append_cancel_left (hes.symm.trans hes')]
    · obtain rfl : s' = t := congrArg Prod.snd (Option.some.inj (hrun.symm.trans ht))
      exact ⟨es, hes, hdrop⟩

end UsbTx

/-- A frame with TKIP to the access point. There is no MIC key. -/
def sampleTkipFrame : DataFrame :=
  let x := sampleDataFrame 16 (by decide)
  { x with attrib := { x.attrib with encrypt := .tkip }, pktlen_eq := x.pktlen_eq }

/-- The frame with TKIP is the second of three frames. -/
def sampleTkipQueue : UsbTx (Fin 256) (Fin 7) where
  cfg := sampleQueue.cfg
  adapter := aggClient
  mem := fun _ => 0
  frame := fun f => if f = 1 then sampleTkipFrame else sampleDataFrame 16 (by decide)
  pending := fun k q => if k = 1 ∧ q = .be then [0, 1, 2] else []
  qcnt := fun k q => if k = 1 ∧ q = .be then 3 else 0
  staQueue := fun q => if q = .be then [1] else []
  accnt := fun q => if q = .be then 3 else 0
  log := []

namespace UsbTx

theorem nextQueue_sampleTkipQueue : sampleTkipQueue.NextQueue [.vo, .vi, .be, .bk] 1 .be 0 [1, 2] :=
  ⟨rfl, rfl, rfl, rfl, by decide⟩

theorem unfragmented_sampleTkipFrame : sampleTkipFrame.Unfragmented 2346 := by
  refine Or.inr fun pkt hp => ?_
  cases hp
  have hlen : (sampleTkipFrame.buf ⟨List.replicate 16 0, by decide⟩).mpduLen 2346
      (rtwPutSnap sampleTkipFrame.attrib.etherType) = 2302 := by
    unfold XmitFrameBuf.mpduLen
    rw [length_rtwPutSnap]
    rfl
  rw [hlen]
  decide

theorem prepared_sampleTkipQueue (f : Fin 7) : sampleTkipQueue.Prepared f := by
  by_cases hf : f = 1
  · subst hf
    exact ⟨unfragmented_sampleTkipFrame, Option.some_ne_none _⟩
  · have hframe : sampleTkipQueue.frame f = sampleDataFrame 16 (by decide) := if_neg hf
    refine ⟨?_, ?_⟩
    · rw [hframe]
      exact unfragmented_sampleDataFrame (by decide)
    · rw [hframe]
      exact Option.some_ne_none _

theorem not_buildable_sampleTkipQueue :
    ¬sampleTkipQueue.adapter.Buildable (sampleTkipQueue.frame 1) := fun hb =>
  hb.micKey rfl 1 rfl rfl

theorem exists_run_sampleTkipQueue :
    ∃ s', sampleTkipQueue.rtl8188euXmitframeComplete [.vo, .vi, .be, .bk] false (some 0) =
      some (true, s') :=
  exists_complete nextQueue_sampleTkipQueue fun f _ => prepared_sampleTkipQueue f

/-- The frame without a MIC key is in the transfer. -/
theorem not_dropsFailures_sampleTkipQueue :
    ¬∀ (s : UsbTx (Fin 256) (Fin 7)) (c : XmitCall (Fin 7)) (fs : List (Fin 7)), s.Aggregates c fs →
      (∃ r, s.call c = some r) → s.DropsFailures c := by
  intro hall
  obtain ⟨s', hrun⟩ := exists_run_sampleTkipQueue
  obtain ⟨-, w, hw⟩ := complete_spec nextQueue_sampleTkipQueue hrun
  obtain ⟨es, hes, hiff⟩ := hw.failuresDropped_iff
  obtain ⟨es', hes', hdrop⟩ :=
    hall sampleTkipQueue _ _ (.queue false 0 nextQueue_sampleTkipQueue) ⟨_, hrun⟩ true s' hrun
  rw [List.append_cancel_left (hes'.symm.trans hes)] at hdrop
  exact not_buildable_sampleTkipQueue (hiff.mp hdrop 1 (by decide))

/-- The frames of the queue. -/
theorem dropsFailures_iff_sampleTkipQueue :
    sampleTkipQueue.DropsFailures (.complete [.vo, .vi, .be, .bk] false (some 0)) ↔
      ∀ f ∈ 0 :: sampleTkipQueue.taken 0 [1, 2], sampleTkipQueue.adapter.Buildable (sampleTkipQueue.frame f) := by
  obtain ⟨s', hrun⟩ := exists_run_sampleTkipQueue
  exact dropsFailures_iff (.queue false 0 nextQueue_sampleTkipQueue) ⟨_, hrun⟩

end UsbTx

end Rtl8188eu
