import Rtl8188eu.ApRun

/-!
# The queues of sleeping stations

The frames for a sleeping station wait in `sleep_q`. `sleepq_len` counts them all, and
`sleepq_ac_len` those of the delivery-enabled categories of the station. The functions that put
frames into the queue and take them out are the events of a machine of their own (`sleepStep`),
in any order and for any station.

The two counters are right, and with them the more-data bits of what is sent, as long as no
PS-Poll takes out a frame of a delivery-enabled category and no re-association makes frames that
wait change their category (`sleepQueues_run`).
-/

set_option linter.unusedSectionVars false

namespace Rtl8188eu

open LiteralIndex

open Runs

namespace ApSta

variable {st : ApSta}

/-- The category of the frame is delivery-enabled for the station. -/
def enabled (st : ApSta) (f : XmitFrame) : Bool := st.wmmpsAc f.priority 0

/-- The settings of U-APSD. -/
def uapsd (st : ApSta) : UInt8 × UInt8 × UInt8 × UInt8 :=
  (st.uapsdVo, st.uapsdVi, st.uapsdBe, st.uapsdBk)

theorem wmmpsAc_congr {st' : ApSta} (h : st'.uapsd = st.uapsd) (p i : ℕ) :
    st'.wmmpsAc p i = st.wmmpsAc p i := by
  simp only [uapsd, Prod.mk.injEq] at h
  obtain ⟨hvo, hvi, hbe, hbk⟩ := h
  simp only [wmmpsAc, hvo, hvi, hbe, hbk]

theorem enabled_congr {st' : ApSta} (h : st'.uapsd = st.uapsd) (f : XmitFrame) :
    st'.enabled f = st.enabled f := wmmpsAc_congr h _ _

/-- The counters count the queue, and both bits of the settings are the same. -/
structure QueueOk (st : ApSta) : Prop where
  len : st.sleepqLen = st.sleepQ.length
  acLen : st.sleepqAcLen = st.sleepQ.countP st.enabled
  bits : ∀ p, st.wmmpsAc p 1 = st.wmmpsAc p 0

/-- The queue and its counters stay. -/
theorem QueueOk.congr {st' : ApSta} (h : QueueOk st) (hu : st'.uapsd = st.uapsd)
    (hq : st'.sleepQ = st.sleepQ) (hlen : st'.sleepqLen = st.sleepqLen)
    (hac : st'.sleepqAcLen = st.sleepqAcLen) : QueueOk st' := by
  refine ⟨by rw [hlen, hq, h.len], ?_, fun p => ?_⟩
  · rw [hac, hq, h.acLen, funext (enabled_congr hu)]
  · rw [wmmpsAc_congr hu, wmmpsAc_congr hu, h.bits]

/-! ## Frames come and go -/

/-- A frame is put into the queue. -/
theorem QueueOk.push (h : QueueOk st) (f : XmitFrame) :
    QueueOk { st with
      sleepQ := st.sleepQ ++ [f], sleepqLen := st.sleepqLen + 1
      sleepqAcLen := if st.wmmpsAc f.priority 0 then st.sleepqAcLen + 1 else st.sleepqAcLen } := by
  have hen : ∀ g, ApSta.enabled { st with
      sleepQ := st.sleepQ ++ [f], sleepqLen := st.sleepqLen + 1
      sleepqAcLen := if st.wmmpsAc f.priority 0 then st.sleepqAcLen + 1 else st.sleepqAcLen } g
        = st.enabled g := fun g => rfl
  refine ⟨?_, ?_, h.bits⟩
  · rw [List.length_append, List.length_singleton, h.len]
  · rw [funext hen, List.countP_append, List.countP_singleton, h.acLen]
    change (if st.enabled f then _ else _) = _
    split
    · rfl
    · rfl

/-- A group frame is put into the queue, without a look at its category. -/
theorem QueueOk.pushGroup (h : QueueOk st) {f : XmitFrame} (hf : st.enabled f = false) :
    QueueOk { st with sleepQ := st.sleepQ ++ [f], sleepqLen := st.sleepqLen + 1 } := by
  have hp := h.push f
  have hoff : st.wmmpsAc f.priority 0 = false := hf
  simpa only [hoff, Bool.false_eq_true, if_false] using hp

/-- One frame leaves, and the counters go on. -/
theorem sent_step {f : XmitFrame} {fs : List XmitFrame} {n m : ℕ}
    (hbits : ∀ p, st.wmmpsAc p 1 = st.wmmpsAc p 0) (hlen : st.sleepqLen = (f :: fs).length + n)
    (hac : st.sleepqAcLen = (f :: fs).countP st.enabled + m) :
    (st.sent f).sleepqLen = fs.length + n ∧ (st.sent f).enabled = st.enabled ∧
      (st.sent f).sleepqAcLen = fs.countP st.enabled + m := by
  refine ⟨by simp [sent, decU32, hlen], funext fun g => enabled_congr rfl g, ?_⟩
  rw [List.countP_cons] at hac
  simp only [sent, hbits]
  change (if st.enabled f then _ else _) = _
  cases hf : st.enabled f with
  | true =>
    simp only [hf, if_true] at hac ⊢
    rw [hac, decU32, if_neg (by omega)]
    omega
  | false =>
    simp only [hf, Bool.false_eq_true, if_false] at hac ⊢
    omega

/-- Frames are taken out, one after the other. -/
theorem sent_counts (fs : List XmitFrame) : ∀ (st : ApSta) (n m : ℕ),
    (∀ p, st.wmmpsAc p 1 = st.wmmpsAc p 0) → st.sleepqLen = fs.length + n →
    st.sleepqAcLen = fs.countP st.enabled + m →
    (fs.foldl sent st).sleepqLen = n ∧ (fs.foldl sent st).sleepqAcLen = m ∧
      (fs.foldl sent st).uapsd = st.uapsd ∧ (fs.foldl sent st).pending = st.pending := by
  induction fs with
  | nil =>
    intro st n m _ hlen hac
    exact ⟨by simpa using hlen, by simpa using hac, rfl, rfl⟩
  | cons f fs ih =>
    intro st n m hbits hlen hac
    obtain ⟨hlen', hen, hac'⟩ := sent_step hbits hlen hac
    exact ih (st.sent f) n m hbits hlen' (by rw [hen]; exact hac')

theorem QueueOk.flush (h : QueueOk st) : QueueOk st.flush ∧ st.flush.uapsd = st.uapsd ∧
    st.flush.pending = st.pending := by
  obtain ⟨hlen, hac, hu, hp⟩ := sent_counts st.sleepQ st 0 0 h.bits h.len h.acLen
  refine ⟨⟨hlen, hac, fun p => ?_⟩, hu, hp⟩
  have hu' : st.flush.uapsd = st.uapsd := hu
  rw [wmmpsAc_congr hu', wmmpsAc_congr hu', h.bits]

/-- The queue of the broadcast station is emptied. -/
theorem QueueOk.flushGroup (h : QueueOk st) (hoff : ∀ p, st.wmmpsAc p 0 = false) :
    QueueOk st.flushGroup := by
  have hac : st.sleepqAcLen = 0 := by
    rw [h.acLen, List.countP_eq_zero]
    intro f _
    simp [enabled, hoff]
  refine ⟨?_, hac, h.bits⟩
  have h0 := Ap.foldl_decU32 st.sleepQ 0
  rw [Nat.add_zero, ← h.len] at h0
  exact h0

/-- The frames of the delivery-enabled categories are taken out, and the others stay. -/
theorem deliverLoop_counts : ∀ (fs : List XmitFrame) (st : ApSta) (n m : ℕ),
    (∀ p, st.wmmpsAc p 1 = st.wmmpsAc p 0) → st.sleepqLen = fs.length + n →
    st.sleepqAcLen = fs.countP st.enabled + m →
    (deliverLoop fs st).1 = fs.filter (fun f => !st.enabled f) ∧
      (deliverLoop fs st).2.1.sleepqLen = (deliverLoop fs st).1.length + n ∧
      (deliverLoop fs st).2.1.sleepqAcLen = m ∧ (deliverLoop fs st).2.1.uapsd = st.uapsd ∧
      (deliverLoop fs st).2.1.pending = st.pending
  | [], st, n, m, _, hlen, hac => by
    exact ⟨rfl, hlen, by simpa [deliverLoop] using hac, rfl, rfl⟩
  | f :: fs, st, n, m, hbits, hlen, hac => by
    rw [deliverLoop, hbits]
    cases hf : st.enabled f with
    | true =>
      have hf' : st.wmmpsAc f.priority 0 = true := hf
      obtain ⟨hlen', hen, hac'⟩ := sent_step hbits hlen hac
      obtain ⟨h₁, h₂, h₃, h₄, h₅⟩ :=
        deliverLoop_counts fs (st.sent f) n m hbits hlen' (by rw [hen]; exact hac')
      rw [if_pos hf', List.filter_cons_of_neg (by simp [hf])]
      exact ⟨by rw [h₁, hen], h₂, h₃, h₄, h₅⟩
    | false =>
      have hf' : ¬ st.wmmpsAc f.priority 0 = true := by
        rw [show st.wmmpsAc f.priority 0 = false from hf]
        simp
      have hlen' : st.sleepqLen = fs.length + (n + 1) := by
        rw [hlen, List.length_cons]
        omega
      have hac' : st.sleepqAcLen = fs.countP st.enabled + m := by
        rw [hac, List.countP_cons_of_neg (by simp [hf])]
      obtain ⟨h₁, h₂, h₃, h₄, h₅⟩ := deliverLoop_counts fs st (n + 1) m hbits hlen' hac'
      rw [if_neg hf', List.filter_cons_of_pos (by simp [hf])]
      dsimp only
      refine ⟨by rw [h₁], ?_, h₃, h₄, h₅⟩
      rw [h₂, List.length_cons]
      omega

/-! ## The more-data bit -/

/-- A frame that leaves the queue : its more-data bit, whether frames of the service period come
behind it, and whether a counter was zero before it was decremented. -/
structure Departure where
  mdata : Bool
  more : Bool
  wraps : Bool
  deriving DecidableEq

/-- The frames in the loop of `wakeup_sta_to_xmit`. -/
def flushed : List XmitFrame → ApSta → List Departure
  | [], _ => []
  | f :: fs, st =>
    let st' := st.sent f
    let ac := st.wmmpsAc f.priority 1
    ⟨if ac then 0 < st'.sleepqAcLen else 0 < st'.sleepqLen, !fs.isEmpty,
      st.sleepqLen == 0 || (ac && st.sleepqAcLen == 0)⟩ :: flushed fs st'

/-- The frames in the loops over the queue of the broadcast station, from its length. -/
def groupFlushed : List XmitFrame → ℕ → List Departure
  | [], _ => []
  | _ :: fs, n => ⟨0 < decU32 n, !fs.isEmpty, n == 0⟩ :: groupFlushed fs (decU32 n)

/-- The frames in the loop of `xmit_delivery_enabled_frames`. -/
def delivered : List XmitFrame → ApSta → List Departure
  | [], _ => []
  | f :: fs, st =>
    if st.wmmpsAc f.priority 1 then
      let st' := st.sent f
      ⟨0 < st'.sleepqAcLen, fs.any fun g => st.wmmpsAc g.priority 1,
        st.sleepqLen == 0 || st.sleepqAcLen == 0⟩ :: delivered fs st'
    else delivered fs st

/-- The more-data bit is clear on the last frame of the service period and on no other, and no
counter wraps. -/
def Departure.right (d : Departure) : Bool := d.mdata == d.more && !d.wraps

/-- No frame of a delivery-enabled category is waiting, or the last one in the queue is of such
a category. -/
def LastEnabled (st : ApSta) (fs : List XmitFrame) : Prop :=
  ∀ f ∈ fs, st.enabled f = true → ∀ g ∈ fs.getLast?, st.enabled g = true

theorem LastEnabled.tail {f : XmitFrame} {fs : List XmitFrame} (h : LastEnabled st (f :: fs)) :
    LastEnabled st fs := by
  intro g hg hen x hx
  refine h g (List.mem_cons_of_mem f hg) hen x ?_
  rw [List.getLast?_cons, Option.mem_def.mp hx]
  rfl

/-- In a burst whose last frame is delivery-enabled if any of its frames is, only the last
more-data bit is clear. -/
theorem flushed_right : ∀ (fs : List XmitFrame) (st : ApSta),
    (∀ p, st.wmmpsAc p 1 = st.wmmpsAc p 0) → st.sleepqLen = fs.length →
    st.sleepqAcLen = fs.countP st.enabled → LastEnabled st fs →
    ∀ d ∈ flushed fs st, d.right = true
  | [], _, _, _, _, _ => by
    intro d hd
    exact absurd hd List.not_mem_nil
  | f :: fs, st, hbits, hlen, hac, hlast => by
    obtain ⟨hlen', hen, hac'⟩ := sent_step (n := 0) (m := 0) hbits hlen hac
    rw [Nat.add_zero] at hlen' hac'
    have ih := flushed_right fs (st.sent f) hbits hlen' (by rw [hen]; exact hac')
      (fun g hg hg' x hx => by
        rw [hen] at hg' ⊢
        exact hlast.tail g hg hg' x hx)
    intro d hd
    rw [flushed] at hd
    rcases List.mem_cons.mp hd with rfl | hd
    · have hbit : st.wmmpsAc f.priority 1 = st.enabled f := hbits f.priority
      simp only [Departure.right, hbit, hlen, hac, hlen', hac']
      cases hf : st.enabled f with
      | false => cases fs <;> simp
      | true =>
        -- the last frame is behind this one, and it is delivery-enabled
        rcases List.eq_nil_or_concat fs with rfl | ⟨gs, g, rfl⟩
        · simp [hf]
        · have hg : st.enabled g = true := hlast f List.mem_cons_self hf g (by
            rw [List.concat_eq_append, ← List.cons_append, List.getLast?_concat]
            rfl)
          simp [List.countP_append, hg, hf]
    · exact ih d hd

/-- In a burst to the broadcast station only the last more-data bit is clear. -/
theorem groupFlushed_right : ∀ (fs : List XmitFrame),
    ∀ d ∈ groupFlushed fs fs.length, d.right = true
  | [] => by
    intro d hd
    exact absurd hd List.not_mem_nil
  | f :: fs => by
    have hdec : decU32 (f :: fs).length = fs.length := by simp [decU32]
    intro d hd
    rw [groupFlushed, hdec] at hd
    rcases List.mem_cons.mp hd with rfl | hd
    · cases fs <;> simp [Departure.right]
    · exact groupFlushed_right fs d hd

/-- Of the frames that a trigger sets free, only the last one has the more-data bit clear. -/
theorem delivered_right : ∀ (fs : List XmitFrame) (st : ApSta) (n : ℕ),
    (∀ p, st.wmmpsAc p 1 = st.wmmpsAc p 0) → st.sleepqLen = fs.length + n →
    st.sleepqAcLen = fs.countP st.enabled → ∀ d ∈ delivered fs st, d.right = true
  | [], _, _, _, _, _ => by
    intro d hd
    exact absurd hd List.not_mem_nil
  | f :: fs, st, n, hbits, hlen, hac => by
    have hany : (fun g : XmitFrame => st.wmmpsAc g.priority 1) = st.enabled :=
      funext fun g => hbits g.priority
    rw [delivered, hbits]
    split
    · rename_i hon
      have hon' : st.enabled f = true := hon
      obtain ⟨hlen', hen, hac'⟩ := sent_step (m := 0) hbits hlen hac
      intro d hd
      rcases List.mem_cons.mp hd with rfl | hd
      · have hpos : 0 < st.sleepqAcLen := by
          rw [hac, List.countP_cons_of_pos hon']
          omega
        have hlen0 : 0 < st.sleepqLen := by
          rw [hlen, List.length_cons]
          omega
        simp only [Departure.right, hany, hac', Nat.add_zero, Bool.and_eq_true, beq_iff_eq]
        refine ⟨?_, by simp [hpos.ne', hlen0.ne']⟩
        rw [Bool.eq_iff_iff, decide_eq_true_iff, List.countP_pos_iff, List.any_eq_true]
      · exact delivered_right fs (st.sent f) n hbits hlen' (by rw [hen]; exact hac') d hd
    · rename_i hoff
      have hoff' : st.enabled f = false := Bool.eq_false_iff.mpr hoff
      have hlen' : st.sleepqLen = fs.length + (n + 1) := by
        rw [hlen, List.length_cons]
        omega
      have hac' : st.sleepqAcLen = fs.countP st.enabled := by
        rw [hac, List.countP_cons_of_neg (by simp [hoff'])]
      exact delivered_right fs st (n + 1) hbits hlen' hac'

end ApSta

/-! ## The machine -/

/-- What happens to the queues of sleeping stations. -/
inductive SleepEvent
  /-- A frame to `ra` is to be transmitted. -/
  | xmit (ra : MacAddr) (priority : ℕ) (direct : Bool)
  /-- The device takes the first frame of a queue. -/
  | sent (k : StaId) (q : AcQueue)
  /-- `stop_sta_xmit`. -/
  | stop (k : StaId)
  /-- `wakeup_sta_to_xmit`. -/
  | wakeup (k : StaId)
  /-- `xmit_delivery_enabled_frames`. -/
  | deliver (k : StaId)
  /-- A PS-Poll. -/
  | psPoll (k : StaId) (priority : ℕ)
  | assocReq (r : Ap.AssocReq)
  | txBeacon

namespace Ap

variable {ι : Type} [DecidableEq ι]

/-- One event. -/
def sleepStep (s : Ap ι) : SleepEvent → Option (Ap ι)
  | .xmit ra priority direct => some (s.rtwXmit ra priority direct)
  | .sent k q => some (s.setPending k q ((s.sta k).pending q).tail)
  | .stop k => s.stopStaXmit k
  | .wakeup k => some (s.wakeupStaToXmit k)
  | .deliver k => some (s.xmitDeliveryEnabledFrames k)
  | .psPoll k priority => some (s.psPoll k priority)
  | .assocReq r => some (s.onAssocReq r)
  | .txBeacon => some s.txBeaconHdl

/-- The PS-Poll is answered from the queue. -/
def polled (s : Ap ι) (k : StaId) (priority : ℕ) : Bool :=
  !(s.sta k).wmmpsAc priority 0 && ((s.sta k).asleep && s.staDzBitmap &&& bit16 (s.sta k).aid ≠ 0)

/-- The frames that leave the queue of the broadcast station. -/
def groupDepartures (s : Ap ι) (k? : Option StaId) : List ApSta.Departure :=
  match k? with
  | none => []
  | some k => ApSta.groupFlushed (s.sta k).sleepQ (s.sta k).sleepqLen

/-- The frames that an event takes out of the queues. -/
def departures (s : Ap ι) : SleepEvent → List ApSta.Departure
  | .wakeup k =>
    ApSta.flushed (s.sta k).sleepQ (s.sta k) ++
      (if (s.wakeupSta k).staDzBitmap &&& 0xfffe = 0 then
        (s.wakeupSta k).groupDepartures (s.wakeupSta k).bcmc
      else [])
  | .deliver k => ApSta.delivered (s.sta k).sleepQ (s.sta k)
  | .psPoll k priority =>
    if s.polled k priority then
      match (s.sta k).sleepQ with
      | [] => []
      | _ :: fs => [⟨0 < decU32 (s.sta k).sleepqLen, !fs.isEmpty, (s.sta k).sleepqLen == 0⟩]
    else []
  | .txBeacon =>
    if s.timBitmap &&& bit16 0 ≠ 0 then
      s.groupDepartures (s.bcmc.filter fun bmc => 0 < (s.sta bmc).sleepqLen)
    else []
  | _ => []

/-- The request is read as far as the WMM element, for the station `k`. -/
def readsWmm (s : Ap ι) (r : AssocReq) (k : StaId) : Prop :=
  s.base.mlmeext.state &&& 0x03 = wifiFwApState ∧ r.tooShort = false ∧
    s.base.rtwGetStainfo r.addr2 = some k ∧
    ((s.sta k).authSuccess = true ∨ (s.sta k).assocSuccess = true) ∧ r.elemsOk = true

instance (s : Ap ι) (r : AssocReq) (k : StaId) : Decidable (s.readsWmm r k) :=
  inferInstanceAs (Decidable (_ ∧ _ ∧ _ ∧ _ ∧ _))

/-- A PS-Poll does not take out a frame of a delivery-enabled category, a request does not change
how many of the frames that wait are of such a category, and a station that wakes up does not get
a frame of such a category in front of a last one of another category. -/
def SleepSafe (s : Ap ι) : SleepEvent → Prop
  | .wakeup k => (s.sta k).LastEnabled (s.sta k).sleepQ
  | .psPoll k priority =>
    s.polled k priority = true → ∀ f ∈ (s.sta k).sleepQ.head?, (s.sta k).enabled f = false
  | .assocReq r => ∀ k, s.readsWmm r k →
    (s.sta k).sleepQ.countP ((s.parseWmm k r.wmm).sta k).enabled =
      (s.sta k).sleepQ.countP (s.sta k).enabled
  | _ => True

instance (s : Ap ι) : ∀ e : SleepEvent, Decidable (s.SleepSafe e)
  | .xmit .. | .sent .. | .stop _ | .deliver _ | .txBeacon => inferInstanceAs (Decidable True)
  | .wakeup k => inferInstanceAs (Decidable (∀ f ∈ (s.sta k).sleepQ, (s.sta k).enabled f = true →
      ∀ g ∈ (s.sta k).sleepQ.getLast?, (s.sta k).enabled g = true))
  | .psPoll k priority => inferInstanceAs (Decidable (s.polled k priority = true →
      ∀ f ∈ (s.sta k).sleepQ.head?, (s.sta k).enabled f = false))
  | .assocReq r => inferInstanceAs (Decidable (∀ k, s.readsWmm r k →
      (s.sta k).sleepQ.countP ((s.parseWmm k r.wmm).sta k).enabled =
        (s.sta k).sleepQ.countP (s.sta k).enabled))

/-- What the run keeps of the record of a station, for the broadcast station `bc`. -/
structure RecOk (bc : Option StaId) (k : StaId) (st : ApSta) : Prop where
  queue : st.QueueOk
  groups : ∀ q, ∀ f ∈ st.pending q, f.bmcst = true → bc = some k
  off : bc = some k → (∀ p, st.wmmpsAc p 0 = false) ∧ getElem st.state 10 authBit_lt = false ∧ getElem st.state 14 assocBit_lt = false

/-- Every record is as it should be. -/
def SleepInv (s : Ap ι) : Prop := ∀ k, RecOk s.bcmc k (s.sta k)

variable {s s' t : Ap ι} {k j : StaId} {bc : Option StaId} {st st' : ApSta}

/-- One record changes. -/
theorem SleepInv.update (h : SleepInv s) (hbc : s'.bcmc = s.bcmc)
    (hs : s'.sta = Function.update s.sta k st) (hst : RecOk s.bcmc k st) : SleepInv s' := by
  intro j
  rw [hbc, hs]
  rcases eq_or_ne j k with rfl | hj
  · rw [Function.update_self]
    exact hst
  · rw [Function.update_of_ne hj]
    exact h j

/-- The queue changes, and the rest of the record stays. -/
theorem RecOk.queueOk (h : RecOk bc k st) (hq : st'.QueueOk) (hu : st'.uapsd = st.uapsd)
    (hp : st'.pending = st.pending)
    (h10 : getElem st'.state 10 authBit_lt = true → getElem st.state 10 authBit_lt = true)
    (h14 : getElem st'.state 14 assocBit_lt = true → getElem st.state 14 assocBit_lt = true) : RecOk bc k st' := by
  refine ⟨hq, fun q f hf => h.groups q f (by rw [← hp]; exact hf), fun hk => ?_⟩
  obtain ⟨hoff, hauth, hassoc⟩ := h.off hk
  refine ⟨fun p => by rw [ApSta.wmmpsAc_congr hu, hoff], ?_, ?_⟩
  · exact Bool.eq_false_iff.mpr fun hc => by simp [h10 hc] at hauth
  · exact Bool.eq_false_iff.mpr fun hc => by simp [h14 hc] at hassoc

/-! ## Frames are put into the queues -/

/-- The bits of a setting are the same after a frame was kept. -/
theorem sleepInv_buffer (h : SleepInv s) (k : StaId) (f : XmitFrame) :
    SleepInv (s.buffer k f) :=
  h.update rfl rfl ((h k).queueOk ((h k).queue.push f) rfl rfl id id)

theorem sleepInv_bufferGroup (h : SleepInv s) {k : StaId} (hk : s.bcmc = some k) (f : XmitFrame) :
    SleepInv (s.bufferGroup k f) := by
  have hoff : (s.sta k).enabled f = false := ((h k).off hk).1 f.priority
  exact h.update rfl rfl ((h k).queueOk ((h k).queue.pushGroup hoff) rfl rfl id id)

theorem sleepInv_enqueue (h : SleepInv s) (k : StaId) {f : XmitFrame}
    (hg : f.bmcst = true → s.bcmc = some k) :
    SleepInv (s.xmitframeEnqueueForSleepingSta k f).2 ∧
      (s.xmitframeEnqueueForSleepingSta k f).2.base = s.base := by
  unfold xmitframeEnqueueForSleepingSta
  split
  · exact ⟨h, rfl⟩
  split
  · exact ⟨h, rfl⟩
  split
  · rename_i hb
    split
    · exact ⟨sleepInv_bufferGroup h (hg hb) f, rfl⟩
    · exact ⟨h, rfl⟩
  split
  · exact ⟨sleepInv_buffer h k f, rfl⟩
  · exact ⟨h, rfl⟩

/-- The frames of a queue are given new values. -/
theorem sleepInv_setPending (h : SleepInv s) {q : AcQueue} {l : List XmitFrame}
    (hl : ∀ f ∈ l, f.bmcst = true → s.bcmc = some k) : SleepInv (s.setPending k q l) := by
  refine h.update rfl rfl ⟨(h k).queue.congr rfl rfl rfl rfl, fun q' f hf => ?_, (h k).off⟩
  rcases eq_or_ne q' q with rfl | hq
  · exact hl f (by simpa using hf)
  · exact (h k).groups q' f (by simpa [hq] using hf)

theorem sleepInv_dequeueLoop (k : StaId) : ∀ (fs : List XmitFrame) {s : Ap ι}, SleepInv s →
    (∀ f ∈ fs, f.bmcst = true → s.bcmc = some k) →
    SleepInv (dequeueLoop k fs s).2 ∧ (dequeueLoop k fs s).2.base = s.base ∧
      ∀ f ∈ (dequeueLoop k fs s).1, f ∈ fs
  | [], s, h, _ => ⟨h, rfl, fun f hf => hf⟩
  | f :: fs, s, h, hg => by
    obtain ⟨hu, hbase⟩ := sleepInv_enqueue h k (hg f List.mem_cons_self)
    rcases hq : s.xmitframeEnqueueForSleepingSta k f with ⟨kept, u⟩
    rw [hq] at hu hbase
    have hg' : ∀ f ∈ fs, f.bmcst = true → u.bcmc = some k := by
      intro g hgm hgb
      rw [bcmc, hbase]
      exact hg g (List.mem_cons_of_mem f hgm) hgb
    obtain ⟨ih, ihbase, ihmem⟩ := sleepInv_dequeueLoop k fs hu hg'
    rw [dequeueLoop, hq]
    cases kept with
    | true => exact ⟨ih, ihbase.trans hbase, fun g hgm => List.mem_cons_of_mem f (ihmem g hgm)⟩
    | false =>
      refine ⟨ih, ihbase.trans hbase, fun g hgm => ?_⟩
      rcases List.mem_cons.mp hgm with rfl | hgm
      · exact List.mem_cons_self
      · exact List.mem_cons_of_mem f (ihmem g hgm)

theorem sleepInv_dequeue (h : SleepInv s) (k : StaId) (q : AcQueue) :
    SleepInv (s.dequeueXmitframesToSleepingQueue k q) ∧
      (s.dequeueXmitframesToSleepingQueue k q).base = s.base := by
  obtain ⟨hu, hbase, hmem⟩ := sleepInv_dequeueLoop k ((s.sta k).pending q) h ((h k).groups q)
  unfold dequeueXmitframesToSleepingQueue
  rcases hl : dequeueLoop k ((s.sta k).pending q) s with ⟨kept, u⟩
  rw [hl] at hu hbase hmem
  refine ⟨sleepInv_setPending hu fun f hf hb => ?_, hbase⟩
  rw [bcmc, hbase]
  exact (h k).groups q f (hmem f hf) hb

theorem sleepInv_fallAsleep (h : SleepInv s) (k : StaId) : SleepInv (s.fallAsleep k) := by
  refine h.update rfl rfl ((h k).queueOk ((h k).queue.congr rfl rfl rfl rfl) rfl rfl ?_ ?_)
  · simp [record, wifiSleepState]
  · simp [record, wifiSleepState]

theorem sleepInv_stopStaXmit (h : SleepInv s) (hs : s.stopStaXmit k = some s') : SleepInv s' := by
  unfold stopStaXmit at hs
  obtain ⟨bmc, hbmc, rfl⟩ := Option.map_eq_some_iff.mp hs
  have h₁ := (sleepInv_dequeue (sleepInv_fallAsleep h k) k .vo).1
  have h₂ := (sleepInv_dequeue h₁ k .vi).1
  have h₃ := (sleepInv_dequeue h₂ k .be).1
  have h₄ := (sleepInv_dequeue h₃ k .bk).1
  exact (sleepInv_dequeue h₄ bmc .be).1

theorem sleepInv_rtwXmit (h : SleepInv s) (ra : MacAddr) (priority : ℕ) (direct : Bool) :
    SleepInv (s.rtwXmit ra priority direct) := by
  unfold rtwXmit
  split
  · exact h
  · rename_i k hk
    have hg : isMcast ra = true → s.bcmc = some k := by
      intro hm
      rw [← hk, bcmc, Adapter.rtwGetBcmcStainfo, Adapter.rtwGetStainfo, Adapter.rtwGetStainfo]
      simp [hm]
    split
    · exact h
    · obtain ⟨hu, hbase⟩ := sleepInv_enqueue h k (f := ⟨isMcast ra, priority, false⟩) hg
      dsimp only
      rcases hq : s.xmitframeEnqueueForSleepingSta k ⟨isMcast ra, priority, false⟩ with ⟨kept, u⟩
      rw [hq] at hu hbase
      cases kept with
      | true => exact hu
      | false =>
        dsimp only
        split
        · exact hu
        · refine sleepInv_setPending hu fun f hf hb => ?_
          rcases List.mem_append.mp hf with hf | hf
          · exact (hu k).groups _ f hf hb
          · obtain rfl := List.mem_singleton.mp hf
            rw [bcmc, hbase]
            exact hg hb

/-! ## Frames are taken out -/

theorem aliveSeen_frame (st : ApSta) (n : ℕ) :
    (st.aliveSeen n).uapsd = st.uapsd ∧ (st.aliveSeen n).sleepqAcLen = st.sleepqAcLen := by
  unfold ApSta.aliveSeen
  split <;> exact ⟨rfl, rfl⟩

theorem awake_frame (st : ApSta) (n : ℕ) :
    (st.awake n).uapsd = st.uapsd ∧ (st.awake n).sleepqAcLen = st.sleepqAcLen := by
  unfold ApSta.awake
  split
  · exact aliveSeen_frame { st with state := st.state ^^^ wifiSleepState } n
  · exact aliveSeen_frame st n

/-- The queue of a station that wakes up is emptied. -/
theorem sleepInv_wakeupSta (h : SleepInv s) (k : StaId) : SleepInv (s.wakeupSta k) := by
  obtain ⟨hq, hu, hp⟩ := (h k).queue.flush
  obtain ⟨hstate, -, -, hlen, -⟩ := core_eq (core_flush (h k).queue.len)
  have hrec : RecOk s.bcmc k (s.sta k).flush :=
    (h k).queueOk hq hu hp (by rw [hstate]; exact id) (by rw [hstate]; exact id)
  obtain ⟨hcore, -, h10, h14⟩ := core_awake (s.sta k).flush s.expireTo
  obtain ⟨-, -, hq', hlen', hp'⟩ := core_eq hcore
  obtain ⟨hu', hac'⟩ := awake_frame (s.sta k).flush s.expireTo
  unfold wakeupSta
  simp only [updateSta, record, Function.update_self, Function.update_idem]
  rw [if_pos hlen]
  refine h.update rfl rfl (hrec.queueOk (hq.congr hu' hq' hlen' hac') hu' hp' ?_ ?_)
  · rw [h10]
    exact fun hc => absurd hc (by simp)
  · rw [h14]
    exact id

theorem RecOk.flushGroup (h : RecOk bc k st) (hk : bc = some k) : RecOk bc k st.flushGroup :=
  h.queueOk (h.queue.flushGroup (h.off hk).1) rfl rfl id id

theorem sleepInv_wakeupGroup (h : SleepInv s) : SleepInv s.wakeupGroup := by
  unfold wakeupGroup
  split
  · exact h
  · rename_i b hb
    split
    · have hrec := (h b).flushGroup hb
      dsimp only
      split
      · exact h.update rfl rfl hrec
      · exact h.update rfl rfl hrec
    · exact h

theorem sleepInv_txBeaconHdl (h : SleepInv s) : SleepInv s.txBeaconHdl := by
  unfold txBeaconHdl
  split
  · exact h
  · rename_i b hb
    split
    · exact h.update rfl rfl ((h b).flushGroup hb)
    · exact h

theorem sleepInv_deliver (h : SleepInv s) (k : StaId) :
    SleepInv (s.xmitDeliveryEnabledFrames k) := by
  obtain ⟨hkept, hlen, hac, hu, hp⟩ := ApSta.deliverLoop_counts (s.sta k).sleepQ (s.sta k) 0 0
    (h k).queue.bits (h k).queue.len (h k).queue.acLen
  have hcore := core_eq (deliverLoop_spec (s.sta k).sleepQ (s.sta k) 0 (h k).queue.len)
  unfold xmitDeliveryEnabledFrames
  dsimp only
  rcases hloop : ApSta.deliverLoop (s.sta k).sleepQ (s.sta k) with ⟨kept, st, clr⟩
  rw [hloop] at hkept hlen hac hu hp hcore
  dsimp only at hkept hlen hac hu hp hcore
  -- what stays is of no delivery-enabled category
  have hnone : kept.countP st.enabled = 0 := by
    rw [List.countP_eq_zero, funext (ApSta.enabled_congr hu), hkept]
    intro f hf
    simpa using (List.mem_filter.mp hf).2
  refine h.update rfl rfl ((h k).queueOk ⟨hlen, hac.trans hnone.symm, fun p => ?_⟩ hu hp ?_ ?_)
  · have hbits := (h k).queue.bits p
    rw [← ApSta.wmmpsAc_congr hu, ← ApSta.wmmpsAc_congr hu] at hbits
    exact hbits
  · exact fun hc => by rwa [← hcore.1]
  · exact fun hc => by rwa [← hcore.1]

/-- A frame that is not of a delivery-enabled category is taken out by a PS-Poll. -/
theorem sleepInv_psPollFrame (h : SleepInv s)
    (hf : ∀ f ∈ (s.sta k).sleepQ.head?, (s.sta k).enabled f = false) : SleepInv
    (s.psPollFrame k) := by
  unfold psPollFrame
  dsimp only
  have hqueue := (h k).queue
  split
  · rename_i f fs hl
    have hoff : (s.sta k).enabled f = false := hf f (by rw [hl]; rfl)
    have hlen : decU32 (s.sta k).sleepqLen = fs.length := by
      rw [hqueue.len, hl]
      simp [decU32]
    have hac : (s.sta k).sleepqAcLen = fs.countP (s.sta k).enabled := by
      rw [hqueue.acLen, hl, List.countP_cons_of_neg (by simp [hoff])]
    exact h.update rfl rfl ((h k).queueOk ⟨hlen, hac, hqueue.bits⟩ rfl rfl id id)
  · rename_i hl
    split
    · have hlen : (0 : ℕ) = (s.sta k).sleepQ.length := by rw [hl, List.length_nil]
      exact h.update rfl rfl ((h k).queueOk ⟨hlen, hqueue.acLen, hqueue.bits⟩ rfl rfl id id)
    · exact h

theorem sleepInv_psPoll (h : SleepInv s) {priority : ℕ}
    (hf : s.polled k priority = true → ∀ f ∈ (s.sta k).sleepQ.head?, (s.sta k).enabled f = false) :
    SleepInv (s.psPoll k priority) := by
  unfold psPoll
  split
  · exact h
  · rename_i hw
    obtain ⟨hcore, h2, h10, h14⟩ := core_aliveSeen (s.sta k) s.expireTo
    obtain ⟨-, haid, hq, hlen, hp⟩ := core_eq hcore
    obtain ⟨hu, hac⟩ := aliveSeen_frame (s.sta k) s.expireTo
    have hrec : RecOk s.bcmc k ((s.sta k).aliveSeen s.expireTo) := by
      refine (h k).queueOk ((h k).queue.congr hu hq hlen hac) hu hp ?_ ?_
      · rw [h10]
        exact fun hc => absurd hc (by simp)
      · rw [h14]
        exact id
    extract_lets u st
    have hsta : u.sta k = (s.sta k).aliveSeen s.expireTo := by
      simp only [u, updateSta, record, Function.update_self]
    have hinv : SleepInv u := h.update rfl rfl hrec
    split
    · rename_i hserved
      refine sleepInv_psPollFrame hinv fun f hfm => ?_
      rw [hsta] at hfm ⊢
      rw [hq] at hfm
      rw [ApSta.enabled_congr hu]
      refine hf ?_ f hfm
      have hasleep : (s.sta k).asleep = true := by
        rw [ApSta.asleep_eq, ← h2, ← ApSta.asleep_eq, ← hsta]
        exact hserved.1
      have hdz : s.staDzBitmap &&& bit16 (s.sta k).aid ≠ 0 := by
        have hdz' := hserved.2
        rw [show st.aid = (s.sta k).aid by rw [← haid, ← hsta]] at hdz'
        exact hdz'
      simp only [polled, hasleep, Bool.eq_false_iff.mpr hw, Bool.not_false, Bool.true_and]
      exact decide_eq_true hdz
    · exact hinv

/-! ## Association requests -/

/-- Nothing about the queues changes, and only the record `k` does. -/
structure Kept (k : StaId) (s t : Ap ι) : Prop where
  bcmc : t.bcmc = s.bcmc
  others : ∀ j, j ≠ k → t.sta j = s.sta j
  queue : (t.sta k).sleepQ = (s.sta k).sleepQ ∧ (t.sta k).sleepqLen = (s.sta k).sleepqLen ∧
    (t.sta k).sleepqAcLen = (s.sta k).sleepqAcLen ∧ (t.sta k).pending = (s.sta k).pending
  uapsd : (t.sta k).uapsd = (s.sta k).uapsd

theorem Kept.trans {u : Ap ι} (h : Kept k s t) (h' : Kept k t u) : Kept k s u := by
  obtain ⟨hq, hlen, hac, hp⟩ := h.queue
  obtain ⟨hq', hlen', hac', hp'⟩ := h'.queue
  exact ⟨h'.bcmc.trans h.bcmc, fun j hj => (h'.others j hj).trans (h.others j hj),
    ⟨hq'.trans hq, hlen'.trans hlen, hac'.trans hac, hp'.trans hp⟩, h'.uapsd.trans h.uapsd⟩

theorem Kept.of_update (hbc : t.bcmc = s.bcmc) (hst : t.sta = Function.update s.sta k st)
    (hq : st.sleepQ = (s.sta k).sleepQ ∧ st.sleepqLen = (s.sta k).sleepqLen ∧
      st.sleepqAcLen = (s.sta k).sleepqAcLen ∧ st.pending = (s.sta k).pending)
    (hu : st.uapsd = (s.sta k).uapsd) : Kept k s t := by
  refine ⟨hbc, fun j hj => by rw [hst, Function.update_of_ne hj], ?_, ?_⟩
  · rw [hst, Function.update_self]
    exact hq
  · rw [hst, Function.update_self]
    exact hu

theorem kept_assocDone (s : Ap ι) (k : StaId) : Kept k s (s.assocDone k) := by
  obtain ⟨n, hsta⟩ := s.assocListed_sta k
  have hst : (s.assocDone k).sta = Function.update s.sta k
      (joined { s.sta k with state := assocState (s.sta k).state, expireTo := n }) := by
    rw [assocDone, join_sta, hsta, Function.update_self, Function.update_idem]
  refine Kept.of_update ?_ hst ⟨rfl, rfl, rfl, rfl⟩ rfl
  refine bcmc_congr ?_
  change Adapter.SameStations s.base (s.assocListed k).base
  rw [assocListed_base]
  exact Adapter.sameStations_updateSta rfl

theorem kept_assocReqFail (s : Ap ι) (k : StaId) : Kept k s (s.assocReqFail k) :=
  Kept.of_update rfl rfl ⟨rfl, rfl, rfl, rfl⟩ rfl

theorem kept_assignAid (s : Ap ι) (k : StaId) : Kept k s (s.assignAid k) := by
  unfold assignAid
  split
  · exact kept_assocDone s k
  split
  · exact kept_assocReqFail s k
  · refine Kept.trans ?_ (kept_assocDone _ k)
    exact Kept.of_update rfl rfl ⟨rfl, rfl, rfl, rfl⟩ rfl

/-- Records that do not belong to the broadcast station may change in their state. -/
theorem SleepInv.kept (h : SleepInv s) (hk : s.bcmc ≠ some k) (hkept : Kept k s t) :
    SleepInv t := by
  intro j
  rw [hkept.bcmc]
  rcases eq_or_ne j k with rfl | hj
  · obtain ⟨hq, hlen, hac, hp⟩ := hkept.queue
    refine ⟨(h j).queue.congr hkept.uapsd hq hlen hac, fun q f hf => ?_, fun hj => absurd hj hk⟩
    rw [hp] at hf
    exact (h j).groups q f hf
  · rw [hkept.others j hj]
    exact h j

theorem uapsdOf_bits (qosInfo : UInt8) (i : ℕ) :
    (uapsdOf qosInfo i).toNat.testBit 1 = (uapsdOf qosInfo i).toNat.testBit 0 := by
  unfold uapsdOf
  split <;> decide

theorem bcmc_parseWmm (s : Ap ι) (k : StaId) (wmm : Option UInt8) :
    (s.parseWmm k wmm).bcmc = s.bcmc := by
  have hbase : (s.parseWmm k wmm).base = s.base.updateSta k fun st =>
      { st with qosOption := (if s.base.mlmepriv.qosOption then wmm else none).isSome } := rfl
  refine bcmc_congr ?_
  rw [hbase]
  exact Adapter.sameStations_updateSta rfl

/-- The settings change, and as many of the frames that wait are delivery-enabled as before. -/
theorem sleepInv_parseWmm (h : SleepInv s) (hk : s.bcmc ≠ some k) {wmm : Option UInt8}
    (hcount : (s.sta k).sleepQ.countP ((s.parseWmm k wmm).sta k).enabled =
      (s.sta k).sleepQ.countP (s.sta k).enabled) : SleepInv (s.parseWmm k wmm) := by
  intro j
  rw [bcmc_parseWmm]
  rcases eq_or_ne j k with rfl | hj
  · have hac := (h j).queue.acLen
    rw [← hcount] at hac
    unfold parseWmm at hac ⊢
    simp only [updateSta, Function.update_self] at hac ⊢
    refine ⟨⟨(h j).queue.len, hac, fun p => ?_⟩, (h j).groups, fun hj => absurd hj hk⟩
    unfold ApSta.wmmpsAc
    dsimp only
    split <;> exact uapsdOf_bits _ _
  · have hother : (s.parseWmm k wmm).sta j = s.sta j := by
      simp only [parseWmm, updateSta]
      rw [Function.update_of_ne hj]
    rw [hother]
    exact h j

theorem sleepInv_onAssocReq (h : SleepInv s) {r : AssocReq}
    (hcount : ∀ k, s.readsWmm r k →
      (s.sta k).sleepQ.countP ((s.parseWmm k r.wmm).sta k).enabled =
        (s.sta k).sleepQ.countP (s.sta k).enabled) : SleepInv (s.onAssocReq r) := by
  unfold onAssocReq
  split
  · exact h
  rename_i hap
  push Not at hap
  split
  · exact h
  rename_i k hget
  extract_lets st u v w
  split
  · exact h
  rename_i hstate
  have hknown : (s.sta k).authSuccess = true ∨ (s.sta k).assocSuccess = true := by
    by_contra hc
    push Not at hc
    exact hstate ⟨hc.1, hc.2⟩
  have hbc : s.bcmc ≠ some k := by
    intro hk
    obtain ⟨-, hauth, hassoc⟩ := (h k).off hk
    rw [ApSta.authSuccess_eq, ApSta.assocSuccess_eq] at hknown
    simp [hauth, hassoc] at hknown
  have hu : Kept k s u := by
    refine Kept.trans (t := s.assocStart k) ?_ ?_
    · exact Kept.of_update rfl rfl ⟨rfl, rfl, rfl, rfl⟩ rfl
    · exact Kept.of_update rfl rfl ⟨rfl, rfl, rfl, rfl⟩ rfl
  have hinv : SleepInv u := h.kept hbc hu
  have hbcu : u.bcmc ≠ some k := by rwa [hu.bcmc]
  split
  · exact hinv.kept hbcu (kept_assocReqFail u k)
  rename_i helems
  have hwmm : SleepInv (u.parseWmm k r.wmm) := by
    refine sleepInv_parseWmm hinv hbcu ?_
    have hc := hcount k ⟨hap.1, by simpa using hap.2, hget, hknown, by simpa using helems⟩
    have hen : ((u.parseWmm k r.wmm).sta k).enabled = ((s.parseWmm k r.wmm).sta k).enabled := by
      refine funext fun f => ApSta.enabled_congr ?_ f
      simp only [parseWmm, updateSta, Function.update_self, ApSta.uapsd]
      rfl
    rw [hen, hu.queue.1, hc, funext (ApSta.enabled_congr hu.uapsd)]
  have hbcw : (u.parseWmm k r.wmm).bcmc ≠ some k := by rwa [bcmc_parseWmm]
  have hkv : Kept k (u.parseWmm k r.wmm) v := Kept.of_update rfl rfl ⟨rfl, rfl, rfl, rfl⟩ rfl
  have hkw : Kept k v w := Kept.of_update rfl rfl ⟨rfl, rfl, rfl, rfl⟩ rfl
  split
  · exact hwmm.kept hbcw (hkv.trans (kept_assocReqFail v k))
  split
  · exact hwmm.kept hbcw ((hkv.trans hkw).trans (kept_assocReqFail w k))
  · exact hwmm.kept hbcw ((hkv.trans hkw).trans (kept_assignAid w k))

/-! ## Runs -/

theorem sleepInv_step {e : SleepEvent} (h : SleepInv s) (hsafe : s.SleepSafe e)
    (hstep : s.sleepStep e = some t) : SleepInv t := by
  cases e with
  | xmit ra priority direct =>
    cases hstep
    exact sleepInv_rtwXmit h ra priority direct
  | sent k q =>
    cases hstep
    exact sleepInv_setPending h fun f hf => (h k).groups q f (List.mem_of_mem_tail hf)
  | stop k => exact sleepInv_stopStaXmit h hstep
  | wakeup k =>
    cases hstep
    exact sleepInv_wakeupGroup (sleepInv_wakeupSta h k)
  | deliver k =>
    cases hstep
    exact sleepInv_deliver h k
  | psPoll k priority =>
    cases hstep
    exact sleepInv_psPoll h hsafe
  | assocReq r =>
    cases hstep
    exact sleepInv_onAssocReq h hsafe
  | txBeacon =>
    cases hstep
    exact sleepInv_txBeaconHdl h

theorem groupDepartures_right (h : SleepInv s) (k? : Option StaId) :
    ∀ d ∈ s.groupDepartures k?, d.right = true := by
  cases k? with
  | none =>
    intro d hd
    exact absurd hd List.not_mem_nil
  | some k =>
    rw [groupDepartures, (h k).queue.len]
    exact ApSta.groupFlushed_right (s.sta k).sleepQ

theorem departures_right {e : SleepEvent} (h : SleepInv s) (hsafe : s.SleepSafe e) :
    ∀ d ∈ s.departures e, d.right = true := by
  intro d hd
  cases e with
  | wakeup k =>
    have hqueue := (h k).queue
    rcases List.mem_append.mp hd with hd | hd
    · exact ApSta.flushed_right _ _ hqueue.bits hqueue.len hqueue.acLen hsafe d hd
    · split at hd
      · exact groupDepartures_right (sleepInv_wakeupSta h k) _ d hd
      · exact absurd hd List.not_mem_nil
  | deliver k =>
    have hqueue := (h k).queue
    exact ApSta.delivered_right _ _ 0 hqueue.bits hqueue.len hqueue.acLen d hd
  | psPoll k priority =>
    have hlen := (h k).queue.len
    rw [departures] at hd
    split at hd
    · split at hd
      · exact absurd hd List.not_mem_nil
      · rename_i f fs hl
        obtain rfl := List.mem_singleton.mp hd
        rw [hl] at hlen
        rw [hlen]
        cases fs <;> simp [ApSta.Departure.right, decU32]
    · exact absurd hd List.not_mem_nil
  | txBeacon =>
    rw [departures] at hd
    split at hd
    · exact groupDepartures_right h _ d hd
    · exact absurd hd List.not_mem_nil
  | xmit => exact absurd hd List.not_mem_nil
  | sent => exact absurd hd List.not_mem_nil
  | stop => exact absurd hd List.not_mem_nil
  | assocReq => exact absurd hd List.not_mem_nil

/-- No frame waits for a station that sleeps. -/
structure Rested (s : Ap ι) : Prop where
  sleepQ : ∀ k, (s.sta k).sleepQ = []
  sleepqLen : ∀ k, (s.sta k).sleepqLen = 0
  sleepqAcLen : ∀ k, (s.sta k).sleepqAcLen = 0
  uapsd : ∀ k, ∀ u ∈ [(s.sta k).uapsdVo, (s.sta k).uapsdVi, (s.sta k).uapsdBe, (s.sta k).uapsdBk],
    u = 0 ∨ u = 3
  pending : ∀ k q, ∀ f ∈ (s.sta k).pending q, f.bmcst = true → s.bcmc = some k
  bcmc : ∀ k, s.bcmc = some k → (s.sta k).uapsd = (0, 0, 0, 0) ∧ (s.sta k).authSuccess = false ∧
    (s.sta k).assocSuccess = false

theorem wmmpsAc_mem (st : ApSta) (p : ℕ) :
    ∃ u ∈ [st.uapsdVo, st.uapsdVi, st.uapsdBe, st.uapsdBk],
      ∀ i, st.wmmpsAc p i = u.toNat.testBit i := by
  unfold ApSta.wmmpsAc
  dsimp only
  split
  · exact ⟨st.uapsdBk, by simp, fun _ => rfl⟩
  · exact ⟨st.uapsdBk, by simp, fun _ => rfl⟩
  · exact ⟨st.uapsdVi, by simp, fun _ => rfl⟩
  · exact ⟨st.uapsdVi, by simp, fun _ => rfl⟩
  · exact ⟨st.uapsdVo, by simp, fun _ => rfl⟩
  · exact ⟨st.uapsdVo, by simp, fun _ => rfl⟩
  · exact ⟨st.uapsdBe, by simp, fun _ => rfl⟩

theorem Rested.sleepInv (h : Rested s) : SleepInv s := by
  intro k
  refine ⟨⟨?_, ?_, fun p => ?_⟩, h.pending k, fun hk => ?_⟩
  · rw [h.sleepqLen, h.sleepQ, List.length_nil]
  · rw [h.sleepqAcLen, h.sleepQ, List.countP_nil]
  · obtain ⟨u, hu, hbit⟩ := wmmpsAc_mem (s.sta k) p
    rw [hbit, hbit]
    rcases h.uapsd k u hu with rfl | rfl
    · rfl
    · rfl
  · obtain ⟨hoff, hauth, hassoc⟩ := h.bcmc k hk
    refine ⟨fun p => ?_, by rwa [← ApSta.authSuccess_eq], by rwa [← ApSta.assocSuccess_eq]⟩
    have hinit : (s.sta k).uapsd = initApSta.uapsd := hoff
    rw [ApSta.wmmpsAc_congr hinit]
    obtain ⟨u, hu, hbit⟩ := wmmpsAc_mem initApSta p
    rw [hbit]
    have hu0 : u = 0 := by simpa [initApSta] using hu
    rw [hu0]
    rfl

/-- The counters of every station count its queue. -/
def SleepCounts (s : Ap ι) : Prop :=
  ∀ k, (s.sta k).sleepqLen = (s.sta k).sleepQ.length ∧
    (s.sta k).sleepqAcLen = (s.sta k).sleepQ.countP (s.sta k).enabled

/-- The counters of the stations count their queues after every run, and of the frames of a
service period the last one is the only one with the more-data bit clear, unless a PS-Poll takes
out a frame of a delivery-enabled category, a request makes frames that wait change their
category, or a station that wakes up gets a frame of a delivery-enabled category and a last one
of another category. -/
theorem sleepQueues_run {es : List SleepEvent} (hs : Rested s) (hsafe : AlongM sleepStep SleepSafe s es)
    (hrun : runM sleepStep s es = some t) :
    SleepCounts t ∧
      AlongM sleepStep (fun u e => ∀ d ∈ u.departures e, d.right = true) s es := by
  refine ⟨fun k => ?_, ?_⟩
  · have hinv : SleepInv t :=
      invariant_alongM (fun _ _ _ => sleepInv_step) hs.sleepInv hsafe hrun
    exact ⟨(hinv k).queue.len, (hinv k).queue.acLen⟩
  · exact alongM_of_invariant (fun _ _ _ => sleepInv_step) (fun _ _ => departures_right) hs.sleepInv
      hsafe

/-- An association request with a WMM element. -/
def sampleUapsdReq (qosInfo : UInt8) : AssocReq :=
  { sampleAssocReq Adapter.sampleTa true with wmm := some qosInfo }

/-- A station with U-APSD for voice is associated. -/
def sampleUapsdAp : Ap RecvId :=
  let s := { sampleAp with
    base := { sampleAp.base with mlmepriv := { sampleAp.base.mlmepriv with qosOption := true } } }
  (s.onAuth true (sampleAuth Adapter.sampleTa)).onAssocReq (sampleUapsdReq 1)

theorem rested_sampleUapsdAp : Rested sampleUapsdAp := by
  have hpending : ∀ k, (sampleUapsdAp.sta k).pending .vo = [] ∧
    (sampleUapsdAp.sta k).pending .vi = [] ∧
      (sampleUapsdAp.sta k).pending .be = [] ∧ (sampleUapsdAp.sta k).pending .bk = [] := by
    decide +kernel
  have huapsd : ∀ k, [(sampleUapsdAp.sta k).uapsdVo, (sampleUapsdAp.sta k).uapsdVi,
      (sampleUapsdAp.sta k).uapsdBe, (sampleUapsdAp.sta k).uapsdBk].all
        (fun u => u = 0 ∨ u = 3) = true := by
    decide +kernel
  refine ⟨by decide +kernel, by decide +kernel, by decide +kernel,
    fun k u hu => of_decide_eq_true (List.all_eq_true.mp (huapsd k) u hu), ?_, by decide +kernel⟩
  intro k q f hf
  obtain ⟨hvo, hvi, hbe, hbk⟩ := hpending k
  cases q <;> simp_all

theorem sleepQueues_sampleUapsdAp :
    ∃ t, runM sleepStep sampleUapsdAp [.stop 1, .xmit Adapter.sampleTa 0 false,
        .xmit Adapter.sampleTa 6 false, .wakeup 1] = some t ∧ SleepCounts t := by
  have h := @sleepQueues_run RecvId _ sampleUapsdAp _ [.stop 1, .xmit Adapter.sampleTa 0 false,
    .xmit Adapter.sampleTa 6 false, .wakeup 1] rested_sampleUapsdAp (by decide +kernel) rfl
  exact ⟨_, rfl, h.1⟩

/-- A PS-Poll for another category takes out a voice frame, and `sleepq_ac_len` still counts it.
A request makes the category of a frame that waits delivery-enabled, and `sleepq_ac_len` wraps when
the frame leaves. Of two frames for a station that wakes up, both have the more-data bit clear. -/
theorem not_sleepQueues_sample :
    ¬ (∀ (es : List SleepEvent) (t : Ap RecvId), runM sleepStep sampleUapsdAp es = some t →
      SleepCounts t ∧
        AlongM sleepStep (fun u e => ∀ d ∈ u.departures e, d.right = true) sampleUapsdAp es) ∧
    ((runM sleepStep sampleUapsdAp [.stop 1, .xmit Adapter.sampleTa 6 false, .psPoll 1 0]).any
      fun t => (t.sta 1).sleepQ.isEmpty && (t.sta 1).sleepqAcLen == 1) = true ∧
    ((runM sleepStep sampleUapsdAp [.stop 1, .xmit Adapter.sampleTa 0 false,
        .assocReq (sampleUapsdReq 9), .deliver 1]).any
      fun t => (t.sta 1).sleepqAcLen == 4294967295) = true ∧
    ((runM sleepStep sampleUapsdAp [.stop 1, .xmit Adapter.sampleTa 6 false,
        .xmit Adapter.sampleTa 0 false]).any
      fun t => t.departures (.wakeup 1) = [⟨false, true, false⟩, ⟨false, false, false⟩]) = true := by
  have hpoll : ((runM sleepStep sampleUapsdAp
      [.stop 1, .xmit Adapter.sampleTa 6 false, .psPoll 1 0]).any
      fun t => (t.sta 1).sleepQ.isEmpty && (t.sta 1).sleepqAcLen == 1) = true := by
    decide +kernel
  refine ⟨fun hall => ?_, hpoll, by decide +kernel, by decide +kernel⟩
  obtain ⟨t, ht, hwrong⟩ := Option.any_eq_true _ _ |>.mp hpoll
  have hcount := ((hall _ t ht).1 1).2
  simp only [Bool.and_eq_true, List.isEmpty_iff, beq_iff_eq] at hwrong
  rw [hwrong.1, hwrong.2, List.countP_nil] at hcount
  exact absurd hcount (by decide)

end Ap

end Rtl8188eu
