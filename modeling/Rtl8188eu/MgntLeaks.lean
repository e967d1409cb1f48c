import Mathlib.Data.Multiset.AddSub
import Mathlib.Algebra.BigOperators.Group.Multiset.Basic
import Rtl8188eu.ApPowerSave
import Rtl8188eu.MgntXmit
import Rtl8188eu.Runs

/-!
# The frames and buffers of management frames

The items of a state are its `xmit_frame`s and ext `xmit_buf`s, in whatever hands they are
(`items`). Every step keeps them but one : a builder that returns without its frame in
`rtw_hal_mgnt_xmit` and without freeing it has lost a frame and a buffer
(`build_of_not_handsOn`). That is the case when the driver is stopped where a
`dump_mgntframe` function looks, and when a beacon, a probe response or an association response
is given up behind `alloc_mgtxmitframe`. `issue_assocreq` frees what it gives up.

A run keeps all items exactly when no builder loses its frame (`accounted_iff`), and a builder
that does so again and again empties the queues (`run_lost`).
-/

namespace Rtl8188eu

open Runs

/-! ## When a builder hands its frame on -/

/-- The bytes of the SSID that `update_hidden_ssid` takes out. -/
def hiddenSsidLen (m : Mem) (ies iesLen : ℤ) (hiddenSsidMode : ℕ) : ℕ :=
  match rtwGetIe m ies ssidIe (toInt iesLen) with
  | some (_, ssidLen) => if hiddenSsidMode = 1 then ssidLen else 0
  | none => 0

theorem updateHiddenSsid_fst (m : Mem) (ies iesLen : ℤ) (hiddenSsidMode : ℕ) :
    (updateHiddenSsid m ies iesLen hiddenSsidMode).1 =
    -hiddenSsidLen m ies iesLen hiddenSsidMode := by
  unfold updateHiddenSsid hiddenSsidLen
  cases rtwGetIe m ies ssidIe (toInt iesLen) with
  | none => simp
  | some r =>
    obtain ⟨ssid, ssidLen⟩ := r
    rcases Nat.eq_zero_or_pos ssidLen with rfl | hpos
    · simp
    · dsimp only
      rw [if_pos hpos]
      split
      · rfl
      · simp
      · rename_i h1 h2
        rw [if_neg h1]
        rfl

namespace BeaconInput

variable (e : BeaconInput)

/-- The bytes of the hidden SSID. -/
def hiddenLen : ℕ :=
  hiddenSsidLen (e.m.write e.pframe (e.m.read e.ies e.ieLength)) (e.pframe + beaconIeOffset)
    (toU32 (e.ieLength - beaconIeOffset)) e.hiddenSsidMode

/-- The bytes that an access point adds to its elements, or takes out. -/
def ownLen : ℤ :=
  if e.role = .go ∧ e.wpsie ≠ none then 16 + e.deviceName.length else -e.hiddenLen

/-- The length of the beacon for the network. -/
def length : ℤ :=
  if e.state &&& 0x03 = wifiFwApState then
    24 + e.ieLength + e.ownLen + (if e.role = .go then 20 else 0)
  else
    50 + e.ssid.length + rtwGetRatesetLen e.supportedRates
      + (if 8 < rtwGetRatesetLen e.supportedRates then 2 else 0)

/-- The beacon is not too large. -/
def Fits : Prop := toU32 (e.length + txdescSize) ≤ 512

theorem buildBeaconP2pIe_eq : e.buildBeaconP2pIe = 20 := by
  simp [buildBeaconP2pIe, rtwSetIe, rtwSetP2pAttrContent, p2pOui]

theorem length_wpsInsert : e.wpsInsert.length = 16 + e.deviceName.length := by
  simp only [wpsInsert, List.length_append, List.length_cons, List.length_nil]

theorem apPktlen_eq :
    e.apPktlen = 24 + e.ieLength + e.ownLen + (if e.role = .go then 20 else 0) := by
  unfold apPktlen ownLen hiddenLen
  simp only [updateHiddenSsid_fst, buildBeaconP2pIe_eq, length_wpsInsert, hdr3addrLen]
  rcases hrole : e.role with _ | _ | _ | _ <;> rcases e.wpsie with _ | ⟨p, n⟩ <;> simp <;> ring

theorem adhocPktlen_eq : e.adhocPktlen = 50 + e.ssid.length + rtwGetRatesetLen e.supportedRates
    + (if 8 < rtwGetRatesetLen e.supportedRates then 2 else 0) := by
  simp only [adhocPktlen, rtwSetIe, List.length_take, List.length_drop, List.length_map,
    List.length_range, hdr3addrLen, List.length_cons, List.length_nil]
  split_ifs <;> omega

theorem pktlen_eq_length : e.pktlen = e.length := by
  unfold pktlen length
  by_cases hap : e.state &&& 0x03 = wifiFwApState
  · rw [if_pos hap, if_pos hap, e.apPktlen_eq]
  · rw [if_neg hap, if_neg hap, e.adhocPktlen_eq]
    push_cast
    rfl

end BeaconInput

/-- The network and the station have no rate in common. -/
def AssocreqInput.NoCommonRate (e : AssocreqInput) : Prop :=
  ∀ r ∈ e.networkRates, ∀ q ∈ e.staRates, r ||| basicRateMask ≠ q ||| basicRateMask

theorem AssocreqInput.length_bssrate_eq_zero_iff (e : AssocreqInput) :
    e.bssrate.length = 0 ↔ e.NoCommonRate := by
  simp [AssocreqInput.bssrate, AssocreqInput.NoCommonRate, List.filter_eq_nil_iff]

/-- The builder passes the frame it was given to `rtw_hal_mgnt_xmit`, or frees it. `stopped` says
that the driver is stopped or the device removed. -/
def MgntBuilder.HandsOn (stopped : Prop) : MgntBuilder → Prop
  | .issueBeacon e => e.Fits ∧ ¬ stopped
  | .issueProbersp ieLength => ieLength ≤ maxIeSz ∧ ¬ stopped
  | .issueAsocrsp pktType => (pktType = wifiAssocrsp ∨ pktType = wifiReassocrsp) ∧ ¬ stopped
  | .issueAssocreq e => e.NoCommonRate ∨ ¬ stopped
  | .setFwRsvdPagePkt => True
  | _ => ¬ stopped

/-! ## Items -/

/-- The frame and the buffer. -/
def MgntFrame.items {φ β : Type*} (x : MgntFrame φ β) : Multiset (φ ⊕ β) :=
  {Sum.inl x.frame, Sum.inr x.pxmitbuf}

theorem coe_eq_of_getElem? {α : Type*} {l : List α} {i : ℕ} {x : α} (h : l[i]? = some x) :
    (l : Multiset α) = {x} + (l.eraseIdx i : Multiset α) := by
  obtain ⟨hi, rfl⟩ := List.getElem?_eq_some_iff.mp h
  rw [Multiset.singleton_add, Multiset.cons_coe]
  exact Multiset.coe_eq_coe.mpr (List.getElem_cons_eraseIdx_perm hi).symm

namespace MgntXmit

variable {φ β : Type*} {s : MgntXmit φ β}

/-- All frames and ext buffers, wherever they are. -/
def items (s : MgntXmit φ β) : Multiset (φ ⊕ β) :=
  (s.freeXmitQueue : Multiset φ).map Sum.inl + (s.freeXmitExtbufQueue : Multiset β).map Sum.inr
    + (s.dataFrames : Multiset φ).map Sum.inl + (s.submitted : Multiset β).map Sum.inr
    + (s.building : Multiset (MgntBuilder × MgntFrame φ β)).bind (fun r => r.2.items)
    + (s.handed : Multiset (MgntFrame φ β)).bind MgntFrame.items

/-- The driver is stopped or the device removed. -/
def Stopped (s : MgntXmit φ β) : Prop := s.bSurpriseRemoved = true ∨ s.bDriverStopped = true

theorem items_rtwFreeXmitframe (s : MgntXmit φ β) (f : φ) :
    (s.rtwFreeXmitframe f).items = s.items + {Sum.inl f} := by
  simp only [items, rtwFreeXmitframe, ← Multiset.coe_add, Multiset.coe_singleton, Multiset.map_add,
    Multiset.map_singleton]
  abel

theorem items_rtwFreeXmitbuf (s : MgntXmit φ β) (b : β) :
    (s.rtwFreeXmitbuf b).items = s.items + {Sum.inr b} := by
  simp only [items, rtwFreeXmitbuf, ← Multiset.coe_add, Multiset.coe_singleton, Multiset.map_add,
    Multiset.map_singleton]
  abel

theorem MgntFrame.items_eq (x : MgntFrame φ β) :
    x.items = {Sum.inr x.pxmitbuf} + {Sum.inl x.frame} := by
  rw [MgntFrame.items, Multiset.insert_eq_cons, ← Multiset.singleton_add, add_comm]

theorem items_usbWritePort (s : MgntXmit φ β) (status : UrbStatus) (b : β) :
    (s.usbWritePort status b).items = s.items + {Sum.inr b} := by
  unfold usbWritePort
  split_ifs with hstop
  · exact items_rtwFreeXmitbuf s b
  · split
    · simp only [items, ← Multiset.coe_add, Multiset.coe_singleton, Multiset.map_add,
        Multiset.map_singleton]
      abel
    · exact items_rtwFreeXmitbuf _ b
    · exact items_rtwFreeXmitbuf s b

theorem items_rtwDumpXframe (s : MgntXmit φ β) (status : UrbStatus) (x : MgntFrame φ β) :
    (s.rtwDumpXframe status x).items = s.items + x.items := by
  rw [rtwDumpXframe, items_rtwFreeXmitframe, items_usbWritePort, MgntFrame.items_eq, add_assoc]

theorem items_urbFailed (s : MgntXmit φ β) (status : UrbStatus) :
    (s.urbFailed status).items = s.items := by
  cases status <;> rfl

theorem items_usbWritePortComplete (s : MgntXmit φ β) (status : UrbStatus) (b : β) :
    (s.usbWritePortComplete status b).items = s.items + {Sum.inr b} := by
  unfold usbWritePortComplete
  rw [items_rtwFreeXmitbuf]
  split_ifs
  · rfl
  · rw [items_urbFailed]

theorem items_rtwHalMgntXmit (s : MgntXmit φ β) (x : MgntFrame φ β) :
    (s.rtwHalMgntXmit x).items = s.items + x.items := by
  simp only [items, rtwHalMgntXmit, ← Multiset.coe_add, Multiset.coe_singleton, Multiset.add_bind,
    Multiset.singleton_bind]
  abel

/-! ## Builders -/

theorem dump_of_not_stopped (h : ¬ s.Stopped) (x : MgntFrame φ β) :
    s.dump x = s.rtwHalMgntXmit x := by
  rw [Stopped, ← Bool.or_eq_true] at h
  rw [dump, if_neg h]

theorem dump_of_stopped (h : s.Stopped) (x : MgntFrame φ β) : s.dump x = s := by
  rw [Stopped, ← Bool.or_eq_true] at h
  rw [dump, if_pos h]

theorem dumpOrWaitAck_eq (s : MgntXmit φ β) (waitAck : Bool) (x : MgntFrame φ β) :
    s.dumpOrWaitAck waitAck x = s.dump x := by
  cases waitAck <;> rfl

theorem issueBeacon_eq (s : MgntXmit φ β) (e : BeaconInput) (x : MgntFrame φ β) :
    s.issueBeacon e x = if toU32 (e.length + txdescSize) > 512 then s else s.dump x := by
  rw [issueBeacon, e.pktlen_eq_length, dumpMgntframeAndWait, dumpMgntframe, ite_self]

/-- A builder that does not hand its frame on leaves everything else as it is. -/
theorem build_of_not_handsOn {b : MgntBuilder} (h : ¬ b.HandsOn s.Stopped) (x : MgntFrame φ β) :
    s.build x b = s := by
  cases b with
  | issueBeacon e =>
    rw [build, issueBeacon_eq]
    split_ifs with hlarge
    · rfl
    · exact dump_of_stopped (not_not.mp fun hs => h ⟨not_lt.mp hlarge, hs⟩) x
  | issueProbersp ieLength =>
    rw [build, issueProbersp]
    split_ifs with hlarge
    · rfl
    · exact dump_of_stopped (not_not.mp fun hs => h ⟨not_lt.mp hlarge, hs⟩) x
  | issueAsocrsp pktType =>
    rw [build, issueAsocrsp]
    split_ifs with htype
    · exact dump_of_stopped (not_not.mp fun hs => h ⟨htype, hs⟩) x
    · rfl
  | issueAssocreq e =>
    obtain ⟨hrate, hs⟩ := not_or.mp h
    rw [← e.length_bssrate_eq_zero_iff] at hrate
    rw [build, issueAssocreq, if_neg hrate]
    exact dump_of_stopped (not_not.mp hs) x
  | plain b => exact dump_of_stopped (not_not.mp h) x
  | ack b waitAck =>
    rw [build, dumpOrWaitAck_eq]
    exact dump_of_stopped (not_not.mp h) x
  | issueActionBssCoexistPacket n k u => exact dump_of_stopped (not_not.mp h) x
  | setFwRsvdPagePkt => exact absurd trivial h

/-- A builder that hands its frame on has it in `rtw_hal_mgnt_xmit`, or in the free queues. -/
theorem items_build_of_handsOn {b : MgntBuilder} (h : b.HandsOn s.Stopped) (x : MgntFrame φ β) :
    (s.build x b).items = s.items + x.items := by
  cases b with
  | issueBeacon e =>
    rw [build, issueBeacon_eq, if_neg (not_lt.mpr h.1), dump_of_not_stopped h.2,
      items_rtwHalMgntXmit]
  | issueProbersp ieLength =>
    rw [build, issueProbersp, if_neg (not_lt.mpr h.1), dumpMgntframe, dump_of_not_stopped h.2,
      items_rtwHalMgntXmit]
  | issueAsocrsp pktType =>
    rw [build, issueAsocrsp, if_pos h.1, dumpMgntframe, dump_of_not_stopped h.2,
      items_rtwHalMgntXmit]
  | issueAssocreq e =>
    rw [build, issueAssocreq]
    split_ifs with hrate
    · rw [items_rtwFreeXmitframe, items_rtwFreeXmitbuf, MgntFrame.items_eq, add_assoc]
    · rw [e.length_bssrate_eq_zero_iff] at hrate
      rw [dumpMgntframe, dump_of_not_stopped (h.resolve_left hrate), items_rtwHalMgntXmit]
  | plain b => rw [build, dumpMgntframe, dump_of_not_stopped h, items_rtwHalMgntXmit]
  | ack b waitAck => rw [build, dumpOrWaitAck_eq, dump_of_not_stopped h, items_rtwHalMgntXmit]
  | issueActionBssCoexistPacket n k u =>
    rw [build, dumpMgntframe, dump_of_not_stopped h, items_rtwHalMgntXmit]
  | setFwRsvdPagePkt => rw [build, items_rtwHalMgntXmit]

/-! ## Steps -/

theorem items_rtwAllocXmitframe {f : φ} {t : MgntXmit φ β} (h : s.rtwAllocXmitframe = some (f, t)) :
    s.items = t.items + {Sum.inl f} := by
  unfold rtwAllocXmitframe at h
  split at h
  · cases h
  · rename_i f' q hq
    cases h
    simp only [items, hq, ← Multiset.cons_coe, ← Multiset.singleton_add, Multiset.map_add,
      Multiset.map_singleton]
    abel

theorem items_rtwAllocXmitbufExt {b : β} {t : MgntXmit φ β}
    (h : s.rtwAllocXmitbufExt = some (b, t)) :
    s.items = t.items + {Sum.inr b} := by
  unfold rtwAllocXmitbufExt at h
  split at h
  · cases h
  · rename_i b' q hq
    cases h
    simp only [items, hq, ← Multiset.cons_coe, ← Multiset.singleton_add, Multiset.map_add,
      Multiset.map_singleton]
    abel

/-- What `alloc_mgtxmitframe` takes is what is missing, and it takes nothing if it fails. -/
theorem items_allocMgtxmitframe (s : MgntXmit φ β) :
    s.items = s.allocMgtxmitframe.2.items + (s.allocMgtxmitframe.1.elim 0 MgntFrame.items) := by
  unfold allocMgtxmitframe
  cases hf : s.rtwAllocXmitframe with
  | none => simp
  | some r =>
    obtain ⟨f, t⟩ := r
    have hitems := items_rtwAllocXmitframe hf
    dsimp only
    cases hb : t.rtwAllocXmitbufExt with
    | none =>
      dsimp only
      rw [items_rtwFreeXmitframe, hitems]
      simp
    | some r =>
      obtain ⟨b, u⟩ := r
      dsimp only [Option.elim_some]
      rw [hitems, items_rtwAllocXmitbufExt hb, MgntFrame.items_eq, add_assoc]

theorem items_enter (s : MgntXmit φ β) (b : MgntBuilder) : (s.enter b).items = s.items := by
  unfold enter
  split_ifs with hb
  · have hitems := s.items_allocMgtxmitframe
    rcases hx : s.allocMgtxmitframe with ⟨x, t⟩
    rw [hx] at hitems
    cases x with
    | none => simpa using hitems.symm
    | some x =>
      dsimp only [Option.elim_some] at hitems ⊢
      rw [hitems]
      simp only [items, ← Multiset.coe_add, Multiset.coe_singleton, Multiset.add_bind,
        Multiset.singleton_bind]
      abel
  · rfl

/-- What may not happen : the builder that goes on does not hand its frame on. -/
def Keeps (s : MgntXmit φ β) : MgntXmitEvent → Prop
  | .leave i => ∀ r ∈ s.building[i]?, r.1.HandsOn s.Stopped
  | _ => True

theorem ne_add_items (m : Multiset (φ ⊕ β)) (x : MgntFrame φ β) : m ≠ m + x.items := by
  intro h
  have hcard := congrArg Multiset.card h
  simp only [MgntFrame.items, Multiset.card_add, Multiset.insert_eq_cons, Multiset.card_cons,
    Multiset.card_singleton] at hcard
  omega

theorem keeps_leave {i : ℕ} {b : MgntBuilder} {x : MgntFrame φ β}
    (h : s.building[i]? = some (b, x)) :
    s.Keeps (.leave i) ↔ b.HandsOn s.Stopped := by
  simp [Keeps, h]

theorem items_leave_iff (s : MgntXmit φ β) (i : ℕ) :
    (s.leave i).items = s.items ↔ s.Keeps (.leave i) := by
  unfold leave
  cases hr : s.building[i]? with
  | none => exact iff_of_true rfl (by simp [Keeps, hr])
  | some r =>
    obtain ⟨b, x⟩ := r
    have hitems : s.items = { s with building := s.building.eraseIdx i }.items + x.items := by
      simp only [items, coe_eq_of_getElem? hr, Multiset.add_bind, Multiset.singleton_bind]
      abel
    have hstopped : { s with building := s.building.eraseIdx i }.Stopped = s.Stopped := rfl
    rw [keeps_leave hr, ← hstopped]
    dsimp only
    by_cases hb : b.HandsOn { s with building := s.building.eraseIdx i }.Stopped
    · exact iff_of_true (by rw [items_build_of_handsOn hb, hitems]) hb
    · rw [build_of_not_handsOn hb, hitems]
      exact iff_of_false (ne_add_items _ x) hb

/-- Every step but that of a builder that loses its frame keeps all items. -/
theorem items_step_iff (s : MgntXmit φ β) (e : MgntXmitEvent) :
    (s.step e).items = s.items ↔ s.Keeps e := by
  cases e with
  | enter b => exact iff_of_true (s.items_enter b) trivial
  | leave i => exact s.items_leave_iff i
  | write i status =>
    refine iff_of_true ?_ trivial
    rw [step]
    cases hx : s.handed[i]? with
    | none => rfl
    | some x =>
      dsimp only
      rw [items_rtwDumpXframe]
      simp only [items, coe_eq_of_getElem? hx, Multiset.add_bind, Multiset.singleton_bind]
      abel
  | complete i status =>
    refine iff_of_true ?_ trivial
    rw [step]
    cases hb : s.submitted[i]? with
    | none => rfl
    | some b =>
      dsimp only
      rw [items_usbWritePortComplete]
      simp only [items, coe_eq_of_getElem? hb, Multiset.map_add, Multiset.map_singleton]
      abel
  | takeData =>
    refine iff_of_true ?_ trivial
    rw [step]
    cases hf : s.rtwAllocXmitframe with
    | none => rfl
    | some r =>
      obtain ⟨f, t⟩ := r
      dsimp only
      rw [items_rtwAllocXmitframe hf]
      simp only [items, ← Multiset.coe_add, Multiset.coe_singleton, Multiset.map_add,
        Multiset.map_singleton]
      abel
  | freeData i =>
    refine iff_of_true ?_ trivial
    rw [step]
    cases hf : s.dataFrames[i]? with
    | none => rfl
    | some f =>
      dsimp only
      rw [items_rtwFreeXmitframe]
      simp only [items, coe_eq_of_getElem? hf, Multiset.map_add, Multiset.map_singleton]
      abel
  | setFlags a b c d => exact iff_of_true rfl trivial

/-! ## Runs -/

/-- Nothing is in use : no data packet has a frame, no builder runs, nothing is on its way. -/
structure Idle (s : MgntXmit φ β) : Prop where
  dataFrames : s.dataFrames = []
  building : s.building = []
  handed : s.handed = []
  submitted : s.submitted = []

/-- Nothing was lost since the state `s₀`, so a builder that comes while nothing is in use gets a
frame. -/
structure Accounted (s₀ s : MgntXmit φ β) : Prop where
  items : s.items = s₀.items
  alloc : ∀ f b, Sum.inl f ∈ s₀.items → Sum.inr b ∈ s₀.items → s.Idle → s.allocMgtxmitframe.1.isSome

theorem Idle.items_eq (h : s.Idle) :
    s.items = (s.freeXmitQueue : Multiset φ).map Sum.inl + (s.freeXmitExtbufQueue : Multiset β).map
      Sum.inr := by
  simp [items, h.dataFrames, h.building, h.handed, h.submitted]

/-- The queues have all items if nothing is in use. -/
theorem isSome_allocMgtxmitframe (h : s.Idle) {f : φ} {b : β} (hf : Sum.inl f ∈ s.items)
    (hb : Sum.inr b ∈ s.items) : s.allocMgtxmitframe.1.isSome := by
  simp only [h.items_eq, Multiset.mem_add, Multiset.mem_map, Multiset.mem_coe] at hf hb
  have hframes : s.freeXmitQueue ≠ [] := by
    rintro hnil
    simp [hnil] at hf
  have hbufs : s.freeXmitExtbufQueue ≠ [] := by
    rintro hnil
    simp [hnil] at hb
  obtain ⟨f', fs, hfs⟩ := List.exists_cons_of_ne_nil hframes
  obtain ⟨b', bs, hbs⟩ := List.exists_cons_of_ne_nil hbufs
  simp [allocMgtxmitframe, rtwAllocXmitframe, rtwAllocXmitbufExt, hfs, hbs]

theorem accounted_iff_items {s₀ : MgntXmit φ β} : Accounted s₀ s ↔ s.items = s₀.items := by
  refine ⟨Accounted.items, fun h => ⟨h, fun f b hf hb hidle => ?_⟩⟩
  rw [← h] at hf hb
  exact isSome_allocMgtxmitframe hidle hf hb

/-- In a run nothing is lost exactly when every builder that goes on hands its frame on. -/
theorem accounted_iff (s : MgntXmit φ β) (es : List MgntXmitEvent) :
    (∀ pre, pre <+: es → Accounted s (run step s pre)) ↔ Along step Keeps s es := by
  simp only [accounted_iff_items]
  refine @forall_prefix_iff_along _ _ step Keeps (fun _ => True) (fun t => t.items = s.items)
    (fun _ _ _ => trivial) (fun u e _ hu => ?_) es s trivial rfl
  rw [← hu, items_step_iff]

/-! ## The queues run empty -/

/-- `n` calls of the builder `b`, each to its end. -/
def calls (b : MgntBuilder) : ℕ → List MgntXmitEvent
  | 0 => []
  | n + 1 => .enter b :: .leave 0 :: calls b n

theorem step_call_lost {b : MgntBuilder} {f : φ} {fs : List φ} {x : β} {bs : List β}
    (halloc : b.allocates = true) (hlost : ¬ b.HandsOn s.Stopped) (hbuilding : s.building = [])
    (hfs : s.freeXmitQueue = f :: fs) (hbs : s.freeXmitExtbufQueue = x :: bs) :
    (s.step (.enter b)).step (.leave 0) =
      { s with freeXmitQueue := fs, freeXmitExtbufQueue := bs } := by
  have henter : s.step (.enter b)
      = { s with freeXmitQueue := fs, freeXmitExtbufQueue := bs, building := [(b, ⟨f, x⟩)] } := by
    simp [step, enter, halloc, allocMgtxmitframe, rtwAllocXmitframe, rtwAllocXmitbufExt, hfs, hbs,
      hbuilding]
  rw [henter]
  refine (build_of_not_handsOn ?_ ⟨f, x⟩).trans ?_
  · exact hlost
  · rw [hbuilding]
    rfl

/-- A builder that loses its frame takes one frame and one buffer out of the queues for good. -/
theorem run_lost {b : MgntBuilder} (halloc : b.allocates = true) :
    ∀ {n : ℕ} {s : MgntXmit φ β}, ¬ b.HandsOn s.Stopped → s.building = [] →
      n ≤ s.freeXmitQueue.length → n ≤ s.freeXmitExtbufQueue.length →
      run step s (calls b n) = { s with
        freeXmitQueue := s.freeXmitQueue.drop n, freeXmitExtbufQueue :=
          s.freeXmitExtbufQueue.drop n }
  | 0, s, _, _, _, _ => rfl
  | n + 1, s, hlost, hbuilding, hf, hb => by
    obtain ⟨f, fs, hfs⟩ := List.exists_cons_of_length_pos (show 0 < s.freeXmitQueue.length by omega)
    obtain ⟨x, bs, hbs⟩ :=
      List.exists_cons_of_length_pos (show 0 < s.freeXmitExtbufQueue.length by omega)
    rw [hfs, List.length_cons] at hf
    rw [hbs, List.length_cons] at hb
    rw [calls, run_cons, run_cons, step_call_lost halloc hlost hbuilding hfs hbs,
      run_lost halloc (s :=
      { s with freeXmitQueue := fs, freeXmitExtbufQueue := bs }) hlost hbuilding
        (Nat.le_of_succ_le_succ hf) (Nat.le_of_succ_le_succ hb), hfs, hbs]
    rfl

/-- With as many such calls as there are buffers no builder gets a frame any more. -/
theorem allocMgtxmitframe_of_lost {b : MgntBuilder} (halloc : b.allocates = true)
    (hlost : ¬ b.HandsOn s.Stopped) (hbuilding : s.building = [])
    (hf : s.freeXmitExtbufQueue.length ≤ s.freeXmitQueue.length) :
    (run step s (calls b s.freeXmitExtbufQueue.length)).allocMgtxmitframe.1 = none := by
  rw [run_lost halloc hlost hbuilding hf le_rfl, List.drop_length]
  unfold allocMgtxmitframe
  split
  · rfl
  · rename_i f t ht
    have hbufs : t.freeXmitExtbufQueue = [] := by
      unfold rtwAllocXmitframe at ht
      split at ht
      · cases ht
      · cases ht
        rfl
    rw [rtwAllocXmitbufExt, hbufs]

/-- The driver after `_rtw_init_xmit_priv`. -/
def sampleXmit : MgntXmit ℕ ℕ where
  freeXmitQueue := List.range nrXmitframe
  freeXmitExtbufQueue := List.range nrXmitExtbuff
  dataFrames := []
  building := []
  handed := []
  submitted := []
  bDriverStopped := false
  bSurpriseRemoved := false
  bWritePortCancel := false
  pnpBstopTrx := false

/-- 32 probe responses for a network with 800 bytes of elements take all buffers out of the queue,
and no builder gets a frame although nothing is in use. -/
theorem not_accounted_sampleXmit :
    ¬ ∀ pre, pre <+: calls (.issueProbersp 800) nrXmitExtbuff → Accounted sampleXmit (run step sampleXmit pre) := by
  intro hall
  have hlost : ¬ (MgntBuilder.issueProbersp 800).HandsOn sampleXmit.Stopped :=
    fun h => absurd h.1 (by decide)
  have hacc := hall _ List.prefix_rfl
  have hrun := @run_lost ℕ ℕ (.issueProbersp 800) rfl nrXmitExtbuff sampleXmit hlost rfl
    (by simp [sampleXmit]; decide)
    (by simp [sampleXmit])
  have hidle : (run step sampleXmit (calls (.issueProbersp 800) nrXmitExtbuff)).Idle := by
    rw [hrun]
    exact ⟨rfl, rfl, rfl, rfl⟩
  have hnone := @allocMgtxmitframe_of_lost ℕ ℕ sampleXmit (.issueProbersp 800) rfl hlost rfl (by
    simp [sampleXmit]
    decide)
  have hbufs : sampleXmit.freeXmitExtbufQueue.length = nrXmitExtbuff := by simp [sampleXmit]
  rw [hbufs] at hnone
  have hsome := hacc.alloc 0 0 (by simp [items, sampleXmit, nrXmitframe])
    (by simp [items, sampleXmit, nrXmitExtbuff])
    hidle
  rw [hnone] at hsome
  cases hsome

end MgntXmit

end Rtl8188eu
