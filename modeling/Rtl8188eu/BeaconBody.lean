import Rtl8188eu.BeaconElements
import Rtl8188eu.MgntLeaks

/-!
# The body of a beacon

`issue_beacon` of an access point copies the elements of the network to the frame. A group owner
with a WPS element puts two attributes behind it on the way (`copyExtended`), and every other access
point hides the SSID in the copy (`copyHidden`). A group owner appends a P2P element.

`announces_iff` : the body is the announced one exactly if the configuration asks for one of the two
changes only, the extended WPS element is not longer than its length byte says, and the `memcpy` of
the hidden SSID does not overlap.
-/

namespace Rtl8188eu

open Tlv

/-! ## The functions of the source -/

/-- `update_hidden_ssid` with what `memcpy` does to regions that overlap. -/
def updateHiddenSsidWith (cp : Memcpy) (m : Mem) (ies iesLen : ℤ) (hiddenSsidMode : ℕ) : ℤ × Mem :=
  match rtwGetIe m ies ssidIe (toInt iesLen) with
  | none => (0, m)
  | some (ssid, ssidLenOri) =>
    if 0 < ssidLenOri then
      match hiddenSsidMode with
      | 1 =>
        let nextIe := ssid + 2 + ssidLenOri
        let remainLen := (toU32 (iesLen - (nextIe - ies))).toNat
        let m := m.write (ssid + 1) [0]
        (-ssidLenOri, cp.run m (ssid + 2) nextIe remainLen)
      | 2 => (0, m.write (ssid + 2) (List.replicate ssidLenOri 0))
      | _ => (0, m)
    else (0, m)

namespace BeaconInput

variable (e : BeaconInput)

/-- The body of the element of `build_beacon_p2p_ie`. -/
def p2pBody : List UInt8 :=
  let group : UInt8 := if e.provisioning then 0x49 else 0x09
  p2pOui ++ rtwSetP2pAttrContent 0x02 [0x22, group] ++ rtwSetP2pAttrContent 0x03 e.deviceAddr.toList

/-- The elements up to the end of the WPS element, what a group owner inserts, and the others. -/
def copyExtended (wpsie : ℤ) (wpsielen : ℕ) : Mem × ℤ :=
  let wpsOffset := wpsie - e.ies
  let remainderIelen := toU32 (e.ieLength - wpsOffset - wpsielen)
  let m := e.m.write e.pframe (e.m.read e.ies (wpsOffset + wpsielen).toNat)
  let pframe := e.pframe + (wpsOffset + wpsielen)
  let m := m.write pframe e.wpsInsert
  let m := m.write (e.pframe + wpsOffset + 1) [UInt8.ofNat (wpsielen - 2 + e.wpsInsert.length)]
  let pframe := pframe + e.wpsInsert.length
  (m.write pframe (m.read (wpsie + wpsielen) remainderIelen.toNat), pframe + remainderIelen)

/-- The elements with the hidden SSID. -/
def copyHidden (cp : Memcpy) : Mem × ℤ :=
  let m := e.m.write e.pframe (e.m.read e.ies e.ieLength)
  let hidden := updateHiddenSsidWith cp m (e.pframe + beaconIeOffset) (toU32 (e.ieLength - beaconIeOffset))
    e.hiddenSsidMode
  (hidden.2, e.pframe + (e.ieLength + hidden.1))

/-- The copy of the elements, and the end of it. -/
def copyElements (cp : Memcpy) : Mem × ℤ :=
  match e.role, e.wpsie with
  | .go, some (wpsie, wpsielen) => e.copyExtended wpsie wpsielen
  | _, _ => e.copyHidden cp

/-- `issue_beacon` of an access point : the memory with the frame body at `pframe`. -/
def apBody (cp : Memcpy) : Mem :=
  let (m, pframe) := e.copyElements cp
  if e.role = .go then (rtwSetIe m pframe vendorSpecificIe e.p2pBody 0).2.1 else m

theorem length_p2pBody : e.p2pBody.length = 18 := by
  simp [p2pBody, rtwSetP2pAttrContent, p2pOui]

end BeaconInput

/-! ## The announced elements -/

/-- What hiding leaves of an SSID. -/
def hiddenSsid (hiddenSsidMode : ℕ) (ssid : List UInt8) : List UInt8 :=
  match hiddenSsidMode with
  | 1 => []
  | 2 => List.replicate ssid.length 0
  | _ => ssid

theorem length_hiddenSsid_le (mode : ℕ) (ssid : List UInt8) :
    (hiddenSsid mode ssid).length ≤ ssid.length := by
  unfold hiddenSsid
  split <;> simp

/-- The element with the hidden SSID. -/
def hiddenElem (mode : ℕ) (s : Elem) : Elem :=
  ⟨s.id, hiddenSsid mode s.body, (length_hiddenSsid_le mode s.body).trans s.length_le⟩

def IsSsid (s : Elem) : Bool := decide (s.id = ssidIe)

/-- The list with the SSID element hidden. -/
def hideSsid (mode : ℕ) (es : List Elem) : List Elem :=
  es.replaceF fun s => if IsSsid s then some (hiddenElem mode s) else none

def IsWps (w : Elem) : Bool := Own vendorSpecificIe wpsOui w

/-- The list with `insert` at the end of the WPS element, if there is one. -/
def Extended (insert : List UInt8) (es fs : List Elem) : Prop :=
  (∃ pre w w' post, es = pre ++ w :: post ∧ (∀ x ∈ pre, IsWps x = false) ∧ IsWps w = true ∧ w'.id = w.id ∧
    w'.body = w.body ++ insert ∧ fs = pre ++ w' :: post) ∨ (∀ x ∈ es, IsWps x = false) ∧ fs = es

/-- The bytes of the frame buffer behind the header. -/
def beaconRoom : ℕ := 1536 - 40 - 24

/-- The elements of an access point, apart from the frame. -/
structure ApConfig (e : BeaconInput) where
  fixed : List UInt8
  elems : List Elem
  length_fixed : fixed.length = 12
  length_eq : e.ieLength = 12 + (encode elems).length
  length_le : e.ieLength ≤ maxIeSz
  holds : e.m.Holds e.ies (fixed ++ encode elems)
  apart : e.ies + e.ieLength ≤ e.pframe ∨ e.pframe + beaconRoom ≤ e.ies
  name_le : e.deviceName.length ≤ 255

namespace ApConfig

variable {e : BeaconInput} (l : ApConfig e)

/-- The P2P element of a group owner. -/
def p2pElem (e : BeaconInput) : Elem :=
  ⟨vendorSpecificIe, e.p2pBody, by rw [e.length_p2pBody]; decide⟩

/-- The announced elements, `fs` those with the extended WPS element. -/
def announced (e : BeaconInput) (fs : List Elem) : List Elem :=
  hideSsid e.hiddenSsidMode fs ++ if e.role = .go then [p2pElem e] else []

/-- The body is the announced one, and `pktlen` is its length with the header. -/
def Right (cp : Memcpy) : Prop :=
  ∃ fs, (if e.role = .go then Extended e.wpsInsert l.elems fs else fs = l.elems) ∧
    (e.apBody cp).Holds e.pframe (l.fixed ++ encode (announced e fs)) ∧
    e.apPktlen = hdr3addrLen + (l.fixed ++ encode (announced e fs)).length

/-- What `rtw_get_wps_ie` finds in the elements. -/
def wpsHit : Option (ℕ × Elem) :=
  scan vendorSpecificIe wpsOui (fun _ loop => decide (1000 < loop)) (bytesAt e.m (e.ies + e.ieLength)) l.elems 0 0

/-- The hidden SSID is not moved over itself. -/
def Apart : Prop :=
  e.hiddenSsidMode = 1 → ∀ r ∈ firstAt IsSsid l.elems, r.2.body = [] ∨
    (encode l.elems).length ≤ r.1 + 2 + 2 * r.2.body.length

/-- A group owner with a WPS element hides nothing, and the element has room for the two
attributes. -/
def Fits : Prop :=
  match e.role, l.wpsHit with
  | .go, some (_, w) => IsWps w = true ∧ w.body.length + e.wpsInsert.length ≤ 255 ∧
    hideSsid e.hiddenSsidMode l.elems = l.elems
  | _, _ => l.Apart

end ApConfig

/-! ## Hiding the SSID -/

section Hide

variable {mode : ℕ} {es pre post : List Elem} {s : Elem}

theorem hideSsid_of_not_mem (h : ∀ x ∈ es, IsSsid x = false) : hideSsid mode es = es :=
  List.replaceF_of_forall_none fun x hx => by rw [h x hx, if_neg Bool.false_ne_true]

theorem hideSsid_append (hpre : ∀ x ∈ pre, IsSsid x = false) :
    hideSsid mode (pre ++ es) = pre ++ hideSsid mode es := by
  induction pre with
  | nil => rfl
  | cons x pre ih =>
    obtain ⟨hx, hpre⟩ := List.forall_mem_cons.mp hpre
    rw [List.cons_append, List.cons_append, ← ih hpre, hideSsid,
      List.replaceF_cons_of_none _ (by rw [hx, if_neg Bool.false_ne_true])]
    rfl

theorem hideSsid_cons (hs : IsSsid s = true) : hideSsid mode (s :: es) = hiddenElem mode s :: es :=
  List.replaceF_cons_of_some _ (if_pos hs)

/-- There is no SSID element, or the first one is hidden. -/
theorem hideSsid_cases (mode : ℕ) (es : List Elem) :
    (firstAt IsSsid es = none ∧ hideSsid mode es = es) ∨ ∃ pre s post, es = pre ++ s :: post ∧
    IsSsid s = true ∧
      firstAt IsSsid es = some ((encode pre).length, s) ∧
        hideSsid mode es = pre ++ hiddenElem mode s :: post := by
  rcases firstAt_cases IsSsid es with ⟨-, hnone⟩ | ⟨pre, s, post, rfl, hpre, hs, -, hfirst⟩
  · exact Or.inl ⟨hnone, hideSsid_of_not_mem (firstAt_eq_none.mp hnone)⟩
  · exact Or.inr ⟨pre, s, post, rfl, hs, hfirst, by rw [hideSsid_append hpre, hideSsid_cons hs]⟩

theorem length_hideSsid_le (mode : ℕ) (es : List Elem) :
    (encode (hideSsid mode es)).length ≤ (encode es).length := by
  rcases hideSsid_cases mode es with ⟨-, h⟩ | ⟨pre, s, post, rfl, -, -, h⟩
  · rw [h]
  · have hle := length_hiddenSsid_le mode s.body
    rw [h, encode_append, encode_append, encode_cons, encode_cons]
    simp only [List.length_append, Elem.length_bytes, hiddenElem]
    omega

/-- An element that is no SSID stays where it is if the length does. -/
theorem hideSsid_split {w : Elem} {rest : List Elem} (hw : IsSsid w = false)
    (hlen : (encode (hideSsid mode (pre ++ w :: rest))).length =
    (encode (pre ++ w :: rest)).length) :
    ∃ pre' rest', hideSsid mode (pre ++ w :: rest) = pre' ++ w :: rest' ∧
      (encode pre').length = (encode pre).length := by
  by_cases hpre : ∀ x ∈ pre, IsSsid x = false
  · refine ⟨pre, hideSsid mode rest, ?_, rfl⟩
    have hwrest : ∀ x ∈ [w], IsSsid x = false := fun x hx => by rw [List.mem_singleton.mp hx, hw]
    rw [hideSsid_append hpre, ← List.singleton_append, hideSsid_append hwrest,
      List.singleton_append]
  · rcases firstAt_cases IsSsid pre with ⟨-, hnone⟩ | ⟨as, s, bs, rfl, has, hs, -, -⟩
    · exact absurd (firstAt_eq_none.mp hnone) hpre
    · rw [List.append_assoc, List.cons_append, hideSsid_append has, hideSsid_cons hs] at hlen ⊢
      refine ⟨as ++ hiddenElem mode s :: bs, rest, by rw [List.append_assoc, List.cons_append], ?_⟩
      simp only [encode_append, encode_cons, List.length_append, Elem.length_bytes] at hlen ⊢
      omega

/-- A list without a change has an SSID that hiding leaves alone. -/
theorem hideSsid_eq_self_iff : hideSsid mode es = es ↔
    ∀ s ∈ es.find? IsSsid, hiddenElem mode s = s := by
  rcases firstAt_cases IsSsid es with ⟨hfind, hnone⟩ | ⟨pre, s, post, rfl, hpre, hs, hfind, -⟩
  · rw [hideSsid_of_not_mem (firstAt_eq_none.mp hnone), hfind]
    exact iff_of_true rfl nofun
  · rw [hideSsid_append hpre, hideSsid_cons hs, hfind]
    simp

/-- The elements that are no SSID do not matter. -/
theorem hideSsid_eq_self_congr {w w' : Elem} (hw : IsSsid w = false) (hw' : IsSsid w' = false) :
    hideSsid mode (pre ++ w :: post) = pre ++ w :: post ↔
      hideSsid mode (pre ++ w' :: post) = pre ++ w' :: post := by
  rw [hideSsid_eq_self_iff, hideSsid_eq_self_iff, List.find?_append, List.find?_append,
    List.find?_cons_of_neg (by simp [hw]), List.find?_cons_of_neg (by simp [hw'])]

end Hide

/-! ## The hidden SSID in the frame -/

section Frame

variable {cp : Memcpy} {m : Mem} {p : ℤ} {mode : ℕ} {fixed : List UInt8} {es : List Elem}

/-- The length changes as it does with any `memcpy`. -/
theorem fst_updateHiddenSsidWith (ies iesLen : ℤ) :
    (updateHiddenSsidWith cp m ies iesLen mode).1 = (updateHiddenSsid m ies iesLen mode).1 := by
  unfold updateHiddenSsidWith updateHiddenSsid
  rcases rtwGetIe m ies ssidIe (toInt iesLen) with _ | ⟨ssid, ssidLenOri⟩
  · rfl
  · dsimp only
    split_ifs with hpos
    · match mode with
      | 0 => rfl
      | 1 => rfl
      | 2 => rfl
      | _ + 3 => rfl
    · rfl

/-- The copy over the SSID element and the change of the length in mode 1. -/
def moveDown (cp : Memcpy) (m : Mem) (ssid : ℤ) (ssidLenOri remainLen : ℕ) : Mem :=
  cp.run (m.write (ssid + 1) [0]) (ssid + 2) (ssid + 2 + ssidLenOri) remainLen

/-- What `update_hidden_ssid` does to an SSID element. -/
def hideAt (cp : Memcpy) (m : Mem) (ssid : ℤ) (ssidLenOri remainLen mode : ℕ) : ℤ × Mem :=
  match mode with
  | 1 => (-ssidLenOri, moveDown cp m ssid ssidLenOri remainLen)
  | 2 => (0, m.write (ssid + 2) (List.replicate ssidLenOri 0))
  | _ => (0, m)

theorem updateHiddenSsidWith_none {ies iesLen : ℤ}
    (h : rtwGetIe m ies ssidIe (toInt iesLen) = none) :
    updateHiddenSsidWith cp m ies iesLen mode = (0, m) := by
  unfold updateHiddenSsidWith
  rw [h]

theorem updateHiddenSsidWith_empty {ies iesLen ssid : ℤ}
    (h : rtwGetIe m ies ssidIe (toInt iesLen) = some (ssid, 0)) :
    updateHiddenSsidWith cp m ies iesLen mode = (0, m) := by
  unfold updateHiddenSsidWith
  rw [h]
  rfl

theorem updateHiddenSsidWith_some {ies iesLen ssid : ℤ} {ssidLenOri remainLen : ℕ}
    (h : rtwGetIe m ies ssidIe (toInt iesLen) = some (ssid, ssidLenOri)) (hpos : 0 < ssidLenOri)
    (hremain : toU32 (iesLen - (ssid + 2 + ssidLenOri - ies)) = remainLen) :
    updateHiddenSsidWith cp m ies iesLen mode = hideAt cp m ssid ssidLenOri remainLen mode := by
  unfold updateHiddenSsidWith
  rw [h]
  simp only [hpos, if_true, hremain, Int.toNat_natCast]
  rfl

/-- The first SSID element as `rtw_get_ie` finds it. -/
theorem rtwGetIe_ssid (hfixed : fixed.length = 12) (h : m.Holds p (fixed ++ encode es))
    (hlen : (encode es).length ≤ maxIeSz) :
    rtwGetIe m (p + beaconIeOffset) ssidIe (toInt (encode es).length) =
      (firstAt IsSsid es).map fun r => (p + beaconIeOffset + r.1, r.2.body.length) := by
  obtain ⟨-, hes⟩ := Mem.holds_append.mp h
  rw [hfixed] at hes
  rw [toInt_of_le hlen]
  exact rtwGetIe_eq (bytesAt_of_read hes) ssidIe

theorem length_around (pre post : List Elem) (f : Elem) : (encode (pre ++ f :: post)).length =
    (encode pre).length + (f.body.length + 2) + (encode post).length := by
  rw [encode_append, encode_cons, List.length_append, List.length_append, Elem.length_bytes]
  ring

/-- `update_hidden_ssid` at the SSID element of a list. -/
theorem updateHiddenSsidWith_around {pre post : List Elem} {s : Elem} (hfixed : fixed.length = 12)
    (h : m.Holds p (fixed ++ encode (pre ++ s :: post)))
    (hlen : (encode (pre ++ s :: post)).length ≤ maxIeSz)
    (hfirst : firstAt IsSsid (pre ++ s :: post) = some ((encode pre).length, s))
    (hbody : s.body ≠ []) :
    updateHiddenSsidWith cp m (p + beaconIeOffset) (encode (pre ++ s :: post)).length mode =
      hideAt cp m (p + (fixed ++ encode pre).length) s.body.length (encode post).length mode := by
  have hpos : 0 < s.body.length := List.length_pos_iff.mpr hbody
  have hget := rtwGetIe_ssid hfixed h hlen
  have hbefore : p + beaconIeOffset + ((encode pre).length : ℤ) =
    p + (fixed ++ encode pre).length := by
    rw [List.length_append, hfixed, beaconIeOffset]
    push_cast
    ring
  rw [hfirst, Option.map_some, hbefore] at hget
  refine updateHiddenSsidWith_some hget hpos (toU32_of_le (n := (encode post).length) ?_ ?_)
  · rw [length_around] at hlen
    omega
  · rw [← hbefore, length_around]
    push_cast
    ring

theorem hiddenElem_of_nil {s : Elem} (h : s.body = []) : hiddenElem mode s = s := by
  obtain ⟨id, body, hle⟩ := s
  obtain rfl : body = [] := h
  match mode with
  | 0 => rfl
  | 1 => rfl
  | 2 => rfl
  | _ + 3 => rfl

/-- Behind the header without a body is what was behind the body. -/
theorem moveDown_holds {xs zs : List UInt8} {s : Elem} (h : m.Holds p (xs ++ (s.bytes ++ zs)))
    (hcp : cp.Moves zs.length s.body.length) :
    (moveDown cp m (p + xs.length) s.body.length zs.length).Holds p
    (xs ++ ((hiddenElem 1 s).bytes ++ zs)) := by
  have hparts : m.Holds p ((xs ++ [s.id]) ++ ([s.len] ++ (s.body ++ zs))) := by
    rw [List.append_assoc]
    exact h
  have hid : p + ((xs ++ [s.id]).length : ℤ) = p + xs.length + 1 := by
    rw [List.length_append, List.length_singleton]
    push_cast
    ring
  have hclear := @Mem.Holds.write_between m p _ _ _ [0] hparts rfl
  rw [hid] at hclear
  obtain ⟨hkeep, hrest⟩ := Mem.holds_append.mp ((List.append_assoc _ _ _).symm ▸ hclear)
  have hdst : p + ((xs ++ [s.id] ++ [0]).length : ℤ) = p + xs.length + 2 := by
    rw [List.length_append, List.length_append, List.length_singleton, List.length_singleton]
    push_cast
    ring
  have hread := (Mem.holds_append.mp hrest).2
  have hend := hkeep.write_behind zs
  rw [hdst] at hread hend
  have hbytes : xs ++ ((hiddenElem 1 s).bytes ++ zs) = xs ++ [s.id] ++ [0] ++ zs := by
    simp only [List.append_assoc]
    rfl
  rw [moveDown, hcp, hread, hbytes]
  exact hend

/-- The body is zeroed. -/
theorem zero_holds {xs zs : List UInt8} {s : Elem} (h : m.Holds p (xs ++ (s.bytes ++ zs))) :
    (m.write (p + xs.length + 2) (List.replicate s.body.length 0)).Holds p
    (xs ++ ((hiddenElem 2 s).bytes ++ zs)) := by
  have hlen : (hiddenElem 2 s).len = s.len := by
    simp [Elem.len, hiddenElem, hiddenSsid]
  have hdst : p + ((xs ++ [s.id, s.len]).length : ℤ) = p + xs.length + 2 := by
    rw [List.length_append, List.length_cons, List.length_singleton]
    push_cast
    ring
  have hold : m.Holds p ((xs ++ [s.id, s.len]) ++ (s.body ++ zs)) := by
    rw [List.append_assoc]
    exact h
  have hw := @Mem.Holds.write_between m p _ _ _ (hiddenElem 2 s).body hold List.length_replicate
  rw [hdst, List.append_assoc] at hw
  rw [Elem.bytes, hlen]
  exact hw

/-- Hiding the SSID leaves the list with the hidden element, and returns the difference of the
lengths. -/
theorem updateHiddenSsidWith_spec (hfixed : fixed.length = 12) (h : m.Holds p (fixed ++ encode es))
    (hlen : (encode es).length ≤ maxIeSz)
    (hcp : mode = 1 → ∀ r ∈ firstAt IsSsid es, r.2.body ≠ [] →
      cp.Moves ((encode es).length - (r.1 + 2 + r.2.body.length)) r.2.body.length) :
    ∃ m', updateHiddenSsidWith cp m (p + beaconIeOffset) (encode es).length mode =
        (((encode (hideSsid mode es)).length : ℤ) - (encode es).length, m') ∧
      m'.Holds p (fixed ++ encode (hideSsid mode es)) := by
  have hget := rtwGetIe_ssid hfixed h hlen
  rcases hideSsid_cases mode es with ⟨hnone, hhide⟩ | ⟨pre, s, post, rfl, hs, hfirst, hhide⟩
  · rw [hnone] at hget
    rw [updateHiddenSsidWith_none hget, hhide, sub_self]
    exact ⟨m, rfl, h⟩
  by_cases hbody : s.body = []
  · rw [hfirst, Option.map_some, hbody] at hget
    rw [updateHiddenSsidWith_empty hget, hhide, hiddenElem_of_nil hbody, sub_self]
    exact ⟨m, rfl, h⟩
  have hparts (f : Elem) :
    fixed ++ encode (pre ++ f :: post) = (fixed ++ encode pre) ++ (f.bytes ++ encode post) := by
    rw [encode_append, encode_cons, List.append_assoc]
  rw [updateHiddenSsidWith_around hfixed h hlen hfirst hbody, hhide, hparts, length_around,
    length_around]
  rw [hparts] at h
  match mode with
  | 0 => exact ⟨m, congrArg (·, m) (sub_self _).symm, h⟩
  | 1 =>
    have hmoves := hcp rfl _ hfirst hbody
    have hremain : (encode pre).length + (s.body.length + 2) + (encode post).length -
        ((encode pre).length + 2 + s.body.length) = (encode post).length := by omega
    rw [length_around, hremain] at hmoves
    refine ⟨_, congrArg (·, _) ?_, moveDown_holds h hmoves⟩
    change -(s.body.length : ℤ) =
      (((encode pre).length + (0 + 2) + (encode post).length : ℕ) : ℤ) - _
    push_cast
    ring
  | 2 =>
    have hzero : (hiddenElem 2 s).body.length = s.body.length := List.length_replicate
    rw [hzero]
    exact ⟨_, congrArg (·, _) (sub_self _).symm, zero_holds h⟩
  | _ + 3 => exact ⟨m, congrArg (·, m) (sub_self _).symm, h⟩

end Frame

/-! ## The WPS element in the frame -/

/-- `rtw_get_wps_ie` finds nothing, or the first element that is or is taken for a WPS element. -/
theorem wpsScan_cases {tail : Stream' UInt8} :
    ∀ {es : List Elem} {cnt loop : ℕ}, loop + es.length ≤ 1001 →
    (scan vendorSpecificIe wpsOui (fun _ loop => decide (1000 < loop)) tail es cnt loop = none ∧
        ∀ x ∈ es, IsWps x = false) ∨
      ∃ pre w post, es = pre ++ w :: post ∧ (∀ x ∈ pre, IsWps x = false) ∧ w.id = vendorSpecificIe ∧
        scan vendorSpecificIe wpsOui (fun _ loop => decide (1000 < loop)) tail es cnt loop =
          some (cnt + (encode pre).length, w)
  | [], _, _, _ => Or.inl ⟨rfl, nofun⟩
  | e :: es, cnt, loop, h => by
    rw [List.length_cons] at h
    have hup : ¬decide (1000 < loop) = true := by
      rw [decide_eq_true_iff]
      omega
    rw [scan, if_neg hup]
    by_cases hhit : hits vendorSpecificIe wpsOui e es tail = true
    · rw [if_pos hhit]
      rw [hits, decide_eq_true_iff] at hhit
      exact Or.inr ⟨[], e, es, rfl, nofun, hhit.1, rfl⟩
    have he : IsWps e = false := by
      rw [← Bool.not_eq_true]
      exact fun hown => hhit (hits_iff.mpr (Or.inl hown))
    rw [if_neg hhit]
    rcases @wpsScan_cases tail es (cnt + (e.body.length + 2)) (loop + 1) (by omega) with
      ⟨hnone, hall⟩ | ⟨pre, w, post, rfl, hpre, hid, hsome⟩
    · exact Or.inl ⟨hnone, List.forall_mem_cons.mpr ⟨he, hall⟩⟩
    · refine Or.inr ⟨e :: pre, w, post, rfl, List.forall_mem_cons.mpr ⟨he, hpre⟩, hid, ?_⟩
      rw [hsome, encode_cons, List.length_append, Elem.length_bytes]
      congr 2
      omega

namespace ApConfig

variable {e : BeaconInput} (l : ApConfig e)

theorem length_elems_le : (encode l.elems).length ≤ 756 := by
  have hle := l.length_le
  rw [l.length_eq, maxIeSz] at hle
  omega

theorem bytesAt_elems : bytesAt e.m (e.ies + beaconIeOffset) = encode l.elems ++ₛ bytesAt e.m
    (e.ies + e.ieLength) := by
  obtain ⟨-, hes⟩ := Mem.holds_append.mp l.holds
  rw [l.length_fixed] at hes
  have hend : e.ies + (e.ieLength : ℤ) = e.ies + beaconIeOffset + (encode l.elems).length := by
    rw [l.length_eq, beaconIeOffset]
    push_cast
    ring
  rw [hend]
  exact bytesAt_of_read hes

/-- The length without the fixed bytes. -/
theorem toU32_length : toU32 (e.ieLength - beaconIeOffset) = (encode l.elems).length := by
  refine toU32_of_le (l.length_elems_le.trans (by decide)) ?_
  rw [l.length_eq, beaconIeOffset]
  push_cast
  ring

theorem wpsie_eq : e.wpsie = l.wpsHit.map (found (e.ies + beaconIeOffset)) := by
  have hp : bytesAt e.m (e.ies + beaconIeOffset + (0 : ℕ)) =
      encode l.elems ++ₛ bytesAt e.m (e.ies + e.ieLength) := by
    rw [Nat.cast_zero, add_zero]
    exact l.bytesAt_elems
  rw [BeaconInput.wpsie, l.toU32_length, Int.toNat_natCast, rtwGetWpsIe,
    ieSearch_eq_scan hp (Nat.zero_add _).symm (Nat.le_add_left _ _)]
  rfl

/-- Nothing is found and there is no WPS element, or an element is found. -/
theorem wpsHit_cases : (l.wpsHit = none ∧ ∀ x ∈ l.elems, IsWps x = false) ∨
    ∃ pre w post, l.elems = pre ++ w :: post ∧ (∀ x ∈ pre, IsWps x = false) ∧
      w.id = vendorSpecificIe ∧
      l.wpsHit = some ((encode pre).length, w) := by
  have hlen : 0 + l.elems.length ≤ 1001 := by
    have hle := length_le_encode l.elems
    have hmax := l.length_elems_le
    omega
  rcases @wpsScan_cases (bytesAt e.m (e.ies + e.ieLength)) l.elems 0 0 hlen with hnone | ⟨pre, w,
    post, hes, hpre, hid, hsome⟩
  · exact Or.inl hnone
  · exact Or.inr ⟨pre, w, post, hes, hpre, hid, by rw [wpsHit, hsome, Nat.zero_add]⟩

/-- The bytes that `copyExtended` leaves. -/
def extendedBytes (pre : List Elem) (w : Elem) (post : List Elem) : List UInt8 :=
  (l.fixed ++ encode pre ++ [w.id]) ++
    ([UInt8.ofNat (w.body.length + e.wpsInsert.length)] ++ (w.body ++ e.wpsInsert)) ++ encode post

theorem length_extendedBytes (pre post : List Elem) (w : Elem) :
    (l.extendedBytes pre w post).length =
    12 + (encode (pre ++ w :: post)).length + e.wpsInsert.length := by
  rw [extendedBytes, length_around]
  simp only [List.length_append, List.length_singleton, l.length_fixed]
  ring

/-- What is behind an address of the elements is still there after a write to the frame. -/
theorem read_write_frame (l : ApConfig e) {m : Mem} {bs : List UInt8} {k n i : ℕ}
    (hfit : k + bs.length ≤ beaconRoom)
    (hn : i + n ≤ e.ieLength) : (m.write (e.pframe + k) bs).read (e.ies + i) n = m.read
    (e.ies + i) n := by
  refine Mem.read_write_of_disjoint m ?_
  rcases l.apart with h | h <;> omega

/-- The elements up to one of them are copied, bytes are put behind it and its length is changed. -/
theorem holds_extended (m : Mem) (p : ℤ) (as xs : List UInt8) (w : Elem) (len : UInt8) :
    (((m.write p (as ++ w.bytes)).write (p + (as ++ w.bytes).length) xs).write (p + as.length + 1)
    [len]).Holds p
      ((as ++ [w.id]) ++ ([len] ++ (w.body ++ xs))) := by
  have hcopied : (m.write p (as ++ w.bytes)).Holds p (as ++ w.bytes) := Mem.read_write_self ..
  have hbehind := hcopied.write_behind xs
  have hparts : (as ++ w.bytes) ++ xs = (as ++ [w.id]) ++ ([w.len] ++ (w.body ++ xs)) := by
    rw [Elem.bytes]
    simp only [List.append_assoc, List.cons_append, List.nil_append]
  have hlenByte : p + ((as ++ [w.id]).length : ℤ) = p + as.length + 1 := by
    rw [List.length_append, List.length_singleton, Nat.cast_add, Nat.cast_one, add_assoc]
  rw [hparts] at hbehind
  have hpatch := @Mem.Holds.write_between _ _ _ _ _ [len] hbehind rfl
  rwa [hlenByte] at hpatch

/-- The frame with the elements, what is inserted behind one of them and the changed length. -/
theorem copyExtended_spec {pre post : List Elem} {w : Elem} (hes : l.elems = pre ++ w :: post) :
    (e.copyExtended (e.ies + beaconIeOffset + (encode pre).length)
    (w.body.length + 2)).1.Holds e.pframe
        (l.extendedBytes pre w post) ∧
      (e.copyExtended (e.ies + beaconIeOffset + (encode pre).length) (w.body.length + 2)).2 =
        e.pframe + (l.extendedBytes pre w post).length := by
  obtain ⟨a, ha⟩ : ∃ a, (l.fixed ++ encode pre).length = a := ⟨_, rfl⟩
  have hsize := l.length_eq
  have hinsert := e.length_wpsInsert
  have hname := l.name_le
  have hmax := l.length_le
  rw [hes, length_around] at hsize
  rw [maxIeSz] at hmax
  have ha' : a = 12 + (encode pre).length := by rw [← ha, List.length_append, l.length_fixed]
  -- the three lengths that the function computes
  have hwps : e.ies + beaconIeOffset + ((encode pre).length : ℤ) - e.ies = a := by
    rw [ha', beaconIeOffset]
    push_cast
    ring
  have hbehind : e.ies + beaconIeOffset + ((encode pre).length : ℤ) + (w.body.length + 2 : ℕ) =
      e.ies + (a + (w.body.length + 2) : ℕ) := by
    rw [ha', beaconIeOffset]
    push_cast
    ring
  have hremain : toU32 (e.ieLength - a - (w.body.length + 2 : ℕ)) = (encode post).length := by
    refine toU32_of_le (by rw [maxIeSz]; omega) ?_
    rw [hsize, ha']
    push_cast
    ring
  have hlast : (a : ℤ) + (w.body.length + 2 : ℕ) = (a + (w.body.length + 2) : ℕ) := by
    push_cast; ring
  have hheld : e.m.Holds e.ies ((l.fixed ++ encode pre ++ w.bytes) ++ encode post) := by
    have h := l.holds
    rw [hes, encode_append, encode_cons] at h
    simpa only [List.append_assoc] using h
  obtain ⟨hcopied, hrest⟩ := Mem.holds_append.mp hheld
  have hcount : (l.fixed ++ encode pre ++ w.bytes).length = a + (w.body.length + 2) := by
    rw [List.length_append, ha, Elem.length_bytes]
  rw [hcount] at hrest
  unfold Mem.Holds at hcopied
  rw [hcount] at hcopied
  unfold BeaconInput.copyExtended
  dsimp only
  rw [hwps, hbehind, hremain, hlast, Int.toNat_natCast, Int.toNat_natCast, hcopied]
  have hthree := holds_extended e.m e.pframe (l.fixed ++ encode pre) e.wpsInsert w
    (UInt8.ofNat (w.body.length + 2 - 2 + e.wpsInsert.length))
  rw [hcount, ha] at hthree
  -- none of the three writes reaches the elements
  have hone : e.pframe + (a : ℤ) + 1 = e.pframe + (a + 1 : ℕ) := by
    push_cast
    ring
  have hzero : e.pframe = e.pframe + (0 : ℕ) := by rw [Nat.cast_zero, add_zero]
  have hpost : (((e.m.write e.pframe (l.fixed ++ encode pre ++ w.bytes)).write
      (e.pframe + (a + (w.body.length + 2) : ℕ)) e.wpsInsert).write (e.pframe + a + 1)
      [UInt8.ofNat (w.body.length + 2 - 2 + e.wpsInsert.length)]).read
      (e.ies + (a + (w.body.length + 2) : ℕ))
      (encode post).length = encode post := by
    rw [hone, l.read_write_frame (by rw [List.length_singleton, beaconRoom]; omega) (by omega),
      l.read_write_frame (by rw [beaconRoom]; omega) (by omega)]
    conv_lhs => rw [hzero]
    rw [l.read_write_frame (by rw [hcount, beaconRoom]; omega) (by omega)]
    exact hrest
  have hend := hthree.write_behind (encode post)
  have hendAt : e.pframe + (((l.fixed ++ encode pre ++ [w.id]) ++
      ([UInt8.ofNat (w.body.length + 2 - 2 + e.wpsInsert.length)] ++
      (w.body ++ e.wpsInsert))).length : ℤ) =
      e.pframe + (a + (w.body.length + 2) : ℕ) + e.wpsInsert.length := by
    simp only [List.length_append, List.length_singleton, ← ha]
    push_cast
    ring
  rw [hendAt] at hend
  rw [hpost]
  refine ⟨hend, ?_⟩
  rw [length_extendedBytes, length_around, ha']
  push_cast
  ring

theorem length_p2pElem : (p2pElem e).bytes.length = 20 := by
  rw [Elem.length_bytes, p2pElem, e.length_p2pBody]

/-- The P2P element of a group owner is put behind the copy. -/
theorem apBody_eq (cp : Memcpy) : e.apBody cp = if e.role = .go then
    (e.copyElements cp).1.write (e.copyElements cp).2
    (p2pElem e).bytes else (e.copyElements cp).1 := rfl

/-- A group owner that finds a WPS element. -/
theorem copyElements_extended {cp : Memcpy} {pre : List Elem} {w : Elem} (hrole : e.role = .go)
    (hhit : l.wpsHit = some ((encode pre).length, w)) : e.copyElements cp =
      e.copyExtended (e.ies + beaconIeOffset + (encode pre).length) (w.body.length + 2) := by
  unfold BeaconInput.copyElements
  rw [l.wpsie_eq, hhit, hrole]
  rfl

theorem copyElements_hidden {cp : Memcpy} (hno : e.role = .go → l.wpsHit = none) :
    e.copyElements cp = e.copyHidden cp := by
  unfold BeaconInput.copyElements
  split
  · rename_i wpsie wpsielen hgo hwps
    rw [l.wpsie_eq, hno hgo] at hwps
    cases hwps
  · rfl

/-- The body of a group owner that finds a WPS element. -/
theorem apBody_extended {cp : Memcpy} {pre post : List Elem} {w : Elem} (hrole : e.role = .go)
    (hes : l.elems = pre ++ w :: post) (hhit : l.wpsHit = some ((encode pre).length, w)) :
    (e.apBody cp).Holds e.pframe (l.extendedBytes pre w post ++ (p2pElem e).bytes) := by
  obtain ⟨hheld, hend⟩ := l.copyExtended_spec hes
  rw [apBody_eq, if_pos hrole, l.copyElements_extended hrole hhit, hend]
  exact hheld.write_behind _

theorem apPktlen_extended {pre post : List Elem} {w : Elem} (hrole : e.role = .go)
    (hes : l.elems = pre ++ w :: post) (hhit : l.wpsHit = some ((encode pre).length, w)) :
    e.apPktlen = hdr3addrLen + (l.extendedBytes pre w post ++ (p2pElem e).bytes).length := by
  unfold BeaconInput.apPktlen
  rw [l.wpsie_eq, hhit, hrole, e.buildBeaconP2pIe_eq, List.length_append, length_p2pElem,
    length_extendedBytes, ← hes]
  simp only [Option.map_some, found, if_true]
  rw [l.length_eq]
  push_cast
  ring

/-- `pktlen` is the end of the copy. -/
theorem apPktlen_hidden (cp : Memcpy) (hno : e.role = .go → l.wpsHit = none) : e.apPktlen =
    hdr3addrLen + ((e.copyHidden cp).2 - e.pframe) + if e.role = .go then 20 else 0 := by
  have hdiff : (e.copyHidden cp).2 - e.pframe = e.ieLength + (updateHiddenSsid
      (e.m.write e.pframe (e.m.read e.ies e.ieLength)) (e.pframe + beaconIeOffset)
      (toU32 (e.ieLength - beaconIeOffset)) e.hiddenSsidMode).1 := by
    rw [← @fst_updateHiddenSsidWith cp]
    exact add_sub_cancel_left _ _
  rw [hdiff]
  unfold BeaconInput.apPktlen
  split
  · rename_i hgo hwps
    rw [l.wpsie_eq, hno hgo] at hwps
    cases hwps
  · split_ifs
    · rw [e.buildBeaconP2pIe_eq]
      rfl
    · rw [add_zero]

/-- The copy before the SSID is hidden. -/
theorem copied_holds : (e.m.write e.pframe (e.m.read e.ies e.ieLength)).Holds e.pframe
    (l.fixed ++ encode l.elems) := by
  have hread : e.m.read e.ies e.ieLength = l.fixed ++ encode l.elems := by
    rw [l.length_eq, ← l.length_fixed, ← List.length_append]
    exact l.holds
  rw [hread]
  exact Mem.read_write_self ..

theorem copyHidden_eq {cp : Memcpy} {r : ℤ × Mem} (h : updateHiddenSsidWith cp
    (e.m.write e.pframe (e.m.read e.ies e.ieLength)) (e.pframe + beaconIeOffset)
    (encode l.elems).length
    e.hiddenSsidMode = r) : e.copyHidden cp = (r.2, e.pframe + (e.ieLength + r.1)) := by
  rw [← l.toU32_length] at h
  rw [← h]
  rfl

/-- The copies over the SSID that do not overlap do what they are made for. -/
def Moved (cp : Memcpy) : Prop :=
  e.hiddenSsidMode = 1 → ∀ r ∈ firstAt IsSsid l.elems, r.2.body ≠ [] →
    cp.Moves ((encode l.elems).length - (r.1 + 2 + r.2.body.length)) r.2.body.length

theorem moved_of_apart (h : l.Apart) (cp : Memcpy) : l.Moved cp := by
  intro hmode r hr hbody
  rcases h hmode r hr with hnil | hle
  · exact absurd hnil hbody
  · exact cp.moves_of_le (by omega)

theorem copyHidden_spec {cp : Memcpy} (hcp : l.Moved cp) :
    (e.copyHidden cp).1.Holds e.pframe (l.fixed ++ encode (hideSsid e.hiddenSsidMode l.elems)) ∧
      (e.copyHidden cp).2 =
      e.pframe + (l.fixed ++ encode (hideSsid e.hiddenSsidMode l.elems)).length := by
  obtain ⟨m', hhidden, hheld⟩ := updateHiddenSsidWith_spec l.length_fixed l.copied_holds
    (l.length_elems_le.trans (by decide)) hcp
  rw [l.copyHidden_eq hhidden]
  refine ⟨hheld, ?_⟩
  rw [List.length_append, l.length_fixed, l.length_eq]
  push_cast
  ring

/-- The end of the copy, whatever `memcpy` does. -/
theorem copyHidden_end (cp : Memcpy) :
    (e.copyHidden cp).2 =
    e.pframe + (l.fixed ++ encode (hideSsid e.hiddenSsidMode l.elems)).length := by
  have hend (cp' : Memcpy) : (e.copyHidden cp').2 = e.pframe + (e.ieLength +
      (updateHiddenSsid (e.m.write e.pframe (e.m.read e.ies e.ieLength)) (e.pframe + beaconIeOffset)
        (toU32 (e.ieLength - beaconIeOffset)) e.hiddenSsidMode).1) := by
    rw [← @fst_updateHiddenSsidWith cp']
    rfl
  rw [← (l.copyHidden_spec fun _ _ _ _ => Memcpy.moves_ascending _ _).2, hend, hend]

/-- The body and the length of an access point that does not extend a WPS element. -/
theorem right_of_moved {cp : Memcpy} (hno : e.role = .go → l.wpsHit = none) (hcp : l.Moved cp) :
    l.Right cp := by
  obtain ⟨hheld, hend⟩ := l.copyHidden_spec hcp
  have hlen := l.apPktlen_hidden cp hno
  rw [hend, add_sub_cancel_left] at hlen
  refine ⟨l.elems, ?_, ?_, ?_⟩
  · split_ifs with hrole
    · rcases l.wpsHit_cases with ⟨-, hall⟩ | ⟨pre, w, post, -, -, -, hhit⟩
      · exact Or.inr ⟨hall, rfl⟩
      · rw [hno hrole] at hhit
        cases hhit
    · rfl
  · rw [apBody_eq, l.copyElements_hidden hno, announced]
    split_ifs with hrole
    · rw [encode_append, ← List.append_assoc, hend, encode_cons, encode_nil, List.append_nil]
      exact hheld.write_behind _
    · rw [List.append_nil]
      exact hheld
  · rw [hlen, announced]
    split_ifs with hrole
    · rw [encode_append, encode_cons, encode_nil, List.append_nil, ← List.append_assoc,
        @List.length_append _ _ (p2pElem e).bytes, length_p2pElem, Nat.cast_add, ← add_assoc]
      rfl
    · rw [List.append_nil, add_zero]

/-- Without a WPS element nothing is extended. -/
theorem eq_of_extended {fs : List Elem} (hno : e.role = .go → l.wpsHit = none)
    (h : if e.role = .go then Extended e.wpsInsert l.elems fs else fs = l.elems) : fs =
    l.elems := by
  split_ifs at h with hrole
  · rcases l.wpsHit_cases with ⟨-, hall⟩ | ⟨pre, w, post, -, -, -, hhit⟩
    · rcases h with ⟨pre, w, w', post, hes, -, hw, -⟩ | ⟨-, hfs⟩
      · have hmem : w ∈ l.elems := by
          rw [hes]
          exact List.mem_append_right _ List.mem_cons_self
        rw [hall w hmem] at hw
        cases hw
      · exact hfs
    · rw [hno hrole] at hhit
      cases hhit
  · exact h

/-- With a `memcpy` that fills the memory the id of the hidden SSID is lost. -/
theorem apart_of_right (hno : e.role = .go → l.wpsHit = none) (h : l.Right (.filling 0xff)) :
    l.Apart := by
  intro hmode r hr
  by_contra hfar
  rw [not_or, not_le] at hfar
  rcases hideSsid_cases e.hiddenSsidMode l.elems with ⟨hnone, -⟩ | ⟨pre, s, post, hes, hs,
    hfirst, hhide⟩
  · rw [hnone] at hr
    cases hr
  obtain rfl : ((encode pre).length, s) = r := Option.some.inj (hfirst.symm.trans hr)
  obtain ⟨hbody, hfar⟩ : s.body ≠ [] ∧ (encode pre).length + 2 + 2 * s.body.length <
    (encode l.elems).length := hfar
  obtain ⟨fs, hext, hheld, -⟩ := h
  obtain rfl := l.eq_of_extended hno hext
  have hsize := l.length_eq
  rw [hes, length_around] at hfar hsize
  have hpos : 0 < s.body.length := List.length_pos_iff.mpr hbody
  -- the byte at the place of the SSID element
  have hid : (e.apBody (.filling 0xff)) (e.pframe + (l.fixed ++ encode pre).length) = ssidIe := by
    rw [announced, hhide, List.append_assoc, encode_append, ← List.append_assoc, List.cons_append,
      encode_cons,
      Elem.bytes, List.cons_append, Mem.holds_append, Mem.holds_cons] at hheld
    rw [hheld.2.1]
    exact of_decide_eq_true hs
  have hfilled : (e.copyHidden (.filling 0xff)).1 = fun _ => 0xff := by
    have hcopied := l.copied_holds
    rw [hes] at hcopied hfirst
    have hhidden := @updateHiddenSsidWith_around
      (.filling 0xff) _ _ e.hiddenSsidMode _ _ _ _ l.length_fixed hcopied
      (by rw [← hes]; exact l.length_elems_le.trans (by decide)) hfirst hbody
    rw [← hes] at hhidden
    rw [l.copyHidden_eq hhidden, hmode]
    exact Memcpy.filling_of_lt 0xff (by omega) hpos
  have hend := l.copyHidden_end (.filling 0xff)
  rw [apBody_eq, l.copyElements_hidden hno, hfilled] at hid
  split_ifs at hid with hrole
  · rw [hend, Mem.write_of_disjoint] at hid
    · cases hid
    · left
      rw [hhide, encode_append, encode_cons, ← List.append_assoc,
        @List.length_append _ (l.fixed ++ encode pre),
        @List.length_append _ (hiddenElem e.hiddenSsidMode s).bytes, Elem.length_bytes]
      push_cast
      omega
  · cases hid

theorem isSsid_of_vendor {w : Elem} (h : w.id = vendorSpecificIe) : IsSsid w = false := by
  rw [IsSsid, h]
  decide

/-- With room in the element the bytes are a list. -/
theorem extendedBytes_eq {pre post : List Elem} {w w' : Elem} (hid : w'.id = w.id)
    (hbody : w'.body = w.body ++ e.wpsInsert) :
    l.extendedBytes pre w post = l.fixed ++ encode (pre ++ w' :: post) := by
  have hlen : w'.len = UInt8.ofNat (w.body.length + e.wpsInsert.length) := by
    rw [Elem.len, hbody, List.length_append]
  rw [extendedBytes, encode_append, encode_cons, Elem.bytes, hid, hlen, hbody]
  simp only [List.append_assoc, List.cons_append, List.nil_append]

/-- A group owner with a WPS element that hides nothing. -/
theorem right_of_extended {cp : Memcpy} {pre post : List Elem} {w : Elem} (hrole : e.role = .go)
    (hes : l.elems = pre ++ w :: post) (hpre : ∀ x ∈ pre, IsWps x = false)
    (hid : w.id = vendorSpecificIe)
    (hhit : l.wpsHit = some ((encode pre).length, w)) (hw : IsWps w = true)
    (hfits : w.body.length + e.wpsInsert.length ≤ 255)
    (hhide : hideSsid e.hiddenSsidMode l.elems = l.elems) : l.Right cp := by
  obtain ⟨w', hid', hbody'⟩ : ∃ w' : Elem, w'.id = w.id ∧ w'.body = w.body ++ e.wpsInsert :=
    ⟨⟨w.id, w.body ++ e.wpsInsert, by rw [List.length_append]; exact hfits⟩, rfl, rfl⟩
  have hhide' : hideSsid e.hiddenSsidMode (pre ++ w' :: post) = pre ++ w' :: post := by
    rw [hes] at hhide
    exact (hideSsid_eq_self_congr (isSsid_of_vendor hid) (isSsid_of_vendor (hid'.trans hid))).mp
      hhide
  have hbytes : l.extendedBytes pre w post ++ (p2pElem e).bytes =
      l.fixed ++ encode (announced e (pre ++ w' :: post)) := by
    rw [announced, hhide', if_pos hrole, encode_append, encode_cons, encode_nil, List.append_nil,
      l.extendedBytes_eq hid' hbody', List.append_assoc]
  refine ⟨pre ++ w' :: post, ?_, ?_, ?_⟩
  · rw [if_pos hrole]
    exact Or.inl ⟨pre, w, w', post, hes, hpre, hw, hid', hbody', rfl⟩
  · rw [← hbytes]
    exact l.apBody_extended hrole hes hhit
  · rw [← hbytes]
    exact l.apPktlen_extended hrole hes hhit

/-- The elements of a body that is right, if a WPS element is found. -/
theorem exists_of_right {cp : Memcpy} {pre post : List Elem} {w : Elem} (hrole : e.role = .go)
    (hes : l.elems = pre ++ w :: post) (hhit : l.wpsHit = some ((encode pre).length, w))
    (h : l.Right cp) :
    ∃ fs, Extended e.wpsInsert l.elems fs ∧
      l.fixed ++ encode (hideSsid e.hiddenSsidMode fs) = l.extendedBytes pre w post := by
  obtain ⟨fs, hext, hheld, hlen⟩ := h
  have hheld' := @apBody_extended e l cp pre post w hrole hes hhit
  rw [l.apPktlen_extended hrole hes hhit] at hlen
  rw [if_pos hrole] at hext
  have hlen' : (l.extendedBytes pre w post ++ (p2pElem e).bytes).length =
      (l.fixed ++ encode (announced e fs)).length := by omega
  have hbytes : l.extendedBytes pre w post ++ (p2pElem e).bytes = l.fixed ++ encode
    (announced e fs) := by
    rw [← hheld, ← hlen', hheld']
  rw [announced, if_pos hrole, encode_append, encode_cons, encode_nil, List.append_nil,
    ← List.append_assoc,
    List.append_cancel_right_eq] at hbytes
  exact ⟨fs, hext, hbytes.symm⟩

/-- The first WPS element is what is found, or it is behind that. -/
theorem split_cases {pre pre₂ post post₂ : List Elem} {w v : Elem}
    (h : pre ++ w :: post = pre₂ ++ v :: post₂)
    (hpre : ∀ x ∈ pre, IsWps x = false) (hv : IsWps v = true) :
    (pre = pre₂ ∧ w = v ∧ post = post₂) ∨ ∃ mid, pre₂ = pre ++ w :: mid ∧
    post = mid ++ v :: post₂ := by
  rcases List.append_eq_append_iff.mp h with ⟨mid, hmid, htail⟩ | ⟨mid, hmid, htail⟩
  · cases mid with
    | nil =>
      obtain ⟨hw, hpost⟩ := List.cons.inj htail
      exact Or.inl ⟨by rw [hmid, List.append_nil], hw, hpost⟩
    | cons x mid =>
      obtain ⟨rfl, hpost⟩ := List.cons.inj htail
      exact Or.inr ⟨mid, hmid, hpost⟩
  · cases mid with
    | nil =>
      obtain ⟨hw, hpost⟩ := List.cons.inj htail
      exact Or.inl ⟨by rw [hmid, List.append_nil], hw.symm, hpost.symm⟩
    | cons x mid =>
      obtain ⟨rfl, -⟩ := List.cons.inj htail
      have hno := hpre v (by rw [hmid]; exact List.mem_append_right _ List.mem_cons_self)
      rw [hno] at hv
      cases hv

/-- The length byte is not that of an element that is not extended. -/
theorem false_of_passed {pre post rest : List Elem} {w : Elem} (hid : w.id = vendorSpecificIe)
    (hinsert : e.wpsInsert.length ≤ 255)
    (hlen : (encode (hideSsid e.hiddenSsidMode (pre ++ w :: rest))).length =
    (encode (pre ++ w :: rest)).length)
    (hbytes : l.fixed ++ encode (hideSsid e.hiddenSsidMode (pre ++ w :: rest)) =
    l.extendedBytes pre w post) :
    False := by
  obtain ⟨pre', rest', hhide, hpre'⟩ := hideSsid_split (isSsid_of_vendor hid) hlen
  have hparts : l.fixed ++ encode (pre' ++ w :: rest') =
      (l.fixed ++ encode pre' ++ [w.id]) ++ (w.len :: (w.body ++ encode rest')) := by
    rw [encode_append, encode_cons, Elem.bytes]
    simp only [List.append_assoc, List.cons_append, List.nil_append]
  rw [hhide, hparts, extendedBytes, List.append_assoc _ _ (encode post)] at hbytes
  obtain ⟨-, htail⟩ := List.append_inj hbytes (by
    simp only [List.length_append, List.length_singleton, hpre'])
  have hbyte := congrArg UInt8.toNat (List.cons.inj htail).1
  rw [w.toNat_len, UInt8.toNat_ofNat'] at hbyte
  have hpos := e.length_wpsInsert
  have hle := w.length_le
  omega

/-- If the body is right then what is found is a WPS element with room, and nothing is hidden. -/
theorem extended_of_right {cp : Memcpy} {pre post : List Elem} {w : Elem} (hrole : e.role = .go)
    (hes : l.elems = pre ++ w :: post) (hpre : ∀ x ∈ pre, IsWps x = false)
    (hid : w.id = vendorSpecificIe)
    (hhit : l.wpsHit = some ((encode pre).length, w)) (h : l.Right cp) :
    IsWps w = true ∧ w.body.length + e.wpsInsert.length ≤ 255 ∧
      hideSsid e.hiddenSsidMode l.elems = l.elems := by
  obtain ⟨fs, hext, hbytes⟩ := l.exists_of_right hrole hes hhit h
  have hinsert := e.length_wpsInsert
  have htotal := congrArg List.length hbytes
  rw [length_extendedBytes, ← hes, List.length_append, l.length_fixed] at htotal
  have hhidden := length_hideSsid_le e.hiddenSsidMode fs
  rcases hext with ⟨pre₂, v, v', post₂, hes₂, hpre₂, hv, hvid, hvbody, rfl⟩ | ⟨-, rfl⟩
  · have hvlen := v'.length_le
    rw [hvbody, List.length_append] at hvlen
    rcases split_cases (hes.symm.trans hes₂) hpre hv with ⟨rfl, rfl, rfl⟩ | ⟨mid, rfl, hpost⟩
    · rw [l.extendedBytes_eq hvid hvbody, List.append_cancel_left_eq] at hbytes
      refine ⟨hv, hvlen, ?_⟩
      rw [hes]
      exact (hideSsid_eq_self_congr (isSsid_of_vendor (hvid.trans hid)) (isSsid_of_vendor hid)).mp
        (encode_inj hbytes)
    · rw [List.append_assoc, List.cons_append] at hbytes htotal
      refine (l.false_of_passed hid (by omega) ?_ hbytes).elim
      have hsizes : (encode (pre ++ w :: (mid ++ v' :: post₂))).length =
        (encode l.elems).length + e.wpsInsert.length := by
        rw [hes, hpost, length_around, length_around, length_around, length_around, hvbody,
          List.length_append]
        ring
      omega
  · -- without a WPS element the list would have its old length
    omega

/-- The body and the length of the beacon are right whatever `memcpy` does exactly if the
configuration fits. -/
theorem announces_iff (l : ApConfig e) : (∀ cp, l.Right cp) ↔ l.Fits := by
  rw [Fits]
  split
  · rename_i off w hrole hhit
    rcases l.wpsHit_cases with ⟨hnone, -⟩ | ⟨pre, w₂, post, hes, hpre, hid, hsome⟩
    · rw [hnone] at hhit
      cases hhit
    obtain ⟨rfl, rfl⟩ : (encode pre).length = off ∧ w₂ = w := by
      rw [hsome] at hhit
      simpa using hhit
    constructor
    · exact fun h => l.extended_of_right hrole hes hpre hid hsome (h .ascending)
    · rintro ⟨hw, hfits, hhide⟩ cp
      exact l.right_of_extended hrole hes hpre hid hsome hw hfits hhide
  · rename_i hno
    have hno' : e.role = .go → l.wpsHit = none := by
      intro hrole
      rw [Option.eq_none_iff_forall_ne_some]
      rintro ⟨off, w⟩ hhit
      exact hno off w hrole hhit
    constructor
    · exact fun h => l.apart_of_right hno' (h _)
    · exact fun h cp => l.right_of_moved hno' (l.moved_of_apart h cp)

/-- An SSID and a WPS element. -/
def sampleElems : List Elem := [⟨ssidIe, [97], LiteralIndex.length_letter⟩, ⟨vendorSpecificIe, wpsOui, by decide⟩]

/-- A group owner that is told to hide its SSID. -/
def sampleGo : BeaconInput where
  m := Mem.write (fun _ => 0) 12 (encode sampleElems)
  pframe := 2000
  state := wifiFwApState
  ies := 0
  ieLength := 21
  ssid := [97]
  supportedRates _ := 0
  dsConfig := 1
  hiddenSsidMode := 1
  role := .go
  provisioning := false
  deviceName := [97]
  deviceAddr := Vector.replicate 6 0
  timeoutMs := 0

def sampleConfig : ApConfig sampleGo where
  fixed := List.replicate 12 0
  elems := sampleElems
  length_fixed := rfl
  length_eq := rfl
  length_le := by decide
  holds := by unfold Mem.Holds; decide
  apart := Or.inl (by decide)
  name_le := by decide

/-- The SSID of the group owner is not hidden. -/
theorem not_right_sampleConfig : ¬∀ (e : BeaconInput) (l : ApConfig e) (cp : Memcpy), l.Right cp := by
  intro h
  have hright := @extended_of_right sampleGo sampleConfig .ascending [⟨ssidIe, [97], by decide⟩] []
    ⟨vendorSpecificIe, wpsOui, by decide⟩ rfl rfl (by decide) rfl (by decide)
      (h sampleGo sampleConfig _)
  exact absurd hright.2.2 (by decide)

end ApConfig

end Rtl8188eu
