import Rtl8188eu.AttrSearch
import Rtl8188eu.GroupInfoAttr
import Rtl8188eu.P2pNego
import Rtl8188eu.PeerChannels

/-!
# The copies of P2P attributes

The handlers of P2P elements take each attribute with `rtw_get_p2p_attr_content`, which copies as
many bytes as the attribute says it has. The destinations have the sizes of well-formed attributes,
and the handlers do not compare the two. What they copy next from the attribute goes by its length
(the group id), by a length inside it (the device info), or by the number of descriptors that its
length stands for (the Notice of Absence).

`staysInBuffers_iff` : a handler stays in its buffers exactly if every attribute it comes to ends
inside the element and has a length that fits.
-/

namespace Rtl8188eu

/-! ## Elements and their attributes -/

/-- A P2P element in memory, as `rtw_get_p2p_ie` finds it. -/
structure P2pElem where
  mem : Mem
  ie : ℤ
  id_eq : mem ie = vendorSpecificIe
  oui_eq : mem.read (ie + 2) 4 = p2pOui

namespace P2pElem

/-- `p2p_ielen`. -/
def ielen (e : P2pElem) : ℕ := (e.mem (e.ie + 1)).toNat + 2

/-- `rtw_get_p2p_attr_content`. A search that has not ended after so many attributes does not
end. -/
def rtwGetP2pAttrContent (e : P2pElem) (id : UInt8) : Option Searched :=
  AttrKind.getAttrContent .p2p e.mem e.ie e.ielen id.toNat true (e.ielen + 1)

/-- Where the content of the attribute is and its length, if the search ends and finds the
attribute. -/
def attr (e : P2pElem) (id : UInt8) : Option (ℤ × ℕ) :=
    (e.rtwGetP2pAttrContent id).bind Searched.result

/-- The search ends. -/
def ends (e : P2pElem) (id : UInt8) : Bool := (e.rtwGetP2pAttrContent id).isSome

/-- A variable of one byte that was zero, with the attribute copied to it. -/
def attrByte (e : P2pElem) (r : ℤ × ℕ) : UInt8 := if r.2 = 0 then 0 else e.mem r.1

/-- The length field of the attribute at the offset `off`. -/
def dataLen (e : P2pElem) (off : ℕ) : ℕ := p2pFormat.lenOf (e.mem.read (e.ie + off) 3)

/-- The search for an attribute comes to an offset. -/
inductive Visits (e : P2pElem) (id : UInt8) : ℕ → Prop
  | first : Visits e id 6
  | next {off : ℕ} (h : Visits e id off) (hin : off < e.ielen) (hid : e.mem (e.ie + off) ≠ id) :
      Visits e id (off + (e.dataLen off + 3) % 65536)

/-- The search comes to the attribute at an offset. With its header the length 65533 has no 16 bits,
and the attribute is taken for none. -/
def AttrAt (e : P2pElem) (id : UInt8) (off : ℕ) : Prop :=
  e.Visits id off ∧ off < e.ielen ∧ e.mem (e.ie + off) = id ∧ e.dataLen off ≠ 65533

end P2pElem

/-! ## Copies -/

/-- A copy of `n` bytes, with the number of bytes that are left in its destination and in its
source. -/
structure Copy where
  room : ℕ
  left : ℕ
  n : ℕ

/-- The copy stays in both. -/
def Copy.Safe (c : Copy) : Prop := c.n ≤ c.room ∧ c.n ≤ c.left

instance (c : Copy) : Decidable c.Safe := inferInstanceAs (Decidable (_ ∧ _))

/-- The attributes that the handlers take. `chListAttr` is the channel list of a response. -/
inductive P2pSite where
  | goIntent | status | interfaceAddr | operatingCh | chList | chListAttr | groupId | capability | deviceInfo | noa

namespace P2pSite

def id : P2pSite → UInt8
  | status => 0x00
  | capability => 0x02
  | goIntent => 0x04
  | interfaceAddr => 0x09
  | chList => 0x0B
  | chListAttr => 0x0B
  | noa => 0x0C
  | deviceInfo => 0x0D
  | groupId => 0x0F
  | operatingCh => 0x11

/-- The size of the destination for an attribute of `n` bytes. -/
def size (n : ℕ) : P2pSite → ℕ
  | goIntent => 1
  | status => 1
  | interfaceAddr => 6
  | operatingCh => 5
  | chList => 50
  | chListAttr => 100
  | groupId => 38
  | capability => 2
  | deviceInfo => n
  | noa => maxP2pIeLen

end P2pSite

/-- What the handlers depend on : the device, `p2p_ps_mode == P2P_PS_NONE` and `noa_index`, and what
follows the channel list and the device info in their buffers. -/
structure P2pEnv where
  dev : P2pDevice
  psNone : Bool
  noaIndex : UInt8
  frame : Mem
  heap : ℕ → UInt8

/-- `P2P_MAX_NOA_NUM`. -/
def p2pMaxNoaNum : ℕ := 2

/-- The copies of one descriptor of `n` bytes of `noa_attr`. -/
def noaCopies (n : ℕ) (noaOffset noaNum : UInt8) : List Copy :=
  let room := p2pMaxNoaNum - noaNum.toNat
  [⟨room, n - noaOffset.toNat, 1⟩, ⟨4 * room, n - (noaOffset + 1).toNat, 4⟩,
    ⟨4 * room, n - (noaOffset + 5).toNat, 4⟩, ⟨4 * room, n - (noaOffset + 9).toNat, 4⟩]

/-- The loop of `process_p2p_ps_ie` : its copies, and `noa_num` if it ends. -/
def noaLoop (n : ℕ) : ℕ → UInt8 → UInt8 → List Copy × Option UInt8
  | 0, _, _ => ([], none)
  | fuel + 1, noaOffset, noaNum =>
    if noaOffset.toNat < n then
      let r := noaLoop n fuel (noaOffset + 13) (noaNum + 1)
      (noaCopies n noaOffset noaNum ++ r.1, r.2)
    else ([], some noaNum)

/-- The descriptors of a Notice of Absence of `n` bytes. -/
def noaDescriptors (n fuel : ℕ) : List Copy × Option UInt8 :=
    if 2 < n then noaLoop n fuel 2 0 else ([], some 0)

/-- The Notice of Absence is new. -/
def P2pEnv.reconfigures (w : P2pEnv) (e : P2pElem) (r : ℤ × ℕ) : Bool :=
    w.psNone || e.attrByte r ≠ w.noaIndex

/-- What is read of a device info of `n` bytes, and copied to the station. -/
def deviceInfoCopies (content : ℕ → UInt8) (n : ℕ) : List Copy :=
  let num := (content 16).toNat
  let name := deviceNameAt content
  [⟨6, n, 6⟩, ⟨2, n - 6, 2⟩, ⟨8, n - 8, 8⟩, ⟨1, n - 16, 1⟩] ++
    (if num = 0 then [] else [⟨32, n - 17, min 32 (num * 8)⟩]) ++
    ⟨2, n - name, 2⟩ :: if be16Of (content name) (content (name + 1)) = wpsAttrDeviceName then
      [⟨2, n - (name + 2), 2⟩,
        ⟨32, n - (name + 4), min 32 (be16Of (content (name + 2)) (content (name + 3)))⟩]
    else []

/-- The content of a device info in its buffer. -/
def P2pEnv.content (w : P2pEnv) (e : P2pElem) (r : ℤ × ℕ) : ℕ → UInt8 := fun i =>
  if i < r.2 then e.mem (r.1 + i) else w.heap i

/-- The copies after an attribute was taken. -/
def P2pSite.after (w : P2pEnv) (e : P2pElem) (fuel : ℕ) (r : ℤ × ℕ) : P2pSite → List Copy
  | groupId => [⟨6, r.2, 6⟩, ⟨32, r.2 - 6, u32 ((r.2 : ℤ) - 6)⟩]
  | deviceInfo => deviceInfoCopies (w.content e r) r.2
  | noa => if w.reconfigures e r then (noaDescriptors r.2 fuel).1 else []
  | _ => []

/-- The copies for an attribute. -/
def P2pSite.copies (w : P2pEnv) (e : P2pElem) (fuel : ℕ) (s : P2pSite) : List Copy :=
  match e.attr s.id with
  | none => []
  | some r => ⟨s.size r.2, (e.ie + e.ielen - r.1).toNat, r.2⟩ :: s.after w e fuel r

/-! ## Handlers -/

/-- Up to the first search that does not end. -/
def upToEndless (e : P2pElem) : List P2pSite → List P2pSite
  | [] => []
  | s :: ss => s :: if e.ends s.id then upToEndless e ss else []

/-- The device with the intent of the peer. -/
def P2pEnv.intentTaken (w : P2pEnv) (e : P2pElem) : P2pDevice :=
  match e.attr P2pSite.goIntent.id with
  | some r => (w.dev.reqGoIntent p2pStatusSuccess (e.attrByte r)).2
  | none => w.dev

/-- What comes after the channel list, with `fuel` for `rtw_p2p_get_peer_ch_list` : nothing if there
is no common channel, and the operating channel of the peer if a group owner has to change its
own. -/
def P2pEnv.afterChList (w : P2pEnv) (e : P2pElem) (fuel : ℕ) (ss : List P2pSite) : List P2pSite :=
  match e.attr P2pSite.chList.id with
  | none => ss
  | some (a, n) =>
    match rtwP2pGetPeerChListAt (fun i => if 0 ≤ i ∧ i < n then e.mem (a + i) else w.frame i) 0
      n fuel with
    | none => []
    | some r =>
      let w := w.intentTaken e
      let chListInclusioned := r.inclusion w.channelSet
      if chListInclusioned = [] then []
      else if w.role = .go ∧ w.operatingChannel ∉ chListInclusioned then .operatingCh :: ss
      else ss

/-- The status of a response or a confirm ends the handler. -/
def P2pElem.statusFails (e : P2pElem) : Bool :=
  match e.attr P2pSite.status.id with
  | some r => r.2 = 1 ∧ e.attrByte r ≠ p2pStatusSuccess
  | none => false

/-- The functions that take P2P attributes. -/
inductive P2pHandler where
  | psIe | negoReq | negoResp | negoConfirm | assocReq

namespace P2pHandler

/-- The attributes that the handler takes of an element, in order. -/
def takes (w : P2pEnv) (e : P2pElem) (fuel : ℕ) : P2pHandler → List P2pSite
  | psIe => [.noa]
  | negoReq => upToEndless e ([.goIntent, .interfaceAddr, .chList] ++ w.afterChList e fuel [])
  | negoResp => upToEndless e (.status :: if e.statusFails then []
      else [.interfaceAddr, .goIntent, .operatingCh, .chListAttr] ++ w.afterChList e fuel
      [.groupId])
  | negoConfirm => upToEndless e (.status :: if e.statusFails then [] else [.groupId, .operatingCh])
  | assocReq => upToEndless e [.capability, .deviceInfo]

/-- The copies of the handler. -/
def copies (h : P2pHandler) (w : P2pEnv) (e : P2pElem) (fuel : ℕ) : List Copy :=
  (h.takes w e fuel).flatMap (P2pSite.copies w e fuel)

/-- The handler comes to an attribute. -/
def Takes (h : P2pHandler) (w : P2pEnv) (e : P2pElem) (s : P2pSite) : Prop :=
    ∃ fuel, s ∈ h.takes w e fuel

/-- The handler stays in its buffers : no copy goes beyond its destination or the attribute. And the
loop over the descriptors of a Notice of Absence ends with the number of those that are complete. -/
def StaysInBuffers (h : P2pHandler) (w : P2pEnv) (e : P2pElem) : Prop :=
  (∀ fuel, ∀ c ∈ h.copies w e fuel, c.Safe) ∧
    (h.Takes w e .noa → ∀ r, e.attr P2pSite.noa.id = some r → w.reconfigures e r = true →
      ∃ fuel num, (noaDescriptors r.2 fuel).2 = some num ∧ num.toNat = (r.2 - 2) / 13)

end P2pHandler

/-- A device info of `n` bytes has its types and, if one comes next, as much of the name as is
copied. -/
def DeviceInfoFits (content : ℕ → UInt8) (n : ℕ) : Prop :=
  let name := deviceNameAt content
  name + 2 ≤ n ∧ (be16Of (content name) (content (name + 1)) = wpsAttrDeviceName →
    name + 4 + min 32 (be16Of (content (name + 2)) (content (name + 3))) ≤ n)

/-- The length of an attribute at `a` is one that the handlers expect. -/
def P2pSite.Expects (w : P2pEnv) (e : P2pElem) (a : ℤ) (n : ℕ) : P2pSite → Prop
  | groupId => 6 ≤ n ∧ n ≤ 38
  | deviceInfo => DeviceInfoFits (fun i => e.mem (a + i)) n
  | noa => w.reconfigures e (a, n) = true → n ≤ 2 ∨ n = 15 ∨ n = 28
  | s => n ≤ s.size n

/-- The attribute at an offset fits : it ends inside the element, and has a length that is
expected. -/
def P2pSite.FitsAt (w : P2pEnv) (e : P2pElem) (off : ℕ) (s : P2pSite) : Prop :=
  e.dataLen off ≤ e.ielen - (off + 3) ∧ s.Expects w e (e.ie + off + 3) (e.dataLen off)

/-! ## The search -/

namespace P2pElem

open AttrFun (contentOf content_spec)

variable {e : P2pElem} {id : UInt8} {off fuel : ℕ} {x : Option (ℤ × ℕ)}

/-- What the search from an offset on returns. -/
def found (e : P2pElem) (id : UInt8) (fuel off : ℕ) : Option (Option (ℤ × ℕ)) :=
  (attrLoop p2pFormat e.mem e.ie e.ielen id.toNat false fuel off).map Searched.result

theorem ielen_le (e : P2pElem) : e.ielen ≤ 257 := by
  have h := (e.mem (e.ie + 1)).toNat_lt
  rw [ielen]
  omega

theorem found_succ (e : P2pElem) (id : UInt8) (fuel off : ℕ) : e.found id (fuel + 1) off =
    if off < e.ielen then
      if e.mem (e.ie + off) = id then some (some (e.ie + off, (e.dataLen off + 3) % 65536))
      else e.found id fuel (off + (e.dataLen off + 3) % 65536)
    else some none := by
  have hid : p2pFormat.idOf (e.mem.read (e.ie + off) 3) = id.toNat ↔ e.mem (e.ie + off) = id := by
    rw [← UInt8.toNat_inj]
    exact Iff.of_eq (congrArg (· = id.toNat) (by simp [p2pFormat, Mem.read]))
  rw [found, attrLoop]
  dsimp only
  split
  · rw [show p2pFormat.hdr = 3 from rfl]
    simp only [hid]
    split
    · rfl
    · rw [Option.map_map]
      rfl
  · rfl

/-- More fuel does not change what a search returns. -/
theorem found_mono {fuel' : ℕ} (h : e.found id fuel off = some x) (hle : fuel ≤ fuel') :
    e.found id fuel' off = some x := by
  induction fuel generalizing off fuel' with
  | zero => cases h
  | succ fuel ih =>
    obtain ⟨k, rfl⟩ := Nat.exists_eq_add_of_le hle
    rw [Nat.add_right_comm]
    rw [found_succ] at h ⊢
    split_ifs at h ⊢ with hin hid
    · exact h
    · exact ih h (Nat.le_add_right fuel k)
    · exact h

/-- A search that ends does so after at most as many attributes as there are bytes. -/
theorem found_bound (h : e.found id fuel off = some x) :
    e.found id (e.ielen - off + 1) off = some x := by
  induction fuel generalizing off with
  | zero => cases h
  | succ fuel ih =>
    rw [found_succ] at h ⊢
    split at h
    · rename_i hin
      rw [if_pos hin]
      split at h
      · rename_i hid
        rw [if_pos hid]
        exact h
      · rename_i hid
        rw [if_neg hid]
        obtain hz | hz := Nat.eq_zero_or_pos ((e.dataLen off + 3) % 65536)
        · rw [hz, Nat.add_zero] at h ⊢
          have hstay := ih h
          rw [found_succ, if_pos hin, if_neg hid, hz, Nat.add_zero] at hstay
          exact hstay
        · exact found_mono (ih h) (by omega)
    · rename_i hin
      rw [if_neg hin]
      exact h

/-- What a search finds is at an offset that it comes to. -/
theorem visits_of_found {a : ℤ} {n : ℕ} (hv : e.Visits id off)
    (h : e.found id fuel off = some (some (a, n))) :
    ∃ off', e.Visits id off' ∧ off' < e.ielen ∧ e.mem (e.ie + off') = id ∧ a = e.ie + off' ∧
      n = (e.dataLen off' + 3) % 65536 := by
  induction fuel generalizing off with
  | zero => cases h
  | succ fuel ih =>
    rw [found_succ] at h
    split at h
    · rename_i hin
      split at h
      · rename_i hid
        cases h
        exact ⟨off, hv, hin, hid, rfl, rfl⟩
      · rename_i hid
        exact ih (hv.next hin hid) h
    · cases h

/-- What is found from an offset on that the search comes to is found. -/
theorem found_of_visits (hv : e.Visits id off) : ∀ {fuel : ℕ}, e.found id fuel off = some x →
    ∃ fuel', e.found id fuel' 6 = some x := by
  induction hv with
  | first => exact fun h => ⟨_, h⟩
  | next _ hin hid ih =>
    refine fun {fuel} h => @ih (fuel + 1) ?_
    rw [found_succ, if_pos hin, if_neg hid]
    exact h

theorem attr_eq (e : P2pElem) (id : UInt8) :
    e.attr id = (e.found id (e.ielen + 1) 6).bind (contentOf 3) := by
  rw [attr, rtwGetP2pAttrContent, AttrKind.getAttrContent, AttrKind.getAttr,
    if_neg (not_not.mpr e.id_eq),
    show AttrKind.p2p.oui = p2pOui from rfl, if_neg (not_not.mpr e.oui_eq), found, Option.map_map]
  change Option.bind (Option.map _ (attrLoop p2pFormat _ _ _ _ _ _ _)) _ = _
  cases attrLoop p2pFormat e.mem e.ie e.ielen id.toNat false (e.ielen + 1) 6 with
  | none => rfl
  | some r =>
    change (AttrKind.content 3 true _).result = contentOf 3 r.result
    rw [(content_spec 3 true _).1]

/-- The attribute that is taken is the one that the search comes to. -/
theorem attr_eq_some_iff {r : ℤ × ℕ} : e.attr id = some r ↔
    ∃ off, e.AttrAt id off ∧ r = (e.ie + off + 3, u32 (((e.dataLen off + 3) % 65536 : ℕ) - 3)) := by
  have hlen : ∀ off, (e.dataLen off + 3) % 65536 = 0 ↔ e.dataLen off = 65533 := fun off => by
    have hlt := p2pFormat.lenOf_lt (e.mem.read (e.ie + off) 3)
    rw [← dataLen] at hlt
    omega
  rw [attr_eq]
  constructor
  · intro h
    obtain ⟨x, hx, hc⟩ := Option.bind_eq_some_iff.mp h
    match x with
    | none => cases hc
    | some (a, n) =>
      obtain ⟨off, hv, hin, hid, rfl, rfl⟩ := visits_of_found .first hx
      rw [contentOf] at hc
      split at hc
      · cases hc
      · rename_i hne
        exact ⟨off, ⟨hv, hin, hid, fun hd => hne ((hlen off).mpr hd)⟩, (Option.some.inj hc).symm⟩
  · rintro ⟨off, ⟨hv, hin, hid, hd⟩, rfl⟩
    have hfound : e.found id 1 off = some (some (e.ie + off, (e.dataLen off + 3) % 65536)) := by
      rw [found_succ, if_pos hin, if_pos hid]
    obtain ⟨fuel, h6⟩ := found_of_visits hv hfound
    rw [found_mono (found_bound h6) (Nat.succ_le_succ (Nat.sub_le _ _)), Option.bind_some,
      contentOf,
      if_neg fun h => hd ((hlen off).mp h)]
    rfl

end P2pElem

/-! ## The copies of an attribute -/

variable {w : P2pEnv} {e : P2pElem} {s : P2pSite} {n : ℕ}

/-- Two whole descriptors at most are copied as they should. -/
theorem noaDescriptors_of_fits (h : n ≤ 2 ∨ n = 15 ∨ n = 28) :
    (∀ fuel, ∀ c ∈ (noaDescriptors n fuel).1, c.Safe) ∧
      ∃ fuel num, (noaDescriptors n fuel).2 = some num ∧ num.toNat = (n - 2) / 13 := by
  obtain h | rfl | rfl := h
  · have hend : ∀ fuel, noaDescriptors n fuel = ([], some 0) := fun fuel => if_neg (by omega)
    refine ⟨fun fuel c hc => ?_, 0, 0, by rw [hend], ?_⟩
    · rw [hend] at hc
      exact absurd hc List.not_mem_nil
    · change 0 = _
      omega
  · have hend : ∀ fuel, noaDescriptors 15 (fuel + 2) = (noaCopies 15 2 0, some 1) := fun _ => rfl
    refine ⟨fun fuel => ?_, 2, 1, by rw [hend], rfl⟩
    match fuel with
    | 0 => decide
    | 1 => decide
    | fuel + 2 =>
      rw [hend]
      decide
  · have hend : ∀ fuel, noaDescriptors 28 (fuel + 3) =
      (noaCopies 28 2 0 ++ noaCopies 28 15 1, some 2) := fun _ => rfl
    refine ⟨fun fuel => ?_, 3, 2, by rw [hend], rfl⟩
    match fuel with
    | 0 => decide
    | 1 => decide
    | 2 => decide
    | fuel + 3 =>
      rw [hend]
      decide

/-- The copies of a descriptor are among those of the loop. -/
theorem mem_noaLoop {fuel : ℕ} {off num : UInt8} {c : Copy} (h : off.toNat < n) :
    c ∈ (noaLoop n (fuel + 1) off num).1 ↔ c ∈ noaCopies n off num ∨
      c ∈ (noaLoop n fuel (off + 13) (num + 1)).1 := by
  rw [noaLoop, if_pos h]
  exact List.mem_append

theorem start_time_mem (off num : UInt8) :
    ⟨4 * (p2pMaxNoaNum - num.toNat), n - (off + 9).toNat, 4⟩ ∈ noaCopies n off num :=
  List.mem_cons_of_mem _ (List.mem_cons_of_mem _ (List.mem_cons_of_mem _ List.mem_cons_self))

/-- Otherwise a descriptor is cut, or there is no room for the third. -/
theorem fits_of_noaDescriptors (h : ∀ fuel, ∀ c ∈ (noaDescriptors n fuel).1, c.Safe) :
    n ≤ 2 ∨ n = 15 ∨ n = 28 := by
  by_contra hne
  have hmore : 2 < n := by omega
  have h2 : (2 : UInt8).toNat < n := hmore
  have hloop : ∀ fuel, ∀ c ∈ (noaLoop n fuel 2 0).1, c.Safe := fun fuel c hc => h fuel c (by
    rw [noaDescriptors, if_pos hmore]
    exact hc)
  obtain hn | hn | hn : n < 15 ∨ (15 < n ∧ n < 28) ∨ 28 < n := by omega
  · have hc := hloop 1 _ ((mem_noaLoop h2).mpr (.inl (start_time_mem 2 0)))
    have hleft : 4 ≤ n - 11 := hc.2
    omega
  · have h15 : (2 + 13 : UInt8).toNat < n := hn.1
    have hc := hloop 2 _ ((mem_noaLoop h2).mpr
      (.inr ((mem_noaLoop h15).mpr (.inl (start_time_mem _ _)))))
    have hleft : 4 ≤ n - 24 := hc.2
    omega
  · have h15 : (2 + 13 : UInt8).toNat < n := by
      change 15 < n
      omega
    have h28 : (2 + 13 + 13 : UInt8).toNat < n := hn
    have hc := hloop 3 _ ((mem_noaLoop h2).mpr
      (.inr ((mem_noaLoop h15).mpr (.inr ((mem_noaLoop h28).mpr
      (.inl (start_time_mem _ _)))))))
    have hroom : 4 ≤ 0 := hc.1
    omega

theorem forall_mem_if {P : Prop} [Decidable P] {cs : List Copy} :
    (∀ c ∈ if P then cs else [], c.Safe) ↔ (P → ∀ c ∈ cs, c.Safe) := by
  split
  · rename_i h
    exact ⟨fun hc _ => hc, fun hc => hc h⟩
  · rename_i h
    exact iff_of_true (fun c hc => absurd hc List.not_mem_nil) fun hp => absurd hp h

/-- The device info is read inside the attribute exactly if it fits. -/
theorem deviceInfoCopies_safe_iff {content : ℕ → UInt8} :
    (∀ c ∈ deviceInfoCopies content n, c.Safe) ↔ DeviceInfoFits content n := by
  have hname : deviceNameAt content = 17 + (content 16).toNat * 8 := rfl
  rw [deviceInfoCopies, DeviceInfoFits, ← ite_not, List.forall_mem_append, List.forall_mem_append,
    forall_mem_if,
    List.forall_mem_cons (p := Copy.Safe) (l := ite _ _ _), forall_mem_if]
  simp only [List.forall_mem_cons, Copy.Safe, List.not_mem_nil, false_implies, implies_true,
    and_true, le_refl,
    true_and, Nat.min_le_left]
  generalize (be16Of (content (deviceNameAt content)) (content (deviceNameAt content + 1)) =
    wpsAttrDeviceName) = P
  generalize be16Of (content (deviceNameAt content + 2)) (content (deviceNameAt content + 3)) = len
  generalize deviceNameAt content = name at hname ⊢
  by_cases hP : P
  · simp only [hP, true_implies]
    omega
  · simp only [hP, false_implies, and_true]
    omega

/-- Of a device info that fits only the bytes of the attribute matter. -/
theorem DeviceInfoFits.congr {content content' : ℕ → UInt8} (h : DeviceInfoFits content n)
    (heq : ∀ i < n, content i = content' i) : DeviceInfoFits content' n := by
  obtain ⟨hend, hdev⟩ := h
  have hname : deviceNameAt content = 17 + (content 16).toNat * 8 := rfl
  have hname' : deviceNameAt content' = deviceNameAt content := by
    rw [deviceNameAt, deviceNameAt, heq 16 (by omega)]
  rw [heq _ (by omega), heq _ (by omega)] at hdev
  rw [DeviceInfoFits, hname']
  refine ⟨hend, fun htype => ?_⟩
  have hle := hdev htype
  rwa [heq _ (by omega), heq _ (by omega)] at hle

/-- The copies for an attribute `r` are as they should. -/
def P2pSite.RightAt (w : P2pEnv) (e : P2pElem) (r : ℤ × ℕ) (s : P2pSite) : Prop :=
  (∀ fuel, ∀ c ∈ s.after w e fuel r, c.Safe) ∧ (s = .noa → w.reconfigures e r = true →
    ∃ fuel num, (noaDescriptors r.2 fuel).2 = some num ∧ num.toNat = (r.2 - 2) / 13)

theorem P2pSite.rightAt_of_nil {r : ℤ × ℕ} (h : ∀ fuel, s.after w e fuel r = []) (hs : s ≠ .noa) :
    s.RightAt w e r :=
  ⟨fun fuel _ hc => absurd (h fuel ▸ hc) List.not_mem_nil, fun hn => absurd hn hs⟩

/-- Inside an element the copies of an attribute are as they should exactly if its length is
expected. -/
theorem P2pSite.expects_iff {a : ℤ} (hn : n ≤ 254) (s : P2pSite) :
    n ≤ s.size n ∧ s.RightAt w e (a, n) ↔ s.Expects w e a n := by
  cases s with
  | groupId =>
    have hu : 6 ≤ n → u32 ((n : ℤ) - 6) = n - 6 := fun h => by
      rw [u32]
      omega
    have hafter : P2pSite.groupId.RightAt w e (a, n) ↔
      6 ≤ n ∧ u32 ((n : ℤ) - 6) ≤ 32 ∧ u32 ((n : ℤ) - 6) ≤ n - 6 := by
      simp [P2pSite.RightAt, P2pSite.after, Copy.Safe]
    rw [hafter]
    change n ≤ 38 ∧ _ ↔ 6 ≤ n ∧ n ≤ 38
    constructor
    · rintro ⟨h38, h6, -⟩
      exact ⟨h6, h38⟩
    · rintro ⟨h6, h38⟩
      rw [hu h6]
      omega
  | deviceInfo =>
    have hcontent : ∀ i < n, w.content e (a, n) i = e.mem (a + i) := fun i hi => if_pos hi
    have hafter : P2pSite.deviceInfo.RightAt w e (a, n) ↔
      DeviceInfoFits (w.content e (a, n)) n := by
      rw [← deviceInfoCopies_safe_iff]
      exact ⟨fun h => h.1 0, fun h => ⟨fun _ => h, fun he => by cases he⟩⟩
    rw [hafter]
    exact ⟨fun h => h.2.congr hcontent, fun h => ⟨le_rfl, h.congr fun i hi => (hcontent i hi).symm⟩⟩
  | noa =>
    have hsize : n ≤ P2pSite.noa.size n := hn.trans (show 254 ≤ maxP2pIeLen by decide)
    rw [and_iff_right hsize]
    constructor
    · intro h hrec
      refine fits_of_noaDescriptors fun fuel c hc => h.1 fuel c ?_
      change c ∈ if w.reconfigures e (a, n) = true then _ else _
      rw [if_pos hrec]
      exact hc
    · intro h
      refine ⟨fun fuel c hc => ?_, fun _ hrec => (noaDescriptors_of_fits (h hrec)).2⟩
      change c ∈ if w.reconfigures e (a, n) = true then _ else _ at hc
      split at hc
      · rename_i hrec
        exact (noaDescriptors_of_fits (h hrec)).1 fuel c hc
      · exact absurd hc List.not_mem_nil
  | _ => exact and_iff_left (P2pSite.rightAt_of_nil (fun _ => rfl) (fun he => by cases he))

/-- All copies for the attributes of a kind are as they should. -/
def P2pSite.Right (w : P2pEnv) (e : P2pElem) (s : P2pSite) : Prop :=
  ∀ r, e.attr s.id = some r → Copy.Safe ⟨s.size r.2, (e.ie + e.ielen - r.1).toNat, r.2⟩ ∧
    s.RightAt w e r

/-- A length that has its header in 16 bits is taken as it is. Another one becomes longer than any
element. -/
theorem u32_len {d : ℕ} (hlt : d < 65536) :
    u32 (((d + 3) % 65536 : ℕ) - 3) = d ∨ 257 < d ∧ 257 < u32 (((d + 3) % 65536 : ℕ) - 3) := by
  rw [u32]
  omega

theorem P2pSite.right_iff_fitsAt (s : P2pSite) : s.Right w e ↔ ∀ off, e.AttrAt s.id off →
    s.FitsAt w e off := by
  have hoff : ∀ off, e.AttrAt s.id off →
      (Copy.Safe ⟨s.size (u32 (((e.dataLen off + 3) % 65536 : ℕ) - 3)),
        (e.ie + e.ielen - (e.ie + off + 3)).toNat,
          u32 (((e.dataLen off + 3) % 65536 : ℕ) - 3)⟩ ∧
        s.RightAt w e (e.ie + off + 3, u32 (((e.dataLen off + 3) % 65536 : ℕ) - 3)) ↔
        s.FitsAt w e off) := by
    rintro off -
    have hle := e.ielen_le
    have hleft : (e.ie + e.ielen - (e.ie + off + 3)).toNat = e.ielen - (off + 3) := by omega
    have hlt : e.dataLen off < 65536 := p2pFormat.lenOf_lt _
    rw [P2pSite.FitsAt, Copy.Safe, hleft]
    dsimp only
    obtain heq | ⟨hlong, hlong'⟩ := u32_len hlt
    · rw [heq, and_comm (a := e.dataLen off ≤ s.size _), and_assoc]
      refine and_congr_right fun hin => s.expects_iff ?_
      omega
    · exact iff_of_false (fun h => by omega) fun h => by omega
  constructor
  · intro h off hat
    exact (hoff off hat).mp (h _ (P2pElem.attr_eq_some_iff.mpr ⟨off, hat, rfl⟩))
  · intro h r hr
    obtain ⟨off, hat, rfl⟩ := P2pElem.attr_eq_some_iff.mp hr
    exact (hoff off hat).mpr (h off hat)

theorem P2pSite.copies_safe_iff {fuel : ℕ} : (∀ c ∈ s.copies w e fuel, c.Safe) ↔
    ∀ r, e.attr s.id = some r →
    Copy.Safe ⟨s.size r.2, (e.ie + e.ielen - r.1).toNat, r.2⟩ ∧
      ∀ c ∈ s.after w e fuel r, c.Safe := by
  rw [P2pSite.copies]
  cases e.attr s.id with
  | none => exact iff_of_true (fun c hc => absurd hc List.not_mem_nil) nofun
  | some r =>
    rw [List.forall_mem_cons]
    exact ⟨fun h r' hr => Option.some.inj hr ▸ h, fun h => h r rfl⟩

/-! ## Handlers -/

namespace P2pHandler

theorem mem_upToEndless {ss : List P2pSite} (h : s ∈ upToEndless e ss) : s ∈ ss := by
  induction ss with
  | nil => exact h
  | cons s' ss ih =>
    rw [upToEndless, List.mem_cons] at h
    obtain rfl | h := h
    · exact List.mem_cons_self
    · split at h
      · exact List.mem_cons_of_mem _ (ih h)
      · exact absurd h List.not_mem_nil

theorem mem_afterChList {fuel : ℕ} {ss : List P2pSite} (h : s ∈ w.afterChList e fuel ss) :
    s = .operatingCh ∨ s ∈ ss := by
  rw [P2pEnv.afterChList] at h
  split at h
  · exact .inr h
  · split at h
    · exact absurd h List.not_mem_nil
    · dsimp only at h
      split_ifs at h
      · exact absurd h List.not_mem_nil
      · exact List.mem_cons.mp h
      · exact .inr h

/-- Only the handler of the Notice of Absence takes it, and it does so at once. -/
theorem takes_noa {h : P2pHandler} {fuel : ℕ} (hs : .noa ∈ h.takes w e fuel) (fuel' : ℕ) :
    .noa ∈ h.takes w e fuel' := by
  cases h with
  | psIe => exact hs
  | negoReq =>
    have hmem := mem_upToEndless hs
    simp only [List.mem_append, List.mem_cons, List.not_mem_nil, or_false, reduceCtorEq,
      false_or] at hmem
    exact (mem_afterChList hmem).elim nofun nofun
  | negoResp =>
    have hmem := mem_upToEndless hs
    split at hmem
    · exact absurd hmem (by simp)
    · simp only [List.mem_append, List.mem_cons, List.not_mem_nil, or_false, reduceCtorEq,
        false_or] at hmem
      exact (mem_afterChList hmem).elim nofun fun h => absurd h (by simp)
  | negoConfirm =>
    have hmem := mem_upToEndless hs
    split at hmem <;> exact absurd hmem (by simp)
  | assocReq =>
    have hmem := mem_upToEndless hs
    exact absurd hmem (by simp)

theorem after_fuel (hs : s ≠ .noa) (fuel fuel' : ℕ) (r : ℤ × ℕ) :
    s.after w e fuel r = s.after w e fuel' r := by
  cases s with
  | noa => exact absurd rfl hs
  | _ => rfl

/-- A handler stays in its buffers exactly if every attribute that it comes to fits. -/
theorem staysInBuffers_iff (h : P2pHandler) (w : P2pEnv) (e : P2pElem) :
    h.StaysInBuffers w e ↔ ∀ s, h.Takes w e s → ∀ off, e.AttrAt s.id off → s.FitsAt w e off := by
  simp only [← P2pSite.right_iff_fitsAt]
  constructor
  · rintro ⟨hsafe, hnoa⟩ s ⟨fuel, hs⟩ r hr
    have hcopies : ∀ fuel, s ∈ h.takes w e fuel → ∀ c ∈ s.copies w e fuel, c.Safe :=
      fun fuel hs c hc =>
      hsafe fuel c (List.mem_flatMap.mpr ⟨s, hs, hc⟩)
    obtain ⟨htaken, hafter⟩ := P2pSite.copies_safe_iff.mp (hcopies fuel hs) r hr
    refine ⟨htaken, fun fuel' => ?_, ?_⟩
    · by_cases hn : s = .noa
      · subst hn
        exact (P2pSite.copies_safe_iff.mp (hcopies fuel' (takes_noa hs fuel')) r hr).2
      · rwa [after_fuel hn fuel' fuel]
    · rintro rfl hrec
      exact hnoa ⟨fuel, hs⟩ r hr hrec
  · intro hright
    refine ⟨fun fuel c hc => ?_, fun htakes r hr hrec => (hright _ htakes r hr).2.2 rfl hrec⟩
    obtain ⟨s, hs, hc⟩ := List.mem_flatMap.mp hc
    refine P2pSite.copies_safe_iff.mpr (fun r hr => ?_) c hc
    obtain ⟨htaken, hafter, -⟩ := hright s ⟨fuel, hs⟩ r hr
    exact ⟨htaken, hafter fuel⟩

end P2pHandler

/-- An intent of two bytes. -/
def sampleIntentBytes : List UInt8 := [vendorSpecificIe, 9] ++ p2pOui ++ [0x04, 2, 0, 0x1C, 0]

/-- An element with the bytes at the address 0. -/
def sampleIntentElem : P2pElem where
  mem a := sampleIntentBytes.getD a.toNat 0
  ie := 0
  id_eq := rfl
  oui_eq := by decide

/-- A device before its first negotiation. -/
def sampleP2pEnv : P2pEnv := ⟨P2pAir.sampleDevice zeroAddr, true, 0, fun _ => 0, fun _ => 0⟩

/-- The intent is copied to a variable of one byte. -/
theorem not_staysInBuffers_sampleIntentElem :
    ¬ P2pHandler.negoReq.StaysInBuffers sampleP2pEnv sampleIntentElem := by
  rintro ⟨hsafe, -⟩
  have hattr : sampleIntentElem.attr P2pSite.goIntent.id = some (9, 2) := by decide +kernel
  have hmem : (⟨1, 2, 2⟩ : Copy) ∈ P2pHandler.negoReq.copies sampleP2pEnv sampleIntentElem 0 := by
    refine List.mem_flatMap.mpr ⟨.goIntent, List.mem_cons_self, ?_⟩
    rw [P2pSite.copies, hattr]
    exact List.mem_cons_self
  have hroom : 2 ≤ 1 := (hsafe 0 _ hmem).1
  omega

end Rtl8188eu
