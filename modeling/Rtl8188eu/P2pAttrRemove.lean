import Rtl8188eu.AttrSearch
import Rtl8188eu.MemCopy
import Rtl8188eu.MgntXmit

/-!
# Removing an attribute from the P2P element

`rtw_wlan_bssid_ex_remove_p2p_attr` takes all attributes with an id out of the P2P element of a BSS.
What is behind an attribute is moved down over it, and so is what is behind the element at the end.
Both moves are calls of `memcpy`, and their regions overlap if more is moved than has been taken out
(`P2pBss.removes_iff`).
-/

namespace Rtl8188eu

open AttrLists

/-! ## The functions of the source -/

/-- `rtw_get_p2p_attr` without a buffer. Each round of its loop passes a byte or more, or it does
not end. -/
def rtwGetP2pAttr (m : Mem) (p2pIe : ℤ) (p2pIelen attrId : ℕ) : Option Searched :=
  AttrKind.p2p.getAttr m p2pIe p2pIelen attrId false (p2pIelen + 1)

/-- What the loop of `rtw_p2p_attr_remove` does with an attribute that it has found. -/
def removeAttr (cp : Memcpy) (ie targetAttr : ℤ) (targetAttrLen remainLen : ℕ) (m : Mem) : Mem :=
  let zeros := List.replicate targetAttrLen 0
  let m₁ := cp.run (m.write targetAttr zeros) targetAttr (targetAttr + targetAttrLen) remainLen
  let m₂ := m₁.write (targetAttr + remainLen) zeros
  m₂.write (ie + 1) [m₂ (ie + 1) - UInt8.ofNat targetAttrLen]

/-- The loop of `rtw_p2p_attr_remove`. -/
def rtwP2pAttrRemove (cp : Memcpy) (ie : ℤ) (attrId : ℕ) : ℕ → Mem → ℕ → Option (Mem × ℕ)
  | 0, _, _ => none
  | fuel + 1, m, ielen =>
    (rtwGetP2pAttr m ie ielen attrId).bind fun r =>
      match r.result with
      | none => some (m, ielen)
      | some (targetAttr, targetAttrLen) =>
        if targetAttrLen = 0 then some (m, ielen)
        else
          let remainLen := u32 (ielen - (targetAttr + targetAttrLen - ie))
          rtwP2pAttrRemove cp ie attrId fuel (removeAttr cp ie targetAttr targetAttrLen remainLen m)
            (u32 (ielen - targetAttrLen))

/-- `rtw_wlan_bssid_ex_remove_p2p_attr` : the memory and `IELength`. `_FIXED_IE_LENGTH_` is 12. -/
def rtwWlanBssidExRemoveP2pAttr (cp : Memcpy) (m : Mem) (ies : ℤ) (ieLength attrId fuel : ℕ) : Option (Mem × ℕ) :=
  match rtwGetP2pIe m (ies + 12) (ieLength - 12) with
  | none => some (m, ieLength)
  | some (p2pIe, p2pIelenOri) =>
    (rtwP2pAttrRemove cp p2pIe attrId fuel m p2pIelenOri).map fun (m₁, p2pIelen) =>
      if p2pIelen ≠ p2pIelenOri then
        let nextIeOri := p2pIe + p2pIelenOri
        let nextIe := p2pIe + p2pIelen
        let remainLen := u32 (ieLength - (nextIeOri - ies))
        let removed := u32 (p2pIelenOri - p2pIelen)
        ((cp.run m₁ nextIe nextIeOri remainLen).write (nextIe + remainLen) (List.replicate removed 0),
          u32 (ieLength - removed))
      else (m₁, ieLength)

/-! ## Moves -/

/-- A block of `n` bytes is moved down by `k`, and what it leaves is cleared. -/
theorem write_move {cp : Memcpy} {n k : ℕ} (hcp : cp.Moves n k) (m : Mem) (q : ℤ) :
    (cp.run m q (q + k) n).write (q + n) (List.replicate k 0) =
      m.write q (m.read (q + k) n ++ List.replicate k 0) := by
  have hlen : (q + n : ℤ) = q + (m.read (q + k) n).length := by rw [Mem.length_read]
  rw [hcp m q, hlen, Mem.write_append]

/-- The same, where the block below has been cleared before. -/
theorem write_zeros_move {cp : Memcpy} {n k : ℕ} (hcp : cp.Moves n k) (m : Mem) (q : ℤ) :
    (cp.run (m.write q (List.replicate k 0)) q (q + k) n).write (q + n) (List.replicate k 0) =
      m.write q (m.read (q + k) n ++ List.replicate k 0) := by
  have hread : (m.write q (List.replicate k 0)).read (q + k) n = m.read (q + k) n :=
    Mem.read_write_of_disjoint m (Or.inr (by rw [List.length_replicate]))
  rw [write_move hcp, hread, Mem.write_write_of_le]
  rw [List.length_append, List.length_replicate]
  omega

/-! ## The search for an attribute -/

section Search

variable {m : Mem} {p : ℤ} {t : Stream' UInt8} {id : ℕ}

/-- The attributes of an element, as the bytes behind its OUI. -/
@[ext]
structure AttrList where
  attrs : List (Attr p2pFormat)
  length_le : (encode attrs).length ≤ 251

/-- The P2P element. -/
def AttrList.elem (l : AttrList) : Tlv.Elem := AttrArea.elem ⟨encode l.attrs, l.length_le⟩ .p2p

theorem AttrList.length_elem (l : AttrList) : l.elem.bytes.length = 6 + (encode l.attrs).length :=
  AttrFun.length_elem ⟨encode l.attrs, l.length_le⟩ .p2p

/-- The loop finds the first attribute with the id within as many rounds as there are bytes. -/
theorem attrLoop_encode {ielen : ℕ} : ∀ {as : List (Attr p2pFormat)} {off fuel : ℕ},
    bytesAt m (p + off) = encode as ++ₛ t → ielen = off + (encode as).length → ielen < 65536 →
      ielen < off + fuel →
    ∃ reads, attrLoop p2pFormat m p ielen id false fuel off =
      some ⟨(firstAt id as).map fun r => (p + (off + r.1 : ℕ), r.2.bytes.length), reads⟩
  | [], off, fuel, _, hlen, _, hfuel => by
    obtain ⟨fuel, rfl⟩ : ∃ k, fuel = k + 1 := ⟨fuel - 1, by omega⟩
    refine ⟨[], ?_⟩
    rw [attrLoop]
    dsimp only
    rw [if_neg (by rw [hlen, encode_nil, List.length_nil]; omega)]
    rfl
  | a :: as, off, fuel, h, hlen, hlt, hfuel => by
    obtain ⟨fuel, rfl⟩ : ∃ k, fuel = k + 1 := ⟨fuel - 1, by omega⟩
    rw [encode_cons] at h hlen
    have hhdr : p2pFormat.hdr ≤ (a.bytes ++ encode as).length := by
      rw [List.length_append, Attr.length_bytes]
      omega
    obtain ⟨-, hid, hl⟩ := read_header h hhdr
    rw [a.idOf_bytes] at hid
    rw [a.lenOf_bytes] at hl
    rw [List.length_append] at hlen
    have hsize := a.length_bytes
    have hpos := p2pFormat.hdr_pos
    have hstep : (a.data.length + p2pFormat.hdr) % 65536 = a.bytes.length := by
      rw [hsize, Nat.mod_eq_of_lt (by omega), Nat.add_comm]
    rw [attrLoop]
    dsimp only
    rw [if_pos (by omega), hid, hl, hstep, firstAt]
    by_cases htarget : a.id = id
    · rw [if_pos htarget, if_pos htarget]
      exact ⟨_, rfl⟩
    rw [Stream'.append_append_stream] at h
    have hnext := bytesAt_drop h
    rw [add_assoc, ← Nat.cast_add] at hnext
    obtain ⟨reads, hreads⟩ :=
      @attrLoop_encode ielen as (off + a.bytes.length) fuel hnext (by omega) hlt (by omega)
    rw [if_neg htarget, if_neg htarget, hreads]
    refine ⟨addrs (p + off) p2pFormat.hdr ++ reads, ?_⟩
    have hoff (r : ℕ × Attr p2pFormat) :
      off + a.bytes.length + r.1 = off + (r.1 + a.bytes.length) := by omega
    simp only [Option.map_some, Option.map_map, Function.comp_def, hoff]

theorem rtwGetP2pAttr_encode {l : AttrList} (h : bytesAt m p = l.elem.bytes ++ₛ t) :
    ∃ reads, rtwGetP2pAttr m p l.elem.bytes.length id =
      some ⟨(firstAt id l.attrs).map fun r => (p + (6 + r.1 : ℕ), r.2.bytes.length), reads⟩ := by
  have hlen := l.length_elem
  have hle := l.length_le
  obtain ⟨hid, houi, -, t', ht'⟩ :=
    AttrFun.header_of_elem (k := .p2p) (c := ⟨encode l.attrs, l.length_le⟩) h
  obtain ⟨reads, hreads⟩ :=
    @attrLoop_encode m p t' id l.elem.bytes.length l.attrs 6 (l.elem.bytes.length + 1) ht' hlen
    (by omega) (by omega)
  refine ⟨p :: addrs (p + 2) 4 ++ reads, ?_⟩
  unfold rtwGetP2pAttr AttrKind.getAttr
  rw [if_neg (not_not.mpr hid), if_neg (not_not.mpr houi)]
  change Option.map _ (attrLoop p2pFormat m p _ id false _ 6) = _
  rw [hreads]
  rfl

end Search

/-! ## The loop -/

section Loop

variable {cp : Memcpy} {m : Mem} {p : ℤ} {t : Stream' UInt8} {id : ℕ}
  {pre post : List (Attr p2pFormat)}
variable {a : Attr p2pFormat} {l l' : AttrList}

/-- An attribute is taken out of the element : what is behind it moves down, and zeros follow. -/
theorem bytesAt_removeAttr (hl : l.attrs = pre ++ a :: post) (hl' : l'.attrs = pre ++ post)
    (hcp : cp.Moves (encode post).length a.bytes.length) (h : bytesAt m p = l.elem.bytes ++ₛ t) :
    bytesAt (removeAttr cp p (p + (6 + (encode pre).length : ℕ)) a.bytes.length
      (encode post).length m) p =
      l'.elem.bytes ++ₛ (List.replicate a.bytes.length 0 ++ₛ t) := by
  have hlen := l.length_elem
  have hlen' := l'.length_elem
  have hle := l.length_le
  rw [hl, encode_append, encode_cons, List.length_append, List.length_append] at hlen hle
  rw [hl', encode_append, List.length_append] at hlen'
  -- the bytes before the attribute, and those from it on
  have hbytes : l.elem.bytes =
    (vendorSpecificIe :: l.elem.len :: (p2pOui ++ encode pre)) ++ (a.bytes ++ encode post) := by
    have hattrs : l.elem.bytes = vendorSpecificIe :: l.elem.len :: (p2pOui ++ encode l.attrs) := rfl
    rw [hattrs, hl, encode_append, encode_cons]
    simp
  have hbytes' : l'.elem.bytes =
    [vendorSpecificIe] ++ ([l'.elem.len] ++ (p2pOui ++ (encode pre ++ encode post))) := by
    have hattrs : l'.elem.bytes = vendorSpecificIe :: l'.elem.len :: (p2pOui ++ encode l'.attrs) :=
      rfl
    rw [hattrs, hl', encode_append]
    rfl
  have hhead : (vendorSpecificIe :: l.elem.len :: (p2pOui ++ encode pre)).length =
    6 + (encode pre).length := by
    simp [p2pOui]
    omega
  rw [hbytes, Stream'.append_append_stream] at h
  have htarget := bytesAt_drop h
  rw [hhead, Stream'.append_append_stream] at htarget
  have hnext := read_of_bytesAt (bytesAt_drop htarget)
  have hsize : (encode post ++ List.replicate a.bytes.length 0).length =
    (a.bytes ++ encode post).length := by
    rw [List.length_append, List.length_append, List.length_replicate, Nat.add_comm]
  have hmoved := bytesAt_write_block h hsize
  rw [hhead] at hmoved
  unfold removeAttr
  dsimp only
  rw [write_zeros_move hcp, hnext]
  generalize m.write _ _ = m₂ at hmoved ⊢
  have hlenByte : m₂ (p + 1) = l.elem.len := (IeSearch.header_of_bytesAt hmoved).2.1
  have hnew : l.elem.len - UInt8.ofNat a.bytes.length = l'.elem.len := by
    rw [Tlv.Elem.length_bytes] at hlen hlen'
    rw [Tlv.Elem.len, Tlv.Elem.len, ← UInt8.ofNat_sub (by omega)]
    congr 1
    omega
  rw [hlenByte, hnew, hbytes']
  have hcut : bytesAt m₂ p = [vendorSpecificIe] ++ₛ ([l.elem.len] ++ₛ
      ((p2pOui ++ (encode pre ++ encode post)) ++ₛ (List.replicate a.bytes.length 0 ++ₛ t))) := by
    rw [hmoved]
    simp only [← Stream'.append_append_stream]
    simp
  have hlast := bytesAt_write_block hcut (show [l'.elem.len].length = _ from rfl)
  rw [List.length_singleton, Nat.cast_one] at hlast
  rw [hlast]
  simp only [Stream'.append_append_stream]

/-- Nothing outside the element is changed. -/
theorem removeAttr_of_disjoint (hl : l.attrs = pre ++ a :: post)
    (hcp : cp.Moves (encode post).length a.bytes.length) {x : ℤ}
    (hx : x < p ∨ p + l.elem.bytes.length ≤ x) :
    removeAttr cp p (p + (6 + (encode pre).length : ℕ)) a.bytes.length (encode post).length m
      x = m x := by
  have hlen := l.length_elem
  rw [hl, encode_append, encode_cons, List.length_append, List.length_append] at hlen
  unfold removeAttr
  rw [write_zeros_move hcp, Mem.write_of_disjoint, Mem.write_of_disjoint]
  · rw [List.length_append, Mem.length_read, List.length_replicate]
    omega
  · rw [List.length_singleton]
    omega

/-- A round of the loop. -/
theorem rtwP2pAttrRemove_succ (fuel : ℕ) (h : bytesAt m p = l.elem.bytes ++ₛ t) :
    (firstAt id l.attrs = none → rtwP2pAttrRemove cp p id (fuel + 1) m l.elem.bytes.length =
      some (m, l.elem.bytes.length)) ∧
    ∀ pre a post, l.attrs = pre ++ a :: post → firstAt id l.attrs = some ((encode pre).length, a) →
      rtwP2pAttrRemove cp p id (fuel + 1) m l.elem.bytes.length = rtwP2pAttrRemove cp p id fuel
        (removeAttr cp p (p + (6 + (encode pre).length : ℕ)) a.bytes.length (encode post).length m)
        (6 + (encode (pre ++ post)).length) := by
  obtain ⟨reads, hreads⟩ := @rtwGetP2pAttr_encode m p t id l h
  have hle := l.length_le
  have hlen := l.length_elem
  rw [rtwP2pAttrRemove, hreads, Option.bind_some]
  dsimp only
  constructor
  · intro hnone
    rw [hnone]
    rfl
  · intro pre a post hl hsome
    rw [hl, encode_append, encode_cons, List.length_append, List.length_append] at hlen hle
    have hpos : a.bytes.length ≠ 0 := by
      rw [a.length_bytes]
      exact (Nat.add_pos_left p2pFormat.hdr_pos _).ne'
    have hremain : u32 ((l.elem.bytes.length : ℤ) - (p + (6 + (encode pre).length : ℕ) +
      a.bytes.length - p)) =
        (encode post).length := by
      unfold u32
      omega
    have hrest : u32 ((l.elem.bytes.length : ℤ) - a.bytes.length) =
      6 + (encode (pre ++ post)).length := by
      rw [encode_append, List.length_append]
      unfold u32
      omega
    rw [hsome, Option.map_some]
    dsimp only
    rw [if_neg hpos, hremain, hrest]

/-- More rounds than the loop takes do not matter. -/
theorem rtwP2pAttrRemove_mono {r : Mem × ℕ} : ∀ {fuel fuel' ielen : ℕ} {m : Mem},
    rtwP2pAttrRemove cp p id fuel m ielen = some r → fuel ≤ fuel' →
      rtwP2pAttrRemove cp p id fuel' m ielen = some r
  | fuel + 1, fuel', ielen, m, h, hle => by
    obtain ⟨k, rfl⟩ : ∃ k, fuel' = k + 1 := ⟨fuel' - 1, by omega⟩
    rw [rtwP2pAttrRemove] at h ⊢
    obtain ⟨x, hx, hr⟩ := Option.bind_eq_some_iff.mp h
    rw [hx, Option.bind_some]
    split at hr
    · exact hr
    · split at hr
      · rename_i hzero
        dsimp only
        rw [if_pos hzero]
        exact hr
      · rename_i hzero
        dsimp only
        rw [if_neg hzero]
        exact rtwP2pAttrRemove_mono hr (by omega)

/-- Where an attribute with the id is, `R` holds of how many bytes are behind it and of its own
length. -/
def AtRemoved (id : ℕ) (R : ℕ → ℕ → Prop) : List (Attr p2pFormat) → Prop
  | [] => True
  | a :: as => (a.id = id → R (encode as).length a.bytes.length) ∧ AtRemoved id R as

theorem atRemoved_append {R : ℕ → ℕ → Prop} {bs : List (Attr p2pFormat)} :
    ∀ {as : List (Attr p2pFormat)},
    (∀ a ∈ as, a.id ≠ id) → (AtRemoved id R (as ++ bs) ↔ AtRemoved id R bs)
  | [], _ => Iff.rfl
  | a :: as, h => by
    obtain ⟨ha, has⟩ := List.forall_mem_cons.mp h
    rw [List.cons_append, AtRemoved, atRemoved_append has]
    exact and_iff_right fun hid => absurd hid ha

theorem atRemoved_of_firstAt_eq_none {R : ℕ → ℕ → Prop} {as : List (Attr p2pFormat)}
    (h : firstAt id as = none) :
    AtRemoved id R as := by
  rw [← List.append_nil as, atRemoved_append (firstAt_eq_none.mp h)]
  trivial

theorem AtRemoved.mono {R S : ℕ → ℕ → Prop} (hRS : ∀ n k, R n k → S n k) :
    ∀ {as : List (Attr p2pFormat)},
    AtRemoved id R as → AtRemoved id S as
  | [], _ => trivial
  | _ :: _, h => ⟨fun hid => hRS _ _ (h.1 hid), AtRemoved.mono hRS h.2⟩

/-- The element without the attributes with the id. -/
def AttrList.without (l : AttrList) (id : ℕ) : AttrList where
  attrs := l.attrs.filter fun a => decide (a.id ≠ id)
  length_le := (length_encode_le List.filter_sublist).trans l.length_le

theorem AttrList.without_of_firstAt_eq_none (h : firstAt id l.attrs = none) : l.without id = l :=
  AttrList.ext (List.filter_eq_self.mpr fun a ha => decide_eq_true (firstAt_eq_none.mp h a ha))

/-- The first attribute is taken out. -/
theorem AttrList.exists_firstAt {r : ℕ × Attr p2pFormat} (h : firstAt id l.attrs = some r) :
    ∃ pre post, ∃ l' : AttrList, l.attrs = pre ++ r.2 :: post ∧ r.1 = (encode pre).length ∧
      r.2.id = id ∧
      (∀ a ∈ pre, a.id ≠ id) ∧ l'.attrs = pre ++ post ∧ l'.without id = l.without id := by
  obtain ⟨pre, post, hl, hoff, hid, hpre⟩ := firstAt_eq_some h
  have hsub : (pre ++ post).Sublist l.attrs := by
    rw [hl]
    exact (List.sublist_cons_self r.2 post).append_left pre
  have hfilter : (pre ++ post).filter (fun a => decide (a.id ≠ id)) =
    l.attrs.filter fun a => decide (a.id ≠ id) := by
    rw [hl, List.filter_append, List.filter_append, List.filter_cons_of_neg (by simp [hid])]
  exact ⟨pre, post, ⟨pre ++ post, (length_encode_le hsub).trans l.length_le⟩, hl, hoff, hid,
    hpre, rfl,
    AttrList.ext hfilter⟩

theorem AttrList.length_without_le (l : AttrList) (id : ℕ) :
    (l.without id).elem.bytes.length ≤ l.elem.bytes.length := by
  have hle := length_encode_le
    (List.filter_sublist (p := fun a : Attr p2pFormat => decide (a.id ≠ id)) (l := l.attrs))
  have hlen := (l.without id).length_elem
  rw [l.length_elem, hlen]
  exact Nat.add_le_add_left hle 6

/-- With a `memcpy` that moves what is behind each attribute with the id, the loop takes these
attributes out. -/
theorem exists_rtwP2pAttrRemove (hcp : AtRemoved id cp.Moves l.attrs)
    (h : bytesAt m p = l.elem.bytes ++ₛ t) :
    ∃ fuel m', rtwP2pAttrRemove cp p id fuel m l.elem.bytes.length =
      some (m', (l.without id).elem.bytes.length) ∧
      bytesAt m' p = (l.without id).elem.bytes ++ₛ
        (List.replicate (l.elem.bytes.length - (l.without id).elem.bytes.length) 0 ++ₛ t) ∧
      ∀ x, x < p ∨ p + l.elem.bytes.length ≤ x → m' x = m x := by
  induction hn : l.attrs.length using Nat.strong_induction_on generalizing l m t with
  | _ n ih =>
    cases hfirst : firstAt id l.attrs with
    | none =>
      have hsame := l.without_of_firstAt_eq_none hfirst
      refine ⟨1, m, ?_, ?_, fun _ _ => rfl⟩
      · rw [(rtwP2pAttrRemove_succ 0 h).1 hfirst, hsame]
      · rw [hsame, Nat.sub_self, List.replicate_zero, h]
        rfl
    | some r =>
      obtain ⟨pre, post, l', hl, hoff, hid, hpre, hl', hwithout⟩ := l.exists_firstAt hfirst
      rw [hl, atRemoved_append hpre] at hcp
      have hmoves := hcp.1 hid
      have hremoved := bytesAt_removeAttr hl hl' hmoves h
      have hshort : l'.attrs.length < n := by
        rw [← hn, hl, hl', List.length_append, List.length_append, List.length_cons]
        omega
      have hcp' : AtRemoved id cp.Moves l'.attrs := by
        rw [hl', atRemoved_append hpre]
        exact hcp.2
      obtain ⟨fuel, m', hrun, hbytes, hframe⟩ := ih _ hshort hcp' hremoved rfl
      have hlen := l.length_elem
      have hlen' := l'.length_elem
      have hle := l'.length_without_le id
      have hround := (@rtwP2pAttrRemove_succ cp m p t id l fuel h).2 pre r.2 post hl
        (by rw [hfirst, ← hoff])
      rw [hl'] at hlen'
      rw [hl, encode_append, encode_cons, List.length_append, List.length_append] at hlen
      rw [← hlen', hrun, hwithout] at hround
      rw [encode_append, List.length_append] at hlen'
      rw [hwithout] at hbytes hle
      refine ⟨fuel + 1, m', hround, ?_, fun x hx => ?_⟩
      · rw [hbytes, ← Stream'.append_append_stream (List.replicate _ _),
          List.replicate_append_replicate]
        congr 3
        omega
      · rw [hframe x (by omega), removeAttr_of_disjoint hl hmoves hx]

/-- Where there is no vendor element the loop stops. -/
theorem rtwP2pAttrRemove_of_ne {fuel ielen n : ℕ} {m' : Mem} (h : m p ≠ vendorSpecificIe)
    (hrun : rtwP2pAttrRemove cp p id fuel m ielen = some (m', n)) : m' = m ∧ n = ielen := by
  cases fuel with
  | zero => cases hrun
  | succ fuel =>
    rw [rtwP2pAttrRemove, rtwGetP2pAttr, AttrKind.getAttr, if_pos h] at hrun
    obtain ⟨hm, hn⟩ := Prod.mk.inj (Option.some.inj hrun)
    exact ⟨hm.symm, hn.symm⟩

/-- If the copy clears the memory when its regions overlap, the first byte of the element is only
left where they do not overlap. -/
theorem atRemoved_of_clearing {n : ℕ} {m' : Mem} :
    ∀ {fuel : ℕ} {m : Mem} {t : Stream' UInt8} {l : AttrList},
    bytesAt m p = l.elem.bytes ++ₛ t →
      rtwP2pAttrRemove .clearing p id fuel m l.elem.bytes.length = some (m', n) →
      6 ≤ n ∧ n ≤ l.elem.bytes.length ∧
        (m' p ≠ 0 → AtRemoved id (· ≤ ·) l.attrs ∧ n = (l.without id).elem.bytes.length)
  | fuel + 1, m, t, l, h, hrun => by
    have hlen := l.length_elem
    cases hfirst : firstAt id l.attrs with
    | none =>
      rw [(rtwP2pAttrRemove_succ fuel h).1 hfirst] at hrun
      cases hrun
      refine ⟨by omega, le_rfl, fun _ => ⟨atRemoved_of_firstAt_eq_none hfirst, ?_⟩⟩
      rw [AttrList.without_of_firstAt_eq_none hfirst]
    | some r =>
      obtain ⟨pre, post, l', hl, hoff, hid, hpre, hl', hwithout⟩ := l.exists_firstAt hfirst
      have hround := (@rtwP2pAttrRemove_succ .clearing m p t id l fuel h).2 pre r.2 post hl
        (by rw [hfirst, ← hoff])
      have hlen' := l'.length_elem
      rw [hl'] at hlen'
      rw [hrun, ← hlen'] at hround
      rw [hl, encode_append, encode_cons, List.length_append, List.length_append] at hlen
      rw [encode_append, List.length_append] at hlen'
      by_cases hle : (encode post).length ≤ r.2.bytes.length
      · have hremoved := bytesAt_removeAttr hl hl' (Memcpy.clearing.moves_of_le hle) h
        obtain ⟨hsix, hn, hrest⟩ := atRemoved_of_clearing hremoved hround.symm
        refine ⟨hsix, by omega, fun hm' => ?_⟩
        obtain ⟨hat, hn'⟩ := hrest hm'
        rw [hl', atRemoved_append hpre] at hat
        rw [hl, atRemoved_append hpre]
        exact ⟨⟨fun _ => hle, hat⟩, by rw [hn', hwithout]⟩
      · -- the copy has cleared the memory, and with it the id of the element
        have hpos : 0 < r.2.bytes.length := by
          rw [r.2.length_bytes]
          exact Nat.add_pos_left p2pFormat.hdr_pos _
        have hzero : removeAttr .clearing p (p + (6 + (encode pre).length : ℕ)) r.2.bytes.length
          (encode post).length m p =
            0 := by
          unfold removeAttr
          rw [Memcpy.clearing_of_lt (by omega) hpos, Mem.write_of_disjoint _ (Or.inl (by omega)),
            Mem.write_of_disjoint _ (Or.inl (by omega))]
        obtain ⟨rfl, rfl⟩ := rtwP2pAttrRemove_of_ne (by rw [hzero]; decide) hround.symm
        exact ⟨by omega, by omega, fun hm' => absurd hzero hm'⟩

end Loop

/-! ## The BSS -/

/-- The elements of a BSS with one P2P element. Every vendor element has an OUI and a type, and the
elements fit the array behind the fixed fields. -/
structure P2pBss where
  before : List Tlv.Elem
  p2p : AttrList
  after : List Tlv.Elem
  vendor : ∀ e ∈ before ++ after, e.id = vendorSpecificIe → 4 ≤ e.body.length
  unique : ∀ e ∈ before ++ after, Own vendorSpecificIe p2pOui e = false
  fits : 12 + (Tlv.encode (before ++ p2p.elem :: after)).length ≤ maxIeSz

namespace P2pBss

variable {m : Mem} {ies : ℤ} {t : Stream' UInt8} {id : ℕ}

/-- The elements. -/
def elems (b : P2pBss) : List Tlv.Elem := b.before ++ b.p2p.elem :: b.after

/-- The elements without the attributes with the id. -/
def without (b : P2pBss) (id : ℕ) : List Tlv.Elem := b.before ++ (b.p2p.without id).elem :: b.after

/-- The call ends, and leaves the elements without the attributes with the id, of which `IELength`
is the length. It changes nothing outside the elements. -/
def Removes (cp : Memcpy) (m : Mem) (ies : ℤ) (b : P2pBss) (id : ℕ) : Prop :=
  ∃ fuel m', rtwWlanBssidExRemoveP2pAttr cp m ies (12 + (Tlv.encode b.elems).length) id fuel =
      some (m', 12 + (Tlv.encode (b.without id)).length) ∧
    m'.read (ies + 12) (Tlv.encode (b.without id)).length = Tlv.encode (b.without id) ∧
    ∀ x, x < ies + 12 ∨ ies + 12 + (Tlv.encode b.elems).length ≤ x → m' x = m x

theorem four_le_body (l : AttrList) : 4 ≤ l.elem.body.length := by
  have hlen := l.length_elem
  rw [Tlv.Elem.length_bytes] at hlen
  omega

/-- The P2P element is found. -/
theorem rtwGetP2pIe_eq (b : P2pBss) (h : bytesAt m (ies + 12) = Tlv.encode b.elems ++ₛ t) :
    rtwGetP2pIe m (ies + 12) (Tlv.encode b.elems).length =
      some (ies + 12 + (Tlv.encode b.before).length, b.p2p.elem.bytes.length) := by
  have hiff := @ieSearch_iff m (ies + 12) t b.elems vendorSpecificIe (some p2pOui)
    (fun cnt _ => decide (maxIeSz < cnt))
    (fun _ _ _ _ hc _ h => by simp only [decide_eq_true_eq] at h ⊢; omega) h
  have huncompleted : Uncompleted vendorSpecificIe p2pOui
    (fun cnt _ => decide (maxIeSz < cnt)) t b.elems 0 0 := by
    rintro pre e post hes - ⟨hid, hshort, -⟩
    have hmem : e ∈ b.before ++ b.p2p.elem :: b.after := by
      rw [← elems, hes]
      simp
    have hfour : 4 ≤ e.body.length := by
      rw [List.mem_append, List.mem_cons] at hmem
      rcases hmem with hmem | rfl | hmem
      · exact b.vendor e (List.mem_append_left _ hmem) hid
      · exact four_le_body b.p2p
      · exact b.vendor e (List.mem_append_right _ hmem) hid
    exact absurd hshort (Nat.not_lt.mpr hfour)
  have hfirst : Tlv.firstAt (Own vendorSpecificIe p2pOui) b.elems =
    some ((Tlv.encode b.before).length, b.p2p.elem) := by
    have hown : Own vendorSpecificIe p2pOui b.p2p.elem = true := by
      rw [Own, Bool.and_eq_true, decide_eq_true_iff, List.isPrefixOf_iff_prefix]
      exact ⟨rfl, List.prefix_append p2pOui (encode b.p2p.attrs)⟩
    rw [elems, Tlv.firstAt_append fun e he => b.unique e (List.mem_append_left _ he), Tlv.firstAt,
      if_pos hown]
    rfl
  have hfits := b.fits
  rw [Tlv.encode_append, List.length_append] at hfits
  have hsearch := hiff.mpr huncompleted
  rw [Option.getD_some, hfirst, Option.filter_some, if_pos (by simp; omega)] at hsearch
  rw [rtwGetP2pIe, if_neg (by omega), Int.toNat_natCast, hsearch]
  rfl

/-- The P2P element and what is behind it. -/
theorem bytesAt_p2p (b : P2pBss) (h : bytesAt m (ies + 12) = Tlv.encode b.elems ++ₛ t) :
    bytesAt m (ies + 12 + (Tlv.encode b.before).length) =
      b.p2p.elem.bytes ++ₛ (Tlv.encode b.after ++ₛ t) := by
  rw [elems, Tlv.encode_append, Tlv.encode_cons, Stream'.append_append_stream,
    Stream'.append_append_stream] at h
  exact bytesAt_drop h

/-- How many bytes are taken out. -/
def removed (b : P2pBss) (id : ℕ) : ℕ := b.p2p.elem.bytes.length - (b.p2p.without id).elem.bytes.length

theorem length_elems (b : P2pBss) : (Tlv.encode b.elems).length =
    (Tlv.encode b.before).length + (b.p2p.elem.bytes.length + (Tlv.encode b.after).length) := by
  rw [elems, Tlv.encode_append, Tlv.encode_cons, List.length_append, List.length_append]

theorem length_without (b : P2pBss) (id : ℕ) : (Tlv.encode (b.without id)).length =
    (Tlv.encode b.before).length +
    ((b.p2p.without id).elem.bytes.length + (Tlv.encode b.after).length) := by
  rw [without, Tlv.encode_append, Tlv.encode_cons, List.length_append, List.length_append]

/-- What is behind each attribute with the id, and what is behind the element if something is taken
out, is as `R` demands. -/
def AllMoves (R : ℕ → ℕ → Prop) (b : P2pBss) (id : ℕ) : Prop :=
  AtRemoved id R b.p2p.attrs ∧ (0 < b.removed id → R (Tlv.encode b.after).length (b.removed id))

/-- The call, with what the loop returns. -/
theorem run_eq {cp : Memcpy} (b : P2pBss) (h : bytesAt m (ies + 12) = Tlv.encode b.elems ++ₛ t)
    (fuel : ℕ) :
    rtwWlanBssidExRemoveP2pAttr cp m ies (12 + (Tlv.encode b.elems).length) id fuel =
      (rtwP2pAttrRemove cp
      (ies + 12 + (Tlv.encode b.before).length) id fuel m b.p2p.elem.bytes.length).map
        fun (m₁, p2pIelen) =>
          if p2pIelen ≠ b.p2p.elem.bytes.length then
            let nextIe := ies + 12 + (Tlv.encode b.before).length + p2pIelen
            let removed := u32 (b.p2p.elem.bytes.length - p2pIelen)
            ((cp.run m₁ nextIe (ies + 12 + (Tlv.encode b.before).length + b.p2p.elem.bytes.length)
              (Tlv.encode b.after).length).write (nextIe + (Tlv.encode b.after).length)
              (List.replicate removed 0),
                u32 (12 + (Tlv.encode b.elems).length - removed))
          else (m₁, 12 + (Tlv.encode b.elems).length) := by
  have hlen := b.length_elems
  have hfits := b.fits
  rw [← elems] at hfits
  have harea : ((12 + (Tlv.encode b.elems).length : ℕ) : ℤ) - 12 =
    (Tlv.encode b.elems).length := by omega
  have hremain : u32 ((12 + (Tlv.encode b.elems).length : ℕ) -
      (ies + 12 + (Tlv.encode b.before).length + b.p2p.elem.bytes.length - ies)) =
      (Tlv.encode b.after).length := by
    simp only [maxIeSz] at hfits
    unfold u32
    omega
  unfold rtwWlanBssidExRemoveP2pAttr
  rw [harea, b.rtwGetP2pIe_eq h]
  dsimp only
  rw [hremain]
  rfl

/-- The elements are read, where the part from the P2P element on is as it should be and the part
before it is not changed. -/
theorem read_without (b : P2pBss) {m' : Mem} {t' : Stream' UInt8}
    (h : bytesAt m (ies + 12) = Tlv.encode b.elems ++ₛ t)
    (hframe : ∀ x, x < ies + 12 + (Tlv.encode b.before).length → m' x = m x)
    (hbytes : bytesAt m' (ies + 12 + (Tlv.encode b.before).length) =
      (b.p2p.without id).elem.bytes ++ₛ (Tlv.encode b.after ++ₛ t')) :
    m'.read (ies + 12) (Tlv.encode (b.without id)).length = Tlv.encode (b.without id) := by
  rw [elems, Tlv.encode_append, Stream'.append_append_stream] at h
  have hbefore : m'.read (ies + 12) (Tlv.encode b.before).length = Tlv.encode b.before := by
    have hsame : m'.read (ies + 12) (Tlv.encode b.before).length = m.read (ies + 12)
      (Tlv.encode b.before).length :=
      Mem.read_congr fun i hi => hframe _ (by omega)
    rw [hsame, read_of_bytesAt h]
  have hrest : m'.read (ies + 12 + (Tlv.encode b.before).length)
      ((b.p2p.without id).elem.bytes ++ Tlv.encode b.after).length =
      (b.p2p.without id).elem.bytes ++ Tlv.encode b.after :=
    read_of_bytesAt (by rw [hbytes, Stream'.append_append_stream])
  rw [without, Tlv.encode_append, Tlv.encode_cons, List.length_append, Mem.read_add, hbefore, hrest]

theorem rtwWlanBssidExRemoveP2pAttr_mono {cp : Memcpy} {r : Mem × ℕ} {ieLength fuel fuel' : ℕ}
    (h : rtwWlanBssidExRemoveP2pAttr cp m ies ieLength id fuel = some r) (hle : fuel ≤ fuel') :
    rtwWlanBssidExRemoveP2pAttr cp m ies ieLength id fuel' = some r := by
  unfold rtwWlanBssidExRemoveP2pAttr at h ⊢
  split at h
  · exact h
  · obtain ⟨x, hx, hr⟩ := Option.map_eq_some_iff.mp h
    rw [rtwP2pAttrRemove_mono hx hle, Option.map_some, hr]

/-- With a `memcpy` that makes all moves the attributes are removed. -/
theorem removes_of_moves {cp : Memcpy} (b : P2pBss) (hcp : b.AllMoves cp.Moves id)
    (h : bytesAt m (ies + 12) = Tlv.encode b.elems ++ₛ t) : Removes cp m ies b id := by
  have hp := b.bytesAt_p2p h
  obtain ⟨fuel, m₁, hrun, hbytes, hframe⟩ := exists_rtwP2pAttrRemove hcp.1 hp
  have hle := b.p2p.length_without_le id
  have hlen := b.length_elems
  have hlen' := b.length_without id
  have hfits := b.fits
  rw [← elems] at hfits
  simp only [maxIeSz] at hfits
  have hcall := @run_eq m ies t id cp b h fuel
  rw [hrun, Option.map_some] at hcall
  dsimp only at hcall
  have hremoved : b.removed id = b.p2p.elem.bytes.length - (b.p2p.without id).elem.bytes.length :=
    rfl
  by_cases hpos : 0 < b.removed id
  · have hk : u32 (b.p2p.elem.bytes.length - (b.p2p.without id).elem.bytes.length : ℤ) =
      b.removed id := by
      unfold u32
      omega
    have hnext : ies + 12 + (Tlv.encode b.before).length + b.p2p.elem.bytes.length =
        ies + 12 + (Tlv.encode b.before).length + (b.p2p.without id).elem.bytes.length + b.removed
          id := by omega
    have hieLength : u32 (12 + (Tlv.encode b.elems).length - b.removed id) =
      12 + (Tlv.encode (b.without id)).length := by
      unfold u32
      omega
    rw [if_pos (by omega), hk, hnext, hieLength, write_move (hcp.2 hpos)] at hcall
    rw [← hremoved] at hbytes
    have hdrop := bytesAt_drop (bytesAt_drop hbytes)
    rw [List.length_replicate] at hdrop
    rw [read_of_bytesAt hdrop] at hcall
    rw [← Stream'.append_append_stream (List.replicate _ _)] at hbytes
    have hsize : (Tlv.encode b.after ++ List.replicate (b.removed id) (0 : UInt8)).length =
        (List.replicate (b.removed id) (0 : UInt8) ++ Tlv.encode b.after).length := by
      rw [List.length_append, List.length_append, Nat.add_comm]
    have hmoved := bytesAt_write_block hbytes hsize
    rw [Stream'.append_append_stream (Tlv.encode b.after)] at hmoved
    refine ⟨fuel, _, hcall, read_without b h (fun x hx => ?_) hmoved, fun x hx => ?_⟩
    · rw [Mem.write_of_disjoint _ (Or.inl (by omega)), hframe x (Or.inl hx)]
    · rw [Mem.write_of_disjoint, hframe x (by omega)]
      rw [List.length_append, List.length_replicate]
      omega
  · rw [if_neg (by omega)] at hcall
    rw [show b.p2p.elem.bytes.length - (b.p2p.without id).elem.bytes.length = 0 by
      omega, List.replicate_zero] at hbytes
    have hieLength : (Tlv.encode b.elems).length = (Tlv.encode (b.without id)).length := by omega
    exact ⟨fuel, m₁, hcall.trans (by rw [hieLength]),
      read_without b h (fun x hx => hframe x (Or.inl hx)) hbytes,
      fun x hx => hframe x (by omega)⟩

/-- If the attributes are removed with a `memcpy` that clears the memory when its regions overlap,
none of its calls has regions that overlap. -/
theorem allMoves_of_clearing (b : P2pBss) (h : bytesAt m (ies + 12) = Tlv.encode b.elems ++ₛ t)
    (hr : Removes .clearing m ies b id) : b.AllMoves (· ≤ ·) id := by
  obtain ⟨fuel, m', hrun, hread, -⟩ := hr
  rw [run_eq b h] at hrun
  obtain ⟨⟨m₁, n⟩, hloop, hrun⟩ := Option.map_eq_some_iff.mp hrun
  obtain ⟨hsix, hn, hclear⟩ := atRemoved_of_clearing (b.bytesAt_p2p h) hloop
  dsimp only at hrun
  -- the id of the P2P element is still there
  have hid : m' (ies + 12 + (Tlv.encode b.before).length) ≠ 0 := by
    have hbytes := bytesAt_of_read hread
    rw [without, Tlv.encode_append, Stream'.append_append_stream] at hbytes
    rw [id_of_bytesAt (bytesAt_drop hbytes)]
    change vendorSpecificIe ≠ 0
    decide
  have hremoved : b.removed id = b.p2p.elem.bytes.length - (b.p2p.without id).elem.bytes.length :=
    rfl
  split at hrun
  · rename_i hne
    obtain ⟨hm', -⟩ := Prod.mk.inj hrun
    have hnext : ies + 12 + (Tlv.encode b.before).length + b.p2p.elem.bytes.length =
        ies + 12 + (Tlv.encode b.before).length + n + (b.p2p.elem.bytes.length - n : ℕ) := by omega
    rw [hnext] at hm'
    by_cases hle : (Tlv.encode b.after).length ≤ b.p2p.elem.bytes.length - n
    · rw [Memcpy.clearing.moves_of_le hle] at hm'
      have hsame : m' (ies + 12 + (Tlv.encode b.before).length) = m₁
        (ies + 12 + (Tlv.encode b.before).length) := by
        rw [← hm', Mem.write_of_disjoint _ (Or.inl (by omega)),
          Mem.write_of_disjoint _ (Or.inl (by omega))]
      rw [hsame] at hid
      obtain ⟨hat, hn'⟩ := hclear hid
      exact ⟨hat, fun _ => by rw [hremoved, ← hn']; exact hle⟩
    · rw [Memcpy.clearing_of_lt (by omega) (by omega)] at hm'
      rw [← hm', Mem.write_of_disjoint _ (Or.inl (by omega))] at hid
      exact absurd rfl hid
  · rename_i heq
    obtain ⟨rfl, -⟩ := Prod.mk.inj hrun
    obtain ⟨hat, hn'⟩ := hclear hid
    exact ⟨hat, fun hpos => by omega⟩

/-- The attributes with an id are removed by every `memcpy` exactly if no more bytes are moved than
have been taken out, behind each of them and behind the element. -/
theorem removes_iff (m₀ : Mem) (ies : ℤ) (b : P2pBss) (id : ℕ) :
    (∀ cp : Memcpy, Removes cp (m₀.write (ies + 12) (Tlv.encode b.elems)) ies b id) ↔ b.AllMoves (· ≤ ·) id := by
  have h := bytesAt_write m₀ (ies + 12) (Tlv.encode b.elems)
  constructor
  · exact fun hall => allMoves_of_clearing b h (hall .clearing)
  · exact fun hmoves cp => b.removes_of_moves
      ⟨hmoves.1.mono fun _ _ => cp.moves_of_le, fun hpos => cp.moves_of_le (hmoves.2 hpos)⟩ h

/-- An attribute of three bytes before one of five. -/
def sampleP2pBss : P2pBss where
  before := []
  p2p := ⟨[⟨1, [], by decide, by decide⟩, ⟨2, [7, 8], by decide, by decide⟩], by decide⟩
  after := []
  vendor _ h := absurd h List.not_mem_nil
  unique _ h := absurd h List.not_mem_nil
  fits := by decide

/-- A `memcpy` that starts with the highest byte leaves the two data bytes of the second attribute
twice. -/
theorem not_removes_descending : ¬∀ (cp : Memcpy) (m₀ : Mem) (ies : ℤ) (b : P2pBss) (id : ℕ),
    Removes cp (m₀.write (ies + 12) (Tlv.encode b.elems)) ies b id := by
  intro h
  obtain ⟨fuel, m', hrun, hread, -⟩ := h .descending (fun _ => 0) 0 sampleP2pBss 1
  have hread' : ∃ r, rtwWlanBssidExRemoveP2pAttr .descending
      (Mem.write (fun _ => 0) (0 + 12) (Tlv.encode sampleP2pBss.elems)) 0
        (12 + (Tlv.encode sampleP2pBss.elems).length) 1 2 =
        some r ∧ r.1.read (0 + 12) (Tlv.encode (sampleP2pBss.without 1)).length =
          [0xdd, 9, 0x50, 0x6f, 0x9a, 0x09, 7, 8, 0, 7, 8] :=
    Option.map_eq_some_iff.mp (by decide +kernel)
  obtain ⟨r, hr, hvalue⟩ := hread'
  have hsame := (rtwWlanBssidExRemoveP2pAttr_mono hr (le_max_left 2 fuel)).symm.trans
    (rtwWlanBssidExRemoveP2pAttr_mono hrun (le_max_right 2 fuel))
  cases hsame
  rw [hread] at hvalue
  exact absurd hvalue (by decide +kernel)

end P2pBss

end Rtl8188eu
