import Mathlib.Logic.Function.Basic
import Rtl8188eu.TlvLists

/-!
# The element parser

`rtw_ieee802_11_parse_elems` reads the information elements of a received association frame and
keeps a pointer to the body of every kind of element, and its length. Every read of the model is a
read of the byte string and fails outside of it, so a result also says that nothing else was read.

`parseElems_exact` : the parser returns on every byte string, refuses the ones that are not lists of
elements, and points at the last element of every kind in the others.
-/

namespace Rtl8188eu

open Tlv

/-- The pointers of `struct rtw_ieee802_11_elems`. -/
inductive ElemField where
  | ssid
  | suppRates
  | fhParams
  | dsParams
  | cfParams
  | tim
  | ibssParams
  | challenge
  | erpInfo
  | extSuppRates
  | wpaIe
  | rsnIe
  | wme
  | wmeTspec
  | wpsIe
  | powerCap
  | suppChannels
  | mdie
  | ftie
  | timeoutInt
  | htCapabilities
  | htOperation
  | vendorHtCap
deriving DecidableEq, Repr

/-- `struct rtw_ieee802_11_elems` : an offset in the byte string and a length for every pointer that
is not `NULL`. -/
abbrev Elems := ElemField → Option (ℕ × ℕ)

/-- `enum parse_res`. -/
inductive ParseRes where
  | ok
  | unknown
  | failed
deriving DecidableEq, Repr

/-- `OUI_MICROSOFT`. -/
def ouiMicrosoft : ℕ := 0x0050f2
/-- `OUI_BROADCOM`. -/
def ouiBroadcom : ℕ := 0x00904c
/-- `WME_OUI_TYPE`. -/
def wmeOuiType : UInt8 := 2
/-- `VENDOR_HT_CAPAB_OUI_TYPE`. -/
def vendorHtCapabOuiType : UInt8 := 0x33
/-- `WLAN_EID_VENDOR_SPECIFIC`. -/
def wlanEidVendorSpecific : UInt8 := 221

/-- `RTW_GET_BE24`. -/
def rtwGetBe24 (a b c : UInt8) : ℕ := 65536 * a.toNat + 256 * b.toNat + c.toNat

/-- A pointer and a length are set. -/
def Elems.set (elems : Elems) (f : ElemField) (pos elen : ℕ) : Elems :=
  Function.update elems f (some (pos, elen))

/-- `rtw_ieee802_11_parse_vendor_specific`. -/
def rtwIeee80211ParseVendorSpecific (buf : List UInt8) (pos elen : ℕ) (elems : Elems) :
    Option (ℤ × Elems) :=
  if elen < 4 then some (-1, elems)
  else do
    let b0 ← buf[pos]?
    let b1 ← buf[pos + 1]?
    let b2 ← buf[pos + 2]?
    if rtwGetBe24 b0 b1 b2 = ouiMicrosoft then do
      let type ← buf[pos + 3]?
      if type = 1 then some (0, elems.set .wpaIe pos elen)
      else if type = wmeOuiType then
        if elen < 5 then some (-1, elems)
        else do
          let subtype ← buf[pos + 4]?
          if subtype = 0 ∨ subtype = 1 then some (0, elems.set .wme pos elen)
          else if subtype = 2 then some (0, elems.set .wmeTspec pos elen)
          else some (-1, elems)
      else if type = 4 then some (0, elems.set .wpsIe pos elen)
      else some (-1, elems)
    else if rtwGetBe24 b0 b1 b2 = ouiBroadcom then do
      let type ← buf[pos + 3]?
      if type = vendorHtCapabOuiType then some (0, elems.set .vendorHtCap pos elen)
      else some (-1, elems)
    else some (-1, elems)

/-- The cases of the `switch` that set a pointer. -/
def elemField (id : UInt8) : Option ElemField :=
  match id.toNat with
  | 0 => some .ssid
  | 1 => some .suppRates
  | 2 => some .fhParams
  | 3 => some .dsParams
  | 4 => some .cfParams
  | 5 => some .tim
  | 6 => some .ibssParams
  | 16 => some .challenge
  | 42 => some .erpInfo
  | 50 => some .extSuppRates
  | 48 => some .rsnIe
  | 33 => some .powerCap
  | 36 => some .suppChannels
  | 54 => some .mdie
  | 55 => some .ftie
  | 56 => some .timeoutInt
  | 45 => some .htCapabilities
  | 61 => some .htOperation
  | _ => none

/-- The `switch` of `rtw_ieee802_11_parse_elems`, with the counter of unknown elements. -/
def parseElem (buf : List UInt8) (id : UInt8) (pos elen unknown : ℕ) (elems : Elems) :
    Option (ℕ × Elems) :=
  if id = wlanEidVendorSpecific then do
    let (ret, elems) ← rtwIeee80211ParseVendorSpecific buf pos elen elems
    some (if ret ≠ 0 then unknown + 1 else unknown, elems)
  else
    match elemField id with
    | some f => some (unknown, elems.set f pos elen)
    | none => some (unknown + 1, elems)

/-- The loop of `rtw_ieee802_11_parse_elems`. -/
def parseElemsLoop (buf : List UInt8) : ℕ → ℕ → ℕ → ℕ → Elems → Option (ParseRes × Elems)
  | 0, _, _, _, _ => none
  | fuel + 1, pos, left, unknown, elems =>
    if 2 ≤ left then do
      let id ← buf[pos]?
      let elen ← buf[pos + 1]?
      if left - 2 < elen.toNat then some (.failed, elems)
      else do
        let (unknown, elems) ← parseElem buf id (pos + 2) elen.toNat unknown elems
        parseElemsLoop buf fuel (pos + 2 + elen.toNat) (left - 2 - elen.toNat) unknown elems
    else if left ≠ 0 then some (.failed, elems)
    else some (if unknown ≠ 0 then .unknown else .ok, elems)

/-- `rtw_ieee802_11_parse_elems`. A round of the loop uses two bytes or more. -/
def rtwIeee80211ParseElems (buf : List UInt8) : Option (ParseRes × Elems) :=
  parseElemsLoop buf (buf.length + 1) 0 buf.length 0 fun _ => none

/-! ## The kind of an element -/

/-- The kind of a vendor element, by its OUI, type and subtype. -/
def vendorKind (body : List UInt8) : Option ElemField :=
  if [0x00, 0x50, 0xf2, 1] <+: body then some .wpaIe
  else if [0x00, 0x50, 0xf2, 2, 0] <+: body ∨ [0x00, 0x50, 0xf2, 2, 1] <+: body then some .wme
  else if [0x00, 0x50, 0xf2, 2, 2] <+: body then some .wmeTspec
  else if [0x00, 0x50, 0xf2, 4] <+: body then some .wpsIe
  else if [0x00, 0x90, 0x4c, 0x33] <+: body then some .vendorHtCap
  else none

/-- What pointer an element is for, if it is neither unknown nor malformed. -/
def elemKind (e : Elem) : Option ElemField :=
  if e.id = wlanEidVendorSpecific then vendorKind e.body else elemField e.id

theorem rtwGetBe24_eq {a b c x y z : UInt8} {n : ℕ} (hn : n = rtwGetBe24 x y z) :
    rtwGetBe24 a b c = n ↔ a = x ∧ b = y ∧ c = z := by
  have ha := a.toNat_lt
  have hb := b.toNat_lt
  have hc := c.toNat_lt
  have hx := x.toNat_lt
  have hy := y.toNat_lt
  have hz := z.toNat_lt
  rw [hn, rtwGetBe24, rtwGetBe24, ← UInt8.toNat_inj, ← UInt8.toNat_inj, ← UInt8.toNat_inj]
  omega

/-- The pointer of the kind is set, if there is one. -/
def Elems.setKind (elems : Elems) (k : Option ElemField) (pos elen : ℕ) : Elems :=
  k.elim elems fun f => elems.set f pos elen

/-- The vendor parser sets the pointer of the kind. -/
theorem parseVendorSpecific_eq {buf : List UInt8} {pos : ℕ} {body : List UInt8} (elems : Elems)
    (hbuf : ∀ i, i < body.length → buf[pos + i]? = body[i]?) :
    rtwIeee80211ParseVendorSpecific buf pos body.length elems =
      some (if (vendorKind body).isNone then -1 else 0,
        elems.setKind (vendorKind body) pos body.length) := by
  unfold rtwIeee80211ParseVendorSpecific
  match body with
  | [] | [_] | [_, _] | [_, _, _] => simp [vendorKind, Elems.setKind]
  | a :: b :: c :: d :: rest =>
    have h0 := hbuf 0 (by simp)
    have h1 := hbuf 1 (by simp)
    have h2 := hbuf 2 (by simp)
    have h3 := hbuf 3 (by simp)
    rw [if_neg (by simp)]
    simp only [Nat.add_zero, List.getElem?_cons_zero, List.getElem?_cons_succ] at h0 h1 h2 h3
    simp only [h0, h1, h2, h3, Option.bind_eq_bind, Option.bind_some,
      rtwGetBe24_eq (n := ouiMicrosoft) (x := 0x00) (y := 0x50) (z := 0xf2) rfl,
      rtwGetBe24_eq (n := ouiBroadcom) (x := 0x00) (y := 0x90) (z := 0x4c) rfl]
    by_cases hms : a = 0x00 ∧ b = 0x50 ∧ c = 0xf2
    · obtain ⟨rfl, rfl, rfl⟩ := hms
      rw [if_pos ⟨rfl, rfl, rfl⟩]
      by_cases hwpa : d = 1
      · simp [vendorKind, hwpa, Elems.setKind]
      rw [if_neg hwpa]
      by_cases hwme : d = wmeOuiType
      · subst hwme
        cases rest with
        | nil => simp [vendorKind, wmeOuiType, Elems.setKind]
        | cons s rest =>
          have h4 := hbuf 4 (by simp)
          simp only [List.getElem?_cons_zero, List.getElem?_cons_succ] at h4
          by_cases hs : s = 0 ∨ s = 1
          · have hs' : 0 = s ∨ 1 = s := hs.imp Eq.symm Eq.symm
            simp [vendorKind, wmeOuiType, Elems.setKind, h4, hs, hs']
          by_cases hs2 : s = 2
          · simp [vendorKind, wmeOuiType, Elems.setKind, h4, hs2]
          · have hs' : ¬ (0 = s ∨ 1 = s) := fun h => hs (h.imp Eq.symm Eq.symm)
            simp [vendorKind, wmeOuiType, Elems.setKind, h4, hs, hs', hs2, Ne.symm hs2]
      rw [if_neg hwme]
      by_cases hwps : d = 4
      · simp [vendorKind, hwps, Elems.setKind]
      · rw [wmeOuiType] at hwme
        simp [vendorKind, hwps, Elems.setKind, Ne.symm hwpa, Ne.symm hwme, Ne.symm hwps]
    · rw [if_neg hms]
      have hms' : ¬ (0x00 = a ∧ 0x50 = b ∧ 0xf2 = c) := by
        rintro ⟨rfl, rfl, rfl⟩
        exact hms ⟨rfl, rfl, rfl⟩
      by_cases hbc : a = 0x00 ∧ b = 0x90 ∧ c = 0x4c
      · obtain ⟨rfl, rfl, rfl⟩ := hbc
        by_cases ht : d = vendorHtCapabOuiType
        · subst ht
          simp [vendorKind, vendorHtCapabOuiType, Elems.setKind]
        · have ht' : ¬ 0x33 = d := Ne.symm ht
          simp [vendorKind, ht, ht', Elems.setKind]
      · have hbc' : ¬ (0x00 = a ∧ 0x90 = b ∧ 0x4c = c) := by
          rintro ⟨rfl, rfl, rfl⟩
          exact hbc ⟨rfl, rfl, rfl⟩
        rw [if_neg hbc]
        have hkind : vendorKind (a :: b :: c :: d :: rest) = none := by
          simp only [vendorKind, List.cons_prefix_cons]
          grind
        simp [hkind, Elems.setKind]

theorem parseElem_eq {buf : List UInt8} {pos : ℕ} (e : Elem) (unknown : ℕ) (elems : Elems)
    (hbuf : ∀ i, i < e.body.length → buf[pos + i]? = e.body[i]?) :
    parseElem buf e.id pos e.body.length unknown elems =
      some (if (elemKind e).isNone then unknown + 1 else unknown,
        elems.setKind (elemKind e) pos e.body.length) := by
  unfold parseElem elemKind
  by_cases hv : e.id = wlanEidVendorSpecific
  · simp only [if_pos hv, parseVendorSpecific_eq elems hbuf]
    cases hk : vendorKind e.body with
    | none => simp
    | some f => simp
  · simp only [if_neg hv]
    cases hf : elemField e.id with
    | none => simp [Elems.setKind]
    | some f => simp [Elems.setKind]

/-! ## The loop -/

/-- The pointers after the elements `es`, which start at `pos`. -/
def parsed : List Elem → ℕ → Elems → Elems
  | [], _, elems => elems
  | e :: es, pos, elems =>
    parsed es (pos + 2 + e.body.length) (elems.setKind (elemKind e) (pos + 2) e.body.length)

/-- The number of elements that are unknown or malformed. -/
def unknowns (es : List Elem) : ℕ := es.countP fun e => (elemKind e).isNone

/-- The bytes from `pos` on are a list of elements, and the loop gets through it, or they are not,
and the loop fails. -/
theorem parseElemsLoop_cases (buf : List UInt8) : ∀ (fuel pos left unknown : ℕ) (elems : Elems),
    pos + left = buf.length → left < fuel →
    (∃ es, buf.drop pos = encode es ∧ parseElemsLoop buf fuel pos left unknown elems =
      some (if unknown + unknowns es ≠ 0 then .unknown else .ok, parsed es pos elems)) ∨
    ((∀ es, buf.drop pos ≠ encode es) ∧
      ∃ elems', parseElemsLoop buf fuel pos left unknown elems = some (.failed, elems'))
  | 0, _, _, _, _, _, hfuel => absurd hfuel (Nat.not_lt_zero _)
  | fuel + 1, pos, left, unknown, elems, hpos, hfuel => by
    have hlen : (buf.drop pos).length = left := by
      rw [List.length_drop]
      omega
    rw [parseElemsLoop]
    by_cases h2 : 2 ≤ left
    · -- an id byte and a length byte are there
      obtain ⟨id, elen, rest, hdrop⟩ : ∃ id elen rest, buf.drop pos = id :: elen :: rest := by
        match hb : buf.drop pos with
        | [] | [_] => simp [hb] at hlen; omega
        | id :: elen :: rest => exact ⟨id, elen, rest, rfl⟩
      have hget : ∀ i, buf[pos + i]? = (id :: elen :: rest)[i]? := by
        intro i
        rw [← hdrop, List.getElem?_drop]
      have hrest : rest.length = left - 2 := by
        rw [hdrop] at hlen
        simp only [List.length_cons] at hlen
        omega
      have h0 := hget 0
      have h1 := hget 1
      rw [Nat.add_zero, List.getElem?_cons_zero] at h0
      rw [List.getElem?_cons_succ, List.getElem?_cons_zero] at h1
      simp only [if_pos h2, h0, h1, Option.bind_eq_bind, Option.bind_some]
      by_cases hshort : left - 2 < elen.toNat
      · rw [if_pos hshort]
        refine Or.inr ⟨?_, elems, rfl⟩
        rw [hdrop]
        exact ne_encode_of_short (hrest.symm ▸ hshort)
      rw [if_neg hshort]
      obtain ⟨e, rfl, hbody, hsplit⟩ := @exists_bytes id elen rest (by omega)
      have htail : rest.drop elen.toNat = buf.drop (pos + 2 + elen.toNat) := by
        rw [Nat.add_assoc, ← List.drop_drop, hdrop, Nat.add_comm 2]
        rfl
      have hbuf : ∀ i, i < e.body.length → buf[pos + 2 + i]? = e.body[i]? := by
        intro i hi
        rw [Nat.add_assoc, hget, hsplit, Nat.add_comm 2, Elem.bytes, List.cons_append,
          List.cons_append,
          List.getElem?_cons_succ, List.getElem?_cons_succ, List.getElem?_append_left hi]
      rw [← hbody, parseElem_eq e unknown elems hbuf, Option.bind_some]
      rw [← hbody] at htail hsplit hshort
      rcases parseElemsLoop_cases buf fuel (pos + 2 + e.body.length) (left - 2 - e.body.length)
        (if (elemKind e).isNone then unknown + 1 else unknown)
        (elems.setKind (elemKind e) (pos + 2) e.body.length) (by omega) (by omega) with
        ⟨es, hes, hloop⟩ | ⟨hno, elems', hloop⟩
      · refine Or.inl ⟨e :: es, ?_, ?_⟩
        · rw [hdrop, hsplit, htail, hes, encode_cons]
        · have hcount : (if (elemKind e).isNone then unknown + 1 else unknown) + unknowns es =
              unknown + unknowns (e :: es) := by
            rw [unknowns, unknowns, List.countP_cons]
            split <;> omega
          rw [hcount] at hloop
          exact hloop
      · refine Or.inr ⟨?_, elems', hloop⟩
        rw [hdrop, hsplit, htail]
        exact ne_encode_append hno
    · rw [if_neg h2]
      by_cases h0 : left = 0
      · subst h0
        refine Or.inl ⟨[], List.eq_nil_of_length_eq_zero hlen, ?_⟩
        simp [parsed, unknowns]
      · rw [if_pos h0]
        refine Or.inr ⟨fun es he => ?_, elems, rfl⟩
        rw [he] at hlen
        exact length_encode_ne_one es (by omega)

/-! ## The pointers -/

theorem Elems.setKind_apply (elems : Elems) (k : Option ElemField) (pos elen : ℕ) (f : ElemField) :
    elems.setKind k pos elen f = if k = some f then some (pos, elen) else elems f := by
  cases k with
  | none => simp [Elems.setKind]
  | some g =>
    by_cases hg : g = f
    · simp [Elems.setKind, Elems.set, hg]
    · simp [Elems.setKind, Elems.set, hg, Ne.symm hg]

/-- A pointer is at the last element of its kind, or it is as before. -/
theorem parsed_cases (f : ElemField) : ∀ (es : List Elem) (pos : ℕ) (elems : Elems),
    (∃ off e, Last (fun e => elemKind e = some f) es off e ∧
      parsed es pos elems f = some (pos + off + 2, e.body.length)) ∨
    ((∀ e ∈ es, elemKind e ≠ some f) ∧ parsed es pos elems f = elems f)
  | [], _, _ => Or.inr ⟨by simp, rfl⟩
  | e :: es, pos, elems => by
    rw [parsed]
    rcases parsed_cases f es (pos + 2 + e.body.length)
      (elems.setKind (elemKind e) (pos + 2) e.body.length) with
      ⟨off, x, ⟨pre, post, rfl, rfl, hx, hpost⟩, hp⟩ | ⟨hno, hp⟩
    · refine Or.inl ⟨_, x, ⟨e :: pre, post, rfl, rfl, hx, hpost⟩, ?_⟩
      rw [hp, encode_cons, List.length_append, Elem.length_bytes]
      congr 2
      omega
    · rw [hp, Elems.setKind_apply]
      by_cases hk : elemKind e = some f
      · rw [if_pos hk]
        exact Or.inl ⟨0, e, ⟨[], es, rfl, rfl, hk, hno⟩, rfl⟩
      · rw [if_neg hk]
        refine Or.inr ⟨fun x hx => ?_, rfl⟩
        rcases List.mem_cons.mp hx with rfl | hx
        · exact hk
        · exact hno x hx

/-- On every byte string the parser returns without a read outside of it. It fails exactly on the
strings that are no lists of elements. On a list, every pointer is at the body of the last element
of its kind, or `NULL` if there is none, and the result says whether an element is unknown or
malformed. -/
theorem parseElems_exact (buf : List UInt8) :
    ∃ res elems, rtwIeee80211ParseElems buf = some (res, elems) ∧
      (res = .failed ↔ ¬ ∃ es, buf = encode es) ∧
      ∀ es, buf = encode es →
        (∀ f pos n, elems f = some (pos, n) →
          ∃ off e, Last (fun e => elemKind e = some f) es off e ∧ pos = off + 2 ∧ n = e.body.length) ∧
        (∀ f, elems f = none ↔ ∀ e ∈ es, elemKind e ≠ some f) ∧
        (res = .unknown ↔ ∃ e ∈ es, elemKind e = none) := by
  rcases parseElemsLoop_cases buf (buf.length + 1) 0 buf.length 0 (fun _ => none) (Nat.zero_add _)
    (Nat.lt_succ_self _) with ⟨es, hes, hloop⟩ | ⟨hno, elems, hloop⟩
  · rw [List.drop_zero] at hes
    refine ⟨_, _, hloop, ?_, fun es' hes' => ?_⟩
    · refine iff_of_false ?_ (not_not_intro ⟨es, hes⟩)
      split
      · exact ParseRes.noConfusion
      · exact ParseRes.noConfusion
    obtain rfl : es' = es := encode_inj (hes'.symm.trans hes)
    have hunknown : unknowns es' ≠ 0 ↔ ∃ e ∈ es', elemKind e = none := by
      rw [unknowns, ← Nat.pos_iff_ne_zero, List.countP_pos_iff]
      simp
    refine ⟨fun f pos n hf => ?_, fun f => ?_, ?_⟩
    · rcases parsed_cases f es' 0 fun _ => none with ⟨off, e, hlast, hp⟩ | ⟨-, hp⟩
      · rw [hp] at hf
        cases hf
        exact ⟨off, e, hlast, by omega, rfl⟩
      · rw [hp] at hf
        exact absurd hf (by simp)
    · rcases parsed_cases f es' 0 fun _ => none with ⟨off, e, ⟨pre, post, rfl, -, hk, -⟩,
        hp⟩ | ⟨hno, hp⟩
      · rw [hp]
        refine iff_of_false (by simp) fun hno => hno e ?_ hk
        simp
      · rw [hp]
        exact iff_of_true rfl hno
    · rw [← hunknown, Nat.zero_add]
      split
      · rename_i h
        simp [h]
      · rename_i h
        simp [h]
  · rw [List.drop_zero] at hno
    refine ⟨_, _, hloop, iff_of_true rfl fun ⟨es, hes⟩ => hno es hes, fun es hes => ?_⟩
    exact absurd hes (hno es)

end Rtl8188eu
