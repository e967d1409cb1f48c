import Rtl8188eu.AttrLists
import Rtl8188eu.IeSearchLimits

/-!
# Searches for an attribute

`rtw_get_wps_attr` and `rtw_get_p2p_attr` look for an attribute in a WPS or P2P element, and
`rtw_get_wps_attr_content` and `rtw_get_p2p_attr_content` return its data. The attributes have
16-bit lengths. The length of the data is never compared with the element, and with the header it is
a sum of 16 bits.

The searches are right if the attribute is among the whole ones, or if the beginning of an attribute
behind these is passed without harm (`AttrFun.right_iff`).
-/

namespace Rtl8188eu

open AttrLists

/-! ## The two formats -/

theorem length_be16Header (id n : ℕ) : (be16Bytes id ++ be16Bytes n).length = 4 := rfl

theorem length_le16Header (id n : ℕ) : (UInt8.ofNat id :: le16Bytes n).length = 3 := rfl

theorem id_be16Header {id n : ℕ} (hid : id < 2 ^ 16) (_ : n < 2 ^ 16) (rest : List UInt8) :
    256 * ((be16Bytes id ++ be16Bytes n ++ rest).getD 0 0).toNat
      + ((be16Bytes id ++ be16Bytes n ++ rest).getD 1 0).toNat = id := by
  simp only [be16Bytes, List.cons_append, List.nil_append, List.getD_cons_zero, List.getD_cons_succ,
    UInt8.toNat_ofNat']
  omega

theorem len_be16Header {id n : ℕ} (_ : id < 2 ^ 16) (hn : n < 2 ^ 16) (rest : List UInt8) :
    256 * ((be16Bytes id ++ be16Bytes n ++ rest).getD 2 0).toNat
      + ((be16Bytes id ++ be16Bytes n ++ rest).getD 3 0).toNat = n := by
  simp only [be16Bytes, List.cons_append, List.nil_append, List.getD_cons_zero, List.getD_cons_succ,
    UInt8.toNat_ofNat']
  omega

theorem id_le16Header {id n : ℕ} (hid : id < 2 ^ 8) (_ : n < 2 ^ 16) (rest : List UInt8) :
    ((UInt8.ofNat id :: le16Bytes n ++ rest).getD 0 0).toNat = id := by
  simp only [List.cons_append, List.getD_cons_zero, UInt8.toNat_ofNat']
  omega

theorem len_le16Header {id n : ℕ} (_ : id < 2 ^ 8) (hn : n < 2 ^ 16) (rest : List UInt8) :
    ((UInt8.ofNat id :: le16Bytes n ++ rest).getD 1 0).toNat
      + 256 * ((UInt8.ofNat id :: le16Bytes n ++ rest).getD 2 0).toNat = n := by
  simp only [le16Bytes, List.cons_append, List.nil_append, List.getD_cons_zero, List.getD_cons_succ,
    UInt8.toNat_ofNat']
  omega

theorem be16_lt (a b : UInt8) : 256 * a.toNat + b.toNat < 2 ^ 16 := by
  have h0 := a.toNat_lt
  have h1 := b.toNat_lt
  omega

theorem le16_lt (a b : UInt8) : a.toNat + 256 * b.toNat < 2 ^ 16 := by
  have h0 := a.toNat_lt
  have h1 := b.toNat_lt
  omega

theorem be16Header_of {bs : List UInt8} (h : 4 ≤ bs.length) :
    bs = be16Bytes (256 * (bs.getD 0 0).toNat + (bs.getD 1 0).toNat)
      ++ be16Bytes (256 * (bs.getD 2 0).toNat + (bs.getD 3 0).toNat) ++ bs.drop 4 := by
  obtain _ | ⟨a, _ | ⟨b, _ | ⟨c, _ | ⟨d, rest⟩⟩⟩⟩ := bs
  iterate 4 simp only [List.length_cons, List.length_nil] at h; omega
  simp only [List.getD_cons_zero, List.getD_cons_succ, be16Bytes_toNat]
  rfl

theorem le16Header_of {bs : List UInt8} (h : 3 ≤ bs.length) :
    bs = UInt8.ofNat (bs.getD 0 0).toNat
      :: le16Bytes ((bs.getD 1 0).toNat + 256 * (bs.getD 2 0).toNat) ++ bs.drop 3 := by
  obtain _ | ⟨a, _ | ⟨b, _ | ⟨c, rest⟩⟩⟩ := bs
  iterate 3 simp only [List.length_cons, List.length_nil] at h; omega
  simp only [List.getD_cons_zero, List.getD_cons_succ, le16Bytes_toNat, UInt8.ofNat_toNat]
  rfl

theorem wpsHeader_pos : 0 < 4 := by decide

theorem p2pHeader_pos : 0 < 3 := by decide

/-- The attributes of WPS : `RTW_GET_BE16` for the id and the length. -/
def wpsFormat : Format where
  hdr := 4
  hdr_pos := wpsHeader_pos
  ids := 2 ^ 16
  header id n := be16Bytes id ++ be16Bytes n
  idOf bs := 256 * (bs.getD 0 0).toNat + (bs.getD 1 0).toNat
  lenOf bs := 256 * (bs.getD 2 0).toNat + (bs.getD 3 0).toNat
  length_header := length_be16Header
  idOf_header := id_be16Header
  lenOf_header := len_be16Header
  idOf_lt _ := be16_lt _ _
  lenOf_lt _ := be16_lt _ _
  header_of := be16Header_of

/-- The attributes of P2P : a byte for the id, and `get_unaligned_le16` for the length. -/
def p2pFormat : Format where
  hdr := 3
  hdr_pos := p2pHeader_pos
  ids := 2 ^ 8
  header id n := UInt8.ofNat id :: le16Bytes n
  idOf bs := (bs.getD 0 0).toNat
  lenOf bs := (bs.getD 1 0).toNat + 256 * (bs.getD 2 0).toNat
  length_header := length_le16Header
  idOf_header := id_le16Header
  lenOf_header := len_le16Header
  idOf_lt bs := (bs.getD 0 0).toNat_lt
  lenOf_lt _ := le16_lt _ _
  header_of := le16Header_of

/-! ## The functions of the source -/

/-- The loop of `rtw_get_wps_attr` and `rtw_get_p2p_attr`, with the addresses that are read.
`attr_len` has 16 bits. -/
def attrLoop (F : Format) (m : Mem) (ie : ℤ) (ielen target : ℕ) (bufAttr : Bool) : ℕ → ℕ → Option Searched
  | 0, _ => none
  | fuel + 1, off =>
    let a := ie + off
    if off < ielen then
      let header := m.read a F.hdr
      let attrLen := (F.lenOf header + F.hdr) % 65536
      if F.idOf header = target then
        some ⟨some (a, attrLen), addrs a F.hdr ++ if bufAttr then addrs a attrLen else []⟩
      else
        (attrLoop F m ie ielen target bufAttr fuel (off + attrLen)).map fun r =>
          ⟨r.result, addrs a F.hdr ++ r.reads⟩
    else some ⟨none, []⟩

/-- The two kinds of elements. -/
inductive AttrKind where
  | wps | p2p

namespace AttrKind

def format : AttrKind → Format
  | .wps => wpsFormat
  | .p2p => p2pFormat

def oui : AttrKind → List UInt8
  | .wps => wpsOui
  | .p2p => p2pOui

/-- `rtw_get_wps_attr` and `rtw_get_p2p_attr`. -/
def getAttr (k : AttrKind) (m : Mem) (ie : ℤ) (ielen target : ℕ) (bufAttr : Bool) (fuel : ℕ) : Option Searched :=
  if m ie ≠ vendorSpecificIe then some ⟨none, [ie]⟩
  else if m.read (ie + 2) 4 ≠ k.oui then some ⟨none, ie :: addrs (ie + 2) 4⟩
  else (attrLoop k.format m ie ielen target bufAttr fuel 6).map fun r => ⟨r.result, ie :: addrs (ie + 2) 4 ++ r.reads⟩

/-- What the content is, behind a header of `hdr` bytes, and what is read of it. -/
def content (hdr : ℕ) (bufContent : Bool) (r : Searched) : Searched :=
  match r.result with
  | none => r
  | some (attrPtr, attrLen) =>
    if attrLen = 0 then ⟨none, r.reads⟩
    else
      let content := attrPtr + hdr
      let len := u32 ((attrLen : ℤ) - hdr)
      ⟨some (content, len), r.reads ++ if bufContent then addrs content len else []⟩

/-- `rtw_get_wps_attr_content` and `rtw_get_p2p_attr_content`. -/
def getAttrContent (k : AttrKind) (m : Mem) (ie : ℤ) (ielen target : ℕ) (bufContent : Bool) (fuel : ℕ) :
    Option Searched :=
  (k.getAttr m ie ielen target false fuel).map (content k.format.hdr bufContent)

end AttrKind

/-! ## The loop -/

section Loop

variable {F : Format} {m : Mem} {ie : ℤ} {ielen target off : ℕ} {buf : Bool} {x : Option (ℤ × ℕ)}
variable {bs rest : List UInt8} {t : Stream' UInt8}

/-- The loop ends with that result, and what it reads is inside the element. -/
def Finds (F : Format) (m : Mem) (ie : ℤ) (ielen target : ℕ) (buf : Bool) (off : ℕ) (x : Option (ℤ × ℕ)) : Prop :=
  ∃ fuel r, attrLoop F m ie ielen target buf fuel off = some r ∧ r.result = x ∧
    ∀ a ∈ r.reads, ie ≤ a ∧ a < ie + ielen

/-- The bytes of a header. -/
theorem read_header (hb : bytesAt m (ie + off) = bs ++ₛ t) (hhdr : F.hdr ≤ bs.length) :
    m.read (ie + off) F.hdr = F.header (F.idOf bs) (F.lenOf bs) ∧
      F.idOf (m.read (ie + off) F.hdr) = F.idOf bs ∧
        F.lenOf (m.read (ie + off) F.hdr) = F.lenOf bs := by
  have hread : m.read (ie + off) F.hdr = F.header (F.idOf bs) (F.lenOf bs) := by
    rw [read_eq_take, hb, Stream'.take_append_of_le_length _ _ _ hhdr]
    conv_lhs => rw [F.header_of hhdr]
    rw [List.take_append_of_le_length (F.length_header _ _).ge,
      List.take_of_length_le (F.length_header _ _).le]
  have hnil := List.append_nil (F.header (F.idOf bs) (F.lenOf bs))
  refine ⟨hread, ?_, ?_⟩
  · rw [hread, ← hnil, F.idOf_header (F.idOf_lt bs) (F.lenOf_lt bs)]
  · rw [hread, ← hnil, F.lenOf_header (F.idOf_lt bs) (F.lenOf_lt bs)]

theorem finds_end (h : ielen ≤ off) : Finds F m ie ielen target buf off x ↔ x = none := by
  constructor
  · rintro ⟨fuel, r, hr, rfl, -⟩
    cases fuel with
    | zero => cases hr
    | succ k =>
      rw [attrLoop] at hr
      dsimp only at hr
      rw [if_neg (by omega)] at hr
      cases hr
      rfl
  · rintro rfl
    refine ⟨1, ⟨none, []⟩, ?_, rfl, fun a ha => absurd ha List.not_mem_nil⟩
    rw [attrLoop]
    dsimp only
    rw [if_neg (by omega)]

/-- Where there is no whole header, something behind the element is read. -/
theorem not_finds_cut (h : off < ielen) (hcut : ielen < off + F.hdr) :
    ¬Finds F m ie ielen target buf off x := by
  rintro ⟨fuel, r, hr, -, hin⟩
  have hmem : ie + off + (F.hdr - 1 : ℕ) ∈ addrs (ie + off) F.hdr := mem_addrs.mpr (by omega)
  cases fuel with
  | zero => cases hr
  | succ k =>
    rw [attrLoop] at hr
    dsimp only at hr
    rw [if_pos h] at hr
    split at hr
    · cases hr
      have hlast := (hin _ (List.mem_append_left _ hmem)).2
      omega
    · obtain ⟨r', -, rfl⟩ := Option.map_eq_some_iff.mp hr
      have hlast := (hin _ (List.mem_append_left _ hmem)).2
      omega

/-- An attribute with the id is returned. -/
theorem finds_hit (hb : bytesAt m (ie + off) = bs ++ₛ t) (hlen : ielen = off + bs.length)
    (hhdr : F.hdr ≤ bs.length)
    (hid : F.idOf bs = target) : Finds F m ie ielen target buf off x ↔
      x = some (ie + off, (F.lenOf bs + F.hdr) % 65536) ∧
        (buf = true → (F.lenOf bs + F.hdr) % 65536 ≤ bs.length) := by
  obtain ⟨-, hid', hl⟩ := read_header hb hhdr
  have hpos := F.hdr_pos
  constructor
  · rintro ⟨fuel, r, hr, rfl, hin⟩
    cases fuel with
    | zero => cases hr
    | succ k =>
      rw [attrLoop] at hr
      dsimp only at hr
      rw [if_pos (by omega), hid', if_pos hid, hl] at hr
      cases hr
      refine ⟨rfl, fun hbuf => ?_⟩
      have hin' : ∀ a ∈ addrs (ie + off) ((F.lenOf bs + F.hdr) % 65536), ie ≤ a ∧ a < ie + ielen :=
        fun a ha =>
        hin a (List.mem_append_right _ (by rw [if_pos hbuf]; exact ha))
      rw [addrs_inside (by omega)] at hin'
      omega
  · rintro ⟨rfl, hbuf⟩
    refine ⟨1, ⟨some (ie + off, (F.lenOf bs + F.hdr) % 65536), addrs (ie + off) F.hdr ++
      if buf = true then addrs (ie + off) ((F.lenOf bs + F.hdr) % 65536) else []⟩, ?_, rfl,
      fun a ha => ?_⟩
    · rw [attrLoop]
      dsimp only
      rw [if_pos (by omega), hid', if_pos hid, hl]
    · rcases List.mem_append.mp ha with ha | ha
      · have hin := mem_addrs.mp ha
        omega
      · split_ifs at ha with hb'
        · have hin := mem_addrs.mp ha
          have hle := hbuf hb'
          omega
        · exact absurd ha List.not_mem_nil

/-- Another attribute is passed. -/
theorem finds_pass (hb : bytesAt m (ie + off) = bs ++ₛ t) (hlen : ielen = off + bs.length)
    (hhdr : F.hdr ≤ bs.length)
    (hid : F.idOf bs ≠ target) : Finds F m ie ielen target buf off x ↔
      Finds F m ie ielen target buf (off + (F.lenOf bs + F.hdr) % 65536) x := by
  obtain ⟨-, hid', hl⟩ := read_header hb hhdr
  have hpos := F.hdr_pos
  have hround : ∀ k, attrLoop F m ie ielen target buf (k + 1) off =
      (attrLoop F m ie ielen target buf k (off + (F.lenOf bs + F.hdr) % 65536)).map fun r =>
        ⟨r.result, addrs (ie + off) F.hdr ++ r.reads⟩ := by
    intro k
    rw [attrLoop]
    dsimp only
    rw [if_pos (by omega), hid', if_neg hid, hl]
  constructor
  · rintro ⟨fuel, r, hr, rfl, hin⟩
    cases fuel with
    | zero => cases hr
    | succ k =>
      rw [hround] at hr
      obtain ⟨r', hr', rfl⟩ := Option.map_eq_some_iff.mp hr
      exact ⟨k, r', hr', rfl, fun a ha => hin a (List.mem_append_right _ ha)⟩
  · rintro ⟨k, r, hr, rfl, hin⟩
    refine ⟨k + 1, ⟨r.result, addrs (ie + off) F.hdr ++ r.reads⟩,
      by rw [hround, hr]; rfl, rfl, fun a ha => ?_⟩
    rcases List.mem_append.mp ha with ha | ha
    · have hin' := mem_addrs.mp ha
      omega
    · exact hin a ha

/-- The bytes of the element from an offset on. -/
def Left (m : Mem) (ie : ℤ) (ielen off : ℕ) (bs : List UInt8) : Prop :=
  bs.length = ielen - off ∧ ∃ t, bytesAt m (ie + off) = bs ++ₛ t

theorem Left.drop (h : Left m ie ielen off bs) (n : ℕ) : Left m ie ielen (off + n) (bs.drop n) := by
  obtain ⟨hlen, t, ht⟩ := h
  refine ⟨by rw [List.length_drop]; omega, ?_⟩
  rcases Nat.le_total n bs.length with hn | hn
  · rw [← List.take_append_drop n bs, Stream'.append_append_stream] at ht
    have hdrop := bytesAt_drop ht
    rw [List.length_take, Nat.min_eq_left hn] at hdrop
    refine ⟨t, ?_⟩
    push_cast
    rw [← add_assoc]
    exact hdrop
  · rw [List.drop_eq_nil_of_le hn]
    exact ⟨_, rfl⟩

/-- The loop passes what is left of an element without harm : no header is cut, no attribute that is
not whole has the id, and the loop moves on. `…_content` takes an attribute of length zero for
none. -/
inductive Passes (F : Format) (target : ℕ) (content : Bool) : List UInt8 → Prop
  | nil : Passes F target content []
  | skip {bs : List UInt8} (hhdr : F.hdr ≤ bs.length) (hid : F.idOf bs ≠ target)
      (hstep : (F.lenOf bs + F.hdr) % 65536 ≠ 0)
      (h : Passes F target content (bs.drop ((F.lenOf bs + F.hdr) % 65536))) : Passes F target content bs
  | zero {bs : List UInt8} (hc : content = true) (hhdr : F.hdr ≤ bs.length) (hid : F.idOf bs = target)
      (hstep : (F.lenOf bs + F.hdr) % 65536 = 0) : Passes F target content bs

/-- What the callers take for no attribute. -/
def Nothing (content : Bool) (x : Option (ℤ × ℕ)) : Prop := x = none ∨ content = true ∧ ∃ a, x = some (a, 0)

theorem passes_of_run {content : Bool} : ∀ {fuel off : ℕ} {bs : List UInt8} {r : Searched},
    Left m ie ielen off bs → attrLoop F m ie ielen target buf fuel off = some r →
      (∀ a ∈ r.reads, ie ≤ a ∧ a < ie + ielen) → Nothing content r.result →
      Passes F target content bs
  | k + 1, off, bs, r, hleft, hr, hin, hnothing => by
    have hfinds : Finds F m ie ielen target buf off r.result := ⟨k + 1, r, hr, rfl, hin⟩
    obtain ⟨hlen, t, hb⟩ := hleft
    rcases Nat.lt_or_ge off ielen with hoff | hoff
    swap
    · have hnil : bs = [] := List.eq_nil_of_length_eq_zero (by omega)
      rw [hnil]
      exact .nil
    have hhdr : F.hdr ≤ bs.length := by
      by_contra hcut
      exact not_finds_cut hoff (by omega) hfinds
    by_cases hid : F.idOf bs = target
    · obtain ⟨hres, -⟩ := (finds_hit hb (by omega) hhdr hid).mp hfinds
      rcases hnothing with hnone | ⟨hc, a, hzero⟩
      · rw [hnone] at hres
        cases hres
      · rw [hzero] at hres
        exact .zero hc hhdr hid (congrArg Prod.snd (Option.some.inj hres)).symm
    · -- one round, and the same with less fuel
      obtain ⟨-, hid', hl⟩ := read_header hb hhdr
      rw [attrLoop] at hr
      dsimp only at hr
      rw [if_pos hoff, hid', if_neg hid, hl] at hr
      obtain ⟨r', hr', rfl⟩ := Option.map_eq_some_iff.mp hr
      have hin' : ∀ a ∈ r'.reads, ie ≤ a ∧ a < ie + ielen :=
        fun a ha => hin a (List.mem_append_right _ ha)
      have hnext := passes_of_run (Left.drop ⟨hlen, t, hb⟩ _) hr' hin' hnothing
      by_cases hstep : (F.lenOf bs + F.hdr) % 65536 = 0
      · rw [hstep] at hnext
        exact hnext
      · exact .skip hhdr hid hstep hnext

theorem finds_of_passes {content : Bool} (h : Passes F target content bs) :
    ∀ {off : ℕ}, Left m ie ielen off bs →
      ∃ x, Nothing content x ∧ Finds F m ie ielen target buf off x := by
  have hpos := F.hdr_pos
  induction h with
  | nil =>
    intro off hleft
    have hlen := hleft.1
    rw [List.length_nil] at hlen
    exact ⟨none, Or.inl rfl, (finds_end (by omega)).mpr rfl⟩
  | skip hhdr hid hstep _ ih =>
    intro off hleft
    obtain ⟨x, hx, hfinds⟩ := ih (hleft.drop _)
    obtain ⟨hlen, t, hb⟩ := hleft
    exact ⟨x, hx, (finds_pass hb (by omega) hhdr hid).mpr hfinds⟩
  | zero hc hhdr hid hstep =>
    intro off hleft
    obtain ⟨hlen, t, hb⟩ := hleft
    refine ⟨some (ie + off, 0), Or.inr ⟨hc, _, rfl⟩, (finds_hit hb (by omega) hhdr hid).mpr ?_⟩
    rw [hstep]
    exact ⟨rfl, fun _ => Nat.zero_le _⟩

/-- What is left is passed exactly if there is a run without harm that finds nothing. -/
theorem passes_iff {content : Bool} (hleft : Left m ie ielen off bs) :
    (∃ x, Nothing content x ∧ Finds F m ie ielen target buf off x) ↔
    Passes F target content bs := by
  constructor
  · rintro ⟨x, hx, fuel, r, hr, rfl, hin⟩
    exact passes_of_run hleft hr hin hx
  · exact fun h => finds_of_passes h hleft

/-- The loop in whole attributes : the first one with the id is found, or all are passed. -/
theorem finds_encode (hielen : ielen < 65536) :
    ∀ {as : List (Attr F)} {off : ℕ}, Left m ie ielen off (encode as ++ rest) →
    (Finds F m ie ielen target buf off x ↔ match firstAt target as with
      | some r => x = some (ie + (off + r.1 : ℕ), r.2.bytes.length)
      | none => Finds F m ie ielen target buf (off + (encode as).length) x)
  | [], off, _ => Iff.rfl
  | a :: as, off, hleft => by
    obtain ⟨hlen, t, hb⟩ := id hleft
    rw [encode_cons, List.append_assoc] at hlen hb
    have hhdr : F.hdr ≤ (a.bytes ++ (encode as ++ rest)).length := by
      rw [List.length_append, Attr.length_bytes]
      omega
    have hpos := F.hdr_pos
    have hstep : (F.lenOf (a.bytes ++ (encode as ++ rest)) + F.hdr) % 65536 = a.bytes.length := by
      rw [List.length_append, Attr.length_bytes] at hlen
      rw [a.lenOf_bytes, Attr.length_bytes, Nat.mod_eq_of_lt (by omega), Nat.add_comm]
    rw [firstAt]
    by_cases hid : a.id = target
    · rw [if_pos hid, finds_hit hb (by omega) hhdr (by rw [a.idOf_bytes, hid]), hstep]
      refine and_iff_left fun _ => ?_
      rw [List.length_append]
      omega
    · have hnext := hleft.drop a.bytes.length
      rw [encode_cons, List.append_assoc, List.drop_left] at hnext
      rw [if_neg hid, finds_pass hb (by omega) hhdr (by rwa [a.idOf_bytes]), hstep,
        finds_encode hielen hnext]
      cases firstAt target as with
      | none =>
        rw [encode_cons, List.length_append, Nat.add_assoc]
        exact Iff.rfl
      | some r =>
        have hoff : off + a.bytes.length + r.1 = off + (r.1 + a.bytes.length) := by omega
        rw [Option.map_some]
        dsimp only
        rw [hoff]

end Loop

/-! ## The searches in an element -/

/-- The bytes of an element behind its OUI. -/
structure AttrArea where
  bytes : List UInt8
  length_le : bytes.length ≤ 251

/-- The element with these bytes. -/
def AttrArea.elem (c : AttrArea) (k : AttrKind) : Tlv.Elem where
  id := vendorSpecificIe
  body := k.oui ++ c.bytes
  length_le := by
    have h := c.length_le
    rw [List.length_append]
    cases k <;> change 4 + _ ≤ 255 <;> omega

/-- The four searches. -/
structure AttrFun where
  kind : AttrKind
  /-- `rtw_get_wps_attr_content` or `rtw_get_p2p_attr_content`. -/
  content : Bool
  /-- A buffer is given. -/
  buf : Bool

namespace AttrFun

variable {f : AttrFun} {m : Mem} {p : ℤ} {c : AttrArea} {target : ℕ}

/-- A call for an element at `p`. -/
def run (f : AttrFun) (m : Mem) (p : ℤ) (ielen target fuel : ℕ) : Option Searched :=
  if f.content then f.kind.getAttrContent m p ielen target f.buf fuel
  else f.kind.getAttr m p ielen target f.buf fuel

/-- What a search has to return for an attribute : where it or its data is, and how long. -/
def expected (f : AttrFun) (p : ℤ) (r : ℕ × Attr f.kind.format) : ℤ × ℕ :=
  if f.content then (p + (6 + r.1 + f.kind.format.hdr : ℕ), r.2.data.length)
  else (p + (6 + r.1 : ℕ), r.2.bytes.length)

/-- The search comes to an end, reads only bytes of the element, and returns the first attribute
with the id among the whole ones. -/
def Right (f : AttrFun) (m : Mem) (p : ℤ) (c : AttrArea) (target : ℕ) : Prop :=
  ∃ (as : List (Attr f.kind.format)) (rest : List UInt8), c.bytes = encode as ++ rest ∧ Cut f.kind.format rest ∧
    ∃ fuel r, f.run m p (c.elem f.kind).bytes.length target fuel = some r ∧
      (∀ a ∈ r.reads, p ≤ a ∧ a < p + (c.elem f.kind).bytes.length) ∧
        r.result = (firstAt target as).map (f.expected p)

/-- What is behind the whole attributes is passed, or the attribute is among these. -/
def Clean (f : AttrFun) (c : AttrArea) (target : ℕ) : Prop :=
  ∃ (as : List (Attr f.kind.format)) (rest : List UInt8), c.bytes = encode as ++ rest ∧ Cut f.kind.format rest ∧
    ((∃ a ∈ as, a.id = target) ∨ Passes f.kind.format target f.content rest)

theorem length_elem (c : AttrArea) (k : AttrKind) :
    (c.elem k).bytes.length = 6 + c.bytes.length := by
  rw [Tlv.Elem.length_bytes]
  change (k.oui ++ c.bytes).length + 2 = _
  rw [List.length_append]
  cases k
  · change 4 + _ + 2 = _
    omega
  · change 4 + _ + 2 = _
    omega

/-- The header of the element. -/
theorem header_of_elem {k : AttrKind} {t : Stream' UInt8}
    (h : bytesAt m p = (c.elem k).bytes ++ₛ t) :
    m p = vendorSpecificIe ∧ m.read (p + 2) 4 = k.oui ∧
      Left m p (c.elem k).bytes.length 6 c.bytes := by
  have hbytes : (c.elem k).bytes = vendorSpecificIe :: (c.elem k).len :: (k.oui ++ c.bytes) := rfl
  have hoff : bytesAt m (p + (0 : ℕ)) = (c.elem k).bytes ++ₛ t := by
    rw [Nat.cast_zero, add_zero]
    exact h
  rw [hbytes] at h
  obtain ⟨hid, -, hbody⟩ := IeSearch.header_of_bytesAt h
  have hlen : k.oui.length = 4 := by cases k <;> rfl
  rw [Stream'.append_append_stream] at hbody
  refine ⟨hid, ?_, ?_⟩
  · have hread := read_of_bytesAt hbody
    rwa [hlen] at hread
  · refine ⟨by rw [length_elem]; omega, t, ?_⟩
    have hdrop := bytesAt_drop hbody
    rw [hlen] at hdrop
    rw [← hdrop]
    congr 1
    push_cast
    ring

/-- A call for the attribute comes down to its loop. -/
theorem getAttr_iff {k : AttrKind} {t : Stream' UInt8} {buf : Bool} {x : Option (ℤ × ℕ)}
    (h : bytesAt m p = (c.elem k).bytes ++ₛ t) :
    (∃ fuel r, k.getAttr m p (c.elem k).bytes.length target buf fuel = some r ∧
      (∀ a ∈ r.reads, p ≤ a ∧ a < p + (c.elem k).bytes.length) ∧ r.result = x) ↔
      Finds k.format m p (c.elem k).bytes.length target buf 6 x := by
  obtain ⟨hid, houi, -⟩ := header_of_elem h
  have hlen := length_elem c k
  have hcall : ∀ fuel, k.getAttr m p (c.elem k).bytes.length target buf fuel =
      (attrLoop k.format m p (c.elem k).bytes.length target buf fuel 6).map fun r =>
        ⟨r.result, p :: addrs (p + 2) 4 ++ r.reads⟩ := by
    intro fuel
    unfold AttrKind.getAttr
    rw [if_neg (not_not.mpr hid), if_neg (not_not.mpr houi)]
  constructor
  · rintro ⟨fuel, r, hr, hin, rfl⟩
    rw [hcall] at hr
    obtain ⟨r', hr', rfl⟩ := Option.map_eq_some_iff.mp hr
    exact ⟨fuel, r', hr', rfl, fun a ha => hin a (List.mem_append_right _ ha)⟩
  · rintro ⟨fuel, r, hr, rfl, hin⟩
    refine ⟨fuel, ⟨r.result, p :: addrs (p + 2) 4 ++ r.reads⟩,
      by rw [hcall, hr]; rfl, fun a ha => ?_, rfl⟩
    simp only [List.cons_append, List.mem_cons, List.mem_append] at ha
    rcases ha with rfl | ha | ha
    · omega
    · have hin' := mem_addrs.mp ha
      omega
    · exact hin a ha

/-- What `…_content` makes of what the search for the attribute returns. -/
def contentOf (hdr : ℕ) : Option (ℤ × ℕ) → Option (ℤ × ℕ)
  | none => none
  | some (a, n) => if n = 0 then none else some (a + hdr, u32 ((n : ℤ) - hdr))

theorem content_spec (hdr : ℕ) (buf : Bool) (r : Searched) :
    (AttrKind.content hdr buf r).result = contentOf hdr r.result ∧
      (AttrKind.content hdr buf r).reads = r.reads ++ match contentOf hdr r.result with
        | none => []
        | some (b, n) => if buf then addrs b n else [] := by
  obtain ⟨result, reads⟩ := r
  cases result with
  | none => exact ⟨rfl, (List.append_nil reads).symm⟩
  | some y =>
    obtain ⟨a, n⟩ := y
    unfold AttrKind.content contentOf
    dsimp only
    by_cases hn : n = 0
    · rw [if_pos hn, if_pos hn]
      exact ⟨rfl, (List.append_nil reads).symm⟩
    · rw [if_neg hn, if_neg hn]
      exact ⟨rfl, rfl⟩

theorem contentOf_eq_none {hdr : ℕ} {x : Option (ℤ × ℕ)} : contentOf hdr x = none ↔
    Nothing true x := by
  unfold Nothing
  cases x with
  | none => exact iff_of_true rfl (Or.inl rfl)
  | some y =>
    obtain ⟨a, n⟩ := y
    unfold contentOf
    dsimp only
    split_ifs with hn
    · exact iff_of_true rfl (Or.inr ⟨rfl, a, by rw [hn]⟩)
    · refine iff_of_false (fun h => nomatch h) ?_
      rintro (h | ⟨-, b, h⟩)
      · cases h
      · exact hn (congrArg Prod.snd (Option.some.inj h))

/-- The content of a whole attribute. -/
theorem contentOf_bytes {hdr n len : ℕ} (hpos : 0 < hdr) (a : ℤ) (hn : n = hdr + len)
    (hlen : len < 2 ^ 16) :
    contentOf hdr (some (a, n)) = some (a + hdr, len) := by
  unfold contentOf
  dsimp only
  have hu : u32 ((n : ℤ) - hdr) = len := by
    unfold u32
    omega
  rw [if_neg (by omega), hu]

/-- A call for the content of the attribute. -/
theorem getAttrContent_iff {k : AttrKind} {t : Stream' UInt8} {buf : Bool} {y : Option (ℤ × ℕ)}
    (h : bytesAt m p = (c.elem k).bytes ++ₛ t) :
    (∃ fuel r, k.getAttrContent m p (c.elem k).bytes.length target buf fuel = some r ∧
      (∀ a ∈ r.reads, p ≤ a ∧ a < p + (c.elem k).bytes.length) ∧ r.result = y) ↔
      ∃ x, Finds k.format m p (c.elem k).bytes.length target false 6 x ∧
        contentOf k.format.hdr x = y ∧
        (buf = true → ∀ b n, y = some (b, n) →
        ∀ a ∈ addrs b n, p ≤ a ∧ a < p + (c.elem k).bytes.length) := by
  constructor
  · rintro ⟨fuel, r, hr, hin, rfl⟩
    obtain ⟨r', hr', rfl⟩ := Option.map_eq_some_iff.mp hr
    obtain ⟨hres, hreads⟩ := content_spec k.format.hdr buf r'
    rw [hreads] at hin
    refine ⟨r'.result, (getAttr_iff h).mp
      ⟨fuel, r', hr', fun a ha => hin a (List.mem_append_left _ ha), rfl⟩,
      hres.symm, fun hb b n hy a ha => hin a (List.mem_append_right _ ?_)⟩
    rw [← hres, hy]
    dsimp only
    rwa [if_pos hb]
  · rintro ⟨x, hfinds, rfl, hbuf⟩
    obtain ⟨fuel, r, hr, hin, rfl⟩ := (getAttr_iff h).mpr hfinds
    obtain ⟨hres, hreads⟩ := content_spec k.format.hdr buf r
    refine ⟨fuel, AttrKind.content k.format.hdr buf r,
      by unfold AttrKind.getAttrContent; rw [hr]; rfl, ?_, hres⟩
    intro a ha
    rw [hreads] at ha
    rcases List.mem_append.mp ha with ha | ha
    · exact hin a ha
    · cases hy : contentOf k.format.hdr r.result with
      | none =>
        rw [hy] at ha
        exact absurd ha List.not_mem_nil
      | some y =>
        obtain ⟨b, n⟩ := y
        rw [hy] at ha
        dsimp only at ha
        split_ifs at ha with hb
        · exact hbuf hb b n hy a ha
        · exact absurd ha List.not_mem_nil

/-- The first attribute is inside the element. -/
theorem firstAt_inside {as : List (Attr f.kind.format)} {rest : List UInt8}
    {r : ℕ × Attr f.kind.format}
    (hc : c.bytes = encode as ++ rest) (hr : firstAt target as = some r) : r.1 + r.2.bytes.length ≤
    c.bytes.length := by
  obtain ⟨pre, post, rfl, hoff, -, -⟩ := firstAt_eq_some hr
  rw [hc, encode_append, encode_cons, hoff]
  simp only [List.length_append]
  omega

/-- The searches are right exactly if the element is clean for them. -/
theorem right_iff (f : AttrFun) (m₀ : Mem) (p : ℤ) (c : AttrArea) (target : ℕ) :
    f.Right (m₀.write p (c.elem f.kind).bytes) p c target ↔ f.Clean c target := by
  have h := bytesAt_write m₀ p (c.elem f.kind).bytes
  generalize m₀.write p (c.elem f.kind).bytes = m at h ⊢
  generalize bytesAt m₀ (p + (c.elem f.kind).bytes.length) = t at h
  refine exists_congr fun as => exists_congr fun rest => and_congr_right fun hc => and_congr_right
    fun _ => ?_
  obtain ⟨-, -, hleft⟩ := header_of_elem h
  rw [hc] at hleft
  have hlen := length_elem c f.kind
  have hsmall : (c.elem f.kind).bytes.length < 65536 := by
    have hle := c.length_le
    omega
  have hrest : Left m p (c.elem f.kind).bytes.length (6 + (encode as).length) rest := by
    have hdrop := hleft.drop (encode as).length
    rwa [List.drop_left] at hdrop
  have hfinds : ∀ buf x, Finds f.kind.format m p (c.elem f.kind).bytes.length target buf 6 x ↔ _ :=
    fun _ _ => finds_encode hsmall hleft
  have hno : firstAt target as = none → ¬∃ a ∈ as, a.id = target := fun hnone ⟨a, ha, hid⟩ =>
    firstAt_eq_none.mp hnone a ha hid
  have hyes : ∀ r, firstAt target as = some r → ∃ a ∈ as, a.id = target := by
    rintro r hr
    obtain ⟨pre, post, rfl, -, hid, -⟩ := firstAt_eq_some hr
    exact ⟨r.2, by simp, hid⟩
  obtain ⟨kind, content, buf⟩ := f
  dsimp only at *
  cases content with
  | false =>
    refine (getAttr_iff h).trans ?_
    rw [hfinds]
    cases hfirst : firstAt target as with
    | none =>
      rw [or_iff_right (hno hfirst), ← @passes_iff _ _ _ _ _ _ buf _ _ hrest]
      refine ⟨fun hf => ⟨none, Or.inl rfl, hf⟩, fun ⟨x, hx, hf⟩ => ?_⟩
      rcases hx with rfl | ⟨hc', -⟩
      · exact hf
      · cases hc'
    | some r => exact iff_of_true rfl (Or.inl (hyes r hfirst))
  | true =>
    refine (getAttrContent_iff h).trans ?_
    cases hfirst : firstAt target as with
    | none =>
      rw [or_iff_right (hno hfirst), ← @passes_iff _ _ _ _ _ _ false _ _ hrest]
      rw [hfirst] at hfinds
      refine exists_congr fun x => ?_
      rw [hfinds, Option.map_none, contentOf_eq_none, and_comm, and_assoc]
      refine and_congr_right fun _ => and_iff_right fun _ b n hy => ?_
      cases hy
    | some r =>
      refine iff_of_true ⟨some (p + (6 + r.1 : ℕ), r.2.bytes.length), ?_, ?_, ?_⟩
        (Or.inl (hyes r hfirst))
      · rw [hfinds, hfirst]
      · rw [contentOf_bytes kind.format.hdr_pos _ r.2.length_bytes r.2.length_lt, Option.map_some]
        unfold expected
        dsimp only
        rw [if_pos rfl]
        push_cast
        rw [add_assoc]
      · rintro - b n hy a ha
        cases hy
        have hin := firstAt_inside hc hfirst
        have ha' := mem_addrs.mp ha
        rw [r.2.length_bytes] at hin
        dsimp only at hin ha'
        push_cast at ha'
        omega

/-- An attribute of a WPS element, with a length that is zero in 16 bits when the header is
added. -/
def sampleArea : AttrArea := ⟨[0, 1, 0xff, 0xfc], by decide⟩

/-- The loop stays at the attribute. -/
theorem attrLoop_sampleArea (fuel : ℕ) :
    attrLoop wpsFormat (Mem.write (fun _ => 0) 0 (sampleArea.elem .wps).bytes) 0 10 2 false fuel 6 =
      none := by
  induction fuel with
  | zero => rfl
  | succ k ih =>
    change (attrLoop wpsFormat (Mem.write (fun _ => 0) 0 (sampleArea.elem .wps).bytes) 0 10 2 false
      k 6).map _ = none
    rw [ih]
    rfl

/-- The search for another attribute does not come to an end. -/
theorem not_right_sampleArea :
    ¬∀ (f : AttrFun) (m₀ : Mem) (p : ℤ) (c : AttrArea) (target : ℕ),
      f.Right (m₀.write p (c.elem f.kind).bytes) p c target := by
  intro hall
  obtain ⟨as, rest, -, -, fuel, r, hr, -⟩ := hall ⟨.wps, false, false⟩ (fun _ => 0) 0 sampleArea 2
  obtain ⟨r', hr', -⟩ := Option.map_eq_some_iff.mp hr
  cases hr'.symm.trans (attrLoop_sampleArea fuel)

/-- An attribute of which only the header is in the element is returned with all its data. -/
example : AttrKind.wps.getAttr
    (Mem.write (fun _ => 0) 0 [0xdd, 8, 0, 0x50, 0xf2, 4, 0x10, 0x4a, 0, 1]) 0 10 0x104a false 1 =
    some ⟨some (6, 5), [0, 2, 3, 4, 5, 6, 7, 8, 9]⟩ := by decide

end AttrFun

end Rtl8188eu
