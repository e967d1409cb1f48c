import Mathlib.Data.Stream.Init
import Rtl8188eu.InfoElements
import Rtl8188eu.TlvLists

/-!
# Lists of information elements

`rtw_set_ie` lays elements out one after another, and four functions look for an element in such a
list : `rtw_get_ie` by the id, `rtw_get_ie_ex`, `rtw_get_wps_ie` and `rtw_get_p2p_ie` by the id and
the first bytes of the body (the OUI). `rtw_ies_remove_ie` takes all elements out that
`rtw_get_ie_ex` finds.

The comparison with the OUI does not look at the length of the element, so the body of a short
element may be completed by what is behind it (`Completed`). `rtw_get_wps_ie` gives up after 1000
elements, `rtw_get_p2p_ie` behind `MAX_IE_SZ` bytes, and `rtw_ies_remove_ie` copies what is behind
an element to a buffer of `MAX_IE_SZ` bytes.
-/

namespace Rtl8188eu

open Tlv

/-- `_VENDOR_SPECIFIC_IE_` and `_WPA_IE_ID_`. -/
def vendorSpecificIe : UInt8 := 0xdd
/-- `wps_oui`. -/
def wpsOui : List UInt8 := [0x00, 0x50, 0xf2, 0x04]
/-- `p2p_oui`. -/
def p2pOui : List UInt8 := [0x50, 0x6f, 0x9a, 0x09]

/-- `rtw_set_ie`. -/
def rtwSetIe (m : Mem) (pbuf : ℤ) (index : UInt8) (source : List UInt8) (frlen : ℕ) : ℤ × Mem × ℕ :=
  (pbuf + source.length + 2, m.write pbuf (index :: UInt8.ofNat source.length :: source),
    frlen + (source.length + 2))

/-- The elements are laid out one after another. -/
def rtwSetIes : List Elem → ℤ × Mem × ℕ → ℤ × Mem × ℕ
  | [], r => r
  | e :: es, (pbuf, m, frlen) => rtwSetIes es (rtwSetIe m pbuf e.id e.body frlen)

/-- The loop of the searches for an element with an id and an OUI, at the element `cnt` bytes behind
the start, after `loop` other elements. -/
def ieSearch (m : Mem) (inIe : ℤ) (inLen : ℕ) (eid : UInt8) (oui : Option (List UInt8))
    (giveUp : ℕ → ℕ → Bool) : ℕ → ℕ → ℕ → Option (ℤ × ℕ)
  | 0, _, _ => none
  | fuel + 1, cnt, loop =>
    if cnt < inLen then
      if giveUp cnt loop then none
      else if eid = m (inIe + cnt) ∧ ∀ o ∈ oui, m.read (inIe + cnt + 2) o.length = o then
        some (inIe + cnt, (m (inIe + cnt + 1)).toNat + 2)
      else ieSearch m inIe inLen eid oui giveUp fuel (cnt + ((m (inIe + cnt + 1)).toNat + 2)) (loop + 1)
    else none

/-- `rtw_get_ie_ex` : the address of the element and its length with the id and the length byte. A
round of the loop passes two bytes or more. -/
def rtwGetIeEx (m : Mem) (inIe : ℤ) (inLen : ℕ) (eid : UInt8) (oui : Option (List UInt8)) :
    Option (ℤ × ℕ) :=
  ieSearch m inIe inLen eid oui (fun _ _ => false) inLen 0 0

/-- `rtw_get_wps_ie`. The check of `loop` after an element is the check before the next one. -/
def rtwGetWpsIe (m : Mem) (inIe : ℤ) (inLen : ℕ) : Option (ℤ × ℕ) :=
  ieSearch m inIe inLen vendorSpecificIe (some wpsOui) (fun _ loop => decide (1000 < loop)) inLen 0 0

/-- `rtw_get_p2p_ie`. A negative length is large as an unsigned one, and the first round returns
`NULL` then. -/
def rtwGetP2pIe (m : Mem) (inIe inLen : ℤ) : Option (ℤ × ℕ) :=
  if inLen < 0 then none
  else
    ieSearch m inIe inLen.toNat vendorSpecificIe (some p2pOui) (fun cnt _ => decide (maxIeSz < cnt))
      inLen.toNat 0 0

/-- The loop of `rtw_ies_remove_ie`. The copy of what remains does not fit `buf` if it is longer
than `MAX_IE_SZ` bytes, which a negative length is as an unsigned one. -/
def iesRemoveLoop (eid : UInt8) (oui : Option (List UInt8)) :
    ℕ → Mem → ℤ → ℕ → ℕ → Bool → Option (Bool × Mem × ℕ)
  | 0, _, _, _, _, _ => none
  | fuel + 1, m, start, searchLen, iesLen, ret =>
    match rtwGetIeEx m start searchLen eid oui with
    | none => some (ret, m, iesLen)
    | some (targetIe, targetIelen) =>
      let remainIes := targetIe + targetIelen
      let remainLen := searchLen - (remainIes - start)
      if remainLen < 0 ∨ (maxIeSz : ℤ) < remainLen then none
      else
        iesRemoveLoop eid oui fuel (m.write targetIe (m.read remainIes remainLen.toNat)) targetIe
          remainLen.toNat (iesLen - targetIelen) true

/-- `rtw_ies_remove_ie` : whether it returns `_SUCCESS`, the memory and `*ies_len`. -/
def rtwIesRemoveIe (m : Mem) (ies : ℤ) (iesLen offset : ℕ) (eid : UInt8) (oui : Option (List UInt8)) :
    Option (Bool × Mem × ℕ) :=
  if iesLen ≤ offset then some (false, m, iesLen)
  else iesRemoveLoop eid oui (iesLen - offset + 1) m (ies + offset) (iesLen - offset) iesLen false

/-! ## The bytes at an address -/

/-- The bytes from the address `p` on. -/
def bytesAt (m : Mem) (p : ℤ) : Stream' UInt8 := fun i => m (p + i)

theorem get_bytesAt (m : Mem) (p : ℤ) (i : ℕ) : (bytesAt m p).get i = m (p + i) := rfl

theorem drop_bytesAt (m : Mem) (p : ℤ) (n : ℕ) : (bytesAt m p).drop n = bytesAt m (p + n) := by
  ext i
  rw [Stream'.get_drop, get_bytesAt, get_bytesAt, Nat.cast_add, add_assoc]

theorem read_eq_take (m : Mem) (n : ℕ) (p : ℤ) : m.read p n = (bytesAt m p).take n := by
  refine List.ext_getElem? fun i => ?_
  rcases lt_or_ge i n with hi | hi
  · rw [Stream'.getElem?_take hi, List.getElem?_eq_getElem (by simpa using hi), Mem.getElem_read,
      get_bytesAt]
  · rw [List.getElem?_eq_none (by simpa using hi), List.getElem?_eq_none (by simpa using hi)]

variable {m : Mem} {p q : ℤ} {bs : List UInt8} {s tail : Stream' UInt8}

theorem bytesAt_drop (h : bytesAt m p = bs ++ₛ s) : bytesAt m (p + bs.length) = s := by
  rw [← drop_bytesAt, h, Stream'.drop_append_stream]

theorem read_of_bytesAt (h : bytesAt m p = bs ++ₛ s) : m.read p bs.length = bs := by
  rw [read_eq_take, h, Stream'.take_append_of_le_length _ _ _ le_rfl, List.take_length]

theorem bytesAt_write (m : Mem) (p : ℤ) (bs : List UInt8) :
    bytesAt (m.write p bs) p = bs ++ₛ bytesAt m (p + bs.length) := by
  ext i
  rw [get_bytesAt]
  rcases lt_or_ge i bs.length with hi | hi
  · have hget := Mem.getElem_read (m.write p bs) bs.length p i (by simpa using hi)
    rw [Stream'.get_append_left _ _ _ hi, ← hget]
    simp only [Mem.read_write_self]
  · obtain ⟨j, rfl⟩ := Nat.exists_eq_add_of_le hi
    rw [Stream'.get_append_right, get_bytesAt, Mem.write_of_disjoint m (by push_cast; omega),
      Nat.cast_add, add_assoc]

theorem bytesAt_of_read (h : m.read p bs.length = bs) :
    bytesAt m p = bs ++ₛ bytesAt m (p + bs.length) := by
  rw [read_eq_take] at h
  conv_lhs => rw [← Stream'.append_take_drop bs.length (bytesAt m p), h]
  rw [drop_bytesAt]

/-- What is before a block that is written stays. -/
theorem bytesAt_write_behind {pre : List UInt8} (h : bytesAt m p = pre ++ₛ s) :
    bytesAt (m.write (p + pre.length) bs) p =
      pre ++ₛ (bs ++ₛ bytesAt m (p + pre.length + bs.length)) := by
  have hread : (m.write (p + pre.length) bs).read p pre.length = pre := by
    rw [Mem.read_write_of_disjoint m (Or.inl le_rfl), read_of_bytesAt h]
  rw [bytesAt_of_read hread, bytesAt_write]

/-- A block between others is replaced. -/
theorem bytesAt_write_block {pre old : List UInt8} (h : bytesAt m p = pre ++ₛ (old ++ₛ tail))
    (hlen : bs.length = old.length) :
    bytesAt (m.write (p + pre.length) bs) p = pre ++ₛ (bs ++ₛ tail) := by
  rw [bytesAt_write_behind h, hlen, bytesAt_drop (bytesAt_drop h)]

/-! ## An element at an address -/

variable {e : Elem} {es : List Elem}

theorem id_of_bytesAt (h : bytesAt m q = encode (e :: es) ++ₛ tail) : m q = e.id := by
  have hget := congrArg (Stream'.get · 0) h
  rw [get_bytesAt] at hget
  simpa [Elem.bytes, Stream'.cons_append_stream] using hget

theorem len_of_bytesAt (h : bytesAt m q = encode (e :: es) ++ₛ tail) :
    (m (q + 1)).toNat = e.body.length := by
  have hget := congrArg (Stream'.get · 1) h
  rw [get_bytesAt] at hget
  rw [← e.toNat_len]
  simpa [Elem.bytes, Stream'.cons_append_stream] using congrArg UInt8.toNat hget

/-- Behind the id and the length the body follows, and then the other elements. -/
theorem body_of_bytesAt (h : bytesAt m q = encode (e :: es) ++ₛ tail) (n : ℕ) :
    m.read (q + 2) n = ((e.body ++ encode es) ++ₛ tail).take n := by
  have hbs : encode (e :: es) = [e.id, e.len] ++ (e.body ++ encode es) := rfl
  rw [hbs, Stream'.append_append_stream] at h
  have hdrop := bytesAt_drop h
  rw [read_eq_take, ← hdrop]
  rfl

theorem next_of_bytesAt (h : bytesAt m q = encode (e :: es) ++ₛ tail) :
    bytesAt m (q + (e.body.length + 2 : ℕ)) = encode es ++ₛ tail := by
  rw [encode_cons, Stream'.append_append_stream] at h
  exact bytesAt_drop h

/-! ## What is looked for -/

/-- The element has the id, and its body starts with the OUI. -/
def Own (eid : UInt8) (o : List UInt8) (e : Elem) : Bool := decide (e.id = eid) && o.isPrefixOf e.body

/-- The element has the id, and its body is shorter than the OUI and completed to it by what is
behind it. -/
def Completed (eid : UInt8) (o : List UInt8) (e : Elem) (es : List Elem) (tail : Stream' UInt8) : Prop :=
  e.id = eid ∧ e.body.length < o.length ∧ ((e.body ++ encode es) ++ₛ tail).take o.length = o

variable {eid : UInt8} {oui : Option (List UInt8)} {o : List UInt8}

/-- The comparison of the search. -/
def hits (eid : UInt8) (o : List UInt8) (e : Elem) (es : List Elem) (tail : Stream' UInt8) : Bool :=
  decide (e.id = eid ∧ ((e.body ++ encode es) ++ₛ tail).take o.length = o)

/-- What the comparison finds starts with the OUI or is completed to it. -/
theorem hits_iff : hits eid o e es tail = true ↔
    Own eid o e = true ∨ Completed eid o e es tail := by
  rw [hits, decide_eq_true_iff, Own, Bool.and_eq_true, decide_eq_true_iff,
    List.isPrefixOf_iff_prefix,
    Completed]
  rcases Nat.lt_or_ge e.body.length o.length with hlt | hge
  · have hno : ¬ o <+: e.body := fun h => absurd h.length_le (by omega)
    simp [hno, hlt]
  · have htake : ((e.body ++ encode es) ++ₛ tail).take o.length = e.body.take o.length := by
      rw [Stream'.append_append_stream, Stream'.take_append_of_le_length _ _ _ hge]
    rw [htake, List.prefix_iff_eq_take]
    simp [hge, eq_comm]

theorem not_completed_of_own (h : Own eid o e = true) : ¬ Completed eid o e es tail := by
  rintro ⟨-, hlt, -⟩
  rw [Own, Bool.and_eq_true, List.isPrefixOf_iff_prefix] at h
  have hle := h.2.length_le
  omega

/-- The search reads the comparison off the memory. -/
theorem hits_of_bytesAt (h : bytesAt m q = encode (e :: es) ++ₛ tail) :
    (eid = m q ∧ ∀ o ∈ oui, m.read (q + 2) o.length = o) ↔
    hits eid (oui.getD []) e es tail = true := by
  rw [hits, decide_eq_true_iff, id_of_bytesAt h, eq_comm]
  refine and_congr_right fun _ => ?_
  cases oui with
  | none => simp
  | some o => simp [body_of_bytesAt h]

/-- The search in a list that is followed by `tail`. -/
def scan (eid : UInt8) (o : List UInt8) (giveUp : ℕ → ℕ → Bool) (tail : Stream' UInt8) :
    List Elem → ℕ → ℕ → Option (ℕ × Elem)
  | [], _, _ => none
  | e :: es, cnt, loop =>
    if giveUp cnt loop then none
    else if hits eid o e es tail then some (cnt, e)
    else scan eid o giveUp tail es (cnt + (e.body.length + 2)) (loop + 1)

/-- What is found, as an address and a length. -/
def found (p : ℤ) (r : ℕ × Elem) : ℤ × ℕ := (p + r.1, r.2.body.length + 2)

theorem ieSearch_eq_scan {giveUp : ℕ → ℕ → Bool} {n : ℕ} : ∀ {es : List Elem} {fuel cnt loop : ℕ},
    bytesAt m (p + cnt) = encode es ++ₛ tail → n = cnt + (encode es).length → n ≤ cnt + fuel →
    ieSearch m p n eid oui giveUp fuel cnt loop =
      (scan eid (oui.getD []) giveUp tail es cnt loop).map (found p)
  | [], fuel, cnt, loop, _, hn, _ => by
    have hlt : ¬ cnt < n := by
      simp at hn
      omega
    cases fuel with
    | zero => rfl
    | succ fuel => rw [ieSearch, if_neg hlt]; rfl
  | e :: es, fuel, cnt, loop, h, hn, hf => by
    rw [encode_cons, List.length_append, Elem.length_bytes] at hn
    obtain ⟨fuel, rfl⟩ : ∃ k, fuel = k + 1 := ⟨fuel - 1, by omega⟩
    rw [ieSearch, if_pos (by omega), scan]
    split
    · rfl
    rw [if_congr (hits_of_bytesAt h) rfl rfl, len_of_bytesAt h]
    split
    · rfl
    have hnext := next_of_bytesAt h
    rw [add_assoc, ← Nat.cast_add] at hnext
    exact ieSearch_eq_scan hnext (by omega) (by omega)

/-! ## When a search finds what it looks for -/

variable {giveUp : ℕ → ℕ → Bool} {cnt loop : ℕ}

/-- Up to the first element that starts with the OUI no element that the search looks at is
completed to it. -/
def Uncompleted (eid : UInt8) (o : List UInt8) (giveUp : ℕ → ℕ → Bool) (tail : Stream' UInt8)
    (es : List Elem) (cnt loop : ℕ) : Prop :=
  ∀ pre e post, es = pre ++ e :: post → (∀ x ∈ pre, Own eid o x = false) → Completed eid o e post tail →
    giveUp (cnt + (encode pre).length) (loop + pre.length) = true

theorem uncompleted_nil : Uncompleted eid o giveUp tail [] cnt loop := by
  intro pre e post h
  simp at h

theorem uncompleted_cons : Uncompleted eid o giveUp tail (e :: es) cnt loop ↔
    (Completed eid o e es tail → giveUp cnt loop = true) ∧
      (Own eid o e = false → Uncompleted eid o giveUp tail es (cnt + (e.body.length + 2))
      (loop + 1)) := by
  have hcnt : ∀ pre : List Elem,
      cnt + (encode (e :: pre)).length = cnt + (e.body.length + 2) + (encode pre).length := by
    intro pre
    rw [encode_cons, List.length_append, Elem.length_bytes]
    omega
  have hloop : ∀ pre : List Elem, loop + (e :: pre).length = loop + 1 + pre.length := by
    intro pre
    rw [List.length_cons]
    omega
  constructor
  · intro h
    refine ⟨h [] e es rfl (by simp), fun hown pre f post hes hpre => ?_⟩
    rw [← hcnt, ← hloop]
    refine h (e :: pre) f post (by rw [hes, List.cons_append]) fun x hx => ?_
    rcases List.mem_cons.mp hx with rfl | hx
    · exact hown
    · exact hpre x hx
  · rintro ⟨h₁, h₂⟩ pre f post hes hpre
    cases pre with
    | nil =>
      obtain ⟨rfl, rfl⟩ := List.cons.inj hes
      exact h₁
    | cons x pre =>
      obtain ⟨rfl, rfl⟩ := List.cons.inj hes
      rw [hcnt, hloop]
      exact h₂ (hpre e List.mem_cons_self) pre f post rfl
        fun y hy => hpre y (List.mem_cons_of_mem _ hy)

/-- What has been given up stays given up. -/
def Mono (giveUp : ℕ → ℕ → Bool) : Prop :=
  ∀ c l c' l', c ≤ c' → l ≤ l' → giveUp c l = true → giveUp c' l' = true

/-- The first element that starts with the OUI, if the search gets to it, with `cnt` bytes and
`loop` elements before the list. -/
def first (eid : UInt8) (o : List UInt8) (giveUp : ℕ → ℕ → Bool) (es : List Elem) (cnt loop : ℕ) :
    Option (ℕ × Elem) :=
  ((firstAt (Own eid o) es).map fun r => (r.1 + cnt, r.2)).filter
    fun r => !giveUp r.1 (loop + es.findIdx (Own eid o))

/-- The first element is not before the list. -/
theorem le_of_first {r : ℕ × Elem} (h : first eid o giveUp es cnt loop = some r) :
    cnt ≤ r.1 ∧ giveUp r.1 (loop + es.findIdx (Own eid o)) = false := by
  obtain ⟨h, hup⟩ := Option.filter_eq_some_iff.mp h
  obtain ⟨a, -, rfl⟩ := Option.map_eq_some_iff.mp h
  exact ⟨Nat.le_add_left _ _, by simpa using hup⟩

theorem first_of_giveUp (hmono : Mono giveUp) (h : giveUp cnt loop = true) :
    first eid o giveUp es cnt loop = none := by
  refine Option.eq_none_iff_forall_ne_some.mpr fun r hr => ?_
  obtain ⟨hle, hup⟩ := le_of_first hr
  rw [hmono _ _ _ _ hle (Nat.le_add_right _ _) h] at hup
  cases hup

theorem first_cons (hup : giveUp cnt loop = false) : first eid o giveUp (e :: es) cnt loop =
    if Own eid o e then some (cnt, e)
    else first eid o giveUp es (cnt + (e.body.length + 2)) (loop + 1) := by
  rw [first, first, firstAt, List.findIdx_cons]
  cases hown : Own eid o e with
  | true => simp [Option.filter_some, hup]
  | false =>
    have hidx : loop + (es.findIdx (Own eid o) + 1) = loop + 1 + es.findIdx (Own eid o) := by omega
    rw [cond_false, hidx, if_neg Bool.false_ne_true, if_neg Bool.false_ne_true, Option.map_map]
    congr 2
    funext r
    have hoff : r.1 + (e.body.length + 2) + cnt = r.1 + (cnt + (e.body.length + 2)) := by omega
    rw [Function.comp_apply, hoff]

theorem scan_of_giveUp (h : giveUp cnt loop = true) :
    scan eid o giveUp tail es cnt loop = none := by
  cases es with
  | nil => rfl
  | cons e es => rw [scan, if_pos h]

theorem uncompleted_of_giveUp (hmono : Mono giveUp) (h : giveUp cnt loop = true) :
    Uncompleted eid o giveUp tail es cnt loop := fun _ _ _ _ _ _ =>
  hmono _ _ _ _ (Nat.le_add_right _ _) (Nat.le_add_right _ _) h

/-- A search finds the first element that starts with the OUI exactly if no element before it is
completed. -/
theorem scan_eq_iff (hmono : Mono giveUp) : ∀ {es : List Elem} {cnt loop : ℕ},
    (scan eid o giveUp tail es cnt loop).map (found p) = (first eid o giveUp es cnt loop).map
    (found p) ↔
      Uncompleted eid o giveUp tail es cnt loop
  | [], cnt, loop => iff_of_true rfl uncompleted_nil
  | e :: es, cnt, loop => by
    by_cases hup : giveUp cnt loop = true
    · rw [scan_of_giveUp hup, first_of_giveUp hmono hup]
      exact iff_of_true rfl (uncompleted_of_giveUp hmono hup)
    rw [scan, if_neg hup, uncompleted_cons, first_cons (by simpa using hup)]
    by_cases hown : Own eid o e = true
    · rw [if_pos (hits_iff.mpr (Or.inl hown)), if_pos hown]
      refine iff_of_true rfl ⟨fun hc => absurd hc (not_completed_of_own hown), ?_⟩
      rw [hown]
      exact fun h => absurd h.symm Bool.false_ne_true
    rw [if_neg hown]
    by_cases hc : Completed eid o e es tail
    · -- the element that is found is before all of the others
      rw [if_pos (hits_iff.mpr (Or.inr hc))]
      refine iff_of_false (fun h => ?_) fun h => hup (h.1 hc)
      obtain ⟨r, hr, he⟩ := Option.map_eq_some_iff.mp h.symm
      have hle := (le_of_first hr).1
      have hpos : p + (r.1 : ℤ) = p + (cnt : ℤ) := congrArg Prod.fst he
      omega
    · rw [if_neg fun h => (hits_iff.mp h).elim hown hc, scan_eq_iff hmono]
      rw [Bool.not_eq_true] at hown
      exact ⟨fun h => ⟨fun hc' => absurd hc' hc, fun _ => h⟩, fun h => h.2 hown⟩

/-! ## Removal -/

/-- What is behind the list `es` after the element `e` before it was removed : the last bytes of the
longer list are still there. -/
def behind (e : Elem) (es : List Elem) (tail : Stream' UInt8) : Stream' UInt8 :=
  (encode (e :: es) ++ₛ tail).drop (encode es).length

/-- The elements that `rtw_ies_remove_ie` keeps, if no copy is too long. -/
def kept (eid : UInt8) (o : List UInt8) : List Elem → Stream' UInt8 → Option (List Elem)
  | [], _ => some []
  | e :: es, tail =>
    if hits eid o e es tail then
      if maxIeSz < (encode es).length then none else kept eid o es (behind e es tail)
    else (kept eid o es tail).map (e :: ·)

/-- The search finds the first element that is not kept. -/
theorem scan_cases : ∀ (es : List Elem) (cnt loop : ℕ),
    (scan eid o (fun _ _ => false) tail es cnt loop = none ∧ kept eid o es tail = some es) ∨
    ∃ pre e post, es = pre ++ e :: post ∧ hits eid o e post tail = true ∧
      scan eid o (fun _ _ => false) tail es cnt loop = some (cnt + (encode pre).length, e) ∧
      kept eid o es tail = (kept eid o (e :: post) tail).map (pre ++ ·)
  | [], _, _ => Or.inl ⟨rfl, rfl⟩
  | e :: es, cnt, loop => by
    rw [scan, if_neg Bool.false_ne_true]
    by_cases hh : hits eid o e es tail = true
    · rw [if_pos hh]
      exact Or.inr ⟨[], e, es, rfl, hh, rfl, by simp⟩
    rw [if_neg hh, kept, if_neg hh]
    rcases scan_cases es (cnt + (e.body.length + 2)) (loop + 1) with
      ⟨hs, hk⟩ | ⟨pre, f, post, rfl, hf, hs, hk⟩
    · rw [hs, hk]
      exact Or.inl ⟨rfl, rfl⟩
    · refine Or.inr ⟨e :: pre, f, post, rfl, hf, ?_, ?_⟩
      · rw [hs, encode_cons, List.length_append, Elem.length_bytes]
        congr 2
        omega
      · rw [hk, Option.map_map]
        rfl

theorem kept_sublist : ∀ {es ks : List Elem} {tail : Stream' UInt8}, kept eid o es tail = some ks →
    ks.Sublist (es.filter fun e => !Own eid o e)
  | [], ks, _, h => by
    cases h
    exact List.nil_sublist _
  | e :: es, ks, tail, h => by
    rw [kept] at h
    split at h
    · split at h
      · cases h
      · exact (kept_sublist h).trans ((List.sublist_cons_self e es).filter _)
    · rename_i hh
      obtain ⟨ks, hks, rfl⟩ := Option.map_eq_some_iff.mp h
      have hown : Own eid o e = false := by
        rw [← Bool.not_eq_true]
        exact fun h => hh (hits_iff.mpr (Or.inl h))
      rw [List.filter_cons, hown]
      exact (kept_sublist hks).cons_cons e

theorem length_kept_le {ks : List Elem} (h : kept eid o es tail = some ks) :
    (encode ks).length ≤ (encode es).length :=
  length_encode_le ((kept_sublist h).trans List.filter_sublist)

/-- What the loop of the removal leaves : the elements that are kept, in their place. -/
theorem iesRemoveLoop_cases : ∀ {fuel : ℕ} {es : List Elem} {m : Mem} {q : ℤ} {tail : Stream' UInt8}
    {iesLen : ℕ} {ret : Bool}, bytesAt m q = encode es ++ₛ tail → (encode es).length < fuel →
    (kept eid (oui.getD []) es tail = none ∧
      iesRemoveLoop eid oui fuel m q (encode es).length iesLen ret = none) ∨
    ∃ ks m', kept eid (oui.getD []) es tail = some ks ∧
      iesRemoveLoop eid oui fuel m q (encode es).length iesLen ret =
        some (ret || decide (ks ≠ es), m', iesLen - ((encode es).length - (encode ks).length)) ∧
      m'.read q (encode ks).length = encode ks ∧ ∀ a < q, m' a = m a
  | 0, _, _, _, _, _, _, _, hfuel => absurd hfuel (Nat.not_lt_zero _)
  | fuel + 1, es, m, q, tail, iesLen, ret, h, hfuel => by
    have hsearch : rtwGetIeEx m q (encode es).length eid oui =
        (scan eid (oui.getD []) (fun _ _ => false) tail es 0 0).map (found q) := by
      refine ieSearch_eq_scan ?_ (by omega) (by omega)
      rw [Nat.cast_zero, add_zero]
      exact h
    rw [iesRemoveLoop, hsearch]
    rcases @scan_cases tail eid (oui.getD []) es 0 0 with
      ⟨hs, hk⟩ | ⟨pre, e, post, rfl, hf, hs, hk⟩
    · refine Or.inr ⟨es, m, hk, ?_, read_of_bytesAt h, fun _ _ => rfl⟩
      rw [hs]
      simp
    have hlen : (encode (pre ++ e :: post)).length =
        (encode pre).length + (e.body.length + 2 + (encode post).length) := by
      rw [encode_append, encode_cons, List.length_append, List.length_append, Elem.length_bytes]
    have hremain : ((encode (pre ++ e :: post)).length : ℤ) -
        (q + (encode pre).length + (e.body.length + 2 : ℕ) - q) = (encode post).length := by
      rw [hlen]
      push_cast
      ring
    -- what remains is copied over the element
    rw [encode_append, Stream'.append_append_stream] at h
    have htarget := bytesAt_drop h
    have hread : m.read (q + (encode pre).length + (e.body.length + 2 : ℕ)) (encode post).length =
        encode post := read_of_bytesAt (next_of_bytesAt htarget)
    have hcopy : bytesAt (m.write (q + (encode pre).length) (encode post))
      (q + (encode pre).length) =
        encode post ++ₛ behind e post tail := by
      rw [bytesAt_write, ← drop_bytesAt, htarget, behind]
    rw [hs, hk]
    simp only [Option.map_some, found, hremain, Int.toNat_natCast, Nat.zero_add, hread]
    rw [kept, if_pos hf]
    by_cases hbig : maxIeSz < (encode post).length
    · rw [if_pos hbig, if_pos (Or.inr (by exact_mod_cast hbig))]
      exact Or.inl ⟨rfl, rfl⟩
    rw [if_neg hbig, if_neg (by omega)]
    rcases @iesRemoveLoop_cases fuel post _ _ _ (iesLen - (e.body.length + 2)) true hcopy
      (by omega) with
      ⟨hnone, hloop⟩ | ⟨ks, m', hks, hloop, hread', hbelow⟩
    · rw [hnone, hloop]
      exact Or.inl ⟨rfl, rfl⟩
    refine Or.inr ⟨pre ++ ks, m', by rw [hks]; rfl, ?_, ?_, fun a ha => ?_⟩
    · have hle : (encode ks).length ≤ (encode post).length := length_kept_le hks
      have hne : pre ++ ks ≠ pre ++ e :: post := by
        intro he
        have hlens := congrArg (fun l => (encode l).length) (List.append_cancel_left he)
        simp only [encode_cons, List.length_append, Elem.length_bytes] at hlens
        omega
      rw [hloop, decide_eq_true hne, hlen, encode_append, List.length_append]
      simp only [Bool.true_or, Bool.or_true]
      congr 3
      omega
    · have hpre : m'.read q (encode pre).length = encode pre := by
        refine Eq.trans (Mem.read_congr fun i hi => ?_) (read_of_bytesAt h)
        rw [hbelow _ (by omega), Mem.write_of_disjoint m (Or.inl (by omega))]
      rw [encode_append, List.length_append, Mem.read_add, hread', hpre]
    · rw [hbelow a (by omega), Mem.write_of_disjoint m (Or.inl (by omega))]

/-- At most `MAX_IE_SZ` bytes are behind an element that is removed, and no other element is
completed to the OUI by what is behind it at that time. -/
def Removable (eid : UInt8) (o : List UInt8) : List Elem → Stream' UInt8 → Prop
  | [], _ => True
  | e :: es, tail =>
    if Own eid o e then (encode es).length ≤ maxIeSz ∧ Removable eid o es (behind e es tail)
    else ¬ Completed eid o e es tail ∧ Removable eid o es tail

theorem kept_eq_iff : ∀ {es : List Elem} {tail : Stream' UInt8},
    kept eid o es tail = some (es.filter fun e => !Own eid o e) ↔ Removable eid o es tail
  | [], _ => iff_of_true rfl trivial
  | e :: es, tail => by
    rw [kept, Removable]
    by_cases hown : Own eid o e = true
    · have hfilter : ((e :: es).filter fun e => !Own eid o e) =
        es.filter fun e => !Own eid o e := by
        rw [List.filter_cons, hown]
        rfl
      rw [if_pos (hits_iff.mpr (Or.inl hown)), if_pos hown, hfilter, ← @kept_eq_iff es]
      by_cases hbig : maxIeSz < (encode es).length
      · rw [if_pos hbig]
        exact iff_of_false nofun fun h => absurd h.1 (by omega)
      · rw [if_neg hbig]
        exact ⟨fun h => ⟨by omega, h⟩, fun h => h.2⟩
    · have hfilter : ((e :: es).filter fun e => !Own eid o e) =
        e :: es.filter fun e => !Own eid o e := by
        rw [Bool.not_eq_true] at hown
        rw [List.filter_cons, hown]
        rfl
      rw [if_neg hown, hfilter]
      by_cases hc : Completed eid o e es tail
      · -- an element that is kept by the list is removed
        rw [if_pos (hits_iff.mpr (Or.inr hc))]
        refine iff_of_false (fun h => ?_) fun h => h.1 hc
        split at h
        · cases h
        · have hle := (kept_sublist h).length_le
          rw [List.length_cons] at hle
          omega
      · rw [if_neg fun h => (hits_iff.mp h).elim hown hc, ← @kept_eq_iff es tail,
          Option.map_eq_some_iff]
        constructor
        · rintro ⟨ks, hks, he⟩
          exact ⟨hc, (List.cons.inj he).2 ▸ hks⟩
        · exact fun h => ⟨_, h.2, rfl⟩

/-- `rtw_ies_remove_ie` leaves the list without the elements that start with the OUI, says how long
it is and whether there was such an element. -/
def RemovesOwn (m : Mem) (ies : ℤ) (offset : ℕ) (eid : UInt8) (oui : Option (List UInt8))
    (es : List Elem) : Prop :=
  ∃ ret m' iesLen, rtwIesRemoveIe m ies (offset + (encode es).length) offset eid oui =
      some (ret, m', iesLen) ∧
    m'.read (ies + offset) (iesLen - offset) = encode (es.filter fun e => !Own eid (oui.getD []) e) ∧
    iesLen + (encode (es.filter (Own eid (oui.getD [])))).length = offset + (encode es).length ∧
    (ret = true ↔ ∃ e ∈ es, Own eid (oui.getD []) e = true)

theorem length_encode_filter (P : Elem → Bool) : ∀ es : List Elem,
    (encode (es.filter P)).length + (encode (es.filter fun e => !P e)).length = (encode es).length
  | [] => rfl
  | e :: es => by
    have ih := length_encode_filter P es
    rw [List.filter_cons, List.filter_cons]
    cases hP : P e with
    | true =>
      simp only [if_true, Bool.not_true, Bool.false_eq_true, if_false, encode_cons,
        List.length_append]
      omega
    | false =>
      simp only [if_true, Bool.not_false, Bool.false_eq_true, if_false, encode_cons,
        List.length_append]
      omega

theorem removesOwn_iff {ies : ℤ} {offset : ℕ} (h : bytesAt m (ies + offset) = encode es ++ₛ tail) :
    RemovesOwn m ies offset eid oui es ↔ Removable eid (oui.getD []) es tail := by
  have hsum := length_encode_filter (Own eid (oui.getD [])) es
  rw [RemovesOwn, rtwIesRemoveIe, ← kept_eq_iff]
  by_cases hnil : offset + (encode es).length ≤ offset
  · have hes : es = [] := by
      cases es with
      | nil => rfl
      | cons e es =>
        rw [encode_cons, List.length_append, Elem.length_bytes] at hnil
        omega
    subst hes
    refine iff_of_true ⟨false, m, offset, ?_, ?_, ?_, ?_⟩ rfl
    · simp
    · simp [Mem.read]
    · simp
    · simp
  rw [if_neg hnil, Nat.add_sub_cancel_left]
  rcases @iesRemoveLoop_cases eid oui _ es m _ tail (offset + (encode es).length) false h
    (Nat.lt_succ_self _) with ⟨hk, hloop⟩ | ⟨ks, m', hk, hloop, hread, -⟩
  · rw [hk, hloop]
    refine iff_of_false (fun hown => ?_) (fun hnone => by cases hnone)
    obtain ⟨_, _, _, h, _⟩ := hown
    cases h
  have hle := length_kept_le hk
  rw [hk, hloop]
  constructor
  · rintro ⟨ret, m'', n, he, -, hlen, -⟩
    simp only [Option.some.injEq, Prod.mk.injEq] at he
    obtain ⟨-, -, rfl⟩ := he
    refine congrArg some (eq_of_sublist (kept_sublist hk) ?_)
    omega
  · intro he
    cases he
    refine ⟨_, m', _, rfl, ?_, by omega, ?_⟩
    · have hn : offset + (encode es).length - ((encode es).length -
          (encode (es.filter fun e => !Own eid (oui.getD []) e)).length) - offset =
          (encode (es.filter fun e => !Own eid (oui.getD []) e)).length := by omega
      rw [hn, hread]
    · rw [Bool.false_or, decide_eq_true_iff, ne_eq, List.filter_eq_self]
      simp

/-! ## The view as a list -/

theorem bytesAt_rtwSetIes : ∀ (es : List Elem) (p : ℤ) (m₀ : Mem) (frlen : ℕ),
    (∀ a < p, (rtwSetIes es (p, m₀, frlen)).2.1 a = m₀ a) ∧
      bytesAt (rtwSetIes es (p, m₀, frlen)).2.1 p =
        encode es ++ₛ bytesAt m₀ (p + (encode es).length)
  | [], p, m₀, frlen => by
    refine ⟨fun _ _ => rfl, ?_⟩
    rw [encode_nil, List.length_nil, Nat.cast_zero, add_zero]
    rfl
  | e :: es, p, m₀, frlen => by
    have hset : rtwSetIes (e :: es) (p, m₀, frlen) =
        rtwSetIes es (p + (e.body.length + 2 : ℕ), m₀.write p e.bytes,
          frlen + (e.body.length + 2)) := by
      have hp : p + (e.body.length + 2 : ℕ) = p + (e.body.length : ℤ) + 2 := by
        push_cast
        ring
      rw [rtwSetIes, rtwSetIe, hp]
      rfl
    obtain ⟨hbelow, hbytes⟩ := bytesAt_rtwSetIes es (p + (e.body.length + 2 : ℕ))
      (m₀.write p e.bytes)
      (frlen + (e.body.length + 2))
    rw [hset]
    generalize rtwSetIes es (p + (e.body.length + 2 : ℕ), m₀.write p e.bytes,
      frlen + (e.body.length + 2)) = r at hbelow hbytes ⊢
    refine ⟨fun a ha => ?_, ?_⟩
    · rw [hbelow a (by omega), Mem.write_of_disjoint m₀ (Or.inl ha)]
    · have hfirst : bytesAt r.2.1 p = e.bytes ++ₛ bytesAt r.2.1 (p + (e.body.length + 2 : ℕ)) := by
        ext i
        rw [get_bytesAt]
        rcases lt_or_ge i e.bytes.length with hi | hi
        · have hi' := hi
          rw [Elem.length_bytes] at hi'
          rw [hbelow _ (by omega), ← get_bytesAt (m₀.write p e.bytes), bytesAt_write,
            Stream'.get_append_left _ _ _ hi, Stream'.get_append_left _ _ _ hi]
        · obtain ⟨j, rfl⟩ := Nat.exists_eq_add_of_le hi
          rw [Stream'.get_append_right, get_bytesAt, Nat.cast_add, ← add_assoc, Elem.length_bytes]
      have htail : bytesAt (m₀.write p e.bytes) (p + (e.body.length + 2 : ℕ) + (encode es).length) =
          bytesAt m₀ (p + (encode (e :: es)).length) := by
        have hp : p + (e.body.length + 2 : ℕ) + (encode es).length =
          p + (encode (e :: es)).length := by
          rw [encode_cons, List.length_append, Elem.length_bytes]
          push_cast
          ring
        rw [hp]
        ext i
        rw [get_bytesAt, get_bytesAt, Mem.write_of_disjoint m₀ (Or.inr ?_)]
        rw [encode_cons, List.length_append]
        push_cast
        omega
      rw [hfirst, hbytes, htail, encode_cons, Stream'.append_append_stream]

theorem rtwGetIeLoop_eq {index : UInt8} {limit : ℤ} :
    ∀ {es : List Elem} {e : Elem} {fuel : ℕ} {q i : ℤ},
    bytesAt m q = encode (e :: es) ++ₛ tail → limit = i + (encode (e :: es)).length →
      limit ≤ i + fuel →
    rtwGetIeLoop m index limit fuel q i =
      (firstAt (fun e => decide (e.id = index)) (e :: es)).map fun r => (q + r.1, r.2.body.length)
  | es, e, fuel, q, i, h, hl, hf => by
    have hl' := hl
    rw [encode_cons, List.length_append, Elem.length_bytes] at hl'
    obtain ⟨fuel, rfl⟩ : ∃ k, fuel = k + 1 := ⟨fuel - 1, by omega⟩
    rw [rtwGetIeLoop, id_of_bytesAt h, len_of_bytesAt h, firstAt]
    by_cases hid : e.id = index
    · simp [hid]
    have hnext := next_of_bytesAt h
    have hsize : q + (e.body.length + 2 : ℕ) = q + ((e.body.length : ℤ) + 2) := by push_cast; rfl
    simp only [if_neg hid, decide_eq_true_eq]
    cases es with
    | nil =>
      rw [if_pos (by simp at hl'; omega)]
      rfl
    | cons f fs =>
      have hmore : ¬ i + ((e.body.length : ℤ) + 2) ≥ limit := by
        rw [encode_cons, List.length_append, Elem.length_bytes] at hl'
        omega
      rw [if_neg hmore, ← hsize, rtwGetIeLoop_eq hnext (by omega) (by omega), Option.map_map]
      congr 1
      funext r
      simp only [Function.comp, Prod.mk.injEq, and_true]
      push_cast
      ring

/-- `rtw_get_ie` finds the first element with the id. -/
theorem rtwGetIe_eq (h : bytesAt m p = encode es ++ₛ tail) (id : UInt8) :
    rtwGetIe m p id (encode es).length =
      (firstAt (fun e => decide (e.id = id)) es).map fun r => (p + r.1, r.2.body.length) := by
  rw [rtwGetIe]
  cases es with
  | nil => rfl
  | cons e es =>
    have hpos : ¬ ((encode (e :: es)).length : ℤ) < 1 := by
      rw [encode_cons, List.length_append, Elem.length_bytes]
      omega
    rw [if_neg hpos]
    exact rtwGetIeLoop_eq h (by omega) (by omega)

/-- `rtw_get_ie` finds an element with its body, or there is none. -/
theorem rtwGetIe_cases (h : bytesAt m p = encode es ++ₛ tail) (id : UInt8) :
    (es.find? (fun e => decide (e.id = id)) = none ∧ rtwGetIe m p id (encode es).length = none) ∨
    ∃ e q, es.find? (fun e => decide (e.id = id)) = some e ∧
      rtwGetIe m p id (encode es).length = some (q, e.body.length) ∧
        m.read (q + 2) e.body.length = e.body := by
  rw [rtwGetIe_eq h]
  rcases firstAt_cases (fun e => decide (e.id = id)) es with ⟨hfind, hfirst⟩ | ⟨pre, e, post, hes,
    -, -, hfind, hfirst⟩
  · rw [hfirst]
    exact Or.inl ⟨hfind, rfl⟩
  · refine Or.inr ⟨e, p + (encode pre).length, hfind, by rw [hfirst]; rfl, ?_⟩
    rw [hes, encode_append, Stream'.append_append_stream] at h
    rw [body_of_bytesAt (bytesAt_drop h), Stream'.append_append_stream,
      Stream'.take_append_of_le_length _ _ _ le_rfl,
      List.take_length]

/-- The functions agree with the list `es` at `p`, which has `offset` bytes before it. The search
for a WPS element ends after 1001 elements, and the one for a P2P element behind `MAX_IE_SZ`
bytes. -/
structure AgreesWithList (m : Mem) (p : ℤ) (es : List Elem) (eid : UInt8) (oui : Option (List UInt8))
    (offset : ℕ) : Prop where
  getIe : ∀ id, rtwGetIe m p id (encode es).length =
    (firstAt (fun e => decide (e.id = id)) es).map fun r => (p + r.1, r.2.body.length)
  getIeEx : rtwGetIeEx m p (encode es).length eid oui =
    (firstAt (Own eid (oui.getD [])) es).map (found p)
  getWpsIe : rtwGetWpsIe m p (encode es).length = ((firstAt (Own vendorSpecificIe wpsOui) es).filter
    fun _ => es.findIdx (Own vendorSpecificIe wpsOui) ≤ 1000).map (found p)
  getP2pIe : rtwGetP2pIe m p (encode es).length = ((firstAt (Own vendorSpecificIe p2pOui) es).filter
    fun r => r.1 ≤ maxIeSz).map (found p)
  remove : RemovesOwn m (p - offset) offset eid oui es

/-- A search from the start of a list is right exactly if no element is completed for it. -/
theorem ieSearch_iff (hmono : Mono giveUp) (h : bytesAt m p = encode es ++ₛ tail) :
    ieSearch m p (encode es).length eid oui giveUp (encode es).length 0 0 =
      ((firstAt (Own eid (oui.getD [])) es).filter
        fun r => !giveUp r.1 (es.findIdx (Own eid (oui.getD [])))).map (found p) ↔
      Uncompleted eid (oui.getD []) giveUp tail es 0 0 := by
  have hp : bytesAt m (p + (0 : ℕ)) = encode es ++ₛ tail := by
    rw [Nat.cast_zero, add_zero]
    exact h
  have hfirst : first eid (oui.getD []) giveUp es 0 0 = (firstAt (Own eid (oui.getD [])) es).filter
      fun r => !giveUp r.1 (es.findIdx (Own eid (oui.getD []))) := by
    simp [first]
  rw [ieSearch_eq_scan hp (by omega) (by omega), ← scan_eq_iff hmono (p := p), hfirst]

/-- The functions agree with a list that `rtw_set_ie` has laid out exactly if, for each of the
searches, no element before the first match is completed by what is behind it, and the list is
removable. -/
theorem agreesWithList_iff (m₀ : Mem) (p : ℤ) (frlen : ℕ) (es : List Elem) (eid : UInt8)
    (oui : Option (List UInt8)) (offset : ℕ) :
    AgreesWithList (rtwSetIes es (p, m₀, frlen)).2.1 p es eid oui offset ↔
      Uncompleted eid (oui.getD []) (fun _ _ => false) (bytesAt m₀ (p + (encode es).length)) es 0 0 ∧
      Uncompleted vendorSpecificIe wpsOui (fun _ loop => decide (1000 < loop))
        (bytesAt m₀ (p + (encode es).length)) es 0 0 ∧
      Uncompleted vendorSpecificIe p2pOui (fun cnt _ => decide (maxIeSz < cnt))
        (bytesAt m₀ (p + (encode es).length)) es 0 0 ∧
      Removable eid (oui.getD []) es (bytesAt m₀ (p + (encode es).length)) := by
  obtain ⟨-, h⟩ := bytesAt_rtwSetIes es p m₀ frlen
  generalize bytesAt m₀ (p + (encode es).length) = tail at h ⊢
  generalize (rtwSetIes es (p, m₀, frlen)).2.1 = m at h ⊢
  have hex := @ieSearch_iff m p tail es eid oui (fun _ _ => false) (fun _ _ _ _ _ _ h => h) h
  have hwps := @ieSearch_iff m p tail es vendorSpecificIe (some wpsOui)
    (fun _ loop => decide (1000 < loop))
    (fun _ _ _ _ _ hl h => by simp only [decide_eq_true_eq] at h ⊢; omega) h
  have hp2p := @ieSearch_iff m p tail es vendorSpecificIe (some p2pOui)
    (fun cnt _ => decide (maxIeSz < cnt))
    (fun _ _ _ _ hc _ h => by simp only [decide_eq_true_eq] at h ⊢; omega) h
  have hremove : RemovesOwn m (p - offset) offset eid oui es ↔
    Removable eid (oui.getD []) es tail := by
    refine removesOwn_iff ?_
    rw [sub_add_cancel]
    exact h
  have hlen : rtwGetP2pIe m p (encode es).length =
      ieSearch m p (encode es).length vendorSpecificIe (some p2pOui)
        (fun cnt _ => decide (maxIeSz < cnt))
        (encode es).length 0 0 := by
    rw [rtwGetP2pIe, if_neg (by omega), Int.toNat_natCast]
  have hall : ∀ r : Option (ℕ × Elem), r.filter (fun _ => true) = r := by
    intro r
    cases r <;> rfl
  simp only [Option.getD_some, Bool.not_false, ← decide_not, not_lt] at hex hwps hp2p
  rw [hall] at hex
  constructor
  · intro ha
    refine ⟨hex.mp ha.getIeEx, hwps.mp ha.getWpsIe, hp2p.mp ?_, hremove.mp ha.remove⟩
    rw [← hlen]
    exact ha.getP2pIe
  · rintro ⟨h₁, h₂, h₃, h₄⟩
    refine ⟨fun id => rtwGetIe_eq h id, hex.mpr h₁, hwps.mpr h₂, ?_, hremove.mpr h₄⟩
    rw [hlen]
    exact hp2p.mpr h₃

/-- A P2P element behind 771 bytes. -/
def sampleLongIes : List Elem :=
  let e : Elem := ⟨0, List.replicate 255 0, List.length_replicate.le⟩
  [e, e, e, ⟨vendorSpecificIe, p2pOui, by decide⟩]

/-- `rtw_get_p2p_ie` does not get to the only P2P element of a list. -/
theorem rtwGetP2pIe_sampleLongIes :
    rtwGetP2pIe (rtwSetIes sampleLongIes (0, fun _ => 0, 0)).2.1 0 (encode sampleLongIes).length = none ∧
      (firstAt (Own vendorSpecificIe p2pOui) sampleLongIes).map (found 0) = some (771, 6) := by
  decide +kernel

/-- The body of the first element is short, and the id and the length of the second one complete
it. -/
example : rtwGetWpsIe (rtwSetIes [⟨0xdd, [0x00, 0x50], by decide⟩, ⟨0xf2, [0, 0, 0, 0], by decide⟩]
    (0, fun _ => 0, 0)).2.1 0 10 = some (0, 4) := by
  decide

end Rtl8188eu
