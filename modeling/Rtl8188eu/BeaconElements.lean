import Rtl8188eu.BeaconTim

/-!
# Adding and removing elements of a beacon

`rtw_add_bcn_ie` puts an element into a beacon whose elements are sorted by their ids, or replaces
the one with its id, and `rtw_remove_bcn_ie` takes an element out. Both remember where they are as
an element and the length of its body, and take a length of zero for no element at all. The first
function then writes through a null pointer, and the second one calculates a length with it
(`SortedBeacon.edits_iff`).
-/

namespace Rtl8188eu

open Tlv

/-! ## The functions of the source -/

/-- The loop of `rtw_add_bcn_ie`, at the element `i` bytes behind the start : `p`, `ielen` and
`bmatch` behind it. -/
def addBcnIeLoop (m : Mem) (pie : ℤ) (ieLength : ℕ) (index : UInt8) :
    ℕ → ℕ → Option ℤ → ℕ → Option ℤ × ℕ × Bool
  | 0, _, p, ielen => (p, ielen, false)
  | fuel + 1, i, p, ielen =>
    if i < ieLength then
      let id := m (pie + i)
      let length := (m (pie + i + 1)).toNat
      if index < id then (p, ielen, false)
      else if id = index then (some (pie + i), length, true)
      else addBcnIeLoop m pie ieLength index fuel (i + (length + 2)) (some (pie + i)) length
    else (p, ielen, false)

/-- `rtw_add_bcn_ie` : the memory and `IELength`, or a write through a null pointer. A round of the
loop passes two bytes or more. -/
def rtwAddBcnIe (m : Mem) (pie : ℤ) (ieLength : ℕ) (index : UInt8) (data : List UInt8) :
    Option (Mem × ℕ) :=
  match addBcnIeLoop m pie ieLength index ieLength 12 none 0 with
  | (some p, ielen, bmatch) =>
    if 0 < ielen then
      let ie := index :: UInt8.ofNat data.length :: data
      some (if bmatch then replaceIe m pie p (ielen + 2) ieLength ie
        else replaceIe m pie (p + (ielen + 2 : ℕ)) 0 ieLength ie)
    else none
  | (none, _, _) => none

/-- `rtw_remove_bcn_ie`. Without an element nothing is moved, and `offset` is calculated from a null
pointer. -/
def rtwRemoveBcnIe (m : Mem) (pie : ℤ) (ieLength : ℕ) (index : UInt8) : Mem × ℕ :=
  match rtwGetIe m (pie + 12) index (ieLength - 12) with
  | some (p, ielen) =>
    if 0 < ielen then replaceIe m pie p (ielen + 2) ieLength [] else (m, u32 (0 - pie))
  | none => (m, u32 (0 - pie))

/-! ## Where an element belongs -/

/-- The ids do not decrease. -/
def SortedIds (es : List Elem) : Prop := es.Pairwise fun f g => f.id ≤ g.id

instance (es : List Elem) : Decidable (SortedIds es) := inferInstanceAs (Decidable (List.Pairwise _ _))

/-- The place of an id in a sorted list : before the first element with a larger id, or at the first
one with the same id. -/
inductive Place (index : UInt8) (es : List Elem) : Prop
  | new (pre post : List Elem) (split : es = pre ++ post) (lt : ∀ f ∈ pre, f.id < index)
    (gt : ∀ f ∈ post, index < f.id)
  | old (pre : List Elem) (f : Elem) (post : List Elem) (split : es = pre ++ f :: post) (lt : ∀ f ∈ pre, f.id < index)
    (eq : f.id = index) (ge : ∀ f ∈ post, index ≤ f.id)

theorem place {index : UInt8} : ∀ {es : List Elem}, SortedIds es → Place index es
  | [], _ => .new [] [] rfl (fun _ h => absurd h List.not_mem_nil) fun _ h =>
    absurd h List.not_mem_nil
  | f :: es, h => by
    obtain ⟨hf, hes⟩ := List.pairwise_cons.mp h
    obtain hlt | heq | hgt : f.id < index ∨ f.id = index ∨ index < f.id := by
      rw [UInt8.lt_iff_toNat_lt, UInt8.lt_iff_toNat_lt, ← UInt8.toNat_inj]
      omega
    · rcases place hes with ⟨pre, post, hsplit, hpre, hpost⟩ | ⟨pre, g, post, hsplit, hpre,
        hg, hpost⟩
      · exact .new (f :: pre) post (by rw [hsplit, List.cons_append])
          (List.forall_mem_cons.mpr ⟨hlt, hpre⟩) hpost
      · exact .old (f :: pre) g post (by rw [hsplit, List.cons_append])
          (List.forall_mem_cons.mpr ⟨hlt, hpre⟩) hg hpost
    · exact .old [] f es rfl (fun _ h => absurd h List.not_mem_nil) heq fun g hg => heq ▸ hf g hg
    · exact .new [] (f :: es) rfl (fun _ h => absurd h List.not_mem_nil)
        (List.forall_mem_cons.mpr ⟨hgt, fun g hg => UInt8.lt_of_lt_of_le hgt (hf g hg)⟩)

/-- A list with a new element in its place is sorted. -/
theorem sortedIds_insert {pre post : List Elem} {e : Elem} (h : SortedIds (pre ++ post))
    (hpre : ∀ f ∈ pre, f.id ≤ e.id) (hpost : ∀ f ∈ post, e.id ≤ f.id) : SortedIds
    (pre ++ e :: post) := by
  obtain ⟨h₁, h₂, hcross⟩ := List.pairwise_append.mp h
  refine List.pairwise_append.mpr ⟨h₁, List.pairwise_cons.mpr ⟨hpost, h₂⟩, fun f hf g hg => ?_⟩
  rcases List.mem_cons.mp hg with rfl | hg
  · exact hpre f hf
  · exact hcross f hf g hg

/-- The element that the place is found with : the first one with the id, or without one the last
one with a smaller id. -/
def anchor (index : UInt8) (es : List Elem) : Option Elem :=
  (es.find? fun f => decide (f.id = index)).or (es.filter fun f => decide (f.id < index)).getLast?

/-- There is such an element, and it has a body. -/
def Anchored (index : UInt8) (es : List Elem) : Prop := ∃ f ∈ anchor index es, f.body ≠ []

instance (index : UInt8) (es : List Elem) : Decidable (Anchored index es) :=
  inferInstanceAs (Decidable (∃ f ∈ anchor index es, f.body ≠ []))

/-- The sorted list with an element inserted, or replaced by it. -/
def putElem (e : Elem) : List Elem → List Elem
  | [] => [e]
  | f :: es => if f.id < e.id then f :: putElem e es else if f.id = e.id then e :: es else e :: f :: es

/-- The list without the elements with an id. -/
def dropId (index : UInt8) (es : List Elem) : List Elem := es.filter fun f => !decide (f.id = index)

section Split

variable {index : UInt8} {e f : Elem} {es pre post : List Elem}

theorem anchor_new (lt : ∀ f ∈ pre, f.id < index) (gt : ∀ f ∈ post, index < f.id) :
    anchor index (pre ++ post) = pre.getLast? := by
  have hfind : (pre ++ post).find? (fun f => decide (f.id = index)) = none := by
    rw [List.find?_eq_none]
    intro f hf
    rw [decide_eq_true_iff]
    rcases List.mem_append.mp hf with hf | hf
    · exact UInt8.ne_of_lt (lt f hf)
    · exact (UInt8.ne_of_lt (gt f hf)).symm
  have hpre : pre.filter (fun f => decide (f.id < index)) = pre :=
    List.filter_eq_self.mpr fun f hf => decide_eq_true (lt f hf)
  have hpost : post.filter (fun f => decide (f.id < index)) = [] :=
    List.filter_eq_nil_iff.mpr fun f hf h => UInt8.lt_asymm (gt f hf) (of_decide_eq_true h)
  rw [anchor, hfind, List.filter_append, hpre, hpost, List.append_nil, Option.none_or]

theorem anchor_old (lt : ∀ f ∈ pre, f.id < index) (eq : f.id = index) :
    anchor index (pre ++ f :: post) = some f := by
  have hpre : pre.find? (fun f => decide (f.id = index)) = none := by
    rw [List.find?_eq_none]
    intro g hg
    rw [decide_eq_true_iff]
    exact UInt8.ne_of_lt (lt g hg)
  have hf : (f :: post).find? (fun f => decide (f.id = index)) = some f :=
    List.find?_cons_of_pos (decide_eq_true eq)
  rw [anchor, List.find?_append, hpre, Option.none_or, hf, Option.some_or]

theorem putElem_new (gt : ∀ f ∈ post, e.id < f.id) : ∀ {pre : List Elem}, (∀ f ∈ pre, f.id < e.id) →
    putElem e (pre ++ post) = pre ++ e :: post
  | [], _ => by
    cases post with
    | nil => rfl
    | cons f post =>
      have hf := gt f List.mem_cons_self
      rw [List.nil_append, putElem, if_neg (UInt8.lt_asymm hf), if_neg (UInt8.ne_of_lt hf).symm,
        List.nil_append]
  | f :: pre, lt => by
    obtain ⟨hf, hpre⟩ := List.forall_mem_cons.mp lt
    rw [List.cons_append, putElem, if_pos hf, putElem_new gt hpre, List.cons_append]

theorem putElem_old (eq : f.id = e.id) : ∀ {pre : List Elem}, (∀ g ∈ pre, g.id < e.id) →
    putElem e (pre ++ f :: post) = pre ++ e :: post
  | [], _ => by rw [List.nil_append, putElem, eq, if_neg (UInt8.lt_irrefl _), if_pos rfl,
    List.nil_append]
  | g :: pre, lt => by
    obtain ⟨hg, hpre⟩ := List.forall_mem_cons.mp lt
    rw [List.cons_append, putElem, if_pos hg, putElem_old eq hpre, List.cons_append]

theorem firstAt_old (lt : ∀ f ∈ pre, f.id < index) (eq : f.id = index) :
    firstAt (fun g => decide (g.id = index)) (pre ++ f :: post) =
      some ((encode pre).length, f) := by
  rw [firstAt_append fun g hg => decide_eq_false (UInt8.ne_of_lt (lt g hg)), firstAt,
    if_pos (decide_eq_true eq)]
  rfl

/-- The elements before the place are kept. -/
theorem dropId_append (lt : ∀ f ∈ pre, f.id < index) :
    dropId index (pre ++ post) = pre ++ dropId index post := by
  have hpre : dropId index pre = pre :=
    List.filter_eq_self.mpr fun f hf => by simp [UInt8.ne_of_lt (lt f hf)]
  rw [dropId, List.filter_append]
  exact congrArg (· ++ _) hpre

theorem dropId_cons (eq : f.id = index) : dropId index (f :: post) = dropId index post :=
  List.filter_cons_of_neg (by simp [eq])

theorem dropId_eq_self : dropId index es = es ↔ ∀ f ∈ es, f.id ≠ index := by
  rw [dropId, List.filter_eq_self]
  simp

/-- The new list is sorted. -/
theorem sortedIds_putElem (h : SortedIds es) : SortedIds (putElem e es) := by
  rcases @place e.id es h with ⟨pre, post, rfl, lt, gt⟩ | ⟨pre, f, post, rfl, lt, eq, ge⟩
  · rw [putElem_new gt lt]
    exact sortedIds_insert h (fun f hf => UInt8.le_of_lt (lt f hf))
      fun f hf => UInt8.le_of_lt (gt f hf)
  · rw [putElem_old eq lt]
    have hsub : (pre ++ post).Sublist (pre ++ f :: post) :=
      (List.Sublist.refl pre).append (List.sublist_cons_self f post)
    exact sortedIds_insert (h.sublist hsub) (fun f hf => UInt8.le_of_lt (lt f hf)) ge

end Split

/-! ## The loop -/

section Loop

variable {m : Mem} {pie : ℤ} {ieLength : ℕ} {index : UInt8} {s : Stream' UInt8}

/-- Elements with smaller ids are passed, and the last one is remembered. -/
theorem addBcnIeLoop_pass {l : Elem} (hl : l.id < index) :
    ∀ {init : List Elem} {k i ielen : ℕ} {p : Option ℤ},
    bytesAt m (pie + i) = encode (init ++ [l]) ++ₛ s → (∀ f ∈ init, f.id < index) →
      i + (encode (init ++ [l])).length ≤ ieLength →
        addBcnIeLoop m pie ieLength index (k + (init.length + 1)) i p ielen =
          addBcnIeLoop m pie ieLength index k (i + (encode (init ++ [l])).length)
            (some (pie + i + (encode init).length)) l.body.length
  | [], k, i, ielen, p, h, _, hle => by
    have hid := id_of_bytesAt h
    have hlen := len_of_bytesAt h
    rw [List.nil_append, encode_cons, encode_nil, List.append_nil, Elem.length_bytes] at hle ⊢
    rw [List.length_nil, Nat.zero_add, addBcnIeLoop, if_pos (by omega)]
    dsimp only
    rw [hid, if_neg (UInt8.lt_asymm hl), if_neg (UInt8.ne_of_lt hl), hlen, List.length_nil,
      Nat.cast_zero,
      add_zero]
  | f :: init, k, i, ielen, p, h, hinit, hle => by
    obtain ⟨hf, hinit'⟩ := List.forall_mem_cons.mp hinit
    rw [List.cons_append] at h hle
    have hid := id_of_bytesAt h
    have hlen := len_of_bytesAt h
    have hnext := next_of_bytesAt h
    have hsize (fs : List Elem) :
      (encode (f :: fs)).length = f.body.length + 2 + (encode fs).length := by
      rw [encode_cons, List.length_append, Elem.length_bytes]
    rw [hsize] at hle
    rw [add_assoc, ← Nat.cast_add] at hnext
    have ih := @addBcnIeLoop_pass l hl init k (i + (f.body.length + 2)) f.body.length
      (some (pie + i)) hnext hinit' (by omega)
    rw [List.length_cons, ← Nat.add_assoc k, addBcnIeLoop, if_pos (by omega)]
    dsimp only
    rw [hid, if_neg (UInt8.lt_asymm hf), if_neg (UInt8.ne_of_lt hf), hlen, ih, List.cons_append,
      hsize, hsize,
      Nat.add_assoc i]
    congr 2
    push_cast
    ring

/-- The loop stops before larger ids. -/
theorem addBcnIeLoop_stop {post : List Elem} {k i ielen : ℕ} {p : Option ℤ} {t : Stream' UInt8}
    (h : bytesAt m (pie + i) = encode post ++ₛ t) (hlen : ieLength = i + (encode post).length)
    (hgt : ∀ f ∈ post, index < f.id) : addBcnIeLoop m pie ieLength index k i p ielen =
    (p, ielen, false) := by
  cases k with
  | zero => rfl
  | succ k =>
    cases post with
    | nil => rw [addBcnIeLoop, if_neg (by simp [hlen])]
    | cons f post =>
      rw [encode_cons, List.length_append, Elem.length_bytes] at hlen
      rw [addBcnIeLoop, if_pos (by omega), id_of_bytesAt h, if_pos (hgt f List.mem_cons_self)]

/-- The loop stops at the id. -/
theorem addBcnIeLoop_hit {f : Elem} {post : List Elem} {k i ielen : ℕ} {p : Option ℤ}
    {t : Stream' UInt8}
    (h : bytesAt m (pie + i) = encode (f :: post) ++ₛ t) (hlt : i < ieLength) (hid : f.id = index) :
    addBcnIeLoop m pie ieLength index (k + 1) i p ielen =
      (some (pie + i), f.body.length, true) := by
  rw [addBcnIeLoop, if_pos hlt, id_of_bytesAt h, len_of_bytesAt h]
  dsimp only
  rw [hid, if_neg (UInt8.lt_irrefl index), if_pos rfl]

theorem length_le_encode : ∀ es : List Elem, es.length ≤ (encode es).length
  | [] => le_rfl
  | e :: es => by
    have ih := length_le_encode es
    rw [encode_cons, List.length_append, Elem.length_bytes, List.length_cons]
    omega

variable {es pre post : List Elem} {t : Stream' UInt8}

/-- Elements with smaller ids before the place, with the last of them. -/
theorem addBcnIeLoop_smaller (h : bytesAt m (pie + 12) = encode (pre ++ es) ++ₛ t)
    (hlt : ∀ f ∈ pre, f.id < index) :
    ∃ k p ielen, es.length < k ∧
      addBcnIeLoop m pie (12 + (encode (pre ++ es)).length) index (12 + (encode (pre ++ es)).length)
        12 none 0 =
        addBcnIeLoop m pie (12 + (encode (pre ++ es)).length) index k
          (12 + (encode pre).length) p ielen ∧
      (pre = [] ∧ p = none ∧ ielen = 0 ∨
        ∃ init l, pre = init ++ [l] ∧ p = some (pie + 12 + (encode init).length) ∧
          ielen = l.body.length) := by
  have hsize : (encode (pre ++ es)).length = (encode pre).length + (encode es).length := by
    rw [encode_append, List.length_append]
  have hpre := length_le_encode pre
  have hes := length_le_encode es
  obtain rfl | ⟨init, l, rfl⟩ : pre = [] ∨ ∃ init l, pre = init ++ [l] := by
    simpa only [List.concat_eq_append] using List.eq_nil_or_concat pre
  · exact ⟨_, none, 0, by omega, rfl, Or.inl ⟨rfl, rfl, rfl⟩⟩
  · have hl := hlt l (by simp)
    have hinit (f : Elem) (hf : f ∈ init) : f.id < index := hlt f (by simp [hf])
    rw [encode_append, Stream'.append_append_stream] at h
    rw [List.length_append, List.length_singleton] at hpre
    obtain ⟨k, hk⟩ : ∃ k, 12 + (encode ((init ++ [l]) ++ es)).length = k + (init.length + 1) :=
      ⟨12 + (encode ((init ++ [l]) ++ es)).length - (init.length + 1), by omega⟩
    have hpass := @addBcnIeLoop_pass m pie
      (12 + (encode ((init ++ [l]) ++ es)).length) index _ l hl init k 12 0 none h
      hinit (by omega)
    rw [← hk] at hpass
    exact ⟨k, _, _, by omega, hpass, Or.inr ⟨init, l, rfl, rfl, rfl⟩⟩

end Loop

/-! ## The functions on a sorted list -/

/-- The elements of a beacon, which are sorted and fit the array behind the fixed fields. -/
structure SortedBeacon where
  elems : List Elem
  sorted : SortedIds elems
  fits : 12 + (encode elems).length ≤ maxIeSz

namespace SortedBeacon

/-- The bytes of the list with the element are at the place of the old ones, they are in the array,
and `IELength` is their length. The fixed fields are not changed. -/
def Adds (m : Mem) (pie : ℤ) (es : List Elem) (e : Elem) : Prop :=
  ∃ m', rtwAddBcnIe m pie (12 + (encode es).length) e.id e.body = some (m', 12 + (encode (putElem e es)).length) ∧
    m'.read (pie + 12) (encode (putElem e es)).length = encode (putElem e es) ∧ SortedIds (putElem e es) ∧
    12 + (encode (putElem e es)).length ≤ maxIeSz ∧ ∀ x < pie + 12, m' x = m x

/-- The same for the list without an id. -/
def Removes (m : Mem) (pie : ℤ) (es : List Elem) (index : UInt8) : Prop :=
  ∃ m', rtwRemoveBcnIe m pie (12 + (encode es).length) index = (m', 12 + (encode (dropId index es)).length) ∧
    m'.read (pie + 12) (encode (dropId index es)).length = encode (dropId index es) ∧ ∀ x < pie + 12, m' x = m x

/-- An element that is added to a list without its id and then removed leaves the bytes that were
there before. -/
def Restores (m : Mem) (pie : ℤ) (es : List Elem) (e : Elem) : Prop :=
  (∀ f ∈ es, f.id ≠ e.id) → ∃ m₁ n m₂, rtwAddBcnIe m pie (12 + (encode es).length) e.id e.body = some (m₁, n) ∧
    rtwRemoveBcnIe m₁ pie n e.id = (m₂, 12 + (encode es).length) ∧
    m₂.read (pie + 12) (encode es).length = encode es ∧ ∀ x < pie + 12, m₂ x = m x

/-- The length that is calculated with a null pointer happens to be the one of the list. -/
def NullLength (pie : ℤ) (es : List Elem) : Prop := u32 (0 - pie) = 12 + (encode es).length

/-- When an id is removed : the first element with it has a body and is the only one. Without it, or
with an empty element, nothing is moved, and the length of what remains has to be right by
chance. -/
def Removable (pie : ℤ) (es : List Elem) (index : UInt8) : Prop :=
  match firstAt (fun f => decide (f.id = index)) es with
  | none => NullLength pie es
  | some (_, f) =>
    if f.body ≠ [] then (es.filter fun f => decide (f.id = index)).length = 1
    else NullLength pie (dropId index es) ∧ ∀ f ∈ es, f.id ≤ index

/-- When the removal of a new element restores the list : there is a place for it, and it has a body
or, by chance, the length is right. -/
def Restorable (pie : ℤ) (es : List Elem) (e : Elem) : Prop :=
  (∃ f ∈ es, f.id = e.id) ∨
    Anchored e.id es ∧ (e.body ≠ [] ∨ NullLength pie es ∧ ∀ f ∈ es, f.id < e.id)

section Calls

variable {m : Mem} {pie : ℤ} {index : UInt8} {e f : Elem} {es pre post : List Elem}
  {t : Stream' UInt8}

/-- What `rtw_add_bcn_ie` writes is the element. -/
theorem elem_bytes (e : Elem) : e.id :: UInt8.ofNat e.body.length :: e.body = e.bytes := rfl

theorem length_bytes_le (e : Elem) : e.bytes.length ≤ 2 ^ 16 := by
  have hle := e.length_le
  rw [Elem.length_bytes]
  omega

/-- A new element is inserted behind the last smaller one. -/
theorem rtwAddBcnIe_new (h : bytesAt m (pie + 12) = encode (pre ++ post) ++ₛ t)
    (lt : ∀ f ∈ pre, f.id < e.id)
    (gt : ∀ f ∈ post, e.id < f.id) : rtwAddBcnIe m pie
    (12 + (encode (pre ++ post)).length) e.id e.body =
      if Anchored e.id (pre ++ post) then
        some (replaceIe m pie (pie + 12 + (encode pre).length) 0
          (12 + (encode (pre ++ post)).length) e.bytes)
      else none := by
  have hanchored : Anchored e.id (pre ++ post) ↔ ∃ f ∈ pre.getLast?, f.body ≠ [] := by
    unfold Anchored
    rw [anchor_new lt gt]
  obtain ⟨k, p, ielen, -, hloop, hlast⟩ := addBcnIeLoop_smaller h lt
  have hrest := h
  rw [encode_append, Stream'.append_append_stream] at hrest
  have hstop := @addBcnIeLoop_stop m pie (12 + (encode (pre ++ post)).length) e.id post k
    (12 + (encode pre).length)
    ielen p t (by rw [Nat.cast_add, ← add_assoc]; exact bytesAt_drop hrest)
    (by rw [encode_append, List.length_append, Nat.add_assoc]) gt
  rw [rtwAddBcnIe, hloop, hstop]
  rcases hlast with ⟨rfl, rfl, -⟩ | ⟨init, l, rfl, rfl, rfl⟩
  · rw [if_neg fun hyes => by simpa using hanchored.mp hyes]
  · dsimp only
    have hplace : pie + 12 + ((encode init).length : ℤ) + (l.body.length + 2 : ℕ) =
        pie + 12 + (encode (init ++ [l])).length := by
      rw [encode_append, encode_cons, encode_nil, List.append_nil, List.length_append,
        Elem.length_bytes]
      push_cast
      ring
    rw [hplace, elem_bytes]
    by_cases hl : l.body = []
    · rw [if_neg (by simp [hl]), if_neg fun hyes => by simpa [hl] using hanchored.mp hyes]
    · rw [if_pos (List.length_pos_iff.mpr hl), if_neg Bool.false_ne_true,
        if_pos (hanchored.mpr (by simpa using hl))]

/-- An element with the same id is replaced. -/
theorem rtwAddBcnIe_old (h : bytesAt m (pie + 12) = encode (pre ++ f :: post) ++ₛ t)
    (lt : ∀ f ∈ pre, f.id < e.id)
    (eq : f.id = e.id) : rtwAddBcnIe m pie (12 + (encode (pre ++ f :: post)).length) e.id e.body =
      if Anchored e.id (pre ++ f :: post) then
        some (replaceIe m pie (pie + 12 + (encode pre).length) (f.body.length + 2)
          (12 + (encode (pre ++ f :: post)).length) e.bytes)
      else none := by
  have hanchored : Anchored e.id (pre ++ f :: post) ↔ f.body ≠ [] := by
    unfold Anchored
    simp [anchor_old lt eq]
  obtain ⟨k, p, ielen, hk, hloop, -⟩ := addBcnIeLoop_smaller h lt
  obtain ⟨k, rfl⟩ : ∃ k', k = k' + 1 := ⟨k - 1, by omega⟩
  have hrest := h
  rw [encode_append, Stream'.append_append_stream] at hrest
  have hhit := @addBcnIeLoop_hit m pie (12 + (encode (pre ++ f :: post)).length) e.id f post k
    (12 + (encode pre).length) ielen p t
      (by rw [Nat.cast_add, ← add_assoc]; exact bytesAt_drop hrest)
    (by rw [encode_append, encode_cons, List.length_append, List.length_append,
      Elem.length_bytes]; omega) eq
  rw [rtwAddBcnIe, hloop, hhit]
  dsimp only
  rw [elem_bytes, Nat.cast_add, ← add_assoc]
  by_cases hf : f.body = []
  · rw [if_neg (by simp [hf]), if_neg (by simp [hanchored, hf])]
  · rw [if_pos (List.length_pos_iff.mpr hf), if_pos (hanchored.mpr hf)]
    rfl

/-- A list with the element or without it, if there is a place for it. -/
theorem rtwAddBcnIe_spec (h : bytesAt m (pie + 12) = encode es ++ₛ t) (hes : SortedIds es)
    (hfits : (encode es).length ≤ 2 ^ 16) : if Anchored e.id es then
      ∃ m' t', rtwAddBcnIe m pie (12 + (encode es).length) e.id e.body =
          some (m', 12 + (encode (putElem e es)).length) ∧
        bytesAt m' (pie + 12) = encode (putElem e es) ++ₛ t' ∧ ∀ x < pie + 12, m' x = m x
    else rtwAddBcnIe m pie (12 + (encode es).length) e.id e.body = none := by
  have hie := length_bytes_le e
  split_ifs with hanchored
  · rcases @place e.id es hes with ⟨pre, post, rfl, lt, gt⟩ | ⟨pre, f, post, rfl, lt, eq, -⟩
    · have hcall := rtwAddBcnIe_new h lt gt
      have hlist : encode (pre ++ post) = encode pre ++ ([] ++ encode post) :=
        encode_append pre post
      have hnew : encode pre ++ (e.bytes ++ encode post) = encode (putElem e (pre ++ post)) := by
        rw [putElem_new gt lt, encode_append, encode_cons]
      rw [hlist] at h hfits
      obtain ⟨m', t', hrun, hbytes, hframe⟩ :=
        @replaceIe_spec m pie (encode pre) [] (encode post) e.bytes t h hfits hie
      rw [if_pos hanchored, hlist] at hcall
      rw [hnew] at hrun hbytes
      rw [hlist, hcall]
      exact ⟨m', t', congrArg some hrun, hbytes, hframe⟩
    · have hcall := rtwAddBcnIe_old h lt eq
      have hlist : encode (pre ++ f :: post) = encode pre ++ (f.bytes ++ encode post) := by
        rw [encode_append, encode_cons]
      have hnew : encode pre ++ (e.bytes ++ encode post) = encode
        (putElem e (pre ++ f :: post)) := by
        rw [putElem_old eq lt, encode_append, encode_cons]
      rw [hlist] at h hfits
      obtain ⟨m', t', hrun, hbytes, hframe⟩ := @replaceIe_spec m pie _ _ _ e.bytes t h hfits hie
      rw [if_pos hanchored, hlist] at hcall
      rw [hnew] at hrun hbytes
      rw [hlist, hcall, ← Elem.length_bytes]
      exact ⟨m', t', congrArg some hrun, hbytes, hframe⟩
  · rcases @place e.id es hes with ⟨pre, post, rfl, lt, gt⟩ | ⟨pre, f, post, rfl, lt, eq, -⟩
    · rw [rtwAddBcnIe_new h lt gt, if_neg hanchored]
    · rw [rtwAddBcnIe_old h lt eq, if_neg hanchored]

theorem adds_iff (h : bytesAt m (pie + 12) = encode es ++ₛ t) (hes : SortedIds es)
    (hfits : (encode es).length ≤ 2 ^ 16) :
    Adds m pie es e ↔ Anchored e.id es ∧ 12 + (encode (putElem e es)).length ≤ maxIeSz := by
  have hspec := @rtwAddBcnIe_spec m pie e es t h hes hfits
  constructor
  · rintro ⟨m', hrun, -, -, harray, -⟩
    refine ⟨by_contra fun hno => ?_, harray⟩
    rw [if_neg hno, hrun] at hspec
    cases hspec
  · rintro ⟨hanchored, harray⟩
    rw [if_pos hanchored] at hspec
    obtain ⟨m', t', hrun, hbytes, hframe⟩ := hspec
    exact ⟨m', hrun, read_of_bytesAt hbytes, sortedIds_putElem hes, harray, hframe⟩

/-- Nothing is removed from a list without the id. -/
theorem removes_iff_new (h : bytesAt m (pie + 12) = encode es ++ₛ t)
    (hno : ∀ f ∈ es, f.id ≠ index) :
    Removes m pie es index ↔ NullLength pie es := by
  have harea : ((12 + (encode es).length : ℕ) : ℤ) - 12 = (encode es).length := by omega
  have hget := @rtwGetIe_eq m (pie + 12) t es h index
  have hfirst : firstAt (fun f => decide (f.id = index)) es = none :=
    firstAt_eq_none.mpr fun f hf => decide_eq_false (hno f hf)
  have hcall : rtwRemoveBcnIe m pie (12 + (encode es).length) index = (m, u32 (0 - pie)) := by
    rw [rtwRemoveBcnIe, harea, hget, hfirst]
    rfl
  rw [Removes, hcall, dropId_eq_self.mpr hno]
  constructor
  · rintro ⟨m', hrun, -⟩
    exact (Prod.mk.inj hrun).2
  · exact fun hlen => ⟨m, Prod.ext rfl hlen, read_of_bytesAt h, fun _ _ => rfl⟩

/-- The first element with the id is removed if it has a body. -/
theorem removes_iff_old (h : bytesAt m (pie + 12) = encode (pre ++ f :: post) ++ₛ t)
    (hfits : (encode (pre ++ f :: post)).length ≤ 2 ^ 16) (lt : ∀ g ∈ pre, g.id < index)
    (eq : f.id = index)
    (ge : ∀ g ∈ post, index ≤ g.id) : Removes m pie (pre ++ f :: post) index ↔
      if f.body ≠ [] then ∀ g ∈ post, g.id ≠ index
      else NullLength pie (dropId index (pre ++ f :: post)) ∧ ∀ g ∈ post, g.id ≤ index := by
  have harea : ((12 + (encode (pre ++ f :: post)).length : ℕ) : ℤ) - 12 =
    (encode (pre ++ f :: post)).length := by omega
  have hget := @rtwGetIe_eq m (pie + 12) t (pre ++ f :: post) h index
  have hdrop : dropId index (pre ++ f :: post) = pre ++ dropId index post := by
    rw [dropId_append lt, dropId_cons eq]
  rw [firstAt_old lt eq, Option.map_some] at hget
  split_ifs with hbody
  · have hlist : encode (pre ++ f :: post) = encode pre ++ (f.bytes ++ encode post) := by
      rw [encode_append, encode_cons]
    have hnew : encode pre ++ ([] ++ encode post) = encode (pre ++ post) := by
      rw [List.nil_append, encode_append]
    have hsub : (pre ++ dropId index post).Sublist (pre ++ post) :=
      (List.Sublist.refl pre).append List.filter_sublist
    have hcall : rtwRemoveBcnIe m pie (12 + (encode (pre ++ f :: post)).length) index =
        replaceIe m pie (pie + 12 + (encode pre).length) f.bytes.length
          (12 + (encode (pre ++ f :: post)).length) [] := by
      rw [rtwRemoveBcnIe, harea, hget]
      exact if_pos (List.length_pos_iff.mpr hbody)
    rw [hlist] at h hfits
    obtain ⟨m', t', hrun, hbytes, hframe⟩ :=
      @replaceIe_spec m pie (encode pre) f.bytes (encode post) [] t h hfits (by simp)
    rw [hnew, ← hlist] at hrun
    rw [hnew] at hbytes
    rw [Removes, hcall, hrun, hdrop, ← dropId_eq_self]
    constructor
    · rintro ⟨m'', hsame, -⟩
      have hlen := (Prod.mk.inj hsame).2
      exact List.append_cancel_left (eq_of_sublist hsub (by omega))
    · intro hself
      rw [hself]
      exact ⟨m', rfl, read_of_bytesAt hbytes, hframe⟩
  · have hcall : rtwRemoveBcnIe m pie (12 + (encode (pre ++ f :: post)).length) index =
      (m, u32 (0 - pie)) := by
      rw [rtwRemoveBcnIe, harea, hget]
      exact if_neg (by simpa using hbody)
    rw [Removes, hcall]
    constructor
    · rintro ⟨m', hsame, hread, -⟩
      obtain ⟨rfl, hlen⟩ := Prod.mk.inj hsame
      refine ⟨hlen, fun g hg => ?_⟩
      rw [hdrop] at hread
      cases hrest : dropId index post with
      | nil =>
        have hmem := List.filter_eq_nil_iff.mp hrest g hg
        rw [Bool.not_eq_true, Bool.not_eq_false', decide_eq_true_iff] at hmem
        exact hmem ▸ UInt8.le_refl _
      | cons x xs =>
        -- the elements do not begin with the same byte
        rw [hrest] at hread
        have hx : x ∈ dropId index post := by rw [hrest]; exact List.mem_cons_self
        have hold := h
        have hnew := bytesAt_of_read hread
        rw [encode_append, Stream'.append_append_stream] at hold hnew
        have hid := (id_of_bytesAt (bytesAt_drop hold)).symm.trans
          (id_of_bytesAt (bytesAt_drop hnew))
        rw [eq] at hid
        have hne := (List.mem_filter.mp hx).2
        rw [← hid] at hne
        simp at hne
    · rintro ⟨hlen, hle⟩
      have hnil : dropId index post = [] := by
        refine List.filter_eq_nil_iff.mpr fun g hg => ?_
        rw [Bool.not_eq_true, Bool.not_eq_false', decide_eq_true_iff]
        exact UInt8.le_antisymm (hle g hg) (ge g hg)
      refine ⟨m, Prod.ext rfl hlen, ?_, fun _ _ => rfl⟩
      rw [hdrop, hnil, List.append_nil]
      rw [encode_append, Stream'.append_append_stream] at h
      exact read_of_bytesAt h

theorem removes_iff_removable (h : bytesAt m (pie + 12) = encode es ++ₛ t) (hes : SortedIds es)
    (hfits : (encode es).length ≤ 2 ^ 16) : Removes m pie es index ↔ Removable pie es index := by
  rcases @place index es hes with ⟨pre, post, hsplit, lt, gt⟩ | ⟨pre, f, post, rfl, lt, eq, ge⟩
  · have hno (f : Elem) (hf : f ∈ es) : f.id ≠ index := by
      rw [hsplit] at hf
      rcases List.mem_append.mp hf with hf | hf
      · exact UInt8.ne_of_lt (lt f hf)
      · exact (UInt8.ne_of_lt (gt f hf)).symm
    rw [removes_iff_new h hno, Removable,
      firstAt_eq_none.mpr fun f hf => decide_eq_false (hno f hf)]
  · have hpre : pre.filter (fun g => decide (g.id = index)) = [] :=
      List.filter_eq_nil_iff.mpr fun g hg hid => UInt8.ne_of_lt (lt g hg) (of_decide_eq_true hid)
    have hcons : (f :: post).filter (fun g => decide (g.id = index)) =
      f :: post.filter fun g => decide (g.id = index) :=
      List.filter_cons_of_pos (decide_eq_true eq)
    have hone : ((pre ++ f :: post).filter fun g => decide (g.id = index)).length = 1 ↔
      ∀ g ∈ post, g.id ≠ index := by
      rw [List.filter_append, hpre, List.nil_append, hcons, List.length_cons, Nat.add_eq_right,
        List.length_eq_zero_iff,
        List.filter_eq_nil_iff]
      simp
    have hall : (∀ g ∈ pre ++ f :: post, g.id ≤ index) ↔ ∀ g ∈ post, g.id ≤ index := by
      rw [List.forall_mem_append, List.forall_mem_cons]
      exact ⟨fun hle => hle.2.2,
        fun hle => ⟨fun g hg => UInt8.le_of_lt (lt g hg), eq ▸ UInt8.le_refl _, hle⟩⟩
    rw [removes_iff_old h hfits lt eq ge, Removable, firstAt_old lt eq]
    dsimp only
    rw [hone, hall]

theorem restores_iff (h : bytesAt m (pie + 12) = encode es ++ₛ t) (hes : SortedIds es)
    (hfits : 12 + (encode es).length ≤ maxIeSz) : Restores m pie es e ↔ Restorable pie es e := by
  simp only [maxIeSz] at hfits
  have hspec := @rtwAddBcnIe_spec m pie e es t h hes (by omega)
  rcases @place e.id es hes with ⟨pre, post, rfl, lt, gt⟩ | ⟨pre, f, post, rfl, -, eq, -⟩
  · have hno (f : Elem) (hf : f ∈ pre ++ post) : f.id ≠ e.id := by
      rcases List.mem_append.mp hf with hf | hf
      · exact UInt8.ne_of_lt (lt f hf)
      · exact (UInt8.ne_of_lt (gt f hf)).symm
    have hsize : (encode (pre ++ e :: post)).length ≤ 2 ^ 16 := by
      have hle := e.length_le
      rw [encode_append, List.length_append] at hfits
      rw [encode_append, encode_cons, List.length_append, List.length_append, Elem.length_bytes]
      omega
    have hdrop : dropId e.id (pre ++ e :: post) = pre ++ post := by
      rw [dropId_append lt, dropId_cons rfl,
        dropId_eq_self.mpr fun f hf => (UInt8.ne_of_lt (gt f hf)).symm]
    have hnone : ¬ ∃ f ∈ pre ++ post, f.id = e.id := by
      rintro ⟨f, hf, hid⟩
      exact hno f hf hid
    rw [Restorable, or_iff_right hnone]
    split_ifs at hspec with hanchored
    · obtain ⟨m', t', hrun, hbytes, hframe⟩ := hspec
      rw [putElem_new gt lt] at hrun hbytes
      have hremoves := @removes_iff_old m' pie e.id e pre post t' hbytes hsize lt rfl
        fun f hf => UInt8.le_of_lt (gt f hf)
      have hrestores : Restores m pie (pre ++ post) e ↔ Removes m' pie (pre ++ e :: post) e.id := by
        rw [Removes, hdrop]
        constructor
        · intro hrestores
          obtain ⟨m₁, n, m₂, hadd, hremove, hread, hsame⟩ := hrestores hno
          rw [hrun] at hadd
          cases hadd
          exact ⟨m₂, hremove, hread, fun x hx => (hsame x hx).trans (hframe x hx).symm⟩
        · rintro ⟨m₂, hremove, hread, hsame⟩ -
          exact ⟨m', _, m₂, hrun, hremove, hread, fun x hx => (hsame x hx).trans (hframe x hx)⟩
      rw [hrestores, hremoves, hdrop, and_iff_right hanchored]
      by_cases hbody : e.body = []
      · rw [if_neg (not_not.mpr hbody), or_iff_right (not_not.mpr hbody)]
        refine and_congr_right fun _ => ⟨fun hle f hf => ?_, fun hlt f hf => ?_⟩
        · rcases List.mem_append.mp hf with hf | hf
          · exact lt f hf
          · exact absurd (UInt8.lt_of_lt_of_le (gt f hf) (hle f hf)) (UInt8.lt_irrefl _)
        · exact UInt8.le_of_lt (hlt f (List.mem_append_right _ hf))
      · rw [if_pos hbody]
        exact iff_of_true (fun f hf => (UInt8.ne_of_lt (gt f hf)).symm) (Or.inl hbody)
    · refine iff_of_false (fun hrestores => ?_) fun hyes => hanchored hyes.1
      obtain ⟨m₁, n, m₂, hadd, -⟩ := hrestores hno
      rw [hspec] at hadd
      cases hadd
  · have hmem : f ∈ pre ++ f :: post := List.mem_append_right _ List.mem_cons_self
    exact iff_of_true (fun hno => absurd eq (hno f hmem)) (Or.inl ⟨f, hmem, eq⟩)

end Calls

/-- An element is added exactly if the one before its place, or the one that is replaced, has a
body, and there is room. An id is removed exactly if the first element with it has a body and is the
only one, and a list is restored if both are so, up to a length that is right by chance. -/
theorem edits_iff (m₀ : Mem) (pie : ℤ) (b : SortedBeacon) (e : Elem) (index : UInt8) :
    let m := m₀.write (pie + 12) (encode b.elems)
    (Adds m pie b.elems e ↔
      Anchored e.id b.elems ∧ 12 + (encode (putElem e b.elems)).length ≤ maxIeSz) ∧
      (Removes m pie b.elems index ↔ Removable pie b.elems index) ∧
      (Restores m pie b.elems e ↔ Restorable pie b.elems e) := by
  intro m
  have h : bytesAt m (pie + 12) = _ := bytesAt_write m₀ (pie + 12) (encode b.elems)
  have hfits := b.fits
  simp only [maxIeSz] at hfits
  exact ⟨adds_iff h b.sorted (by omega), removes_iff_removable h b.sorted (by omega),
    restores_iff h b.sorted b.fits⟩

/-- A beacon with an SSID. -/
def sampleSorted : SortedBeacon where
  elems := [⟨0, [0x61], LiteralIndex.length_letter⟩]
  sorted := by decide
  fits := by decide

/-- The removal of a country element that the beacon does not have leaves a length that is not the
one of the list. -/
theorem not_edits_sampleSorted : ¬∀ (m₀ : Mem) (pie : ℤ) (b : SortedBeacon) (e : Elem) (index : UInt8),
    let m := m₀.write (pie + 12) (encode b.elems)
    Adds m pie b.elems e ∧ Removes m pie b.elems index ∧ Restores m pie b.elems e := by
  intro h
  obtain ⟨-, hremoves, -⟩ := h (fun _ => 0) 4096 sampleSorted ⟨7, [0x44], by decide⟩ 7
  rw [removes_iff_removable (bytesAt_write _ _ _) sampleSorted.sorted (by decide)] at hremoves
  exact absurd hremoves (by change ¬(u32 (0 - 4096) = _); decide)

end SortedBeacon

end Rtl8188eu
