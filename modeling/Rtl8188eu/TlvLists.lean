import Mathlib.Tactic
import Rtl8188eu.LiteralIndex

/-!
# Lists of elements with an id and a length

An element is an id byte, a length byte and a body of at most 255 bytes, and a list of
elements is laid out one after another (`encode`). A byte string is such a layout in at most one
way (`encode_inj`).

`firstAt` is the first element with a property and where it is laid out. `Last` says that an
element is the last one of a kind.
-/

namespace Tlv

/-- An element. Its length fits the length byte. -/
structure Elem where
  id : UInt8
  body : List UInt8
  length_le : body.length ≤ 255
deriving DecidableEq

namespace Elem

/-- The length byte. -/
def len (e : Elem) : UInt8 := UInt8.ofNat e.body.length

theorem toNat_len (e : Elem) : e.len.toNat = e.body.length := by
  have h := e.length_le
  simp [len]
  omega

def bytes (e : Elem) : List UInt8 := e.id :: e.len :: e.body

@[simp] theorem length_bytes (e : Elem) : e.bytes.length = e.body.length + 2 := rfl

theorem bytes_append_inj {e f : Elem} {as bs : List UInt8} (h : e.bytes ++ as = f.bytes ++ bs) :
    e = f ∧ as = bs := by
  obtain ⟨eid, ebody, he⟩ := e
  obtain ⟨fid, fbody, hf⟩ := f
  simp only [bytes, List.cons_append, List.cons.injEq] at h
  obtain ⟨rfl, hlen, h⟩ := h
  have hlen' : ebody.length = fbody.length := by
    have := congrArg UInt8.toNat hlen
    simpa only [toNat_len] using this
  obtain ⟨rfl, rfl⟩ := List.append_inj h hlen'
  exact ⟨rfl, rfl⟩

end Elem

/-- The elements, one after another. -/
def encode : List Elem → List UInt8
  | [] => []
  | e :: es => e.bytes ++ encode es

@[simp] theorem encode_nil : encode [] = [] := rfl

@[simp] theorem encode_cons (e : Elem) (es : List Elem) :
    encode (e :: es) = e.bytes ++ encode es := rfl

theorem encode_append : ∀ es fs : List Elem, encode (es ++ fs) = encode es ++ encode fs
  | [], _ => rfl
  | e :: es, fs => by
    rw [List.cons_append, encode_cons, encode_cons, encode_append es fs, List.append_assoc]

theorem encode_inj : ∀ {es fs : List Elem}, encode es = encode fs → es = fs
  | [], [], _ => rfl
  | [], f :: fs, h => by simp [Elem.bytes] at h
  | e :: es, [], h => by simp [Elem.bytes] at h
  | e :: es, f :: fs, h => by
    obtain ⟨he, h⟩ := Elem.bytes_append_inj h
    rw [he, encode_inj h]

/-- With enough bytes behind an id and a length there is an element. -/
theorem exists_bytes {id elen : UInt8} {rest : List UInt8} (h : elen.toNat ≤ rest.length) :
    ∃ e : Elem, e.id = id ∧ e.body.length = elen.toNat ∧
      id :: elen :: rest = e.bytes ++ rest.drop elen.toNat := by
  have hlt := elen.toNat_lt
  have hbody : (rest.take elen.toNat).length = elen.toNat := by
    rw [List.length_take]
    omega
  refine ⟨⟨id, rest.take elen.toNat, by omega⟩, rfl, hbody, ?_⟩
  have hlen : (⟨id, rest.take elen.toNat, by omega⟩ : Elem).len = elen := by
    rw [← UInt8.toNat_inj, Elem.toNat_len]
    exact hbody
  rw [Elem.bytes, hlen]
  simp

/-- With too few bytes behind an id and a length there is no list of elements. -/
theorem ne_encode_of_short {id elen : UInt8} {rest : List UInt8} (h : rest.length < elen.toNat) :
    ∀ es, id :: elen :: rest ≠ encode es
  | [], he => by simp at he
  | e :: es, he => by
    simp only [encode_cons, Elem.bytes, List.cons_append, List.cons.injEq] at he
    obtain ⟨-, rfl, rfl⟩ := he
    rw [e.toNat_len, List.length_append] at h
    omega

/-- What is not a list of elements is none with an element before it. -/
theorem ne_encode_append {e : Elem} {bs : List UInt8} (h : ∀ es, bs ≠ encode es) :
    ∀ es, e.bytes ++ bs ≠ encode es
  | [], he => by simp [Elem.bytes] at he
  | _ :: es, he => h es (Elem.bytes_append_inj he).2

/-- A single byte is no list of elements. -/
theorem length_encode_ne_one : ∀ es, (encode es).length ≠ 1
  | [] => by simp
  | e :: es => by
    simp only [encode_cons, List.length_append, Elem.length_bytes]
    omega

theorem length_encode_le {es fs : List Elem} (h : es.Sublist fs) :
    (encode es).length ≤ (encode fs).length := by
  induction h with
  | slnil => exact le_rfl
  | cons e _ ih =>
    rw [encode_cons, List.length_append]
    omega
  | cons_cons e _ ih =>
    rw [encode_cons, encode_cons, List.length_append, List.length_append]
    omega

/-- Fewer elements have fewer bytes. -/
theorem eq_of_sublist {es fs : List Elem} (h : es.Sublist fs)
    (hlen : (encode es).length = (encode fs).length) : es = fs := by
  induction h with
  | slnil => rfl
  | cons e hsub _ =>
    have hle := length_encode_le hsub
    rw [encode_cons, List.length_append, Elem.length_bytes] at hlen
    omega
  | cons_cons e _ ih =>
    rw [encode_cons, encode_cons, List.length_append, List.length_append] at hlen
    rw [ih (by omega)]

/-! ## Byte strings that end within an element -/

/-- No whole element begins the byte string. -/
def Cut (bs : List UInt8) : Prop := ∀ (e : Elem) (rest : List UInt8), bs ≠ e.bytes ++ rest

theorem cut_of_length_le_one {bs : List UInt8} (h : bs.length ≤ 1) : Cut bs := by
  rintro e rest rfl
  rw [List.length_append, Elem.length_bytes] at h
  omega

theorem cut_cons_cons {id elen : UInt8} {rest : List UInt8} :
    Cut (id :: elen :: rest) ↔ rest.length < elen.toNat := by
  constructor
  · intro h
    by_contra hno
    obtain ⟨e, -, -, heq⟩ := @exists_bytes id elen rest (Nat.not_lt.mp hno)
    exact h e _ heq
  · rintro h e bs heq
    simp only [Elem.bytes, List.cons_append, List.cons.injEq] at heq
    obtain ⟨-, rfl, rfl⟩ := heq
    rw [e.toNat_len, List.length_append] at h
    omega

/-- A byte string is a list of elements, and behind them the beginning of one. -/
theorem exists_encode_append_cut (bs : List UInt8) :
    ∃ es rest, bs = encode es ++ rest ∧ Cut rest := by
  induction h : bs.length using Nat.strong_induction_on generalizing bs with
  | _ n ih =>
    subst h
    by_cases hcut : Cut bs
    · exact ⟨[], bs, rfl, hcut⟩
    obtain ⟨e, rest, rfl⟩ : ∃ (e : Elem) (rest : List UInt8), bs = e.bytes ++ rest := by
      simpa [Cut] using hcut
    obtain ⟨es, rest', rfl, hcut'⟩ :=
      ih rest.length (by rw [List.length_append, Elem.length_bytes]; omega) rest rfl
    exact ⟨e :: es, rest', by rw [encode_cons, List.append_assoc], hcut'⟩

/-! ## The first and the last element of a kind -/

/-- The first element with the property, with the number of bytes before it. -/
def firstAt (P : Elem → Bool) : List Elem → Option (ℕ × Elem)
  | [] => none
  | e :: es => if P e then some (0, e) else (firstAt P es).map fun r => (r.1 + (e.body.length + 2), r.2)

theorem firstAt_eq_none {P : Elem → Bool} : ∀ {es : List Elem},
    firstAt P es = none ↔ ∀ e ∈ es, P e = false
  | [] => by simp [firstAt]
  | e :: es => by
    rw [firstAt]
    split
    · rename_i h
      simp [h]
    · rename_i h
      rw [Option.map_eq_none_iff, @firstAt_eq_none P es]
      simp [h]

/-- The first element behind others that do not have the property. -/
theorem firstAt_append {P : Elem → Bool} {es : List Elem} :
    ∀ {pre : List Elem}, (∀ e ∈ pre, P e = false) →
    firstAt P (pre ++ es) = (firstAt P es).map fun r => ((encode pre).length + r.1, r.2)
  | [], _ => by simp
  | e :: pre, h => by
    obtain ⟨he, hpre⟩ := List.forall_mem_cons.mp h
    have hoff (r : ℕ × Elem) :
      (encode pre).length + r.1 + (e.body.length + 2) = (encode (e :: pre)).length + r.1 := by
      rw [encode_cons, List.length_append, Elem.length_bytes]
      omega
    rw [List.cons_append, firstAt, if_neg (by rw [he]; exact Bool.false_ne_true),
      firstAt_append hpre, Option.map_map]
    simp only [Function.comp_def, hoff]

/-- The first element with the property, with the elements before it and behind it. -/
theorem firstAt_cases (P : Elem → Bool) (es : List Elem) :
    (es.find? P = none ∧ firstAt P es = none) ∨ ∃ pre e post, es = pre ++ e :: post ∧
    (∀ x ∈ pre, P x = false) ∧
      P e = true ∧ es.find? P = some e ∧ firstAt P es = some ((encode pre).length, e) := by
  cases h : es.find? P with
  | none => exact Or.inl ⟨rfl,
    firstAt_eq_none.mpr fun e he => by simpa using List.find?_eq_none.mp h e he⟩
  | some e =>
    obtain ⟨he, pre, post, rfl, hpre⟩ := List.find?_eq_some_iff_append.mp h
    have hpre' : ∀ x ∈ pre, P x = false := fun x hx => by simpa using hpre x hx
    refine Or.inr ⟨pre, e, post, rfl, hpre', he, rfl, ?_⟩
    rw [firstAt_append hpre', firstAt, if_pos he]
    rfl

/-- A list with exactly one element of a kind, and the list of the others. -/
theorem filter_eq_singleton_iff {α : Type*} {P : α → Bool} {es fs : List α} {e : α} :
    es.filter P = [e] ∧ es.filter (fun x => !P x) = fs ↔
      ∃ pre post, es = pre ++ e :: post ∧ fs = pre ++ post ∧ P e = true ∧
        ∀ x ∈ pre ++ post, P x = false := by
  constructor
  · rintro ⟨hone, rfl⟩
    have hmem : e ∈ es.filter P := by rw [hone]; exact List.mem_singleton_self e
    obtain ⟨he, hP⟩ := List.mem_filter.mp hmem
    obtain ⟨pre, post, rfl⟩ := List.append_of_mem he
    rw [List.filter_append, List.filter_cons_of_pos hP, List.append_eq_singleton_iff] at hone
    have hnone : (pre ++ post).filter P = [] := by
      rcases hone with ⟨hpre, hpost⟩ | ⟨-, hpost⟩
      · rw [List.filter_append, hpre, (List.cons.inj hpost).2, List.append_nil]
      · cases hpost
    have hall (x : α) (hx : x ∈ pre ++ post) : P x = false := by
      simpa using List.filter_eq_nil_iff.mp hnone x hx
    refine ⟨pre, post, rfl, ?_, hP, hall⟩
    rw [List.filter_append, List.filter_cons_of_neg (by simp [hP]), ← List.filter_append,
      List.filter_eq_self.mpr fun x hx => by simp [hall x hx]]
  · rintro ⟨pre, post, rfl, rfl, hP, hall⟩
    have hnone : (pre ++ post).filter P = [] :=
      List.filter_eq_nil_iff.mpr fun x hx => by simp [hall x hx]
    rw [List.filter_append, List.append_eq_nil_iff] at hnone
    refine ⟨?_, ?_⟩
    · rw [List.filter_append, List.filter_cons_of_pos hP, hnone.1, hnone.2, List.nil_append]
    · rw [List.filter_append, List.filter_cons_of_neg (by simp [hP]), ← List.filter_append,
        List.filter_eq_self.mpr fun x hx => by simp [hall x hx]]

/-- Two words that differ by what is moved over a third one are rotations of each other. -/
theorem exists_rotation {α : Type*} {xs ys zs : List α} (hne : xs ≠ []) (h : xs ++ ys = ys ++ zs) :
    ∃ (k : ℕ) (us ws : List α), xs = us ++ ws ∧ zs = ws ++ us ∧
      ys = (List.replicate k xs).flatten ++ us := by
  induction hn : ys.length using Nat.strong_induction_on generalizing ys with
  | _ n ih =>
    rcases List.append_eq_append_iff.mp h with ⟨ws, hys, hws⟩ | ⟨ws, hxs, hzs⟩
    · -- `xs` is the beginning of `ys`
      have hrest : xs ++ ws = ws ++ zs := by
        rw [← hws, hys]
      have hlt : ws.length < n := by
        have hpos := List.length_pos_iff.mpr hne
        rw [← hn, hys, List.length_append]
        omega
      obtain ⟨k, us, vs, hxs, hzs, hws'⟩ := ih _ hlt hrest rfl
      refine ⟨k + 1, us, vs, hxs, hzs, ?_⟩
      rw [hys, hws', List.replicate_succ, List.flatten_cons, List.append_assoc]
    · exact ⟨0, ys, ws, hxs, hzs, rfl⟩

/-- If an element with an id that is not in the list is found in it after the bytes `xs` have been
put between two bytes of the list, then these were put before the element. -/
theorem exists_of_insert {as bs xs : List UInt8} {pre post : List Elem} {e : Elem}
    (hes : as ++ bs = encode (pre ++ post)) (hid : ∀ f ∈ post, f.id ≠ e.id)
    (h : as ++ (xs ++ bs) = encode (pre ++ e :: post)) :
    ∃ vs, encode pre = as ++ vs ∧ bs = vs ++ encode post ∧ xs ++ vs = vs ++ e.bytes := by
  rw [encode_append] at hes h
  rw [encode_cons] at h
  rcases List.append_eq_append_iff.mp hes with ⟨vs, hpre, hbs⟩ | ⟨us, has, hpost⟩
  · refine ⟨vs, hpre, hbs, ?_⟩
    rw [hpre, hbs, List.append_assoc, List.append_cancel_left_eq, ← List.append_assoc,
      ← List.append_assoc,
      List.append_cancel_right_eq] at h
    exact h
  · cases us with
    | nil =>
      rw [List.append_nil] at has
      rw [List.nil_append] at hpost
      refine ⟨[], by rw [has, List.append_nil], by rw [hpost, List.nil_append], ?_⟩
      rw [has, hpost, List.append_cancel_left_eq, List.append_cancel_right_eq] at h
      rw [List.append_nil, List.nil_append, h]
    | cons u us =>
      -- the element would begin where one of the others does
      cases post with
      | nil => cases hpost
      | cons f post =>
        rw [has, hpost, List.append_assoc, List.append_cancel_left_eq] at h
        have hu : u = e.id := (List.cons.inj h).1
        have hf : f.id = u := (List.cons.inj hpost).1
        exact absurd (hf.trans hu) (hid f List.mem_cons_self)

/-- The last element that satisfies `f` with the elements behind it. -/
def lastWith (f : Elem → List Elem → Bool) : List Elem → Option Elem
  | [] => none
  | e :: es => (lastWith f es).or (if f e es then some e else none)

theorem lastWith_eq_none {f : Elem → List Elem → Bool} : ∀ {es : List Elem}, lastWith f es = none ↔
    ∀ pre e post, es = pre ++ e :: post → f e post = false
  | [] => by simp [lastWith]
  | e :: es => by
    rw [lastWith, Option.or_eq_none_iff, @lastWith_eq_none f es]
    constructor
    · rintro ⟨h, he⟩ pre x post hes
      cases pre with
      | nil =>
        obtain ⟨rfl, rfl⟩ := List.cons.inj hes
        simpa using he
      | cons y pre => exact h pre x post (List.cons.inj hes).2
    · intro h
      refine ⟨fun pre x post hes => h (e :: pre) x post (by rw [hes, List.cons_append]), ?_⟩
      rw [h [] e es rfl, if_neg Bool.false_ne_true]

/-- The last element with a property of its own. -/
theorem lastWith_own_eq_none {P : Elem → Bool} {es : List Elem} :
    lastWith (fun e _ => P e) es = none ↔ ∀ e ∈ es, P e = false := by
  rw [lastWith_eq_none]
  constructor
  · intro h e he
    obtain ⟨pre, post, hes⟩ := List.append_of_mem he
    exact h pre e post hes
  · rintro h pre e post rfl
    exact h e (by simp)

theorem lastWith_own_eq_some {P : Elem → Bool} : ∀ {es : List Elem} {e : Elem},
    lastWith (fun e _ => P e) es = some e → P e = true
  | x :: es, e, h => by
    rw [lastWith, Option.or_eq_some_iff] at h
    rcases h with h | ⟨-, h⟩
    · exact lastWith_own_eq_some h
    · rw [Option.ite_none_right_eq_some] at h
      exact Option.some.inj h.2 ▸ h.1

/-- The element `e` with `off` bytes before it is the last one of its kind. -/
def Last (P : Elem → Prop) (es : List Elem) (off : ℕ) (e : Elem) : Prop :=
  ∃ pre post, es = pre ++ e :: post ∧ off = (encode pre).length ∧ P e ∧ ∀ x ∈ post, ¬ P x

end Tlv
