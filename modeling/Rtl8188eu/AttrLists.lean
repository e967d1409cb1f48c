import Mathlib.Tactic
import Rtl8188eu.LiteralIndex

/-!
# Lists of attributes

An attribute is a header with an id and a length, and as many bytes of data. How the header is
written is a parameter (`Format`). Every byte string is a list of whole attributes with the
beginning of another one behind them, or with nothing behind them (`exists_encode_append_cut`).
-/

namespace AttrLists

/-- How headers are written and read. The lengths have 16 bits. -/
structure Format where
  /-- The bytes of a header. -/
  hdr : ℕ
  hdr_pos : 0 < hdr
  /-- The number of ids. -/
  ids : ℕ
  header : ℕ → ℕ → List UInt8
  idOf : List UInt8 → ℕ
  lenOf : List UInt8 → ℕ
  length_header : ∀ id n, (header id n).length = hdr
  idOf_header : ∀ {id n}, id < ids → n < 2 ^ 16 → ∀ rest, idOf (header id n ++ rest) = id
  lenOf_header : ∀ {id n}, id < ids → n < 2 ^ 16 → ∀ rest, lenOf (header id n ++ rest) = n
  idOf_lt : ∀ bs, idOf bs < ids
  lenOf_lt : ∀ bs, lenOf bs < 2 ^ 16
  header_of : ∀ {bs : List UInt8}, hdr ≤ bs.length → bs = header (idOf bs) (lenOf bs) ++ bs.drop hdr

/-- An attribute. -/
structure Attr (F : Format) where
  id : ℕ
  data : List UInt8
  id_lt : id < F.ids
  length_lt : data.length < 2 ^ 16

variable {F : Format}

namespace Attr

def bytes (a : Attr F) : List UInt8 := F.header a.id a.data.length ++ a.data

@[simp] theorem length_bytes (a : Attr F) : a.bytes.length = F.hdr + a.data.length := by
  rw [bytes, List.length_append, F.length_header]

theorem idOf_bytes (a : Attr F) (rest : List UInt8) : F.idOf (a.bytes ++ rest) = a.id := by
  rw [bytes, List.append_assoc, F.idOf_header a.id_lt a.length_lt]

theorem lenOf_bytes (a : Attr F) (rest : List UInt8) :
    F.lenOf (a.bytes ++ rest) = a.data.length := by
  rw [bytes, List.append_assoc, F.lenOf_header a.id_lt a.length_lt]

end Attr

/-- The attributes, one after another. -/
def encode : List (Attr F) → List UInt8
  | [] => []
  | a :: as => a.bytes ++ encode as

@[simp] theorem encode_nil : encode ([] : List (Attr F)) = [] := rfl

@[simp] theorem encode_cons (a : Attr F) (as : List (Attr F)) :
    encode (a :: as) = a.bytes ++ encode as := rfl

theorem encode_append : ∀ as bs : List (Attr F), encode (as ++ bs) = encode as ++ encode bs
  | [], _ => rfl
  | a :: as, bs => by
    rw [List.cons_append, encode_cons, encode_cons, encode_append as bs, List.append_assoc]

theorem length_encode_le {as bs : List (Attr F)} (h : as.Sublist bs) :
    (encode as).length ≤ (encode bs).length := by
  induction h with
  | slnil => exact le_rfl
  | cons a _ ih =>
    rw [encode_cons, List.length_append]
    omega
  | cons_cons a _ ih =>
    rw [encode_cons, encode_cons, List.length_append, List.length_append]
    omega

/-- No whole attribute begins the byte string. -/
def Cut (F : Format) (bs : List UInt8) : Prop := ∀ (a : Attr F) (rest : List UInt8), bs ≠ a.bytes ++ rest

/-- A byte string is a list of attributes, and behind them the beginning of one. -/
theorem exists_encode_append_cut (F : Format) (bs : List UInt8) :
    ∃ (as : List (Attr F)) (rest : List UInt8), bs = encode as ++ rest ∧ Cut F rest := by
  induction h : bs.length using Nat.strong_induction_on generalizing bs with
  | _ n ih =>
    subst h
    by_cases hcut : Cut F bs
    · exact ⟨[], bs, rfl, hcut⟩
    obtain ⟨a, rest, rfl⟩ : ∃ (a : Attr F) (rest : List UInt8), bs = a.bytes ++ rest := by
      simpa [Cut] using hcut
    have hpos := F.hdr_pos
    obtain ⟨as, rest', rfl, hcut'⟩ :=
      ih rest.length (by rw [List.length_append, Attr.length_bytes]; omega) rest rfl
    exact ⟨a :: as, rest', by rw [encode_cons, List.append_assoc], hcut'⟩

/-- The first attribute with the id, with the number of bytes before it. -/
def firstAt (id : ℕ) : List (Attr F) → Option (ℕ × Attr F)
  | [] => none
  | a :: as => if a.id = id then some (0, a) else (firstAt id as).map fun r => (r.1 + a.bytes.length, r.2)

theorem firstAt_eq_none {id : ℕ} : ∀ {as : List (Attr F)}, firstAt id as = none ↔
    ∀ a ∈ as, a.id ≠ id
  | [] => by simp [firstAt]
  | a :: as => by
    rw [firstAt, List.forall_mem_cons]
    split
    · rename_i h
      simp [h]
    · rename_i h
      rw [Option.map_eq_none_iff, @firstAt_eq_none id as]
      simp [h]

/-- The first attribute, with what is before and behind it. -/
theorem firstAt_eq_some {id : ℕ} {r : ℕ × Attr F} : ∀ {as : List (Attr F)}, firstAt id as = some r →
    ∃ pre post, as = pre ++ r.2 :: post ∧ r.1 = (encode pre).length ∧ r.2.id = id ∧
      ∀ a ∈ pre, a.id ≠ id
  | a :: as, h => by
    rw [firstAt] at h
    split at h
    · rename_i hid
      cases h
      exact ⟨[], as, rfl, rfl, hid, fun _ ha => absurd ha List.not_mem_nil⟩
    · rename_i hid
      obtain ⟨r', hr, rfl⟩ := Option.map_eq_some_iff.mp h
      obtain ⟨pre, post, rfl, hoff, hid', hpre⟩ := firstAt_eq_some hr
      refine ⟨a :: pre, post, rfl, ?_, hid', List.forall_mem_cons.mpr ⟨hid, hpre⟩⟩
      rw [encode_cons, List.length_append, ← hoff, Nat.add_comm]

end AttrLists
