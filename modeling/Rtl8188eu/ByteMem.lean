import Mathlib.Data.Int.Basic
import Mathlib.Tactic
import Rtl8188eu.LiteralIndex

/-!
# Byte-addressed memory

A memory is a byte at every address (`Mem`). `read` takes a block of bytes, `write`
stores one. A block reads back what was written to it (`read_write_self`), a write
elsewhere leaves it alone (`read_write_of_disjoint`), and a block is the block of its
first bytes followed by the block of the others (`read_add`). `Holds` says that given
bytes are stored at an address.
-/

/-- A byte at every address. -/
abbrev Mem := ℤ → UInt8

namespace Mem

/-- The `n` bytes from address `p` on. -/
def read (m : Mem) (p : ℤ) : ℕ → List UInt8
  | 0 => []
  | n + 1 => m p :: read m (p + 1) n

/-- Store the bytes `bs` from address `p` on. -/
def write (m : Mem) (p : ℤ) (bs : List UInt8) : Mem := fun a =>
  if p ≤ a ∧ a < p + bs.length then bs.getD (a - p).toNat 0 else m a

@[simp] theorem length_read (m : Mem) : ∀ (n : ℕ) (p : ℤ), (m.read p n).length = n
  | 0, _ => rfl
  | n + 1, p => by simp [read, length_read m n]

theorem getElem_read (m : Mem) :
    ∀ (n : ℕ) (p : ℤ) (i : ℕ) (h : i < (m.read p n).length), (m.read p n)[i] = m (p + i)
  | 0, _, _, h => absurd h (by simp [read])
  | n + 1, p, 0, _ => by simp [read]
  | n + 1, p, i + 1, h => by
    have hi : i < (m.read (p + 1) n).length := by
      simp only [length_read] at h ⊢
      omega
    simp only [read, List.getElem_cons_succ]
    rw [getElem_read m n (p + 1) i hi]
    congr 1
    push_cast
    ring

/-- Two memories that agree on a block read the same block. -/
theorem read_congr {m m' : Mem} {n : ℕ} {p q : ℤ}
    (h : ∀ i : ℕ, i < n → m (p + i) = m' (q + i)) : m.read p n = m'.read q n := by
  refine List.ext_getElem (by simp) fun i hi hi' => ?_
  rw [getElem_read, getElem_read]
  exact h i (by simpa using hi)

/-- A block is the block of its first `a` bytes followed by the next `b` bytes. -/
theorem read_add (m : Mem) (b : ℕ) :
    ∀ (a : ℕ) (p : ℤ), m.read p (a + b) = m.read p a ++ m.read (p + a) b
  | 0, p => by simp [read]
  | a + 1, p => by
    have hp : p + ((a + 1 : ℕ) : ℤ) = p + 1 + a := by push_cast; ring
    rw [Nat.succ_add, hp]
    simp only [read, List.cons_append]
    rw [read_add m b a (p + 1)]

/-- A written block reads back as written. -/
theorem read_write_self (m : Mem) (p : ℤ) (bs : List UInt8) :
    (m.write p bs).read p bs.length = bs := by
  refine List.ext_getElem (by simp) fun i hi hi' => ?_
  rw [getElem_read]
  have hb : p ≤ p + (i : ℤ) ∧ p + (i : ℤ) < p + (bs.length : ℤ) := by omega
  have hn : (p + (i : ℤ) - p).toNat = i := by omega
  simp only [write, hb, and_self, if_true, hn]
  simp [List.getD_eq_getElem?_getD, hi']

theorem read_write_of_length (m : Mem) (p : ℤ) {bs : List UInt8} {n : ℕ} (h : bs.length = n) :
    (m.write p bs).read p n = bs := by
  rw [← h, read_write_self]

/-- A byte outside the written block is unchanged. -/
theorem write_of_disjoint (m : Mem) {p a : ℤ} {bs : List UInt8}
    (h : a < p ∨ p + bs.length ≤ a) : m.write p bs a = m a := by
  have : ¬ (p ≤ a ∧ a < p + bs.length) := by omega
  simp only [write, this, if_false]

/-- A block disjoint from the written one is unchanged. -/
theorem read_write_of_disjoint (m : Mem) {p q : ℤ} {n : ℕ} {bs : List UInt8}
    (h : q + n ≤ p ∨ p + bs.length ≤ q) : (m.write p bs).read q n = m.read q n :=
  read_congr fun i hi => write_of_disjoint m (by omega)

/-- The bytes `bs` are stored from address `p` on. -/
def Holds (m : Mem) (p : ℤ) (bs : List UInt8) : Prop := m.read p bs.length = bs

theorem holds_cons {m : Mem} {p : ℤ} {b : UInt8} {bs : List UInt8} :
    m.Holds p (b :: bs) ↔ m p = b ∧ m.Holds (p + 1) bs := by
  simp [Holds, read]

theorem holds_append {m : Mem} {p : ℤ} {as bs : List UInt8} :
    m.Holds p (as ++ bs) ↔ m.Holds p as ∧ m.Holds (p + as.length) bs := by
  unfold Holds
  rw [List.length_append, read_add]
  constructor
  · intro h
    exact List.append_inj h (by simp)
  · rintro ⟨h1, h2⟩
    rw [h1, h2]

/-- Bytes behind those that are stored. -/
theorem Holds.write_behind {m : Mem} {p : ℤ} {bs : List UInt8} (h : m.Holds p bs)
    (xs : List UInt8) :
    (m.write (p + bs.length) xs).Holds p (bs ++ xs) := by
  refine holds_append.mpr ⟨?_, read_write_self ..⟩
  exact (read_write_of_disjoint m (Or.inl le_rfl)).trans h

/-- Bytes between others are replaced. -/
theorem Holds.write_between {m : Mem} {p : ℤ} {xs ys zs ys' : List UInt8}
    (h : m.Holds p (xs ++ (ys ++ zs)))
    (hlen : ys'.length = ys.length) : (m.write (p + xs.length) ys').Holds p
    (xs ++ (ys' ++ zs)) := by
  rw [holds_append, holds_append] at h ⊢
  refine ⟨?_, read_write_self .., ?_⟩
  · exact (read_write_of_disjoint m (Or.inl (by omega))).trans h.1
  · rw [hlen]
    exact (read_write_of_disjoint m (Or.inr (by omega))).trans h.2.2

/-- The 16-bit little-endian value at `p`. -/
def le16 (m : Mem) (p : ℤ) : ℕ := (m p).toNat + 256 * (m (p + 1)).toNat

/-- The 16-bit big-endian value at `p`. -/
def be16 (m : Mem) (p : ℤ) : ℕ := 256 * (m p).toNat + (m (p + 1)).toNat

/-- The 32-bit little-endian value at `p`. -/
def le32 (m : Mem) (p : ℤ) : ℕ := m.le16 p + 65536 * m.le16 (p + 2)

theorem le32_congr {m m' : Mem} {p : ℤ} (h : ∀ i : ℕ, i < 4 → m (p + i) = m' (p + i)) :
    m.le32 p = m'.le32 p := by
  have h0 := h 0 (by omega)
  have h1 := h 1 (by omega)
  have h2 := h 2 (by omega)
  have h3 := h 3 (by omega)
  have e3 : p + 2 + 1 = p + ((3 : ℕ) : ℤ) := by push_cast; ring
  simp only [Nat.cast_zero, add_zero, Nat.cast_one, Nat.cast_ofNat] at h0 h1 h2
  simp only [le32, le16]
  rw [e3, h0, h1, h2, h3]

end Mem

/-- The two bytes of `n`, low byte first. -/
def le16Bytes (n : ℕ) : List UInt8 := [UInt8.ofNat n, UInt8.ofNat (n / 256)]

/-- The two bytes of `n`, high byte first. -/
def be16Bytes (n : ℕ) : List UInt8 := [UInt8.ofNat (n / 256), UInt8.ofNat n]

theorem Mem.be16_of_holds {m : Mem} {p : ℤ} {n : ℕ} {rest : List UInt8} (hn : n < 65536)
    (h : m.Holds p (be16Bytes n ++ rest)) : m.be16 p = n := by
  obtain ⟨h1, -⟩ := Mem.holds_append.mp h
  rw [be16Bytes, Mem.holds_cons, Mem.holds_cons] at h1
  rw [Mem.be16, h1.1, h1.2.1, UInt8.toNat_ofNat', UInt8.toNat_ofNat']
  omega

theorem be16Bytes_toNat (a b : UInt8) : be16Bytes (256 * a.toNat + b.toNat) = [a, b] := by
  have ha := a.toNat_lt
  have hb := b.toNat_lt
  unfold be16Bytes
  refine congrArg₂ (fun x y => [x, y]) (UInt8.toNat_inj.mp ?_) (UInt8.toNat_inj.mp ?_)
  · rw [UInt8.toNat_ofNat']
    omega
  · rw [UInt8.toNat_ofNat']
    omega

theorem le16Bytes_toNat (a b : UInt8) : le16Bytes (a.toNat + 256 * b.toNat) = [a, b] := by
  have ha := a.toNat_lt
  have hb := b.toNat_lt
  unfold le16Bytes
  refine congrArg₂ (fun x y => [x, y]) (UInt8.toNat_inj.mp ?_) (UInt8.toNat_inj.mp ?_)
  · rw [UInt8.toNat_ofNat']
    omega
  · rw [UInt8.toNat_ofNat']
    omega
