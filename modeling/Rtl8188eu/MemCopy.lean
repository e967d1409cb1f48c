import Mathlib.Data.List.GetD
import Rtl8188eu.ByteMem

/-!
# Copies in a memory

`memcpy` is documented for regions that do not overlap (`Memcpy`). A copy that starts with the
lowest byte also moves a block down over itself (`Memcpy.moves_ascending`).
-/

namespace Mem

variable {m : Mem} {p : ℤ}

theorem write_apply {bs : List UInt8} {i : ℕ} (h : i < bs.length) :
    m.write p bs (p + i) = bs.getD i 0 := by
  have hi : (p + (i : ℤ) - p).toNat = i := by omega
  unfold write
  rw [if_pos ⟨by omega, by omega⟩, hi]

/-- A block behind another one. -/
theorem write_append (m : Mem) (p : ℤ) (as bs : List UInt8) :
    (m.write p as).write (p + as.length) bs = m.write p (as ++ bs) := by
  funext a
  by_cases ha : p ≤ a ∧ a < p + (as ++ bs).length
  · obtain ⟨i, rfl⟩ := Int.le.dest ha.1
    have hi : i < (as ++ bs).length := by omega
    rw [write_apply hi]
    rcases lt_or_ge i as.length with hlt | hge
    · rw [write_of_disjoint _ (Or.inl (by omega)), write_apply hlt, List.getD_append _ _ _ _ hlt]
    · obtain ⟨j, rfl⟩ := Nat.exists_eq_add_of_le hge
      rw [List.length_append] at hi
      rw [Nat.cast_add, ← add_assoc, write_apply (by omega), List.getD_append_right _ _ _ _ hge,
        Nat.add_sub_cancel_left]
  · have hout : a < p ∨ p + (as ++ bs).length ≤ a := by omega
    rw [write_of_disjoint _ hout, List.length_append] at *
    rw [write_of_disjoint _ (by omega), write_of_disjoint _ (by omega)]

/-- A block that is written over is gone. -/
theorem write_write_of_le {as bs : List UInt8} (h : as.length ≤ bs.length) :
    (m.write p as).write p bs = m.write p bs := by
  funext a
  by_cases ha : p ≤ a ∧ a < p + bs.length
  · obtain ⟨i, rfl⟩ := Int.le.dest ha.1
    have hi : i < bs.length := by omega
    rw [write_apply hi, write_apply hi]
  · have hout : a < p ∨ p + bs.length ≤ a := by omega
    rw [write_of_disjoint _ hout, write_of_disjoint _ hout, write_of_disjoint _ (by omega)]

/-- Blocks that do not overlap are written in any order. -/
theorem write_comm {q : ℤ} {as bs : List UInt8} (h : p + as.length ≤ q ∨ q + bs.length ≤ p) :
    (m.write p as).write q bs = (m.write q bs).write p as := by
  funext a
  by_cases ha : q ≤ a ∧ a < q + bs.length
  · obtain ⟨i, rfl⟩ := Int.le.dest ha.1
    have hi : i < bs.length := by omega
    rw [write_apply hi, write_of_disjoint _ (by omega), write_apply hi]
  · have hout : a < q ∨ q + bs.length ≤ a := by omega
    rw [write_of_disjoint _ hout]
    by_cases hb : p ≤ a ∧ a < p + as.length
    · obtain ⟨i, rfl⟩ := Int.le.dest hb.1
      have hi : i < as.length := by omega
      rw [write_apply hi, write_apply hi]
    · have hout' : a < p ∨ p + as.length ≤ a := by omega
      rw [write_of_disjoint _ hout', write_of_disjoint _ hout', write_of_disjoint _ hout]

theorem read_succ (m : Mem) (n : ℕ) (p : ℤ) : m.read p (n + 1) = m.read p n ++ [m (p + n)] :=
    read_add m 1 n p

/-- Byte by byte, the lowest one first. -/
def copyUp (m : Mem) (dst src : ℤ) : ℕ → Mem
  | 0 => m
  | n + 1 => (copyUp m dst src n).write (dst + n) [copyUp m dst src n (src + n)]

/-- Byte by byte, the highest one first. -/
def copyDown (m : Mem) (dst src : ℤ) : ℕ → Mem
  | 0 => m
  | n + 1 => copyDown (m.write (dst + n) [m (src + n)]) dst src n

theorem write_nil (m : Mem) (p : ℤ) : m.write p [] = m := by
  funext a
  exact write_of_disjoint m (by simp only [List.length_nil]; omega)

theorem copyUp_eq {dst src : ℤ} : ∀ {n : ℕ}, dst ≤ src ∨ src + n ≤ dst →
    copyUp m dst src n = m.write dst (m.read src n)
  | 0, _ => (write_nil m dst).symm
  | n + 1, h => by
    have hlen : (dst + n : ℤ) = dst + (m.read src n).length := by rw [length_read]
    have hbyte : m.write dst (m.read src n) (src + n) = m (src + n) :=
      write_of_disjoint m (by rw [length_read]; omega)
    rw [copyUp, copyUp_eq (by omega), hbyte, hlen, write_append, ← read_succ]

theorem copyDown_eq {dst src : ℤ} : ∀ {n : ℕ} {m : Mem}, src ≤ dst ∨ dst + n ≤ src →
    copyDown m dst src n = m.write dst (m.read src n)
  | 0, m, _ => (write_nil m dst).symm
  | n + 1, m, h => by
    have hread : (m.write (dst + n) [m (src + n)]).read src n = m.read src n :=
      read_write_of_disjoint m (by simp only [List.length_singleton]; omega)
    have hlen : (dst + n : ℤ) = dst + (m.read src n).length := by rw [length_read]
    rw [copyDown, copyDown_eq (by omega), hread, write_comm (by rw [length_read]; omega), hlen,
      write_append,
      ← read_succ]

end Mem

/-- `memcpy`. For regions that overlap it may do anything. -/
structure Memcpy where
  run : Mem → ℤ → ℤ → ℕ → Mem
  run_of_disjoint : ∀ (m : Mem) (dst src : ℤ) (n : ℕ), dst + n ≤ src ∨ src + n ≤ dst →
    run m dst src n = m.write dst (m.read src n)

namespace Memcpy

/-- A `memcpy` that starts with the lowest byte. -/
def ascending : Memcpy := ⟨Mem.copyUp, fun _ _ _ _ h => Mem.copyUp_eq (by omega)⟩

/-- A `memcpy` that starts with the highest byte. -/
def descending : Memcpy := ⟨Mem.copyDown, fun _ _ _ _ h => Mem.copyDown_eq (by omega)⟩

/-- A block of `n` bytes arrives when it is moved down by `k`. -/
def Moves (cp : Memcpy) (n k : ℕ) : Prop :=
  ∀ (m : Mem) (q : ℤ), cp.run m q (q + k) n = m.write q (m.read (q + k) n)

theorem moves_of_le (cp : Memcpy) {n k : ℕ} (h : n ≤ k) : cp.Moves n k := fun m q =>
  cp.run_of_disjoint m q (q + k) n (Or.inl (by omega))

theorem moves_ascending (n k : ℕ) : ascending.Moves n k :=
    fun _ _ => Mem.copyUp_eq (Or.inl (by omega))

/-- A `memcpy` that clears the memory when the regions overlap. -/
def clearing : Memcpy where
  run m dst src n := if dst + n ≤ src ∨ src + n ≤ dst then m.write dst (m.read src n) else fun _ => 0
  run_of_disjoint _ _ _ _ h := if_pos h

theorem clearing_of_lt {m : Mem} {q : ℤ} {n k : ℕ} (h : k < n) (hpos : 0 < k) :
    clearing.run m q (q + k) n = fun _ => 0 := if_neg (by omega)

/-- A `memcpy` that fills the memory with a byte when the regions overlap. -/
def filling (b : UInt8) : Memcpy where
  run m dst src n := if dst + n ≤ src ∨ src + n ≤ dst then m.write dst (m.read src n) else fun _ => b
  run_of_disjoint _ _ _ _ h := if_pos h

theorem filling_of_lt (b : UInt8) {m : Mem} {q : ℤ} {n k : ℕ} (h : k < n) (hpos : 0 < k) :
    (filling b).run m q (q + k) n = fun _ => b := if_neg (by omega)

end Memcpy
