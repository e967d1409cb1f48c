import Mathlib.Logic.Function.Basic
import Mathlib.Tactic
import Rtl8188eu.LiteralIndex

/-!
# Circular queues

A queue in a ring of `size` cells, from the cell `read` on. The cell `write` behind it is free, so
the two are the same only if the queue is empty (`Holds.write_eq_read_iff`), and there is room for
one more element as long as the cell behind `write` is not `read` (`Holds.next_eq_read_iff`).
-/

namespace CircularQueue

variable {α : Type*} {size read write : ℕ} {cells : ℕ → α} {q : List α}

/-- The queue `q` is in the cells from `read` on, and `write` is the cell behind it. -/
structure Holds (size : ℕ) (cells : ℕ → α) (read write : ℕ) (q : List α) : Prop where
  read_lt : read < size
  length_lt : q.length < size
  write_eq : write = (read + q.length) % size
  cells_eq : ∀ i (hi : i < q.length), cells ((read + i) % size) = q[i]

/-- A cell is in front of the last one, or behind the wrap. -/
theorem mod_cases {a i : ℕ} (ha : a < size) (hi : i ≤ size) :
    a + i < size ∧ (a + i) % size = a + i ∨ size ≤ a + i ∧ (a + i) % size = a + i - size := by
  rcases Nat.lt_or_ge (a + i) size with h | h
  · exact Or.inl ⟨h, Nat.mod_eq_of_lt h⟩
  · refine Or.inr ⟨h, ?_⟩
    rw [Nat.mod_eq_sub_mod h]
    exact Nat.mod_eq_of_lt (by omega)

/-- Different places of the queue are different cells. -/
theorem mod_inj {a i j : ℕ} (ha : a < size) (hi : i < size) (hj : j < size)
    (h : (a + i) % size = (a + j) % size) : i = j := by
  rcases mod_cases ha hi.le with ⟨hi', hi⟩ | ⟨hi', hi⟩ <;> rcases mod_cases ha hj.le with ⟨hj',
    hj⟩ | ⟨hj', hj⟩ <;> omega

theorem holds_nil (hsize : 0 < size) (cells : ℕ → α) : Holds size cells 0 0 [] where
  read_lt := hsize
  length_lt := hsize
  write_eq := by rw [List.length_nil, Nat.add_zero, Nat.zero_mod]
  cells_eq := fun i hi => absurd hi (Nat.not_lt_zero i)

theorem Holds.write_lt (h : Holds size cells read write q) : write < size := by
  rw [h.write_eq]
  exact Nat.mod_lt _ (by have := h.read_lt; omega)

/-- The ring is empty. -/
theorem Holds.write_eq_read_iff (h : Holds size cells read write q) : write = read ↔ q = [] := by
  have hread := h.read_lt
  have hlen := h.length_lt
  rw [← List.length_eq_zero_iff, h.write_eq]
  rcases mod_cases h.read_lt hlen.le with ⟨hlt, hmod⟩ | ⟨hge, hmod⟩
  · omega
  · omega

/-- The ring is full. -/
theorem Holds.next_eq_read_iff (h : Holds size cells read write q) : (write + 1) % size = read ↔
    q.length + 1 = size := by
  have hread := h.read_lt
  have hlen := h.length_lt
  rw [h.write_eq, Nat.mod_add_mod, Nat.add_assoc]
  rcases mod_cases h.read_lt (show q.length + 1 ≤ size by omega) with ⟨hlt, hmod⟩ | ⟨hge, hmod⟩
  · omega
  · omega

/-- An element is put behind the queue, if a cell stays free. -/
theorem Holds.push (h : Holds size cells read write q) (hroom : q.length + 1 < size) (x : α) :
    Holds size (Function.update cells write x) read ((write + 1) % size) (q ++ [x]) where
  read_lt := h.read_lt
  length_lt := by rwa [List.length_append, List.length_singleton]
  write_eq := by rw [h.write_eq, Nat.mod_add_mod, List.length_append, List.length_singleton,
    Nat.add_assoc]
  cells_eq := by
    intro i hi
    rw [List.length_append, List.length_singleton] at hi
    rcases Nat.lt_or_ge i q.length with hlt | hge
    · have hne : (read + i) % size ≠ write := by
        rw [h.write_eq]
        intro heq
        have hij := mod_inj h.read_lt (by omega) (by omega) heq
        omega
      rw [Function.update_of_ne hne, List.getElem_append_left hlt]
      exact h.cells_eq i hlt
    · obtain rfl : i = q.length := by omega
      rw [← h.write_eq, Function.update_self, List.getElem_concat_length rfl]

/-- The first element is at `read`, and is taken off the queue. -/
theorem Holds.pop {x : α} (h : Holds size cells read write (x :: q)) :
    cells read = x ∧ Holds size cells ((read + 1) % size) write q := by
  have hlen := h.length_lt
  rw [List.length_cons] at hlen
  refine ⟨?_, ?_⟩
  · have hfirst := h.cells_eq 0 (Nat.succ_pos _)
    rwa [Nat.add_zero, Nat.mod_eq_of_lt h.read_lt] at hfirst
  · refine ⟨Nat.mod_lt _ (by omega), by omega, ?_, fun i hi => ?_⟩
    · rw [h.write_eq, List.length_cons, Nat.mod_add_mod, Nat.add_assoc, Nat.add_comm 1]
    · have hnext := h.cells_eq (i + 1) (Nat.succ_lt_succ hi)
      rwa [List.getElem_cons_succ, Nat.add_comm i 1, ← Nat.add_assoc, ← Nat.mod_add_mod] at hnext

end CircularQueue
