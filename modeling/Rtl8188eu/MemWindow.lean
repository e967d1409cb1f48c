import Rtl8188eu.ByteMem

/-!
# Computations on a window of a memory

A computation on a memory gives a value and a new memory. It stays inside a window of `n` bytes at
`p` (`Inside`) if it does not depend on the other bytes and does not change them. Reading and
writing in the window stay inside (`inside_read`, `inside_write`), and so do two computations after
each other (`Inside.bind`).
-/

namespace Mem

variable {α β : Type}

/-- The `n` bytes at `p` are the same. -/
def SameOn (p : ℤ) (n : ℕ) (m m' : Mem) : Prop := ∀ i : ℕ, i < n → m (p + i) = m' (p + i)

namespace SameOn

variable {p : ℤ} {n : ℕ} {m m' m'' : Mem}

theorem mono (h : SameOn p n m m') {k : ℕ} (hk : k ≤ n) : SameOn p k m m' :=
    fun i hi => h i (by omega)

/-- A byte of the window, by its address. -/
theorem at_addr (h : SameOn p n m m') {a : ℤ} (h1 : p ≤ a) (h2 : a < p + n) : m a = m' a := by
  have hbyte := h (a - p).toNat (by omega)
  have ha : p + ((a - p).toNat : ℤ) = a := by omega
  rw [ha] at hbyte
  exact hbyte

/-- A block of the window. -/
theorem read (h : SameOn p n m m') {q : ℤ} {l : ℕ} (h1 : p ≤ q) (h2 : q + l ≤ p + n) :
    m.read q l = m'.read q l :=
  read_congr fun _ _ => h.at_addr (by omega) (by omega)

/-- The same bytes are written. -/
theorem write (h : SameOn p n m m') (q : ℤ) (bs : List UInt8) :
    SameOn p n (m.write q bs) (m'.write q bs) := by
  intro i hi
  rw [Mem.write, Mem.write, h i hi]

end SameOn

/-- A write behind the window. -/
theorem sameOn_write {p q : ℤ} {n : ℕ} (m : Mem) (bs : List UInt8) (h : p + n ≤ q) :
    SameOn p n (m.write q bs) m :=
  fun _ _ => write_of_disjoint m (Or.inl (by omega))

/-- From `m`, the computation `g` stays in the window of `n` bytes at `p`. -/
structure Inside (p : ℤ) (n : ℕ) (m : Mem) (g : Mem → α × Mem) : Prop where
  reads : ∀ m', SameOn p n m' m → (g m').1 = (g m).1 ∧ SameOn p n (g m').2 (g m).2
  writes : ∀ a, a < p ∨ p + n ≤ a → (g m).2 a = m a

/-- A value that depends on the bytes of the window. -/
theorem inside_read {p : ℤ} {n : ℕ} {m : Mem} {f : Mem → α}
    (h : ∀ m', SameOn p n m' m → f m' = f m) :
    Inside p n m fun m => (f m, m) :=
  ⟨fun m' hm => ⟨h m' hm, hm⟩, fun _ _ => rfl⟩

/-- Bytes that depend on those of the window are written in it. -/
theorem inside_write {p q : ℤ} {n : ℕ} {m : Mem} {a : α} {f : Mem → List UInt8}
    (h : ∀ m', SameOn p n m' m → f m' = f m) (h1 : p ≤ q) (h2 : q + (f m).length ≤ p + n) :
    Inside p n m fun m => (a, m.write q (f m)) := by
  refine ⟨fun m' hm => ⟨rfl, ?_⟩, fun a ha => write_of_disjoint m (by omega)⟩
  rw [h m' hm]
  exact hm.write q (f m)

/-- Two computations after each other. -/
theorem Inside.bind {p : ℤ} {n : ℕ} {m : Mem} {g : Mem → α × Mem} {k : α → Mem → β × Mem}
    (hg : Inside p n m g)
    (hk : Inside p n (g m).2 (k (g m).1)) : Inside p n m fun m => k (g m).1 (g m).2 := by
  refine ⟨fun m' hm => ?_, fun a ha => ?_⟩
  · obtain ⟨hval, hmem⟩ := hg.reads m' hm
    rw [hval]
    exact hk.reads _ hmem
  · rw [hk.writes a ha, hg.writes a ha]

end Mem
