import Mathlib.Data.Nat.ModEq
import Mathlib.Tactic.Ring
import Rtl8188eu.LiteralIndex

/-!
# Blocks in a buffer

Blocks are put into a buffer one behind the other. Each begins at a multiple of the alignment.
Packing stops before the first block that does not fit, and when there are enough blocks, in the
buffer or in one window of it.
-/

namespace AlignedPacking

/-- The next multiple of `a`. -/
def alignUp (a n : ℕ) : ℕ := (n + (a - 1)) / a * a

theorem dvd_alignUp (a n : ℕ) : a ∣ alignUp a n := Nat.dvd_mul_left a _

theorem le_alignUp {a : ℕ} (ha : 0 < a) (n : ℕ) : n ≤ alignUp a n := by
  have h := Nat.div_add_mod (n + (a - 1)) a
  have hlt := Nat.mod_lt (n + (a - 1)) ha
  have hcomm : a * ((n + (a - 1)) / a) = alignUp a n := Nat.mul_comm _ _
  omega

/-- A block, and where it begins. -/
@[ext]
structure Slot where
  offset : ℕ
  size : ℕ
deriving DecidableEq

/-- The first byte behind a block. -/
def Slot.stop (b : Slot) : ℕ := b.offset + b.size

/-- What the blocks have to keep to. -/
structure Limits where
  /-- The alignment. -/
  align : ℕ
  align_pos : 0 < align
  /-- The length of the buffer. -/
  cap : ℕ
  /-- The length of a window. -/
  window : ℕ
  /-- The most blocks in the buffer. -/
  blocks : ℕ
  /-- The most blocks that begin in one window. -/
  perWindow : ℕ

namespace Limits

variable (c : Limits)

/-- Packing goes on behind a block at `next`, with that many blocks in the window of `next'`. -/
def goOn (next next' here total : ℕ) : Option ℕ :=
  if total + 1 = c.blocks then none
  else if next' / c.window = next / c.window then
    if here + 1 = c.perWindow then none else some (here + 1)
  else some 0

/-- The blocks of these sizes that are packed from `next` on. So far there are `total` blocks, and
`here` of them begin in the window of `next`. -/
def pack : ℕ → ℕ → ℕ → List ℕ → List Slot
  | _, _, _, [] => []
  | next, here, total, n :: ns =>
    let next' := alignUp c.align (next + n)
    if c.cap < next' then []
    else
      ⟨next, n⟩ ::
        match c.goOn next next' here total with
        | none => []
        | some here' => pack next' here' (total + 1) ns

variable {c} {next here total : ℕ} {ns : List ℕ}

theorem goOn_cases {next' here' : ℕ} (h : c.goOn next next' here total = some here') :
    total + 1 ≠ c.blocks ∧
      ((next' / c.window = next / c.window ∧ here' = here + 1 ∧ here' ≠ c.perWindow) ∨
      (next' / c.window ≠ next / c.window ∧ here' = 0)) := by
  unfold goOn at h
  split_ifs at h with h1 h2 h3
  · cases h
    exact ⟨h1, Or.inl ⟨h2, rfl, h3⟩⟩
  · cases h
    exact ⟨h1, Or.inr ⟨h2, rfl⟩⟩

/-- A property of the blocks holds if it holds of a block that is packed next, whatever follows. -/
theorem pack_induction {P : ℕ → List Slot → Prop} (hnil : ∀ next, P next [])
    (hcons : ∀ next n bs, alignUp c.align (next + n) ≤ c.cap → P (alignUp c.align (next + n)) bs →
      P next (⟨next, n⟩ :: bs)) :
    ∀ (ns : List ℕ) (next here total : ℕ), P next (c.pack next here total ns)
  | [], next, _, _ => hnil next
  | n :: ns, next, here, total => by
    rw [pack]
    split
    · exact hnil next
    · rename_i hcap
      refine hcons next n _ (Nat.not_lt.mp hcap) ?_
      split
      · exact hnil _
      · exact pack_induction hnil hcons ns _ _ _

theorem le_offset_of_mem_pack : ∀ b ∈ c.pack next here total ns, next ≤ b.offset := by
  refine pack_induction (P := fun next bs => ∀ b ∈ bs, next ≤ b.offset) (fun _ b hb => nomatch hb)
    ?_ ns next here total
  intro next n bs _ ih b hb
  rcases List.mem_cons.mp hb with rfl | hb
  · exact le_rfl
  · have hle := ih b hb
    have hup := le_alignUp c.align_pos (next + n)
    omega

theorem dvd_offset_of_mem_pack (hnext : c.align ∣ next) :
    ∀ b ∈ c.pack next here total ns, c.align ∣ b.offset := by
  refine pack_induction (P := fun next bs => c.align ∣ next → ∀ b ∈ bs, c.align ∣ b.offset)
    (fun _ _ b hb => nomatch hb) ?_ ns next here total hnext
  intro next n bs _ ih hdvd b hb
  rcases List.mem_cons.mp hb with rfl | hb
  · exact hdvd
  · exact ih (dvd_alignUp _ _) b hb

theorem stop_le_of_mem_pack : ∀ b ∈ c.pack next here total ns, b.stop ≤ c.cap := by
  refine pack_induction (P := fun _ bs => ∀ b ∈ bs, b.stop ≤ c.cap) (fun _ b hb => nomatch hb) ?_ ns
    next here total
  intro next n bs hcap ih b hb
  rcases List.mem_cons.mp hb with rfl | hb
  · exact (le_alignUp c.align_pos (next + n)).trans hcap
  · exact ih b hb

/-- Every block ends before the next ones begin. -/
theorem pairwise_pack : (c.pack next here total ns).Pairwise fun b b' => b.stop ≤ b'.offset := by
  have h : (∀ b ∈ c.pack next here total ns, next ≤ b.offset) ∧
      (c.pack next here total ns).Pairwise fun b b' => b.stop ≤ b'.offset := by
    refine pack_induction (P := fun next bs => (∀ b ∈ bs, next ≤ b.offset) ∧
      bs.Pairwise fun b b' => b.stop ≤ b'.offset)
      (fun _ => ⟨fun _ hb => absurd hb List.not_mem_nil, List.Pairwise.nil⟩) ?_
      ns next here total
    rintro next n bs _ ⟨hle, hpair⟩
    have hup := le_alignUp c.align_pos (next + n)
    refine ⟨fun b hb => ?_, List.pairwise_cons.mpr ⟨fun b hb => ?_, hpair⟩⟩
    · rcases List.mem_cons.mp hb with rfl | hb
      · exact le_rfl
      · have := hle b hb
        omega
    · exact hup.trans (hle b hb)
  exact h.2

/-- No block ends behind the last one. -/
theorem stop_le_getLast {t : ℕ} : ∀ {bs : List Slot}, bs.Pairwise (fun b b' => b.stop ≤ b'.offset) →
    ∀ b ∈ bs, b.stop ≤ bs.getLast?.elim t Slot.stop
  | [b], _, b', hb => by
    rw [List.mem_singleton.mp hb]
    exact le_rfl
  | b :: c :: bs, h, b', hb => by
    obtain ⟨hle, htail⟩ := List.pairwise_cons.mp h
    have ih := stop_le_getLast (t := t) htail
    rw [List.getLast?_cons_cons]
    rcases List.mem_cons.mp hb with rfl | hb
    · have hnext := hle c List.mem_cons_self
      have hlast := ih c List.mem_cons_self
      unfold Slot.stop at hnext hlast ⊢
      omega
    · exact ih b' hb

/-- The blocks have the sizes that they should have. -/
theorem map_size_pack : ∀ (ns : List ℕ) (next here total : ℕ),
    (c.pack next here total ns).map Slot.size = ns.take (c.pack next here total ns).length
  | [], _, _, _ => rfl
  | n :: ns, next, here, total => by
    rw [pack]
    split
    · rfl
    · split
      · rfl
      · exact congrArg (n :: ·) (map_size_pack ns _ _ _)

theorem length_pack : ∀ (ns : List ℕ) (next here total : ℕ), total < c.blocks →
    total + (c.pack next here total ns).length ≤ c.blocks
  | [], _, _, _, h => h.le
  | n :: ns, next, here, total, h => by
    rw [pack]
    split
    · exact h.le
    · split
      · exact h
      · rename_i here' hgo
        have hne := (goOn_cases hgo).1
        have ih := length_pack ns (alignUp c.align (next + n)) here' (total + 1) (by omega)
        rw [List.length_cons]
        omega

/-- The blocks that begin in the window `k`. -/
def countIn (c : Limits) (k : ℕ) (bs : List Slot) : ℕ := bs.countP fun b => b.offset / c.window = k

theorem countIn_cons (k : ℕ) (b : Slot) (bs : List Slot) :
    c.countIn k (b :: bs) = c.countIn k bs + if b.offset / c.window = k then 1 else 0 := by
  unfold countIn
  rw [List.countP_cons]
  simp only [decide_eq_true_eq]

/-- Behind a window there are no blocks of it. -/
theorem countIn_pack_of_lt {k : ℕ} (h : k < next / c.window) :
    c.countIn k (c.pack next here total ns) = 0 := by
  refine List.countP_eq_zero.mpr fun b hb hk => ?_
  have hle := Nat.div_le_div_right (c := c.window) (le_offset_of_mem_pack b hb)
  have hk' := of_decide_eq_true hk
  omega

/-- No window gets too many blocks. -/
theorem countIn_pack_le : ∀ (ns : List ℕ) (next here total : ℕ), here < c.perWindow → ∀ k,
    c.countIn k (c.pack next here total ns) + (if next / c.window = k then here else 0) ≤
      c.perWindow
  | [], next, here, total, h, k => by
    change 0 + _ ≤ _
    split_ifs <;> omega
  | n :: ns, next, here, total, h, k => by
    have hup := le_alignUp c.align_pos (next + n)
    have hdiv : next / c.window ≤ alignUp c.align (next + n) / c.window :=
      Nat.div_le_div_right (by omega)
    rw [pack]
    split
    · change 0 + _ ≤ _
      split_ifs <;> omega
    rw [countIn_cons]
    split
    · change 0 + _ + _ ≤ _
      split_ifs <;> omega
    · rename_i here' hgo
      obtain ⟨-, ⟨hwin, rfl, hne⟩ | ⟨hwin, rfl⟩⟩ := goOn_cases hgo
      · -- the next block begins in the same window
        have ih := countIn_pack_le ns (alignUp c.align (next + n)) (here + 1) (total + 1)
          (by omega) k
        rw [hwin] at ih
        dsimp only
        split_ifs at ih ⊢ <;> omega
      · have ih := countIn_pack_le ns (alignUp c.align (next + n)) 0 (total + 1) (by omega) k
        dsimp only
        by_cases hk : next / c.window = k
        · have hnone := @countIn_pack_of_lt c (alignUp c.align (next + n)) 0 (total + 1) ns k
            (by omega)
          rw [hnone, if_pos hk, if_pos hk]
          omega
        · rw [if_neg hk, if_neg hk]
          split_ifs at ih <;> omega

end Limits

end AlignedPacking
