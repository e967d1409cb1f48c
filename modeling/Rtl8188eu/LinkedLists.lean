import Mathlib.Algebra.BigOperators.Group.Finset.Basic
import Mathlib.Data.Fintype.Basic
import Mathlib.Data.List.Count
import Mathlib.Tactic
import Rtl8188eu.LiteralIndex

/-!
# Items on linked lists

Intrusive linked lists : an item has one link, and a family of list heads says which
items are linked where. `unlink` takes an item off whatever list it is on, `addTail`
links it at the end of a list, `clear` forgets what is linked on a head.

`occ` counts how often an item is linked over all heads. The laws `occ_unlink`,
`occ_addTail` and `occ_clear` say what each operation does to the count, and `occ` gives
the two facts an owner wants : a list whose items are linked at most once has no
duplicates (`nodup_of_occ_le_one`), and an item linked once is on exactly one list
(`existsUnique_of_occ_eq_one`). `total` counts the items of all lists.
-/

set_option linter.unusedSectionVars false

namespace LinkedLists

variable {κ ι : Type*} [DecidableEq κ] [DecidableEq ι]

/-- Take `f` off the list it is on. -/
def unlink (q : κ → List ι) (f : ι) : κ → List ι := fun k => (q k).filter (· ≠ f)

/-- Link `f` at the end of the list with head `k`. -/
def addTail (q : κ → List ι) (k : κ) (f : ι) : κ → List ι :=
  Function.update q k (q k ++ [f])

/-- Make the list with head `k` empty, without unlinking its items. -/
def clear (q : κ → List ι) (k : κ) : κ → List ι := Function.update q k []

theorem mem_unlink {q : κ → List ι} {f g : ι} {k : κ} :
    g ∈ unlink q f k ↔ g ∈ q k ∧ g ≠ f := by
  simp [unlink]

theorem unlink_of_notMem {q : κ → List ι} {f : ι} {k : κ} (h : f ∉ q k) :
    unlink q f k = q k := by
  refine List.filter_eq_self.mpr fun g hg => ?_
  simpa using ne_of_mem_of_not_mem hg h

theorem count_unlink (q : κ → List ι) (f g : ι) (k : κ) :
    (unlink q f k).count g = if g = f then 0 else (q k).count g := by
  by_cases h : g = f
  · subst h
    simp [unlink, List.count_eq_zero]
  · rw [if_neg h]
    exact List.count_filter (by simpa using h)

theorem mem_addTail {q : κ → List ι} {f g : ι} {k j : κ} :
    g ∈ addTail q k f j ↔ g ∈ q j ∨ (j = k ∧ g = f) := by
  by_cases h : j = k
  · subst h
    simp [addTail]
  · simp [addTail, h]

/-! ## How often an item is linked -/

variable [Fintype κ]

/-- The number of times `f` is linked. -/
def occ (q : κ → List ι) (f : ι) : ℕ := ∑ k, (q k).count f

theorem occ_unlink (q : κ → List ι) (f g : ι) :
    occ (unlink q f) g = if g = f then 0 else occ q g := by
  unfold occ
  simp only [count_unlink]
  split_ifs <;> simp

/-- Replacing one list changes the count by what that list contributes. -/
theorem occ_update (q : κ → List ι) (k : κ) (l : List ι) (g : ι) :
    occ (Function.update q k l) g + (q k).count g = occ q g + l.count g := by
  unfold occ
  rw [← Finset.add_sum_erase Finset.univ (fun j => (q j).count g) (Finset.mem_univ k),
    ← Finset.add_sum_erase Finset.univ (fun j => (Function.update q k l j).count g)
      (Finset.mem_univ k)]
  have hsum : ∑ j ∈ Finset.univ.erase k, (Function.update q k l j).count g
      = ∑ j ∈ Finset.univ.erase k, (q j).count g := by
    refine Finset.sum_congr rfl fun j hj => ?_
    rw [Function.update_of_ne (Finset.ne_of_mem_erase hj)]
  rw [hsum, Function.update_self]
  omega

theorem occ_addTail (q : κ → List ι) (k : κ) (f g : ι) :
    occ (addTail q k f) g = occ q g + if g = f then 1 else 0 := by
  have h := occ_update q k (q k ++ [f]) g
  rw [List.count_append, List.count_singleton] at h
  unfold addTail
  by_cases hg : g = f
  · simp [hg] at h ⊢
    omega
  · have hg' : ¬ f = g := fun e => hg e.symm
    simp [hg, hg'] at h ⊢
    omega

theorem occ_clear (q : κ → List ι) (k : κ) (g : ι) :
    occ (clear q k) g = occ q g - (q k).count g := by
  have h := occ_update q k [] g
  simp only [List.count_nil] at h
  unfold clear
  omega

theorem count_le_occ (q : κ → List ι) (k : κ) (f : ι) : (q k).count f ≤ occ q f :=
  Finset.single_le_sum (f := fun j => (q j).count f) (fun _ _ => Nat.zero_le _)
    (Finset.mem_univ k)

theorem notMem_of_occ_eq_zero {q : κ → List ι} {f : ι} (h : occ q f = 0) (k : κ) :
    f ∉ q k := by
  have := count_le_occ q k f
  exact List.count_eq_zero.mp (by omega)

theorem unlink_of_occ_eq_zero {q : κ → List ι} {f : ι} (h : occ q f = 0) : unlink q f = q :=
  funext fun k => unlink_of_notMem (notMem_of_occ_eq_zero h k)

/-- A list whose items are linked at most once has no duplicates. -/
theorem nodup_of_occ_le_one {q : κ → List ι} (h : ∀ f, occ q f ≤ 1) (k : κ) : (q k).Nodup :=
  List.nodup_iff_count_le_one.mpr fun f => (count_le_occ q k f).trans (h f)

/-- An item linked at most once is on at most one list. -/
theorem eq_of_mem_of_mem {q : κ → List ι} {f : ι} (h : occ q f ≤ 1) {j k : κ}
    (hj : f ∈ q j) (hk : f ∈ q k) : j = k := by
  by_contra hne
  have h2 : (q j).count f + (q k).count f ≤ occ q f := by
    have hsub : ({j, k} : Finset κ) ⊆ Finset.univ := Finset.subset_univ _
    have := Finset.sum_le_sum_of_subset (f := fun i => (q i).count f) hsub
    rwa [Finset.sum_pair hne] at this
  have h3 := List.count_pos_iff.mpr hj
  have h4 := List.count_pos_iff.mpr hk
  omega

theorem exists_mem_of_occ_pos {q : κ → List ι} {f : ι} (h : 0 < occ q f) :
    ∃ k, f ∈ q k := by
  obtain ⟨k, -, hk⟩ := Finset.exists_ne_zero_of_sum_ne_zero (Nat.pos_iff_ne_zero.mp h)
  exact ⟨k, List.count_pos_iff.mp (Nat.pos_of_ne_zero hk)⟩

/-! ## How many items are linked -/

/-- The number of items on all lists. -/
def total (q : κ → List ι) : ℕ := ∑ k, (q k).length

theorem length_filter_ne (l : List ι) (f : ι) :
    (l.filter (· ≠ f)).length + l.count f = l.length := by
  rw [List.length_eq_countP_add_countP (· ≠ f) (l := l), List.countP_eq_length_filter, List.count]
  congr 1
  refine List.countP_congr fun g _ => ?_
  simp

theorem total_unlink (q : κ → List ι) (f : ι) : total (unlink q f) + occ q f = total q := by
  unfold total occ unlink
  rw [← Finset.sum_add_distrib]
  exact Finset.sum_congr rfl fun k _ => length_filter_ne (q k) f

theorem total_addTail (q : κ → List ι) (k : κ) (f : ι) : total (addTail q k f) = total q + 1 := by
  unfold total addTail
  rw [← Finset.add_sum_erase Finset.univ (fun j => (q j).length) (Finset.mem_univ k),
    ← Finset.add_sum_erase Finset.univ
      (fun j => (Function.update q k (q k ++ [f]) j).length) (Finset.mem_univ k)]
  have hsum : ∑ j ∈ Finset.univ.erase k, (Function.update q k (q k ++ [f]) j).length
      = ∑ j ∈ Finset.univ.erase k, (q j).length := by
    refine Finset.sum_congr rfl fun j hj => ?_
    rw [Function.update_of_ne (Finset.ne_of_mem_erase hj)]
  rw [hsum, Function.update_self, List.length_append, List.length_singleton]
  omega

/-- An item linked once is on exactly one list. -/
theorem existsUnique_of_occ_eq_one {q : κ → List ι} {f : ι} (h : occ q f = 1) :
    ∃! k, f ∈ q k := by
  obtain ⟨k, hk⟩ := exists_mem_of_occ_pos (by omega : 0 < occ q f)
  exact ⟨k, hk, fun j hj => eq_of_mem_of_mem h.le hj hk⟩

end LinkedLists
