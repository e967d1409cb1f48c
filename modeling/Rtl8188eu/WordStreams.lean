import Mathlib.Tactic
import Rtl8188eu.LiteralIndex

/-!
# Streams that are taken word by word

A hash takes its message in words of `k` items. A machine that is fed one item at a time keeps
the items of a word until it is full (`absorb`). What it is fed in one call or in many is the
same, and what it computes is the fold over the words (`absorbs_eq`).
-/

namespace WordStreams

variable {σ β : Type*}

/-- A state, and the items of a word that is not full yet. -/
structure Gather (σ β : Type*) where
  state : σ
  gathered : List β

/-- One more item. -/
def absorb (k : ℕ) (f : σ → List β → σ) (g : Gather σ β) (b : β) : Gather σ β :=
  if k ≤ g.gathered.length + 1 then ⟨f g.state (g.gathered ++ [b]), []⟩
  else ⟨g.state, g.gathered ++ [b]⟩

/-- The items `bs`, one by one. -/
def absorbs (k : ℕ) (f : σ → List β → σ) (g : Gather σ β) (bs : List β) : Gather σ β :=
  bs.foldl (absorb k f) g

/-- The first `n` words of `bs`. -/
def words (k : ℕ) : ℕ → List β → List (List β)
  | 0, _ => []
  | n + 1, bs => bs.take k :: words k n (bs.drop k)

variable {k : ℕ} {f : σ → List β → σ}

theorem absorbs_append (g : Gather σ β) (xs ys : List β) :
    absorbs k f g (xs ++ ys) = absorbs k f (absorbs k f g xs) ys :=
  List.foldl_append

/-- Items that do not fill the word are kept. -/
theorem absorbs_short (s : σ) : ∀ (bs xs : List β), xs.length + bs.length < k →
    absorbs k f ⟨s, xs⟩ bs = ⟨s, xs ++ bs⟩
  | [], xs, _ => by rw [List.append_nil]; rfl
  | b :: bs, xs, h => by
    rw [List.length_cons] at h
    have hkeep : absorb k f ⟨s, xs⟩ b = ⟨s, xs ++ [b]⟩ := if_neg (by dsimp only; omega)
    have hlen : (xs ++ [b]).length + bs.length < k := by
      rw [List.length_append, List.length_singleton]
      omega
    have hrest := absorbs_short s bs (xs ++ [b]) hlen
    rw [absorbs, List.foldl_cons, hkeep]
    rw [List.append_assoc, List.singleton_append] at hrest
    exact hrest

/-- A full word is taken. -/
theorem absorbs_word (s : σ) {bs : List β} (hk : 0 < k) (h : bs.length = k) :
    absorbs k f ⟨s, []⟩ bs = ⟨f s bs, []⟩ := by
  obtain rfl | ⟨xs, b, rfl⟩ := List.eq_nil_or_concat bs
  · exact absurd h (by rw [List.length_nil]; omega)
  · rw [List.concat_eq_append, List.length_append, List.length_singleton] at h
    have hshort := absorbs_short (k := k) (f := f) s xs [] (by rw [List.length_nil]; omega)
    rw [List.nil_append] at hshort
    rw [List.concat_eq_append, absorbs_append, hshort]
    exact if_pos (by dsimp only; omega)

/-- A string of whole words is the fold over its words. -/
theorem absorbs_eq (hk : 0 < k) : ∀ (n : ℕ) (s : σ) (bs : List β), bs.length = n * k →
    absorbs k f ⟨s, []⟩ bs = ⟨(words k n bs).foldl f s, []⟩
  | 0, s, bs, h => by
    obtain rfl := List.eq_nil_of_length_eq_zero (h.trans (Nat.zero_mul k))
    rfl
  | n + 1, s, bs, h => by
    rw [Nat.add_mul, Nat.one_mul] at h
    have htake : (bs.take k).length = k := by rw [List.length_take]; omega
    have hdrop : (bs.drop k).length = n * k := by rw [List.length_drop]; omega
    have hsplit : absorbs k f ⟨s, []⟩ bs = absorbs k f (absorbs k f ⟨s, []⟩ (bs.take k))
      (bs.drop k) := by
      rw [← absorbs_append, List.take_append_drop]
    rw [hsplit, absorbs_word s hk htake, absorbs_eq hk n (f s (bs.take k)) (bs.drop k) hdrop]
    rfl

theorem length_gathered_absorb {g : Gather σ β} (hg : g.gathered.length < k) (b : β) :
    (absorb k f g b).gathered.length = (g.gathered.length + 1) % k := by
  unfold absorb
  split_ifs with h
  · obtain hfull : g.gathered.length + 1 = k := by omega
    rw [hfull, Nat.mod_self]
    rfl
  · rw [Nat.mod_eq_of_lt (by omega), List.length_append, List.length_singleton]

/-- The items of the last word count those that are left over. -/
theorem length_gathered (hk : 0 < k) : ∀ (bs : List β) {g : Gather σ β}, g.gathered.length < k →
    (absorbs k f g bs).gathered.length = (g.gathered.length + bs.length) % k
  | [], g, hg => (Nat.mod_eq_of_lt hg).symm
  | b :: bs, g, hg => by
    have hb := length_gathered_absorb (f := f) hg b
    have hlt : (absorb k f g b).gathered.length < k := hb ▸ Nat.mod_lt _ hk
    rw [absorbs, List.foldl_cons]
    change (absorbs k f (absorb k f g b) bs).gathered.length = _
    rw [length_gathered hk bs hlt, hb, Nat.mod_add_mod, List.length_cons, Nat.add_assoc,
      Nat.add_comm 1]

end WordStreams
