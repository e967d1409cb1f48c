import Mathlib.Order.Basic
import Mathlib.Tactic
import Rtl8188eu.LiteralIndex

/-!
# The first best element of a list

A loop keeps a candidate and replaces it by an element that passes a test and is strictly better
(`better`). In the end it has the first one of the greatest value among the elements that pass
(`foldl_eq_some_iff`), or none if none passes.

A loop with a test that lets more elements pass finds the same one exactly when each of the
additional elements is beaten by one that passes both tests (`foldl_congr_iff`).
-/

namespace FirstMaximum

variable {α β : Type*} [LinearOrder β]

/-- `k` has the greatest value among the elements of `l` with `P`, and is the first of them that
has. -/
def IsFirstMax (P : α → Prop) (f : α → β) (l : List α) (k : α) : Prop :=
  ∃ pre post, l = pre ++ k :: post ∧ P k ∧ (∀ j ∈ pre, P j → f j < f k) ∧ ∀ j ∈ post, P j → f j ≤ f k

/-- The candidate after one more element. -/
def better (P : α → Prop) [DecidablePred P] (f : α → β) (candidate : Option α) (a : α) : Option α :=
  if P a then
    match candidate with
    | none => some a
    | some c => if f c < f a then some a else some c
  else candidate

variable {P Q : α → Prop} {f : α → β} {l : List α} {k : α}

theorem IsFirstMax.holds (h : IsFirstMax P f l k) : P k := by
  obtain ⟨pre, post, -, hk, -⟩ := h
  exact hk

theorem IsFirstMax.mem (h : IsFirstMax P f l k) : k ∈ l := by
  obtain ⟨pre, post, rfl, -⟩ := h
  simp

theorem IsFirstMax.le (h : IsFirstMax P f l k) {a : α} (ha : a ∈ l) (hp : P a) : f a ≤ f k := by
  obtain ⟨pre, post, rfl, -, hpre, hpost⟩ := h
  rcases List.mem_append.mp ha with ha | ha
  · exact (hpre a ha hp).le
  · rcases List.mem_cons.mp ha with rfl | ha
    · exact le_rfl
    · exact hpost a ha hp

/-- Where two elements stand in a list. -/
theorem split_cases {pre post pre' post' : List α} {a b : α}
    (h : pre ++ a :: post = pre' ++ b :: post') :
    a = b ∨ (a ∈ pre' ∧ b ∈ post) ∨ (b ∈ pre ∧ a ∈ post') := by
  rcases List.append_eq_append_iff.mp h with ⟨mid, hpre, htail⟩ | ⟨mid, hpre, htail⟩
  · cases mid with
    | nil => exact Or.inl (List.cons.inj htail).1
    | cons x mid =>
      obtain ⟨rfl, hpost⟩ := List.cons.inj htail
      exact Or.inr (Or.inl ⟨by rw [hpre]; simp, by rw [hpost]; simp⟩)
  · cases mid with
    | nil => exact Or.inl (List.cons.inj htail).1.symm
    | cons x mid =>
      obtain ⟨rfl, hpost⟩ := List.cons.inj htail
      exact Or.inr (Or.inr ⟨by rw [hpre]; simp, by rw [hpost]; simp⟩)

/-- An element at a place is the first best one, or it is beaten. -/
theorem IsFirstMax.cases (h : IsFirstMax P f l k) {pre post : List α} {a : α}
    (hl : l = pre ++ a :: post) (hp : P a) :
    a = k ∨ (k ∈ pre ∧ f a ≤ f k) ∨ (k ∈ post ∧ f a < f k) := by
  obtain ⟨pre', post', hk, -, hpre, hpost⟩ := h
  rcases split_cases (hl.symm.trans hk) with rfl | ⟨ha, hin⟩ | ⟨hin, ha⟩
  · exact Or.inl rfl
  · exact Or.inr (Or.inr ⟨hin, hpre a ha hp⟩)
  · exact Or.inr (Or.inl ⟨hin, hpost a ha hp⟩)

theorem IsFirstMax.unique (h : IsFirstMax P f l k) {k' : α} (h' : IsFirstMax P f l k') :
    k = k' := by
  obtain ⟨pre, post, hl, hk, hpre, hpost⟩ := h
  rcases h'.cases hl hk with heq | ⟨hin, hle⟩ | ⟨hin, hlt⟩
  · exact heq
  · exact absurd hle (not_le.mpr (hpre k' hin h'.holds))
  · exact absurd hlt (not_lt.mpr (hpost k' hin h'.holds))

/-- A stronger test that the first best element passes. -/
theorem IsFirstMax.strengthen (h : IsFirstMax Q f l k) (hsub : ∀ a, P a → Q a) (hk : P k) :
    IsFirstMax P f l k := by
  obtain ⟨pre, post, hl, -, hpre, hpost⟩ := h
  exact ⟨pre, post, hl, hk,
    fun j hj hp => hpre j hj (hsub j hp), fun j hj hp => hpost j hj (hsub j hp)⟩

/-- One more element that is strictly better than all before it. -/
theorem isFirstMax_concat {a : α} (ha : P a) (h : ∀ j ∈ l, P j → f j < f a) :
    IsFirstMax P f (l ++ [a]) a :=
  ⟨l, [], rfl, ha, h, by simp⟩

/-- One more element that is not better. -/
theorem IsFirstMax.concat (h : IsFirstMax P f l k) {a : α} (ha : P a → f a ≤ f k) :
    IsFirstMax P f (l ++ [a]) k := by
  obtain ⟨pre, post, rfl, hk, hpre, hpost⟩ := h
  refine ⟨pre, post ++ [a], by simp, hk, hpre, fun j hj hp => ?_⟩
  rcases List.mem_append.mp hj with hj | hj
  · exact hpost j hj hp
  · rw [List.mem_singleton.mp hj] at hp ⊢
    exact ha hp

variable [DecidablePred P] [DecidablePred Q]

theorem better_none {a : α} (h : P a) : better P f none a = some a := if_pos h

theorem better_some {a c : α} (h : P a) :
    better P f (some c) a = if f c < f a then some a else some c := if_pos h

theorem better_of_not {a : α} (h : ¬P a) (candidate : Option α) :
    better P f candidate a = candidate := if_neg h

/-- What the loop has found. -/
theorem foldl_better (l : List α) :
    (l.foldl (better P f) none = none ∧ ∀ a ∈ l, ¬P a) ∨
      ∃ k, l.foldl (better P f) none = some k ∧ IsFirstMax P f l k := by
  induction l using List.reverseRecOn with
  | nil => exact Or.inl ⟨rfl, by simp⟩
  | append_singleton l a ih =>
    rw [List.foldl_append, List.foldl_cons, List.foldl_nil]
    rcases ih with ⟨hnone, hno⟩ | ⟨k, hsome, hmax⟩
    · rw [hnone]
      by_cases ha : P a
      · exact Or.inr ⟨a, better_none ha, isFirstMax_concat ha fun j hj hp => absurd hp (hno j hj)⟩
      · refine Or.inl ⟨better_of_not ha none, fun j hj => ?_⟩
        rcases List.mem_append.mp hj with hj | hj
        · exact hno j hj
        · rwa [List.mem_singleton.mp hj]
    · rw [hsome]
      by_cases ha : P a
      · rw [better_some ha]
        by_cases hlt : f k < f a
        · exact Or.inr ⟨a, by
            rw [if_pos hlt], isFirstMax_concat ha fun j hj hp => (hmax.le hj hp).trans_lt hlt⟩
        · exact Or.inr ⟨k, by rw [if_neg hlt], hmax.concat fun _ => not_lt.mp hlt⟩
      · exact Or.inr ⟨k, better_of_not ha _, hmax.concat fun hp => absurd hp ha⟩

theorem foldl_eq_some_iff : l.foldl (better P f) none = some k ↔ IsFirstMax P f l k := by
  rcases foldl_better (P := P) (f := f) l with ⟨hnone, hno⟩ | ⟨k', hsome, hmax⟩
  · rw [hnone]
    exact iff_of_false (by simp) fun h => hno k h.mem h.holds
  · rw [hsome, Option.some.injEq]
    exact ⟨fun h => h ▸ hmax, fun h => hmax.unique h⟩

theorem foldl_eq_none_iff : l.foldl (better P f) none = none ↔ ∀ a ∈ l, ¬P a := by
  rcases foldl_better (P := P) (f := f) l with ⟨hnone, hno⟩ | ⟨k, hsome, hmax⟩
  · exact iff_of_true hnone hno
  · rw [hsome]
    exact iff_of_false (by simp) fun h => h k hmax.mem hmax.holds

/-- Two loops, where the test of the first one lets more elements pass. -/
theorem foldl_congr_iff (hsub : ∀ a, P a → Q a) :
    l.foldl (better Q f) none = l.foldl (better P f) none ↔
      ∀ pre a post, l = pre ++ a :: post → Q a → ¬P a →
        (∃ j ∈ pre, P j ∧ f a ≤ f j) ∨ ∃ j ∈ post, P j ∧ f a < f j := by
  constructor
  · intro heq pre a post hl hq hp
    rcases foldl_better (P := Q) (f := f) l with ⟨-, hno⟩ | ⟨k, hsome, hmax⟩
    · exact absurd hq (hno a (by rw [hl]; simp))
    · rw [heq] at hsome
      have hk := (foldl_eq_some_iff.mp hsome).holds
      rcases hmax.cases hl hq with rfl | ⟨hin, hle⟩ | ⟨hin, hlt⟩
      · exact absurd hk hp
      · exact Or.inl ⟨k, hin, hk, hle⟩
      · exact Or.inr ⟨k, hin, hk, hlt⟩
  · intro h
    rcases foldl_better (P := Q) (f := f) l with ⟨hnone, hno⟩ | ⟨k, hsome, hmax⟩
    · rw [hnone, foldl_eq_none_iff.mpr fun a ha hp => hno a ha (hsub a hp)]
    · have hk : P k := by
        by_contra hk
        obtain ⟨pre, post, hl, hq, hpre, hpost⟩ := hmax
        rcases h pre k post hl hq hk with ⟨j, hj, hp, hle⟩ | ⟨j, hj, hp, hlt⟩
        · exact absurd (hpre j hj (hsub j hp)) (not_lt.mpr hle)
        · exact absurd (hpost j hj (hsub j hp)) (not_le.mpr hlt)
      rw [hsome, foldl_eq_some_iff.mpr (hmax.strengthen hsub hk)]

end FirstMaximum
