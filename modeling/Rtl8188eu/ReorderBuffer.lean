import Mathlib.Data.List.Chain
import Mathlib.Data.List.Pairwise
import Mathlib.Tactic
import Rtl8188eu.LiteralIndex

/-!
# A reorder buffer

Items with positions arrive out of order and are released in order. The buffer waits for
position `start`. An item at `start` or later is kept (`push`), and an item beyond the
window of `w` positions moves the window up to it. `drain` then releases the items up to
`start`. `flush` gives up waiting and releases from the first item that is there.

`Valid` is the invariant : the pending items are in strictly increasing order inside the
window, and each released item is ahead of the one before it by at most `h`. It is kept
by `push`, for items less than `h` ahead of the window (`valid_push`), and by `flush`
(`valid_flush`). Nothing is lost : the released and the pending items are those there
were before, and the new one (`perm_push`, `items_flush`).
-/

namespace ReorderBuffer

variable {ι : Type*}

/-- Insert an item by its position, or `none` if the position is taken. -/
def place (x : ι × ℕ) : List (ι × ℕ) → Option (List (ι × ℕ))
  | [] => some [x]
  | y :: ys =>
    if y.2 < x.2 then (place x ys).map (y :: ·)
    else if y.2 = x.2 then none
    else some (x :: y :: ys)

/-- Release the items up to position `start`, which moves on with each item found there.
The released items, the new start, and the items that stay. -/
def drain : ℕ → List (ι × ℕ) → List (ι × ℕ) × ℕ × List (ι × ℕ)
  | start, [] => ([], start, [])
  | start, y :: ys =>
    if start < y.2 then ([], start, y :: ys)
    else
      let r := drain (if y.2 = start then start + 1 else start) ys
      (y :: r.1, r.2)

/-- The start of a window of `w` positions after the arrival of an item at `pos`. -/
def advance (w start pos : ℕ) : ℕ :=
  if pos = start then start + 1
  else if start + w ≤ pos then pos + 1 - w
  else start

/-! ## Inserting and releasing -/

theorem place_perm {x : ι × ℕ} :
    ∀ {l l' : List (ι × ℕ)}, place x l = some l' → l'.Perm (x :: l)
  | [], l', h => by
    cases h
    exact List.Perm.refl _
  | y :: ys, l', h => by
    unfold place at h
    split_ifs at h
    · obtain ⟨m, hm, rfl⟩ := Option.map_eq_some_iff.mp h
      exact ((place_perm hm).cons y).trans (List.Perm.swap x y ys)
    · cases h
      exact List.Perm.refl _

/-- An item is dropped only if its position is taken. -/
theorem exists_of_place_eq_none {x : ι × ℕ} :
    ∀ {l : List (ι × ℕ)}, place x l = none → ∃ y ∈ l, y.2 = x.2
  | [], h => by simp [place] at h
  | y :: ys, h => by
    unfold place at h
    split_ifs at h with h1 h2
    · obtain ⟨z, hz, he⟩ := exists_of_place_eq_none (Option.map_eq_none_iff.mp h)
      exact ⟨z, List.mem_cons_of_mem y hz, he⟩
    · exact ⟨y, List.mem_cons_self .., h2⟩

theorem place_sorted {x : ι × ℕ} :
    ∀ {l l' : List (ι × ℕ)}, l.Pairwise (·.2 < ·.2) → place x l = some l' →
      l'.Pairwise (·.2 < ·.2)
  | [], l', _, h => by
    cases h
    simp
  | y :: ys, l', hl, h => by
    rw [List.pairwise_cons] at hl
    unfold place at h
    split_ifs at h with h1 h2
    · obtain ⟨m, hm, rfl⟩ := Option.map_eq_some_iff.mp h
      rw [List.pairwise_cons]
      refine ⟨fun z hz => ?_, place_sorted hl.2 hm⟩
      rcases List.mem_cons.mp ((place_perm hm).mem_iff.mp hz) with rfl | hz
      · exact h1
      · exact hl.1 z hz
    · cases h
      rw [List.pairwise_cons, List.pairwise_cons]
      refine ⟨fun z hz => ?_, hl⟩
      rcases List.mem_cons.mp hz with rfl | hz
      · omega
      · have := hl.1 z hz
        omega

/-- The first item after an insertion is at most the first item before it. -/
theorem head_place_le {x y z : ι × ℕ} {l l' : List (ι × ℕ)} (h : place x l = some l')
    (hy : y ∈ l.head?) (hz : z ∈ l'.head?) : z.2 ≤ y.2 := by
  cases l with
  | nil => simp at hy
  | cons a as =>
    obtain rfl : a = y := by simpa using hy
    unfold place at h
    split_ifs at h with h1 h2
    · obtain ⟨m, -, rfl⟩ := Option.map_eq_some_iff.mp h
      obtain rfl : a = z := by simpa using hz
      exact le_rfl
    · cases h
      obtain rfl : x = z := by simpa using hz
      omega

theorem drain_cons_lt {start : ℕ} {y : ι × ℕ} (ys : List (ι × ℕ)) (h : start < y.2) :
    drain start (y :: ys) = ([], start, y :: ys) := by
  rw [drain, if_pos h]

theorem drain_cons_eq (y : ι × ℕ) (ys : List (ι × ℕ)) :
    drain y.2 (y :: ys) = (y :: (drain (y.2 + 1) ys).1, (drain (y.2 + 1) ys).2) := by
  rw [drain, if_neg (lt_irrefl _), if_pos rfl]

theorem drain_cons_gt {start : ℕ} {y : ι × ℕ} (ys : List (ι × ℕ)) (h : y.2 < start) :
    drain start (y :: ys) = (y :: (drain start ys).1, (drain start ys).2) := by
  rw [drain, if_neg (by omega), if_neg (by omega)]

theorem drain_append : ∀ (start : ℕ) (l : List (ι × ℕ)),
    (drain start l).1 ++ (drain start l).2.2 = l
  | _, [] => rfl
  | start, y :: ys => by
    rcases lt_trichotomy start y.2 with h | rfl | h
    · simp [drain_cons_lt ys h]
    · simp [drain_cons_eq, drain_append _ ys]
    · simp [drain_cons_gt ys h, drain_append _ ys]

theorem le_drain : ∀ (start : ℕ) (l : List (ι × ℕ)), start ≤ (drain start l).2.1
  | _, [] => le_rfl
  | start, y :: ys => by
    rcases lt_trichotomy start y.2 with h | rfl | h
    · simp [drain_cons_lt ys h]
    · rw [drain_cons_eq]
      exact (Nat.le_succ _).trans (le_drain (y.2 + 1) ys)
    · rw [drain_cons_gt ys h]
      exact le_drain start ys

/-- Released items are behind the new start. -/
theorem lt_drain : ∀ (start : ℕ) (l : List (ι × ℕ)), ∀ x ∈ (drain start l).1,
    x.2 < (drain start l).2.1
  | _, [], x, hx => by simp [drain] at hx
  | start, y :: ys, x, hx => by
    rcases lt_trichotomy start y.2 with h | rfl | h
    · simp [drain_cons_lt ys h] at hx
    · rw [drain_cons_eq] at hx ⊢
      rcases List.mem_cons.mp hx with rfl | hx
      · exact le_drain (x.2 + 1) ys
      · exact lt_drain _ ys x hx
    · rw [drain_cons_gt ys h] at hx ⊢
      rcases List.mem_cons.mp hx with rfl | hx
      · exact h.trans_le (le_drain start ys)
      · exact lt_drain _ ys x hx

/-- Items that stay are ahead of the new start. -/
theorem drain_lt : ∀ (start : ℕ) {l : List (ι × ℕ)}, l.Pairwise (·.2 < ·.2) →
    ∀ y ∈ (drain start l).2.2, (drain start l).2.1 < y.2
  | _, [], _, y, hy => by simp [drain] at hy
  | start, z :: zs, hl, y, hy => by
    rw [List.pairwise_cons] at hl
    rcases lt_trichotomy start z.2 with h | rfl | h
    · rw [drain_cons_lt zs h] at hy ⊢
      rcases List.mem_cons.mp hy with rfl | hy
      · exact h
      · exact h.trans (hl.1 y hy)
    · rw [drain_cons_eq] at hy ⊢
      exact drain_lt _ hl.2 y hy
    · rw [drain_cons_gt zs h] at hy ⊢
      exact drain_lt _ hl.2 y hy

/-- When every item is released, the new start is just behind the last one. -/
theorem drain_all : ∀ (start : ℕ) {l : List (ι × ℕ)} {x : ι × ℕ}, (drain start l).2.2 = [] →
    x ∈ l.getLast? → start ≤ x.2 + 1 → l.Pairwise (·.2 < ·.2) → (drain start l).2.1 = x.2 + 1
  | _, [], _, _, hx, _, _ => by simp at hx
  | start, [y], x, h, hx, hs, _ => by
    obtain rfl : y = x := by simpa using hx
    rcases lt_trichotomy start y.2 with hlt | rfl | hlt
    · simp [drain_cons_lt [] hlt] at h
    · simp [drain]
    · rw [drain_cons_gt [] hlt, drain]
      exact le_antisymm hs hlt
  | start, y :: z :: zs, x, h, hx, hs, hl => by
    rw [List.pairwise_cons] at hl
    have hx' : x ∈ (z :: zs).getLast? := by simpa [List.getLast?_cons_cons] using hx
    have hyx : y.2 < x.2 := hl.1 x (List.mem_of_getLast? hx')
    rcases lt_trichotomy start y.2 with hlt | rfl | hlt
    · simp [drain_cons_lt (z :: zs) hlt] at h
    · rw [drain_cons_eq] at h ⊢
      exact drain_all _ h hx' (by omega) hl.2
    · rw [drain_cons_gt (z :: zs) hlt] at h ⊢
      exact drain_all _ h hx' hs hl.2

/-! ## The buffer -/

/-- A reorder buffer : the position it waits for, the items it keeps, and the items it
released, the first one first. -/
structure Buffer (ι : Type*) where
  start : ℕ
  pending : List (ι × ℕ)
  released : List (ι × ℕ)

namespace Buffer

/-- The buffer after releasing up to `start` from the items `l`. -/
def drainFrom (b : Buffer ι) (start : ℕ) (l : List (ι × ℕ)) : Buffer ι :=
  ⟨(drain start l).2.1, (drain start l).2.2, b.released ++ (drain start l).1⟩

/-- An item arrives. It is dropped (`none`) if its position is taken. -/
def push (w : ℕ) (b : Buffer ι) (x : ι × ℕ) : Option (Buffer ι) :=
  (place x b.pending).map (b.drainFrom (advance w b.start x.2))

/-- Release from the first item that is there. -/
def flush (b : Buffer ι) : Buffer ι :=
  match b.pending with
  | [] => b
  | y :: _ => b.drainFrom y.2 b.pending

/-- The invariant, for a window of `w` and steps of at most `h` positions. -/
structure Valid (w h : ℕ) (b : Buffer ι) : Prop where
  sorted : b.pending.Pairwise (·.2 < ·.2)
  window : ∀ y ∈ b.pending, b.start < y.2 ∧ y.2 < b.start + w
  steps : b.released.IsChain fun x y => x.2 < y.2 ∧ y.2 ≤ x.2 + h
  last : ∀ x ∈ b.released.getLast?, x.2 < b.start
  next : ∀ x ∈ b.released.getLast?, ∀ y ∈ b.pending.head?, y.2 ≤ x.2 + h
  empty : b.pending = [] → ∃ x ∈ b.released.getLast?, b.start = x.2 + 1

/-- Releasing from a sorted list keeps the invariant, if the list is at most `h` wide, in
the window, and begins at most `h` after what was released before. -/
theorem valid_drainFrom {w h : ℕ} {b : Buffer ι} {start : ℕ} {l : List (ι × ℕ)}
    (hb : b.Valid w h) (hl : l.Pairwise (·.2 < ·.2)) (hne : l ≠ [])
    (hlow : ∀ x ∈ b.released.getLast?, ∀ y ∈ l, x.2 < y.2)
    (hwide : ∀ x ∈ l, ∀ y ∈ l, y.2 ≤ x.2 + h)
    (hnext : ∀ x ∈ b.released.getLast?, ∀ y ∈ l.head?, y.2 ≤ x.2 + h)
    (hwin : ∀ y ∈ l, y.2 < start + w) (hlast : ∀ x ∈ l.getLast?, start ≤ x.2 + 1)
    (hstart : b.start ≤ start) : (b.drainFrom start l).Valid w h := by
  have happ := drain_append start l
  set d := (drain start l).1 with hd
  set r := (drain start l).2.2 with hr
  have hdl : ∀ x ∈ d, x ∈ l := fun x hx => happ ▸ List.mem_append_left r hx
  have hrl : ∀ x ∈ r, x ∈ l := fun x hx => happ ▸ List.mem_append_right d hx
  have hdsort : d.Pairwise (·.2 < ·.2) := (List.pairwise_append.mp (happ ▸ hl)).1
  have hhead : ∀ x ∈ d.head?, x ∈ l.head? := by
    intro x hx
    rw [← happ, List.head?_append]
    simp [Option.mem_def.mp hx]
  refine ⟨(List.pairwise_append.mp (happ ▸ hl)).2.1, fun y hy => ⟨drain_lt start hl y hy, ?_⟩,
    ?_, ?_, ?_, ?_⟩
  · exact (hwin y (hrl y hy)).trans_le (Nat.add_le_add_right (le_drain start l) w)
  · rw [drainFrom, List.isChain_append]
    refine ⟨hb.steps, ?_, fun x hx y hy => ?_⟩
    · refine (List.Pairwise.imp_of_mem (fun hx hy hxy => ?_) hdsort).isChain
      exact ⟨hxy, hwide _ (hdl _ hx) _ (hdl _ hy)⟩
    · have hy' := hhead y hy
      exact ⟨hlow x hx y (List.mem_of_mem_head? hy'), hnext x hx y hy'⟩
  · intro x hx
    rw [drainFrom, List.getLast?_append] at hx
    cases hlast' : d.getLast? with
    | none =>
      rw [← hd, hlast', Option.none_or] at hx
      exact ((hb.last x hx).trans_le hstart).trans_le (le_drain start l)
    | some z =>
      rw [← hd, hlast', Option.some_or] at hx
      cases hx
      exact lt_drain start l _ (List.mem_of_getLast? hlast')
  · intro x hx y hy
    rw [drainFrom, List.getLast?_append] at hx
    have hyr : y ∈ r := List.mem_of_mem_head? hy
    cases hlast' : d.getLast? with
    | none =>
      rw [← hd, hlast', Option.none_or] at hx
      have hdnil : d = [] := List.getLast?_eq_none_iff.mp hlast'
      refine hnext x hx y ?_
      rw [← happ, hdnil]
      exact hy
    | some z =>
      rw [← hd, hlast', Option.some_or] at hx
      cases hx
      exact hwide _ (hdl _ (List.mem_of_getLast? hlast')) y (hrl y hyr)
  · intro hnil
    have hrnil : r = [] := hnil
    have hdall : d = l := by rw [← happ, hrnil, List.append_nil]
    obtain ⟨x, hx⟩ : ∃ x, x ∈ l.getLast? := by
      cases hlast' : l.getLast? with
      | none => exact absurd (List.getLast?_eq_none_iff.mp hlast') hne
      | some z => exact ⟨z, rfl⟩
    refine ⟨x, ?_, drain_all start hnil hx (hlast x hx) hl⟩
    rw [drainFrom, List.getLast?_append, ← hd, hdall, Option.mem_def.mp hx]
    rfl

theorem le_advance {w : ℕ} (start pos : ℕ) (h : start ≤ pos) (hw : 1 ≤ w) :
    start ≤ advance w start pos ∧ advance w start pos ≤ pos + 1 ∧ pos < advance w start pos + w ∧
      start + w ≤ advance w start pos + w := by
  unfold advance
  split_ifs <;> omega

/-- In a sorted list no item is behind the last one. -/
theorem le_last {l : List (ι × ℕ)} (hl : l.Pairwise (·.2 < ·.2)) {x y : ι × ℕ} (hx : x ∈ l)
    (hy : y ∈ l.getLast?) : x.2 ≤ y.2 := by
  obtain ⟨l', rfl⟩ := List.getLast?_eq_some_iff.mp hy
  rcases List.mem_append.mp hx with hx | hx
  · exact ((List.pairwise_append.mp hl).2.2 x hx y (by simp)).le
  · obtain rfl := List.mem_singleton.mp hx
    exact le_rfl

/-- The arrival of an item less than `h` ahead of the window keeps the invariant. -/
theorem valid_push {w h : ℕ} (hw : 1 ≤ w) (hwh : w ≤ h) {b b' : Buffer ι} {x : ι × ℕ}
    (hb : b.Valid w h) (hx : b.start ≤ x.2) (hxh : x.2 < b.start + h)
    (hp : b.push w x = some b') : b'.Valid w h := by
  obtain ⟨l, hl, rfl⟩ := Option.map_eq_some_iff.mp hp
  have hmem : ∀ y ∈ l, y = x ∨ y ∈ b.pending := fun y hy =>
    List.mem_cons.mp ((place_perm hl).mem_iff.mp hy)
  have hxl : x ∈ l := (place_perm hl).mem_iff.mpr (List.mem_cons_self ..)
  have hlo : ∀ y ∈ l, b.start ≤ y.2 ∧ y.2 < b.start + h := by
    intro y hy
    rcases hmem y hy with rfl | hy
    · exact ⟨hx, hxh⟩
    · have := hb.window y hy
      omega
  have hsort := place_sorted hb.sorted hl
  obtain ⟨ha1, ha2, ha3, ha4⟩ := le_advance b.start x.2 hx hw
  refine valid_drainFrom hb hsort (List.ne_nil_of_mem hxl) ?_ ?_ ?_ ?_ ?_ ha1
  · intro z hz y hy
    exact (hb.last z hz).trans_le (hlo y hy).1
  · intro y hy z hz
    have := hlo y hy
    have := hlo z hz
    omega
  · intro z hz y hy
    cases hpend : b.pending with
    | nil =>
      obtain ⟨z', hz', hstart⟩ := hb.empty hpend
      obtain rfl : z' = z := Option.some.inj ((Option.mem_def.mp hz').symm.trans hz)
      have := hlo y (List.mem_of_mem_head? hy)
      omega
    | cons a as =>
      have ha : a ∈ b.pending.head? := by rw [hpend]; rfl
      exact (head_place_le hl ha hy).trans (hb.next z hz a ha)
  · intro y hy
    rcases hmem y hy with rfl | hy
    · exact ha3
    · exact (hb.window y hy).2.trans_le ha4
  · intro y hy
    exact ha2.trans (Nat.add_le_add_right (le_last hsort hxl hy) 1)

/-- Giving up waiting keeps the invariant. -/
theorem valid_flush {w h : ℕ} (hwh : w ≤ h) {b : Buffer ι} (hb : b.Valid w h) :
    b.flush.Valid w h := by
  unfold flush
  cases hpend : b.pending with
  | nil => exact hb
  | cons y ys =>
    dsimp only
    rw [← hpend]
    have hy : y ∈ b.pending := by rw [hpend]; exact List.mem_cons_self ..
    have hwy := hb.window y hy
    refine valid_drainFrom hb hb.sorted (List.ne_nil_of_mem hy) ?_ ?_ hb.next ?_ ?_ hwy.1.le
    · intro x hx z hz
      exact (hb.last x hx).trans (hb.window z hz).1
    · intro x hx z hz
      have := hb.window x hx
      have := hb.window z hz
      omega
    · intro z hz
      have := hb.window z hz
      omega
    · intro z hz
      exact (le_last hb.sorted hy hz).trans (Nat.le_succ _)

/-- An arrival adds its item, and loses none. -/
theorem perm_push {w : ℕ} {b b' : Buffer ι} {x : ι × ℕ} (hp : b.push w x = some b') :
    (b'.released ++ b'.pending).Perm (x :: (b.released ++ b.pending)) := by
  obtain ⟨l, hl, rfl⟩ := Option.map_eq_some_iff.mp hp
  simp only [drainFrom, List.append_assoc, drain_append]
  exact ((place_perm hl).append_left _).trans List.perm_middle

/-- Flushing adds and loses no item. -/
theorem items_flush (b : Buffer ι) :
    b.flush.released ++ b.flush.pending = b.released ++ b.pending := by
  unfold flush
  split
  · rfl
  · simp only [drainFrom, List.append_assoc, drain_append]

end Buffer

end ReorderBuffer
