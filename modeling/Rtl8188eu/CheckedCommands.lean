import Mathlib.Tactic
import Rtl8188eu.LiteralIndex

/-!
# Sequences of commands that may fail

Commands are issued one after another, and some of them are checked : the sequence is left when a
checked command fails. `exec` is the result and the commands that were issued. The sequence stops at
the first failure exactly if the first command that fails is a checked one (`stops_iff`).
-/

namespace CheckedCommands

variable {β : Type*} {ok : ℕ → Bool}

/-- The commands with their checks, from the `n`-th one on. `ok` says which commands succeed. -/
def exec (ok : ℕ → Bool) : ℕ → List (Bool × β) → Bool × List β
  | _, [] => (true, [])
  | n, (checked, w) :: ws =>
    if checked && !ok n then (false, [w])
    else ((exec ok (n + 1) ws).1, w :: (exec ok (n + 1) ws).2)

/-- The first command that fails is a checked one. -/
def FirstChecked (ok : ℕ → Bool) : ℕ → List (Bool × β) → Prop
  | _, [] => True
  | n, (checked, _) :: ws => if ok n = true then FirstChecked ok (n + 1) ws else checked = true

theorem exec_cons_of_ok {n : ℕ} {checked : Bool} {w : β} {ws : List (Bool × β)} (h : ok n = true) :
    exec ok n ((checked, w) :: ws) = ((exec ok (n + 1) ws).1, w :: (exec ok (n + 1) ws).2) := by
  rw [exec, h, Bool.not_true, Bool.and_false, if_neg Bool.false_ne_true]

theorem exec_cons_unchecked (n : ℕ) (w : β) (ws : List (Bool × β)) :
    exec ok n ((false, w) :: ws) = ((exec ok (n + 1) ws).1, w :: (exec ok (n + 1) ws).2) := by
  rw [exec, Bool.false_and, if_neg Bool.false_ne_true]

theorem exec_cons_checked {n : ℕ} {w : β} {ws : List (Bool × β)} (h : ok n = false) :
    exec ok n ((true, w) :: ws) = (false, [w]) := by
  rw [exec, h, Bool.not_false, Bool.and_self, if_pos rfl]

/-- Behind a sequence that is not left the next one goes on. -/
theorem exec_append : ∀ (n : ℕ) (as bs : List (Bool × β)), exec ok n (as ++ bs) =
    if (exec ok n as).1 then ((exec ok (n + as.length) bs).1,
      (exec ok n as).2 ++ (exec ok (n + as.length) bs).2)
    else exec ok n as
  | n, [], bs => rfl
  | n, (checked, w) :: as, bs => by
    have ih := exec_append (n + 1) as bs
    rw [Nat.add_right_comm] at ih
    rw [List.cons_append, exec, exec, ih, List.length_cons]
    by_cases hleft : (checked && !ok n) = true
    · rw [if_pos hleft, if_pos hleft, if_neg Bool.false_ne_true]
    · rw [if_neg hleft, if_neg hleft]
      split_ifs
      · rfl
      · rfl

/-- A sequence that is not left issues all its commands. -/
theorem exec_of_fst : ∀ {n : ℕ} {ws : List (Bool × β)}, (exec ok n ws).1 = true →
    (exec ok n ws).2 = ws.map Prod.snd
  | _, [], _ => rfl
  | n, (checked, w) :: ws, h => by
    rw [exec] at h ⊢
    split_ifs at h ⊢
    rw [exec_of_fst h, List.map_cons]

/-- Without a failure all commands are issued. -/
theorem exec_of_ok :
    ∀ {n : ℕ} {ws : List (Bool × β)}, (∀ k < (exec ok n ws).2.length, ok (n + k) = true) →
    exec ok n ws = (true, ws.map Prod.snd)
  | _, [], _ => rfl
  | n, (checked, w) :: ws, h => by
    have hfirst : ok n = true := by
      refine h 0 ?_
      rw [exec]
      split_ifs
      · exact Nat.one_pos
      · exact Nat.succ_pos _
    rw [exec_cons_of_ok hfirst] at h ⊢
    have hrest := @exec_of_ok (n + 1) ws fun k hk => by
      rw [Nat.add_assoc, Nat.add_comm 1]
      exact h (k + 1) (Nat.succ_lt_succ hk)
    rw [hrest, List.map_cons]

/-- The sequence is left behind every command that fails, and nothing is issued after it, exactly if
the first command that fails is a checked one. -/
theorem stops_iff : ∀ (n : ℕ) (ws : List (Bool × β)),
    (∀ k < (exec ok n ws).2.length, ok (n + k) = false →
        (exec ok n ws).1 = false ∧ (exec ok n ws).2.length = k + 1) ↔ FirstChecked ok n ws
  | n, [] => iff_of_true (fun k hk => absurd hk (Nat.not_lt_zero k)) trivial
  | n, (checked, w) :: ws => by
    rw [FirstChecked]
    cases hok : ok n with
    | true =>
      rw [if_pos rfl, ← stops_iff (n + 1) ws, exec_cons_of_ok hok]
      constructor
      · intro h k hk hfail
        obtain ⟨hres, hlen⟩ :=
          h (k + 1) (Nat.succ_lt_succ hk) (by rwa [Nat.add_assoc, Nat.add_comm 1] at hfail)
        exact ⟨hres, Nat.succ_inj.mp hlen⟩
      · intro h k hk hfail
        cases k with
        | zero => exact absurd (hfail.symm.trans hok) Bool.false_ne_true
        | succ k =>
          obtain ⟨hres, hlen⟩ :=
            h k (Nat.lt_of_succ_lt_succ hk) (by rwa [Nat.add_assoc, Nat.add_comm 1])
          exact ⟨hres, congrArg Nat.succ hlen⟩
    | false =>
      rw [if_neg Bool.false_ne_true]
      cases checked with
      | true =>
        rw [exec_cons_checked hok]
        exact iff_of_true (fun k hk _ => ⟨rfl, by rw [List.length_singleton] at hk ⊢; omega⟩) rfl
      | false =>
        rw [exec_cons_unchecked]
        refine iff_of_false (fun h => ?_) Bool.false_ne_true
        -- the rest of the sequence is issued behind the failure, or the result is a success
        obtain ⟨hres, hlen⟩ := h 0 (Nat.succ_pos _) hok
        have hnil : (exec ok (n + 1) ws).2 = [] := List.length_eq_zero_iff.mp (Nat.succ_inj.mp hlen)
        cases ws with
        | nil => cases hres
        | cons c ws =>
          rw [exec] at hnil
          split_ifs at hnil

theorem firstChecked_append : ∀ (n : ℕ) (as bs : List (Bool × β)), FirstChecked ok n (as ++ bs) ↔
    FirstChecked ok n as ∧
      ((∀ k < as.length, ok (n + k) = true) → FirstChecked ok (n + as.length) bs)
  | n, [], bs => by
    rw [List.nil_append, List.length_nil, Nat.add_zero]
    exact ⟨fun h => ⟨trivial, fun _ => h⟩, fun h => h.2 fun k hk => absurd hk (Nat.not_lt_zero k)⟩
  | n, (checked, w) :: as, bs => by
    have hlen : n + ((checked, w) :: as).length = n + 1 + as.length := by
      rw [List.length_cons]
      omega
    rw [List.cons_append, FirstChecked, FirstChecked, hlen]
    cases hok : ok n with
    | true =>
      rw [if_pos rfl, if_pos rfl, firstChecked_append (n + 1) as bs]
      refine and_congr_right
        fun _ => ⟨fun h hall => h fun k hk => ?_, fun h hall => h fun k hk => ?_⟩
      · rw [Nat.add_assoc, Nat.add_comm 1]
        exact hall (k + 1) (Nat.succ_lt_succ hk)
      · cases k with
        | zero => exact hok
        | succ k =>
          rw [← Nat.add_assoc, Nat.add_right_comm]
          exact hall k (Nat.lt_of_succ_lt_succ hk)
    | false =>
      rw [if_neg Bool.false_ne_true, if_neg Bool.false_ne_true]
      refine ⟨fun h => ⟨h, fun hall => ?_⟩, fun h => h.1⟩
      have h0 := hall 0 (Nat.succ_pos _)
      rw [Nat.add_zero, hok] at h0
      cases h0

/-- A sequence of checked commands. -/
theorem firstChecked_checked :
    ∀ (n : ℕ) (ws : List β), FirstChecked ok n (ws.map fun w => (true, w))
  | _, [] => trivial
  | n, w :: ws => by
    rw [List.map_cons, FirstChecked]
    split_ifs
    · exact firstChecked_checked (n + 1) ws
    · rfl

end CheckedCommands
