import Mathlib.Logic.Function.Basic
import Mathlib.Tactic
import Rtl8188eu.LiteralIndex

/-!
# Tables written through a polled register

The accesses to a register are writes and reads. A write is acknowledged if an idle status is
read behind it, before the next write (`Acknowledged`). A transaction is a write with the
reads that follow it, and transactions one after another are acknowledged if each one has an idle
status among its reads (`acknowledged_flatMap`).

Writes of a table leave the last value of each entry (`tableOf`).
-/

namespace PolledWrites

/-- An access to a register : a value that is written or one that is read. -/
inductive Access (α β : Type*) where
  | write (v : α)
  | read (v : β)
  deriving DecidableEq

section Accesses

variable {α β : Type*}

/-- The values read before the next write. -/
def leadingReads : List (Access α β) → List β
  | .read v :: l => v :: leadingReads l
  | _ => []

/-- The values written. -/
def writes : List (Access α β) → List α
  | [] => []
  | .write v :: l => v :: writes l
  | .read _ :: l => writes l

variable (idle : β → Prop)

/-- Each write is followed by a read of an idle status before the next one. -/
def Acknowledged : List (Access α β) → Prop
  | [] => True
  | .write _ :: l => (∃ v ∈ leadingReads l, idle v) ∧ Acknowledged l
  | .read _ :: l => Acknowledged l

/-- A write and the reads behind it. -/
def transaction (t : α × List β) : List (Access α β) := .write t.1 :: t.2.map .read

theorem writes_append : ∀ l l' : List (Access α β), writes (l ++ l') = writes l ++ writes l'
  | [], _ => rfl
  | .write v :: l, l' => congrArg (v :: ·) (writes_append l l')
  | .read _ :: l, l' => writes_append l l'

theorem writes_map_read : ∀ l : List β, writes (l.map .read : List (Access α β)) = []
  | [] => rfl
  | _ :: l => writes_map_read l

theorem writes_flatMap : ∀ ts : List (α × List β),
    writes (ts.flatMap transaction) = ts.map Prod.fst
  | [] => rfl
  | t :: ts => by
    rw [List.flatMap_cons, writes_append, transaction, writes, writes_map_read, writes_flatMap ts,
      List.map_cons, List.singleton_append]

/-- Behind a transaction the reads end. -/
theorem leadingReads_transactions (l : List β) (ts : List (α × List β)) :
    leadingReads (l.map .read ++ ts.flatMap transaction) = l := by
  induction l with
  | nil => cases ts <;> rfl
  | cons v l ih => exact congrArg (v :: ·) ih

theorem acknowledged_reads (l : List β) (l' : List (Access α β)) :
    Acknowledged idle (l.map .read ++ l') ↔ Acknowledged idle l' := by
  induction l with
  | nil => exact Iff.rfl
  | cons v l ih => exact ih

theorem acknowledged_flatMap : ∀ ts : List (α × List β),
    Acknowledged idle (ts.flatMap transaction) ↔ ∀ t ∈ ts, ∃ v ∈ t.2, idle v
  | [] => by simp [Acknowledged]
  | t :: ts => by
    rw [List.flatMap_cons, transaction, List.cons_append, Acknowledged, leadingReads_transactions,
      acknowledged_reads, acknowledged_flatMap ts, List.forall_mem_cons]

end Accesses

section Tables

variable {ι κ : Type*} [DecidableEq ι]

/-- An entry is written. -/
def setEntry (t : ι → Option κ) (w : ι × κ) : ι → Option κ := Function.update t w.1 (some w.2)

/-- The table that writes leave, with nothing where none was made. -/
def tableOf (ws : List (ι × κ)) : ι → Option κ :=
  ws.foldl setEntry fun _ => none

theorem foldl_of_notMem : ∀ (ws : List (ι × κ)) (t : ι → Option κ) (i : ι),
    i ∉ ws.map Prod.fst → ws.foldl setEntry t i = t i
  | [], _, _, _ => rfl
  | w :: ws, t, i, h => by
    rw [List.map_cons, List.mem_cons, not_or] at h
    rw [List.foldl_cons, foldl_of_notMem ws _ i h.2, setEntry, Function.update_of_ne h.1]

/-- An entry that is written once. -/
theorem tableOf_of_mem {ws : List (ι × κ)} (hnodup : (ws.map Prod.fst).Nodup) {i : ι} {v : κ}
    (hmem : (i, v) ∈ ws) : tableOf ws i = some v := by
  obtain ⟨as, bs, rfl⟩ := List.append_of_mem hmem
  rw [List.map_append, List.map_cons, List.nodup_append, List.nodup_cons] at hnodup
  rw [tableOf, List.foldl_append, List.foldl_cons, foldl_of_notMem bs _ i hnodup.2.1.1,
    setEntry, Function.update_self]

end Tables

end PolledWrites
