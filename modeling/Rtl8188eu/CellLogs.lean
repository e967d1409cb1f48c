import Mathlib.Data.List.GetD
import Mathlib.Logic.Function.Basic
import Mathlib.Tactic
import Rtl8188eu.LiteralIndex

/-!
# Logs in write-once cells

A store of cells that are blank until they are written. `image blank bs` is the store in which the
first cells hold `bs` and the others are blank. A log grows by writing its first blank cell
(`update_image`), and what follows a prefix of the log is the image of the rest
(`image_append_add`).
-/

namespace CellLog

variable {β : Type*} (blank : β)

/-- The cells of a log. -/
def image (bs : List β) : ℕ → β := fun a => bs.getD a blank

theorem image_of_le {bs : List β} {a : ℕ} (h : bs.length ≤ a) : image blank bs a = blank := by
  rw [image, List.getD_eq_default _ _ h]

@[simp] theorem image_nil (a : ℕ) : image blank [] a = blank := rfl

theorem image_append_add (as bs : List β) (i : ℕ) :
    image blank (as ++ bs) (as.length + i) = image blank bs i := by
  rw [image, List.getD_append_right _ _ _ _ (by omega), Nat.add_sub_cancel_left, image]

@[simp] theorem image_cons_zero (b : β) (bs : List β) : image blank (b :: bs) 0 = b := rfl

@[simp] theorem image_cons_succ (b : β) (bs : List β) (i : ℕ) :
    image blank (b :: bs) (i + 1) = image blank bs i := rfl

/-- The first blank cell is written. -/
theorem update_image (bs : List β) (b : β) :
    Function.update (image blank bs) bs.length b = image blank (bs ++ [b]) := by
  ext a
  obtain h | rfl | h := lt_trichotomy a bs.length
  · rw [Function.update_of_ne h.ne, image, image, List.getD_append _ _ _ _ h]
  · have h := image_append_add blank bs [b] 0
    rw [Function.update_self]
    exact h.symm
  · have hlen : (bs ++ [b]).length ≤ a := by
      rw [List.length_append, List.length_singleton]
      omega
    rw [Function.update_of_ne h.ne', image_of_le blank h.le, image_of_le blank hlen]

/-- Blanks at the end of a log leave its cells alone. -/
theorem image_append_replicate (bs : List β) (n : ℕ) :
    image blank (bs ++ List.replicate n blank) = image blank bs := by
  ext a
  obtain h | h := lt_or_ge a bs.length
  · rw [image, image, List.getD_append _ _ _ _ h]
  · obtain ⟨i, rfl⟩ := Nat.exists_eq_add_of_le h
    rw [image_append_add, image_of_le blank h, image]
    obtain hi | hi := lt_or_ge i n
    · rw [List.getD_replicate _ hi]
    · rw [List.getD_eq_default _ _ (by simpa using hi)]

/-- From `base` on the cells are those of a log. -/
def IsImage (cells : ℕ → β) (base : ℕ) (bs : List β) : Prop := ∀ i, cells (base + i) = image blank bs i

variable {blank} {cells : ℕ → β} {base : ℕ} {as bs : List β}

theorem isImage_image (bs : List β) : IsImage blank (image blank bs) 0 bs :=
    fun i => by rw [Nat.zero_add]

theorem IsImage.append (h : IsImage blank cells base (as ++ bs)) :
    IsImage blank cells (base + as.length) bs := fun i => by
  rw [Nat.add_assoc, h, image_append_add]

theorem IsImage.head {b : β} (h : IsImage blank cells base (b :: bs)) : cells base = b := h 0

theorem IsImage.tail {b : β} (h : IsImage blank cells base (b :: bs)) :
    IsImage blank cells (base + 1) bs := fun i => by
  rw [Nat.add_assoc, Nat.add_comm 1 i, h, image_cons_succ]

theorem IsImage.nil (h : IsImage blank cells base []) : cells base = blank := h 0

end CellLog
