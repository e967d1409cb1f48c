import Mathlib.Data.List.Chain
import Mathlib.Tactic
import Rtl8188eu.LiteralIndex

/-!
# Spans of bytes in pages

A memory is divided into pages of `size` bytes, and page 0 begins at `base`. Lists of
spans lie in runs of pages. If each list is within its run (`Within`) and the runs
follow each other then no two lists have bytes in one page (`pairwise_apart`).
-/

namespace PagedLayout

/-- Consecutive bytes. -/
structure Span where
  start : ℕ
  length : ℕ
  deriving DecidableEq

variable (base size : ℕ)

/-- A byte of the span is in the page. -/
def Span.Touches (s : Span) (page : ℕ) : Prop :=
  ∃ b, s.start ≤ b ∧ b < s.start + s.length ∧
    base + size * page ≤ b ∧ b < base + size * (page + 1)

/-- Two lists of spans have no page in common. -/
def Apart (as bs : List Span) : Prop :=
  ∀ page, ¬ ((∃ s ∈ as, s.Touches base size page) ∧ ∃ s ∈ bs, s.Touches base size page)

/-- The spans are in `need` pages from page `first` on. -/
def Within (first need : ℕ) (spans : List Span) : Prop :=
  ∀ s ∈ spans, base + size * first ≤ s.start ∧ s.start + s.length ≤ base + size * (first + need)

variable {base size}

theorem Within.first_le {first need page : ℕ} {spans : List Span}
    (h : Within base size first need spans) {s : Span} (hs : s ∈ spans)
    (ht : s.Touches base size page) : first ≤ page ∧ page < first + need := by
  obtain ⟨b, hstart, hend, hpage, hnext⟩ := ht
  obtain ⟨hfirst, hlast⟩ := h s hs
  constructor
  · have hlt : size * first < size * (page + 1) := by omega
    exact Nat.lt_succ_iff.mp (Nat.lt_of_mul_lt_mul_left hlt)
  · have hlt : size * page < size * (first + need) := by omega
    exact Nat.lt_of_mul_lt_mul_left hlt

theorem Within.apart {first need first' need' : ℕ} {as bs : List Span}
    (ha : Within base size first need as) (hb : Within base size first' need' bs)
    (hle : first + need ≤ first') : Apart base size as bs := by
  rintro page ⟨⟨s, hs, hts⟩, ⟨t, ht, htt⟩⟩
  have h1 := (ha.first_le hs hts).2
  have h2 := (hb.first_le ht htt).1
  omega

/-- Spans with their run of pages. -/
structure Placement where
  first : ℕ
  need : ℕ
  spans : List Span

/-- The second run begins behind the first. -/
def Placement.Before (a b : Placement) : Prop := a.first + a.need ≤ b.first

instance : Trans Placement.Before Placement.Before Placement.Before where
  trans hab hbc := hab.trans ((Nat.le_add_right _ _).trans hbc)

/-- Runs of pages that follow each other. -/
theorem pairwise_apart {placements : List Placement} (hchain : placements.IsChain Placement.Before)
    (hwithin : ∀ a ∈ placements, Within base size a.first a.need a.spans) :
    (placements.map Placement.spans).Pairwise (Apart base size) := by
  rw [List.pairwise_map]
  refine hchain.pairwise.imp_of_mem fun ha hb hbefore => ?_
  exact (hwithin _ ha).apart (hwithin _ hb) hbefore

end PagedLayout
