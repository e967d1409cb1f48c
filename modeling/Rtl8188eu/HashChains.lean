import Mathlib.Data.List.Nodup
import Mathlib.Logic.Function.Basic
import Mathlib.Tactic
import Rtl8188eu.LiteralIndex

/-!
# Hash chains with links to links

The entries of a hash table are linked in chains, one for each bucket. An entry points at the next
one, and it points back at the link that points at it, which is the head of the chain or the `next`
field of an entry. `link` puts an entry at the head of a chain, and `unlink` takes one out without a
look at its bucket.

`IsChain` says that the entries reached from a link are a given list, each with a pointer back to
the link to it, and `Chains` that the chains are the lists `C`, without an entry in two places.
`Chains.link` and `Chains.unlink` say what the operations do to the lists.
-/

set_option linter.unusedSectionVars false

namespace HashChains

variable {κ α : Type*} [DecidableEq κ] [DecidableEq α]

/-- A place with a pointer to an entry. -/
inductive Link (κ α : Type*) where
  | head (i : κ)
  | next (a : α)
deriving DecidableEq

/-- The pointers of a table. -/
structure Table (κ α : Type*) where
  head : κ → Option α
  next : α → Option α
  pprev : α → Option (Link κ α)

namespace Table

/-- What a link points at. -/
def get (t : Table κ α) : Link κ α → Option α
  | .head i => t.head i
  | .next a => t.next a

/-- Write a link. -/
def set (t : Table κ α) (l : Link κ α) (p : Option α) : Table κ α :=
  match l with
  | .head i => { t with head := Function.update t.head i p }
  | .next a => { t with next := Function.update t.next a p }

/-- The entry `p`, if there is one, gets a new pointer back. -/
def setPprev (t : Table κ α) (p : Option α) (l : Link κ α) : Table κ α :=
  match p with
  | some a => { t with pprev := Function.update t.pprev a (some l) }
  | none => t

/-- Link `a` at the head of the chain `i`. -/
def link (t : Table κ α) (a : α) (i : κ) : Table κ α :=
  let t₁ := { t with next := Function.update t.next a (t.head i) }
  let t₂ := (t₁.setPprev (t₁.next a) (.next a)).set (.head i) (some a)
  { t₂ with pprev := Function.update t₂.pprev a (some (.head i)) }

/-- Take `a` out, where `l` points at `a`. -/
def unlinkAt (t : Table κ α) (a : α) (l : Link κ α) : Table κ α :=
  let t₁ := t.set l (t.next a)
  let t₂ := t₁.setPprev (t₁.next a) l
  { t₂ with next := Function.update t₂.next a none, pprev := Function.update t₂.pprev a none }

/-- Take `a` out. An entry that is not linked has no link to write. -/
def unlink (t : Table κ α) (a : α) : Option (Table κ α) := (t.pprev a).map fun l => t.unlinkAt a l

variable {t t' : Table κ α} {l : Link κ α} {a b : α} {i : κ}

theorem get_set (t : Table κ α) (l l' : Link κ α) (p : Option α) :
    (t.set l p).get l' = if l' = l then p else t.get l' := by
  cases l <;> cases l' <;> simp [set, get, Function.update_apply]

@[simp] theorem pprev_set (t : Table κ α) (l : Link κ α) (p : Option α) :
    (t.set l p).pprev = t.pprev := by
  cases l <;> rfl

@[simp] theorem get_setPprev (t : Table κ α) (p : Option α) (l l' : Link κ α) :
    (t.setPprev p l).get l' = t.get l' := by
  cases p <;> cases l' <;> rfl

theorem pprev_setPprev (t : Table κ α) (p : Option α) (l : Link κ α) (b : α) :
    (t.setPprev p l).pprev b = if p = some b then some l else t.pprev b := by
  cases p with
  | none => simp [setPprev]
  | some a => simp [setPprev, Function.update_apply, eq_comm]

theorem get_link (t : Table κ α) (a : α) (i : κ) (l : Link κ α) :
    (t.link a i).get l =
      if l = .head i then some a else if l = .next a then t.head i else t.get l := by
  have h : (t.link a i).get l = (({ t with next := Function.update t.next a (t.head i) } :
      Table κ α).set (.head i) (some a)).get l := by
    unfold link
    cases l <;> simp [get, set, setPprev] <;> split <;> rfl
  rw [h, get_set]
  cases l with
  | head j => simp [get]
  | next b => simp [get, Function.update_apply]

theorem pprev_link (t : Table κ α) (a : α) (i : κ) (b : α) :
    (t.link a i).pprev b =
      if b = a then some (.head i) else if t.head i =
        some b then some (.next a) else t.pprev b := by
  simp [link, Function.update_apply, pprev_setPprev]

theorem get_unlinkAt (t : Table κ α) (a : α) (l l' : Link κ α) :
    (t.unlinkAt a l).get l' =
      if l' = .next a then none else if l' = l then t.next a else t.get l' := by
  have h : ∀ u : Table κ α, ∀ q : α → Option (Link κ α),
      ({ u with next := Function.update u.next a none, pprev := q } : Table κ α).get l' =
        if l' = .next a then none else u.get l' := by
    intro u q
    cases l' with
    | head j => simp [get]
    | next b => simp [get, Function.update_apply]
  rw [unlinkAt, h, get_setPprev, get_set]

theorem pprev_unlinkAt (t : Table κ α) (hl : l ≠ .next a) (b : α) :
    (t.unlinkAt a l).pprev b =
      if b = a then none else if t.next a = some b then some l else t.pprev b := by
  have hnext : (t.set l (t.next a)).next a = t.next a := by
    have := get_set t l (.next a) (t.next a)
    rwa [if_neg hl.symm] at this
  simp only [unlinkAt, hnext, Function.update_apply, pprev_setPprev, pprev_set]

end Table

/-! ## Chains -/

/-- The entries from the link `l` on are `as`. -/
def IsChain (t : Table κ α) : Link κ α → List α → Prop
  | l, [] => t.get l = none
  | l, a :: as => t.get l = some a ∧ t.pprev a = some l ∧ IsChain t (.next a) as

variable {t t' : Table κ α}

/-- A chain stays the same if its first link and the pointers of its entries do. -/
theorem IsChain.congr : ∀ {as : List α} {l : Link κ α}, IsChain t l as → t'.get l = t.get l →
    (∀ a ∈ as, t'.next a = t.next a ∧ t'.pprev a = t.pprev a) → IsChain t' l as
  | [], _, h, hl, _ => hl.trans h
  | a :: as, _, ⟨hget, hprev, hrest⟩, hl, hall => by
    obtain ⟨hn, hp⟩ := hall a List.mem_cons_self
    exact ⟨hl.trans hget, hp.trans hprev,
      hrest.congr hn fun b hb => hall b (List.mem_cons_of_mem _ hb)⟩

/-- The chains are the lists `C`, and no entry is in two places. -/
structure Chains (t : Table κ α) (C : κ → List α) : Prop where
  chain : ∀ i, IsChain t (.head i) (C i)
  nodup : ∀ i, (C i).Nodup
  disjoint : ∀ {i j a}, a ∈ C i → a ∈ C j → i = j

variable {C : κ → List α} {a : α} {i : κ}

/-- The head of a chain points at its first entry. -/
theorem Chains.head (h : Chains t C) (i : κ) : t.head i = (C i).head? := by
  have hc := h.chain i
  cases hC : C i with
  | nil =>
    rw [hC] at hc
    exact hc
  | cons a as =>
    rw [hC] at hc
    exact hc.1

/-- Who is in a chain after `a` was put at the head of one. -/
theorem mem_update_cons {b : α} {j : κ} :
    b ∈ Function.update C i (a :: C i) j ↔ (b = a ∧ j = i) ∨ b ∈ C j := by
  rcases eq_or_ne j i with rfl | hj
  · simp
  · simp [hj]

/-- Who is in a chain after `a` was taken out of one. -/
theorem Chains.mem_update (h : Chains t C) {pre post : List α} (hC : C i = pre ++ a :: post) {b : α}
    {j : κ} : b ∈ Function.update C i (pre ++ post) j ↔ b ∈ C j ∧ b ≠ a := by
  have hnodup := h.nodup i
  rw [hC, List.nodup_middle, List.nodup_cons] at hnodup
  rcases eq_or_ne j i with rfl | hj
  · rw [Function.update_self, hC]
    constructor
    · intro hb
      refine ⟨?_, ne_of_mem_of_not_mem hb hnodup.1⟩
      simp only [List.mem_append, List.mem_cons] at hb ⊢
      exact hb.imp id Or.inr
    · rintro ⟨hb, hne⟩
      simpa [hne] using hb
  · rw [Function.update_of_ne hj]
    refine (and_iff_left_of_imp ?_).symm
    rintro hb rfl
    exact hj (h.disjoint hb (by rw [hC]; simp))

theorem Chains.link (h : Chains t C) (ha : ∀ j, a ∉ C j) :
    Chains (t.link a i) (Function.update C i (a :: C i)) := by
  -- the first entry of the chain is the only other one whose pointers change
  have hsame : ∀ b, b ≠ a → t.head i ≠ some b →
      (t.link a i).next b = t.next b ∧ (t.link a i).pprev b = t.pprev b := by
    intro b hb hne
    have hget := Table.get_link t a i (.next b)
    rw [if_neg nofun, if_neg (by simpa using hb)] at hget
    refine ⟨hget, ?_⟩
    rw [Table.pprev_link, if_neg hb, if_neg hne]
  refine ⟨fun j => ?_, fun j => ?_, fun {j k b} hj hk => ?_⟩
  · rcases eq_or_ne j i with rfl | hj
    · rw [Function.update_self]
      refine ⟨by simp [Table.get_link], by simp [Table.pprev_link], ?_⟩
      have hc := h.chain j
      have hnodup := h.nodup j
      have haj := ha j
      cases hC : C j with
      | nil =>
        rw [hC] at hc
        rw [IsChain, Table.get_link, if_neg nofun, if_pos rfl]
        exact hc
      | cons b bs =>
        rw [hC] at hc hnodup haj
        obtain ⟨hget, hprev, hrest⟩ := hc
        have hhead : t.head j = some b := hget
        have hba : b ≠ a := fun he => haj (he ▸ List.mem_cons_self)
        have hb := List.nodup_cons.mp hnodup
        refine ⟨?_, ?_, ?_⟩
        · rw [Table.get_link, if_neg nofun, if_pos rfl]
          exact hget
        · rw [Table.pprev_link, if_neg hba, if_pos hhead]
        · refine hrest.congr ?_ fun c hc => hsame c ?_ ?_
          · rw [Table.get_link, if_neg nofun, if_neg (by simpa using hba)]
          · rintro rfl
            exact haj (List.mem_cons_of_mem _ hc)
          · intro he
            obtain rfl : b = c := Option.some.inj (hget.symm.trans he)
            exact hb.1 hc
    · rw [Function.update_of_ne hj]
      refine (h.chain j).congr ?_ fun b hb => hsame b ?_ ?_
      · rw [Table.get_link, if_neg (by simpa using hj), if_neg nofun]
      · rintro rfl
        exact ha j hb
      · intro he
        rw [h.head] at he
        exact hj (h.disjoint hb (List.mem_of_head? he))
  · rcases eq_or_ne j i with rfl | hj
    · rw [Function.update_self]
      exact List.nodup_cons.mpr ⟨ha j, h.nodup j⟩
    · rw [Function.update_of_ne hj]
      exact h.nodup j
  · rcases mem_update_cons.mp hj with ⟨hba, hji⟩ | hbj
    · rcases mem_update_cons.mp hk with ⟨-, hki⟩ | hbk
      · rw [hji, hki]
      · exact absurd (hba ▸ hbk) (ha k)
    · rcases mem_update_cons.mp hk with ⟨hba, -⟩ | hbk
      · exact absurd (hba ▸ hbj) (ha j)
      · exact h.disjoint hbj hbk

theorem IsChain.next_eq : ∀ {pre post : List α} {l : Link κ α}, IsChain t l (pre ++ a :: post) →
    t.next a = post.head?
  | [], [], _, h => h.2.2
  | [], _ :: _, _, h => h.2.2.1
  | _ :: _, _, _, h => h.2.2.next_eq

/-- An entry of a chain is taken out, and the rest of the chain stays. -/
theorem IsChain.unlink : ∀ {pre post : List α} {l : Link κ α}, IsChain t l (pre ++ a :: post) →
    (pre ++ a :: post).Nodup → (∀ y ∈ pre ++ a :: post, l ≠ .next y) →
    ∃ p, t.pprev a = some p ∧ (p = l ∨ ∃ y ∈ pre, p = .next y) ∧
      IsChain (t.unlinkAt a p) l (pre ++ post)
  | [], post, l, h, hnodup, hl => by
    obtain ⟨hget, hprev, hrest⟩ := h
    have hla : l ≠ .next a := hl a (by simp)
    refine ⟨l, hprev, Or.inl rfl, ?_⟩
    cases post with
    | nil =>
      rw [List.append_nil, IsChain, Table.get_unlinkAt t, if_neg hla, if_pos rfl]
      exact hrest
    | cons b bs =>
      obtain ⟨hb, hbprev, hbs⟩ := hrest
      have hnext : t.next a = some b := hb
      simp only [List.nil_append, List.nodup_cons, List.mem_cons, not_or] at hnodup
      refine ⟨?_, ?_, ?_⟩
      · rw [Table.get_unlinkAt t, if_neg hla, if_pos rfl]
        exact hb
      · rw [Table.pprev_unlinkAt t hla, if_neg (Ne.symm hnodup.1.1), if_pos hnext]
      · have hlb : l ≠ .next b := hl b (by simp)
        refine hbs.congr ?_ fun c hc => ?_
        · rw [Table.get_unlinkAt t, if_neg (by simpa using Ne.symm hnodup.1.1), if_neg hlb.symm]
        · have hca : c ≠ a := ne_of_mem_of_not_mem hc hnodup.1.2
          have hcl : l ≠ .next c := hl c (by simp [hc])
          have hget := Table.get_unlinkAt t a l (.next c)
          rw [if_neg (by simpa using hca), if_neg hcl.symm] at hget
          refine ⟨hget, ?_⟩
          rw [Table.pprev_unlinkAt t hla, if_neg hca, if_neg]
          intro he
          obtain rfl : b = c := Option.some.inj (hb.symm.trans he)
          exact hnodup.2.1 hc
  | x :: pre, post, l, h, hnodup, hl => by
    obtain ⟨hget, hprev, hrest⟩ := h
    rw [List.cons_append, List.nodup_cons] at hnodup
    obtain ⟨p, hp, hlink, hchain⟩ := hrest.unlink hnodup.2 fun y hy => by
      simpa using ne_of_mem_of_not_mem hy hnodup.1 |>.symm
    have hpl : p ≠ l := by
      rcases hlink with rfl | ⟨y, hy, rfl⟩
      · exact (hl x (by simp)).symm
      · exact (hl y (by simp [hy])).symm
    have hxa : x ≠ a := fun he => hnodup.1 (by simp [he])
    have hpa : p ≠ .next a := by
      rcases hlink with rfl | ⟨y, hy, rfl⟩
      · simpa using hxa
      · have hya : y ≠ a := by
          have := (List.nodup_append.mp hnodup.2).2.2 y hy a (by simp)
          exact this
        simpa using hya
    refine ⟨p, hp, Or.inr ?_, ?_, ?_, hchain⟩
    · rcases hlink with rfl | ⟨y, hy, rfl⟩
      · exact ⟨x, List.mem_cons_self, rfl⟩
      · exact ⟨y, List.mem_cons_of_mem _ hy, rfl⟩
    · rw [Table.get_unlinkAt t, if_neg (hl a (by simp)), if_neg (Ne.symm hpl)]
      exact hget
    · rw [Table.pprev_unlinkAt t hpa, if_neg hxa, if_neg]
      · exact hprev
      · rw [hrest.next_eq]
        exact fun he => hnodup.1 (by simp [List.mem_of_head? he])

theorem Chains.unlink (h : Chains t C) {pre post : List α} (hC : C i = pre ++ a :: post) :
    ∃ t', t.unlink a = some t' ∧ Chains t' (Function.update C i (pre ++ post)) := by
  have hchain := h.chain i
  have hnodup := h.nodup i
  rw [hC] at hchain hnodup
  obtain ⟨p, hp, hlink, hnew⟩ := hchain.unlink hnodup fun _ _ => nofun
  have hin : ∀ {b}, b ∈ C i ↔ b ∈ pre ++ a :: post := by
    intro b
    rw [hC]
  have hpa : p ≠ .next a := by
    rcases hlink with rfl | ⟨y, hy, rfl⟩
    · exact nofun
    · simpa using (List.nodup_append.mp hnodup).2.2 y hy a (by simp)
  refine ⟨t.unlinkAt a p,
    by rw [Table.unlink, hp]; rfl, fun j => ?_, fun j => ?_, fun {j k b} hj hk => ?_⟩
  · rcases eq_or_ne j i with rfl | hj
    · rw [Function.update_self]
      exact hnew
    · rw [Function.update_of_ne hj]
      -- the pointers that change belong to the chain of `a`
      have hout : ∀ b, b ∈ C j → b ∉ pre ++ a :: post := fun b hb hb' =>
        hj (h.disjoint hb (hin.mpr hb'))
      refine (h.chain j).congr ?_ fun b hb => ?_
      · rw [Table.get_unlinkAt, if_neg nofun, if_neg]
        rcases hlink with rfl | ⟨y, -, rfl⟩
        · simpa using hj
        · exact nofun
      · have hb' := hout b hb
        have hba : b ≠ a := fun he => hb' (by simp [he])
        have hbp : Link.next b ≠ p := by
          rcases hlink with rfl | ⟨y, hy, rfl⟩
          · exact nofun
          · simpa using fun he : b = y => hb' (by simp [he, hy])
        have hget := Table.get_unlinkAt t a p (.next b)
        rw [if_neg (by simpa using hba), if_neg hbp] at hget
        refine ⟨hget, ?_⟩
        rw [Table.pprev_unlinkAt t hpa, if_neg hba, if_neg]
        rw [hchain.next_eq]
        exact fun he => hb' (by simp [List.mem_of_head? he])
  · rcases eq_or_ne j i with rfl | hj
    · rw [Function.update_self]
      exact hnodup.sublist (List.Sublist.append_left (List.sublist_cons_self a post) pre)
    · rw [Function.update_of_ne hj]
      exact h.nodup j
  · exact h.disjoint ((h.mem_update hC).mp hj).1 ((h.mem_update hC).mp hk).1

end HashChains
