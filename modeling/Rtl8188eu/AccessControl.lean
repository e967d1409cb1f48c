import Mathlib.Data.Finset.Card
import Mathlib.Data.Fintype.Card
import Rtl8188eu.AccessPoint
import Rtl8188eu.Runs

/-!
# The access control list

`acl_list` keeps the addresses that `rtw_access_ctrl` denies or accepts three times : in a fixed
array of nodes with valid flags, on a queue of nodes and in a counter. `rtw_acl_add_sta` takes the
first node that is not valid, and `rtw_acl_remove_sta` gives nodes back in any order.

`AclPool.Inv` says that the three agree. With it, the pool is a set of at most `numAcl` addresses
(`BoundedSet`) : adding, removing and looking up are the operations of the set.
-/

namespace Rtl8188eu

open Runs

/-! ## Sets of bounded size -/

/-- A set of at most `n` elements. -/
@[ext]
structure BoundedSet (α : Type*) (n : ℕ) where
  elems : Finset α
  card_le : elems.card ≤ n

namespace BoundedSet

variable {α : Type*} {n : ℕ}

def empty : BoundedSet α n := ⟨∅, Nat.zero_le n⟩

variable [DecidableEq α]

/-- A set that is full stays as it is. -/
def insert (s : BoundedSet α n) (a : α) : BoundedSet α n :=
  if h : s.elems.card < n then ⟨Insert.insert a s.elems, (Finset.card_insert_le a _).trans h⟩ else s

def erase (s : BoundedSet α n) (a : α) : BoundedSet α n :=
  ⟨s.elems.erase a, Finset.card_erase_le.trans s.card_le⟩

end BoundedSet

/-! ## The pool -/

/-- `NUM_ACL`. -/
def numAcl : ℕ := 16

/-- `struct rtw_wlan_acl_node`. -/
structure AclNode where
  addr : MacAddr
  valid : Bool
deriving DecidableEq

/-- `struct wlan_acl_pool`. -/
structure AclPool where
  mode : ℤ
  num : ℤ
  aclnode : Fin numAcl → AclNode
  /-- The nodes linked on `acl_node_q`. -/
  aclNodeQ : List (Fin numAcl)

namespace AclPool

/-- The part of `start_ap_mode` about the list. -/
def startApMode (p : AclPool) : AclPool where
  mode := 0
  num := 0
  aclnode := fun i => { p.aclnode i with valid := false }
  aclNodeQ := []

/-- `rtw_set_macaddr_acl`. -/
def rtwSetMacaddrAcl (p : AclPool) (mode : ℤ) : AclPool := { p with mode := mode }

/-- A valid node with the address `addr` is on the queue. -/
def aclMatch (p : AclPool) (addr : MacAddr) : Bool :=
  p.aclNodeQ.any fun i => decide ((p.aclnode i).addr = addr) && (p.aclnode i).valid

/-- The node `i` gets an address and goes to the end of the queue. -/
def link (p : AclPool) (i : Fin numAcl) (addr : MacAddr) : AclPool :=
  { p with
    aclnode := Function.update p.aclnode i ⟨addr, true⟩
    aclNodeQ := p.aclNodeQ ++ [i]
    num := p.num + 1 }

/-- The node `i` is taken off the queue. -/
def unlink (p : AclPool) (i : Fin numAcl) : AclPool :=
  { p with
    aclnode := Function.update p.aclnode i { p.aclnode i with valid := false }
    aclNodeQ := p.aclNodeQ.filter (· ≠ i)
    num := p.num - 1 }

/-- `rtw_acl_add_sta`. -/
def rtwAclAddSta (p : AclPool) (addr : MacAddr) : ℤ × AclPool :=
  if (numAcl : ℤ) - 1 < p.num then (-1, p)
  else if p.aclMatch addr then (0, p)
  else
    match (List.finRange numAcl).find? fun i => !(p.aclnode i).valid with
    | some i => (0, p.link i addr)
    | none => (0, p)

/-- The loop that takes the valid nodes that meet `c` off the queue. The next node is read before
the node is taken off. -/
def unlinkLoop (c : MacAddr → Bool) : List (Fin numAcl) → AclPool → AclPool
  | [], p => p
  | i :: is, p =>
    unlinkLoop c is (if c (p.aclnode i).addr && (p.aclnode i).valid then p.unlink i else p)

/-- `rtw_acl_remove_sta`. -/
def rtwAclRemoveSta (p : AclPool) (addr : MacAddr) : ℤ × AclPool :=
  (0, unlinkLoop (fun a => decide (a = addr)) p.aclNodeQ p)

/-- The part of `stop_ap_mode` about the list. -/
def stopApMode (p : AclPool) : AclPool := unlinkLoop (fun _ => true) p.aclNodeQ p

/-- `rtw_access_ctrl`. -/
def rtwAccessCtrl (p : AclPool) (macAddr : MacAddr) : Bool :=
  if p.mode = 1 then !p.aclMatch macAddr
  else if p.mode = 2 then p.aclMatch macAddr
  else true

/-! ## The three views -/

/-- The addresses of the valid nodes. -/
def addrs (p : AclPool) : Finset MacAddr :=
  (Finset.univ.filter fun i => (p.aclnode i).valid = true).image fun i => (p.aclnode i).addr

/-- The array, the queue and the counter agree. -/
structure Inv (p : AclPool) : Prop where
  linked : ∀ i, (p.aclnode i).valid = true ↔ i ∈ p.aclNodeQ
  nodup : p.aclNodeQ.Nodup
  distinct : ∀ i ∈ p.aclNodeQ, ∀ j ∈ p.aclNodeQ, (p.aclnode i).addr = (p.aclnode j).addr → i = j
  num : p.num = p.aclNodeQ.length

variable {p : AclPool} {i : Fin numAcl} {a : MacAddr}

theorem inv_startApMode (p : AclPool) : Inv p.startApMode := by
  refine ⟨fun i => ?_, List.nodup_nil, fun i hi => ?_, rfl⟩
  · simp [startApMode]
  · exact absurd hi List.not_mem_nil

namespace Inv

theorem mem_addrs (h : Inv p) : a ∈ p.addrs ↔ ∃ i ∈ p.aclNodeQ, (p.aclnode i).addr = a := by
  simp [addrs, h.linked]

/-- The nodes on the queue have different addresses. -/
theorem nodup_addr (h : Inv p) : (p.aclNodeQ.map fun i => (p.aclnode i).addr).Nodup :=
  List.Nodup.map_on h.distinct h.nodup

theorem card_addrs (h : Inv p) : p.addrs.card = p.aclNodeQ.length := by
  have hset : p.addrs = (p.aclNodeQ.map fun i => (p.aclnode i).addr).toFinset := by
    ext a
    rw [h.mem_addrs]
    simp
  rw [hset, List.toFinset_card_of_nodup h.nodup_addr, List.length_map]

theorem num_eq (h : Inv p) : p.num = p.addrs.card := by rw [h.num, h.card_addrs]

theorem card_le (h : Inv p) : p.addrs.card ≤ numAcl := by
  rw [h.card_addrs]
  simpa using h.nodup.length_le_card

theorem aclMatch_iff (h : Inv p) : p.aclMatch a = true ↔ a ∈ p.addrs := by
  rw [h.mem_addrs, aclMatch, List.any_eq_true]
  refine exists_congr fun i => and_congr_right fun hi => ?_
  simp [(h.linked i).mpr hi]

/-- A node is free as long as the pool is not full. -/
theorem exists_free (h : Inv p) (hcard : p.addrs.card < numAcl) :
    ∃ i, (p.aclnode i).valid = false := by
  by_contra hno
  have hall : ∀ i, i ∈ p.aclNodeQ := by
    intro i
    rw [← h.linked, ← Bool.not_eq_false]
    exact fun hi => hno ⟨i, hi⟩
  have huniv : p.aclNodeQ.toFinset = Finset.univ := by
    ext i
    simp [hall i]
  have hlen := List.toFinset_card_of_nodup h.nodup
  rw [huniv, Finset.card_univ, Fintype.card_fin, ← h.card_addrs] at hlen
  omega

/-! ## One operation -/

theorem link (h : Inv p) (hfree : (p.aclnode i).valid = false) (ha : a ∉ p.addrs) :
    Inv (p.link i a) := by
  have hi : i ∉ p.aclNodeQ := by
    rw [← h.linked, hfree]
    exact Bool.false_ne_true
  -- another node on the queue has another address
  have hne : ∀ j ∈ p.aclNodeQ, j ≠ i ∧ (p.aclnode j).addr ≠ a := fun j hj =>
    ⟨ne_of_mem_of_not_mem hj hi, fun he => ha (h.mem_addrs.mpr ⟨j, hj, he⟩)⟩
  refine ⟨fun j => ?_, ?_, fun j hj k hk he => ?_, ?_⟩
  · rcases eq_or_ne j i with rfl | hj
    · simp [AclPool.link]
    · simp [AclPool.link, hj, h.linked]
  · exact List.Nodup.append h.nodup (List.nodup_singleton i) (by simpa using hi)
  · simp only [AclPool.link, List.mem_append, List.mem_singleton] at hj hk he
    rcases hj with hj | rfl <;> rcases hk with hk | rfl
    · rw [Function.update_of_ne (hne j hj).1, Function.update_of_ne (hne k hk).1] at he
      exact h.distinct j hj k hk he
    · rw [Function.update_of_ne (hne j hj).1, Function.update_self] at he
      exact absurd he (hne j hj).2
    · rw [Function.update_of_ne (hne k hk).1, Function.update_self] at he
      exact absurd he.symm (hne k hk).2
    · rfl
  · simp [AclPool.link, h.num]

theorem addrs_link (h : Inv p) (hfree : (p.aclnode i).valid = false) (ha : a ∉ p.addrs) :
    (p.link i a).addrs = insert a p.addrs := by
  have hi : i ∉ p.aclNodeQ := by
    rw [← h.linked, hfree]
    exact Bool.false_ne_true
  ext b
  rw [(h.link hfree ha).mem_addrs, Finset.mem_insert, h.mem_addrs]
  simp only [AclPool.link, List.mem_append, List.mem_singleton]
  constructor
  · rintro ⟨j, hj | rfl, rfl⟩
    · refine Or.inr ⟨j, hj, ?_⟩
      rw [Function.update_of_ne (ne_of_mem_of_not_mem hj hi)]
    · rw [Function.update_self]
      exact Or.inl rfl
  · rintro (rfl | ⟨j, hj, rfl⟩)
    · exact ⟨i, Or.inr rfl, by rw [Function.update_self]⟩
    · exact ⟨j, Or.inl hj, by rw [Function.update_of_ne (ne_of_mem_of_not_mem hj hi)]⟩

theorem unlink (h : Inv p) (hi : i ∈ p.aclNodeQ) : Inv (p.unlink i) := by
  have haddr : ∀ j, ((p.unlink i).aclnode j).addr = (p.aclnode j).addr := by
    intro j
    rcases eq_or_ne j i with rfl | hj
    · simp [AclPool.unlink]
    · simp [AclPool.unlink, hj]
  refine ⟨fun j => ?_, h.nodup.filter _, fun j hj k hk he => ?_, ?_⟩
  · rcases eq_or_ne j i with rfl | hj
    · simp [AclPool.unlink]
    · simp [AclPool.unlink, hj, h.linked]
  · rw [haddr, haddr] at he
    exact h.distinct j (List.mem_of_mem_filter hj) k (List.mem_of_mem_filter hk) he
  · have hlen := LinkedLists.length_filter_ne p.aclNodeQ i
    rw [List.count_eq_one_of_mem h.nodup hi] at hlen
    have hnum := h.num
    simp only [AclPool.unlink]
    omega

theorem addrs_unlink (h : Inv p) (hi : i ∈ p.aclNodeQ) :
    (p.unlink i).addrs = p.addrs.erase (p.aclnode i).addr := by
  ext b
  rw [(h.unlink hi).mem_addrs, Finset.mem_erase, h.mem_addrs]
  constructor
  · rintro ⟨j, hj, rfl⟩
    obtain ⟨hmem, hne⟩ := List.mem_filter.mp hj
    have hne' : j ≠ i := by simpa using hne
    have haddr : ((p.unlink i).aclnode j).addr = (p.aclnode j).addr := by
      simp [AclPool.unlink, hne']
    rw [haddr]
    exact ⟨fun he => hne' (h.distinct j hmem i hi he), j, hmem, rfl⟩
  · rintro ⟨hb, j, hj, rfl⟩
    have hne : j ≠ i := by
      rintro rfl
      exact hb rfl
    refine ⟨j, List.mem_filter.mpr ⟨hj, by simpa using hne⟩, ?_⟩
    simp [AclPool.unlink, hne]

/-- The loop takes off the addresses that meet `c`, if it comes across all of their nodes. -/
theorem unlinkLoop {c : MacAddr → Bool} : ∀ {is : List (Fin numAcl)} {p : AclPool}, Inv p →
    (∀ j ∈ p.aclNodeQ, c (p.aclnode j).addr = true → j ∈ is) →
    Inv (AclPool.unlinkLoop c is p) ∧
      (AclPool.unlinkLoop c is p).addrs = p.addrs.filter fun a => c a = false
  | [], p, h, hall => by
    refine ⟨h, (Finset.filter_true_of_mem fun a ha => ?_).symm⟩
    obtain ⟨j, hj, rfl⟩ := h.mem_addrs.mp ha
    by_contra hc
    rw [Bool.not_eq_false] at hc
    exact absurd (hall j hj hc) List.not_mem_nil
  | i :: is, p, h, hall => by
    rw [AclPool.unlinkLoop]
    split
    · rename_i hc
      rw [Bool.and_eq_true] at hc
      have hi : i ∈ p.aclNodeQ := (h.linked i).mp hc.2
      have hrest : ∀ j ∈ (p.unlink i).aclNodeQ, c ((p.unlink i).aclnode j).addr = true →
        j ∈ is := by
        intro j hj hcj
        obtain ⟨hmem, hne⟩ := List.mem_filter.mp hj
        have hne' : j ≠ i := by simpa using hne
        simp only [AclPool.unlink, Function.update_of_ne hne'] at hcj
        exact (List.mem_cons.mp (hall j hmem hcj)).resolve_left hne'
      obtain ⟨hinv, haddrs⟩ := unlinkLoop (h.unlink hi) hrest
      refine ⟨hinv, haddrs.trans ?_⟩
      rw [h.addrs_unlink hi]
      ext a
      simp only [Finset.mem_filter, Finset.mem_erase]
      refine ⟨fun ⟨⟨_, ha⟩, hca⟩ => ⟨ha, hca⟩, fun ⟨ha, hca⟩ => ⟨⟨?_, ha⟩, hca⟩⟩
      rintro rfl
      exact absurd hc.1 (by simp [hca])
    · rename_i hc
      refine unlinkLoop h fun j hj hcj => ?_
      refine (List.mem_cons.mp (hall j hj hcj)).resolve_left ?_
      rintro rfl
      exact hc (by simp [hcj, (h.linked j).mpr hj])

theorem rtwAclRemoveSta (h : Inv p) (a : MacAddr) :
    Inv (p.rtwAclRemoveSta a).2 ∧ (p.rtwAclRemoveSta a).2.addrs = p.addrs.erase a := by
  obtain ⟨hinv, haddrs⟩ := h.unlinkLoop (c := fun b => decide (b = a)) fun j hj _ => hj
  refine ⟨hinv, haddrs.trans ?_⟩
  ext b
  simp [and_comm]

theorem stopApMode (h : Inv p) : Inv p.stopApMode ∧ p.stopApMode.addrs = ∅ := by
  obtain ⟨hinv, haddrs⟩ := h.unlinkLoop (c := fun _ => true) fun j hj _ => hj
  refine ⟨hinv, haddrs.trans ?_⟩
  simp

theorem rtwAclAddSta_full (h : Inv p) (hfull : ¬ p.addrs.card < numAcl) :
    p.rtwAclAddSta a = (-1, p) := by
  have hnum := h.num_eq
  have hcard := h.card_le
  rw [AclPool.rtwAclAddSta, if_pos (by omega)]

theorem rtwAclAddSta_room (h : Inv p) (hroom : p.addrs.card < numAcl) :
    (p.rtwAclAddSta a).1 = 0 ∧ Inv (p.rtwAclAddSta a).2 ∧
      (p.rtwAclAddSta a).2.addrs = insert a p.addrs := by
  have hnum := h.num_eq
  rw [AclPool.rtwAclAddSta, if_neg (by omega)]
  split
  · rename_i hmatch
    exact ⟨rfl, h, (Finset.insert_eq_self.mpr (h.aclMatch_iff.mp hmatch)).symm⟩
  rename_i hmatch
  rw [h.aclMatch_iff] at hmatch
  split
  · rename_i i hi
    have hfree : (p.aclnode i).valid = false := by simpa using List.find?_some hi
    exact ⟨rfl, h.link hfree hmatch, h.addrs_link hfree hmatch⟩
  · rename_i hnone
    obtain ⟨i, hi⟩ := h.exists_free hroom
    have hbusy := List.find?_eq_none.mp hnone i (List.mem_finRange i)
    simp [hi] at hbusy

theorem rtwAccessCtrl_iff (h : Inv p) : p.rtwAccessCtrl a = true ↔
    (p.mode = 1 → a ∉ p.addrs) ∧ (p.mode = 2 → a ∈ p.addrs) := by
  unfold AclPool.rtwAccessCtrl
  split
  · rename_i hmode
    simp [hmode, ← h.aclMatch_iff]
  split
  · rename_i hmode
    simp [hmode, ← h.aclMatch_iff]
  · rename_i h1 h2
    simp [h1, h2]

/-- The set of the addresses. -/
def toBoundedSet (h : Inv p) : BoundedSet MacAddr numAcl := ⟨p.addrs, h.card_le⟩

end Inv

/-! ## Runs -/

/-- What is done to the list. -/
inductive Op where
  | add (addr : MacAddr)
  | remove (addr : MacAddr)
  | setMode (mode : ℤ)
  | start
  | stop

def step (p : AclPool) : Op → AclPool
  | .add a => (p.rtwAclAddSta a).2
  | .remove a => (p.rtwAclRemoveSta a).2
  | .setMode mode => p.rtwSetMacaddrAcl mode
  | .start => p.startApMode
  | .stop => p.stopApMode

/-- What is done to the set. -/
def stepSet (s : BoundedSet MacAddr numAcl) : Op → BoundedSet MacAddr numAcl
  | .add a => s.insert a
  | .remove a => s.erase a
  | .setMode _ => s
  | .start | .stop => BoundedSet.empty

/-- One operation on the list is the operation on the set. -/
theorem inv_step (h : Inv p) :
    ∀ op, ∃ h' : Inv (p.step op), h'.toBoundedSet = stepSet h.toBoundedSet op
  | .add a => by
    by_cases hroom : p.addrs.card < numAcl
    · obtain ⟨-, hinv, haddrs⟩ := h.rtwAclAddSta_room (a := a) hroom
      refine ⟨hinv, BoundedSet.ext ?_⟩
      rw [stepSet, BoundedSet.insert, dif_pos (by exact hroom)]
      exact haddrs
    · have hsame : p.step (.add a) = p := by rw [step, h.rtwAclAddSta_full hroom]
      rw [hsame]
      refine ⟨h, ?_⟩
      rw [stepSet, BoundedSet.insert, dif_neg (by exact hroom)]
  | .remove a => by
    obtain ⟨hinv, haddrs⟩ := h.rtwAclRemoveSta a
    exact ⟨hinv, BoundedSet.ext haddrs⟩
  | .setMode mode => ⟨⟨h.linked, h.nodup, h.distinct, h.num⟩, rfl⟩
  | .start => by
    refine ⟨inv_startApMode p, BoundedSet.ext ?_⟩
    simp [Inv.toBoundedSet, addrs, step, startApMode, stepSet, BoundedSet.empty]
  | .stop => by
    obtain ⟨hinv, haddrs⟩ := h.stopApMode
    exact ⟨hinv, BoundedSet.ext haddrs⟩

/-- Every run of the list is a run of the set. -/
theorem inv_run (h : Inv p) (ops : List Op) :
    ∃ h' : Inv (run step p ops), h'.toBoundedSet = run stepSet h.toBoundedSet ops := by
  refine invariant_run (I :=
    fun ops q => ∃ h' : Inv q, h'.toBoundedSet = run stepSet h.toBoundedSet ops)
    ⟨h, rfl⟩ (fun ops op q ⟨hq, he⟩ => ?_) ops
  obtain ⟨hs, hset⟩ := inv_step hq op
  refine ⟨hs, ?_⟩
  rw [hset, he, run_concat]

/-- After every run the array, the queue and the counter are one set of at most `numAcl` addresses,
which the functions change and look up as a set. -/
theorem aclPool_run (p₀ : AclPool) (ops : List Op) :
    let p := run step p₀.startApMode ops
    (∀ i, (p.aclnode i).valid = true ↔ i ∈ p.aclNodeQ) ∧ p.aclNodeQ.Nodup ∧
      (p.aclNodeQ.map fun i => (p.aclnode i).addr).Nodup ∧
      p.num = p.aclNodeQ.length ∧ p.num = p.addrs.card ∧ p.num ≤ numAcl ∧
      (∀ a, a ∉ p.addrs →
        (p.addrs.card < numAcl → (p.rtwAclAddSta a).1 = 0 ∧
          (p.rtwAclAddSta a).2.addrs = insert a p.addrs) ∧
        (¬ p.addrs.card < numAcl → p.rtwAclAddSta a = (-1, p))) ∧
      (∀ a, (p.rtwAclRemoveSta a).2.addrs = p.addrs.erase a) ∧
      (∀ a, p.mode = 1 → (p.rtwAccessCtrl a = true ↔ a ∉ p.addrs)) ∧
      (∀ a, p.mode = 2 → (p.rtwAccessCtrl a = true ↔ a ∈ p.addrs)) ∧
      (∀ a, p.mode ≠ 1 → p.mode ≠ 2 → p.rtwAccessCtrl a = true) := by
  intro p
  obtain ⟨h, -⟩ := inv_run (inv_startApMode p₀) ops
  change Inv p at h
  refine ⟨h.linked, h.nodup, h.nodup_addr, h.num, h.num_eq, ?_,
    fun a _ => ⟨fun hroom => ?_, fun hfull => ?_⟩,
    fun a => (h.rtwAclRemoveSta a).2, fun a hm => ?_, fun a hm => ?_, fun a h1 h2 => ?_⟩
  · rw [h.num_eq]
    exact_mod_cast h.card_le
  · obtain ⟨hret, -, haddrs⟩ := h.rtwAclAddSta_room (a := a) hroom
    exact ⟨hret, haddrs⟩
  · exact h.rtwAclAddSta_full hfull
  · rw [h.rtwAccessCtrl_iff]
    simp [hm]
  · rw [h.rtwAccessCtrl_iff]
    simp [hm]
  · rw [h.rtwAccessCtrl_iff]
    exact ⟨fun hm => absurd hm h1, fun hm => absurd hm h2⟩

end AclPool

end Rtl8188eu
