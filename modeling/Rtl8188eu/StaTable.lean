import Rtl8188eu.ApStep

/-!
# The station table over whole runs

The `NUM_STA` station records are on the free queue or in a bucket of the hash table. The queue and
the buckets use different links of a record, and `asoc_sta_count` counts the records in the table.

The runs are those of the callers in the source : a record is allocated for an address that has
none, and only records in the table are freed. After each of them every record has one place, in the
bucket of its own address if it is in the table, the counter is right, and a lookup finds the one
record of the address (`tableOk_run`). Records with a group address other than the broadcast address
are never found, and there may be several of them for one address.
-/

set_option linter.unusedSectionVars false

namespace Rtl8188eu

open LinkedLists Runs

/-- The station table with its counter. -/
structure StaTable (ι : Type) where
  base : Adapter ι
  asocStaCount : ℤ

/-- A call of the functions of the station table. -/
inductive TableEvent
  | alloc (hwaddr : MacAddr)
  /-- `rtw_free_stainfo`, with a null pointer or a record. -/
  | free (psta : Option StaId)
  | freeAll

namespace StaTable

variable {ι : Type} [DecidableEq ι]

/-- The record is in the hash table. -/
def Hashed (s : StaTable ι) (k : StaId) : Prop := ∃ i, k ∈ s.base.staHash i

instance (s : StaTable ι) (k : StaId) : Decidable (s.Hashed k) :=
  inferInstanceAs (Decidable (∃ i, k ∈ s.base.staHash i))

/-- `rtw_alloc_stainfo`. -/
def rtwAllocStainfo (s : StaTable ι) (hwaddr : MacAddr) : Option StaId × StaTable ι :=
  match s.base.rtwAllocStainfo hwaddr with
  | (none, base) => (none, { s with base := base })
  | (some k, base) => (some k, ⟨base, s.asocStaCount + 1⟩)

/-- `rtw_free_stainfo`. -/
def rtwFreeStainfo (s : StaTable ι) (k : StaId) : StaTable ι :=
  ⟨s.base.rtwFreeStainfo k, s.asocStaCount - 1⟩

/-- The loop of `rtw_free_all_stainfo` over a bucket. -/
def freeBucket (bcmc : Option StaId) (s : StaTable ι) (ks : List StaId) : StaTable ι :=
  ks.foldl (fun s k => if bcmc = some k then s else s.rtwFreeStainfo k) s

/-- `rtw_free_all_stainfo`. The next record is read before one is freed, so the loop goes over the
bucket as it was. -/
def rtwFreeAllStainfo (s : StaTable ι) : StaTable ι :=
  let bcmc := s.base.rtwGetBcmcStainfo
  if s.asocStaCount = 1 then s
  else (List.finRange 32).foldl (fun s i => freeBucket bcmc s (s.base.staHash i)) s

/-- One call. A caller allocates a record for an address without one, and frees a record in the
table. -/
def tableStep (s : StaTable ι) : TableEvent → Option (StaTable ι)
  | .alloc hwaddr =>
    if s.base.rtwGetStainfo hwaddr = none then some (s.rtwAllocStainfo hwaddr).2 else none
  | .free none => some s
  | .free (some k) => if s.Hashed k then some (s.rtwFreeStainfo k) else none
  | .freeAll => some s.rtwFreeAllStainfo

/-! ## The invariant -/

variable {s s' t : StaTable ι} {k j : StaId}

/-- The address that a lookup compares with. -/
def lookupAddr (a : MacAddr) : MacAddr := if isMcast a then bcAddr else a

/-- What every call keeps. -/
structure TableInv (s : StaTable ι) : Prop where
  place : ∀ k, s.base.freeStaQueue.count k + occ s.base.staHash k = 1
  count : s.asocStaCount = total s.base.staHash
  bucket : ∀ i, ∀ k ∈ s.base.staHash i, wifiMacHash (s.base.sta k).hwaddr = i
  unique : ∀ j k, s.Hashed j → s.Hashed k → (s.base.sta j).hwaddr = (s.base.sta k).hwaddr →
    lookupAddr (s.base.sta j).hwaddr = (s.base.sta j).hwaddr → j = k

theorem lookupAddr_idem (a : MacAddr) : lookupAddr (lookupAddr a) = lookupAddr a := by
  have hbc : isMcast bcAddr = true := by decide
  unfold lookupAddr
  by_cases h : isMcast a = true
  · rw [if_pos h, if_pos hbc]
  · rw [if_neg h, if_neg h]

theorem rtwGetStainfo_eq (s : StaTable ι) (a : MacAddr) :
    s.base.rtwGetStainfo a = (s.base.staHash (wifiMacHash (lookupAddr a))).find?
      fun k => (s.base.sta k).hwaddr = lookupAddr a := rfl

theorem TableInv.hashed_iff (h : TableInv s) : s.Hashed k ↔ occ s.base.staHash k = 1 := by
  have hplace := h.place k
  constructor
  · rintro ⟨i, hi⟩
    have hpos := (List.count_pos_iff.mpr hi).trans_le (count_le_occ s.base.staHash i k)
    omega
  · intro hocc
    exact exists_mem_of_occ_pos (by omega)

theorem TableInv.free_iff (h : TableInv s) : k ∈ s.base.freeStaQueue ↔
    occ s.base.staHash k = 0 := by
  have hplace := h.place k
  rw [← List.count_pos_iff]
  omega

/-- A lookup finds a record of the address in the table. -/
theorem TableInv.lookup_none (h : TableInv s) (a : MacAddr) :
    s.base.rtwGetStainfo a = none ↔ ∀ k, s.Hashed k → (s.base.sta k).hwaddr ≠ lookupAddr a := by
  rw [rtwGetStainfo_eq, List.find?_eq_none]
  constructor
  · rintro hnone k ⟨i, hi⟩ hk
    have hi' := h.bucket i k hi
    rw [hk] at hi'
    rw [← hi'] at hi
    exact hnone k hi (decide_eq_true hk)
  · intro hall k hk hk'
    exact hall k ⟨_, hk⟩ (of_decide_eq_true hk')

theorem TableInv.lookup_some (h : TableInv s) (a : MacAddr) (k : StaId) :
    s.base.rtwGetStainfo a = some k ↔ s.Hashed k ∧ (s.base.sta k).hwaddr = lookupAddr a := by
  constructor
  · intro hk
    refine ⟨Adapter.mem_of_rtwGetStainfo hk, ?_⟩
    rw [rtwGetStainfo_eq] at hk
    simpa using List.find?_some hk
  · rintro ⟨hk, hka⟩
    cases hget : s.base.rtwGetStainfo a with
    | none => exact absurd hka ((h.lookup_none a).mp hget k hk)
    | some j =>
      have hj : s.Hashed j := Adapter.mem_of_rtwGetStainfo hget
      have hja : (s.base.sta j).hwaddr = lookupAddr a := by
        rw [rtwGetStainfo_eq] at hget
        simpa using List.find?_some hget
      rw [h.unique j k hj hk (hja.trans hka.symm) (by rw [hja, lookupAddr_idem])]

/-! ## The calls -/

/-- A record is allocated for an address without one. -/
theorem tableInv_alloc (h : TableInv s) {a : MacAddr} (ha : s.base.rtwGetStainfo a = none) :
    TableInv (s.rtwAllocStainfo a).2 := by
  unfold rtwAllocStainfo
  split
  · rename_i base hb
    rw [Adapter.rtwAllocStainfo_none hb]
    exact h
  · rename_i k base hb
    obtain ⟨rest, hfree, hfree', hhash, hsta, -⟩ := Adapter.rtwAllocStainfo_eq hb
    have hocc : occ s.base.staHash k = 0 := h.free_iff.mp (by rw [hfree]; exact List.mem_cons_self)
    have hold : ∀ j, s.Hashed j → j ≠ k := by
      rintro j hj rfl
      rw [h.hashed_iff, hocc] at hj
      omega
    have hmem : ∀ j, Hashed ⟨base, s.asocStaCount + 1⟩ j → s.Hashed j ∨ j = k := by
      rintro j ⟨i, hi⟩
      rw [hhash, mem_addTail] at hi
      exact hi.imp (fun hi => ⟨i, hi⟩) And.right
    have haddr : ∀ j, s.Hashed j → (base.sta j).hwaddr = (s.base.sta j).hwaddr := by
      intro j hj
      rw [hsta, Function.update_of_ne (hold j hj)]
    have hnew : (base.sta k).hwaddr = a := by
      rw [hsta, Function.update_self]
      rfl
    refine ⟨fun j => ?_, ?_, fun i j hj => ?_, fun i j hi hj hij hcan => ?_⟩
    · have hplace := h.place j
      rw [hfree, List.count_cons] at hplace
      dsimp only
      rw [hfree', hhash, occ_addTail]
      rcases eq_or_ne j k with rfl | hne
      · rw [if_pos (beq_self_eq_true j)] at hplace
        rw [if_pos rfl]
        omega
      · rw [if_neg (by simpa using hne.symm)] at hplace
        rw [if_neg hne]
        omega
    · dsimp only
      rw [hhash, total_addTail, h.count, Nat.cast_add, Nat.cast_one]
    · rw [hhash, mem_addTail] at hj
      rcases hj with hj | ⟨rfl, rfl⟩
      · rw [haddr j ⟨i, hj⟩]
        exact h.bucket i j hj
      · rw [hnew]
    · -- nothing else in the table has the address of the new record
      have hnone : ∀ x, s.Hashed x → (s.base.sta x).hwaddr = a → lookupAddr a ≠ a := by
        intro x hx hxa hca
        exact (h.lookup_none a).mp ha x hx (hxa.trans hca.symm)
      dsimp only at hij hcan
      rcases hmem i hi with hi' | hi'
      · rcases hmem j hj with hj' | hj'
        · rw [haddr i hi', haddr j hj'] at hij
          rw [haddr i hi'] at hcan
          exact h.unique i j hi' hj' hij hcan
        · rw [hij, hj', hnew] at hcan
          rw [haddr i hi', hj', hnew] at hij
          exact absurd hcan (hnone i hi' hij)
      · rcases hmem j hj with hj' | hj'
        · rw [hi', hnew] at hij hcan
          rw [haddr j hj'] at hij
          exact absurd hcan (hnone j hj' hij.symm)
        · rw [hi', hj']

theorem hashed_free : (s.rtwFreeStainfo k).Hashed j ↔ s.Hashed j ∧ j ≠ k := by
  obtain ⟨hhash, -⟩ := s.base.rtwFreeStainfo_fields k
  unfold Hashed
  change (∃ i, j ∈ (s.base.rtwFreeStainfo k).staHash i) ↔ _
  simp only [hhash, mem_unlink, exists_and_right]

/-- A record in the table is freed. -/
theorem tableInv_free (h : TableInv s) (hk : s.Hashed k) : TableInv (s.rtwFreeStainfo k) := by
  obtain ⟨hhash, hfree, haddr, -⟩ := s.base.rtwFreeStainfo_fields k
  have hocc := h.hashed_iff.mp hk
  refine ⟨fun j => ?_, ?_, fun i j hj => ?_, fun i j hi hj hij hcan => ?_⟩
  · change (s.base.rtwFreeStainfo k).freeStaQueue.count j + occ
      (s.base.rtwFreeStainfo k).staHash j = 1
    have hplace := h.place j
    rw [hhash, hfree, List.count_append, occ_unlink, List.count_singleton]
    rcases eq_or_ne j k with rfl | hne
    · rw [hocc] at hplace
      rw [if_pos (beq_self_eq_true j), if_pos rfl]
      omega
    · rw [if_neg (by simpa using hne.symm), if_neg hne]
      omega
  · change s.asocStaCount - 1 = total (s.base.rtwFreeStainfo k).staHash
    have htotal := total_unlink s.base.staHash k
    rw [hocc] at htotal
    rw [hhash, h.count, ← htotal, Nat.cast_add, Nat.cast_one, add_sub_cancel_right]
  · change wifiMacHash ((s.base.rtwFreeStainfo k).sta j).hwaddr = i
    change j ∈ (s.base.rtwFreeStainfo k).staHash i at hj
    rw [hhash, mem_unlink] at hj
    rw [haddr]
    exact h.bucket i j hj.1
  · change ((s.base.rtwFreeStainfo k).sta i).hwaddr =
      ((s.base.rtwFreeStainfo k).sta j).hwaddr at hij
    change lookupAddr ((s.base.rtwFreeStainfo k).sta i).hwaddr =
      ((s.base.rtwFreeStainfo k).sta i).hwaddr at hcan
    rw [haddr, haddr] at hij
    rw [haddr] at hcan
    exact h.unique i j (hashed_free.mp hi).1 (hashed_free.mp hj).1 hij hcan

/-- The records of a bucket are freed one after the other. Those that are still to come are in the
table. -/
theorem tableInv_freeBucket {bcmc : Option StaId} : ∀ (ks : List StaId) {s : StaTable ι},
    TableInv s → ks.Nodup → (∀ k ∈ ks, s.Hashed k) → TableInv (freeBucket bcmc s ks)
  | [], _, h, _, _ => h
  | k :: ks, s, h, hnd, hks => by
    obtain ⟨hk, hnd⟩ := List.nodup_cons.mp hnd
    rw [freeBucket, List.foldl_cons]
    split
    · exact tableInv_freeBucket ks h hnd fun j hj => hks j (List.mem_cons_of_mem k hj)
    · refine tableInv_freeBucket ks (tableInv_free h (hks k List.mem_cons_self)) hnd fun j hj => ?_
      exact hashed_free.mpr ⟨hks j (List.mem_cons_of_mem k hj), ne_of_mem_of_not_mem hj hk⟩

theorem tableInv_freeAll (h : TableInv s) : TableInv s.rtwFreeAllStainfo := by
  unfold rtwFreeAllStainfo
  extract_lets bcmc
  split
  · exact h
  · refine List.foldlRecOn (motive := TableInv) _ _ h fun u hu i _ => ?_
    refine tableInv_freeBucket _ hu ?_ fun k hk => ⟨i, hk⟩
    refine nodup_of_occ_le_one (fun k => ?_) i
    have hplace := hu.place k
    omega

/-! ## Runs -/

theorem tableInv_step {e : TableEvent} (h : TableInv s) (hstep : s.tableStep e = some t) :
    TableInv t := by
  cases e with
  | alloc a =>
    rw [tableStep] at hstep
    split at hstep
    · rename_i ha
      obtain rfl := Option.some.inj hstep
      exact tableInv_alloc h ha
    · simp at hstep
  | free psta =>
    cases psta with
    | none =>
      obtain rfl := Option.some.inj hstep
      exact h
    | some k =>
      rw [tableStep] at hstep
      split at hstep
      · rename_i hk
        obtain rfl := Option.some.inj hstep
        exact tableInv_free h hk
      · simp at hstep
  | freeAll =>
    obtain rfl := Option.some.inj hstep
    exact tableInv_freeAll h

/-- The table is as it should be. -/
structure TableOk (s : StaTable ι) : Prop where
  /-- A record is once on the free queue and in no bucket, or once in one bucket and nowhere
  else. -/
  place : ∀ k, (s.base.freeStaQueue.count k = 1 ∧ ¬ s.Hashed k) ∨
    (k ∉ s.base.freeStaQueue ∧ ∃ i, (s.base.staHash i).count k = 1 ∧ ∀ j, k ∈ s.base.staHash j → j = i)
  count : s.asocStaCount = ∑ i, (s.base.staHash i).length
  bucket : ∀ i, ∀ k ∈ s.base.staHash i, wifiMacHash (s.base.sta k).hwaddr = i
  /-- A lookup finds a record exactly if it is the one in the table with the address. -/
  lookup : ∀ a k, s.base.rtwGetStainfo a = some k ↔
    s.Hashed k ∧ (s.base.sta k).hwaddr = lookupAddr a ∧
      ∀ j, s.Hashed j → (s.base.sta j).hwaddr = lookupAddr a → j = k
  lookupNone : ∀ a, s.base.rtwGetStainfo a = none ↔
    ∀ k, s.Hashed k → (s.base.sta k).hwaddr ≠ lookupAddr a

theorem TableInv.ok (h : TableInv s) : TableOk s := by
  refine ⟨fun k => ?_, ?_, h.bucket, fun a k => ?_, h.lookup_none⟩
  · have hplace := h.place k
    by_cases hk : s.Hashed k
    · have hocc := h.hashed_iff.mp hk
      obtain ⟨i, hi⟩ := hk
      refine Or.inr ⟨?_, i, ?_, fun j hj => eq_of_mem_of_mem hocc.le hj hi⟩
      · rw [h.free_iff]
        omega
      · have hpos := List.count_pos_iff.mpr hi
        have hle := count_le_occ s.base.staHash i k
        omega
    · refine Or.inl ⟨?_, hk⟩
      have hocc : ¬ occ s.base.staHash k = 1 := fun hc => hk (h.hashed_iff.mpr hc)
      omega
  · rw [h.count, total]
  · rw [h.lookup_some]
    constructor
    · rintro ⟨hk, hka⟩
      refine ⟨hk, hka, fun j hj hja => ?_⟩
      exact h.unique j k hj hk (hja.trans hka.symm) (by rw [hja, lookupAddr_idem])
    · rintro ⟨hk, hka, -⟩
      exact ⟨hk, hka⟩

/-- `_rtw_init_sta_priv` : all records are free. -/
structure Blank (s : StaTable ι) : Prop where
  free : ∀ k, s.base.freeStaQueue.count k = 1
  hash : ∀ i, s.base.staHash i = []
  count : s.asocStaCount = 0

theorem Blank.tableInv (h : Blank s) : TableInv s := by
  have hempty : ∀ k, ¬ s.Hashed k := by
    rintro k ⟨i, hi⟩
    rw [h.hash] at hi
    exact absurd hi List.not_mem_nil
  refine ⟨fun k => ?_, ?_, fun i k hk => ?_, fun j k hj => ?_⟩
  · simp [h.free, occ, h.hash]
  · simp [h.count, total, h.hash]
  · exact absurd ⟨i, hk⟩ (hempty k)
  · exact absurd hj (hempty j)

/-- The station table is as it should be after every run of its functions. -/
theorem tableOk_run {es : List TableEvent} (hs : Blank s) (hrun : runM tableStep s es = some t) :
    TableOk t :=
  (invariant_runM (I := fun _ => TableInv) hs.tableInv (fun _ _ _ _ => tableInv_step) hrun).ok

/-- The table of a driver that starts. -/
def sampleTable : StaTable RecvId := ⟨Adapter.blank (List.finRange 256) Adapter.sampleMac, 0⟩

theorem tableOk_sampleTable :
    ∃ t, runM tableStep sampleTable [.alloc bcAddr, .alloc Adapter.sampleTa, .free (some 1), .freeAll]
      = some t ∧ TableOk t := by
  have hblank : Blank sampleTable := ⟨by decide, fun _ => rfl, rfl⟩
  have hrun : (runM tableStep sampleTable
      [.alloc bcAddr, .alloc Adapter.sampleTa, .free (some 1), .freeAll]).isSome = true := by
    decide +kernel
  obtain ⟨t, ht⟩ := Option.isSome_iff_exists.mp hrun
  exact ⟨t, ht, tableOk_run hblank ht⟩

end StaTable

end Rtl8188eu
