import Rtl8188eu.PolledWrites

/-!
# The link table of the packet buffer

`InitLLTTable` links the pages of the packet buffer through the register `REG_LLT_INIT` :
the pages below the boundary are a list, the others a ring. `_LLTWrite` writes an entry and
polls the register until the operation is done.

The loop that polls goes on `while (count++)`, and `count` is zero at first, so the register
is read once and the write is a success whatever is read. A busy device is not waited for
(`tableRight_iff`).
-/

namespace Rtl8188eu

open PolledWrites

/-! ## The functions of the source -/

/-- `LAST_ENTRY_OF_TX_PKT_BUFFER`. -/
def lastEntryOfTxPktBuffer : UInt32 := 176

/-- `POLLING_LLT_THRESHOLD`. -/
def pollingLltThreshold : ℕ := 20

/-- `_LLT_NO_ACTIVE`. -/
def lltNoActive : UInt32 := 0x0

/-- `_LLT_WRITE_ACCESS`. -/
def lltWriteAccess : UInt32 := 0x1

/-- `_LLT_INIT_DATA`. -/
def lltInitData (x : UInt32) : UInt32 := x &&& 0xFF

/-- `_LLT_INIT_ADDR`. -/
def lltInitAddr (x : UInt32) : UInt32 := (x &&& 0xFF) <<< 8

/-- `_LLT_OP`. -/
def lltOp (x : UInt32) : UInt32 := (x &&& 0x3) <<< 30

/-- `_LLT_OP_VALUE`. -/
def lltOpValue (x : UInt32) : UInt32 := (x >>> 30) &&& 0x3

/-- The register `REG_LLT_INIT` : how often it was read, and the accesses to it. -/
structure LltReg where
  reads : ℕ
  log : List (Access UInt32 UInt32)

namespace LltReg

/-- The register before any access. -/
def init : LltReg := ⟨0, []⟩

/-- `rtw_write32` to the register. -/
def write32 (value : UInt32) (reg : LltReg) : LltReg :=
  { reg with log := reg.log ++ [.write value] }

/-- `rtw_read32` from the register. The device answers the `k`-th read with `status k`. -/
def read32 (status : ℕ → UInt32) (reg : LltReg) : UInt32 × LltReg :=
  (status reg.reads, ⟨reg.reads + 1, reg.log ++ [.read (status reg.reads)]⟩)

end LltReg

section Device

variable (status : ℕ → UInt32)

/-- The loop of `_LLTWrite`, and whether it succeeds. -/
def lltPoll (count : ℕ) (reg : LltReg) : Bool × LltReg :=
  let (value, reg) := reg.read32 status
  if lltNoActive = lltOpValue value then (true, reg)
  else if pollingLltThreshold < count then (false, reg)
  -- `while (count++)`
  else if count ≠ 0 then lltPoll (count + 1) reg
  else (true, reg)
termination_by pollingLltThreshold + 1 - count

/-- `_LLTWrite`. -/
def lltWrite (address data : UInt32) (reg : LltReg) : Bool × LltReg :=
  let value := lltInitAddr address ||| lltInitData data ||| lltOp lltWriteAccess
  lltPoll status 0 (reg.write32 value)

/-- A loop of `InitLLTTable` over `n` pages from page `i` on, each linked to the next. -/
def lltLoop : ℕ → UInt32 → LltReg → Bool × LltReg
  | 0, _, reg => (true, reg)
  | n + 1, i, reg =>
    let r := lltWrite status i (i + 1) reg
    if r.1 then lltLoop n (i + 1) r.2 else r

/-- `InitLLTTable`. `iolApplied` is the result of `rtw_IOL_applied`, and `iolInitLLTTable` the
offload path. -/
def initLLTTable (iolApplied : Bool) (iolInitLLTTable : UInt8 → LltReg → Bool × LltReg)
    (txpktbufBndy : UInt8) (reg : LltReg) : Bool × LltReg :=
  if iolApplied then iolInitLLTTable txpktbufBndy reg
  else
    let bndy := txpktbufBndy.toUInt32
    let r := lltLoop status (bndy - 1).toNat 0 reg
    if r.1 then
      -- end of list
      let r := lltWrite status (bndy - 1) 0xFF r.2
      if r.1 then
        -- the other pages as a ring
        let r := lltLoop status (lastEntryOfTxPktBuffer.toNat - bndy.toNat) bndy r.2
        if r.1 then lltWrite status lastEntryOfTxPktBuffer bndy r.2 else r
      else r
    else r

end Device

/-! ## What is claimed -/

/-- The register is idle. -/
def LltIdle (value : UInt32) : Prop := lltOpValue value = lltNoActive

instance : DecidablePred LltIdle := fun value =>
  inferInstanceAs (Decidable (lltOpValue value = lltNoActive))

/-- The entry and the link of a value that is written. -/
def lltEntry (value : UInt32) : ℕ × ℕ :=
  ((value >>> 8).toUInt8.toNat, value.toUInt8.toNat)

/-- The link table after accesses to the register. -/
def lltTable (log : List (Access UInt32 UInt32)) : ℕ → Option ℕ :=
  tableOf ((writes log).map lltEntry)

/-- The links of a table go along a path. -/
def Linked (t : ℕ → Option ℕ) (path : List ℕ) : Prop :=
  path.IsChain fun page next => t page = some next

/-- What is claimed of a run : if it is a success then each write was seen to be complete before
the next one, the pages below the boundary are a list that ends with `0xFF`, and the others
are a ring. -/
def TableRight (r : Bool × LltReg) (bndy : ℕ) : Prop :=
  r.1 = true → Acknowledged LltIdle r.2.log ∧
    Linked (lltTable r.2.log) (List.range bndy ++ [0xFF]) ∧
    Linked (lltTable r.2.log)
      (List.range' bndy (lastEntryOfTxPktBuffer.toNat + 1 - bndy) ++ [bndy])

/-! ## The accesses -/

/-- The value of an entry in `_LLTWrite`. -/
def lltValue (e : UInt32 × UInt32) : UInt32 :=
  lltInitAddr e.1 ||| lltInitData e.2 ||| lltOp lltWriteAccess

/-- The value names the entry and its link. -/
theorem lltEntry_lltValue (e : UInt32 × UInt32) :
    lltEntry (lltValue e) = (e.1.toNat % 256, e.2.toNat % 256) := by
  have haddr : (lltValue e >>> 8).toUInt8 = e.1.toUInt8 := by
    refine UInt8.toBitVec_inj.mp ?_
    ext i hi
    simp [lltValue, lltInitAddr, lltInitData, lltOp, lltWriteAccess]
    interval_cases i <;> simp
  have hdata : (lltValue e).toUInt8 = e.2.toUInt8 := by
    refine UInt8.toBitVec_inj.mp ?_
    ext i hi
    simp [lltValue, lltInitAddr, lltInitData, lltOp, lltWriteAccess]
    interval_cases i <;> simp
  rw [lltEntry, haddr, hdata, UInt32.toNat_toUInt8, UInt32.toNat_toUInt8]

section Device

variable (status : ℕ → UInt32)

/-- An entry is written and the status is read once. -/
def issue (reg : LltReg) (e : UInt32 × UInt32) : LltReg :=
  ⟨reg.reads + 1, reg.log ++ transaction (lltValue e, [status reg.reads])⟩

/-- The loop ends after one read. -/
theorem lltPoll_zero (reg : LltReg) : lltPoll status 0 reg = (true, (reg.read32 status).2) := by
  rw [lltPoll]
  simp only [Nat.not_lt_zero, ne_eq, not_true_eq_false, if_false, ite_self]

theorem lltWrite_eq (address data : UInt32) (reg : LltReg) :
    lltWrite status address data reg = (true, issue status reg (address, data)) := by
  rw [lltWrite, lltPoll_zero]
  simp only [LltReg.write32, LltReg.read32, List.append_assoc]
  rfl

/-- `n` pages from page `i` on, each linked to the next. -/
def pageLinks : ℕ → UInt32 → List (UInt32 × UInt32)
  | 0, _ => []
  | n + 1, i => (i, i + 1) :: pageLinks n (i + 1)

theorem lltLoop_eq : ∀ (n : ℕ) (i : UInt32) (reg : LltReg),
    lltLoop status n i reg = (true, (pageLinks n i).foldl (issue status) reg)
  | 0, _, _ => rfl
  | n + 1, i, reg => by
    rw [lltLoop, lltWrite_eq, pageLinks, List.foldl_cons, ← lltLoop_eq n]
    rfl

/-- The entries that `InitLLTTable` writes. -/
def lltEntries (bndy : UInt32) : List (UInt32 × UInt32) :=
  pageLinks (bndy - 1).toNat 0 ++ [(bndy - 1, 0xFF)] ++
    pageLinks (lastEntryOfTxPktBuffer.toNat - bndy.toNat) bndy ++ [(lastEntryOfTxPktBuffer, bndy)]

theorem initLLTTable_eq (iolInitLLTTable : UInt8 → LltReg → Bool × LltReg) (bndy : UInt8)
    (reg : LltReg) : initLLTTable status false iolInitLLTTable bndy reg =
      (true, (lltEntries bndy.toUInt32).foldl (issue status) reg) := by
  rw [lltEntries, List.foldl_append, List.foldl_append, List.foldl_append, initLLTTable]
  simp only [Bool.false_eq_true, if_false, lltLoop_eq, lltWrite_eq, if_true]
  rfl

/-- The accesses to the register are transactions with one read each. -/
theorem log_foldl_issue : ∀ (es : List (UInt32 × UInt32)) (reg : LltReg),
    (es.foldl (issue status) reg).log = reg.log ++
      ((es.zipIdx reg.reads).map fun e => (lltValue e.1, [status e.2])).flatMap transaction
  | [], reg => (List.append_nil _).symm
  | e :: es, reg => by
    rw [List.foldl_cons, log_foldl_issue es, List.zipIdx_cons, List.map_cons, List.flatMap_cons,
      ← List.append_assoc]
    rfl

theorem acknowledged_iff (es : List (UInt32 × UInt32)) :
    Acknowledged LltIdle (es.foldl (issue status) LltReg.init).log ↔
      ∀ k < es.length, LltIdle (status k) := by
  rw [log_foldl_issue, LltReg.init, List.nil_append, acknowledged_flatMap]
  constructor
  · intro h k hk
    obtain ⟨v, hv, hidle⟩ := h (lltValue es[k], [status k]) (List.mem_map.mpr ⟨(es[k], k),
      List.mk_mem_zipIdx_iff_getElem?.mpr (List.getElem?_eq_getElem hk), rfl⟩)
    rwa [List.mem_singleton.mp hv] at hidle
  · intro h t ht
    obtain ⟨⟨e, k⟩, hmem, rfl⟩ := List.mem_map.mp ht
    have hk := List.mk_mem_zipIdx_iff_getElem?.mp hmem
    exact ⟨status k, List.mem_singleton_self _, h k (List.getElem?_eq_some_iff.mp hk).1⟩

theorem writes_foldl (es : List (UInt32 × UInt32)) :
    writes (es.foldl (issue status) LltReg.init).log = es.map lltValue := by
  rw [log_foldl_issue, LltReg.init, List.nil_append, writes_flatMap, List.map_map]
  have hfst : (Prod.fst ∘ fun e : (UInt32 × UInt32) × ℕ => (lltValue e.1, [status e.2])) =
      lltValue ∘ Prod.fst := rfl
  rw [hfst, ← List.map_map, List.zipIdx_map_fst]

end Device

/-! ## The table -/

theorem map_pageLinks : ∀ (n : ℕ) (i : UInt32), i.toNat + n < 256 →
    (pageLinks n i).map (fun e => (e.1.toNat % 256, e.2.toNat % 256)) =
      (List.range' i.toNat n).map fun page => (page, page + 1)
  | 0, _, _ => rfl
  | n + 1, i, h => by
    have hnext : (i + 1).toNat = i.toNat + 1 := by
      rw [UInt32.toNat_add, UInt32.toNat_one]
      exact Nat.mod_eq_of_lt (by omega)
    have hpage : i.toNat % 256 = i.toNat := Nat.mod_eq_of_lt (by omega)
    have hlink : (i + 1).toNat % 256 = i.toNat + 1 := by
      rw [hnext, Nat.mod_eq_of_lt (by omega)]
    rw [pageLinks, List.map_cons, map_pageLinks n (i + 1) (by omega), hpage, hlink, hnext,
      List.range'_succ, List.map_cons]

/-- The entries with their links. -/
def lltLinks (bndy : ℕ) : List (ℕ × ℕ) :=
  (List.range' 0 (bndy - 1)).map (fun page => (page, page + 1)) ++ [(bndy - 1, 0xFF)] ++
    (List.range' bndy (176 - bndy)).map (fun page => (page, page + 1)) ++ [(176, bndy)]

theorem map_lltEntries {bndy : UInt8} (h1 : 1 ≤ bndy.toNat) (h176 : bndy.toNat ≤ 176) :
    (lltEntries bndy.toUInt32).map (fun e => (e.1.toNat % 256, e.2.toNat % 256)) =
      lltLinks bndy.toNat := by
  have hpred : (bndy.toUInt32 - 1).toNat = bndy.toNat - 1 := by
    rw [UInt32.toNat_sub_of_le _ _ (UInt32.le_iff_toNat_le.mpr (by simpa using h1))]
    rfl
  have hfirst := map_pageLinks (bndy.toNat - 1) 0 (by rw [UInt32.toNat_zero]; omega)
  have hring := map_pageLinks (176 - bndy.toNat) bndy.toUInt32
    (by rw [UInt8.toNat_toUInt32]; omega)
  have hlast : lastEntryOfTxPktBuffer.toNat = 176 := rfl
  have hmod : (bndy.toNat - 1) % 256 = bndy.toNat - 1 := Nat.mod_eq_of_lt (by omega)
  have hbndy : bndy.toNat % 256 = bndy.toNat := Nat.mod_eq_of_lt bndy.toNat_lt
  rw [lltEntries, lltLinks, List.map_append, List.map_append, List.map_append, hpred, hlast,
    UInt8.toNat_toUInt32, hfirst, hring]
  simp only [List.map_cons, List.map_nil, hpred, hlast, hmod, UInt8.toNat_toUInt32, hbndy,
    UInt32.toNat_zero]
  rfl

theorem fst_lltLinks {bndy : ℕ} (h1 : 1 ≤ bndy) (h176 : bndy ≤ 176) :
    (lltLinks bndy).map Prod.fst = List.range' 0 177 := by
  obtain ⟨n, rfl⟩ := Nat.exists_eq_add_of_le' h1
  obtain ⟨k, hk⟩ := Nat.exists_eq_add_of_le h176
  have hcompose : (Prod.fst ∘ fun page : ℕ => (page, page + 1)) = id := rfl
  have hring : 176 - (n + 1) = k := by omega
  have hlist : List.range' 0 (n + 1) = List.range' 0 n ++ [n] := by
    rw [List.range'_1_concat, Nat.zero_add]
  have hpages : List.range' 0 (n + 1 + k) = List.range' 0 (n + 1) ++ List.range' (n + 1) k := by
    rw [← List.range'_append_1, Nat.zero_add]
  rw [lltLinks, Nat.add_sub_cancel, hring]
  simp only [List.map_append, List.map_map, hcompose, List.map_id, List.map_cons, List.map_nil]
  rw [← hlist, ← hpages, ← hk]
  exact List.range'_1_concat.symm

/-- A path of pages that are linked to the next, but the last of them. -/
theorem linked_range' (t : ℕ → Option ℕ) (last : ℕ) : ∀ n s : ℕ,
    Linked t (List.range' s (n + 1) ++ [last]) ↔
      (∀ page ∈ List.range' s n, t page = some (page + 1)) ∧ t (s + n) = some last
  | 0, s => by simp [Linked]
  | n + 1, s => by
    have ih := linked_range' t last n (s + 1)
    rw [Nat.add_right_comm, Nat.add_assoc s n 1] at ih
    have hfirst : List.range' s (n + 1) = s :: List.range' (s + 1) n := List.range'_succ
    rw [List.range'_succ, hfirst, List.forall_mem_cons, and_assoc, ← ih,
      List.range'_succ, Linked, List.cons_append, List.cons_append, List.isChain_cons_cons]
    rfl

section Device

variable (status : ℕ → UInt32) (iolInitLLTTable : UInt8 → LltReg → Bool × LltReg)

/-- All entries are written once, in order, whatever is read. -/
theorem lltTable_eq {bndy : UInt8} (h1 : 1 ≤ bndy.toNat) (h176 : bndy.toNat ≤ 176) {page link : ℕ}
    (hmem : (page, link) ∈ lltLinks bndy.toNat) :
    lltTable (initLLTTable status false iolInitLLTTable bndy LltReg.init).2.log page =
      some link := by
  have hentries : (lltEntries bndy.toUInt32).map (lltEntry ∘ lltValue) = lltLinks bndy.toNat := by
    rw [← map_lltEntries h1 h176]
    exact List.map_congr_left fun e _ => lltEntry_lltValue e
  rw [initLLTTable_eq, lltTable, writes_foldl, List.map_map, hentries]
  refine tableOf_of_mem ?_ hmem
  rw [fst_lltLinks h1 h176]
  exact List.nodup_range'

theorem length_lltEntries {bndy : UInt8} (h1 : 1 ≤ bndy.toNat) (h176 : bndy.toNat ≤ 176) :
    (lltEntries bndy.toUInt32).length = 177 := by
  have hlength := congrArg List.length (fst_lltLinks h1 h176)
  rwa [← map_lltEntries h1 h176, List.length_map, List.length_map, List.length_range'] at hlength

/-- Each write has one read behind it. -/
theorem acknowledged_initLLTTable {bndy : UInt8} (h1 : 1 ≤ bndy.toNat) (h176 : bndy.toNat ≤ 176) :
    Acknowledged LltIdle (initLLTTable status false iolInitLLTTable bndy LltReg.init).2.log ↔
      ∀ k < 177, LltIdle (status k) := by
  rw [initLLTTable_eq, acknowledged_iff, length_lltEntries h1 h176]

theorem initLLTTable_success (bndy : UInt8) :
    (initLLTTable status false iolInitLLTTable bndy LltReg.init).1 = true := by
  rw [initLLTTable_eq]

/-- The table is right exactly if the device is idle at the first read behind each write. There
are 177 writes, each with one read. -/
theorem tableRight_iff (bndy : UInt8) (h1 : 1 ≤ bndy.toNat)
    (h176 : bndy.toNat ≤ lastEntryOfTxPktBuffer.toNat) :
    TableRight (initLLTTable status false iolInitLLTTable bndy LltReg.init) bndy.toNat ↔
      ∀ k < lastEntryOfTxPktBuffer.toNat + 1, LltIdle (status k) := by
  have hlast : lastEntryOfTxPktBuffer.toNat = 176 := rfl
  rw [hlast] at h176 ⊢
  have hlink := @lltTable_eq status iolInitLLTTable bndy h1 h176
  have hack := acknowledged_initLLTTable status iolInitLLTTable h1 h176
  refine ⟨fun h => hack.mp (h (initLLTTable_success ..)).1, fun h _ => ⟨hack.mpr h, ?_, ?_⟩⟩
  · obtain ⟨n, hn⟩ := Nat.exists_eq_add_of_le' h1
    rw [hn, List.range_eq_range', linked_range']
    rw [hn] at hlink
    refine ⟨fun page hpage => hlink ?_, hlink ?_⟩
    · exact List.mem_append_left _ (List.mem_append_left _ (List.mem_append_left _
        (List.mem_map.mpr ⟨page, hpage, rfl⟩)))
    · rw [Nat.zero_add]
      exact List.mem_append_left _ (List.mem_append_left _
        (List.mem_append_right _ (List.mem_singleton_self _)))
  · obtain ⟨k, hk⟩ := Nat.exists_eq_add_of_le h176
    have hlen : 176 + 1 - bndy.toNat = k + 1 := by omega
    have hring : 176 - bndy.toNat = k := by omega
    rw [hlast, hlen, linked_range', ← hk]
    refine ⟨fun page hpage => hlink ?_, hlink ?_⟩
    · rw [lltLinks, hring]
      exact List.mem_append_left _ (List.mem_append_right _ (List.mem_map.mpr ⟨page, hpage, rfl⟩))
    · exact List.mem_append_right _ (List.mem_singleton_self _)

end Device

theorem tableRight_idle :
    TableRight (initLLTTable (fun _ => 0) false (fun _ reg => (false, reg)) 1 LltReg.init) 1 :=
  (tableRight_iff _ _ 1 (by decide) (by decide)).mpr fun _ _ => by decide

/-- A device that stays busy : the table is reported as a success, and no write was seen to be
complete. -/
theorem not_tableRight_busy : ¬ TableRight
    (initLLTTable (fun _ => 0x40000000) false (fun _ reg => (false, reg)) 1 LltReg.init) 1 := by
  intro h
  have hack := (h (initLLTTable_success ..)).1
  rw [acknowledged_initLLTTable _ _ (by decide) (by decide)] at hack
  exact absurd (hack 0 (by omega)) (by decide)

end Rtl8188eu
