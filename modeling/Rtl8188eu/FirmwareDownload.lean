import Rtl8188eu.ByteMem
import Rtl8188eu.CheckedCommands

/-!
# The firmware download

`_WriteFW` writes the firmware in pages of 4096 bytes. It selects a page with a write of
`REG_MCUFWDL+2`, and `_BlockWrite` writes the page in blocks of 196 bytes, the rest of it in blocks
of 8 bytes, and what is left byte by byte.

The results of the blocks are looked at, and the result of the page selection is not
(`coversRight_iff`).
-/

namespace Rtl8188eu

open CheckedCommands

/-! ## The functions of the source -/

/-- `FW_8188E_START_ADDRESS`. -/
def fw8188eStartAddress : ℕ := 0x1000

/-- `MAX_PAGE_SIZE`. -/
def maxPageSize : ℕ := 4096

/-- `MAX_REG_BOLCK_SIZE`. -/
def maxRegBolckSize : ℕ := 196

/-- `REG_MCUFWDL`. -/
def regMcufwdl : ℕ := 0x0080

/-- A write to the device. -/
structure RegWrite where
  addr : ℕ
  data : List UInt8
  deriving DecidableEq

/-- What the device answers : whether the `n`-th write succeeds, and what is read from
`REG_MCUFWDL+2` in front of it. -/
structure FwDevice where
  ok : ℕ → Bool
  mcufwdl2 : ℕ → UInt8

namespace FwDevice

variable (d : FwDevice) (m : Mem)

/-- `rtw_writeN` and `rtw_write8` : whether the write succeeds, and the writes so far. -/
def writeN (addr : ℕ) (data : List UInt8) (log : List RegWrite) : Bool × List RegWrite :=
  (d.ok log.length, log ++ [⟨addr, data⟩])

/-- A loop of `_BlockWrite` from block `i` on, with blocks of `blockSize` bytes behind `offset`. -/
def blockLoop (bufferPtr : ℤ) (offset blockSize : ℕ) : ℕ → ℕ → List RegWrite → Bool × List RegWrite
  | 0, _, log => (true, log)
  | n + 1, i, log =>
    let r := d.writeN (fw8188eStartAddress + offset + i * blockSize)
      (m.read (bufferPtr + offset + (i * blockSize : ℕ)) blockSize) log
    if r.1 then blockLoop bufferPtr offset blockSize n (i + 1) r.2 else r

/-- `_BlockWrite`. -/
def blockWrite (bufferPtr : ℤ) (buffSize : ℕ) (log : List RegWrite) : Bool × List RegWrite :=
  let blockCountP1 := buffSize / maxRegBolckSize
  let remainSizeP1 := buffSize % maxRegBolckSize
  let r := d.blockLoop m bufferPtr 0 maxRegBolckSize blockCountP1 0 log
  if r.1 then
    let offset := blockCountP1 * maxRegBolckSize
    let blockCountP2 := if remainSizeP1 ≠ 0 then remainSizeP1 / 8 else 0
    let remainSizeP2 := if remainSizeP1 ≠ 0 then remainSizeP1 % 8 else 0
    let r := d.blockLoop m bufferPtr offset 8 blockCountP2 0 r.2
    if r.1 then
      let offset := blockCountP1 * maxRegBolckSize + blockCountP2 * 8
      d.blockLoop m bufferPtr offset 1 remainSizeP2 0 r.2
    else r
  else r

/-- `_PageWrite`. The result of the write to `REG_MCUFWDL+2` is not looked at. -/
def pageWrite (page : ℕ) (buffer : ℤ) (size : ℕ) (log : List RegWrite) : Bool × List RegWrite :=
  let u8Page := UInt8.ofNat (page &&& 0x07)
  let value8 := (d.mcufwdl2 log.length &&& 0xF8) ||| u8Page
  d.blockWrite m buffer size (d.writeN (regMcufwdl + 2) [value8] log).2

/-- The loop of `_WriteFW`, from page `page` on. -/
def pageLoop (bufferPtr : ℤ) : ℕ → ℕ → List RegWrite → Bool × List RegWrite
  | 0, _, log => (true, log)
  | n + 1, page, log =>
    let r := d.pageWrite m page (bufferPtr + (page * maxPageSize : ℕ)) maxPageSize log
    if r.1 then pageLoop bufferPtr n (page + 1) r.2 else r

/-- `_WriteFW` : whether it succeeds, and all writes. -/
def writeFW (buffer : ℤ) (size : ℕ) : Bool × List RegWrite :=
  let pageNums := size / maxPageSize
  let remainSize := size % maxPageSize
  let r := d.pageLoop m buffer pageNums 0 []
  if r.1 then
    if remainSize ≠ 0 then d.pageWrite m pageNums (buffer + (pageNums * maxPageSize : ℕ)) remainSize
      r.2 else r
  else r

end FwDevice

/-! ## What is claimed -/

/-- Bytes at consecutive addresses of a page. -/
def pageBytes (page : ℕ) : ℕ → List UInt8 → List (ℕ × ℕ × UInt8)
  | _, [] => []
  | addr, b :: bs => (page, addr, b) :: pageBytes page (addr + 1) bs

/-- The bytes that are written to the firmware area, with their pages and addresses. The page is the
one that was selected last. -/
def fwBytes : ℕ → List RegWrite → List (ℕ × ℕ × UInt8)
  | _, [] => []
  | page, w :: ws =>
    if w.addr = regMcufwdl + 2 then fwBytes ((w.data.headD 0) &&& 0x07).toNat ws
    else pageBytes page w.addr w.data ++ fwBytes page ws

/-- Byte `j` of the image, at its place. -/
def fwByteAt (m : Mem) (buffer : ℤ) (j : ℕ) : ℕ × ℕ × UInt8 :=
  (j / maxPageSize, fw8188eStartAddress + j % maxPageSize, m (buffer + j))

namespace FwDevice

/-- What is claimed : if all writes succeed then each byte is written once, in order, and nothing
else is, and at a write that fails the download fails and stops. -/
def CoversRight (d : FwDevice) (m : Mem) (buffer : ℤ) (size : ℕ) : Prop :=
  ((∀ n < (d.writeFW m buffer size).2.length, d.ok n = true) → (d.writeFW m buffer size).1 = true ∧
    ∀ page, fwBytes page (d.writeFW m buffer size).2 = (List.range size).map (fwByteAt m buffer)) ∧
  ∀ n < (d.writeFW m buffer size).2.length, d.ok n = false →
    (d.writeFW m buffer size).1 = false ∧ (d.writeFW m buffer size).2.length = n + 1

/-- The number of writes of a whole page : the page is selected, then there are 20 blocks of 196
bytes and 22 blocks of 8 bytes. -/
def pageWrites : ℕ := 43

/-- The first write that fails does not select a page. -/
def PagesSelected (d : FwDevice) (size : ℕ) : Prop :=
  ∀ page < (size + (maxPageSize - 1)) / maxPageSize, (∀ n < pageWrites * page, d.ok n = true) →
    d.ok (pageWrites * page) = true

end FwDevice

/-! ## Tiles -/

/-- Blocks of `s` numbers, one after another. -/
theorem flatMap_blocks {α : Type*} (f : ℕ → α) (s : ℕ) : ∀ n,
    ((List.range n).flatMap fun i => (List.range s).map fun k => f (i * s + k)) =
    (List.range (n * s)).map f
  | 0 => by rw [Nat.zero_mul, List.range_zero, List.flatMap_nil, List.map_nil]
  | n + 1 => by
    rw [List.range_succ, List.flatMap_append, flatMap_blocks f s n, List.flatMap_singleton,
      Nat.succ_mul, List.range_add,
      List.map_append, List.map_map]
    rfl

theorem map_range_add {α : Type*} (f : ℕ → α) (a b : ℕ) :
    (List.range (a + b)).map f = (List.range a).map f ++ (List.range b).map fun k => f (a + k) := by
  rw [List.range_add, List.map_append, List.map_map]
  rfl

theorem pageBytes_read (m : Mem) (page : ℕ) : ∀ (n addr : ℕ) (p : ℤ),
    pageBytes page addr (m.read p n) = (List.range n).map fun k => (page, addr + k, m (p + k))
  | 0, _, _ => rfl
  | n + 1, addr, p => by
    have hnext : ∀ k : ℕ, p + 1 + (k : ℤ) = p + (k + 1 : ℕ) := by
      intro k
      push_cast
      ring
    rw [Mem.read, pageBytes, pageBytes_read m page n, List.range_succ_eq_map, List.map_cons,
      List.map_map]
    simp only [Nat.cast_zero, add_zero]
    refine congrArg (List.cons _) (List.map_congr_left fun k _ => ?_)
    rw [Function.comp_apply, hnext, Nat.add_assoc, Nat.add_comm 1, Nat.succ_eq_add_one]

/-! ## The writes -/

/-- `n` blocks from block `i` on. -/
def blocks (m : Mem) (bufferPtr : ℤ) (offset blockSize i n : ℕ) : List RegWrite :=
  (List.range' i n).map fun i =>
    ⟨fw8188eStartAddress + offset + i * blockSize,
      m.read (bufferPtr + offset + (i * blockSize : ℕ)) blockSize⟩

/-- The blocks of a page. -/
def blockPlan (m : Mem) (buffer : ℤ) (size : ℕ) : List RegWrite :=
  blocks m buffer 0 maxRegBolckSize 0 (size / maxRegBolckSize) ++
    (blocks m buffer (size / maxRegBolckSize * maxRegBolckSize) 8 0 (size % maxRegBolckSize / 8) ++
      blocks m buffer (size / maxRegBolckSize * maxRegBolckSize + size % maxRegBolckSize / 8 * 8) 1
      0
        (size % maxRegBolckSize % 8))

namespace FwDevice

variable (d : FwDevice) (m : Mem)

/-- The write that selects a page, as the `n`-th one. -/
def select (n page : ℕ) : RegWrite :=
  ⟨regMcufwdl + 2, [(d.mcufwdl2 n &&& 0xF8) ||| UInt8.ofNat (page &&& 0x07)]⟩

/-- The writes of a page from the `n`-th one on. Selecting the page is not checked. -/
def pagePlan (n page : ℕ) (buffer : ℤ) (size : ℕ) : List (Bool × RegWrite) :=
  (false, d.select n page) :: (blockPlan m buffer size).map fun w => (true, w)

/-- The writes of whole pages. -/
def pagesPlan (buffer : ℤ) (page n : ℕ) : List (Bool × RegWrite) :=
  (List.range' page n).flatMap fun p =>
    d.pagePlan m (pageWrites * p) p (buffer + (p * maxPageSize : ℕ)) maxPageSize

/-- The writes of the rest of the image. -/
def restPlan (buffer : ℤ) (size : ℕ) : List (Bool × RegWrite) :=
  if size % maxPageSize ≠ 0 then
    d.pagePlan m (pageWrites * (size / maxPageSize)) (size / maxPageSize)
      (buffer + (size / maxPageSize * maxPageSize : ℕ)) (size % maxPageSize)
  else []

/-- A function issues the writes `ws` from the `n`-th one on. -/
def Issues (n : ℕ) (f : List RegWrite → Bool × List RegWrite) (ws : List (Bool × RegWrite)) :
    Prop :=
  ∀ log : List RegWrite, log.length = n → f log = ((exec d.ok n ws).1, log ++ (exec d.ok n ws).2)

variable {d m} {n : ℕ} {f g : List RegWrite → Bool × List RegWrite} {as bs : List (Bool × RegWrite)}

theorem issues_nil : d.Issues n (fun log => (true, log)) [] := fun log _ => by
  rw [exec, List.append_nil]

theorem issues_writeN (addr : ℕ) (data : List UInt8) :
    d.Issues n (d.writeN addr data) [(true, ⟨addr, data⟩)] := by
  intro log hlog
  rw [writeN, hlog]
  cases hok : d.ok n with
  | true => rw [exec_cons_of_ok hok, exec]
  | false => rw [exec_cons_checked hok]

/-- What is checked goes on with the rest. -/
theorem Issues.seq (hf : d.Issues n f as) (hg : d.Issues (n + as.length) g bs) :
    d.Issues n (fun log => if (f log).1 then g (f log).2 else f log) (as ++ bs) := by
  intro log hlog
  dsimp only
  rw [hf log hlog, exec_append]
  dsimp only
  cases hres : (exec d.ok n as).1 with
  | true =>
    have hlen : (log ++ (exec d.ok n as).2).length = n + as.length := by
      rw [List.length_append, hlog, exec_of_fst hres, List.length_map]
    rw [if_pos rfl, if_pos rfl, hg _ hlen, List.append_assoc]
  | false => rw [if_neg Bool.false_ne_true, if_neg Bool.false_ne_true, hres]

variable (d m)

theorem issues_blockLoop (bufferPtr : ℤ) (offset blockSize : ℕ) : ∀ (cnt i n : ℕ),
    d.Issues n (d.blockLoop m bufferPtr offset blockSize cnt i)
      ((blocks m bufferPtr offset blockSize i cnt).map fun w => (true, w))
  | 0, _, _ => issues_nil
  | cnt + 1, i, n => (issues_writeN _ _).seq (issues_blockLoop bufferPtr offset blockSize cnt
    (i + 1) (n + 1))

theorem issues_blockWrite (buffer : ℤ) (size n : ℕ) :
    d.Issues n (d.blockWrite m buffer size) ((blockPlan m buffer size).map fun w => (true, w)) := by
  have hp2 : (if size % maxRegBolckSize ≠ 0 then size % maxRegBolckSize / 8 else 0) =
    size % maxRegBolckSize / 8 := by
    split_ifs with h
    · rfl
    · rw [not_not.mp h]
  have hp3 : (if size % maxRegBolckSize ≠ 0 then size % maxRegBolckSize % 8 else 0) =
    size % maxRegBolckSize % 8 := by
    split_ifs with h
    · rfl
    · rw [not_not.mp h]
  rw [blockPlan, List.map_append, List.map_append]
  have hwrite := (d.issues_blockLoop m buffer 0 maxRegBolckSize (size / maxRegBolckSize) 0 n).seq
    ((d.issues_blockLoop m buffer (size / maxRegBolckSize * maxRegBolckSize) 8
      (size % maxRegBolckSize / 8) 0 _).seq
      (d.issues_blockLoop m buffer
      (size / maxRegBolckSize * maxRegBolckSize + size % maxRegBolckSize / 8 * 8) 1
        (size % maxRegBolckSize % 8) 0 _))
  intro log hlog
  rw [← hwrite log hlog, blockWrite]
  dsimp only
  rw [hp2, hp3]

theorem issues_pageWrite (page : ℕ) (buffer : ℤ) (size n : ℕ) :
    d.Issues n (d.pageWrite m page buffer size) (d.pagePlan m n page buffer size) := by
  intro log hlog
  have hlen : (log ++ [d.select n page]).length = n + 1 := by
    rw [List.length_append, hlog, List.length_singleton]
  have hblocks := d.issues_blockWrite m buffer size (n + 1) _ hlen
  rw [pagePlan, exec_cons_unchecked, List.append_cons, ← hblocks, pageWrite, hlog]
  rfl

theorem length_blocks (bufferPtr : ℤ) (offset blockSize i cnt : ℕ) :
    (blocks m bufferPtr offset blockSize i cnt).length = cnt := by
  rw [blocks, List.length_map, List.length_range']

theorem length_pagePlan (n page : ℕ) (buffer : ℤ) :
    (d.pagePlan m n page buffer maxPageSize).length = pageWrites := by
  rw [pagePlan, List.length_cons, List.length_map, blockPlan, List.length_append,
    List.length_append, length_blocks,
    length_blocks, length_blocks]
  decide

theorem issues_pageLoop (buffer : ℤ) : ∀ cnt page : ℕ,
    d.Issues (pageWrites * page) (d.pageLoop m buffer cnt page) (d.pagesPlan m buffer page cnt)
  | 0, _ => issues_nil
  | cnt + 1, page => by
    have hnext := issues_pageLoop buffer cnt (page + 1)
    rw [Nat.mul_succ, ← d.length_pagePlan m (pageWrites * page) page
      (buffer + (page * maxPageSize : ℕ))] at hnext
    exact (d.issues_pageWrite m page _ _ _).seq hnext

theorem length_pagesPlan (buffer : ℤ) :
    ∀ cnt page : ℕ, (d.pagesPlan m buffer page cnt).length = pageWrites * cnt
  | 0, _ => rfl
  | cnt + 1, page => by
    rw [pagesPlan, List.range'_succ, List.flatMap_cons, List.length_append, length_pagePlan,
      Nat.mul_succ, Nat.add_comm,
      ← length_pagesPlan buffer cnt (page + 1), pagesPlan]

/-- The download issues its writes in order. -/
theorem writeFW_eq (d : FwDevice) (m : Mem) (buffer : ℤ) (size : ℕ) : d.writeFW m buffer size =
    exec d.ok 0 (d.pagesPlan m buffer 0 (size / maxPageSize) ++ d.restPlan m buffer size) := by
  have hpages := d.issues_pageLoop m buffer (size / maxPageSize) 0
  rw [Nat.mul_zero] at hpages
  unfold writeFW restPlan
  dsimp only
  by_cases hrest : size % maxPageSize ≠ 0
  · have hrestWrites := d.issues_pageWrite m (size / maxPageSize)
      (buffer + (size / maxPageSize * maxPageSize : ℕ)) (size % maxPageSize)
        (pageWrites * (size / maxPageSize))
    rw [← d.length_pagesPlan m buffer (size / maxPageSize) 0,
      ← Nat.zero_add (List.length _)] at hrestWrites
    have hall := hpages.seq hrestWrites [] rfl
    rw [List.nil_append, Nat.zero_add, length_pagesPlan] at hall
    rw [if_pos hrest, if_pos hrest]
    exact hall
  · rw [if_neg hrest, if_neg hrest, List.append_nil, ite_self, hpages [] rfl, List.nil_append]

/-! ## The first failure -/

theorem firstChecked_pagePlan (n k page : ℕ) (buffer : ℤ) (size : ℕ) :
    FirstChecked d.ok k (d.pagePlan m n page buffer size) ↔ d.ok k = true := by
  rw [pagePlan, FirstChecked]
  split_ifs with hok
  · exact iff_of_true (firstChecked_checked ..) hok
  · exact iff_of_false not_false hok

theorem firstChecked_pagesPlan (buffer : ℤ) :
    ∀ cnt, FirstChecked d.ok 0 (d.pagesPlan m buffer 0 cnt) ↔
    ∀ page < cnt, (∀ n < pageWrites * page, d.ok n = true) → d.ok (pageWrites * page) = true
  | 0 => iff_of_true trivial fun page h => absurd h (Nat.not_lt_zero page)
  | cnt + 1 => by
    have hsplit : d.pagesPlan m buffer 0 (cnt + 1) = d.pagesPlan m buffer 0 cnt ++
        d.pagePlan m (pageWrites * cnt) cnt (buffer + (cnt * maxPageSize : ℕ)) maxPageSize := by
      rw [pagesPlan, List.range'_concat, List.flatMap_append, List.flatMap_singleton, Nat.zero_add,
        Nat.one_mul, pagesPlan]
    rw [hsplit, firstChecked_append, firstChecked_pagesPlan buffer cnt, firstChecked_pagePlan,
      length_pagesPlan]
    simp only [Nat.zero_add]
    constructor
    · rintro ⟨hpages, hlast⟩ page hlt
      rcases Nat.lt_succ_iff_lt_or_eq.mp hlt with hlt | rfl
      · exact hpages page hlt
      · exact hlast
    · exact fun h => ⟨fun page hlt => h page (Nat.lt_succ_of_lt hlt), h cnt (Nat.lt_succ_self cnt)⟩

/-- The pages of an image, with the one that is not whole. -/
theorem pages_eq (size : ℕ) : (size + (maxPageSize - 1)) / maxPageSize =
    size / maxPageSize + if size % maxPageSize ≠ 0 then 1 else 0 := by
  unfold maxPageSize
  split_ifs with h <;> omega

theorem firstChecked_iff (buffer : ℤ) (size : ℕ) :
    FirstChecked d.ok 0 (d.pagesPlan m buffer 0 (size / maxPageSize) ++ d.restPlan m buffer size) ↔
      d.PagesSelected size := by
  rw [firstChecked_append, firstChecked_pagesPlan, length_pagesPlan, PagesSelected,
    pages_eq, restPlan]
  simp only [Nat.zero_add]
  by_cases hrest : size % maxPageSize ≠ 0
  · rw [if_pos hrest, if_pos hrest, firstChecked_pagePlan]
    constructor
    · rintro ⟨hpages, hlast⟩ page hlt
      rcases Nat.lt_succ_iff_lt_or_eq.mp hlt with hlt | rfl
      · exact hpages page hlt
      · exact hlast
    · exact fun h => ⟨fun page hlt => h page (Nat.lt_succ_of_lt hlt), h _ (Nat.lt_succ_self _)⟩
  · rw [if_neg hrest, if_neg hrest, Nat.add_zero]
    exact and_iff_left fun _ => trivial

end FwDevice

/-! ## The bytes -/

section Bytes

variable {page : ℕ} {ws rest : List RegWrite}

/-- Writes to the firmware area. -/
theorem fwBytes_append (h : ∀ w ∈ ws, w.addr ≠ regMcufwdl + 2) :
    fwBytes page (ws ++ rest) = (ws.flatMap fun w => pageBytes page w.addr w.data) ++ fwBytes page
      rest := by
  induction ws with
  | nil => rfl
  | cons w ws ih =>
    rw [List.cons_append, fwBytes, if_neg (h w List.mem_cons_self),
      ih fun x hx => h x (List.mem_cons_of_mem w hx),
      List.flatMap_cons, List.append_assoc]

theorem addr_of_mem_blocks {m : Mem} {bufferPtr : ℤ} {offset blockSize i n : ℕ} :
    ∀ w ∈ blocks m bufferPtr offset blockSize i n, w.addr ≠ regMcufwdl + 2 := by
  intro w hw
  obtain ⟨k, -, rfl⟩ := List.mem_map.mp hw
  unfold fw8188eStartAddress regMcufwdl
  dsimp only
  omega

/-- The bytes of blocks. -/
theorem fwBytes_blocks (m : Mem) (buffer : ℤ) (offset blockSize n : ℕ) :
    fwBytes page (blocks m buffer offset blockSize 0 n ++ rest) =
      ((List.range (n * blockSize)).map fun k => (page, fw8188eStartAddress + (offset + k), m
      (buffer + (offset + k : ℕ)))) ++
        fwBytes page rest := by
  rw [fwBytes_append addr_of_mem_blocks, ← flatMap_blocks, blocks, List.flatMap_map,
    ← List.range_eq_range']
  refine congrArg (· ++ fwBytes page rest) (List.flatMap_congr fun i _ => ?_)
  rw [pageBytes_read]
  refine List.map_congr_left fun k _ => ?_
  rw [Nat.add_assoc, Nat.add_assoc, add_assoc, add_assoc, ← Nat.cast_add, ← Nat.cast_add]

/-- The blocks of a page cover it. -/
theorem fwBytes_blockPlan (m : Mem) (buffer : ℤ) (size : ℕ) :
    fwBytes page (blockPlan m buffer size ++ rest) =
    ((List.range size).map fun k => (page, fw8188eStartAddress + k, m (buffer + k))) ++ fwBytes page
    rest := by
  have hsize : size = size / maxRegBolckSize * maxRegBolckSize +
      (size % maxRegBolckSize / 8 * 8 + size % maxRegBolckSize % 8 * 1) := by
    unfold maxRegBolckSize
    omega
  rw [blockPlan, List.append_assoc, List.append_assoc, fwBytes_blocks, fwBytes_blocks,
    fwBytes_blocks]
  conv_rhs => rw [hsize, map_range_add, map_range_add, List.append_assoc, List.append_assoc]
  simp only [Nat.zero_add, Nat.add_assoc]

theorem selected_eq (x : UInt8) (h : page < 8) :
    (((x &&& 0xF8) ||| UInt8.ofNat (page &&& 0x07)) &&& 0x07).toNat = page := by
  have hmask : (x &&& 0xF8 ||| UInt8.ofNat (page &&& 0x07)) &&& 0x07 = UInt8.ofNat page := by
    interval_cases page <;> (rw [← UInt8.toBitVec_inj]; ext i hi; interval_cases i <;> simp)
  rw [hmask, UInt8.toNat_ofNat', Nat.mod_eq_of_lt (by omega)]

end Bytes

namespace FwDevice

variable (d : FwDevice) (m : Mem) (buffer : ℤ)

theorem fwBytes_select {page page' : ℕ} (n : ℕ) (rest : List RegWrite) (h : page < 8) :
    fwBytes page' (d.select n page :: rest) = fwBytes page rest := by
  have haddr : (d.select n page).addr = regMcufwdl + 2 := rfl
  rw [fwBytes, if_pos haddr, select, List.headD_cons, selected_eq _ h]

/-- A page, whatever was selected before. -/
theorem fwBytes_pagePlan {page page' : ℕ} (n size : ℕ) (rest : List RegWrite) (h : page < 8) :
    fwBytes page' ((d.pagePlan m n page (buffer + (page * maxPageSize : ℕ)) size).map
      Prod.snd ++ rest) =
      ((List.range size).map fun k =>
        (page, fw8188eStartAddress + k, m (buffer + (page * maxPageSize : ℕ) + k))) ++ fwBytes page
        rest := by
  have hwrites : ((blockPlan m (buffer + (page * maxPageSize : ℕ)) size).map fun w => (true, w)).map
    Prod.snd =
      blockPlan m (buffer + (page * maxPageSize : ℕ)) size := by
    rw [List.map_map]
    exact List.map_id' _
  rw [pagePlan, List.map_cons, hwrites, List.cons_append, d.fwBytes_select n _ h, fwBytes_blockPlan]

/-- The bytes of a page are at their places. -/
theorem fwByteAt_page (page k : ℕ) (h : k < maxPageSize) :
    fwByteAt m buffer (page * maxPageSize + k) =
    (page, fw8188eStartAddress + k, m (buffer + (page * maxPageSize : ℕ) + k)) := by
  have hdiv : (page * maxPageSize + k) / maxPageSize = page := by
    rw [Nat.add_comm, Nat.add_mul_div_right _ _ (by decide), Nat.div_eq_of_lt h, Nat.zero_add]
  have hmod : (page * maxPageSize + k) % maxPageSize = k := by
    rw [Nat.mul_add_mod_self_right, Nat.mod_eq_of_lt h]
  rw [fwByteAt, hdiv, hmod, Nat.cast_add, add_assoc]

/-- The whole pages cover the image up to its last page. -/
theorem fwBytes_pagesPlan (rest : List RegWrite)
    (hrest : ∀ page page', fwBytes page rest = fwBytes page' rest) :
    ∀ cnt ≤ 8, ∀ page', fwBytes page' ((d.pagesPlan m buffer 0 cnt).map Prod.snd ++ rest) =
      (List.range (cnt * maxPageSize)).map (fwByteAt m buffer) ++ fwBytes 0 rest := by
  intro cnt hle
  induction cnt generalizing rest with
  | zero => intro page'; exact hrest page' 0
  | succ cnt ih =>
    intro page'
    have hplan : ∀ q, fwBytes q
      ((d.pagePlan m (pageWrites * cnt) cnt (buffer + (cnt * maxPageSize : ℕ))
        maxPageSize).map Prod.snd ++ rest) =
        ((List.range maxPageSize).map fun k => fwByteAt m buffer (cnt * maxPageSize + k)) ++ fwBytes
          0 rest := by
      intro q
      rw [d.fwBytes_pagePlan m buffer _ _ _ hle, hrest cnt 0]
      refine congrArg (· ++ fwBytes 0 rest) (List.map_congr_left fun k hk => ?_)
      exact (fwByteAt_page m buffer cnt k (List.mem_range.mp hk)).symm
    rw [pagesPlan, List.range'_concat, List.flatMap_append, List.flatMap_singleton, Nat.zero_add,
      Nat.one_mul,
      List.map_append, List.append_assoc, ← pagesPlan, ih
      _ (fun p q => (hplan p).trans (hplan q).symm) (by omega), hplan,
      Nat.succ_mul, map_range_add, List.append_assoc]

/-- All writes cover the image. -/
theorem fwBytes_plan {size : ℕ} (h : size ≤ 4 * maxPageSize) (page : ℕ) :
    fwBytes page ((d.pagesPlan m buffer 0 (size / maxPageSize) ++ d.restPlan m buffer size).map
      Prod.snd) =
      (List.range size).map (fwByteAt m buffer) := by
  have hpages : size / maxPageSize ≤ 4 := Nat.div_le_of_le_mul (by rwa [Nat.mul_comm])
  have hsize : size = size / maxPageSize * maxPageSize + size % maxPageSize :=
    (Nat.div_add_mod' size maxPageSize).symm
  have hrest : ∀ q, fwBytes q ((d.restPlan m buffer size).map Prod.snd) =
      (List.range (size % maxPageSize)).map
        fun k => fwByteAt m buffer (size / maxPageSize * maxPageSize + k) := by
    intro q
    rw [restPlan]
    split_ifs with hrest
    · have hpage := @fwBytes_pagePlan d m buffer _ q (pageWrites * (size / maxPageSize))
        (size % maxPageSize) []
        (show size / maxPageSize < 8 by omega)
      rw [List.append_nil, fwBytes, List.append_nil] at hpage
      rw [hpage]
      refine List.map_congr_left fun k hk => ?_
      exact (fwByteAt_page m buffer _ k
        ((List.mem_range.mp hk).trans (Nat.mod_lt _ (by decide)))).symm
    · rw [not_not.mp hrest]
      rfl
  rw [List.map_append,
    d.fwBytes_pagesPlan m buffer _ (fun p q => (hrest p).trans (hrest q).symm) _ (by omega), hrest,
    ← map_range_add, ← hsize]

/-- The download of an image of up to four pages does what is claimed exactly if the first write
that fails does not select a page. -/
theorem coversRight_iff (size : ℕ) (h : size ≤ 4 * maxPageSize) :
    d.CoversRight m buffer size ↔ d.PagesSelected size := by
  have hstops := @stops_iff _ d.ok 0
    (d.pagesPlan m buffer 0 (size / maxPageSize) ++ d.restPlan m buffer size)
  rw [firstChecked_iff] at hstops
  simp only [Nat.zero_add] at hstops
  rw [CoversRight, writeFW_eq, hstops]
  refine and_iff_right fun hok => ?_
  rw [exec_of_ok fun k hk => by rw [Nat.zero_add]; exact hok k hk]
  exact ⟨rfl, d.fwBytes_plan m buffer h⟩

/-- A device that was removed, so that all writes fail. -/
def sampleFwDevice : FwDevice := ⟨fun _ => false, fun _ => 0⟩

theorem coversRight_iff_sample :
    FwDevice.CoversRight ⟨fun _ => true, fun _ => 0⟩ (fun _ => 0) 0 16384 ↔
    FwDevice.PagesSelected ⟨fun _ => true, fun _ => 0⟩ 16384 :=
  coversRight_iff _ _ _ 16384 (by decide)

/-- The page is not selected, and there is a write for the byte all the same. -/
theorem not_coversRight_sample : ¬∀ (d : FwDevice) (m : Mem) (buffer : ℤ) (size : ℕ), 1 ≤ size →
    size ≤ 16384 →
    d.CoversRight m buffer size := by
  intro h
  have hstop := (h sampleFwDevice (fun _ => 0) 0 1 le_rfl (by decide)).2 0 (by decide) rfl
  exact absurd hstop.2 (by decide)

end FwDevice

end Rtl8188eu
