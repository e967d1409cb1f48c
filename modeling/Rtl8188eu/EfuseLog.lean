import Rtl8188eu.CellLogs

/-!
# The eFuse log

The eFuse holds the logical map of the adapter, 64 sections of four words, as a log of programming
packets : a header with a section and the words that follow, then these words. Two loops decode the
log, one from the chip (`halEfuseReadEFuse88E`) and one from the image that the firmware fetched
(`efusePhymapToLogical`), and a third one only looks for its end (`halEfuseGetCurrentSize`).

A write that was cut off leaves a header without its words, which reads as a packet of blank words,
or the first byte of a header of two bytes (`LogEntry.stub`).

`decoders_exact` : on the log of a list of packets both decoders return the blank map with the
packets written over it in order, and the sizer returns the length of the log.
-/

namespace Rtl8188eu

open CellLog

/-! ## The source -/

/-- `EFUSE_REAL_CONTENT_LEN_88E`. -/
def efuseRealContentLen88e : ℕ := 256
/-- `EFUSE_REAL_CONTENT_LEN`, the bound of `AVAILABLE_EFUSE_ADDR`. -/
def efuseRealContentLen : ℕ := 512
/-- `EFUSE_MAP_LEN_88E`. -/
def efuseMapLen88e : ℕ := 512
/-- `EFUSE_MAX_SECTION_88E`. -/
def efuseMaxSection88e : ℕ := 64
/-- `EFUSE_MAX_WORD_UNIT`. -/
def efuseMaxWordUnit : ℕ := 4
/-- `EFUSE_MAX_SECTION_BASE`, the first section with a header of two bytes. -/
def efuseMaxSectionBase : ℕ := 16

/-- The bytes at a pointer, or the cells of the chip. -/
abbrev Bytes := ℕ → UInt8

/-- The word `i` follows the header. -/
def wordEnabled (wordEn : UInt8) (i : ℕ) : Bool := !wordEn.toNat.testBit i

/-- `Efuse_CalculateWordCnts`. -/
def efuseCalculateWordCnts (wordEn : UInt8) : ℕ :=
  (if wordEnabled wordEn 0 then 1 else 0) + (if wordEnabled wordEn 1 then 1 else 0) +
    (if wordEnabled wordEn 2 then 1 else 0) + (if wordEnabled wordEn 3 then 1 else 0)

/-- `EXT_HEADER`. -/
def extHeader (header : UInt8) : Bool := header &&& 0x1F = 0x0F

/-- `ALL_WORDS_DISABLED`. -/
def allWordsDisabled (wde : UInt8) : Bool := wde &&& 0x0F = 0x0F

/-- The section and the word enables of the header with the first byte `header`, and the address
behind the header. The second byte is at `addr`. There is no section if no word is enabled there. -/
def pgHeader (read : Bytes) (header : UInt8) (addr : ℕ) : Option (UInt8 × UInt8) × ℕ :=
  if extHeader header then
    let efuseData := read addr
    if allWordsDisabled efuseData then (none, addr + 1)
    else (some (((efuseData &&& 0xF0) >>> 1) ||| ((header &&& 0xE0) >>> 5), efuseData &&& 0x0F), addr + 1)
  else (some ((header >>> 4) &&& 0x0F, header &&& 0x0F), addr)

/-- `eFuseWord`. -/
abbrev EfuseWords := ℕ → ℕ → UInt16

def EfuseWords.set (w : EfuseWords) (offset i : ℕ) (v : UInt16) : EfuseWords := fun s j =>
  if s = offset ∧ j = i then v else w s j

/-- The loop over the words of a section. It ends early at the end of the eFuse. -/
def sectionLoop (read : Bytes) (offset : ℕ) : ℕ → ℕ → UInt8 → ℕ → EfuseWords → ℕ × EfuseWords
  | 0, _, _, addr, words => (addr, words)
  | n + 1, i, wren, addr, words =>
    if wren &&& 0x01 = 0 then
      let words := words.set offset i (read addr).toUInt16
      let addr := addr + 1
      if efuseRealContentLen88e ≤ addr then (addr, words)
      else
        let words := words.set offset i (words offset i ||| (((read addr).toUInt16 <<< 8) &&& 0xff00))
        let addr := addr + 1
        if efuseRealContentLen88e ≤ addr then (addr, words)
        else sectionLoop read offset n (i + 1) (wren >>> 1) addr words
    else sectionLoop read offset n (i + 1) (wren >>> 1) addr words

/-- The address behind the next header byte, if there is one. -/
def nextHeader (read : Bytes) (addr : ℕ) : ℕ :=
  if read addr ≠ 0xFF ∧ addr < efuseRealContentLen88e then addr + 1 else addr

/-- The loop over the packets. Here `rtemp8` is the header byte before `addr`. -/
def decodeLoop (read : Bytes) : ℕ → UInt8 → ℕ → EfuseWords → Option (ℕ × EfuseWords)
  | 0, _, _, _ => none
  | fuel + 1, rtemp8, addr, words =>
    if rtemp8 ≠ 0xFF ∧ addr < efuseRealContentLen88e then
      match pgHeader read rtemp8 addr with
      | (none, addr) => decodeLoop read fuel (read addr) (nextHeader read addr) words
      | (some (offset, wren), addr) =>
        let (addr, words) :=
          if offset.toNat < efuseMaxSection88e then
            sectionLoop read offset.toNat efuseMaxWordUnit 0 wren addr words
          else (addr, words)
        decodeLoop read fuel (read addr) (nextHeader read addr) words
    else some (addr, words)

/-- `eFuseWord` at the start. -/
def blankWords : EfuseWords := fun _ _ => 0xFFFF

/-- `efuseTbl`, the words as bytes. -/
def efuseTbl (words : EfuseWords) : Bytes := fun k =>
  if k % 2 = 0 then (words (k / 8) (k % 8 / 2) &&& 0xff).toUInt8
  else ((words (k / 8) (k % 8 / 2) >>> 8) &&& 0xff).toUInt8

/-- `pbuf` after the copy of `size` bytes of the table. -/
def copyOut (tbl : Bytes) (offset size : ℕ) (pbuf : Bytes) : Bytes := fun i =>
  if i < size then tbl (offset + i) else pbuf i

/-- `efuse_phymap_to_logical`. -/
def efusePhymapToLogical (phymap : Bytes) (offset size : ℕ) (pbuf : Bytes) : Option Bytes :=
  if phymap 0 = 0xFF then some pbuf
  else
    (decodeLoop phymap efuseRealContentLen88e (phymap 0) 1 blankWords).map fun r =>
      copyOut (efuseTbl r.2) offset size pbuf

/-- The chip with the number of bytes that were programmed, and `EfuseUsedBytes` of the adapter. -/
structure Efuse where
  cells : Bytes
  usedBytes : ℕ
  programmed : ℕ

/-- `Hal_EfuseReadEFuse88E`. -/
def halEfuseReadEFuse88E (s : Efuse) (offset size : ℕ) (pbuf : Bytes) : Option (Efuse × Bytes) :=
  if efuseMapLen88e < offset + size then some (s, pbuf)
  else if s.cells 0 = 0xFF then some (s, pbuf)
  else
    (decodeLoop s.cells efuseRealContentLen88e (s.cells 0) 1 blankWords).map fun r =>
      ({ s with usedBytes := r.1 }, copyOut (efuseTbl r.2) offset size pbuf)

/-- The loop of `hal_EfuseGetCurrentSize_8188e`. -/
def currentSizeLoop (read : Bytes) : ℕ → ℕ → Option ℕ
  | 0, _ => none
  | fuel + 1, addr =>
    if addr < efuseRealContentLen ∧ read addr ≠ 0xFF then
      match pgHeader read (read addr) (addr + 1) with
      | (none, addr) => currentSizeLoop read fuel addr
      | (some (_, hworden), addr) => currentSizeLoop read fuel (addr + efuseCalculateWordCnts hworden * 2)
    else some addr

/-- `hal_EfuseGetCurrentSize_8188e`. -/
def halEfuseGetCurrentSize (s : Efuse) : Option (Efuse × ℕ) :=
  (currentSizeLoop s.cells (efuseRealContentLen + 1) s.usedBytes).map fun addr =>
    ({ s with usedBytes := addr }, addr)

/-- The header of `hal_EfusePgPacketWrite1ByteHeader`. -/
def pgHeader1 (offset wordEn : UInt8) : UInt8 := ((offset <<< 4) &&& 0xf0) ||| wordEn

/-- The first header byte of `hal_EfusePgPacketWrite2ByteHeader`. -/
def pgHeaderExt (offset : UInt8) : UInt8 := ((offset &&& 0x07) <<< 5) ||| 0x0F

/-- The second header byte of `hal_EfusePgPacketWrite2ByteHeader`. -/
def pgHeaderExt2 (offset wordEn : UInt8) : UInt8 := ((offset &&& 0x78) <<< 1) ||| wordEn

/-! ## Packets -/

/-- A programming packet. Some word is enabled. Of `data`, the eight bytes of the section, the bytes
of the enabled words matter. -/
structure Packet where
  offset : UInt8
  wordEn : UInt8
  data : Bytes
  offset_lt : offset.toNat < efuseMaxSection88e
  wordEn_lt : wordEn.toNat < 15

/-- The bytes of the enabled words among `n` words from the word `i` on. -/
def wordBytes (wordEn : UInt8) (data : Bytes) : ℕ → ℕ → List UInt8
  | 0, _ => []
  | n + 1, i =>
    if wordEnabled wordEn i then data (2 * i) :: data (2 * i + 1) :: wordBytes wordEn data n (i + 1)
    else wordBytes wordEn data n (i + 1)

namespace Packet

/-- One byte for the sections below 16. -/
def header (p : Packet) : List UInt8 :=
  if p.offset.toNat < efuseMaxSectionBase then [pgHeader1 p.offset p.wordEn]
  else [pgHeaderExt p.offset, pgHeaderExt2 p.offset p.wordEn]

def bytes (p : Packet) : List UInt8 := p.header ++ wordBytes p.wordEn p.data efuseMaxWordUnit 0

/-- The map with the enabled words of the packet written over it. -/
def overlay (m : Bytes) (p : Packet) : Bytes := fun k =>
  if k / 8 = p.offset.toNat ∧ wordEnabled p.wordEn (k % 8 / 2) then p.data (k % 8) else m k

end Packet

/-- The packets, one after another. -/
def encodePackets (ps : List Packet) : List UInt8 := ps.flatMap Packet.bytes

/-- The blank map. -/
def blankMap : Bytes := fun _ => 0xFF

/-- The blank map with the packets written over it in order. -/
def overlayAll (ps : List Packet) : Bytes := ps.foldl Packet.overlay blankMap

/-- What a write adds to the log : a packet, or the first byte of a header of two bytes. The byte
behind it stays blank. -/
inductive LogEntry where
  | packet (p : Packet)
  | stub (offset : UInt8)

namespace LogEntry

def bytes : LogEntry → List UInt8
  | packet p => p.bytes
  | stub offset => [pgHeaderExt offset, 0xFF]

def overlay (m : Bytes) : LogEntry → Bytes
  | packet p => p.overlay m
  | stub _ => m

end LogEntry

/-- The entries, one after another. -/
def logBytes (es : List LogEntry) : List UInt8 := es.flatMap LogEntry.bytes

/-- The map of a log. -/
def logMap (es : List LogEntry) : Bytes := es.foldl LogEntry.overlay blankMap

theorem logBytes_cons (e : LogEntry) (es : List LogEntry) :
    logBytes (e :: es) = e.bytes ++ logBytes es :=
  List.flatMap_cons

theorem logBytes_append (es fs : List LogEntry) :
    logBytes (es ++ fs) = logBytes es ++ logBytes fs :=
  List.flatMap_append

theorem logBytes_map_packet (ps : List Packet) : logBytes (ps.map .packet) = encodePackets ps := by
  rw [logBytes, encodePackets, List.flatMap_map]
  rfl

theorem logMap_map_packet (ps : List Packet) : logMap (ps.map .packet) = overlayAll ps := by
  rw [logMap, overlayAll, List.foldl_map]
  rfl

theorem logMap_append_singleton (es : List LogEntry) (e : LogEntry) :
    logMap (es ++ [e]) = e.overlay (logMap es) := by
  rw [logMap, List.foldl_append]
  rfl

/-! ## Headers -/

theorem pgHeader1_spec : ∀ offset < 16, ∀ wordEn < 15,
    pgHeader1 (UInt8.ofNat offset) (UInt8.ofNat wordEn) ≠ 0xFF ∧
    extHeader (pgHeader1 (UInt8.ofNat offset) (UInt8.ofNat wordEn)) = false ∧
    (pgHeader1 (UInt8.ofNat offset) (UInt8.ofNat wordEn) >>> 4) &&& 0x0F = UInt8.ofNat offset ∧
    pgHeader1 (UInt8.ofNat offset) (UInt8.ofNat wordEn) &&& 0x0F = UInt8.ofNat wordEn := by
  decide +kernel

theorem pgHeaderExt_spec : ∀ offset < 256,
    pgHeaderExt (UInt8.ofNat offset) ≠ 0xFF ∧ extHeader (pgHeaderExt (UInt8.ofNat offset)) =
      true := by
  decide +kernel

theorem pgHeaderExt2_spec : ∀ offset < 64, ∀ wordEn < 15,
    allWordsDisabled (pgHeaderExt2 (UInt8.ofNat offset) (UInt8.ofNat wordEn)) = false ∧
    ((pgHeaderExt2 (UInt8.ofNat offset) (UInt8.ofNat wordEn) &&& 0xF0) >>> 1) |||
      ((pgHeaderExt (UInt8.ofNat offset) &&& 0xE0) >>> 5) = UInt8.ofNat offset ∧
    pgHeaderExt2 (UInt8.ofNat offset) (UInt8.ofNat wordEn) &&& 0x0F = UInt8.ofNat wordEn := by
  decide +kernel

theorem Packet.pgHeader1_spec (p : Packet) (h : p.offset.toNat < efuseMaxSectionBase) :
    pgHeader1 p.offset p.wordEn ≠ 0xFF ∧ extHeader (pgHeader1 p.offset p.wordEn) = false ∧
    (pgHeader1 p.offset p.wordEn >>> 4) &&& 0x0F = p.offset ∧
    pgHeader1 p.offset p.wordEn &&& 0x0F = p.wordEn := by
  simpa only [UInt8.ofNat_toNat] using Rtl8188eu.pgHeader1_spec p.offset.toNat h p.wordEn.toNat
    p.wordEn_lt

theorem pgHeaderExt_ne (offset : UInt8) : pgHeaderExt offset ≠ 0xFF := by
  simpa only [UInt8.ofNat_toNat] using (pgHeaderExt_spec offset.toNat offset.toNat_lt).1

theorem extHeader_pgHeaderExt (offset : UInt8) : extHeader (pgHeaderExt offset) = true := by
  simpa only [UInt8.ofNat_toNat] using (pgHeaderExt_spec offset.toNat offset.toNat_lt).2

theorem Packet.pgHeaderExt2_spec (p : Packet) :
    allWordsDisabled (pgHeaderExt2 p.offset p.wordEn) = false ∧
    ((pgHeaderExt2 p.offset p.wordEn &&& 0xF0) >>> 1) ||| ((pgHeaderExt p.offset &&& 0xE0) >>> 5) =
    p.offset ∧
    pgHeaderExt2 p.offset p.wordEn &&& 0x0F = p.wordEn := by
  simpa only [UInt8.ofNat_toNat] using
    Rtl8188eu.pgHeaderExt2_spec p.offset.toNat p.offset_lt p.wordEn.toNat p.wordEn_lt

variable {read : Bytes} {base : ℕ} {rest : List UInt8}

/-- A packet starts with its header. -/
theorem Packet.pgHeader_eq (p : Packet) (h : IsImage 0xFF read base (p.header ++ rest)) :
    read base ≠ 0xFF ∧
      pgHeader read (read base) (base + 1) =
        (some (p.offset, p.wordEn), base + p.header.length) := by
  rw [Packet.header] at h ⊢
  split at h
  · rename_i hlt
    obtain ⟨hne, hext, hoff, hen⟩ := p.pgHeader1_spec hlt
    have h0 : read base = pgHeader1 p.offset p.wordEn := h.head
    refine ⟨by rwa [h0], ?_⟩
    rw [if_pos hlt, h0, pgHeader, if_neg (by rw [hext]; decide), hoff, hen]
    rfl
  · rename_i hge
    obtain ⟨hdis, hoff, hen⟩ := p.pgHeaderExt2_spec
    have h0 : read base = pgHeaderExt p.offset := h.head
    have h1 : read (base + 1) = pgHeaderExt2 p.offset p.wordEn := h.tail.head
    refine ⟨by rw [h0]; exact pgHeaderExt_ne _, ?_⟩
    rw [if_neg hge, h0, pgHeader, if_pos (extHeader_pgHeaderExt _), h1]
    simp only [hdis, hoff, hen, Bool.false_eq_true, if_false]
    rfl

theorem pgHeader_stub {offset : UInt8}
    (h : IsImage 0xFF read base (LogEntry.bytes (.stub offset) ++ rest)) :
    read base ≠ 0xFF ∧ pgHeader read (read base) (base + 1) = (none, base + 2) := by
  have h0 : read base = pgHeaderExt offset := h.head
  have h1 : read (base + 1) = 0xFF := h.tail.head
  refine ⟨by rw [h0]; exact pgHeaderExt_ne _, ?_⟩
  rw [h0, pgHeader, if_pos (extHeader_pgHeaderExt _), h1]
  rfl

/-! ## Words -/

theorem wordEnabled_shift (wren : UInt8) (j : ℕ) :
    wordEnabled (wren >>> 1) j = wordEnabled wren (j + 1) := by
  have h : (wren >>> 1).toNat = wren.toNat / 2 := by
    rw [UInt8.toNat_shiftRight]
    exact Nat.shiftRight_one _
  rw [wordEnabled, wordEnabled, h, Nat.testBit_succ]

theorem wordEnabled_zero_iff (wren : UInt8) : wordEnabled wren 0 = true ↔ wren &&& 0x01 = 0 := by
  have h : (wren &&& 0x01).toNat = wren.toNat % 2 := by
    rw [UInt8.toNat_and]
    exact Nat.and_one_is_mod _
  rw [← UInt8.toNat_inj, h, wordEnabled, Nat.testBit_zero]
  simp

theorem efuseCalculateWordCnts_le (wordEn : UInt8) : efuseCalculateWordCnts wordEn ≤ 4 := by
  rw [efuseCalculateWordCnts]
  split_ifs <;> omega

theorem length_wordBytes (wordEn : UInt8) (data : Bytes) :
    (wordBytes wordEn data efuseMaxWordUnit 0).length = efuseCalculateWordCnts wordEn * 2 := by
  simp only [wordBytes, efuseMaxWordUnit, efuseCalculateWordCnts]
  split_ifs <;> rfl

/-- A word of two bytes. -/
def dataWord (data : Bytes) (j : ℕ) : UInt16 :=
  (data (2 * j)).toUInt16 ||| (((data (2 * j + 1)).toUInt16 <<< 8) &&& 0xff00)

theorem dataWord_low (data : Bytes) (j : ℕ) :
    (dataWord data j &&& 0xff).toUInt8 = data (2 * j) := by
  rw [dataWord]
  generalize data (2 * j) = a
  generalize data (2 * j + 1) = b
  apply UInt8.eq_of_toBitVec_eq
  ext i hi
  interval_cases i <;> simp

theorem dataWord_high (data : Bytes) (j : ℕ) :
    ((dataWord data j >>> 8) &&& 0xff).toUInt8 = data (2 * j + 1) := by
  rw [dataWord]
  generalize data (2 * j) = a
  generalize data (2 * j + 1) = b
  apply UInt8.eq_of_toBitVec_eq
  ext i hi
  interval_cases i <;> simp

/-- The words of a section with the enabled ones among `n` words from the word `i` on replaced. -/
def EfuseWords.overlay (words : EfuseWords) (offset : ℕ) (wordEn : UInt8) (data : Bytes) (n i : ℕ) : EfuseWords :=
  fun s j => if s = offset ∧ (i ≤ j ∧ j < i + n) ∧ wordEnabled wordEn j then dataWord data j else words s j

theorem EfuseWords.overlay_zero (words : EfuseWords) (offset : ℕ) (wordEn : UInt8)
    (data : Bytes) (i : ℕ) :
    words.overlay offset wordEn data 0 i = words := by
  funext s j
  rw [EfuseWords.overlay, if_neg (by omega)]

theorem EfuseWords.overlay_succ_enabled {wordEn : UInt8} {i : ℕ} (hen : wordEnabled wordEn i = true)
    (words : EfuseWords) (offset : ℕ) (data : Bytes) (n : ℕ) :
    words.overlay offset wordEn data (n + 1) i =
      (words.set offset i (dataWord data i)).overlay offset wordEn data n (i + 1) := by
  funext s j
  simp only [EfuseWords.overlay, EfuseWords.set]
  obtain rfl | hj := eq_or_ne j i
  · simp [hen]
  · have hiff : (i ≤ j ∧ j < i + (n + 1)) ↔ (i + 1 ≤ j ∧ j < i + 1 + n) := by omega
    simp only [hj, and_false, if_false, hiff]

theorem EfuseWords.overlay_succ_disabled {wordEn : UInt8} {i : ℕ}
    (hen : wordEnabled wordEn i = false)
    (words : EfuseWords) (offset : ℕ) (data : Bytes) (n : ℕ) :
    words.overlay offset wordEn data (n + 1) i = words.overlay offset wordEn data n (i + 1) := by
  funext s j
  simp only [EfuseWords.overlay]
  obtain rfl | hj := eq_or_ne j i
  · simp [hen]
  · have hiff : (i ≤ j ∧ j < i + (n + 1)) ↔ (i + 1 ≤ j ∧ j < i + 1 + n) := by omega
    simp only [hiff]

theorem EfuseWords.set_set (words : EfuseWords) (offset i : ℕ) (v w : UInt16) :
    (words.set offset i v).set offset i w = words.set offset i w := by
  funext s j
  simp only [EfuseWords.set]
  split_ifs <;> rfl

/-- The words of a packet are read into its section. -/
theorem sectionLoop_eq (offset : ℕ) (wordEn : UInt8) (data : Bytes) :
    ∀ (n i : ℕ) (wren : UInt8) (addr : ℕ) (words : EfuseWords),
      (∀ j, wordEnabled wren j = wordEnabled wordEn (i + j)) →
      IsImage 0xFF read addr (wordBytes wordEn data n i ++ rest) →
      addr + (wordBytes wordEn data n i).length < efuseRealContentLen88e →
      sectionLoop read offset n i wren addr words =
        (addr + (wordBytes wordEn data n i).length, words.overlay offset wordEn data n i)
  | 0, i, wren, addr, words, _, _, _ => by
    rw [EfuseWords.overlay_zero]
    rfl
  | n + 1, i, wren, addr, words, hwren, himg, hlen => by
    have hshift : ∀ j, wordEnabled (wren >>> 1) j = wordEnabled wordEn (i + 1 + j) := fun j => by
      rw [wordEnabled_shift, hwren, Nat.add_assoc, Nat.add_comm 1 j]
    have h0 := hwren 0
    rw [Nat.add_zero] at h0
    rw [sectionLoop]
    cases hen : wordEnabled wordEn i with
    | true =>
      rw [hen, wordEnabled_zero_iff] at h0
      rw [wordBytes, if_pos hen] at himg hlen ⊢
      simp only [List.length_cons, List.cons_append] at himg hlen
      have hlow : read addr = data (2 * i) := himg.head
      have hhigh : read (addr + 1) = data (2 * i + 1) := himg.tail.head
      have hword : (words.set offset i (data (2 * i)).toUInt16) offset i =
        (data (2 * i)).toUInt16 :=
        if_pos ⟨rfl, rfl⟩
      simp only [if_pos h0, hlow, hhigh, hword, EfuseWords.set_set]
      rw [if_neg (by omega), if_neg (by omega), ← dataWord,
        sectionLoop_eq offset wordEn data n (i + 1) _ _ _ hshift himg.tail.tail (by omega),
        EfuseWords.overlay_succ_enabled hen]
      simp only [List.length_cons, Prod.mk.injEq, and_true]
      omega
    | false =>
      have hne : ¬ wren &&& 0x01 = 0 := fun hc => by
        rw [hen, (wordEnabled_zero_iff wren).mpr hc] at h0
        exact absurd h0 (by decide)
      have hf : ¬ wordEnabled wordEn i = true := by simp [hen]
      rw [wordBytes, if_neg hf] at himg hlen
      rw [wordBytes, if_neg hf]
      rw [if_neg hne, sectionLoop_eq offset wordEn data n (i + 1) _ _ _ hshift himg hlen,
        EfuseWords.overlay_succ_disabled hen]

theorem efuseTbl_blankWords : efuseTbl blankWords = blankMap := by
  funext k
  simp only [efuseTbl, blankWords, blankMap]
  split <;> decide

theorem efuseTbl_overlay (p : Packet) (words : EfuseWords) :
    efuseTbl (words.overlay p.offset.toNat p.wordEn p.data efuseMaxWordUnit 0) =
      p.overlay (efuseTbl words) := by
  funext k
  have hlt : 0 ≤ k % 8 / 2 ∧ k % 8 / 2 < 0 + efuseMaxWordUnit := by
    simp only [efuseMaxWordUnit]
    omega
  simp only [efuseTbl, Packet.overlay, EfuseWords.overlay, hlt, and_self, true_and]
  by_cases hk : k / 8 = p.offset.toNat ∧ wordEnabled p.wordEn (k % 8 / 2) = true
  · simp only [if_pos hk, dataWord_low, dataWord_high]
    split_ifs with hpar
    · rw [show 2 * (k % 8 / 2) = k % 8 by omega]
    · rw [show 2 * (k % 8 / 2) + 1 = k % 8 by omega]
  · simp only [if_neg hk]

/-! ## The loops on a log -/

theorem Packet.length_header (p : Packet) : 1 ≤ p.header.length ∧ p.header.length ≤ 2 := by
  rw [Packet.header]
  split <;> simp

theorem Packet.length_bytes (p : Packet) :
    p.bytes.length = p.header.length + efuseCalculateWordCnts p.wordEn * 2 := by
  rw [Packet.bytes, List.length_append, length_wordBytes]

theorem LogEntry.length_bytes (e : LogEntry) : 1 ≤ e.bytes.length ∧ e.bytes.length ≤ 10 := by
  cases e with
  | packet p =>
    have hh := p.length_header
    have hw := efuseCalculateWordCnts_le p.wordEn
    rw [LogEntry.bytes, p.length_bytes]
    omega
  | stub offset => simp [LogEntry.bytes]

theorem LogEntry.head_ne (e : LogEntry) (h : IsImage 0xFF read base (e.bytes ++ rest)) :
    read base ≠ 0xFF := by
  cases e with
  | packet p =>
    rw [LogEntry.bytes, Packet.bytes, List.append_assoc] at h
    exact (p.pgHeader_eq h).1
  | stub offset => exact (pgHeader_stub h).1

/-- Behind an entry the sizer goes on with the next one. -/
theorem currentSizeLoop_step (e : LogEntry) (h : IsImage 0xFF read base (e.bytes ++ rest))
    (hlt : base < efuseRealContentLen) (fuel : ℕ) :
    currentSizeLoop read (fuel + 1) base = currentSizeLoop read fuel (base + e.bytes.length) := by
  rw [currentSizeLoop, if_pos ⟨hlt, e.head_ne h⟩]
  cases e with
  | packet p =>
    rw [LogEntry.bytes, Packet.bytes, List.append_assoc] at h
    rw [(p.pgHeader_eq h).2, LogEntry.bytes, p.length_bytes, ← Nat.add_assoc]
  | stub offset =>
    rw [(pgHeader_stub h).2]
    rfl

/-- The sizer stops behind the last entry. -/
theorem currentSizeLoop_eq : ∀ (es : List LogEntry) (fuel base : ℕ),
    IsImage 0xFF read base (logBytes es) → base + (logBytes es).length ≤ efuseRealContentLen →
    (logBytes es).length < fuel →
    currentSizeLoop read fuel base = some (base + (logBytes es).length)
  | [], fuel + 1, base, h, _, _ => by
    have hblank : ¬ (base < efuseRealContentLen ∧ read base ≠ 0xFF) := fun hc => hc.2 h.nil
    rw [currentSizeLoop, if_neg hblank]
    rfl
  | e :: es, fuel + 1, base, h, hlen, hfuel => by
    have he := e.length_bytes
    rw [logBytes_cons] at h hlen hfuel ⊢
    rw [List.length_append] at hlen hfuel ⊢
    rw [currentSizeLoop_step e h (by omega),
      currentSizeLoop_eq es fuel _ h.append (by omega) (by omega), Nat.add_assoc]

/-- The state of the decoder at the first header of a log. -/
theorem nextHeader_cons (e : LogEntry) (h : IsImage 0xFF read base (e.bytes ++ rest))
    (hlt : base < efuseRealContentLen88e) : nextHeader read base = base + 1 :=
  if_pos ⟨e.head_ne h, hlt⟩

theorem nextHeader_nil (h : IsImage 0xFF read base []) : nextHeader read base = base :=
  if_neg fun hc => hc.1 h.nil

/-- An entry is decoded into the words. -/
theorem decodeLoop_step (e : LogEntry) (h : IsImage 0xFF read base (e.bytes ++ rest))
    (hlt : base + e.bytes.length < efuseRealContentLen88e) (fuel : ℕ) (words : EfuseWords) :
    ∃ words', efuseTbl words' = e.overlay (efuseTbl words) ∧
      decodeLoop read (fuel + 1) (read base) (base + 1) words =
        decodeLoop read fuel (read (base + e.bytes.length))
          (nextHeader read (base + e.bytes.length)) words' := by
  have hpos := e.length_bytes
  cases e with
  | packet p =>
    have himg := h
    rw [LogEntry.bytes, Packet.bytes, List.append_assoc] at himg
    obtain ⟨hne, hhdr⟩ := p.pgHeader_eq himg
    have hlen : p.header.length + (wordBytes p.wordEn p.data efuseMaxWordUnit 0).length =
        p.bytes.length := (List.length_append).symm
    have hsec := sectionLoop_eq p.offset.toNat p.wordEn p.data efuseMaxWordUnit 0 p.wordEn
      (base + p.header.length) words (fun j => by rw [Nat.zero_add]) himg.append
      (by rw [Nat.add_assoc, hlen]; exact hlt)
    refine ⟨_, efuseTbl_overlay p words, ?_⟩
    rw [decodeLoop, if_pos ⟨hne, by omega⟩, hhdr]
    simp only [if_pos p.offset_lt, hsec, Nat.add_assoc, hlen, LogEntry.bytes]
  | stub offset =>
    obtain ⟨hne, hhdr⟩ := pgHeader_stub h
    refine ⟨words, rfl, ?_⟩
    rw [decodeLoop, if_pos ⟨hne, by omega⟩, hhdr]
    rfl

/-- The decoder reads the entries in order and stops behind the last one. -/
theorem decodeLoop_eq : ∀ (es : List LogEntry) (fuel base : ℕ) (words : EfuseWords),
    IsImage 0xFF read base (logBytes es) → base + (logBytes es).length < efuseRealContentLen88e →
    (logBytes es).length < fuel →
    ∃ words', efuseTbl words' = es.foldl LogEntry.overlay (efuseTbl words) ∧
      decodeLoop read fuel (read base) (nextHeader read base) words =
        some (base + (logBytes es).length, words')
  | [], fuel + 1, base, words, h, _, _ => by
    refine ⟨words, rfl, ?_⟩
    rw [decodeLoop, if_neg fun hc => hc.1 h.nil, nextHeader_nil h]
    rfl
  | e :: es, fuel + 1, base, words, h, hlen, hfuel => by
    have he := e.length_bytes
    rw [logBytes_cons] at h hlen hfuel ⊢
    rw [List.length_append] at hlen hfuel ⊢
    obtain ⟨words₁, htbl₁, hstep⟩ := decodeLoop_step e h (by omega) fuel words
    obtain ⟨words', htbl, hrest⟩ := decodeLoop_eq es fuel _ words₁ h.append (by omega) (by omega)
    refine ⟨words', ?_, ?_⟩
    · rw [htbl, htbl₁]
      rfl
    · rw [nextHeader_cons e h (by omega), hstep, hrest, Nat.add_assoc]

/-! ## The decoders and the sizer -/

variable {es : List LogEntry}

/-- The first cell of a log that is not empty. -/
theorem image_zero_ne (hes : es ≠ []) : image 0xFF (logBytes es) 0 ≠ 0xFF := by
  obtain ⟨e, es, rfl⟩ := List.exists_cons_of_ne_nil hes
  have h : IsImage (0xFF : UInt8) _ 0 _ := isImage_image (logBytes (e :: es))
  rw [logBytes_cons] at h ⊢
  exact e.head_ne h

theorem decodeLoop_image (hes : es ≠ []) (hlen : (logBytes es).length < efuseRealContentLen88e) :
    ∃ words, efuseTbl words = logMap es ∧
      decodeLoop (image 0xFF (logBytes es)) efuseRealContentLen88e (image 0xFF (logBytes es) 0) 1
        blankWords =
        some ((logBytes es).length, words) := by
  have hnext : nextHeader (image 0xFF (logBytes es)) 0 = 1 :=
    if_pos ⟨image_zero_ne hes, by simp [efuseRealContentLen88e]⟩
  obtain ⟨words, htbl, h⟩ := decodeLoop_eq es efuseRealContentLen88e 0 blankWords (isImage_image _)
    (by omega) hlen
  rw [Nat.zero_add, hnext] at h
  rw [efuseTbl_blankWords] at htbl
  exact ⟨words, htbl, h⟩

/-- Reading a log from the chip. -/
theorem halEfuseReadEFuse88E_eq (hes : es ≠ [])
    (hlen : (logBytes es).length < efuseRealContentLen88e)
    {offset size : ℕ} (hmap : offset + size ≤ efuseMapLen88e) (used n : ℕ) (pbuf : Bytes) :
    halEfuseReadEFuse88E ⟨image 0xFF (logBytes es), used, n⟩ offset size pbuf =
      some (⟨image 0xFF (logBytes es), (logBytes es).length, n⟩,
        copyOut (logMap es) offset size pbuf) := by
  obtain ⟨words, htbl, hloop⟩ := decodeLoop_image hes hlen
  rw [halEfuseReadEFuse88E, if_neg (by omega), if_neg (image_zero_ne hes), hloop, ← htbl]
  rfl

/-- Decoding a fetched log. -/
theorem efusePhymapToLogical_eq (hes : es ≠ [])
    (hlen : (logBytes es).length < efuseRealContentLen88e)
    (offset size : ℕ) (pbuf : Bytes) :
    efusePhymapToLogical (image 0xFF (logBytes es)) offset size pbuf =
      some (copyOut (logMap es) offset size pbuf) := by
  obtain ⟨words, htbl, hloop⟩ := decodeLoop_image hes hlen
  rw [efusePhymapToLogical, if_neg (image_zero_ne hes), hloop, ← htbl]
  rfl

/-- From the start of any entry on, the sizer finds the end of the log. -/
theorem halEfuseGetCurrentSize_eq (done todo : List LogEntry)
    (hlen : (logBytes (done ++ todo)).length ≤ efuseRealContentLen) (n : ℕ) :
    halEfuseGetCurrentSize ⟨image 0xFF (logBytes (done ++ todo)), (logBytes done).length, n⟩ =
      some (⟨image 0xFF (logBytes (done ++ todo)), (logBytes (done ++ todo)).length, n⟩,
        (logBytes (done ++ todo)).length) := by
  have himg : IsImage (0xFF : UInt8) _ 0 _ := isImage_image (logBytes (done ++ todo))
  rw [logBytes_append] at himg hlen ⊢
  have htodo := himg.append
  rw [List.length_append] at hlen
  rw [Nat.zero_add] at htodo
  rw [halEfuseGetCurrentSize, currentSizeLoop_eq todo _ _ htodo hlen (by omega), List.length_append]
  rfl

/-- The two decoders and the sizer on the log of a list of packets. -/
theorem decoders_exact (ps : List Packet) (hps : ps ≠ [])
    (hlen : (encodePackets ps).length < efuseRealContentLen88e) (used n : ℕ) (pbuf : Bytes) :
    ∃ map : Bytes, ∃ used' : ℕ,
      halEfuseReadEFuse88E ⟨image 0xFF (encodePackets ps), used, n⟩ 0 efuseMapLen88e pbuf =
        some (⟨image 0xFF (encodePackets ps), used', n⟩, map) ∧
      efusePhymapToLogical (image 0xFF (encodePackets ps)) 0 efuseMapLen88e pbuf = some map ∧
      (∀ k < efuseMapLen88e, map k = overlayAll ps k) ∧
      halEfuseGetCurrentSize ⟨image 0xFF (encodePackets ps), 0, n⟩ =
        some (⟨image 0xFF (encodePackets ps), (encodePackets ps).length, n⟩, (encodePackets ps).length) := by
  have hes : ps.map LogEntry.packet ≠ [] := by simpa using hps
  rw [← logBytes_map_packet] at hlen ⊢
  rw [← logMap_map_packet]
  have hread := halEfuseReadEFuse88E_eq hes hlen (Nat.zero_add efuseMapLen88e).le used n pbuf
  have hsize := halEfuseGetCurrentSize_eq [] (ps.map LogEntry.packet)
    (hlen.le.trans (by simp [efuseRealContentLen88e, efuseRealContentLen])) n
  refine ⟨_, _, hread, efusePhymapToLogical_eq hes hlen 0 efuseMapLen88e pbuf,
    fun k hk => ?_, hsize⟩
  rw [copyOut, if_pos hk, Nat.zero_add]

/-- Two words of section 5, a word of section 20, and the first word of section 5 once more. -/
def samplePackets : List Packet :=
  [⟨5, 0xC, fun i => UInt8.ofNat i, by decide, by decide⟩, ⟨20, 0x7, fun _ => 0xFF, by decide, by decide⟩,
    ⟨5, 0xE, fun i => UInt8.ofNat (i + 8), by decide, by decide⟩]

theorem decoders_exact_samplePackets : ∃ map : Bytes,
    efusePhymapToLogical (image 0xFF (encodePackets samplePackets)) 0 efuseMapLen88e blankMap = some map ∧
    map 40 = 8 ∧ map 41 = 9 ∧ map 42 = 2 ∧ map 43 = 3 ∧ map 44 = 0xFF := by
  obtain ⟨map, -, -, hmap, hk, -⟩ := decoders_exact samplePackets (by simp [samplePackets])
    (by decide +kernel) 0 0 blankMap
  refine ⟨map, hmap, ?_⟩
  rw [hk 40 (by decide), hk 41 (by decide), hk 42 (by decide), hk 43 (by decide), hk 44 (by decide)]
  decide +kernel

end Rtl8188eu
