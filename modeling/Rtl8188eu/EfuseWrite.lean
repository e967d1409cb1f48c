import Mathlib.Logic.Relation
import Rtl8188eu.EfuseLog

/-!
# Writing the eFuse

`rtw_efuse_map_write` writes a range of bytes of the logical map. It reads the map, cuts the range
into sections, and programs the words that differ from the map as a packet at the end of the log.
What a write did is only seen by reading the map again.

The map is read into a buffer of zeros, and reading an empty eFuse leaves the buffer alone. A first
write therefore compares with zeros, not with the blank map of an empty eFuse.

`mapWrite_exact` : in every state that reads, writes and cut-off writes lead to, a write that
returns success can be read back exactly if the eFuse was not empty, or if the range is of whole
words and none of them is zero.
-/

namespace Rtl8188eu

open CellLog

/-! ## The source -/

/-- `TYPE_AVAILABLE_EFUSE_BYTES_BANK`,
`EFUSE_REAL_CONTENT_LEN_88E - EFUSE_OOB_PROTECT_BYTES_88E`. -/
def efuseMaxAvailableLen : ℕ := 238
/-- `EFUSE_REPEAT_THRESHOLD_`. -/
def efuseRepeatThreshold : ℕ := 3
/-- `PGPKT_DATA_SIZE`. -/
def pgpktDataSize : ℕ := 8

/-- `struct pgpkt`. The number of words is `efuseCalculateWordCnts` of the word enables. -/
structure PgPkt where
  offset : UInt8
  wordEn : UInt8
  data : Bytes

/-- The chip : the cells after a byte is programmed. They depend on those before, and on how many
bytes were programmed, so that the same write may fail once and then succeed. -/
abbrev Chip := ℕ → Bytes → ℕ → UInt8 → Bytes

/-- A write to an unused cell reads back and leaves the other cells alone. -/
def Chip.Faultless (chip : Chip) : Prop :=
  ∀ t cells addr v, cells addr = 0xFF → chip t cells addr v = Function.update cells addr v

/-- `efuse_OneByteWrite`. -/
def efuseOneByteWrite (chip : Chip) (s : Efuse) (addr : ℕ) (data : UInt8) : Efuse :=
  { s with cells := chip s.programmed s.cells addr data, programmed := s.programmed + 1 }

/-- The words of `Hal_EfuseWordEnableDataWrite` from the word `i` on. The word enables in
`badworden` are of the words that do not read back. -/
def dataWriteLoop (chip : Chip) (wordEn : UInt8) (data : Bytes) :
    ℕ → ℕ → Efuse → ℕ → UInt8 → Efuse × UInt8
  | 0, _, s, _, badworden => (s, badworden)
  | n + 1, i, s, start, badworden =>
    if wordEnabled wordEn i then
      let s := efuseOneByteWrite chip s start (data (2 * i))
      let s := efuseOneByteWrite chip s (start + 1) (data (2 * i + 1))
      let badworden :=
        if data (2 * i) ≠ s.cells start ∨ data (2 * i + 1) ≠ s.cells (start + 1) then
          badworden &&& ~~~(1 <<< UInt8.ofNat i)
        else badworden
      dataWriteLoop chip wordEn data n (i + 1) s (start + 2) badworden
    else dataWriteLoop chip wordEn data n (i + 1) s start badworden

/-- `Hal_EfuseWordEnableDataWrite`. -/
def halEfuseWordEnableDataWrite (chip : Chip) (s : Efuse) (addr : ℕ) (wordEn : UInt8) (data : Bytes) :
    Efuse × UInt8 :=
  dataWriteLoop chip wordEn data efuseMaxWordUnit 0 s addr 0x0F

/-- `efuse_WordEnableDataRead`. -/
def efuseWordEnableDataRead (wordEn : UInt8) (sourdata targetdata : Bytes) : Bytes := fun k =>
  if k < pgpktDataSize ∧ wordEnabled wordEn (k / 2) then sourdata k else targetdata k

/-- `hal_EfuseConstructPGPkt`. -/
def halEfuseConstructPGPkt (offset wordEn : UInt8) (pData : Bytes) : PgPkt :=
  ⟨offset, wordEn, efuseWordEnableDataRead wordEn pData fun _ => 0xFF⟩

/-- `hal_EfuseCheckIfDatafollowed`. -/
def halEfuseCheckIfDatafollowed (cells : Bytes) (wordCnts start : ℕ) : Bool :=
  (List.range (wordCnts * 2)).any fun i => cells (start + i) ≠ 0xFF

/-- The word enables that `wordEnMatched` returns : the words that are enabled in both packets. -/
def matchedWordEn (target cur : UInt8) : UInt8 :=
  (List.range efuseMaxWordUnit).foldl
    (fun w i => if wordEnabled target i && wordEnabled cur i then w &&& ~~~(1 <<< UInt8.ofNat i) else w) 0x0F

/-- The loop of `hal_EfusePgPacketRead_8188e`. The bytes of a packet are packed into `tmpdata`. -/
def pgPacketReadLoop (cells : Bytes) (offset : UInt8) : ℕ → ℕ → Bytes → Bytes → Option Bytes
  | 0, _, _, _ => none
  | fuel + 1, addr, tmpdata, data =>
    if addr < efuseRealContentLen ∧ cells addr ≠ 0xFF then
      match pgHeader cells (cells addr) (addr + 1) with
      | (none, addr) => pgPacketReadLoop cells offset fuel addr tmpdata data
      | (some (hoffset, hworden), addr) =>
        let wordCnts := efuseCalculateWordCnts hworden
        if hoffset = offset then
          let tmpdata := fun i => if i < wordCnts * 2 then cells (addr + i) else tmpdata i
          let data :=
            if halEfuseCheckIfDatafollowed cells wordCnts addr then efuseWordEnableDataRead hworden tmpdata data
            else data
          pgPacketReadLoop cells offset fuel (addr + wordCnts * 2) tmpdata data
        else pgPacketReadLoop cells offset fuel (addr + wordCnts * 2) tmpdata data
    else some data

/-- `hal_EfusePgPacketRead_8188e`. -/
def halEfusePgPacketRead (cells : Bytes) (offset : UInt8) : Option (Bool × Bytes) :=
  if efuseMaxSection88e < offset.toNat then some (false, fun _ => 0xFF)
  else
    (pgPacketReadLoop cells offset (efuseRealContentLen + 1) 0 (fun _ => 0xFF) (fun _ => 0xFF)).map fun data =>
      ((List.range pgpktDataSize).any fun k => data k ≠ 0xFF, data)

section PacketWrite

/- `Efuse_PgPacketWrite` calls itself when a word or a header does not read back : here the inner
call. -/
variable (chip : Chip) (pgWrite : Efuse → UInt8 → UInt8 → Bytes → Option (Efuse × Bool))

/-- `hal_EfuseFixHeaderProcess`. The address is `none` where it returns `false`. -/
def halEfuseFixHeaderProcess (s : Efuse) (offset wordEn : UInt8) (addr : ℕ) : Option (Efuse × Option ℕ) := do
  let (exist, originaldata) ← halEfusePgPacketRead s.cells offset
  if exist then
    let (s, badworden) := halEfuseWordEnableDataWrite chip s (addr + 1) wordEn originaldata
    if badworden ≠ 0x0F then
      let (s, pgWriteSuccess) ← pgWrite s offset badworden originaldata
      if pgWriteSuccess then
        let (s, size) ← halEfuseGetCurrentSize s
        some (s, some size)
      else some (s, none)
    else some (s, some (addr + efuseCalculateWordCnts wordEn * 2 + 1))
  else some (s, some (addr + efuseCalculateWordCnts wordEn * 2 + 1))

/-- The loop that writes a header byte again while the cell stays blank. `left` is
`EFUSE_REPEAT_THRESHOLD_ + 1 - repeatcnt`. -/
def rewriteHeader (pgHeader : UInt8) : ℕ → Efuse → ℕ → Efuse × Option ℕ
  | 0, s, addr => if s.cells addr = 0xFF then (s, none) else (s, some 0)
  | left + 1, s, addr =>
    if s.cells addr = 0xFF then rewriteHeader pgHeader left (efuseOneByteWrite chip s addr pgHeader) addr
    else (s, some (left + 1))

/-- `hal_EfusePgPacketWrite1ByteHeader`. -/
def halEfusePgPacketWrite1ByteHeader (s : Efuse) (addr : ℕ) (target : PgPkt) : Option (Efuse × Option ℕ) :=
  let header := pgHeader1 target.offset target.wordEn
  match rewriteHeader chip header (efuseRepeatThreshold + 1) (efuseOneByteWrite chip s addr header) addr with
  | (s, none) => some (s, none)
  | (s, some _) =>
    let tmpHeader := s.cells addr
    if header = tmpHeader then some (s, some addr)
    else do
      let (s, _) ← halEfuseFixHeaderProcess chip pgWrite s ((tmpHeader >>> 4) &&& 0x0F) (tmpHeader &&& 0x0F) addr
      some (s, none)

/-- The loop of `hal_EfusePgPacketWrite2ByteHeader`. -/
def write2ByteHeaderLoop (target : PgPkt) : ℕ → Efuse → ℕ → ℕ → Option (Efuse × Option ℕ)
  | 0, _, _, _ => none
  | fuel + 1, s, addr, left =>
    if addr < efuseMaxAvailableLen then
      let header := pgHeaderExt target.offset
      match rewriteHeader chip header left (efuseOneByteWrite chip s addr header) addr with
      | (s, none) => some (s, none)
      | (s, some left) =>
        let tmpHeader := s.cells addr
        if tmpHeader = header then
          let addr := addr + 1
          let header2 := pgHeaderExt2 target.offset target.wordEn
          match rewriteHeader chip header2 left (efuseOneByteWrite chip s addr header2) addr with
          | (s, none) => some (s, none)
          | (s, some left) =>
            let tmpHeader2 := s.cells addr
            if allWordsDisabled tmpHeader2 then
              match left with
              | 0 => some (s, none)
              | left + 1 => write2ByteHeaderLoop target fuel s (addr + 1) left
            else if header2 ≠ tmpHeader2 then do
              let (s, next) ← halEfuseFixHeaderProcess chip pgWrite s
                (((header &&& 0xE0) >>> 5) ||| ((tmpHeader2 &&& 0xF0) >>> 1)) (tmpHeader2 &&& 0x0F) addr
              match next with
              | none => some (s, none)
              | some addr => write2ByteHeaderLoop target fuel s addr left
            else some (s, some addr)
        else if extHeader tmpHeader then write2ByteHeaderLoop target fuel s (addr + 2) left
        else write2ByteHeaderLoop target fuel s addr left
    else some (s, none)

/-- `hal_EfusePgPacketWrite2ByteHeader`. A byte that reads back as no extended header is programmed
again, so no number of rounds is enough for each chip. -/
def halEfusePgPacketWrite2ByteHeader (rounds : ℕ) (s : Efuse) (addr : ℕ) (target : PgPkt) :
    Option (Efuse × Option ℕ) :=
  write2ByteHeaderLoop chip pgWrite target rounds s addr (efuseRepeatThreshold + 1)

/-- `hal_EfusePgPacketWriteHeader`. -/
def halEfusePgPacketWriteHeader (rounds : ℕ) (s : Efuse) (addr : ℕ) (target : PgPkt) :
    Option (Efuse × Option ℕ) :=
  if efuseMaxSectionBase ≤ target.offset.toNat then
    halEfusePgPacketWrite2ByteHeader chip pgWrite rounds s addr target
  else halEfusePgPacketWrite1ByteHeader chip pgWrite s addr target

/-- `hal_EfusePgPacketWriteData`. -/
def halEfusePgPacketWriteData (s : Efuse) (addr : ℕ) (target : PgPkt) : Option (Efuse × Bool) :=
  let (s, badworden) := halEfuseWordEnableDataWrite chip s (addr + 1) target.wordEn target.data
  if badworden = 0x0F then some (s, true) else pgWrite s target.offset badworden target.data

/-- The loop of `hal_EfusePartialWriteCheck`. It returns the address of the first blank header and
what is left of the packet, or `none` for `false`. -/
def partialWriteLoop : ℕ → Efuse → ℕ → PgPkt → Option (Efuse × Option (ℕ × PgPkt))
  | 0, _, _, _ => none
  | fuel + 1, s, start, target =>
    if efuseMaxAvailableLen ≤ start then some (s, none)
    else if s.cells start ≠ 0xFF then
      match pgHeader s.cells (s.cells start) (start + 1) with
      | (none, _) => some (s, none)
      | (some (offset, wordEn), addr) =>
        let wordCnts := efuseCalculateWordCnts wordEn
        let matched := matchedWordEn target.wordEn wordEn
        if offset = target.offset ∧ halEfuseCheckIfDatafollowed s.cells wordCnts addr = false ∧ matched ≠ 0x0F then
          let (s, badworden) := halEfuseWordEnableDataWrite chip s addr matched target.data
          let target' := { target with wordEn := target.wordEn ||| (~~~matched &&& 0x0F) }
          if badworden ≠ 0x0F then do
            let (s, pgWriteSuccess) ← pgWrite s target.offset badworden target.data
            if pgWriteSuccess then partialWriteLoop fuel s (addr + wordCnts * 2) target'
            else some (s, none)
          else partialWriteLoop fuel s (addr + wordCnts * 2) target'
        else partialWriteLoop fuel s (addr + wordCnts * 2) target
    else some (s, some (start, target))

/-- `hal_EfusePartialWriteCheck`. -/
def halEfusePartialWriteCheck (s : Efuse) (target : PgPkt) : Option (Efuse × Option (ℕ × PgPkt)) :=
  partialWriteLoop chip pgWrite efuseRealContentLen s (s.usedBytes % efuseRealContentLen) target

/-- `hal_EfusePgPacketWrite_8188e` up to the header, with `hal_EfusePgCheckAvailableAddr`. -/
def pgPacketWriteStart (s : Efuse) (offset wordEn : UInt8) (pData : Bytes) :
    Option (Efuse × Option (ℕ × PgPkt)) := do
  let (s, size) ← halEfuseGetCurrentSize s
  if efuseMapLen88e ≤ size then some (s, none)
  else halEfusePartialWriteCheck chip pgWrite s (halEfuseConstructPGPkt offset wordEn pData)

end PacketWrite

/-- `hal_EfusePgPacketWrite_8188e`. `none` stands for more than `depth` calls inside each other, or
more rounds in the loop of a call than there may be calls inside it. -/
def halEfusePgPacketWrite (chip : Chip) : ℕ → Efuse → UInt8 → UInt8 → Bytes → Option (Efuse × Bool)
  | 0, _, _, _, _ => none
  | depth + 1, s, offset, wordEn, pData => do
    let (s, start) ← pgPacketWriteStart chip (halEfusePgPacketWrite chip depth) s offset wordEn pData
    match start with
    | none => some (s, false)
    | some (addr, target) =>
      let (s, addr) ← halEfusePgPacketWriteHeader chip (halEfusePgPacketWrite chip depth) (depth + 1) s addr
        target
      match addr with
      | none => some (s, false)
      | some addr => halEfusePgPacketWriteData chip (halEfusePgPacketWrite chip depth) s addr target

/-- `ReadEFuseByIC`. With `iol` the firmware fetches the image of the chip; a fetch that fails is a
read without it. -/
def readEFuseByIC (iol : Bool) (s : Efuse) (offset size : ℕ) (pbuf : Bytes) : Option (Efuse × Bytes) :=
  if iol then (efusePhymapToLogical s.cells offset size pbuf).map fun pbuf => (s, pbuf)
  else halEfuseReadEFuse88E s offset size pbuf

/-- `rtw_efuse_map_read`. -/
def rtwEfuseMapRead (iol : Bool) (s : Efuse) (addr cnts : ℕ) (data : Bytes) : Option (Efuse × Bool × Bytes) :=
  if efuseMapLen88e < addr + cnts then some (s, false, data)
  else (readEFuseByIC iol s addr cnts data).map fun r => (r.1, true, r.2)

/-- `newdata` with two bytes set. -/
def setWord (newdata : Bytes) (i : ℕ) (a b : UInt8) : Bytes :=
  Function.update (Function.update newdata i a) (i + 1) b

/-- `word_en &= ~BIT(i >> 1)`. -/
def enableWord (wordEn : UInt8) (i : ℕ) : UInt8 := wordEn &&& ~~~(1 <<< UInt8.ofNat (i / 2))

/-- The loop of `rtw_efuse_map_write` over the `n` words of a section from the byte `i` on. -/
def mapWriteWords (map data : Bytes) (addr cnts : ℕ) : ℕ → ℕ → ℕ → UInt8 → Bytes → ℕ × UInt8 × Bytes
  | 0, _, idx, wordEn, newdata => (idx, wordEn, newdata)
  | n + 1, i, idx, wordEn, newdata =>
    if cnts = idx then (idx, wordEn, newdata)
    else if cnts = idx + 1 then
      if data idx ≠ map (addr + idx) then
        (idx + 1, enableWord wordEn i, setWord newdata i (data idx) (map (addr + idx + 1)))
      else (idx + 1, wordEn, newdata)
    else
      let (wordEn, newdata) :=
        if data idx ≠ map (addr + idx) ∨ data (idx + 1) ≠ map (addr + idx + 1) then
          (enableWord wordEn i, setWord newdata i (data idx) (data (idx + 1)))
        else (wordEn, newdata)
      if idx + 2 = cnts then (idx + 2, wordEn, newdata)
      else mapWriteWords map data addr cnts n (i + 2) (idx + 2) wordEn newdata

/-- The loop of `rtw_efuse_map_write` over the sections. -/
def mapWriteLoop (chip : Chip) (depth : ℕ) (map data : Bytes) (addr cnts : ℕ) :
    ℕ → Efuse → UInt8 → ℕ → ℕ → UInt8 → Bytes → Option (Efuse × Bool)
  | 0, _, _, _, _, _, _ => none
  | fuel + 1, s, offset, i, idx, wordEn, newdata => do
    let (idx, wordEn, newdata) := mapWriteWords map data addr cnts ((pgpktDataSize - i) / 2) i idx wordEn newdata
    let (s, ret) ←
      if wordEn ≠ 0x0F then halEfusePgPacketWrite chip depth s offset wordEn newdata else some (s, true)
    if ret = false then some (s, false)
    else if idx = cnts then some (s, true)
    else mapWriteLoop chip depth map data addr cnts fuel s (offset + 1) 0 idx 0x0F fun _ => 0xFF

/-- `rtw_efuse_map_write`. -/
def rtwEfuseMapWrite (chip : Chip) (iol : Bool) (depth : ℕ) (s : Efuse) (addr cnts : ℕ) (data : Bytes) :
    Option (Efuse × Bool) :=
  if efuseMapLen88e < addr + cnts then some (s, false)
  else do
    -- `rtw_zmalloc`
    let (s, ret, map) ← rtwEfuseMapRead iol s 0 efuseMapLen88e fun _ => 0
    if ret = false then some (s, false)
    else
      let i := addr % 8
      let loop := mapWriteLoop chip depth map data addr cnts efuseMaxSection88e s (UInt8.ofNat (addr / 8))
      if i % 2 = 1 then
        if data 0 ≠ map addr then
          loop (i + 1) 1 (enableWord 0x0F i) (setWord (fun _ => 0xFF) (i - 1) (map (addr - 1)) (data 0))
        else loop (i + 1) 1 0x0F fun _ => 0xFF
      else loop i 0 0x0F fun _ => 0xFF

/-! ## Programming on a faultless chip -/

variable {chip : Chip} {bs : List UInt8} {used t : ℕ} {es : List LogEntry}

theorem efuseOneByteWrite_image (hchip : chip.Faultless) (bs : List UInt8) (used t : ℕ) (v : UInt8) :
    efuseOneByteWrite chip ⟨image 0xFF bs, used, t⟩ bs.length v =
      ⟨image 0xFF (bs ++ [v]), used, t + 1⟩ := by
  rw [efuseOneByteWrite, hchip _ _ _ _ (image_of_le 0xFF le_rfl), update_image]

theorem image_append_singleton (bs : List UInt8) (v : UInt8) :
    image 0xFF (bs ++ [v]) bs.length = v :=
  image_append_add 0xFF bs [v] 0

/-- The enabled words are added to the log, and all of them read back. -/
theorem dataWriteLoop_image (hchip : chip.Faultless) (wordEn : UInt8) (data : Bytes) (used : ℕ)
    (bad : UInt8) :
    ∀ (n i t : ℕ) (bs : List UInt8),
      dataWriteLoop chip wordEn data n i ⟨image 0xFF bs, used, t⟩ bs.length bad =
        (⟨image 0xFF (bs ++ wordBytes wordEn data n i), used,
          t + (wordBytes wordEn data n i).length⟩, bad)
  | 0, i, t, bs => by rw [dataWriteLoop, wordBytes, List.append_nil, List.length_nil, Nat.add_zero]
  | n + 1, i, t, bs => by
    rw [dataWriteLoop, wordBytes]
    split
    · have hlen : (bs ++ [data (2 * i)]).length = bs.length + 1 := List.length_append
      have hlen2 : (bs ++ [data (2 * i)] ++ [data (2 * i + 1)]).length = bs.length + 2 := by simp
      have hw := efuseOneByteWrite_image hchip (bs ++ [data (2 * i)]) used (t + 1) (data (2 * i + 1))
      have hsnd := image_append_singleton (bs ++ [data (2 * i)]) (data (2 * i + 1))
      have hfst : image 0xFF (bs ++ [data (2 * i)] ++ [data (2 * i + 1)]) bs.length = data
        (2 * i) := by
        rw [List.append_assoc]
        exact image_append_add 0xFF bs _ 0
      rw [hlen] at hw hsnd
      simp only [efuseOneByteWrite_image hchip, hw, hfst, hsnd, ne_eq, not_true, or_self, if_false]
      rw [← hlen2, dataWriteLoop_image hchip wordEn data used bad n (i + 1)]
      simp
      omega
    · exact dataWriteLoop_image hchip wordEn data used bad n (i + 1) t bs

theorem halEfuseWordEnableDataWrite_image (hchip : chip.Faultless) (wordEn : UInt8) (data : Bytes)
    (used t : ℕ) (bs : List UInt8) :
    halEfuseWordEnableDataWrite chip ⟨image 0xFF bs, used, t⟩ bs.length wordEn data =
      (⟨image 0xFF (bs ++ wordBytes wordEn data efuseMaxWordUnit 0), used,
        t + (wordBytes wordEn data efuseMaxWordUnit 0).length⟩, 0x0F) :=
  dataWriteLoop_image hchip wordEn data used 0x0F efuseMaxWordUnit 0 t bs

theorem rewriteHeader_image {v : UInt8} (hv : v ≠ 0xFF) (left : ℕ) (bs : List UInt8) (used t : ℕ) :
    rewriteHeader chip v left ⟨image 0xFF (bs ++ [v]), used, t⟩ bs.length =
      (⟨image 0xFF (bs ++ [v]), used, t⟩, some left) := by
  have hread : ¬ image 0xFF (bs ++ [v]) bs.length = 0xFF := by rwa [image_append_singleton]
  cases left with
  | zero => exact if_neg hread
  | succ left => exact if_neg hread

/-- A packet as `struct pgpkt`. -/
def Packet.target (p : Packet) : PgPkt := ⟨p.offset, p.wordEn, p.data⟩

variable {pgWrite : Efuse → UInt8 → UInt8 → Bytes → Option (Efuse × Bool)}

theorem Packet.pgHeaderExt2_ne (p : Packet) : pgHeaderExt2 p.offset p.wordEn ≠ 0xFF := fun hc => by
  have h := p.pgHeaderExt2_spec.1
  rw [hc] at h
  exact absurd h (by decide)

/-- The header is added to the log. -/
theorem halEfusePgPacketWriteHeader_image (hchip : chip.Faultless) (p : Packet)
    (hbs : bs.length < efuseMaxAvailableLen) (used rounds t : ℕ) :
    halEfusePgPacketWriteHeader chip pgWrite (rounds + 1) ⟨image 0xFF bs, used, t⟩ bs.length p.target =
      some (⟨image 0xFF (bs ++ p.header), used, t + p.header.length⟩,
        some (bs.length + p.header.length - 1)) := by
  rw [halEfusePgPacketWriteHeader, Packet.header]
  by_cases hlt : p.offset.toNat < efuseMaxSectionBase
  · obtain ⟨hne, -⟩ := p.pgHeader1_spec hlt
    have hge : ¬ efuseMaxSectionBase ≤ p.target.offset.toNat := not_le.mpr hlt
    rw [if_pos hlt, if_neg hge]
    simp only [halEfusePgPacketWrite1ByteHeader, Packet.target, efuseOneByteWrite_image hchip,
      rewriteHeader_image hne, image_append_singleton, if_true]
    rfl
  · have hge : efuseMaxSectionBase ≤ p.target.offset.toNat := not_lt.mp hlt
    have hlen : (bs ++ [pgHeaderExt p.offset]).length = bs.length + 1 := List.length_append
    have hw := efuseOneByteWrite_image hchip (bs ++ [pgHeaderExt p.offset]) used (t + 1)
      (pgHeaderExt2 p.offset p.wordEn)
    have hr := @rewriteHeader_image chip _ p.pgHeaderExt2_ne (efuseRepeatThreshold + 1)
      (bs ++ [pgHeaderExt p.offset]) used (t + 1 + 1)
    have hread := image_append_singleton (bs ++ [pgHeaderExt p.offset])
      (pgHeaderExt2 p.offset p.wordEn)
    rw [hlen] at hw hr hread
    rw [if_neg hlt, if_pos hge, halEfusePgPacketWrite2ByteHeader, write2ByteHeaderLoop,
      if_pos hbs]
    simp only [Packet.target, efuseOneByteWrite_image hchip, rewriteHeader_image (pgHeaderExt_ne _),
      image_append_singleton, if_true, hw, hr, hread, p.pgHeaderExt2_spec.1, ne_eq,
      not_true, if_false,
      Bool.false_eq_true]
    simp

/-! ## The log in the chip -/

/-- The chip holds a log that ends before the eFuse does, and `EfuseUsedBytes` is the start of an
entry or the end. -/
structure LogState (s : Efuse) (es : List LogEntry) : Prop where
  cells : s.cells = image 0xFF (logBytes es)
  length_lt : (logBytes es).length < efuseMaxAvailableLen + 10
  used : ∃ done todo, es = done ++ todo ∧ s.usedBytes = (logBytes done).length

namespace LogState

variable {s : Efuse}

theorem length_lt_content (h : LogState s es) : (logBytes es).length < efuseRealContentLen88e :=
  h.length_lt.trans_le (by simp [efuseMaxAvailableLen, efuseRealContentLen88e])

/-- A state at the end of its log. -/
theorem of_end (hlen : (logBytes es).length < efuseMaxAvailableLen + 10) :
    LogState ⟨image 0xFF (logBytes es), (logBytes es).length, t⟩ es :=
  ⟨rfl, hlen, es, [], (List.append_nil es).symm, rfl⟩

/-- One more entry, with `EfuseUsedBytes` as it was before. -/
theorem of_append (e : LogEntry) (hlen : (logBytes es).length < efuseMaxAvailableLen) :
    LogState ⟨image 0xFF (logBytes (es ++ [e])), (logBytes es).length, t⟩ (es ++ [e]) := by
  refine ⟨rfl, ?_, es, [e], rfl, rfl⟩
  have he := e.length_bytes
  rw [logBytes_append, List.length_append, logBytes_cons, List.length_append]
  simp only [logBytes, List.flatMap_nil, List.length_nil] at *
  omega

theorem getCurrentSize (h : LogState s es) :
    halEfuseGetCurrentSize s =
      some (⟨image 0xFF (logBytes es), (logBytes es).length, s.programmed⟩,
        (logBytes es).length) := by
  obtain ⟨done, todo, rfl, hused⟩ := h.used
  have hs : s = ⟨image 0xFF (logBytes (done ++ todo)), (logBytes done).length, s.programmed⟩ := by
    rw [← h.cells, ← hused]
  have hlen := h.length_lt_content
  rw [hs]
  refine halEfuseGetCurrentSize_eq done todo (hlen.le.trans ?_) _
  simp [efuseRealContentLen88e, efuseRealContentLen]

/-- A packet write starts at the end of the log. A header without data before it is not looked at,
since `EfuseUsedBytes` is behind it. -/
theorem pgPacketWriteStart (h : LogState s es) (offset wordEn : UInt8) (data : Bytes) :
    Rtl8188eu.pgPacketWriteStart chip pgWrite s offset wordEn data =
      some (⟨image 0xFF (logBytes es), (logBytes es).length, s.programmed⟩,
        if (logBytes es).length < efuseMaxAvailableLen then
          some ((logBytes es).length, halEfuseConstructPGPkt offset wordEn data)
        else none) := by
  have hlen := h.length_lt_content
  simp only [efuseRealContentLen88e] at hlen
  have hmap : ¬ efuseMapLen88e ≤ (logBytes es).length := by
    simp only [efuseMapLen88e]
    omega
  have hmod : (logBytes es).length % efuseRealContentLen = (logBytes es).length :=
    Nat.mod_eq_of_lt (by simp only [efuseRealContentLen]; omega)
  simp only [Rtl8188eu.pgPacketWriteStart, h.getCurrentSize, Option.bind_eq_bind, Option.bind_some,
    if_neg hmap,
    halEfusePartialWriteCheck, hmod]
  rw [show efuseRealContentLen = 511 + 1 from rfl, partialWriteLoop]
  by_cases hlt : (logBytes es).length < efuseMaxAvailableLen
  · have hblank : image 0xFF (logBytes es) (logBytes es).length = (0xFF : UInt8) :=
      image_of_le 0xFF le_rfl
    rw [if_neg (not_le.mpr hlt), if_neg (not_not.mpr hblank), if_pos hlt]
  · rw [if_pos (not_lt.mp hlt), if_neg hlt]

end LogState

/-- The packet of a write. -/
def writtenPacket (offset wordEn : UInt8) (data : Bytes) (ho : offset.toNat < efuseMaxSection88e)
    (hw : wordEn.toNat < 15) : Packet :=
  ⟨offset, wordEn, efuseWordEnableDataRead wordEn data fun _ => 0xFF, ho, hw⟩

theorem halEfuseConstructPGPkt_eq {offset wordEn : UInt8} (data : Bytes)
    (ho : offset.toNat < efuseMaxSection88e) (hw : wordEn.toNat < 15) :
    halEfuseConstructPGPkt offset wordEn data = (writtenPacket offset wordEn data ho hw).target :=
      rfl

/-- A packet write adds the packet to the log, or returns `false` at the end of the eFuse. -/
theorem LogState.pgPacketWrite (hchip : chip.Faultless) {s : Efuse} (h : LogState s es)
    {offset wordEn : UInt8}
    (ho : offset.toNat < efuseMaxSection88e) (hw : wordEn.toNat < 15) (data : Bytes) (depth : ℕ) :
    ∃ s', (halEfusePgPacketWrite chip (depth + 1) s offset wordEn data = some (s', true) ∧
        LogState s' (es ++ [.packet (writtenPacket offset wordEn data ho hw)])) ∨
      (halEfusePgPacketWrite chip (depth + 1) s offset wordEn data = some (s', false) ∧
      LogState s' es) := by
  rw [halEfusePgPacketWrite, h.pgPacketWriteStart]
  by_cases hlt : (logBytes es).length < efuseMaxAvailableLen
  · refine ⟨_, Or.inl ⟨?_, LogState.of_append (t := s.programmed +
      (writtenPacket offset wordEn data ho hw).header.length +
        (wordBytes wordEn (writtenPacket offset wordEn data ho hw).data efuseMaxWordUnit 0).length)
      _ hlt⟩⟩
    have hpos := (writtenPacket offset wordEn data ho hw).length_header
    have haddr : (logBytes es).length +
      (writtenPacket offset wordEn data ho hw).header.length - 1 + 1 =
        (logBytes es ++ (writtenPacket offset wordEn data ho hw).header).length := by
      rw [List.length_append]
      omega
    have hbytes : logBytes (es ++ [.packet (writtenPacket offset wordEn data ho hw)]) =
        logBytes es ++ (writtenPacket offset wordEn data ho hw).header ++
          wordBytes wordEn (writtenPacket offset wordEn data ho hw).data efuseMaxWordUnit 0 := by
      rw [logBytes_append, logBytes_cons, List.append_assoc]
      simp only [logBytes, List.flatMap_nil, List.append_nil]
      rfl
    simp only [if_pos hlt, Option.bind_eq_bind, Option.bind_some,
      halEfuseConstructPGPkt_eq data ho hw,
      halEfusePgPacketWriteHeader_image hchip _ hlt, halEfusePgPacketWriteData, haddr,
      halEfuseWordEnableDataWrite_image hchip, if_true, hbytes]
    rfl
  · refine ⟨_, Or.inr ⟨?_, LogState.of_end (t := s.programmed) h.length_lt⟩⟩
    simp only [if_neg hlt, Option.bind_eq_bind, Option.bind_some]

/-- Reading the map, and where `EfuseUsedBytes` is then. -/
theorem LogState.mapRead {s : Efuse} (h : LogState s es) (iol : Bool) {addr cnts : ℕ}
    (hmap : addr + cnts ≤ efuseMapLen88e) (data : Bytes) :
    ∃ s', LogState s' es ∧ rtwEfuseMapRead iol s addr cnts data =
      some (s', true, if es = [] then data else copyOut (logMap es) addr cnts data) := by
  have hlen := h.length_lt_content
  obtain ⟨cells, used, t⟩ := s
  obtain rfl : cells = image 0xFF (logBytes es) := h.cells
  rw [rtwEfuseMapRead, if_neg (by omega), readEFuseByIC]
  by_cases hes : es = []
  · refine ⟨_, h, ?_⟩
    have hblank : image 0xFF (logBytes es) 0 = (0xFF : UInt8) := by
      rw [hes]
      rfl
    rw [efusePhymapToLogical, if_pos hblank, halEfuseReadEFuse88E, if_pos hblank, ite_self,
      if_pos hes]
    cases iol <;> rfl
  · rw [efusePhymapToLogical_eq hes hlen, halEfuseReadEFuse88E_eq hes hlen hmap, if_neg hes]
    cases iol with
    | false => exact ⟨_, LogState.of_end h.length_lt, rfl⟩
    | true => exact ⟨_, h, rfl⟩

/-! ## The words of a section -/

section Words

variable (map data : Bytes) (addr cnts : ℕ)

/-- The map with the range replaced. -/
def replaced (k : ℕ) : UInt8 := if addr ≤ k ∧ k < addr + cnts then data (k - addr) else map k

/-- The word `w` of the map changes. -/
def Changes (w : ℕ) : Prop :=
  replaced map data addr cnts (2 * w) ≠ map (2 * w) ∨ replaced map data addr cnts (2 * w + 1) ≠ map (2 * w + 1)

/-- Below the word `upto` of the section the packet has the words that change, with their new
bytes. -/
structure SectionWords (offset upto : ℕ) (wordEn : UInt8) (newdata : Bytes) : Prop where
  wordEn_lt : wordEn.toNat < 16
  enabled : ∀ j < 4, wordEnabled wordEn j = true ↔ j < upto ∧ Changes map data addr cnts (4 * offset + j)
  low : ∀ j < 4, wordEnabled wordEn j = true → newdata (2 * j) = replaced map data addr cnts (8 * offset + 2 * j)
  high : ∀ j < 4, wordEnabled wordEn j = true →
    newdata (2 * j + 1) = replaced map data addr cnts (8 * offset + 2 * j + 1)

end Words

theorem enableWord_lt {wordEn : UInt8} (h : wordEn.toNat < 16) (i : ℕ) :
    (enableWord wordEn i).toNat < 16 := by
  rw [enableWord, UInt8.toNat_and]
  exact Nat.and_le_left.trans_lt h

theorem wordEnabled_enableWord : ∀ wordEn < 16, ∀ w < 4, ∀ j < 4,
    wordEnabled (enableWord (UInt8.ofNat wordEn) (2 * w)) j =
      (wordEnabled (UInt8.ofNat wordEn) j || j == w) := by
  decide +kernel

variable {map data : Bytes} {addr cnts offset w : ℕ} {wordEn : UInt8} {newdata : Bytes}

theorem not_changes (h : 2 * w + 1 < addr ∨ addr + cnts ≤ 2 * w) :
    ¬ Changes map data addr cnts w := by
  rw [Changes, replaced, replaced, if_neg (by omega), if_neg (by omega)]
  simp

namespace SectionWords

/-- One more word, which changes. -/
theorem set (h : SectionWords map data addr cnts offset w wordEn newdata) (hw : w < 4)
    (hc : Changes map data addr cnts (4 * offset + w)) :
    SectionWords map data addr cnts offset (w + 1) (enableWord wordEn (2 * w))
      (setWord newdata (2 * w) (replaced map data addr cnts (8 * offset + 2 * w))
        (replaced map data addr cnts (8 * offset + 2 * w + 1))) := by
  have hen : ∀ j < 4, wordEnabled (enableWord wordEn (2 * w)) j = true ↔
    wordEnabled wordEn j = true ∨ j = w := by
    intro j hj
    have := wordEnabled_enableWord wordEn.toNat h.wordEn_lt w hw j hj
    rw [UInt8.ofNat_toNat] at this
    rw [this]
    simp
  refine ⟨enableWord_lt h.wordEn_lt _, fun j hj => ?_, fun j hj he => ?_, fun j hj he => ?_⟩
  · rw [hen j hj, h.enabled j hj]
    constructor
    · rintro (⟨hlt, hj⟩ | rfl)
      · exact ⟨by omega, hj⟩
      · exact ⟨by omega, hc⟩
    · rintro ⟨hlt, hj⟩
      obtain rfl | hne := eq_or_ne j w
      · exact Or.inr rfl
      · exact Or.inl ⟨by omega, hj⟩
  · obtain rfl | hne := eq_or_ne j w
    · simp [setWord]
    · have he := ((hen j hj).mp he).resolve_right hne
      rw [setWord, Function.update_of_ne (by omega), Function.update_of_ne (by omega),
        h.low j hj he]
  · obtain rfl | hne := eq_or_ne j w
    · simp [setWord]
    · have he := ((hen j hj).mp he).resolve_right hne
      rw [setWord, Function.update_of_ne (by omega), Function.update_of_ne (by omega),
        h.high j hj he]

/-- More words, which do not change. -/
theorem skip (h : SectionWords map data addr cnts offset w wordEn newdata) {w' : ℕ} (hw : w ≤ w')
    (hc : ∀ j, w ≤ j → j < w' → ¬ Changes map data addr cnts (4 * offset + j)) :
    SectionWords map data addr cnts offset w' wordEn newdata := by
  refine ⟨h.wordEn_lt, fun j hj => ?_, h.low, h.high⟩
  rw [h.enabled j hj]
  constructor
  · exact fun hj => ⟨by omega, hj.2⟩
  · intro hj
    by_contra hn
    exact hc j (by_contra fun hlt => hn ⟨by omega, hj.2⟩) hj.1 hj.2

/-- No words at the start. -/
theorem start : SectionWords map data addr cnts offset 0 0x0F newdata := by
  have hdis : ∀ j < 4, wordEnabled 0x0F j = false := by decide
  refine ⟨by decide, fun j hj => ?_, fun j hj he => ?_, fun j hj he => ?_⟩
  · simp [hdis j hj]
  · rw [hdis j hj] at he
    exact absurd he (by decide)
  · rw [hdis j hj] at he
    exact absurd he (by decide)

end SectionWords

theorem replaced_of_mem {idx : ℕ} (h : idx < cnts) :
    replaced map data addr cnts (addr + idx) = data idx := by
  rw [replaced, if_pos (by omega), Nat.add_sub_cancel_left]

theorem replaced_of_ge {k : ℕ} (h : addr + cnts ≤ k) : replaced map data addr cnts k = map k :=
  if_neg (by omega)

/-- The loop over the words of a section ends at the end of the section or of the range. -/
theorem mapWriteWords_spec : ∀ (n w idx : ℕ) (wordEn : UInt8) (newdata : Bytes), w + n = 4 →
    addr + idx = 8 * offset + 2 * w → idx ≤ cnts →
      SectionWords map data addr cnts offset w wordEn newdata →
    ∃ idx' wordEn' newdata',
      mapWriteWords map data addr cnts n (2 * w) idx wordEn newdata = (idx', wordEn', newdata') ∧
      SectionWords map data addr cnts offset 4 wordEn' newdata' ∧
      (idx' = cnts ∧ addr + cnts ≤ 8 * (offset + 1) ∨ idx' < cnts ∧ addr + idx' = 8 * (offset + 1))
  | 0, w, idx, wordEn, newdata, hn, haddr, hidx, h => by
    obtain rfl : w = 4 := by omega
    exact ⟨idx, wordEn, newdata, rfl, h, by omega⟩
  | n + 1, w, idx, wordEn, newdata, hn, haddr, hidx, h => by
    have hw : w < 4 := by omega
    have h2 : 2 * (4 * offset + w) = addr + idx := by omega
    have hrest : ∀ j, addr + cnts ≤ 8 * offset + 2 * j →
      ¬ Changes map data addr cnts (4 * offset + j) :=
      fun j hj => not_changes (Or.inr (by omega))
    rw [mapWriteWords]
    by_cases hend : cnts = idx
    · rw [if_pos hend]
      refine ⟨idx, wordEn, newdata, rfl,
        h.skip (by omega) fun j hj _ => hrest j (by omega), by omega⟩
    · rw [if_neg hend]
      have hfst : replaced map data addr cnts (addr + idx) = data idx := replaced_of_mem (by omega)
      by_cases hone : cnts = idx + 1
      · -- the last byte of the range is the first byte of a word
        have hsnd : replaced map data addr cnts (addr + idx + 1) = map (addr + idx + 1) :=
          replaced_of_ge (by omega)
        rw [if_pos hone]
        split
        · rename_i hne
          have hset := h.set hw (Or.inl (by rw [h2, hfst]; exact hne))
          rw [← haddr, hfst, hsnd] at hset
          refine ⟨_, _, _, rfl, hset.skip (by omega) fun j hj _ => hrest j (by omega), by omega⟩
        · rename_i heq
          have hsame : ¬ Changes map data addr cnts (4 * offset + w) := by
            rw [Changes, h2, hfst, hsnd]
            simpa using heq
          refine ⟨_, _, _, rfl, h.skip (by omega) fun j hj _ => ?_, by omega⟩
          obtain rfl | hlt := eq_or_ne j w
          · exact hsame
          · exact hrest j (by omega)
      · rw [if_neg hone]
        have hsnd : replaced map data addr cnts (addr + idx + 1) = data (idx + 1) :=
          replaced_of_mem (by omega : idx + 1 < cnts)
        have hiff : Changes map data addr cnts (4 * offset + w) ↔
            data idx ≠ map (addr + idx) ∨ data (idx + 1) ≠ map (addr + idx + 1) := by
          rw [Changes, h2, hfst, hsnd]
        obtain ⟨wordEn₁, newdata₁, heq, h₁⟩ : ∃ wordEn₁ newdata₁,
            (if data idx ≠ map (addr + idx) ∨ data (idx + 1) ≠ map (addr + idx + 1) then
              (enableWord wordEn (2 * w), setWord newdata (2 * w) (data idx) (data (idx + 1)))
            else (wordEn, newdata)) = (wordEn₁, newdata₁) ∧
            SectionWords map data addr cnts offset (w + 1) wordEn₁ newdata₁ := by
          split
          · rename_i hne
            have hset := h.set hw (hiff.mpr hne)
            rw [← haddr, hfst, hsnd] at hset
            exact ⟨_, _, rfl, hset⟩
          · rename_i heq
            refine ⟨_, _, rfl, h.skip (by omega) fun j hj hlt => ?_⟩
            obtain rfl : j = w := by omega
            exact fun hc => heq (hiff.mp hc)
        simp only [heq]
        by_cases hlast : idx + 2 = cnts
        · rw [if_pos hlast]
          refine ⟨_, _, _, rfl, h₁.skip (by omega) fun j hj _ => hrest j (by omega), by omega⟩
        · rw [if_neg hlast, show 2 * w + 2 = 2 * (w + 1) by omega]
          exact mapWriteWords_spec n (w + 1) (idx + 2) wordEn₁ newdata₁ (by omega) (by omega)
            (by omega) h₁

/-! ## The sections -/

/-- From the section `offset` on, `es'` has the words that change, and nothing else is added to
`es`. -/
structure Overwritten (map data : Bytes) (addr cnts offset : ℕ) (es es' : List LogEntry) : Prop where
  changed : ∀ k, 8 * offset ≤ k → Changes map data addr cnts (k / 2) →
    logMap es' k = replaced map data addr cnts k
  kept : ∀ k, (8 * offset ≤ k → ¬ Changes map data addr cnts (k / 2)) → logMap es' k = logMap es k
  nil : es' = [] → es = [] ∧ ∀ w, 4 * offset ≤ w → ¬ Changes map data addr cnts w

theorem Overwritten.refl (h : ∀ w, 4 * offset ≤ w → ¬ Changes map data addr cnts w) :
    Overwritten map data addr cnts offset es es :=
  ⟨fun k hk hc => absurd hc (h _ (by omega)), fun _ _ => rfl, fun hes => ⟨hes, h⟩⟩

/-- The words of a section are written in its packet, if it has one. -/
theorem SectionWords.logMap_packet (h : SectionWords map data addr cnts offset 4 wordEn newdata)
    (ho : (UInt8.ofNat offset).toNat < efuseMaxSection88e)
    (hoff : (UInt8.ofNat offset).toNat = offset)
    (hw : wordEn.toNat < 15) (es : List LogEntry) (k : ℕ) :
    (k / 8 = offset → Changes map data addr cnts (k / 2) →
      logMap (es ++ [.packet (writtenPacket (UInt8.ofNat offset) wordEn newdata ho hw)]) k =
        replaced map data addr cnts k) ∧
    ((k / 8 = offset → ¬ Changes map data addr cnts (k / 2)) →
      logMap (es ++ [.packet (writtenPacket (UInt8.ofNat offset) wordEn newdata ho hw)]) k =
        logMap es k) := by
  have hj : k % 8 / 2 < 4 := by omega
  have hen : k / 8 = offset →
      (wordEnabled wordEn (k % 8 / 2) = true ↔ Changes map data addr cnts (k / 2)) := fun hk => by
    rw [h.enabled _ hj, show 4 * offset + k % 8 / 2 = k / 2 by omega]
    exact and_iff_right hj
  rw [logMap_append_singleton, LogEntry.overlay, Packet.overlay]
  simp only [writtenPacket, hoff]
  constructor
  · intro hk hc
    have henk := (hen hk).mpr hc
    rw [if_pos ⟨hk, henk⟩, efuseWordEnableDataRead, if_pos ⟨Nat.mod_lt k (by decide), henk⟩]
    obtain hpar | hpar := Nat.mod_two_eq_zero_or_one (k % 8)
    · have hlow := h.low _ hj henk
      rw [show 2 * (k % 8 / 2) = k % 8 by omega, show 8 * offset + k % 8 = k by omega] at hlow
      exact hlow
    · have hhigh := h.high _ hj henk
      rw [show 8 * offset + 2 * (k % 8 / 2) + 1 = k by omega,
        show 2 * (k % 8 / 2) + 1 = k % 8 by omega] at hhigh
      exact hhigh
  · intro hk
    rw [if_neg fun hc => hk hc.1 ((hen hc.1).mp hc.2)]

/-- The packet of a section that has changes. -/
theorem SectionWords.overwritten_packet
    (h : SectionWords map data addr cnts offset 4 wordEn newdata)
    (ho : (UInt8.ofNat offset).toNat < efuseMaxSection88e)
    (hoff : (UInt8.ofNat offset).toNat = offset)
    (hw : wordEn.toNat < 15) {es' : List LogEntry}
    (hrest : Overwritten map data addr cnts (offset + 1)
      (es ++ [.packet (writtenPacket (UInt8.ofNat offset) wordEn newdata ho hw)]) es') :
    Overwritten map data addr cnts offset es es' := by
  refine ⟨fun k hk hc => ?_, fun k hk => ?_, fun hes => absurd (hrest.nil hes).1 (by simp)⟩
  · by_cases hge : 8 * (offset + 1) ≤ k
    · exact hrest.changed k hge hc
    · rw [hrest.kept k fun hk => absurd hk hge]
      exact (h.logMap_packet ho hoff hw es k).1 (by omega) hc
  · rw [hrest.kept k fun hge => hk (by omega)]
    exact (h.logMap_packet ho hoff hw es k).2 fun heq => hk (by omega)

/-- A section without changes has no packet. -/
theorem SectionWords.overwritten_skip (h : SectionWords map data addr cnts offset 4 0x0F newdata)
    {es' : List LogEntry} (hrest : Overwritten map data addr cnts (offset + 1) es es') :
    Overwritten map data addr cnts offset es es' := by
  have hdis : ∀ j < 4, wordEnabled 0x0F j = false := by decide
  have hsec : ∀ j < 4, ¬ Changes map data addr cnts (4 * offset + j) := fun j hj hc => by
    have hen := (h.enabled j hj).mpr ⟨hj, hc⟩
    rw [hdis j hj] at hen
    exact absurd hen (by decide)
  have hnone : ∀ w, 4 * offset ≤ w → w < 4 * (offset + 1) → ¬ Changes map data addr cnts w :=
    fun w hw hlt => by
    obtain ⟨j, rfl⟩ := Nat.exists_eq_add_of_le hw
    exact hsec j (by omega)
  refine ⟨fun k hk hc => ?_, fun k hk => ?_, fun hes => ⟨(hrest.nil hes).1, fun w hw => ?_⟩⟩
  · exact hrest.changed k (by_contra fun hlt => hnone _ (by omega) (by omega) hc) hc
  · exact hrest.kept k fun hge => hk (by omega)
  · by_cases hlt : w < 4 * (offset + 1)
    · exact hnone w hw hlt
    · exact (hrest.nil hes).2 w (by omega)

theorem wordEn_lt_of_ne {wordEn : UInt8} (h : wordEn.toNat < 16) (hne : wordEn ≠ 0x0F) :
    wordEn.toNat < 15 := by
  have hn : wordEn.toNat ≠ 15 := fun hc => hne (UInt8.toNat_inj.mp hc)
  omega

/-- The sections from `offset` on are written in order. A write that fails leaves a log, too. -/
theorem mapWriteLoop_spec (hchip : chip.Faultless) (hrange : addr + cnts ≤ efuseMapLen88e)
    (depth : ℕ) :
    ∀ (fuel : ℕ) (s : Efuse) (es : List LogEntry) (offset w idx : ℕ) (wordEn : UInt8) (newdata : Bytes),
      LogState s es → offset < 64 → 64 ≤ offset + fuel → w ≤ 4 → addr + idx = 8 * offset + 2 * w →
        idx ≤ cnts →
      SectionWords map data addr cnts offset w wordEn newdata →
      ∃ s' ok es',
        mapWriteLoop chip (depth + 1) map data addr cnts fuel s (UInt8.ofNat offset)
          (2 * w) idx wordEn newdata =
          some (s', ok) ∧
        LogState s' es' ∧ (ok = true → Overwritten map data addr cnts offset es es')
  | 0, _, _, offset, _, _, _, _, _, hlt, hfuel, _, _, _, _ => by omega
  | fuel + 1, s, es, offset, w, idx, wordEn, newdata, hs, hlt, hfuel, hw, haddr, hidx, h => by
    simp only [efuseMapLen88e] at hrange
    have hoff : (UInt8.ofNat offset).toNat = offset :=
      UInt8.toNat_ofNat_of_lt' (hlt.trans (by decide))
    have ho : (UInt8.ofNat offset).toNat < efuseMaxSection88e := by rwa [hoff]
    have hn : (pgpktDataSize - 2 * w) / 2 = 4 - w := by
      simp only [pgpktDataSize]
      omega
    obtain ⟨idx', wordEn', newdata', hwords, hsec, hidx'⟩ :=
      mapWriteWords_spec (4 - w) w idx wordEn newdata (by omega) haddr hidx h
    -- what is left to do behind the section, in any log
    have hnext : ∀ s₁ es₁, LogState s₁ es₁ → ∃ s' ok es',
        (if idx' = cnts then some (s₁, true)
        else mapWriteLoop chip (depth + 1) map data addr cnts fuel s₁ (UInt8.ofNat offset + 1)
        0 idx' 0x0F
          fun _ => 0xFF) = some (s', ok) ∧
        LogState s' es' ∧ (ok = true → Overwritten map data addr cnts (offset + 1) es₁ es') := by
      intro s₁ es₁ hs₁
      obtain ⟨hend, hle⟩ | ⟨hlt', hadd'⟩ := hidx'
      · rw [if_pos hend]
        exact ⟨s₁, true, es₁, rfl, hs₁,
          fun _ => Overwritten.refl fun w hw => not_changes (Or.inr (by omega))⟩
      · rw [if_neg hlt'.ne, show UInt8.ofNat offset + 1 =
          UInt8.ofNat (offset + 1) from (UInt8.ofNat_add _ _).symm]
        exact mapWriteLoop_spec hchip (by simp only [efuseMapLen88e]; omega) depth fuel s₁ es₁
          (offset + 1) 0 idx'
          0x0F _ hs₁ (by omega) (by omega) (by omega) (by omega) (by omega) SectionWords.start
    rw [mapWriteLoop, hn]
    simp only [hwords, Option.bind_eq_bind]
    by_cases hdis : wordEn' = 0x0F
    · obtain ⟨s', ok, es', heq, hs', hover⟩ := hnext s es hs
      subst hdis
      refine ⟨s', ok, es', ?_, hs', fun hok => hsec.overwritten_skip (hover hok)⟩
      simpa using heq
    · have hwlt := wordEn_lt_of_ne hsec.wordEn_lt hdis
      obtain ⟨s₁, ⟨hwrite, hs₁⟩ | ⟨hwrite, hs₁⟩⟩ := hs.pgPacketWrite hchip ho hwlt newdata' depth
      · obtain ⟨s', ok, es', heq, hs', hover⟩ := hnext s₁ _ hs₁
        refine ⟨s', ok, es', ?_, hs', fun hok => hsec.overwritten_packet ho hoff hwlt (hover hok)⟩
        simpa [hdis, hwrite] using heq
      · refine ⟨s₁, false, es, ?_, hs₁, fun hok => absurd hok (by decide)⟩
        simp [hdis, hwrite]

/-- The map as it is read, into a buffer of zeros. -/
def readMap (es : List LogEntry) : Bytes :=
  if es = [] then fun _ => 0 else copyOut (logMap es) 0 efuseMapLen88e fun _ => 0

/-- A write of a range of the map. -/
theorem LogState.mapWrite (hchip : chip.Faultless) {s : Efuse} (hs : LogState s es) (iol : Bool)
    (depth : ℕ) (hcnts : 1 ≤ cnts) (hrange : addr + cnts ≤ efuseMapLen88e) (data : Bytes) :
    ∃ s' ok es', rtwEfuseMapWrite chip iol (depth + 1) s addr cnts data = some (s', ok) ∧
      LogState s' es' ∧ (ok = true →
        Overwritten (readMap es) data addr cnts (addr / 8) es es') := by
  obtain ⟨s₁, hs₁, hread⟩ := hs.mapRead iol (Nat.zero_add efuseMapLen88e).le fun _ => 0
  rw [← readMap] at hread
  have hoff : addr / 8 < 64 := by
    simp only [efuseMapLen88e] at hrange
    omega
  have hfuel : 64 ≤ addr / 8 + efuseMaxSection88e := Nat.le_add_left _ _
  have hloop := fun w idx wordEn newdata hw haddr hidx
      (h : SectionWords (readMap es) data addr cnts (addr / 8) w wordEn newdata) =>
    mapWriteLoop_spec hchip hrange depth efuseMaxSection88e s₁ es (addr / 8) w idx wordEn
      newdata hs₁ hoff
      hfuel hw haddr hidx h
  -- the words of the first section before the range
  have hbefore : SectionWords (readMap es) data addr cnts (addr / 8)
    (addr % 8 / 2) 0x0F fun _ => 0xFF :=
    SectionWords.start.skip (Nat.zero_le _) fun j _ hj => not_changes (Or.inl (by omega))
  rw [rtwEfuseMapWrite, if_neg (not_lt.mpr hrange), hread]
  simp only [Option.bind_eq_bind, Option.bind_some, Bool.true_eq_false, if_false]
  split
  · rename_i hodd
    have h2 : 2 * (4 * (addr / 8) + addr % 8 / 2) = addr - 1 := by omega
    have hsub : addr - 1 + 1 = addr := by omega
    have hfst : replaced (readMap es) data addr cnts (addr - 1) = readMap es (addr - 1) :=
      if_neg (by omega)
    have hsnd : replaced (readMap es) data addr cnts addr = data 0 :=
      replaced_of_mem (by omega : 0 < cnts)
    have hiff : Changes (readMap es) data addr cnts (4 * (addr / 8) + addr % 8 / 2) ↔
      data 0 ≠ readMap es addr := by
      rw [Changes, h2, hsub, hfst, hsnd]
      simp
    have hi : addr % 8 + 1 = 2 * (addr % 8 / 2 + 1) := by omega
    split
    · rename_i hne
      have hset := hbefore.set (by omega) (hiff.mpr hne)
      rw [show 8 * (addr / 8) + 2 * (addr % 8 / 2) = addr - 1 by omega, hsub, hfst, hsnd,
        show 2 * (addr % 8 / 2) = addr % 8 - 1 by omega] at hset
      have hen : enableWord 0x0F (addr % 8) = enableWord 0x0F (addr % 8 - 1) := by
        rw [enableWord, enableWord, show (addr % 8 - 1) / 2 = addr % 8 / 2 by omega]
      rw [hen, hi]
      exact hloop _ 1 _ _ (by omega) (by omega) hcnts hset
    · rename_i heq
      rw [hi]
      refine hloop _ 1 _ _ (by omega) (by omega) hcnts (hbefore.skip (by omega) fun j hj hlt => ?_)
      obtain rfl : j = addr % 8 / 2 := by omega
      exact fun hc => heq (hiff.mp hc)
  · rename_i heven
    rw [show addr % 8 = 2 * (addr % 8 / 2) by omega]
    exact hloop _ 0 _ _ (by omega) (by omega) (Nat.zero_le _) hbefore

/-! ## Runs -/

/-- An empty eFuse, and the adapter as it is allocated. -/
def emptyEfuse : Efuse := ⟨fun _ => 0xFF, 0, 0⟩

/-- What happens to an eFuse. A packet write may be cut off behind its header, or behind the first
byte of a header of two bytes. Loading the driver again clears `EfuseUsedBytes`. -/
inductive EfuseStep (chip : Chip) : Efuse → Efuse → Prop
  | read {s s' : Efuse} (iol : Bool) (addr cnts : ℕ) (data : Bytes) {r : Bool × Bytes}
      (h : rtwEfuseMapRead iol s addr cnts data = some (s', r)) : EfuseStep chip s s'
  | write {s s' : Efuse} (iol : Bool) (depth addr cnts : ℕ) (data : Bytes) {ok : Bool} (hcnts : 1 ≤ cnts)
      (h : rtwEfuseMapWrite chip iol (depth + 1) s addr cnts data = some (s', ok)) : EfuseStep chip s s'
  | cutData {s s₁ s' : Efuse} (depth : ℕ) {offset wordEn : UInt8} (data : Bytes) {addr : ℕ} {target : PgPkt}
      {r : Option ℕ} (ho : offset.toNat < efuseMaxSection88e) (hw : wordEn.toNat < 15)
      (hstart : pgPacketWriteStart chip (halEfusePgPacketWrite chip depth) s offset wordEn data =
        some (s₁, some (addr, target)))
      (h : halEfusePgPacketWriteHeader chip (halEfusePgPacketWrite chip depth) (depth + 1) s₁ addr target =
        some (s', r)) :
      EfuseStep chip s s'
  | cutHeader {s s₁ : Efuse} (depth : ℕ) {offset wordEn : UInt8} (data : Bytes) {addr : ℕ} {target : PgPkt}
      (ho : efuseMaxSectionBase ≤ offset.toNat)
      (hstart : pgPacketWriteStart chip (halEfusePgPacketWrite chip depth) s offset wordEn data =
        some (s₁, some (addr, target))) :
      EfuseStep chip s (efuseOneByteWrite chip s₁ addr (pgHeaderExt target.offset))
  | reload (s : Efuse) : EfuseStep chip s { s with usedBytes := 0 }

/-- The chip holds a log. -/
def WellFormed (s : Efuse) : Prop := ∃ es, LogState s es

theorem wellFormed_emptyEfuse : WellFormed emptyEfuse :=
  ⟨[], rfl, by simp [logBytes, efuseMaxAvailableLen], [], [], rfl, rfl⟩

theorem wordBytes_blank (wordEn : UInt8) : ∀ n i : ℕ,
    wordBytes wordEn blankMap n i = List.replicate (wordBytes wordEn blankMap n i).length 0xFF
  | 0, _ => rfl
  | n + 1, i => by
    rw [wordBytes]
    split
    · rw [List.length_cons, List.length_cons, List.replicate_succ, List.replicate_succ,
        ← wordBytes_blank wordEn n]
      rfl
    · exact wordBytes_blank wordEn n (i + 1)

/-- A header without data reads as a packet of blank words. -/
theorem image_header (p : Packet) (es : List LogEntry) :
    image 0xFF (logBytes es ++ p.header) =
      image 0xFF (logBytes (es ++ [.packet { p with data := blankMap }])) := by
  have hbytes : logBytes (es ++ [.packet { p with data := blankMap }]) =
      logBytes es ++ p.header ++ wordBytes p.wordEn blankMap efuseMaxWordUnit 0 := by
    rw [logBytes_append, logBytes_cons, List.append_assoc]
    simp only [logBytes, List.flatMap_nil, List.append_nil]
    rfl
  rw [hbytes, wordBytes_blank, image_append_replicate]

theorem image_stub (offset : UInt8) (es : List LogEntry) :
    image 0xFF (logBytes es ++ [pgHeaderExt offset]) =
      image 0xFF (logBytes (es ++ [.stub offset])) := by
  have hbytes : logBytes
    (es ++ [.stub offset]) = logBytes es ++ [pgHeaderExt offset] ++ List.replicate 1 0xFF := by
    rw [logBytes_append, List.append_assoc]
    rfl
  rw [hbytes, image_append_replicate]

/-- Where a packet write that gets to its header is. -/
theorem LogState.start_inv {s s₁ : Efuse} (hs : LogState s es) {offset wordEn : UInt8}
    {data : Bytes} {addr : ℕ}
    {target : PgPkt} (h : Rtl8188eu.pgPacketWriteStart chip pgWrite s offset wordEn data =
      some (s₁, some (addr, target))) :
    (logBytes es).length < efuseMaxAvailableLen ∧
    s₁ = ⟨image 0xFF (logBytes es), (logBytes es).length, s.programmed⟩ ∧
      addr = (logBytes es).length ∧ target = halEfuseConstructPGPkt offset wordEn data := by
  rw [hs.pgPacketWriteStart] at h
  split at h
  · rename_i hlt
    simp only [Option.some.injEq, Prod.mk.injEq] at h
    exact ⟨hlt, h.1.symm, h.2.1.symm, h.2.2.symm⟩
  · simp at h

/-- Whatever happens to the eFuse, it holds a log. -/
theorem WellFormed.step (hchip : chip.Faultless) {s s' : Efuse} (hs : WellFormed s)
    (h : EfuseStep chip s s') :
    WellFormed s' := by
  obtain ⟨es, hs⟩ := hs
  cases h with
  | read iol addr cnts data h =>
    by_cases hmap : addr + cnts ≤ efuseMapLen88e
    · obtain ⟨s₁, hs₁, hread⟩ := hs.mapRead iol hmap data
      rw [hread] at h
      simp only [Option.some.injEq, Prod.mk.injEq] at h
      exact ⟨es, h.1 ▸ hs₁⟩
    · rw [rtwEfuseMapRead, if_pos (not_le.mp hmap)] at h
      simp only [Option.some.injEq, Prod.mk.injEq] at h
      exact ⟨es, h.1 ▸ hs⟩
  | write iol depth addr cnts data hcnts h =>
    by_cases hmap : addr + cnts ≤ efuseMapLen88e
    · obtain ⟨s₁, ok, es', hwrite, hs₁, -⟩ := hs.mapWrite hchip iol depth hcnts hmap data
      rw [hwrite] at h
      simp only [Option.some.injEq, Prod.mk.injEq] at h
      exact ⟨es', h.1 ▸ hs₁⟩
    · rw [rtwEfuseMapWrite, if_pos (not_le.mp hmap)] at h
      simp only [Option.some.injEq, Prod.mk.injEq] at h
      exact ⟨es, h.1 ▸ hs⟩
  | cutData depth data ho hw hstart h =>
    obtain ⟨hlt, rfl, rfl, rfl⟩ := hs.start_inv hstart
    rw [halEfuseConstructPGPkt_eq data ho hw, halEfusePgPacketWriteHeader_image hchip _ hlt,
      image_header] at h
    simp only [Option.some.injEq, Prod.mk.injEq] at h
    exact ⟨_, h.1 ▸ LogState.of_append _ hlt⟩
  | cutHeader depth data ho hstart =>
    obtain ⟨hlt, rfl, rfl, rfl⟩ := hs.start_inv hstart
    rw [efuseOneByteWrite_image hchip, image_stub]
    exact ⟨_, LogState.of_append _ hlt⟩
  | reload =>
    exact ⟨es, hs.cells, hs.length_lt, [], es, rfl, rfl⟩

theorem wellFormed_run (hchip : chip.Faultless) {s : Efuse}
    (h : Relation.ReflTransGen (EfuseStep chip) emptyEfuse s) : WellFormed s := by
  induction h with
  | refl => exact wellFormed_emptyEfuse
  | tail _ hstep ih => exact ih.step hchip hstep

/-! ## What a write can be read back -/

/-- Reading the whole map after the write gives the old map with the range replaced, whatever was in
the buffer. The old map of an empty eFuse is blank. -/
def ReadsBack (iol : Bool) (s s' : Efuse) (addr cnts : ℕ) (data : Bytes) : Prop :=
  ∀ buf, ∃ s₁ s₂ old new, rtwEfuseMapRead iol s 0 efuseMapLen88e blankMap = some (s₁, true, old) ∧
    rtwEfuseMapRead iol s' 0 efuseMapLen88e buf = some (s₂, true, new) ∧
    ∀ k < efuseMapLen88e, new k = replaced old data addr cnts k

/-- The range is of whole words, and none of them is zero. -/
def WholeWords (addr cnts : ℕ) (data : Bytes) : Prop :=
  addr % 2 = 0 ∧ cnts % 2 = 0 ∧ ∀ j, 2 * j < cnts → ¬ (data (2 * j) = 0 ∧ data (2 * j + 1) = 0)

variable {es' : List LogEntry} {s s' : Efuse}

theorem readsBack_iff (hs : LogState s es) (hs' : LogState s' es') (iol : Bool) :
    ReadsBack iol s s' addr cnts data ↔ ∀ buf : Bytes, ∀ k < efuseMapLen88e,
      (if es' = [] then buf k else logMap es' k) = replaced (logMap es) data addr cnts k := by
  refine forall_congr' fun buf => ?_
  obtain ⟨s₁, -, hold⟩ := hs.mapRead iol (Nat.zero_add efuseMapLen88e).le blankMap
  obtain ⟨s₂, -, hnew⟩ := hs'.mapRead iol (Nat.zero_add efuseMapLen88e).le buf
  have holdk : ∀ k < efuseMapLen88e,
      (if es = [] then blankMap else copyOut (logMap es) 0 efuseMapLen88e blankMap) k =
        logMap es k := fun k hk => by
    split
    · rename_i hes
      rw [hes]
      rfl
    · rw [copyOut, if_pos hk, Nat.zero_add]
  have hnewk : ∀ k < efuseMapLen88e, (if es' = [] then buf else copyOut
    (logMap es') 0 efuseMapLen88e buf) k =
      if es' = [] then buf k else logMap es' k := fun k hk => by
    split
    · rfl
    · rw [copyOut, if_pos hk, Nat.zero_add]
  constructor
  · rintro ⟨s₃, s₄, old, new, hold', hnew', h⟩ k hk
    rw [hold, Option.some.injEq, Prod.mk.injEq, Prod.mk.injEq] at hold'
    rw [hnew, Option.some.injEq, Prod.mk.injEq, Prod.mk.injEq] at hnew'
    rw [← hnewk k hk, hnew'.2.2, h k hk, replaced, replaced, ← hold'.2.2, holdk k hk]
  · intro h
    refine ⟨s₁, s₂, _, _, hold, hnew, fun k hk => ?_⟩
    rw [hnewk k hk, h k hk, replaced, replaced, holdk k hk]

theorem readMap_nil : readMap [] = fun _ => 0 := if_pos rfl

theorem readMap_of_ne (hes : es ≠ []) {k : ℕ} (hk : k < efuseMapLen88e) :
    readMap es k = logMap es k := by
  rw [readMap, if_neg hes, copyOut, if_pos hk, Nat.zero_add]

theorem replaced_of_not_changes {k : ℕ} (h : ¬ Changes map data addr cnts (k / 2)) :
    replaced map data addr cnts k = map k := by
  rw [Changes, not_or, not_not, not_not] at h
  obtain hpar | hpar := Nat.mod_two_eq_zero_or_one k
  · rw [show 2 * (k / 2) = k by omega] at h
    exact h.1
  · rw [show 2 * (k / 2) + 1 = k by omega] at h
    exact h.2

/-- What a write of a log that is not empty leaves in the map. -/
theorem Overwritten.of_ne (h : Overwritten (readMap es) data addr cnts (addr / 8) es es')
    (hes : es ≠ []) {k : ℕ}
    (hk : k < efuseMapLen88e) : logMap es' k = replaced (logMap es) data addr cnts k := by
  have hcongr : replaced (readMap es) data addr cnts k = replaced (logMap es) data addr cnts k := by
    rw [replaced, replaced, readMap_of_ne hes hk]
  by_cases hc : 8 * (addr / 8) ≤ k ∧ Changes (readMap es) data addr cnts (k / 2)
  · rw [h.changed k hc.1 hc.2, hcongr]
  · rw [h.kept k fun hge hch => hc ⟨hge, hch⟩, ← hcongr]
    by_cases hge : 8 * (addr / 8) ≤ k
    · rw [replaced_of_not_changes fun hch => hc ⟨hge, hch⟩, readMap_of_ne hes hk]
    · rw [replaced, if_neg (by omega), readMap_of_ne hes hk]

theorem replaced_zero_ne_iff {k : ℕ} : replaced (fun _ => 0) data addr cnts k ≠ 0 ↔
    addr ≤ k ∧ k < addr + cnts ∧ data (k - addr) ≠ 0 := by
  rw [replaced]
  split <;> rename_i h
  · exact ⟨fun hne => ⟨h.1, h.2, hne⟩, fun hne => hne.2.2⟩
  · exact ⟨fun hne => absurd rfl hne, fun hne => absurd ⟨hne.1, hne.2.1⟩ h⟩

/-- A word of an empty eFuse is written if a byte of it is in the range and not zero. -/
theorem changes_zero_iff {w : ℕ} : Changes (fun _ => 0) data addr cnts w ↔
    (addr ≤ 2 * w ∧ 2 * w < addr + cnts ∧ data (2 * w - addr) ≠ 0) ∨
      (addr ≤ 2 * w + 1 ∧ 2 * w + 1 < addr + cnts ∧ data (2 * w + 1 - addr) ≠ 0) :=
  or_congr replaced_zero_ne_iff replaced_zero_ne_iff

/-- Whole words that are not zero are all written to an empty eFuse. -/
theorem WholeWords.changes (hw : WholeWords addr cnts data) {k : ℕ}
    (hk : addr ≤ k ∧ k < addr + cnts) :
    Changes (fun _ => 0) data addr cnts (k / 2) := by
  obtain ⟨haddr, hcnts, hword⟩ := hw
  have hne := hword ((k - addr) / 2) (by omega)
  have hlow : 2 * (k / 2) - addr = 2 * ((k - addr) / 2) := by omega
  have hhigh : 2 * (k / 2) + 1 - addr = 2 * ((k - addr) / 2) + 1 := by omega
  rw [changes_zero_iff, hlow, hhigh]
  by_cases h0 : data (2 * ((k - addr) / 2)) = 0
  · exact Or.inr ⟨by omega, by omega, fun h1 => hne ⟨h0, h1⟩⟩
  · exact Or.inl ⟨by omega, by omega, h0⟩

theorem Overwritten.of_wholeWords (h : Overwritten (readMap []) data addr cnts (addr / 8) [] es')
    (hw : WholeWords addr cnts data) (k : ℕ) : logMap es' k = replaced
    (logMap []) data addr cnts k := by
  rw [readMap_nil] at h
  by_cases hk : addr ≤ k ∧ k < addr + cnts
  · rw [h.changed k (by omega) (hw.changes hk), replaced, replaced, if_pos hk, if_pos hk]
  · obtain ⟨haddr, hcnts, -⟩ := hw
    rw [h.kept k fun _ => not_changes (by omega), replaced, if_neg hk]

/-- What is read back from a write to an empty eFuse was written in whole words that are not
zero. -/
theorem Overwritten.wholeWords (h : Overwritten (readMap []) data addr cnts (addr / 8) [] es')
    (hcnts : 1 ≤ cnts)
    (hrange : addr + cnts ≤ efuseMapLen88e)
    (hback : ∀ k < efuseMapLen88e, logMap es' k = replaced (logMap []) data addr cnts k) :
    WholeWords addr cnts data := by
  rw [readMap_nil] at h
  simp only [efuseMapLen88e] at hrange hback
  have hblank : ∀ k, logMap [] k = 0xFF := fun _ => rfl
  -- every word of the range is written
  have hall : ∀ k, addr ≤ k → k < addr + cnts → Changes (fun _ => 0) data addr cnts (k / 2) := by
    intro k hlo hhi
    by_contra hc
    have hzero := replaced_of_not_changes hc
    have hk := hback k (by omega)
    rw [h.kept k fun _ => hc, hblank] at hk
    rw [replaced, if_pos ⟨hlo, hhi⟩] at hzero hk
    rw [hzero] at hk
    exact absurd hk (by decide)
  -- and none of it is outside of the range
  have hout : ∀ k < 512, 8 * (addr / 8) ≤ k → Changes (fun _ => 0) data addr cnts (k / 2) →
      addr ≤ k ∧ k < addr + cnts := by
    intro k hlt hge hc
    by_contra hn
    have hk := hback k hlt
    rw [h.changed k hge hc, replaced, replaced, if_neg hn, if_neg hn, hblank] at hk
    exact absurd hk (by decide)
  have haddr : addr % 2 = 0 := by
    by_contra hodd
    have hc := hall addr le_rfl (by omega)
    rw [show addr / 2 = (addr - 1) / 2 by omega] at hc
    exact absurd (hout (addr - 1) (by omega) (by omega) hc).1 (by omega)
  refine ⟨haddr, ?_, fun j hj hzero => ?_⟩
  · by_contra hodd
    have hc := hall (addr + cnts - 1) (by omega) (by omega)
    rw [show (addr + cnts - 1) / 2 = (addr + cnts) / 2 by omega] at hc
    exact absurd (hout (addr + cnts) (by omega) (by omega) hc).2 (by omega)
  · have hc := hall (addr + 2 * j) (by omega) (by omega)
    have hlow : 2 * ((addr + 2 * j) / 2) - addr = 2 * j := by omega
    have hhigh : 2 * ((addr + 2 * j) / 2) + 1 - addr = 2 * j + 1 := by omega
    rw [changes_zero_iff, hlow, hhigh] at hc
    obtain ⟨-, -, hne⟩ | ⟨-, -, hne⟩ := hc
    · exact hne hzero.1
    · exact hne hzero.2

theorem Overwritten.readsBack_iff
    (hover : Overwritten (readMap es) data addr cnts (addr / 8) es es')
    (hs : LogState s es) (hs' : LogState s' es') (hcnts : 1 ≤ cnts)
    (hrange : addr + cnts ≤ efuseMapLen88e)
    (iol : Bool) :
    ReadsBack iol s s' addr cnts data ↔ s.cells 0 ≠ 0xFF ∨ WholeWords addr cnts data := by
  rw [Rtl8188eu.readsBack_iff hs hs', hs.cells]
  by_cases hes : es = []
  · have hblank : image 0xFF (logBytes es) 0 = (0xFF : UInt8) := by
      rw [hes]
      rfl
    subst hes
    rw [or_iff_right (not_not.mpr hblank)]
    constructor
    · intro hback
      refine hover.wholeWords hcnts hrange fun k hk => ?_
      rw [← hback blankMap k hk]
      split
      · rename_i hnil
        rw [hnil]
        rfl
      · rfl
    · intro hw buf k _
      have hne : es' ≠ [] := fun hnil => by
        have hnone := (hover.nil hnil).2 (addr / 2) (by omega)
        rw [readMap_nil] at hnone
        exact hnone (hw.changes ⟨le_rfl, by omega⟩)
      rw [if_neg hne, hover.of_wholeWords hw]
  · refine iff_of_true (fun buf k hk => ?_) (Or.inl (image_zero_ne hes))
    rw [if_neg fun hnil => hes (hover.nil hnil).1, hover.of_ne hes hk]

/-- In every state that an empty eFuse can get to, a write returns and leaves a log, and after a
success the range is read back if and only if the eFuse was not empty or the range is of whole words
that are not zero. -/
theorem mapWrite_exact (hchip : chip.Faultless) {s : Efuse}
    (hrun : Relation.ReflTransGen (EfuseStep chip) emptyEfuse s) (iol iol' : Bool) (depth : ℕ) {addr cnts : ℕ}
    (hcnts : 1 ≤ cnts) (hrange : addr + cnts ≤ efuseMapLen88e) (data : Bytes) :
    ∃ s' ok, rtwEfuseMapWrite chip iol (depth + 1) s addr cnts data = some (s', ok) ∧ WellFormed s' ∧
      (ok = true → (ReadsBack iol' s s' addr cnts data ↔ s.cells 0 ≠ 0xFF ∨ WholeWords addr cnts data)) := by
  obtain ⟨es, hs⟩ := wellFormed_run hchip hrun
  obtain ⟨s', ok, es', hwrite, hs', hover⟩ := hs.mapWrite hchip iol depth hcnts hrange data
  exact ⟨s', ok, hwrite, ⟨es', hs'⟩, fun hok => (hover hok).readsBack_iff hs hs' hcnts hrange iol'⟩

/-- A chip whose cells lose bits. -/
def fuseChip : Chip := fun _ cells addr v => Function.update cells addr (cells addr &&& v)

theorem faultless_fuseChip : fuseChip.Faultless := fun _ cells addr v h => by
  have hand : (0xFF : UInt8) &&& v = v := by
    apply UInt8.toBitVec_inj.mp
    exact BitVec.allOnes_and
  rw [fuseChip, h, hand]

/-- The bytes of a list, then zeros. -/
def listBytes (bs : List UInt8) : Bytes := fun i => bs.getD i 0

/-- The eFuse after a first write of two bytes. -/
def sampleEfuse : Efuse := (rtwEfuseMapWrite fuseChip false 1 emptyEfuse 0 2 (listBytes [1, 2])).elim emptyEfuse Prod.fst

theorem mapWrite_exact_sampleEfuse : ∃ s',
    rtwEfuseMapWrite fuseChip false 1 sampleEfuse 129 3 (listBytes [0, 7, 0]) = some (s', true) ∧
      ReadsBack true sampleEfuse s' 129 3 (listBytes [0, 7, 0]) := by
  have hfirst : (rtwEfuseMapWrite fuseChip false 1 emptyEfuse 0 2 (listBytes [1, 2])).isSome =
    true := by
    decide +kernel
  obtain ⟨⟨s, ok⟩, hs⟩ := Option.isSome_iff_exists.mp hfirst
  have hsample : sampleEfuse = s := by
    rw [sampleEfuse, hs]
    rfl
  have hok : (rtwEfuseMapWrite fuseChip false 1 sampleEfuse 129 3 (listBytes [0, 7, 0])).any
    Prod.snd = true := by
    decide +kernel
  have hne : sampleEfuse.cells 0 ≠ 0xFF := by decide +kernel
  obtain ⟨s', ok', hwrite, -, hback⟩ := mapWrite_exact faultless_fuseChip
    (Relation.ReflTransGen.single (hsample ▸ EfuseStep.write false 0 0 2 _ (by decide) hs))
      false true 0
    (by decide : 1 ≤ 3) (by decide : 129 + 3 ≤ efuseMapLen88e) (listBytes [0, 7, 0])
  rw [hwrite] at hok
  obtain rfl : ok' = true := hok
  exact ⟨s', hwrite, (hback rfl).mpr (Or.inl hne)⟩

/-- The second word is zero and is not written. -/
theorem not_readsBack_emptyEfuse : ∃ s',
    rtwEfuseMapWrite fuseChip false 1 emptyEfuse 0 4 (listBytes [1, 0, 0, 0]) = some (s', true) ∧
      ¬ ReadsBack false emptyEfuse s' 0 4 (listBytes [1, 0, 0, 0]) := by
  have hread : ((rtwEfuseMapWrite fuseChip false 1 emptyEfuse 0 4
    (listBytes [1, 0, 0, 0])).any fun r =>
      r.2 && (rtwEfuseMapRead false r.1 0 efuseMapLen88e blankMap).any fun m => m.2.2 2 = 0xFF) =
      true := by
    decide +kernel
  obtain ⟨⟨s', ok⟩, hwrite, h⟩ := Option.any_eq_true _ _ |>.mp hread
  rw [Bool.and_eq_true] at h
  obtain ⟨rfl, hmap⟩ := h
  refine ⟨s', hwrite, fun hback => ?_⟩
  obtain ⟨s₁, s₂, old, new, -, hnew, hk⟩ := hback blankMap
  rw [hnew] at hmap
  have h2 : new 2 = 0xFF := by simpa using hmap
  rw [hk 2 (by decide), replaced, if_pos (by decide)] at h2
  exact absurd h2 (by decide)

end Rtl8188eu
