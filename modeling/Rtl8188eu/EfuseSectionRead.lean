import Rtl8188eu.EfuseWrite

/-!
# Reading a section of the eFuse

`hal_EfusePgPacketRead_8188e` collects one section from the log. It packs the words of each packet
of the section into `tmpdata`, and `efuse_WordEnableDataRead` then copies the enabled words to the
section. The helper indexes source and target alike : it takes the bytes of a word where the word
stands in the section, not where the packet has it.

So a word is read right behind the words before it. A packet with a late word only puts its bytes
first in `tmpdata`, and the section gets what an earlier packet, or the fill, left further behind. A
packet of blank words is skipped, where the decoder of the map blanks the words.

`readsSection_iff` : the section read agrees with the map exactly if every byte of the section is
found at its own place in `tmpdata` when the last packet with data for it is read, and is blank if a
blank packet follows.
-/

namespace Rtl8188eu

open CellLog

/-! ## Packets of a section -/

namespace Packet

/-- The bytes behind the header. -/
def words (p : Packet) : List UInt8 := wordBytes p.wordEn p.data efuseMaxWordUnit 0

/-- `bDataEmpty`. -/
def Blank (p : Packet) : Prop := ∀ b ∈ p.words, b = 0xFF

instance (p : Packet) : Decidable p.Blank := inferInstanceAs (Decidable (∀ b ∈ p.words, b = 0xFF))

/-- The packet has the word of the byte `k` of its section. -/
def Has (p : Packet) (k : ℕ) : Prop := wordEnabled p.wordEn (k / 2) = true

instance (p : Packet) (k : ℕ) : Decidable (p.Has k) := inferInstanceAs (Decidable (_ = true))

end Packet

/-- The packet of an entry, if it is one of the section. -/
def LogEntry.inSection (offset : UInt8) : LogEntry → Option Packet
  | packet p => if p.offset = offset then some p else none
  | stub _ => none

/-- The packets of a section in the order of the log. -/
def sectionPackets (offset : UInt8) (es : List LogEntry) : List Packet :=
    es.filterMap (LogEntry.inSection offset)

/-- The byte at the place `k` of `tmpdata` : that of the last packet which has so many bytes. -/
def packedByte (qs : List Packet) (k : ℕ) : UInt8 :=
  (qs.filter fun p => decide (k < p.words.length)).getLast?.elim 0xFF fun p => p.words.getD k 0xFF

/-- The byte `k` of the section is read right. In the last packet with data that has its word, it
stands at its own place of `tmpdata`. If a blank packet with the word follows, the place holds a
blank. -/
def ByteRight (qs : List Packet) (k : ℕ) : Prop :=
  ∀ pre p post, qs = pre ++ p :: post → ¬ p.Blank → p.Has k → (∀ r ∈ post, r.Has k → r.Blank) →
    packedByte (pre ++ [p]) k = if ∃ r ∈ post, r.Has k then 0xFF else p.data k

/-- The section read agrees with the map : it returns the bytes of the section, and whether some are
not `0xFF`. -/
def ReadsSection (es : List LogEntry) (used n : ℕ) (pbuf : Bytes) (offset : UInt8) : Prop :=
  ∃ s map found data,
    halEfuseReadEFuse88E ⟨image 0xFF (logBytes es), used, n⟩ 0 efuseMapLen88e pbuf = some (s, map) ∧
    halEfusePgPacketRead (image 0xFF (logBytes es)) offset = some (found, data) ∧
    (∀ k < pgpktDataSize, data k = map (8 * offset.toNat + k)) ∧
    (found = true ↔ ∃ k < pgpktDataSize, map (8 * offset.toNat + k) ≠ 0xFF)

/-! ## The loop of the section read -/

/-- `tmpdata` with the bytes of a packet. -/
def Packet.pack (p : Packet) (tmpdata : Bytes) : Bytes := fun i =>
  if i < p.words.length then p.words.getD i 0xFF else tmpdata i

/-- What a packet of the section does to `tmpdata` and to the bytes of the section. -/
def readStep (st : Bytes × Bytes) (p : Packet) : Bytes × Bytes :=
  (p.pack st.1, if p.Blank then st.2 else efuseWordEnableDataRead p.wordEn (p.pack st.1) st.2)

variable {cells : Bytes} {base : ℕ} {rest : List UInt8} {offset : UInt8} {es : List LogEntry}
  {qs : List Packet}

theorem sectionPackets_cons (e : LogEntry) (es : List LogEntry) :
    sectionPackets offset (e :: es) = (e.inSection offset).toList ++ sectionPackets offset es := by
  rw [sectionPackets, List.filterMap_cons]
  cases e.inSection offset <;> rfl

theorem Packet.length_words (p : Packet) : p.words.length = efuseCalculateWordCnts p.wordEn * 2 :=
  length_wordBytes p.wordEn p.data

theorem Packet.words_read (p : Packet) (h : IsImage 0xFF cells base (p.words ++ rest)) {i : ℕ}
    (hi : i < p.words.length) : cells (base + i) = p.words.getD i 0xFF := by
  rw [h i, image, List.getD_append _ _ _ _ hi]

theorem Packet.datafollowed_iff (p : Packet) (h : IsImage 0xFF cells base (p.words ++ rest)) :
    halEfuseCheckIfDatafollowed cells (efuseCalculateWordCnts p.wordEn) base = true ↔
      ¬ p.Blank := by
  have hwords : p.words = (List.range p.words.length).map fun i => cells (base + i) := by
    ext1 i
    obtain hi | hi := lt_or_ge i p.words.length
    · rw [List.getElem?_map, List.getElem?_range hi, Option.map_some, p.words_read h hi,
        List.getD_eq_getElem _ _ hi, List.getElem?_eq_getElem hi]
    · rw [List.getElem?_eq_none hi, List.getElem?_eq_none (by simpa using hi)]
  rw [halEfuseCheckIfDatafollowed, ← p.length_words, Packet.Blank, hwords]
  simp

/-- The loop reads the packets of the section in the order of the log. -/
theorem pgPacketReadLoop_eq : ∀ (es : List LogEntry) (fuel base : ℕ) (tmpdata data : Bytes),
    IsImage 0xFF cells base (logBytes es) → base + (logBytes es).length ≤ efuseRealContentLen →
    (logBytes es).length < fuel →
    pgPacketReadLoop cells offset fuel base tmpdata data =
      some ((sectionPackets offset es).foldl readStep (tmpdata, data)).2
  | [], fuel + 1, base, tmpdata, data, h, _, _ => by
    have hblank : ¬ (base < efuseRealContentLen ∧ cells base ≠ 0xFF) := fun hc => hc.2 h.nil
    rw [pgPacketReadLoop, if_neg hblank]
    rfl
  | e :: es, fuel + 1, base, tmpdata, data, h, hlen, hfuel => by
    have he := e.length_bytes
    rw [logBytes_cons] at h hlen hfuel
    rw [List.length_append] at hlen hfuel
    have hnext := fun tmpdata data => pgPacketReadLoop_eq es fuel _ tmpdata data h.append (by omega)
      (by omega)
    rw [pgPacketReadLoop, if_pos ⟨by omega, e.head_ne h⟩, sectionPackets_cons]
    cases e with
    | stub off =>
      rw [(pgHeader_stub h).2]
      exact hnext tmpdata data
    | packet p =>
      have hp := h
      rw [LogEntry.bytes, Packet.bytes, List.append_assoc] at hp
      have hbase : base + p.bytes.length =
        base + p.header.length + efuseCalculateWordCnts p.wordEn * 2 := by
        rw [p.length_bytes, Nat.add_assoc]
      rw [LogEntry.bytes, hbase] at hnext
      rw [(p.pgHeader_eq hp).2]
      dsimp only [LogEntry.inSection]
      split
      · have hpack : (fun i => if i < efuseCalculateWordCnts p.wordEn * 2 then cells
          (base + p.header.length + i)
            else tmpdata i) = p.pack tmpdata := by
          funext i
          rw [← p.length_words, Packet.pack]
          split
          · exact p.words_read hp.append ‹_›
          · rfl
        have hstep : (if halEfuseCheckIfDatafollowed cells (efuseCalculateWordCnts p.wordEn)
          (base + p.header.length)
            then efuseWordEnableDataRead p.wordEn (p.pack tmpdata) data else data) =
              (readStep (tmpdata, data) p).2 := by
          simp only [p.datafollowed_iff hp.append, readStep, ite_not]
        rw [hpack, hstep]
        exact hnext _ _
      · exact hnext tmpdata data

/-! ## The bytes of a section -/

theorem packedByte_concat (qs : List Packet) (p : Packet) (k : ℕ) :
    packedByte (qs ++ [p]) k = if k < p.words.length then p.words.getD k 0xFF else packedByte
      qs k := by
  rw [packedByte, List.filter_append, List.getLast?_append]
  by_cases hk : k < p.words.length
  · rw [if_pos hk, List.filter_singleton, decide_eq_true hk]
    rfl
  · rw [if_neg hk, List.filter_singleton, decide_eq_false hk]
    rfl

/-- The byte `k` of a section after the packets are written over it. -/
def sectionByte (qs : List Packet) (k : ℕ) : UInt8 :=
    qs.foldl (fun b p => if p.Has k then p.data k else b) 0xFF

/-- The byte `k` of the section after the packets are read. -/
def readByte (qs : List Packet) (k : ℕ) : UInt8 :=
    (qs.foldl readStep (fun _ => 0xFF, fun _ => 0xFF)).2 k

theorem foldl_readStep_fst (qs : List Packet) (k : ℕ) :
    (qs.foldl readStep (fun _ => 0xFF, fun _ => 0xFF)).1 k = packedByte qs k := by
  induction qs using List.reverseRecOn with
  | nil => rfl
  | append_singleton qs p ih =>
    rw [List.foldl_append, packedByte_concat, ← ih]
    rfl

theorem readByte_concat (qs : List Packet) (p : Packet) {k : ℕ} (hk : k < pgpktDataSize) :
    readByte (qs ++ [p]) k =
      if ¬ p.Blank ∧ p.Has k then packedByte (qs ++ [p]) k else readByte qs k := by
  have hpack := foldl_readStep_fst (qs ++ [p]) k
  rw [List.foldl_append] at hpack
  rw [readByte, List.foldl_append, ← hpack]
  change (if p.Blank then _ else _ : Bytes) k = _
  by_cases hb : p.Blank
  · rw [if_pos hb, if_neg fun h => h.1 hb]
    rfl
  · rw [if_neg hb, efuseWordEnableDataRead]
    simp only [hk, true_and, hb, not_false_iff]
    rfl

theorem sectionByte_concat (qs : List Packet) (p : Packet) (k : ℕ) :
    sectionByte (qs ++ [p]) k = if p.Has k then p.data k else sectionByte qs k := by
  rw [sectionByte, List.foldl_append]
  rfl

theorem mem_wordBytes {wordEn : UInt8} {data : Bytes} {j : ℕ} (hj : wordEnabled wordEn j = true) :
    ∀ n i : ℕ, i ≤ j → j < i + n →
      data (2 * j) ∈ wordBytes wordEn data n i ∧ data (2 * j + 1) ∈ wordBytes wordEn data n i
  | 0, i, _, _ => by omega
  | n + 1, i, hi, hn => by
    rw [wordBytes]
    obtain rfl | hne := eq_or_ne i j
    · rw [if_pos hj]
      exact ⟨List.mem_cons_self, List.mem_cons_of_mem _ List.mem_cons_self⟩
    · obtain ⟨h0, h1⟩ := mem_wordBytes hj n (i + 1) (by omega) (by omega)
      split
      · exact ⟨List.mem_cons_of_mem _ (List.mem_cons_of_mem _ h0),
          List.mem_cons_of_mem _ (List.mem_cons_of_mem _ h1)⟩
      · exact ⟨h0, h1⟩

theorem Packet.mem_words {p : Packet} {k : ℕ} (h : p.Has k) (hk : k < pgpktDataSize) :
    p.data k ∈ p.words := by
  rw [pgpktDataSize] at hk
  obtain ⟨h0, h1⟩ := @mem_wordBytes p.wordEn p.data _ h efuseMaxWordUnit 0 (Nat.zero_le _)
    (by rw [efuseMaxWordUnit]; omega)
  obtain he | ho : k = 2 * (k / 2) ∨ k = 2 * (k / 2) + 1 := by omega
  · rwa [he]
  · rwa [ho]

/-- A blank packet has blanks for the byte. -/
theorem Packet.Blank.data_eq {p : Packet} (hb : p.Blank) {k : ℕ} (h : p.Has k)
    (hk : k < pgpktDataSize) :
    p.data k = 0xFF := hb _ (Packet.mem_words h hk)

section

variable {pre post : List Packet} {p : Packet} {k : ℕ}

/-- Without data for the byte both are blank. -/
theorem bytes_of_blank (hk : k < pgpktDataSize) (h : ∀ q ∈ qs, q.Has k → q.Blank) :
    readByte qs k = 0xFF ∧ sectionByte qs k = 0xFF := by
  induction qs using List.reverseRecOn with
  | nil => exact ⟨rfl, rfl⟩
  | append_singleton qs p ih =>
    obtain ⟨hread, hsec⟩ := ih fun q hq => h q (List.mem_append_left _ hq)
    have hp : p.Has k → p.Blank := h p (List.mem_append_right _ (List.mem_singleton_self p))
    rw [readByte_concat qs p hk, sectionByte_concat, if_neg fun hc => hc.1 (hp hc.2)]
    refine ⟨hread, ?_⟩
    split
    · exact (hp ‹_›).data_eq ‹_› hk
    · exact hsec

/-- The last packet with data for the byte decides what is read. -/
theorem readByte_of_split (hk : k < pgpktDataSize) (hp : ¬ p.Blank) (hhas : p.Has k)
    (hpost : ∀ r ∈ post, r.Has k → r.Blank) : readByte (pre ++ p :: post) k = packedByte
    (pre ++ [p]) k := by
  induction post using List.reverseRecOn with
  | nil => rw [readByte_concat pre p hk, if_pos ⟨hp, hhas⟩]
  | append_singleton post r ih =>
    have hr : r.Has k → r.Blank := hpost r (List.mem_append_right _ (List.mem_singleton_self r))
    rw [← List.cons_append, ← List.append_assoc, readByte_concat _ r hk,
      if_neg fun hc => hc.1 (hr hc.2)]
    exact ih fun q hq => hpost q (List.mem_append_left _ hq)

/-- The map has its byte, or a blank if a blank packet follows. -/
theorem sectionByte_of_split (hk : k < pgpktDataSize) (hhas : p.Has k)
    (hpost : ∀ r ∈ post, r.Has k → r.Blank) :
    sectionByte (pre ++ p :: post) k = if ∃ r ∈ post, r.Has k then 0xFF else p.data k := by
  induction post using List.reverseRecOn with
  | nil => rw [sectionByte_concat, if_pos hhas, if_neg (by simp)]
  | append_singleton post r ih =>
    have hr : r.Has k → r.Blank := hpost r (List.mem_append_right _ (List.mem_singleton_self r))
    rw [← List.cons_append, ← List.append_assoc, sectionByte_concat]
    split_ifs with h hex hex
    · exact (hr h).data_eq h hk
    · exact absurd ⟨r, List.mem_append_right _ (List.mem_singleton_self r), h⟩ hex
    · rw [ih fun q hq => hpost q (List.mem_append_left _ hq)]
      obtain ⟨q, hq, hhasq⟩ := hex
      obtain hq | rfl := List.mem_append.mp hq |>.imp_right List.mem_singleton.mp
      · exact if_pos ⟨q, hq, hhasq⟩
      · exact absurd hhasq h
    · rw [ih fun q hq => hpost q (List.mem_append_left _ hq), if_neg]
      rintro ⟨q, hq, hhasq⟩
      exact hex ⟨q, List.mem_append_left _ hq, hhasq⟩

/-- The last element with a property. -/
theorem exists_last_split {α : Type*} {P : α → Prop} (l : List α) :
    (∀ a ∈ l, ¬ P a) ∨ ∃ pre a post, l = pre ++ a :: post ∧ P a ∧ ∀ b ∈ post, ¬ P b := by
  induction l with
  | nil => exact .inl fun a ha => absurd ha List.not_mem_nil
  | cons a l ih =>
    obtain hnone | ⟨pre, b, post, rfl, hb, hpost⟩ := ih
    · by_cases ha : P a
      · exact .inr ⟨[], a, l, rfl, ha, hnone⟩
      · exact .inl fun b hb => (List.mem_cons.mp hb).elim (fun h => h ▸ ha) (hnone b)
    · exact .inr ⟨a :: pre, b, post, rfl, hb, hpost⟩

theorem byteRight_iff (hk : k < pgpktDataSize) : ByteRight qs k ↔
    readByte qs k = sectionByte qs k := by
  constructor
  · intro h
    obtain hnone | ⟨pre, p, post, rfl, ⟨hp, hhas⟩, hpost⟩ :=
      exists_last_split (P := fun q : Packet => ¬ q.Blank ∧ q.Has k) qs
    · obtain ⟨hread, hsec⟩ := bytes_of_blank hk
        fun q hq hhas => not_not.mp fun hb => hnone q hq ⟨hb, hhas⟩
      rw [hread, hsec]
    · have hblank : ∀ r ∈ post, r.Has k → r.Blank :=
        fun r hr hhasr => not_not.mp fun hb => hpost r hr ⟨hb, hhasr⟩
      rw [readByte_of_split hk hp hhas hblank, sectionByte_of_split hk hhas hblank]
      exact h pre p post rfl hp hhas hblank
  · rintro h pre p post rfl hp hhas hpost
    have hsection := @sectionByte_of_split pre post p k hk hhas hpost
    rw [← hsection, ← h, readByte_of_split hk hp hhas hpost]

end

/-- Behind the words before it a word stands at its own place. -/
theorem wordBytes_getD (data : Bytes) {wordEn : UInt8} {j b : ℕ} (hb : b < 2) :
    ∀ n i : ℕ, i ≤ j → j < i + n → (∀ m, i ≤ m → m ≤ j → wordEnabled wordEn m = true) →
      2 * (j - i) + b < (wordBytes wordEn data n i).length ∧
        (wordBytes wordEn data n i).getD (2 * (j - i) + b) 0xFF = data (2 * j + b)
  | 0, i, _, _, _ => by omega
  | n + 1, i, hi, hn, hen => by
    rw [wordBytes, if_pos (hen i le_rfl hi)]
    obtain rfl | hne := eq_or_ne i j
    · obtain rfl | rfl : b = 0 ∨ b = 1 := by omega
      · simp
      · simp
    · obtain ⟨hlen, hget⟩ := wordBytes_getD data hb n (i + 1) (by omega) (by omega)
        fun m hm => hen m (by omega)
      have hidx : 2 * (j - i) + b = 2 * (j - (i + 1)) + b + 1 + 1 := by omega
      rw [hidx, List.length_cons, List.length_cons, List.getD_cons_succ, List.getD_cons_succ]
      exact ⟨by omega, hget⟩

/-- If no packet has a gap before the byte's word and none of them is blank, the byte is read
right. -/
theorem byteRight_of_leading {k : ℕ} (hk : k < pgpktDataSize)
    (hlead : ∀ q ∈ qs, q.Has k → ¬ q.Blank ∧ ∀ m ≤ k / 2, wordEnabled q.wordEn m = true) : ByteRight
    qs k := by
  rintro pre p post rfl hp hhas hpost
  have hnone : ¬ ∃ r ∈ post, r.Has k := fun ⟨r, hr, h⟩ =>
    (hlead r (List.mem_append_right _ (List.mem_cons_of_mem _ hr)) h).1 (hpost r hr h)
  obtain ⟨-, hen⟩ := hlead p (List.mem_append_right _ List.mem_cons_self) hhas
  rw [pgpktDataSize] at hk
  obtain ⟨hlen, hget⟩ := wordBytes_getD p.data (Nat.mod_lt k two_pos) efuseMaxWordUnit 0
    (Nat.zero_le (k / 2)) (by rw [efuseMaxWordUnit]; omega) fun m _ hm => hen m hm
  rw [Nat.sub_zero, Nat.div_add_mod] at hlen hget
  rw [if_neg hnone, packedByte_concat, Packet.words, if_pos hlen, hget]

/-! ## The section read and the map -/

/-- A section of the map is what its packets leave. -/
theorem logMap_section {k : ℕ} (hk : k < pgpktDataSize) (es : List LogEntry) :
    logMap es (8 * offset.toNat + k) = sectionByte (sectionPackets offset es) k := by
  rw [pgpktDataSize] at hk
  have hdiv : (8 * offset.toNat + k) / 8 = offset.toNat := by omega
  have hmod : (8 * offset.toNat + k) % 8 = k := by omega
  induction es using List.reverseRecOn with
  | nil => rfl
  | append_singleton es e ih =>
    rw [logMap_append_singleton, sectionPackets, List.filterMap_append, ← sectionPackets]
    cases e with
    | stub off =>
      rw [LogEntry.overlay, ih]
      change _ = sectionByte (_ ++ []) k
      rw [List.append_nil]
    | packet p =>
      rw [LogEntry.overlay, Packet.overlay, hdiv, hmod, ih, List.filterMap_cons]
      by_cases hoff : p.offset = offset
      · rw [LogEntry.inSection, if_pos hoff, hoff]
        change _ = sectionByte (_ ++ [p]) k
        rw [sectionByte_concat]
        simp only [true_and]
        rfl
      · have hne : offset.toNat ≠ p.offset.toNat := fun h => hoff (UInt8.toNat_inj.mp h.symm)
        rw [LogEntry.inSection, if_neg hoff, if_neg fun h => hne h.1]
        change _ = sectionByte (_ ++ []) k
        rw [List.append_nil]

/-- The section read on a log. -/
theorem halEfusePgPacketRead_eq (hoff : offset.toNat < efuseMaxSection88e)
    (hlen : (logBytes es).length < efuseRealContentLen88e) :
    halEfusePgPacketRead (image 0xFF (logBytes es)) offset =
      some ((List.range pgpktDataSize).any fun k => readByte (sectionPackets offset es) k ≠ 0xFF,
        readByte (sectionPackets offset es)) := by
  rw [efuseRealContentLen88e] at hlen
  rw [halEfusePgPacketRead, if_neg (by omega), pgPacketReadLoop_eq es _ 0 _ _ (isImage_image _)
    (by rw [efuseRealContentLen]; omega) (by rw [efuseRealContentLen]; omega)]
  rfl

/-- The map read of a log : an empty log leaves the buffer alone. -/
theorem halEfuseReadEFuse88E_section (hlen : (logBytes es).length < efuseRealContentLen88e)
    (used n : ℕ) (pbuf : Bytes) :
    ∃ s map, halEfuseReadEFuse88E ⟨image 0xFF (logBytes es), used, n⟩ 0 efuseMapLen88e pbuf =
      some (s, map) ∧
      ∀ a < efuseMapLen88e, map a = if es = [] then pbuf a else logMap es a := by
  obtain rfl | hes := eq_or_ne es []
  · exact ⟨_, pbuf, rfl, fun a _ => (if_pos rfl).symm⟩
  · refine ⟨_, _, halEfuseReadEFuse88E_eq hes hlen (Nat.zero_add _).le used n pbuf, fun a ha => ?_⟩
    rw [if_neg hes, copyOut, if_pos ha, Nat.zero_add]

/-- The section read agrees with the map exactly if it reads every byte of the section right. On an
empty eFuse the map is what its buffer held. -/
theorem readsSection_iff (hoff : offset.toNat < efuseMaxSection88e)
    (hlen : (logBytes es).length < efuseRealContentLen88e) (used n : ℕ) (pbuf : Bytes) :
    ReadsSection es used n pbuf offset ↔
      (es = [] → ∀ k < pgpktDataSize, pbuf (8 * offset.toNat + k) = 0xFF) ∧
        ∀ k < pgpktDataSize, ByteRight (sectionPackets offset es) k := by
  obtain ⟨s, map, hread, hmap⟩ := halEfuseReadEFuse88E_section hlen used n pbuf
  have hsec : ∀ k < pgpktDataSize, map (8 * offset.toNat + k) =
      if es = [] then pbuf (8 * offset.toNat + k) else sectionByte (sectionPackets offset es) k :=
        fun k hk => by
    have ha : 8 * offset.toNat + k < efuseMapLen88e := by
      rw [efuseMaxSection88e] at hoff
      rw [pgpktDataSize] at hk
      rw [efuseMapLen88e]
      omega
    rw [hmap _ ha, logMap_section hk]
  have hagree : ReadsSection es used n pbuf offset ↔
      ∀ k < pgpktDataSize, readByte (sectionPackets offset es) k = map (8 * offset.toNat + k) := by
    constructor
    · rintro ⟨s', map', found, data, hread', hpg, hdata, -⟩
      rw [hread] at hread'
      cases hread'
      rw [halEfusePgPacketRead_eq hoff hlen] at hpg
      cases hpg
      exact hdata
    · intro h
      refine ⟨s, map, _, _, hread, halEfusePgPacketRead_eq hoff hlen, h, ?_⟩
      simp only [List.any_eq_true, List.mem_range, decide_eq_true_eq]
      refine exists_congr fun k => and_congr_right fun hk => ?_
      rw [h k hk]
  rw [hagree]
  obtain rfl | hes := eq_or_ne es []
  · have hright : ∀ k < pgpktDataSize, ByteRight (sectionPackets offset []) k := fun k hk =>
      (byteRight_iff hk).mpr rfl
    rw [and_iff_left hright]
    simp only [true_implies]
    refine forall₂_congr fun k hk => ?_
    rw [hsec k hk, if_pos rfl]
    exact eq_comm
  · rw [and_iff_right fun h => absurd h hes]
    refine forall₂_congr fun k hk => ?_
    rw [hsec k hk, if_neg hes, byteRight_iff hk]

theorem sampleSection_lt_max : (5 : UInt8).toNat < efuseMaxSection88e := by decide

theorem twoWordsEnabled_lt : (0xC : UInt8).toNat < 15 := by decide

theorem firstWordEnabled_lt : (0xE : UInt8).toNat < 15 := by decide

/-- A packet with the second word of section 5 only. -/
def lateWordLog : List LogEntry := [.packet ⟨5, 0xD, fun i => UInt8.ofNat i, sampleSection_lt_max, by decide⟩]

/-- Two words of section 5, and then the first word once more. -/
def leadingWordsLog : List LogEntry :=
  [.packet ⟨5, 0xC, fun i => UInt8.ofNat i, sampleSection_lt_max, twoWordsEnabled_lt⟩,
    .packet ⟨5, 0xE, fun i => UInt8.ofNat (i + 8), sampleSection_lt_max, firstWordEnabled_lt⟩]

/-- The late word is packed first, and read behind it. -/
theorem not_readsSection_lateWordLog : ¬ ReadsSection lateWordLog 0 0 blankMap 5 := by
  rintro ⟨s, map, found, data, hread, hpg, hdata, -⟩
  have h2 := hdata 2 (by decide)
  have hmap : (halEfuseReadEFuse88E
    ⟨image 0xFF (logBytes lateWordLog), 0, 0⟩ 0 efuseMapLen88e blankMap).map
      (fun r => r.2 42) = some 2 := by decide +kernel
  have hpg2 : (halEfusePgPacketRead (image 0xFF (logBytes lateWordLog)) 5).map
    (fun r => r.2 2) = some 0xFF := by
    decide +kernel
  rw [hread] at hmap
  rw [hpg] at hpg2
  have hd : data 2 = 0xFF := Option.some.inj hpg2
  have hm : map 42 = 2 := Option.some.inj hmap
  change data 2 = map 42 at h2
  rw [hd, hm] at h2
  exact absurd h2 (by decide)

theorem readsSection_leadingWordsLog : ReadsSection leadingWordsLog 0 0 blankMap 5 := by
  refine (readsSection_iff (by decide) (by decide +kernel) 0 0 blankMap).mpr
    ⟨fun h => absurd h (by simp [leadingWordsLog]), fun k hk => byteRight_of_leading hk ?_⟩
  rw [pgpktDataSize] at hk
  interval_cases k <;> decide +kernel

end Rtl8188eu
