import Rtl8188eu.SecurityElements
import Rtl8188eu.IeSearchLimits

/-!
# The cipher suites of the WPA and RSN elements

`rtw_parse_wpa_ie` and `rtw_parse_wpa2_ie` differ in the id, in the OUI that is compared behind the
length, and in the values of the suites. Behind the version field both read a group selector, a
count and as many pairwise selectors, and the suite for 802.1X, each of which may be missing with
all behind it. They accept exactly these layouts (`parse_exact`).
-/

namespace Rtl8188eu

/-! ## The functions of the source -/

/-- `WPA_CIPHER_NONE`, `WPA_CIPHER_WEP40`, `WPA_CIPHER_WEP104`, `WPA_CIPHER_TKIP` and
`WPA_CIPHER_CCMP`. -/
def wpaCipherNone : BitVec 32 := 1
def wpaCipherWep40 : BitVec 32 := 2
def wpaCipherWep104 : BitVec 32 := 4
def wpaCipherTkip : BitVec 32 := 8
def wpaCipherCcmp : BitVec 32 := 16

/-- The comparisons of a selector with the suites that are known, with the OUI of these. -/
def cipherSuite (oui s : List UInt8) : BitVec 32 :=
  if s = oui ++ [0] then wpaCipherNone
  else if s = oui ++ [1] then wpaCipherWep40
  else if s = oui ++ [2] then wpaCipherTkip
  else if s = oui ++ [4] then wpaCipherCcmp
  else if s = oui ++ [5] then wpaCipherWep104
  else 0

/-- `rtw_get_wpa_cipher_suite`. -/
def rtwGetWpaCipherSuite (s : List UInt8) : BitVec 32 := cipherSuite [0x00, 0x50, 0xf2] s

/-- `rtw_get_wpa2_cipher_suite`. -/
def rtwGetWpa2CipherSuite (s : List UInt8) : BitVec 32 := cipherSuite [0x00, 0x0f, 0xac] s

/-- What `group_cipher`, `pairwise_cipher` and `is_8021x` point to. The last one may be `NULL`. -/
structure SuiteInfo where
  groupCipher : BitVec 32
  pairwiseCipher : BitVec 32
  is8021x : Option (BitVec 32)
deriving DecidableEq

/-- Whether `_SUCCESS` is returned, and the addresses that are read. -/
structure SuiteResult where
  success : Bool
  info : SuiteInfo
  reads : List ℤ
deriving DecidableEq

/-- What the two functions differ in. -/
structure SuiteParser where
  id : UInt8
  /-- The bytes that are compared behind the length byte. -/
  ouiType : List UInt8
  cipher : List UInt8 → BitVec 32
  suite1x : List UInt8

namespace SuiteParser

variable (k : SuiteParser) (m : Mem)

/-- The end of the functions : `is_8021x`. -/
def parse8021x (pos left : ℤ) (s : SuiteInfo) : SuiteResult :=
  if s.is8021x.isSome ∧ 6 ≤ left then
    ⟨true, if m.read (pos + 2) 4 = k.suite1x then { s with is8021x := some 1 } else s, addrs (pos + 2) 4⟩
  else ⟨true, s, []⟩

/-- The loop over the pairwise selectors. -/
def pairwiseLoop : ℕ → ℤ → BitVec 32 → BitVec 32
  | 0, _, pairwise => pairwise
  | count + 1, pos, pairwise => pairwiseLoop count (pos + 4) (pairwise ||| k.cipher (m.read pos 4))

/-- `pairwise_cipher`, and what is behind it. -/
def parsePairwise (pos left : ℤ) (s : SuiteInfo) : SuiteResult :=
  if 2 ≤ left then
    let count := m.le16 pos
    if count = 0 ∨ left - 2 < count * 4 then ⟨false, s, addrs pos 2⟩
    else
      let s' := { s with pairwiseCipher := k.pairwiseLoop m count (pos + 2) s.pairwiseCipher }
      let r := k.parse8021x m (pos + 2 + count * 4) (left - 2 - count * 4) s'
      { r with reads := addrs pos 2 ++ addrs (pos + 2) (count * 4) ++ r.reads }
  else if left = 1 then ⟨false, s, []⟩
  else k.parse8021x m pos left s

/-- `group_cipher`, and what is behind it. -/
def parseGroup (pos left : ℤ) (s : SuiteInfo) : SuiteResult :=
  if 4 ≤ left then
    let r := k.parsePairwise m (pos + 4) (left - 4) { s with groupCipher := k.cipher (m.read pos 4) }
    { r with reads := addrs pos 4 ++ r.reads }
  else if 0 < left then ⟨false, s, []⟩
  else k.parsePairwise m pos left s

/-- The two functions. The version field of two bytes is not read. -/
def parseIe (ie len : ℤ) (s : SuiteInfo) : SuiteResult :=
  if len ≤ 0 then ⟨false, s, []⟩
  else if m ie ≠ k.id then ⟨false, s, [ie]⟩
  else if (m (ie + 1)).toNat ≠ (len - 2) % 256 then ⟨false, s, [ie, ie + 1]⟩
  else
    let checked := ie :: (ie + 1) :: addrs (ie + 2) k.ouiType.length
    if m.read (ie + 2) k.ouiType.length ≠ k.ouiType then ⟨false, s, checked⟩
    else
      let r := k.parseGroup m (ie + (4 + k.ouiType.length)) (len - (4 + k.ouiType.length)) s
      { r with reads := checked ++ r.reads }

end SuiteParser

/-- What `rtw_parse_wpa_ie` looks for. -/
def wpaParser : SuiteParser := ⟨vendorSpecificIe, wpaOuiType, rtwGetWpaCipherSuite, [0x00, 0x50, 0xf2, 1]⟩

/-- What `rtw_parse_wpa2_ie` looks for. -/
def rsnParser : SuiteParser := ⟨wpa2IeId, [], rtwGetWpa2CipherSuite, [0x00, 0x0f, 0xac, 1]⟩

/-- `rtw_parse_wpa_ie`. -/
def rtwParseWpaIe (m : Mem) (wpaIe wpaIeLen : ℤ) (s : SuiteInfo) : SuiteResult :=
  wpaParser.parseIe m wpaIe wpaIeLen s

/-- `rtw_parse_wpa2_ie`. -/
def rtwParseWpa2Ie (m : Mem) (rsnIe rsnIeLen : ℤ) (s : SuiteInfo) : SuiteResult :=
  rsnParser.parseIe m rsnIe rsnIeLen s

/-! ## The fields behind the version -/

/-- A selector. -/
structure Selector where
  bytes : List UInt8
  length_bytes : bytes.length = 4

attribute [simp] Selector.length_bytes

/-- What may be behind the version field. -/
inductive SuiteFields where
  | nothing
  | group (suite : Selector)
  | list (suite : Selector) (pairwise : List Selector) (more : List UInt8) (ne_nil : pairwise ≠ [])
    (length_lt : pairwise.length < 2 ^ 16)

namespace SuiteFields

def bytes : SuiteFields → List UInt8
  | .nothing => []
  | .group suite => suite.bytes
  | .list suite pairwise more _ _ =>
    suite.bytes ++ (le16Bytes pairwise.length ++ (pairwise.flatMap Selector.bytes ++ more))

/-- What is reported of the fields. -/
def info (k : SuiteParser) (s : SuiteInfo) : SuiteFields → SuiteInfo
  | .nothing => s
  | .group suite => { s with groupCipher := k.cipher suite.bytes }
  | .list suite pairwise more _ _ =>
    ⟨k.cipher suite.bytes, (pairwise.map fun c => k.cipher c.bytes).foldl (· ||| ·) s.pairwiseCipher,
      s.is8021x.map fun x => if 6 ≤ more.length ∧ (more.drop 2).take 4 = k.suite1x then 1 else x⟩

theorem eq_nothing_of_bytes {f : SuiteFields} (h : f.bytes = []) : f = .nothing := by
  cases f with
  | nothing => rfl
  | group suite =>
    have hlen := suite.length_bytes
    rw [show suite.bytes = [] from h] at hlen
    cases hlen
  | list suite pairwise more hne hlt =>
    have hlen := suite.length_bytes
    rw [(List.append_eq_nil_iff.mp h).1] at hlen
    cases hlen

end SuiteFields

namespace SuiteParser

/-! ## What is read -/

section Reads

variable {k : SuiteParser} {m : Mem} {pos left a : ℤ} {s : SuiteInfo}

theorem inside_8021x (h : a ∈ (k.parse8021x m pos left s).reads) : pos ≤ a ∧ a < pos + left := by
  unfold parse8021x at h
  split at h
  · rename_i hleft
    rw [mem_addrs] at h
    omega
  · cases h

theorem inside_pairwise (h : a ∈ (k.parsePairwise m pos left s).reads) :
    pos ≤ a ∧ a < pos + left := by
  unfold parsePairwise at h
  split at h
  · rename_i hleft
    dsimp only at h
    split at h
    · rw [mem_addrs] at h
      omega
    · rename_i hcount
      simp only [List.mem_append, mem_addrs] at h
      rcases h with (h | h) | h
      · omega
      · push_cast at h
        omega
      · have hin := inside_8021x h
        omega
  · split at h
    · cases h
    · exact inside_8021x h

theorem inside_group (h : a ∈ (k.parseGroup m pos left s).reads) : pos ≤ a ∧ a < pos + left := by
  unfold parseGroup at h
  split at h
  · rename_i hleft
    simp only [List.mem_append, mem_addrs] at h
    rcases h with h | h
    · omega
    · have hin := inside_pairwise h
      omega
  · split at h
    · cases h
    · exact inside_pairwise h

end Reads

/-! ## What is accepted -/

section Accepted

variable {k : SuiteParser} {m : Mem} {pos : ℤ} {s : SuiteInfo} {bs : List UInt8} {t : Stream' UInt8}

theorem success_8021x (pos left : ℤ) : (k.parse8021x m pos left s).success = true := by
  unfold parse8021x
  split <;> rfl

theorem info_8021x (h : bytesAt m pos = bs ++ₛ t) : (k.parse8021x m pos bs.length s).info =
    { s with
      is8021x := s.is8021x.map fun x => if 6 ≤ bs.length ∧
        (bs.drop 2).take 4 = k.suite1x then 1 else x } := by
  unfold parse8021x
  obtain ⟨group, pairwise, is8021x⟩ := s
  cases is8021x with
  | none => rfl
  | some x =>
    by_cases hlen : 6 ≤ bs.length
    · have hread : m.read (pos + 2) 4 = (bs.drop 2).take 4 := by
        have hcut : bytesAt m pos = bs.take 2 ++ₛ (bs.drop 2 ++ₛ t) := by
          rw [← Stream'.append_append_stream, List.take_append_drop, h]
        have hdrop := bytesAt_drop hcut
        rw [List.length_take, min_eq_left (by omega)] at hdrop
        rw [read_eq_take, show pos + 2 = pos + (2 : ℕ) from rfl, hdrop,
          Stream'.take_append_of_le_length _ _ _ (by rw [List.length_drop]; omega)]
      rw [if_pos ⟨rfl, by omega⟩, hread]
      by_cases hsuite : (bs.drop 2).take 4 = k.suite1x <;> simp [hsuite, hlen]
    · rw [if_neg (by omega)]
      simp [hlen]

/-- The selectors of the list are read one after another. -/
theorem pairwiseLoop_eq : ∀ {cs : List Selector} {pos : ℤ} {x : BitVec 32} {t : Stream' UInt8},
    bytesAt m pos = cs.flatMap Selector.bytes ++ₛ t →
      k.pairwiseLoop m cs.length pos x = (cs.map fun c => k.cipher c.bytes).foldl (· ||| ·) x
  | [], _, _, _, _ => rfl
  | c :: cs, pos, x, t, h => by
    rw [List.flatMap_cons, Stream'.append_append_stream] at h
    have hread := read_of_bytesAt h
    have hnext := bytesAt_drop h
    rw [c.length_bytes] at hread hnext
    rw [List.length_cons, pairwiseLoop, hread, List.map_cons, List.foldl_cons]
    exact pairwiseLoop_eq hnext

theorem length_flatMap_bytes :
    ∀ cs : List Selector, (cs.flatMap Selector.bytes).length = cs.length * 4
  | [] => rfl
  | c :: cs => by
    rw [List.flatMap_cons, List.length_append, c.length_bytes, length_flatMap_bytes cs,
      List.length_cons]
    omega

/-- Bytes that are as many as those of `n` selectors are those of `n` selectors. -/
theorem exists_selectors : ∀ (n : ℕ) {bs : List UInt8}, bs.length = n * 4 →
    ∃ cs : List Selector, cs.length = n ∧ bs = cs.flatMap Selector.bytes
  | 0, bs, h => ⟨[], rfl, List.eq_nil_of_length_eq_zero (by omega)⟩
  | n + 1, bs, h => by
    obtain ⟨cs, hlen, hbs⟩ := @exists_selectors n (bs.drop 4) (by rw [List.length_drop]; omega)
    refine ⟨⟨bs.take 4, by rw [List.length_take]; omega⟩ :: cs, by rw [List.length_cons, hlen], ?_⟩
    rw [List.flatMap_cons, ← hbs, List.take_append_drop]

theorem le16_of_bytesAt {a b : UInt8} (h : bytesAt m pos = (a :: b :: bs) ++ₛ t) :
    m.le16 pos = a.toNat + 256 * b.toNat := by
  obtain ⟨ha, hb, -⟩ := IeSearch.header_of_bytesAt h
  rw [Mem.le16, ha, hb]

theorem toNat_le16Bytes {n : ℕ} (h : n < 2 ^ 16) :
    ∃ a b : UInt8, le16Bytes n = [a, b] ∧ a.toNat + 256 * b.toNat = n := by
  refine ⟨_, _, rfl, ?_⟩
  rw [UInt8.toNat_ofNat', UInt8.toNat_ofNat']
  omega

/-- A list of pairwise selectors behind its count. -/
theorem pairwise_list {cs : List Selector} {more : List UInt8} (hne : cs ≠ [])
    (hlt : cs.length < 2 ^ 16)
    (h : bytesAt m pos = (le16Bytes cs.length ++ (cs.flatMap Selector.bytes ++ more)) ++ₛ t) :
    (k.parsePairwise m pos
    (le16Bytes cs.length ++ (cs.flatMap Selector.bytes ++ more)).length s).success = true ∧
      (k.parsePairwise m pos
      (le16Bytes cs.length ++ (cs.flatMap Selector.bytes ++ more)).length s).info =
        ⟨s.groupCipher, (cs.map fun c => k.cipher c.bytes).foldl (· ||| ·) s.pairwiseCipher,
          s.is8021x.map fun x => if 6 ≤ more.length ∧
            (more.drop 2).take 4 = k.suite1x then 1 else x⟩ := by
  obtain ⟨a, b, hab, hcount⟩ := toNat_le16Bytes hlt
  have hpos : 0 < cs.length := List.length_pos_iff.mpr hne
  rw [hab] at h ⊢
  have hle16 := le16_of_bytesAt h
  obtain ⟨-, -, hlist⟩ := IeSearch.header_of_bytesAt h
  have hlist' : bytesAt m (pos + 2) = cs.flatMap Selector.bytes ++ₛ (more ++ₛ t) := by
    rw [← Stream'.append_append_stream]
    exact hlist
  have hmore := bytesAt_drop hlist'
  have hloop := @pairwiseLoop_eq k m cs (pos + 2) s.pairwiseCipher _ hlist'
  rw [length_flatMap_bytes, Nat.cast_mul] at hmore
  have hlen : (([a, b] ++ (cs.flatMap Selector.bytes ++ more)).length : ℤ) - 2 - cs.length * 4 =
    more.length := by
    rw [List.length_append, List.length_append, length_flatMap_bytes]
    push_cast
    simp only [List.length_cons, List.length_nil]
    omega
  unfold parsePairwise
  rw [if_pos (by omega)]
  dsimp only
  rw [hle16, hcount, if_neg (by omega), hlen, hloop]
  refine ⟨success_8021x _ _, ?_⟩
  exact info_8021x hmore

/-- What is accepted behind the group selector is nothing or a counted list. -/
theorem pairwise_cases (h : bytesAt m pos = bs ++ₛ t)
    (hok : (k.parsePairwise m pos bs.length s).success = true) :
    bs = [] ∨ ∃ (cs : List Selector) (more : List UInt8), cs ≠ [] ∧ cs.length < 2 ^ 16 ∧
      bs = le16Bytes cs.length ++ (cs.flatMap Selector.bytes ++ more) := by
  match bs, h with
  | [], _ => exact Or.inl rfl
  | [a], _ =>
    unfold parsePairwise at hok
    simp at hok
  | a :: b :: rest, h =>
    right
    have ha := a.toNat_lt
    have hb := b.toNat_lt
    have hle16 := le16_of_bytesAt h
    unfold parsePairwise at hok
    rw [if_pos (by simp only [List.length_cons]; omega)] at hok
    dsimp only at hok
    split at hok
    · cases hok
    rename_i hcount
    rw [hle16] at hcount
    simp only [List.length_cons] at hcount
    obtain ⟨cs, hlen, hcs⟩ := @exists_selectors (a.toNat + 256 * b.toNat)
      (rest.take ((a.toNat + 256 * b.toNat) * 4)) (by rw [List.length_take]; omega)
    refine ⟨cs, rest.drop ((a.toNat + 256 * b.toNat) * 4), ?_, by omega, ?_⟩
    · rintro rfl
      simp only [List.length_nil] at hlen
      omega
    · rw [hlen, le16Bytes_toNat, ← hcs, List.take_append_drop]
      rfl

/-- Nothing behind the group selector. -/
theorem pairwise_nothing (pos : ℤ) : k.parsePairwise m pos 0 s = ⟨true, s, []⟩ := by
  rw [parsePairwise, if_neg (by decide), if_neg (by decide), parse8021x, if_neg (by omega)]

/-- A group selector is read, and the rest of the fields. -/
theorem group_selector {suite : Selector} (h : bytesAt m pos = (suite.bytes ++ bs) ++ₛ t) :
    bytesAt m (pos + 4) = bs ++ₛ t ∧
      (k.parseGroup m pos (suite.bytes ++ bs).length s).success =
        (k.parsePairwise m (pos + 4) bs.length
          { s with groupCipher := k.cipher suite.bytes }).success ∧
      (k.parseGroup m pos (suite.bytes ++ bs).length s).info =
        (k.parsePairwise m (pos + 4) bs.length
          { s with groupCipher := k.cipher suite.bytes }).info := by
  rw [Stream'.append_append_stream] at h
  have hread := read_of_bytesAt h
  have hrest := bytesAt_drop h
  rw [suite.length_bytes] at hread hrest
  have hlen : ((suite.bytes ++ bs).length : ℤ) - 4 = bs.length := by
    rw [List.length_append, suite.length_bytes]
    omega
  refine ⟨hrest, ?_⟩
  unfold parseGroup
  rw [if_pos (by omega)]
  dsimp only
  rw [hlen, hread]
  exact ⟨rfl, rfl⟩

/-- The layouts of the fields are accepted and reported. -/
theorem group_fields (f : SuiteFields) (h : bytesAt m pos = f.bytes ++ₛ t) :
    (k.parseGroup m pos f.bytes.length s).success = true ∧
      (k.parseGroup m pos f.bytes.length s).info = f.info k s := by
  cases f with
  | nothing =>
    have hnothing : k.parseGroup m pos (([] : List UInt8).length : ℕ) s = ⟨true, s, []⟩ := by
      rw [parseGroup, if_neg (by simp), if_neg (by simp), List.length_nil, Nat.cast_zero,
        pairwise_nothing]
    rw [SuiteFields.bytes, hnothing]
    exact ⟨rfl, rfl⟩
  | group suite =>
    have hbytes : (SuiteFields.group suite).bytes = suite.bytes ++ [] := (List.append_nil _).symm
    rw [hbytes] at h ⊢
    obtain ⟨-, hok, hinfo⟩ := @group_selector k m pos s [] t suite h
    rw [hok, hinfo, List.length_nil, Nat.cast_zero, pairwise_nothing]
    exact ⟨rfl, rfl⟩
  | list suite pairwise more hne hlt =>
    obtain ⟨hrest, hok, hinfo⟩ := @group_selector k m pos s _ t suite h
    have hlist := @pairwise_list k m (pos + 4)
      { s with groupCipher := k.cipher suite.bytes } t pairwise more hne hlt
      hrest
    rw [SuiteFields.bytes, hok, hinfo]
    exact hlist

/-- Only the layouts of the fields are accepted. -/
theorem exists_fields (h : bytesAt m pos = bs ++ₛ t)
    (hok : (k.parseGroup m pos bs.length s).success = true) :
    ∃ f : SuiteFields, bs = f.bytes := by
  by_cases hlen : 4 ≤ bs.length
  · have hcut := (List.take_append_drop 4 bs).symm
    let suite : Selector := ⟨bs.take 4, by rw [List.length_take, min_eq_left hlen]⟩
    rw [hcut] at h hok
    obtain ⟨hrest, hsuccess, -⟩ := @group_selector k m pos s (bs.drop 4) t suite h
    rw [hsuccess] at hok
    rcases pairwise_cases hrest hok with hnil | ⟨cs, more, hne, hlt, hlist⟩
    · exact ⟨.group suite, by rw [hcut, hnil, List.append_nil, SuiteFields.bytes]⟩
    · exact ⟨.list suite cs more hne hlt, by rw [hcut, hlist, SuiteFields.bytes]⟩
  · unfold parseGroup at hok
    rw [if_neg (by omega)] at hok
    split at hok
    · cases hok
    · exact ⟨.nothing, List.eq_nil_of_length_eq_zero (by omega)⟩

end Accepted

/-! ## The elements -/

/-- An element with the id, the OUI and the length byte that is looked for, and `rest` behind
them. -/
def element (k : SuiteParser) (rest : List UInt8) : List UInt8 :=
  k.id :: UInt8.ofNat (k.ouiType.length + rest.length) :: (k.ouiType ++ rest)

/-- The result `r` for the element with `rest` is right : nothing outside the element is read, and
it is accepted and reported exactly if the fields are behind its version field of two bytes. -/
structure Exact (k : SuiteParser) (ie : ℤ) (rest : List UInt8) (s : SuiteInfo) (r : SuiteResult) : Prop where
  inside : ∀ a ∈ r.reads, ie ≤ a ∧ a < ie + (k.element rest).length
  success_iff : r.success = true ↔ ∃ f : SuiteFields, rest.drop 2 = f.bytes
  info_eq : ∀ f : SuiteFields, rest.drop 2 = f.bytes → r.info = f.info k s

/-- Without a whole version field nothing is left. -/
theorem group_of_neg {k : SuiteParser} {m : Mem} {pos left : ℤ} {s : SuiteInfo} (h : left ≤ 0) :
    k.parseGroup m pos left s = ⟨true, s, []⟩ := by
  rw [parseGroup, if_neg (by omega), if_neg (by omega), parsePairwise, if_neg (by omega),
    if_neg (by omega),
    parse8021x, if_neg (by omega)]

theorem exact_of_bytesAt {k : SuiteParser} {m : Mem} {ie : ℤ} {rest : List UInt8}
    {t : Stream' UInt8}
    (h : bytesAt m ie = k.element rest ++ₛ t) (s : SuiteInfo) :
    k.Exact ie rest s (k.parseIe m ie (k.element rest).length s) := by
  have hlen : ((k.element rest).length : ℤ) = k.ouiType.length + rest.length + 2 := by
    simp [element]
    ring
  obtain ⟨hid, hlenByte, hafter⟩ := IeSearch.header_of_bytesAt h
  rw [Stream'.append_append_stream] at hafter
  have houi := read_of_bytesAt hafter
  have hrest := bytesAt_drop hafter
  have hmatch : (m (ie + 1)).toNat = ((k.element rest).length - 2 : ℤ) % 256 := by
    rw [hlenByte, UInt8.toNat_ofNat', hlen]
    omega
  have hparse : k.parseIe m ie (k.element rest).length s =
      let r := k.parseGroup m (ie + (4 + k.ouiType.length)) (rest.length - 2) s
      { r with reads := (ie :: (ie + 1) :: addrs (ie + 2) k.ouiType.length) ++ r.reads } := by
    unfold parseIe
    rw [if_neg (by omega), if_neg (not_not.mpr hid), if_neg (not_not.mpr hmatch)]
    dsimp only
    have hleft : ((k.element rest).length : ℤ) - (4 + k.ouiType.length) =
      rest.length - 2 := by omega
    rw [if_neg (not_not.mpr houi), hleft]
  rw [hparse]
  have hfields : (∀ f : SuiteFields, rest.drop 2 = f.bytes →
      (k.parseGroup m (ie + (4 + k.ouiType.length)) (rest.length - 2) s).success = true ∧
        (k.parseGroup m (ie + (4 + k.ouiType.length)) (rest.length - 2) s).info = f.info k s) ∧
      ((k.parseGroup m (ie + (4 + k.ouiType.length)) (rest.length - 2) s).success = true →
        ∃ f : SuiteFields, rest.drop 2 = f.bytes) := by
    by_cases hversion : 2 ≤ rest.length
    · have hdrop : bytesAt m (ie + (4 + k.ouiType.length)) = rest.drop 2 ++ₛ t := by
        rw [← List.take_append_drop 2 rest, Stream'.append_append_stream] at hrest
        have hnext := bytesAt_drop hrest
        rw [List.length_take, min_eq_left hversion] at hnext
        rw [← hnext]
        congr 1
        push_cast
        ring
      have hleft : (rest.length : ℤ) - 2 = (rest.drop 2).length := by
        rw [List.length_drop]
        omega
      rw [hleft]
      refine ⟨fun f hf => ?_, exists_fields hdrop⟩
      rw [hf] at hdrop ⊢
      exact group_fields f hdrop
    · have hnil : rest.drop 2 = [] := List.drop_eq_nil_of_le (by omega)
      rw [group_of_neg (by omega), hnil]
      refine ⟨fun f hf => ⟨rfl, ?_⟩, fun _ => ⟨.nothing, rfl⟩⟩
      rw [SuiteFields.eq_nothing_of_bytes hf.symm]
      rfl
  refine ⟨fun a ha => ?_, ⟨hfields.2, fun ⟨f, hf⟩ => (hfields.1 f hf).1⟩,
    fun f hf => (hfields.1 f hf).2⟩
  rw [List.mem_append, List.mem_cons, List.mem_cons, mem_addrs] at ha
  rcases ha with (rfl | rfl | ha) | ha
  · omega
  · omega
  · omega
  · have hin := inside_group ha
    omega

end SuiteParser

/-- Of elements with the right id, OUI and length byte the two functions accept and report exactly
those with the fields that they look for, and read nothing else. -/
theorem parse_exact (m₀ : Mem) (ie : ℤ) (rest : List UInt8) (s : SuiteInfo) :
    wpaParser.Exact ie rest s
        (rtwParseWpaIe (m₀.write ie (wpaParser.element rest)) ie (wpaParser.element rest).length s) ∧
      rsnParser.Exact ie rest s
        (rtwParseWpa2Ie (m₀.write ie (rsnParser.element rest)) ie (rsnParser.element rest).length s) :=
  ⟨SuiteParser.exact_of_bytesAt (bytesAt_write m₀ ie _) s,
    SuiteParser.exact_of_bytesAt (bytesAt_write m₀ ie _) s⟩

/-- CCMP for the group and as the only pairwise suite, and 802.1X. -/
example : (rtwParseWpa2Ie
    (Mem.write (fun _ => 0) 0 (rsnParser.element [1, 0, 0x00, 0x0f, 0xac, 4, 1, 0,
    0x00, 0x0f, 0xac, 4, 1, 0, 0x00, 0x0f, 0xac, 1])) 0 20 ⟨0, 0, some 0⟩).info =
      ⟨wpaCipherCcmp, wpaCipherCcmp, some 1⟩ := by
  decide

end Rtl8188eu
