import Rtl8188eu.MgntXmit

/-!
# The group info attribute

A group owner lists its P2P clients in the probe responses. `process_assoc_req_p2p_ie` keeps what a
client says of itself in its association request, and `go_add_group_info_attr` writes one record for
each client to a buffer of `MAX_P2P_IE_LEN` bytes, and the records to the attribute.

The number of secondary device types is kept as the client sent it, and at most four types are. The
record has the number and as many types, so behind the fourth it has what follows the list in
memory. The length of a record has eight bits, and nothing compares the records with the buffer.

`groupInfoRight_iff` : the attribute is right exactly if no client has more than four types and the
records fit in the buffer.
-/

namespace Rtl8188eu

/-! ## The clients -/

/-- `WPS_ATTR_DEVICE_NAME`. -/
def wpsAttrDeviceName : ℕ := 0x1011
/-- `P2P_ATTR_GROUP_INFO`. -/
def p2pAttrGroupInfo : UInt8 := 0x0E
/-- `MAX_P2P_IE_LEN`. -/
def maxP2pIeLen : ℕ := 256

/-- The fields of `struct sta_info` for P2P. -/
structure P2pSta where
  isP2pDevice : Bool
  hwaddr : MacAddr
  devAddr : MacAddr
  devCap : UInt8
  configMethods : UInt16
  primaryDevType : Vector UInt8 8
  numOfSecdevType : UInt8
  secdevTypesList : Vector UInt8 32
  devName : Vector UInt8 32
  devNameLen : ℕ
  devNameLen_le : devNameLen ≤ 32

/-- `be16_to_cpu` of two bytes. -/
def be16Of (a b : UInt8) : ℕ := 256 * a.toNat + b.toNat

/-- What an element of the request has for the client : the contents of the capability and of the
device info, each with what follows it in memory. -/
structure P2pAssocElement where
  capability : Option (ℕ → UInt8)
  deviceInfo : Option (ℕ → UInt8)

/-- The bytes of a device info before its name. -/
def deviceNameAt (content : ℕ → UInt8) : ℕ := 17 + (content 16).toNat * 8

/-- The device info of `process_assoc_req_p2p_ie`. -/
def storeDeviceInfo (psta : P2pSta) (content : ℕ → UInt8) : P2pSta :=
  let len := min 32 ((content 16).toNat * 8)
  let name := deviceNameAt content
  let devNameLen :=
    if be16Of (content name) (content (name + 1)) = wpsAttrDeviceName then
      min 32 (be16Of (content (name + 2)) (content (name + 3)))
    else 0
  { psta with
    devAddr := Vector.ofFn fun i => content i
    configMethods := UInt16.ofNat (be16Of (content 6) (content 7))
    primaryDevType := Vector.ofFn fun i => content (8 + i)
    numOfSecdevType := content 16
    secdevTypesList := Vector.ofFn fun i =>
      if i < len then content (17 + i) else psta.secdevTypesList[i]
    devName := Vector.ofFn fun i =>
      if i < devNameLen then content (name + 4 + i) else psta.devName[i]
    devNameLen := devNameLen
    devNameLen_le := by
      dsimp only [devNameLen]
      split <;> omega }

/-- The loop of `process_assoc_req_p2p_ie` over the P2P elements of the request. -/
def processAssocReqP2pIe (psta : P2pSta) (es : List P2pAssocElement) : P2pSta :=
  es.foldl (fun psta e =>
    let psta := match e.capability with
      | some content => { psta with devCap := content 0 }
      | none => psta
    match e.deviceInfo with
      | some content => storeDeviceInfo psta content
      | none => psta) psta

/-! ## The attribute -/

/-- A station of `asoc_list`, with what follows its `secdev_types_list` in memory. -/
structure AsocSta extends P2pSta where
  behind : ℕ → UInt8

namespace AsocSta

/-- The bytes that are copied from `secdev_types_list` on. -/
def secdevTypes (c : AsocSta) : List UInt8 :=
  (List.range (c.numOfSecdevType.toNat * 8)).map fun i =>
    if h : i < 32 then c.secdevTypesList.get ⟨i, h⟩ else c.behind (i - 32)

def name (c : AsocSta) : List UInt8 :=
  if 0 < c.devNameLen then
    be16Bytes wpsAttrDeviceName ++ be16Bytes c.devNameLen ++ c.devName.toList.take c.devNameLen
  else []

/-- The record behind its length. -/
def record (c : AsocSta) : List UInt8 :=
  c.devAddr.toList ++ c.hwaddr.toList ++ c.devCap :: be16Bytes c.configMethods.toNat ++
    c.primaryDevType.toList ++
    c.numOfSecdevType :: c.secdevTypes ++ c.name

/-- The length that is counted for the record. -/
def tmplen (c : AsocSta) : UInt8 := UInt8.ofNat (c.record.length + 1)

end AsocSta

/-- `pdata_attr` up to `pcur`, `attr_len`, and the bytes at `pbuf`. -/
structure GroupInfo where
  data : List UInt8
  attrLen : UInt16
  attr : List UInt8

/-- The loop of `go_add_group_info_attr`. -/
def groupInfoLoop (asocList : List AsocSta) : List UInt8 × UInt16 :=
  asocList.foldl (fun st c =>
    if c.isP2pDevice then (st.1 ++ (c.tmplen - 1) :: c.record, st.2 + c.tmplen.toUInt16) else st)
    ([], 0)

/-- `go_add_group_info_attr`. -/
def goAddGroupInfoAttr (asocList : List AsocSta) : GroupInfo :=
  let (data, attrLen) := groupInfoLoop asocList
  ⟨data, attrLen, if 0 < attrLen then rtwSetP2pAttrContent p2pAttrGroupInfo
    (data.take attrLen.toNat) else []⟩

/-! ## What the attribute says -/

/-- A client of the group as the attribute describes it. -/
structure ClientInfo where
  devAddr : List UInt8
  interfaceAddr : List UInt8
  devCap : UInt8
  configMethods : ℕ
  primaryDevType : List UInt8
  secdevTypes : List UInt8
  devName : List UInt8
  deriving DecidableEq

/-- The name of a record : none, or one attribute of WPS. -/
def decodeName : List UInt8 → Option (List UInt8)
  | [] => some []
  | a :: b :: c :: d :: name =>
    if be16Of a b = wpsAttrDeviceName ∧ be16Of c d = name.length then some name else none
  | _ => none

/-- A record behind its length. -/
def decodeClient (bs : List UInt8) : Option ClientInfo :=
  let types := (bs.getD 23 0).toNat * 8
  if bs.length < 24 + types then none
  else (decodeName (bs.drop (24 + types))).map fun name =>
    ⟨bs.take 6, (bs.drop 6).take 6, bs.getD 12 0, be16Of (bs.getD 13 0) (bs.getD 14 0),
      (bs.drop 15).take 8,
      (bs.drop 24).take types, name⟩

/-- The records, each with its length in front. -/
def decodeClients : ℕ → List UInt8 → Option (List ClientInfo)
  | _, [] => some []
  | 0, _ :: _ => none
  | fuel + 1, n :: bs =>
    if bs.length < n.toNat then none
    else do
      let c ← decodeClient (bs.take n.toNat)
      let cs ← decodeClients fuel (bs.drop n.toNat)
      some (c :: cs)

/-- The attribute. Without clients there is none. -/
def decodeGroupInfo : List UInt8 → Option (List ClientInfo)
  | [] => some []
  | id :: lo :: hi :: content =>
    if id = p2pAttrGroupInfo ∧
      lo.toNat + 256 * hi.toNat = content.length then decodeClients content.length content
    else none
  | _ => none

/-- What is kept of a client. -/
def AsocSta.info (c : AsocSta) : ClientInfo where
  devAddr := c.devAddr.toList
  interfaceAddr := c.hwaddr.toList
  devCap := c.devCap
  configMethods := c.configMethods.toNat
  primaryDevType := c.primaryDevType.toList
  secdevTypes := c.secdevTypesList.toList.take (c.numOfSecdevType.toNat * 8)
  devName := c.devName.toList.take c.devNameLen

/-- The P2P clients in the order of the list. -/
def p2pClients (asocList : List AsocSta) : List AsocSta := asocList.filter (·.isP2pDevice)

/-- The bytes of the records. -/
def recordBytes (cs : List AsocSta) : ℕ := (cs.map fun c => c.record.length + 1).sum

/-- The attribute is right : its records are written inside the buffer, and the attribute inside the
`room` bytes at `pbuf`; the lengths are those of the records; and it says what is kept of the
clients. -/
structure GroupInfoRight (asocList : List AsocSta) (room : ℕ) : Prop where
  data_le : (goAddGroupInfoAttr asocList).data.length ≤ maxP2pIeLen
  attr_le : (goAddGroupInfoAttr asocList).attr.length ≤ room
  length_byte : ∀ c ∈ p2pClients asocList, (c.tmplen - 1).toNat = c.record.length
  attrLen_eq : (goAddGroupInfoAttr asocList).attrLen.toNat = recordBytes (p2pClients asocList)
  decodes : decodeGroupInfo (goAddGroupInfoAttr asocList).attr =
    some ((p2pClients asocList).map AsocSta.info)

/-! ## Records -/

variable {asocList cs : List AsocSta} {c : AsocSta}

theorem AsocSta.length_secdevTypes (c : AsocSta) :
    c.secdevTypes.length = c.numOfSecdevType.toNat * 8 := by
  rw [AsocSta.secdevTypes, List.length_map, List.length_range]

theorem AsocSta.length_name (c : AsocSta) : c.name.length ≤ 4 + c.devNameLen := by
  rw [AsocSta.name]
  split
  · simp [be16Bytes]
    omega
  · exact Nat.zero_le _

theorem AsocSta.length_record (c : AsocSta) :
    c.record.length = 24 + c.numOfSecdevType.toNat * 8 + c.name.length := by
  simp [AsocSta.record, c.length_secdevTypes, be16Bytes]
  omega

/-- With four types a record has at most 92 bytes. -/
theorem AsocSta.length_record_le (h : c.numOfSecdevType.toNat ≤ 4) : c.record.length ≤ 92 := by
  have hname := c.length_name
  have hlen := c.devNameLen_le
  rw [c.length_record]
  omega

/-- The types of the list are those that are copied, as far as the list goes. -/
theorem AsocSta.secdevTypes_eq (h : c.numOfSecdevType.toNat ≤ 4) :
    c.secdevTypes = c.secdevTypesList.toList.take (c.numOfSecdevType.toNat * 8) := by
  refine List.ext_getElem ?_ fun i hi hi' => ?_
  · rw [c.length_secdevTypes, List.length_take, Vector.length_toList]
    omega
  · rw [c.length_secdevTypes] at hi
    have h32 : i < 32 := by omega
    simp only [AsocSta.secdevTypes, List.getElem_map, List.getElem_range, h32, dite_true,
      List.getElem_take,
      Vector.getElem_toList]
    rfl

theorem be16Of_be16Bytes {n : ℕ} (hn : n < 65536) :
    be16Of (UInt8.ofNat (n / 256)) (UInt8.ofNat n) = n := by
  rw [be16Of, UInt8.toNat_ofNat', UInt8.toNat_ofNat']
  omega

/-- What a record says of its client. -/
def AsocSta.decoded (c : AsocSta) : ClientInfo := { c.info with secdevTypes := c.secdevTypes }

theorem decodeName_name (c : AsocSta) :
    decodeName c.name = some (c.devName.toList.take c.devNameLen) := by
  have hle := c.devNameLen_le
  rw [AsocSta.name]
  split
  · change decodeName (_ :: _ :: _ :: _ :: c.devName.toList.take c.devNameLen) = _
    rw [decodeName, if_pos]
    rw [be16Of_be16Bytes (by decide), be16Of_be16Bytes (by omega), List.length_take,
      Vector.length_toList]
    omega
  · rename_i h0
    have hzero : c.devNameLen = 0 := by omega
    rw [hzero, List.take_zero]
    rfl

theorem decodeClient_append {a b p types name : List UInt8} {cap lo hi n : UInt8}
    (ha : a.length = 6)
    (hb : b.length = 6) (hp : p.length = 8) (htypes : types.length = n.toNat * 8) :
    decodeClient (a ++ b ++ cap :: [hi, lo] ++ p ++ n :: types ++ name) =
      (decodeName name).map fun devName => ⟨a, b, cap, be16Of hi lo, p, types, devName⟩ := by
  match a, b, p, ha, hb, hp with
  | [_, _, _, _, _, _], [_, _, _, _, _, _], [_, _, _, _, _, _, _, _], _, _, _ =>
    have hdrop : (types ++ name).drop (n.toNat * 8) = name := by rw [← htypes, List.drop_left]
    have htake : (types ++ name).take (n.toNat * 8) = types := by rw [← htypes, List.take_left]
    rw [decodeClient]
    simp only [List.cons_append, List.nil_append, List.getD_cons_succ, List.getD_cons_zero,
      List.length_cons,
      List.length_append, htypes]
    rw [if_neg (by omega), Nat.add_comm 24]
    change (decodeName ((types ++ name).drop (n.toNat * 8))).map
      (fun devName => (⟨_, _, _, _, _, (types ++ name).take (n.toNat * 8), devName⟩ : ClientInfo)) =
        _
    rw [hdrop, htake]
    rfl

theorem decodeClient_record (c : AsocSta) : decodeClient c.record = some c.decoded := by
  rw [AsocSta.record, be16Bytes, decodeClient_append c.devAddr.length_toList c.hwaddr.length_toList
    c.primaryDevType.length_toList c.length_secdevTypes, decodeName_name, Option.map_some,
    be16Of_be16Bytes c.configMethods.toNat_lt]
  rfl

/-- The record says what is kept of the client exactly if that are all its types. -/
theorem AsocSta.decoded_eq_iff (c : AsocSta) : c.decoded = c.info ↔
    c.numOfSecdevType.toNat ≤ 4 := by
  constructor
  · intro h
    have htypes : c.secdevTypes = c.secdevTypesList.toList.take (c.numOfSecdevType.toNat * 8) :=
      congrArg ClientInfo.secdevTypes h
    have hlen := congrArg List.length htypes
    rw [c.length_secdevTypes, List.length_take, Vector.length_toList] at hlen
    omega
  · intro h
    rw [AsocSta.decoded, AsocSta.secdevTypes_eq h]
    rfl

/-! ## The attribute of a list -/

/-- The records, each with its length byte. -/
def attrRecords (cs : List AsocSta) : List UInt8 := cs.flatMap fun c => (c.tmplen - 1) :: c.record

theorem recordBytes_cons (c : AsocSta) (cs : List AsocSta) :
    recordBytes (c :: cs) = c.record.length + 1 + recordBytes cs := by
  rw [recordBytes, List.map_cons, List.sum_cons, ← recordBytes]

theorem length_attrRecords : ∀ cs : List AsocSta, (attrRecords cs).length = recordBytes cs
  | [] => rfl
  | c :: cs => by
    rw [attrRecords, List.flatMap_cons, ← attrRecords, List.length_append, length_attrRecords cs,
      recordBytes_cons,
      List.length_cons]

/-- The loop writes the records of the P2P clients, and sums up their length bytes. -/
theorem groupInfoLoop_eq (asocList : List AsocSta) :
    (groupInfoLoop asocList).1 = attrRecords (p2pClients asocList) ∧
    (groupInfoLoop asocList).2.toNat =
    ((p2pClients asocList).map fun c => c.tmplen.toNat).sum % 65536 := by
  induction asocList using List.reverseRecOn with
  | nil => exact ⟨rfl, rfl⟩
  | append_singleton asocList c ih =>
    obtain ⟨hdata, hlen⟩ := ih
    rw [groupInfoLoop, List.foldl_append, ← groupInfoLoop, p2pClients, List.filter_append,
      ← p2pClients]
    by_cases hc : c.isP2pDevice = true
    · simp only [List.foldl_cons, List.foldl_nil, hc, if_true, List.filter_cons,
        List.filter_nil, hdata]
      constructor
      · rw [attrRecords, attrRecords, List.flatMap_append, List.flatMap_singleton]
      · rw [UInt16.toNat_add, hlen, List.map_append, List.sum_append, UInt8.toNat_toUInt16,
          Nat.mod_add_mod]
        rfl
    · simp only [List.foldl_cons, List.foldl_nil, hc, Bool.false_eq_true, if_false,
        List.filter_cons, List.filter_nil,
        List.append_nil]
      exact ⟨hdata, hlen⟩

theorem decodeClients_records : ∀ {fuel : ℕ} {cs : List AsocSta},
    (∀ c ∈ cs, (c.tmplen - 1).toNat = c.record.length) → (attrRecords cs).length ≤ fuel →
    decodeClients fuel (attrRecords cs) = some (cs.map AsocSta.decoded)
  | fuel, [], _, _ => by
    cases fuel <;> rfl
  | 0, c :: cs, _, hfuel => by
    rw [attrRecords, List.flatMap_cons, List.length_append, List.length_cons] at hfuel
    omega
  | fuel + 1, c :: cs, h, hfuel => by
    rw [attrRecords, List.flatMap_cons, ← attrRecords] at hfuel ⊢
    rw [List.length_append, List.length_cons] at hfuel
    have hc := h c List.mem_cons_self
    rw [List.cons_append, decodeClients, hc, if_neg (by rw [List.length_append]; omega),
      List.take_left, List.drop_left,
      decodeClient_record, decodeClients_records (fun c hc => h c (List.mem_cons_of_mem _ hc))
      (by omega)]
    rfl

/-- With the right length the attribute has the records of the clients. -/
theorem attr_eq (hattr : (goAddGroupInfoAttr asocList).attrLen.toNat = recordBytes
    (p2pClients asocList)) :
    (goAddGroupInfoAttr asocList).attr = if p2pClients asocList = [] then []
      else rtwSetP2pAttrContent p2pAttrGroupInfo (attrRecords (p2pClients asocList)) := by
  have hdata : (groupInfoLoop asocList).1 = attrRecords (p2pClients asocList) :=
    (groupInfoLoop_eq asocList).1
  have hpos : 0 < (groupInfoLoop asocList).2 ↔ ¬ p2pClients asocList = [] := by
    change _ < (groupInfoLoop asocList).2.toNat ↔ _
    rw [show (groupInfoLoop asocList).2.toNat = _ from hattr]
    cases p2pClients asocList with
    | nil => decide
    | cons c cs =>
      rw [recordBytes_cons]
      exact iff_of_true (Nat.succ_pos _ |>.trans_le (Nat.le_add_right _ _)) (List.cons_ne_nil _ _)
  change (if 0 < (groupInfoLoop asocList).2 then rtwSetP2pAttrContent p2pAttrGroupInfo
    ((groupInfoLoop asocList).1.take (groupInfoLoop asocList).2.toNat) else []) = _
  rw [show (groupInfoLoop asocList).2.toNat = _ from hattr, hdata, ← length_attrRecords,
    List.take_length]
  simp only [hpos, ite_not]

/-- With the right lengths the attribute says what the records say. -/
theorem decodeGroupInfo_attr
    (hlen : ∀ c ∈ p2pClients asocList, (c.tmplen - 1).toNat = c.record.length)
    (hattr : (goAddGroupInfoAttr asocList).attrLen.toNat = recordBytes (p2pClients asocList)) :
    decodeGroupInfo (goAddGroupInfoAttr asocList).attr =
      some ((p2pClients asocList).map AsocSta.decoded) := by
  have hlt := (goAddGroupInfoAttr asocList).attrLen.toNat_lt
  rw [hattr, ← length_attrRecords] at hlt
  rw [attr_eq hattr]
  split
  · rename_i hnil
    rw [hnil]
    rfl
  · have hbytes : (UInt8.ofNat (attrRecords (p2pClients asocList)).length).toNat +
        256 * (UInt8.ofNat ((attrRecords (p2pClients asocList)).length / 256)).toNat =
          (attrRecords (p2pClients asocList)).length := by
      rw [UInt8.toNat_ofNat', UInt8.toNat_ofNat']
      omega
    rw [rtwSetP2pAttrContent, decodeGroupInfo, if_pos ⟨rfl, hbytes⟩]
    exact decodeClients_records hlen le_rfl

theorem length_attr (hattr : (goAddGroupInfoAttr asocList).attrLen.toNat = recordBytes
    (p2pClients asocList))
    (hne : p2pClients asocList ≠ []) :
    (goAddGroupInfoAttr asocList).attr.length = 3 + recordBytes (p2pClients asocList) := by
  rw [attr_eq hattr, if_neg hne, ← length_attrRecords]
  simp only [rtwSetP2pAttrContent, List.length_cons]
  omega

/-- With four types at most the eight bits hold the length. -/
theorem AsocSta.toNat_tmplen (h : c.numOfSecdevType.toNat ≤ 4) :
    c.tmplen.toNat = c.record.length + 1 ∧ (c.tmplen - 1).toNat = c.record.length := by
  have hlen := c.length_record_le h
  have htmp : c.tmplen.toNat = c.record.length + 1 := by
    rw [AsocSta.tmplen, UInt8.toNat_ofNat']
    omega
  have hone : (1 : UInt8) ≤ c.tmplen := by
    rw [UInt8.le_iff_toNat_le, htmp]
    exact Nat.le_add_left _ _
  exact ⟨htmp, by rw [UInt8.toNat_sub_of_le _ _ hone, htmp]; rfl⟩

/-- The attribute is right exactly if no client has more than the four types that are kept, and the
records fit in their buffer and the attribute in the room at `pbuf`. -/
theorem groupInfoRight_iff (asocList : List AsocSta) (room : ℕ) : GroupInfoRight asocList room ↔
    (∀ c ∈ p2pClients asocList, c.numOfSecdevType.toNat ≤ 4) ∧
    recordBytes (p2pClients asocList) ≤ maxP2pIeLen ∧
      (p2pClients asocList ≠ [] → 3 + recordBytes (p2pClients asocList) ≤ room) := by
  have hdata : (goAddGroupInfoAttr asocList).data.length = recordBytes (p2pClients asocList) := by
    rw [← length_attrRecords, ← (groupInfoLoop_eq asocList).1]
    rfl
  constructor
  · intro h
    refine ⟨fun c hc => ?_, hdata ▸ h.data_le, fun hne => length_attr h.attrLen_eq hne ▸ h.attr_le⟩
    have hsays := (decodeGroupInfo_attr h.length_byte h.attrLen_eq).symm.trans h.decodes
    exact c.decoded_eq_iff.mp (List.map_inj_left.mp (Option.some.inj hsays) c hc)
  · rintro ⟨htypes, hle, hroom⟩
    have hlen : ∀ c ∈ p2pClients asocList, (c.tmplen - 1).toNat = c.record.length := fun c hc =>
      (AsocSta.toNat_tmplen (htypes c hc)).2
    have hattr : (goAddGroupInfoAttr asocList).attrLen.toNat = recordBytes
      (p2pClients asocList) := by
      have hsum : ((p2pClients asocList).map fun c => c.tmplen.toNat).sum = recordBytes
        (p2pClients asocList) :=
        congrArg List.sum (List.map_inj_left.mpr fun c hc => (AsocSta.toNat_tmplen (htypes c hc)).1)
      rw [maxP2pIeLen] at hle
      change (groupInfoLoop asocList).2.toNat = _
      rw [(groupInfoLoop_eq asocList).2, hsum]
      omega
    refine ⟨hdata.symm ▸ hle, ?_, hlen, hattr, ?_⟩
    · by_cases hne : p2pClients asocList = []
      · rw [attr_eq hattr, if_pos hne]
        exact Nat.zero_le _
      · rw [length_attr hattr hne]
        exact hroom hne
    · rw [decodeGroupInfo_attr hlen hattr]
      exact congrArg some (List.map_inj_left.mpr fun c hc => c.decoded_eq_iff.mpr (htypes c hc))

/-- A station before its request. -/
def freshP2pSta : P2pSta where
  isP2pDevice := true
  hwaddr := zeroAddr
  devAddr := zeroAddr
  devCap := 0
  configMethods := 0
  primaryDevType := Vector.replicate 8 0
  numOfSecdevType := 0
  secdevTypesList := Vector.replicate 32 0
  devName := Vector.replicate 32 0
  devNameLen := 0
  devNameLen_le := Nat.zero_le _

/-- A client that sent `n` secondary device types. -/
def sampleClient (n : UInt8) : AsocSta where
  toP2pSta := processAssocReqP2pIe freshP2pSta [⟨none, some fun i => if i = 16 then n else 0⟩]
  behind := fun _ => 0

/-- A fifth type is not kept, and the attribute has it all the same. -/
theorem not_groupInfoRight_sampleClient : ¬ GroupInfoRight [sampleClient 5] maxP2pIeLen := by
  intro h
  have hdecodes := h.decodes
  revert hdecodes
  decide +kernel

end Rtl8188eu
